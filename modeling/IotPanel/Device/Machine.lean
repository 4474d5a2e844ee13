import IotPanel.Device.Protocol
import IotPanel.Lib.Pool
import IotPanel.Session.Keys

/-!
# Runs of requests and deliveries

Requests and deliveries are threads over the shared repositories and the cache; a step of a
thread is one command. A write to the cache that is not awaited is executed by a step of its
own, at any later time, or is lost.

Beside the repositories the state records, for the specifications only, what has happened to
each request id and to each delivery.
-/

namespace IotPanel.Device

open Responser (pendingKey)

/-- A request or a delivery, and how far it has come. -/
inductive Job
  | request (op : RequestOp) (phase : RequestPhase)
  | delivery (d : Delivery) (phase : DeliveryPhase)

structure Thread where
  id : ℕ
  job : Job
  prog : Prog Unit

namespace Job

/-- The phase after a reply. -/
def advance (c : Command) (r : Except Exception c.Reply) : Job → Job
  | request op q => request op (op.protocol.next q c r)
  | delivery d q => delivery d (d.protocol.next q c r)

/-- The rest of the job follows its protocol. -/
def Follows (prog : Prog Unit) : Job → Prop
  | request op q => prog.wp op.protocol (fun _ _ => True) q
  | delivery d q => prog.wp d.protocol (fun _ _ => True) q

def Allows (c : Command) : Job → Prop
  | request op q => op.protocol.allowed q c
  | delivery d q => d.protocol.allowed q c

end Job

/-- What can be started. -/
inductive Start
  | request (op : RequestOp)
  | delivery (d : Delivery)

namespace Start

def job : Start → Job
  | request op => .request op .fresh
  | delivery d => .delivery d .checking

def program (cfg : Config) : Start → Prog Unit
  | request op => op.program cfg
  | delivery d => ListenerService.listen cfg d.kind d.topic d.payload

theorem follows (cfg : Config) (x : Start) : x.job.Follows (x.program cfg) := by
  cases x with
  | request op => exact op.wp_program cfg
  | delivery d => exact d.wp_listen cfg

end Start

inductive Event
  | tick (d : ℕ)
  | start (x : Start)
  | did (id : ℕ) (job : Job) (c : Command) (r : Except Exception c.Reply)
  | landed (f : Setex)
  | lost (f : Setex)
  | saved (t : Telemetry)

/-- `drew`: the request that has drawn an id. `issued`: the operation whose entry has been sent
to the cache under the id. `landed`: when the entry has reached the cache. `accepted`: the
deliveries that have found their request in the cache, and when. `deleted`: the deliveries that
have deleted a key from the cache. `applied`: the deliveries that have written to the
repositories or emitted to the clients. -/
structure State where
  world : World
  started : ℕ
  drew : String → Option ℕ
  issued : String → Option RequestOp
  landed : String → Option ℕ
  accepted : List (ℕ × Delivery × ℕ)
  deleted : List (ℕ × String)
  applied : List (ℕ × Delivery)

namespace State

/-- Nothing has been requested yet. -/
def initial (w : World) : State :=
  { world := { w with cache := Store.empty, inFlight := [] }, started := 0, drew := fun _ => none,
    issued := fun _ => none, landed := fun _ => none, accepted := [], deleted := [], applied := [] }

/-- An entry reaches the cache. -/
def land (s : State) (ttl : ℕ) (f : Setex) (rest : List Setex) : State :=
  { s with
    world := s.world.land ttl f rest
    landed := fun r =>
      if (s.issued r).isSome ∧ f.key = pendingKey (some (.str r)) then some s.world.now
      else s.landed r }

def isEffect (c : Command) : Bool :=
  match c with
  | .emit _ => true
  | c => c.touches.isSome

/-- What is recorded of a command of a request. -/
def recordRequest (s : State) (id : ℕ) (op : RequestOp) (q : RequestPhase) (c : Command)
    (r : Except Exception c.Reply) : State :=
  match c, r with
  | .uuid, .ok u => { s with drew := fun v => if v = u then some id else s.drew v }
  | .cacheSetex _ _, _ =>
    match q with
    | .drew u => { s with issued := fun v => if v = u then some op else s.issued v }
    | _ => s
  | _, _ => s

/-- What is recorded of a command of a delivery. -/
def recordDelivery (s : State) (id : ℕ) (d : Delivery) (c : Command)
    (r : Except Exception c.Reply) : State :=
  match c, r with
  | .cacheGet _, .ok cached =>
    if d.checked cached = .accepted then
      { s with accepted := (id, d, s.world.now) :: s.accepted }
    else s
  | .cacheDel key, .ok _ => { s with deleted := (id, key) :: s.deleted }
  | c, .ok _ => if isEffect c then { s with applied := (id, d) :: s.applied } else s
  | _, _ => s

/-- A command has been replied to, and has left the repositories in `w`. -/
def record (s : State) (t : Thread) (c : Command) (r : Except Exception c.Reply) (w : World) :
    State :=
  match t.job with
  | .request op q => { s.recordRequest t.id op q c r with world := w }
  | .delivery d _ => { s.recordDelivery t.id d c r with world := w }

end State

/-- A command is executed, with a new id for those that draw one, or fails. -/
inductive Exec (cfg : Config) (s : State) (t : Thread) : Event → State → Option Thread → Prop
  | replied {c : Command} {k : Except Exception c.Reply → Prog Unit} (fresh : String)
      (hprog : t.prog = .await c k)
      (hfresh : c = .uuid → Session.IsUuid fresh ∧ s.drew fresh = none) :
      Exec cfg s t (.did t.id t.job c (.ok (cfg.execute fresh s.world c).1))
        (s.record t c (.ok (cfg.execute fresh s.world c).1) (cfg.execute fresh s.world c).2)
        (some ⟨t.id, t.job.advance c (.ok (cfg.execute fresh s.world c).1),
          k (.ok (cfg.execute fresh s.world c).1)⟩)
  | failed {c : Command} {k : Except Exception c.Reply → Prog Unit} (e : Exception)
      (hprog : t.prog = .await c k) (hfallible : c.fallible = true) :
      Exec cfg s t (.did t.id t.job c (.error e)) (s.record t c (.error e) s.world)
        (some ⟨t.id, t.job.advance c (.error e), k (.error e)⟩)

inductive Env (cfg : Config) (s : State) : Event → State → Prop
  | tick (d : ℕ) : Env cfg s (.tick d) { s with world := { s.world with now := s.world.now + d } }
  | landed {f : Setex} {before after : List Setex} (h : s.world.inFlight = before ++ f :: after) :
      Env cfg s (.landed f) (s.land cfg.ttl f (before ++ after))
  | lost {f : Setex} {before after : List Setex} (h : s.world.inFlight = before ++ f :: after) :
      Env cfg s (.lost f) { s with world := { s.world with inFlight := before ++ after } }
  | saved {t : Telemetry} {before after : List Telemetry}
      (h : s.world.unsaved = before ++ t :: after) :
      Env cfg s (.saved t)
        { s with
          world :=
            { s.world with
              unsaved := before ++ after, telemetry := s.world.telemetry ++ [t] } }

def machine (cfg : Config) : Semantics State Thread Event where
  env := Env cfg
  spawn s e s' t := ∃ x : Start, e = .start x ∧ s' = { s with started := s.started + 1 } ∧
    t = ⟨s.started, x.job, x.program cfg⟩
  exec := Exec cfg
  observe _ t := t

end IotPanel.Device
