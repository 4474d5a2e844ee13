import IotPanel.Lib.Pool
import IotPanel.Session.Keys
import Mathlib.Data.Set.Insert

/-!
# Runs of the session service

The calls are the threads of a pool and Redis is what they share; a step of a thread is one
Redis command. Beside Redis the shared state records, for the specifications only, which ids
were drawn, who owns each session, which sessions have been created, and which ones a
revoking call has deleted or has finished revoking.
-/

namespace IotPanel.Session

/-- A running call. `owed` are the tracking keys that a scan under way must still return,
because they have been present since the call began. `victims` are the sessions that the call
revokes: those that existed when it began. -/
structure Task where
  call : Call
  owed : Set String
  victims : Set String

structure State where
  redis : Redis
  drawn : Set String
  owner : String → Option String
  created : Set String
  struck : Set String
  revoked : Set String

def State.initial : State :=
  { redis := { store := Store.empty, now := 0 }, drawn := ∅, owner := fun _ => none,
    created := ∅, struck := ∅, revoked := ∅ }

inductive Event
  | tick (d : ℕ)
  | start (c : Call)
  | executed (c : Call) (now : ℕ)
  | failed (c : Call)

/-- The calls that can be made. `uuidv4` draws a new id for each session; the other methods
take whatever id the cookie holds. -/
inductive Opens (s : State) : Call → Prop
  | create {sid : String} {dto : CreateSessionDto} (hsid : IsUuid sid) (hu : IsUuid dto.userId)
      (hnew : sid ∉ s.drawn) : Opens s (createSession sid dto s.redis.now)
  | activate (sid : String) : Opens s (canActivate sid)
  | extend (sid : String) : Opens s (extendSession sid)
  | destroy (sid : String) : Opens s (destroySession sid)
  | invalidate {u : String} (hu : IsUuid u) : Opens s (invalidateUserSessions u)

/-- Starting a call draws the id of a new session. -/
def State.draw (s : State) : Call → State
  | .createSetSession sid _ => { s with drawn := insert sid s.drawn }
  | _ => s

/-- The sessions that a revoking call is to revoke. -/
def State.victims (s : State) : Call → Set String
  | .destroyGet sid => {v | v = sid ∧ v ∈ s.created}
  | .invalidateScan u _ => {v | v ∈ s.created ∧ s.owner v = some u}
  | _ => ∅

/-- The keys that a scan beginning now must return if they stay. -/
def State.owed (s : State) : Call → Set String
  | .invalidateScan u _ => {k | k ∈ s.redis.liveKeys ∧ Matches u k}
  | _ => ∅

def State.task (s : State) (c : Call) : Task :=
  { call := c, owed := s.owed c, victims := s.victims c }

/-- What Redis guarantees of a reply to `SCAN`: it holds present keys that match the pattern,
and once the cursor is back at `0` every key that was present all the time has been returned. -/
def ReplyOk (r : Redis) (t : Task) (reply : Batch) : Prop :=
  match t.call with
  | .invalidateScan u _ =>
    (∀ k ∈ reply.keys, k ∈ r.liveKeys ∧ Matches u k) ∧
      (reply.nextCursor = "0" → ∀ k ∈ t.owed, k ∈ reply.keys)
  | _ => True

/-- The keys that the command of a call returns from a scan. -/
def Call.scanned (reply : Batch) : Call → Set String
  | .invalidateScan _ _ => {k | k ∈ reply.keys}
  | _ => ∅

/-- The session whose data the command of a call writes. -/
def Call.saves : Call → Option (String × SessionData)
  | .createSetSession sid d | .extendSetSession sid d => some (sid, d)
  | _ => none

/-- The session that the command of a call marks as its owner's. -/
def Call.tracks : Call → Option String
  | .createSetTracking sid _ | .extendSetTracking sid _ => some sid
  | _ => none

/-- The session whose data the command of a call deletes. -/
def Call.deletes : Call → Option String
  | .destroyDelSession sid _ => some sid
  | .invalidateDelSession _ key _ _ => some (sessionIdOf key)
  | _ => none

/-- The session whose tracking key the command of a call deletes. -/
def Call.untracks : Call → Option String
  | .destroyDelTracking sid _ => some sid
  | .invalidateDelTracking _ key _ _ => some (sessionIdOf key)
  | _ => none

/-- What is recorded when the command of `t` has run and left `next` to do. -/
def State.record (s : State) (t : Task) (r : Redis) (next : Call ⊕ Result) : State where
  redis := r
  drawn := s.drawn
  owner := match t.call with
    | .createSetSession sid d => fun v => if v = sid then some d.userId else s.owner v
    | _ => s.owner
  created := match t.call with
    | .createSetTracking sid _ => insert sid s.created
    | _ => s.created
  struck := s.struck ∪ {v | t.call.deletes = some v} ∪ (if next.isRight then t.victims else ∅)
  revoked := s.revoked ∪ (if next.isRight then t.victims else ∅)

/-- The call as it goes on, if it does. -/
def Task.resume (t : Task) (reply : Batch) : Call ⊕ Result → Option Task
  | .inl c => some { t with call := c, owed := t.owed \ t.call.scanned reply }
  | .inr _ => none

/-- A call that goes on is at the next await, and owes what the command has not scanned. -/
theorem Task.resume_eq {t w : Task} {reply : Batch} {next : Call ⊕ Result}
    (h : t.resume reply next = some w) :
    next = .inl w.call ∧ w.owed = t.owed \ t.call.scanned reply := by
  cases next with
  | inl c =>
    cases h
    exact ⟨rfl, rfl⟩
  | inr r => cases h

/-- A command runs and the call goes on to its next await, or the command fails and the call
throws. -/
inductive Exec (timeout : ℕ) (s : State) (t : Task) : Event → State → Option Task → Prop
  | command (reply : Batch) (hreply : ReplyOk s.redis t reply) :
      Exec timeout s t (.executed t.call s.redis.now)
        (s.record t (t.call.next timeout s.redis reply).1 (t.call.next timeout s.redis reply).2)
        (t.resume reply (t.call.next timeout s.redis reply).2)
  | fault : Exec timeout s t (.failed t.call) s none

/-- The session service as a pool of calls; `timeout` is `SESSION_TIMEOUT` in seconds. -/
def machine (timeout : ℕ) : Semantics State Task Event where
  env s e s' := ∃ d, e = .tick d ∧ s' = { s with redis := s.redis.tick d }
  spawn s e s' t := ∃ c, Opens s c ∧ e = .start c ∧ s' = s.draw c ∧ t = s.task c
  exec := Exec timeout
  observe s t := { t with owed := t.owed ∩ s.redis.liveKeys }

/-! ### Scripted runs -/

/-- What a scheduler does next. -/
inductive Move
  | tick (d : ℕ)
  | start (i : ℕ) (c : Call)
  | command (i : ℕ) (reply : Batch)
  | fault (i : ℕ)

/-- The pool after a move. A move of a thread that does not run changes nothing. -/
def move (T : ℕ) (p : Pool State Task) : Move → Pool State Task
  | .tick d =>
    let s := { p.shared with redis := p.shared.redis.tick d }
    ⟨s, fun j => (p.threads j).map ((machine T).observe s)⟩
  | .start i c => p.put (machine T) (p.shared.draw c) i (some (p.shared.task c))
  | .command i reply => match p.threads i with
    | some t =>
      let next := t.call.next T p.shared.redis reply
      p.put (machine T) (p.shared.record t next.1 next.2) i (t.resume reply next.2)
    | none => p
  | .fault i => p.put (machine T) p.shared i none

/-- What makes a move a step of the machine under the policy `admits`. -/
def Legal (C : State → Task → Event → Prop) (admits : Pool State Task → Prop)
    (p : Pool State Task) : Move → Prop
  | .tick _ => True
  | .start i c => p.threads i = none ∧ admits p ∧ Opens p.shared c
  | .command i reply => ∃ t, p.threads i = some t ∧ ReplyOk p.shared.redis t reply ∧
      C p.shared t (.executed t.call p.shared.redis.now)
  | .fault i => ∃ t, p.threads i = some t ∧ C p.shared t (.failed t.call)

/-- A script of legal moves, all of which lead to pools that satisfy `Q`. -/
def LegalScript (T : ℕ) (C : State → Task → Event → Prop) (admits Q : Pool State Task → Prop) :
    Pool State Task → List Move → Prop
  | _, [] => True
  | p, m :: ms =>
    Legal C admits p m ∧ Q (move T p m) ∧ LegalScript T C admits Q (move T p m) ms

variable {T : ℕ} {C : State → Task → Event → Prop} {admits Q : Pool State Task → Prop}

theorem step_of_legal {p : Pool State Task} {m : Move} (h : Legal C admits p m) :
    ∃ e, Pool.Step ((machine T).restrict C) admits p e (move T p m) := by
  cases m with
  | tick d => exact ⟨_, .env ⟨d, rfl, rfl⟩⟩
  | start i c => exact ⟨_, .spawn i h.1 h.2.1 ⟨c, h.2.2, rfl, rfl, rfl⟩⟩
  | command i reply =>
    obtain ⟨t, ht, hreply, hC⟩ := h
    simp only [move, ht]
    exact ⟨_, .exec i ht ⟨.command reply hreply, hC⟩⟩
  | fault i =>
    obtain ⟨t, ht, hC⟩ := h
    exact ⟨_, .exec i ht ⟨.fault, hC⟩⟩

/-- A legal script is a run of the machine. -/
theorem run_of_script {p : Pool State Task} {ms : List Move}
    (h : LegalScript T C admits Q p ms) :
    ∃ tr, Run (fun p e q => Pool.Step ((machine T).restrict C) admits p e q ∧ Q q) p tr
      (ms.foldl (move T) p) := by
  induction ms generalizing p with
  | nil => exact ⟨_, .refl⟩
  | cons m ms ih =>
    obtain ⟨hlegal, hQ, hrest⟩ := h
    obtain ⟨e, hs⟩ := step_of_legal (T := T) hlegal
    obtain ⟨tr, hrun⟩ := ih hrest
    exact ⟨_, (Run.single ⟨hs, hQ⟩).trans hrun⟩

def visitor : CreateSessionDto :=
  { userId := "7d9f1c2a-58b3-4e60-9a41-0c6d2e8b7f13", username := "ana",
    roles := [.str "viewer"], ipAddress := "::1", userAgent := "curl" }

def visitorSession : String := "b1f0a9d4-3c27-4d85-8e12-5f7a60c9e3d2"

theorem opens_visitor : Opens .initial (createSession visitorSession visitor 0) :=
  .create (by decide) (by decide) (Set.notMem_empty _)

/-- A login has begun and its session has been written. -/
def halfLogin : List Move :=
  [.start 0 (createSession visitorSession visitor 0), .command 0 ⟨"0", []⟩]

def login : List Move := halfLogin ++ [.command 0 ⟨"0", []⟩]

end IotPanel.Session
