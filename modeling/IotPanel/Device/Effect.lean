import IotPanel.Device.Machine

/-!
# What a step does

One step of a request or of a delivery, with all that it can change. The invariants of a run are
shown from these cases, and no program is opened for them again.
-/

namespace IotPanel.Device

open Responser (pendingKey)

/-- The clock is the same, nothing is written to the cache and nothing is sent there. -/
structure World.SameCache (w w' : World) : Prop where
  now : w'.now = w.now
  cache : w'.cache = w.cache
  inFlight : w'.inFlight = w.inFlight

namespace State

/-- The entry `f` has been sent. -/
def send (s : State) (f : Setex) : State :=
  { s with world := { s.world with inFlight := s.world.inFlight ++ [f] } }

/-- The entry of `op` has been sent under the id `r`. -/
def issue (s : State) (op : RequestOp) (r : String) : State :=
  { s.send ⟨pendingKey (some (.str r)), op.entry r⟩ with
    issued := fun v => if v = r then some op else s.issued v }

/-- The key has been deleted by a delivery. -/
def delete (s : State) (id : ℕ) (key : String) : State :=
  { s with world := { s.world with cache := s.world.cache.del key }
           deleted := (id, key) :: s.deleted }

end State

/-- What the delivery reads under the key of its request. -/
def State.lookup (s : State) (d : Delivery) : Option Json :=
  s.world.cache.get s.world.now (pendingKey (d.payload.get "requestId"))

/-- A step of the thread `id` from one job to the next. -/
inductive Does (s : State) (id : ℕ) : Job → Event → State → Job → Prop
  | request {op : RequestOp} {q : RequestPhase} {c : Command} {r : Except Exception c.Reply}
      {w : World} (hw : s.world.SameCache w) :
      Does s id (.request op q) (.did id (.request op q) c r) { s with world := w } (.request op q)
  | drew {op : RequestOp} {r : String} (huuid : Session.IsUuid r) (hnew : s.drew r = none) :
      Does s id (.request op .fresh) (.did id (.request op .fresh) .uuid (.ok r))
        { s with drew := fun v => if v = r then some id else s.drew v } (.request op (.drew r))
  | issued {op : RequestOp} {r : String} :
      Does s id (.request op (.drew r))
        (.did id (.request op (.drew r))
          (.cacheSetex (pendingKey (some (.str r))) (op.entry r)) (.ok ()))
        (s.issue op r) (.request op (.cached r))
  | undefined {op : RequestOp} :
      Does s id (.request op .fresh)
        (.did id (.request op .fresh) (.cacheSetex undefinedEntry.key undefinedEntry.value) (.ok ()))
        (s.send undefinedEntry) (.request op .fresh)
  | delivery {d : Delivery} {q : DeliveryPhase} {c : Command} {r : Except Exception c.Reply}
      {w : World} (hw : s.world.SameCache w) (hr : ∀ a, r = .ok a → State.isEffect c = false) :
      Does s id (.delivery d q) (.did id (.delivery d q) c r) { s with world := w } (.delivery d q)
  | found {d : Delivery} (hvalid : d.Validated) (hchecked : d.checked (s.lookup d) = .accepted) :
      Does s id (.delivery d .checking)
        (.did id (.delivery d .checking) (.cacheGet (pendingKey (d.payload.get "requestId")))
          (.ok (s.lookup d)))
        { s with accepted := (id, d, s.world.now) :: s.accepted } (.delivery d .accepted)
  | refused {d : Delivery} {r : Except Exception (Option Json)}
      (hr : ∀ cached, r = .ok cached → cached = s.lookup d ∧ d.checked cached = .refused) :
      Does s id (.delivery d .checking)
        (.did id (.delivery d .checking) (.cacheGet (pendingKey (d.payload.get "requestId"))) r)
        s (.delivery d .refused)
  | deleted {d : Delivery} :
      Does s id (.delivery d .accepted)
        (.did id (.delivery d .accepted) (.cacheDel (pendingKey (d.payload.get "requestId")))
          (.ok ()))
        (s.delete id (pendingKey (d.payload.get "requestId"))) (.delivery d .accepted)
  | applied {d : Delivery} {c : Command} {r : c.Reply} {w : World} (hw : s.world.SameCache w)
      (hc : State.isEffect c = true) :
      Does s id (.delivery d .accepted) (.did id (.delivery d .accepted) c (.ok r))
        { s with world := w, applied := (id, d) :: s.applied } (.delivery d .accepted)

namespace Event

/-- The delivery that is compared with the cache. -/
def reads : Event → Option Delivery
  | .did _ (.delivery d _) (.cacheGet _) _ => some d
  | _ => none

/-- The thread, the delivery and the device of a change to the sensors or their records. -/
def changes : Event → Option (ℕ × Delivery × JsVal)
  | .did id (.delivery d _) c (.ok _) => c.touches.map fun deviceId => (id, d, deviceId)
  | _ => none

end Event

section Steps

variable {cfg : Config} {s : State} {id : ℕ}

theorem World.SameCache.refl (w : World) : w.SameCache w := ⟨rfl, rfl, rfl⟩

theorem does_request {op : RequestOp} {q : RequestPhase} {c : Command} {fresh : String}
    (hallowed : op.protocol.allowed q c)
    (hfresh : c = .uuid → Session.IsUuid fresh ∧ s.drew fresh = none) :
    Does s id (.request op q) (.did id (.request op q) c (.ok (cfg.execute fresh s.world c).1))
      { s.recordRequest id op q c (.ok (cfg.execute fresh s.world c).1) with
        world := (cfg.execute fresh s.world c).2 }
      (.request op (op.protocol.next q c (.ok (cfg.execute fresh s.world c).1))) := by
  cases c with
  | uuid =>
    obtain rfl : q = .fresh := hallowed
    exact .drew (hfresh rfl).1 (hfresh rfl).2
  | cacheSetex key value =>
    obtain ⟨r, rfl, hf⟩ | ⟨rfl, hf⟩ := hallowed
    · cases hf
      exact .issued
    · cases hf
      exact .undefined
  | cacheGet _ => exact hallowed.elim
  | cacheDel _ => exact hallowed.elim
  | saveSensor _ => exact hallowed.elim
  | saveTelemetry _ => exact hallowed.elim
  | saveHardwareStatus _ => exact hallowed.elim
  | emit _ => exact hallowed.elim
  | _ => exact .request ⟨rfl, rfl, rfl⟩

theorem does_request_error {op : RequestOp} {q : RequestPhase} {c : Command} {e : Exception}
    (hfallible : c.fallible = true) :
    Does s id (.request op q) (.did id (.request op q) c (.error e))
      { s.recordRequest id op q c (.error e) with world := s.world }
      (.request op (op.protocol.next q c (.error e))) := by
  cases c with
  | cacheSetex _ _ => cases hfallible
  | _ => exact .request (.refl _)

theorem does_delivery {d : Delivery} {q : DeliveryPhase} {c : Command} {fresh : String}
    (hallowed : d.protocol.allowed q c) :
    Does s id (.delivery d q) (.did id (.delivery d q) c (.ok (cfg.execute fresh s.world c).1))
      { s.recordDelivery id d c (.ok (cfg.execute fresh s.world c).1) with
        world := (cfg.execute fresh s.world c).2 }
      (.delivery d (d.protocol.next q c (.ok (cfg.execute fresh s.world c).1))) := by
  cases c with
  | cacheGet key =>
    obtain ⟨rfl, rfl, hvalid⟩ := hallowed
    show Does s id _ (.did id _ (.cacheGet (pendingKey _)) (.ok (s.lookup d)))
      { (if d.checked (s.lookup d) = .accepted then
          { s with accepted := (id, d, s.world.now) :: s.accepted }
        else s) with world := s.world } (.delivery d (d.checked (s.lookup d)))
    split
    · rename_i hchecked
      rw [hchecked]
      exact .found hvalid hchecked
    · rename_i hchecked
      have hrefused : d.checked (s.lookup d) = .refused := by
        unfold Delivery.checked at *
        split <;> simp_all
      rw [hrefused]
      refine .refused fun cached h => ?_
      cases h
      exact ⟨rfl, hrefused⟩
  | cacheDel key =>
    obtain ⟨rfl, rfl⟩ := hallowed
    exact .deleted
  | updateSensors _ _ =>
    obtain ⟨rfl, -⟩ := hallowed
    exact .applied ⟨rfl, rfl, rfl⟩ rfl
  | saveSensor _ =>
    obtain ⟨rfl, -⟩ := hallowed
    exact .applied ⟨rfl, rfl, rfl⟩ rfl
  | saveTelemetry _ =>
    obtain ⟨rfl, -⟩ := hallowed
    exact .applied ⟨rfl, rfl, rfl⟩ rfl
  | saveHardwareStatus _ =>
    obtain ⟨rfl, -⟩ := hallowed
    exact .applied ⟨rfl, rfl, rfl⟩ rfl
  | emit _ =>
    obtain ⟨rfl, -⟩ := hallowed
    exact .applied ⟨rfl, rfl, rfl⟩ rfl
  -- what only a request does
  | uuid => exact hallowed.elim
  | cacheSetex _ _ => exact hallowed.elim
  | publish _ _ _ => exact hallowed.elim
  | _ => exact .delivery ⟨rfl, rfl, rfl⟩ fun _ _ => rfl

theorem does_delivery_error {d : Delivery} {q : DeliveryPhase} {c : Command} {e : Exception}
    (hallowed : d.protocol.allowed q c) :
    Does s id (.delivery d q) (.did id (.delivery d q) c (.error e))
      { s.recordDelivery id d c (.error e) with world := s.world }
      (.delivery d (d.protocol.next q c (.error e))) := by
  cases c with
  | cacheGet key =>
    obtain ⟨rfl, rfl, -⟩ := hallowed
    exact .refused fun cached h => by cases h
  | _ => exact .delivery (.refl _) fun a h => by cases h

/-- A step of a thread that follows its protocol is one of these, and the thread still follows
its protocol. -/
theorem does_of_exec {t : Thread} {e : Event} {s' : State} {t' : Option Thread}
    (hfollows : t.job.Follows t.prog) (h : Exec cfg s t e s' t') :
    ∃ u, t' = some u ∧ u.id = t.id ∧ u.job.Follows u.prog ∧ Does s t.id t.job e s' u.job := by
  obtain ⟨id, job, prog⟩ := t
  cases h with
  | replied fresh hprog hfresh =>
    subst hprog
    refine ⟨_, rfl, rfl, ?_⟩
    cases job with
    | request op q => exact ⟨hfollows.2 _, does_request hfollows.1 hfresh⟩
    | delivery d q => exact ⟨hfollows.2 _, does_delivery hfollows.1⟩
  | failed e hprog hfallible =>
    subst hprog
    refine ⟨_, rfl, rfl, ?_⟩
    cases job with
    | request op q => exact ⟨hfollows.2 _, does_request_error hfallible⟩
    | delivery d q => exact ⟨hfollows.2 _, does_delivery_error hfollows.1⟩

/-- A command that a thread has been replied to is one that its protocol allows. -/
theorem allows_of_exec {t : Thread} {i : ℕ} {job : Job} {c : Command}
    {r : Except Exception c.Reply} {s' : State} {t' : Option Thread}
    (hfollows : t.job.Follows t.prog) (h : Exec cfg s t (.did i job c r) s' t') :
    i = t.id ∧ job = t.job ∧ job.Allows c := by
  obtain ⟨id, job, prog⟩ := t
  cases h with
  | replied fresh hprog hfresh =>
    subst hprog
    cases job <;> exact ⟨rfl, rfl, hfollows.1⟩
  | failed e hprog hfallible =>
    subst hprog
    cases job <;> exact ⟨rfl, rfl, hfollows.1⟩

end Steps

end IotPanel.Device
