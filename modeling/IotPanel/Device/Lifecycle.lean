import IotPanel.Device.Errands
import IotPanel.Device.Provenance
import IotPanel.Device.Script
import IotPanel.Lib.Recall

/-!
# What becomes of a sensor

A row is stored by a discovery, and is never removed. Its columns are only written by the calls
that they belong to: it is assigned by a client, once and for all, and deleted and restored any
number of times. Of the messages only discoveries and heartbeats ever write: what the others carry
as their code is a text when they are valid, and a number when their handlers go on.
-/

namespace IotPanel.Device

open Responser (ResponseType CodedType pendingKey)
open ResponserService (discoveredId discoveredSensor)
open DeviceService (assigned invalidSensorTypes)

/-- The message has been valid, and has found its request in the cache. -/
def Confirmed (tr : List ErrandEvent) (d : Delivery) : Prop :=
  d.Validated ∧ ∃ g cached, d.checked cached = .accepted ∧
    .did (.message d) g (.cacheGet (pendingKey (d.payload.get "requestId"))) (.ok cached) ∈ tr

/-- What a call needs for its writes: its message has been accepted and has the code of its
handler, or the guards have let it through. -/
def Entitled (tr : List ErrandEvent) : Errand → Prop
  | .message d => Confirmed tr d ∧ d.proceeds = true
  | .arrival a => a.passes
  | _ => False

/-- An entitled call has made the update of the rows with the id. -/
def Wrote (cfg : Config) (tr : List ErrandEvent) (deviceId : JsVal) (k : Errand) : Prop :=
  Entitled tr k ∧ cfg.matchesId k.deviceId deviceId = true ∧
    ∃ g u, k.sets = some u ∧ .did k g (.updateSensors k.deviceId u) (.ok ()) ∈ tr

/-- An accepted message of the kind has written the rows with the id. -/
def Told (cfg : Config) (tr : List ErrandEvent) (deviceId : JsVal) (kind : ResponseType)
    (P : Json → Prop) : Prop :=
  ∃ d, d.kind = kind ∧ P d.payload ∧ Wrote cfg tr deviceId (.message d)

/-- A client that the guards have let through has written the rows with the id. -/
def Ordered (cfg : Config) (tr : List ErrandEvent) (deviceId : JsVal)
    (P : DeviceRoute → Prop) : Prop :=
  ∃ a route, a.entry = .http route ∧ P route ∧ Wrote cfg tr deviceId (.arrival a)

/-- The functionality is among the capabilities of one of the rows that the call looks up. -/
def Capabilities (cfg : Config) (rows : List Sensor) (k : Errand) (f : JsVal) : Prop :=
  ∃ row ∈ rows, cfg.matchesId k.deviceId row.deviceId = true ∧
    invalidSensorTypes row.capabilities f = .ok []

/-- A client has assigned the functionality to the row. -/
def Assigned (cfg : Config) (tr : List ErrandEvent) (rows : List Sensor) (deviceId f : JsVal) :
    Prop :=
  ∃ a body, a.entry = .http (.provisionDevice body) ∧
    f = some (.arr (body.functionality.map .str)) ∧ Wrote cfg tr deviceId (.arrival a) ∧
      Capabilities cfg rows (.arrival a) f

/-- Which calls have made the row `v'` of the row `v`, column by column. -/
structure Traced (cfg : Config) (tr : List ErrandEvent) (rows : List Sensor) (v v' : Sensor) :
    Prop where
  identity : v'.identity = v.identity
  lastReboot : v'.lastReboot = v.lastReboot
  lastUpgrade : v'.lastUpgrade = v.lastUpgrade
  assigned : v'.provisionState = v.provisionState ∧
      v'.assignedFunctionality = v.assignedFunctionality ∨
    v'.provisionState = .assigned ∧ Assigned cfg tr rows v.deviceId v'.assignedFunctionality
  deleted : v.isDeleted = false → v'.isDeleted = true →
    Ordered cfg tr v.deviceId fun route => ∃ id, route = .deleteSensor id
  restored : v.isDeleted = true → v'.isDeleted = false →
    Told cfg tr v.deviceId .discovery fun _ => True
  configuration : v'.configuration = v.configuration ∨ Ordered cfg tr v.deviceId fun route =>
    ∃ configData, route = .reconfigureDevice configData ∧
      v'.configuration = some configData.json
  connectionState : v'.connectionState = v.connectionState ∨
    Told cfg tr v.deviceId .heartbeat fun payload =>
      v'.connectionState = payload.get "connectionState"

/-- The row has been stored by the discovery. -/
def Registered (tr : List ErrandEvent) (d : Delivery) : Prop :=
  d.kind = .discovery ∧ Confirmed tr d ∧
    ∃ g, .did (.message d) g (.saveSensor (discoveredSensor d.payload)) (.ok ()) ∈ tr

/-! ### One step -/

section Step

variable {cfg : Config} {k : Errand} {g : Progress}

/-- All that a command makes of the rows. -/
inductive Turns (cfg : Config) (k : Errand) (g : Progress) (rows : List Sensor) :
    (c : Command) → Except Exception c.Reply → List Sensor → Prop
  | kept {c : Command} {r : Except Exception c.Reply} : Turns cfg k g rows c r rows
  | updated {u : SensorUpdate} (hacts : k.Acts g) (hsets : k.sets = some u)
      (hcompared : Errand.Compared g u) :
      Turns cfg k g rows (.updateSensors k.deviceId u) (.ok ())
        (rows.map fun v => if cfg.matchesId k.deviceId v.deviceId then u.apply v else v)
  | stored {d : Delivery} (hk : k = .message d) (hacts : k.Acts g) (hkind : d.kind = .discovery) :
      Turns cfg k g rows (.saveSensor (discoveredSensor d.payload)) (.ok ())
        (rows ++ [discoveredSensor d.payload])

/-- Only a discovery is due to store a sensor. -/
theorem kind_of_stores {d : Delivery} {x : Identity}
    (h : (Errand.message d).Stores g ({x}, 0, 0)) : d.kind = .discovery := by
  have hdue : ({x}, 0, 0) = d.due := h.2.2
  unfold Delivery.due at hdue
  cases hkind : d.kind with
  | discovery => rfl
  | telemetry | hardwareStatus | assign | ack | upgrade | heartbeat | reboot =>
    rw [hkind] at hdue
    have hnone : ({x} : Multiset Identity) = 0 := congrArg Prod.fst hdue
    exact absurd hnone (Multiset.singleton_ne_zero x)

theorem turns_of_executes {s s' : Site} {c : Command} {r : Except Exception c.Reply}
    (hallowed : k.allows g c) (h : Executes cfg s c r s') :
    Turns cfg k g s.world.sensors c r s'.world.sensors := by
  cases h with
  | failed e hfallible => exact .kept
  | kept hconnected => exact .kept
  | attempted fresh c hfresh =>
    cases c with
    | updateSensors deviceId u =>
      obtain ⟨hacts, rfl, hsets, hcompared⟩ := hallowed
      exact .updated hacts hsets hcompared
    | saveSensor v =>
      obtain ⟨hstores, -, d, rfl, rfl⟩ := hallowed
      exact .stored rfl hstores.1 (kind_of_stores hstores)
    | publish awaited topic payload =>
      have hattempt : s.attempt cfg fresh (.publish awaited topic payload) =
          if s.takes topic payload then (.ok (), s.publish topic payload)
          else (if awaited then .error notConnected else .ok (), s) := rfl
      rw [hattempt]
      split
      · exact .kept
      · exact .kept
    | subscribe topics | unsubscribe topic =>
      unfold Site.attempt
      dsimp only
      split
      · exact .kept
      · exact .kept
    | _ => exact .kept

/-- The rows are the same but for the columns that an update sets. -/
theorem Turns.exists_identity {rows rows' : List Sensor} {c : Command}
    {r : Except Exception c.Reply} (h : Turns cfg k g rows c r rows') {v : Sensor}
    (hv : v ∈ rows) : ∃ v' ∈ rows', v'.identity = v.identity := by
  cases h with
  | kept => exact ⟨v, hv, rfl⟩
  | updated =>
    refine ⟨_, List.mem_map_of_mem hv, ?_⟩
    split
    · rfl
    · rfl
  | stored => exact ⟨v, List.mem_append_left _ hv, rfl⟩

variable {p q : ErrandPool cfg} {e : ErrandEvent} {tr : List ErrandEvent}

def Archive.sensors (a : Archive) : List Sensor := a.site.world.sensors

/-- No incident changes a sensor. -/
theorem sensors_after {a a' : Archive} {x : Incident} (h : a.after cfg x = some a') :
    a'.sensors = a.sensors := by
  cases x with
  | tick | closed =>
    cases h
    rfl
  | landed i | lost i | saved i | refused i =>
    obtain ⟨f, -, rfl⟩ := Option.map_eq_some_iff.mp h
    rfl

/-- The step lemma for the rows. -/
theorem turns_of_step (hs : Attends cfg p e q) :
    q.shared.sensors = p.shared.sensors ∨ ∃ i t c r, p.threads i = some t ∧
      e = .did t.call t.phase c r ∧
      Turns cfg t.call t.phase p.shared.sensors c r q.shared.sensors := by
  obtain ⟨x, -, hx, -⟩ | ⟨i, k, -, -, hshared, -⟩ | ⟨i, t, c, k, r, hprog, ht, rfl, hexec, -⟩ :=
    System.step_cases hs
  · exact .inl (sensors_after hx)
  · exact .inl (by rw [hshared])
  · exact .inr ⟨i, t, c, r, ht, rfl, turns_of_executes (t.allowed_of_await hprog) hexec.1⟩

theorem exists_identity_of_step (hs : Attends cfg p e q) {v : Sensor}
    (hv : v ∈ p.shared.sensors) : ∃ v' ∈ q.shared.sensors, v'.identity = v.identity := by
  obtain hsame | ⟨i, t, c, r, -, -, hturns⟩ := turns_of_step hs
  · exact ⟨v, hsame ▸ hv, rfl⟩
  · exact hturns.exists_identity hv

/-- What is known of a call is true: its message has been accepted, and each row that it has found
is stored. -/
structure Truthful (cfg : Config) (tr : List ErrandEvent) (a : Archive) (k : Errand)
    (g : Progress) : Prop where
  accepted : ∀ d, k = .message d → g.accepted = true → Confirmed tr d
  found : ∀ row ∈ g.found, cfg.matchesId k.deviceId row.deviceId = true ∧
    ∃ v ∈ a.sensors, v.identity = row.identity

theorem Confirmed.mono {d : Delivery} (h : Confirmed tr d) (e : ErrandEvent) :
    Confirmed (e :: tr) d := by
  obtain ⟨hvalid, g, cached, hchecked, hmem⟩ := h
  exact ⟨hvalid, g, cached, hchecked, List.mem_cons_of_mem _ hmem⟩

/-- A lookup that is answered with a row has found it. -/
theorem find_of_executes {s s' : Site} {f : SensorQuery} {row : Sensor}
    (h : Executes cfg s (.findSensor f) (.ok (some row)) s') :
    row ∈ s.world.sensors ∧ cfg.matchesId f.deviceId row.deviceId = true := by
  obtain ⟨-, hfound⟩ := executes_findSensor.mp h
  have hrow := hfound _ rfl
  have haccepts := List.find?_some hrow.symm
  simp only [Config.accepts, Bool.and_eq_true] at haccepts
  exact ⟨List.mem_of_find?_eq_some hrow.symm, haccepts.1.1⟩

theorem truthful_recall : System.Recall (errands cfg) (fun _ _ => True) (Truthful cfg) where
  start := ⟨fun d _ h => absurd h Bool.false_ne_true, fun row h => absurd h List.not_mem_nil⟩
  mono hs h := by
    refine ⟨fun d hd hacc => (h.accepted d hd hacc).mono _, fun row hrow => ?_⟩
    obtain ⟨hmatches, v, hv, hid⟩ := h.found row hrow
    obtain ⟨v', hv', hid'⟩ := exists_identity_of_step hs hv
    exact ⟨hmatches, v', hv', hid'.trans hid⟩
  did {tr s t c r s'} h hallowed hexec := by
    have hturns : Turns cfg t.call t.phase s.sensors c r s'.sensors :=
      turns_of_executes hallowed hexec.1
    have hkept : ∀ row ∈ t.phase.found, cfg.matchesId t.call.deviceId row.deviceId = true ∧
        ∃ v ∈ s'.sensors, v.identity = row.identity := by
      intro row hrow
      obtain ⟨hmatches, v, hv, hid⟩ := h.found row hrow
      obtain ⟨v', hv', hid'⟩ := hturns.exists_identity hv
      exact ⟨hmatches, v', hv', hid'.trans hid⟩
    have hmono : ∀ d, t.call = .message d → t.phase.accepted = true →
        Confirmed (.did t.call t.phase c r :: tr) d :=
      fun d hd hacc => (h.accepted d hd hacc).mono _
    show Truthful cfg _ s' t.call (t.call.next t.phase c r)
    unfold Errand.next
    split
    · rename_i key cached
      obtain ⟨d, hd, rfl, hvalid, -⟩ := hallowed
      refine ⟨fun d' hd' hacc => ?_, hkept⟩
      rw [hd] at hd'
      cases hd'
      have hchecked : d.checked cached = .accepted := by
        rw [hd] at hacc
        exact of_decide_eq_true hacc
      exact ⟨hvalid, t.phase, cached, hchecked, hd ▸ List.mem_cons_self⟩
    · rename_i f found
      refine ⟨hmono, fun row hrow => ?_⟩
      obtain hrow | hrow := List.mem_append.mp hrow
      · obtain rfl := Option.mem_toList.mp hrow
        obtain ⟨hmem, hmatches⟩ := find_of_executes hexec.1
        obtain ⟨v', hv', hid⟩ := hturns.exists_identity hmem
        exact ⟨hallowed ▸ hmatches, v', hv', hid⟩
      · exact hkept row hrow
    · exact ⟨hmono, hkept⟩
    · exact ⟨hmono, hkept⟩
    · exact ⟨hmono, hkept⟩
    · exact ⟨hmono, hkept⟩

end Step

/-! ### What a run makes of a row -/

section Rows

variable {cfg : Config} {tr : List ErrandEvent} {e : ErrandEvent} {rows rows' : List Sensor}
  {v v' v'' : Sensor} {k : Errand} {deviceId f : JsVal}

theorem Entitled.mono (h : Entitled tr k) (e : ErrandEvent) : Entitled (e :: tr) k := by
  cases k with
  | message d => exact ⟨h.1.mono e, h.2⟩
  | arrival a => exact h
  | initConnection | onConnect | disconnect => exact h.elim

theorem Wrote.mono (h : Wrote cfg tr deviceId k) (e : ErrandEvent) :
    Wrote cfg (e :: tr) deviceId k := by
  obtain ⟨hentitled, hmatches, g, u, hsets, hmem⟩ := h
  exact ⟨hentitled.mono e, hmatches, g, u, hsets, List.mem_cons_of_mem _ hmem⟩

theorem Told.mono {kind : ResponseType} {P : Json → Prop} (h : Told cfg tr deviceId kind P)
    (e : ErrandEvent) : Told cfg (e :: tr) deviceId kind P := by
  obtain ⟨d, hkind, hP, hwrote⟩ := h
  exact ⟨d, hkind, hP, hwrote.mono e⟩

theorem Ordered.mono {P : DeviceRoute → Prop} (h : Ordered cfg tr deviceId P)
    (e : ErrandEvent) : Ordered cfg (e :: tr) deviceId P := by
  obtain ⟨a, route, hentry, hP, hwrote⟩ := h
  exact ⟨a, route, hentry, hP, hwrote.mono e⟩

/-- The capabilities of a row are never changed. -/
theorem Capabilities.mono (h : Capabilities cfg rows k f)
    (hrows : ∀ v ∈ rows, ∃ v' ∈ rows', v'.identity = v.identity) :
    Capabilities cfg rows' k f := by
  obtain ⟨row, hrow, hmatches, hvalid⟩ := h
  obtain ⟨row', hrow', hid⟩ := hrows row hrow
  have hdevice : row'.deviceId = row.deviceId := congrArg Identity.deviceId hid
  have hcapabilities : row'.capabilities = row.capabilities := congrArg Identity.capabilities hid
  exact ⟨row', hrow', hdevice ▸ hmatches, hcapabilities ▸ hvalid⟩

theorem Assigned.mono (h : Assigned cfg tr rows deviceId f) (e : ErrandEvent)
    (hrows : ∀ v ∈ rows, ∃ v' ∈ rows', v'.identity = v.identity) :
    Assigned cfg (e :: tr) rows' deviceId f := by
  obtain ⟨a, body, hentry, hf, hwrote, hcapable⟩ := h
  exact ⟨a, body, hentry, hf, hwrote.mono e, hcapable.mono hrows⟩

namespace Traced

theorem refl (v : Sensor) : Traced cfg tr rows v v where
  identity := rfl
  lastReboot := rfl
  lastUpgrade := rfl
  assigned := .inl ⟨rfl, rfl⟩
  deleted h h' := by
    rw [h] at h'
    cases h'
  restored h h' := by
    rw [h] at h'
    cases h'
  configuration := .inl rfl
  connectionState := .inl rfl

theorem mono (h : Traced cfg tr rows v v') (e : ErrandEvent)
    (hrows : ∀ v ∈ rows, ∃ v' ∈ rows', v'.identity = v.identity) :
    Traced cfg (e :: tr) rows' v v' where
  identity := h.identity
  lastReboot := h.lastReboot
  lastUpgrade := h.lastUpgrade
  assigned := h.assigned.imp_right (And.imp_right fun hassigned => hassigned.mono e hrows)
  deleted hv hv' := (h.deleted hv hv').mono e
  restored hv hv' := (h.restored hv hv').mono e
  configuration := h.configuration.imp_right fun hset => hset.mono e
  connectionState := h.connectionState.imp_right fun hset => hset.mono e

/-- A column that is different in the end has been written in one of the two parts, and in the
second one if it has been written there. -/
theorem trans (h : Traced cfg tr rows v v') (h' : Traced cfg tr rows v' v'') :
    Traced cfg tr rows v v'' := by
  have hid : v'.deviceId = v.deviceId := congrArg Identity.deviceId h.identity
  have hassigned := h'.assigned
  have hdeleted := h'.deleted
  have hrestored := h'.restored
  have hconfiguration := h'.configuration
  have hconnection := h'.connectionState
  rw [hid] at hassigned hdeleted hrestored hconfiguration hconnection
  refine ⟨h'.identity.trans h.identity, h'.lastReboot.trans h.lastReboot,
    h'.lastUpgrade.trans h.lastUpgrade, ?_, fun hv hv'' => ?_, fun hv hv'' => ?_, ?_, ?_⟩
  · obtain ⟨hstate, hf⟩ | hset := hassigned
    · rw [hstate, hf]
      exact h.assigned
    · exact .inr hset
  · cases hdel : v'.isDeleted with
    | false => exact hdeleted hdel hv''
    | true => exact h.deleted hv hdel
  · cases hdel : v'.isDeleted with
    | false => exact h.restored hv hdel
    | true => exact hrestored hdel hv''
  · obtain heq | hset := hconfiguration
    · rw [heq]
      exact h.configuration
    · exact .inr hset
  · obtain heq | hset := hconnection
    · rw [heq]
      exact h.connectionState
    · exact .inr hset

end Traced

/-- What was compared with a row that has been found is among the capabilities of a stored row. -/
theorem capabilities_of_compared {a : Archive} {g : Progress} {u : SensorUpdate}
    (h : Truthful cfg tr a k g) (hcompared : Errand.Compared g u)
    (hf : u.assignedFunctionality = some f) : Capabilities cfg a.sensors k f := by
  obtain ⟨row, hrow, hvalid⟩ := hcompared f hf
  obtain ⟨hmatches, v, hv, hid⟩ := h.found row hrow
  have hdevice : v.deviceId = row.deviceId := congrArg Identity.deviceId hid
  have hcapabilities : v.capabilities = row.capabilities := congrArg Identity.capabilities hid
  exact ⟨v, hv, hdevice ▸ hmatches, hcapabilities ▸ hvalid⟩

/-- A message that is valid and whose handler goes on with its code. -/
theorem kind_of_entitled {d : Delivery} (h : Entitled tr (.message d)) :
    d.kind = .discovery ∨ d.kind = .heartbeat := by
  obtain ⟨⟨⟨time, hvalid⟩, -⟩, hgo⟩ := h
  obtain ⟨code, hcode⟩ := ClassValidator.exists_str_of_isString
    (ClassValidator.test_of_validate hvalid Responser.responseCode_mem_dto (by simp))
  unfold Delivery.proceeds at hgo
  rw [hcode] at hgo
  cases hkind : d.kind with
  | discovery => exact .inl rfl
  | heartbeat => exact .inr rfl
  | ack =>
    rw [hkind] at hgo
    cases hgo
  | assign | upgrade | reboot | telemetry | hardwareStatus =>
    rw [hkind] at hgo
    dsimp only at hgo
    rw [CodedType.codeAccepted_str _ _ (by decide)] at hgo
    cases hgo

/-- What a message may make of a row. -/
theorem traced_of_message {d : Delivery} {u : SensorUpdate}
    (hwrote : Wrote cfg tr v.deviceId (.message d)) (hsets : d.sets = some u) :
    Traced cfg tr rows v (u.apply v) := by
  have hrefl : Traced cfg tr rows v v := .refl v
  unfold Delivery.sets at hsets
  obtain hkind | hkind := kind_of_entitled hwrote.1
  · rw [hkind] at hsets
    cases hsets
    exact { hrefl with
      identity := rfl
      deleted := fun _ h => by cases h
      restored := fun _ _ => ⟨d, hkind, trivial, hwrote⟩ }
  · rw [hkind] at hsets
    cases hsets
    exact { hrefl with
      identity := rfl
      connectionState := .inr ⟨d, hkind, rfl, hwrote⟩ }

/-- What a client may make of a row. -/
theorem traced_of_arrival {a : Arrival} {u : SensorUpdate}
    (hwrote : Wrote cfg tr v.deviceId (.arrival a)) (hsets : a.sets = some u)
    (hcapable : ∀ f, u.assignedFunctionality = some f → Capabilities cfg rows (.arrival a) f) :
    Traced cfg tr rows v (u.apply v) := by
  have hrefl : Traced cfg tr rows v v := .refl v
  unfold Arrival.sets at hsets
  split at hsets
  · rename_i body hentry
    cases hsets
    exact { hrefl with
      identity := rfl
      assigned := .inr ⟨rfl, a, body, hentry, rfl, hwrote, hcapable _ rfl⟩ }
  · rename_i id hentry
    cases hsets
    exact { hrefl with
      identity := rfl
      deleted := fun _ _ => ⟨a, _, hentry, ⟨id, rfl⟩, hwrote⟩
      restored := fun _ h => by cases h }
  · rename_i configData hentry
    cases hsets
    exact { hrefl with
      identity := rfl
      configuration := .inr ⟨a, _, hentry, ⟨configData, rfl, rfl⟩, hwrote⟩ }
  · cases hsets

theorem traced_of_wrote {u : SensorUpdate} (hwrote : Wrote cfg tr v.deviceId k)
    (hsets : k.sets = some u)
    (hcapable : ∀ f, u.assignedFunctionality = some f → Capabilities cfg rows k f) :
    Traced cfg tr rows v (u.apply v) := by
  cases k with
  | message d => exact traced_of_message hwrote hsets
  | arrival a => exact traced_of_arrival hwrote hsets hcapable
  | initConnection | onConnect | disconnect => cases hsets

/-- A call that acts is entitled to. -/
theorem entitled_of_acts {a : Archive} {g : Progress} (h : Truthful cfg tr a k g)
    (hacts : k.Acts g) : Entitled tr k := by
  cases k with
  | message d => exact ⟨h.accepted d rfl hacts.1, hacts.2⟩
  | arrival a => exact hacts
  | initConnection | onConnect | disconnect => exact hacts.elim

/-- The rows are those of before, each as it may have become, and the ones that discoveries have
stored since. -/
def Descends (cfg : Config) (tr : List ErrandEvent) (rows rows' : List Sensor) : Prop :=
  ∃ discoveries : List Delivery, (∀ d ∈ discoveries, Registered tr d) ∧
    List.Forall₂ (Traced cfg tr rows')
      (rows ++ discoveries.map fun d => discoveredSensor d.payload) rows'

theorem Registered.mono {d : Delivery} (h : Registered tr d) (e : ErrandEvent) :
    Registered (e :: tr) d := by
  obtain ⟨hkind, hconfirmed, g, hmem⟩ := h
  exact ⟨hkind, hconfirmed.mono e, g, List.mem_cons_of_mem _ hmem⟩

/-- The step lemma. -/
theorem Descends.step {p q : ErrandPool cfg} (h : Descends cfg tr rows p.shared.sensors)
    (htrue : System.Recalls (Truthful cfg) tr p) (hs : Attends cfg p e q) :
    Descends cfg (e :: tr) rows q.shared.sensors := by
  obtain ⟨discoveries, hregistered, hrows⟩ := h
  have hids : ∀ v ∈ p.shared.sensors, ∃ v' ∈ q.shared.sensors, v'.identity = v.identity :=
    fun v hv => exists_identity_of_step hs hv
  have hmono : List.Forall₂ (Traced cfg (e :: tr) q.shared.sensors)
      (rows ++ discoveries.map fun d => discoveredSensor d.payload) p.shared.sensors :=
    hrows.imp fun v v' hv => hv.mono e hids
  have hregistered' : ∀ d ∈ discoveries, Registered (e :: tr) d :=
    fun d hd => (hregistered d hd).mono e
  obtain hsame | ⟨i, t, c, r, ht, rfl, hturns⟩ := turns_of_step hs
  · exact ⟨discoveries, hregistered', hsame ▸ hmono⟩
  · have htruthful := htrue i t ht
    generalize hafter : q.shared.sensors = rows' at *
    cases hturns with
    | kept => exact ⟨discoveries, hregistered', hmono⟩
    | @updated u hacts hsets hcompared =>
      refine ⟨discoveries, hregistered', List.forall₂_map_right_iff.mpr (hmono.imp ?_)⟩
      intro v v' hv
      split
      · rename_i hmatches
        have hwrote : Wrote cfg
            (.did t.call t.phase (.updateSensors t.call.deviceId u) (.ok ()) :: tr)
            v'.deviceId t.call :=
          ⟨(entitled_of_acts htruthful hacts).mono _, hmatches, t.phase, u, hsets,
            List.mem_cons_self⟩
        exact hv.trans (traced_of_wrote hwrote hsets fun f hf =>
          (capabilities_of_compared htruthful hcompared hf).mono hids)
      · exact hv
    | @stored d hk hacts hkind =>
      have hconfirmed : Confirmed tr d := by
        rw [hk] at hacts
        exact htruthful.accepted d hk hacts.1
      refine ⟨discoveries ++ [d], fun d' hd' => ?_, ?_⟩
      · obtain hd' | hd' := List.mem_append.mp hd'
        · exact hregistered' d' hd'
        · obtain rfl := List.mem_singleton.mp hd'
          exact ⟨hkind, hconfirmed.mono _, t.phase, hk ▸ List.mem_cons_self⟩
      · rw [List.map_append, ← List.append_assoc]
        exact List.rel_append hmono (.cons (.refl _) .nil)

/-- Whatever the order in which messages, clients and callbacks go on, no sensor is lost, every new
one comes of an accepted discovery, and what is different in a row has been written by a call that
may write it: once it is assigned it stays so. -/
theorem descends_of_run {a : Archive} {p : ErrandPool cfg}
    (hrun : Run (Attends cfg) (Pool.start a) tr p) :
    Descends cfg tr a.sensors p.shared.sensors := by
  induction hrun with
  | refl =>
    refine ⟨[], fun d hd => absurd hd List.not_mem_nil, ?_⟩
    rw [List.map_nil, List.append_nil]
    exact List.forall₂_same.mpr fun v _ => .refl v
  | snoc hrun hs ih => exact ih.step (System.recalls_of_run truthful_recall hrun) hs

end Rows

/-! ### A device that comes back -/

def errandsOracle (cfg : Config) : System.Oracle (errands cfg) Outcome where
  answer o a c := ((oracle cfg).answer o a.site c).map fun (r, site) => (r, { a with site })
  sound {o a c r a'} h := by
    obtain ⟨⟨r', site⟩, hanswer, heq⟩ := Option.map_eq_some_iff.mp h
    cases heq
    exact ⟨(oracle cfg).sound hanswer, rfl⟩

/-- The client is connected to the broker, and nothing has been refused. -/
def connectedArchive : Archive := ⟨engineerBackend.site, []⟩

/-- The engineer asks all devices to announce themselves, and the entry reaches the cache. -/
def discoveryRequest : List (System.Move Errand Incident Outcome) :=
  .start 0 (.arrival announcement) :: .step 0 (.attempt "") :: .step 0 (.attempt panelRequest) ::
    List.replicate 5 (.step 0 (.attempt "")) ++ [.env (.landed 0)]

/-- The deleted device answers, and is restored. -/
def rediscovery : List (System.Move Errand Incident Outcome) :=
  .start 1 (.message (discovered true)) :: List.replicate 4 (.step 1 (.attempt ""))

theorem descends_of_run_rediscovery :
    ∃ tr p, Run (Attends panelConfig) (Pool.start connectedArchive) tr p ∧
      (p.shared.sensors.all fun v => !v.isDeleted) = true ∧
      Descends panelConfig tr connectedArchive.sensors p.shared.sensors := by
  have hscript : (System.play (errandsOracle panelConfig) 2 (fun _ _ => true)
      (Pool.start connectedArchive) (discoveryRequest ++ rediscovery)).any
        (fun p => p.shared.sensors.all fun v => !v.isDeleted) = true := by
    decide +kernel
  obtain ⟨tr, p, hrun, -, htest⟩ :=
    System.exists_run (fun _ _ _ _ => trivial) (System.below_start _) hscript
  exact ⟨tr, p, hrun, htest, descends_of_run hrun⟩

end IotPanel.Device
