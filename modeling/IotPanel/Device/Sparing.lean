import IotPanel.Device.Deletion

/-!
# What the operations write of a deleted sensor

One specification for each operation: at the moment of its write it has looked for the sensor
in a way that does not find a deleted one, or what it writes is there already.
-/

namespace IotPanel.Device

open DeviceService (validateSensorTypes invalidSensorTypes)
open ResponserService (discoveredSensor)
open Responser (ResponseType CodedType)
open Program

namespace Operation

variable {cfg : Config} {w : World} {d : String} {restores : Prop} {q : Stage} {α : Type}

theorem stays_quiet {c : Command} (h : c.touches = none) (hc : ∀ f, c ≠ .findSensor f) :
    (perform c : Prog c.Reply).Stays (sparing cfg w d restores) q := by
  refine stays_perform (.inl h) fun r => ?_
  cases c with
  | findSensor f => exact absurd rfl (hc f)
  | updateSensors _ _ | saveSensor _ | saveTelemetry _ | saveHardwareStatus _ => cases h
  | _ => rfl

theorem topical_sparing : Topical (sparing cfg w d restores) q where
  findTopic _ := stays_quiet rfl nofun
  saveTopic _ := stays_quiet rfl nofun

theorem stays_deleteCache (payload : Json) :
    (ResponserService.deleteCache payload).Stays (sparing cfg w d restores) q := by
  show Stays _ _ (if _ then _ else _)
  split
  · exact stays_quiet rfl nofun
  · exact stays_pure

/-- The rest of an operation after a part that writes nothing. -/
theorem wp_idle {β : Type} {x : Prog β} {rest : β → Prog α}
    (hx : x.Stays (sparing cfg w d restores) q)
    (hrest : ∀ a, (rest a).wp (sparing cfg w d restores) (fun _ _ => True) q) :
    (x >>= rest).wp (sparing cfg w d restores) (fun _ _ => True) q :=
  wp_bind_of_stays hx hrest fun _ => trivial

theorem wp_stays {x : Prog α} (hx : x.Stays (sparing cfg w d restores) q) :
    x.wp (sparing cfg w d restores) (fun _ _ => True) q := wp_of_stays hx fun _ => trivial

theorem wp_findSensor {f : SensorQuery} {rest : Option Sensor → Prog α}
    (hrest : ∀ found, (rest found).wp (sparing cfg w d restores) (fun _ _ => True)
      (q.look f found)) :
    (findSensor f >>= rest).wp (sparing cfg w d restores) (fun _ _ => True) q := by
  refine wp_bind ⟨.inl rfl, fun r => ?_⟩
  cases r with
  | ok found => exact hrest found
  | error e => trivial

/-- The one write of an operation. -/
theorem wp_write {c : Command} (hq : q ≠ .written) (htouches : c.touches.isSome = true)
    (hharmless : q.Right cfg w → Harmless cfg w d restores c) :
    (perform c : Prog c.Reply).wp (sparing cfg w d restores) (fun _ q' => q' = .written) q := by
  refine ⟨.inr ⟨hq, hharmless⟩, fun r => ?_⟩
  cases c with
  | updateSensors _ _ | saveSensor _ | saveTelemetry _ | saveHardwareStatus _ => rfl
  | _ => cases htouches

/-- The rest of an operation after its write. -/
theorem wp_written {β : Type} {x : Prog β} {rest : β → Prog α}
    (hx : x.wp (sparing cfg w d restores) (fun _ q' => q' = .written) q)
    (hrest : ∀ a, (rest a).wp (sparing cfg w d restores) (fun _ _ => True) .written) :
    (x >>= rest).wp (sparing cfg w d restores) (fun _ _ => True) q := by
  refine wp_bind (wp_mono ?_ hx)
  rintro a _ rfl
  cases a with
  | ok a => exact hrest a
  | error e => trivial

/-- Nothing is harmed by the return of an answer. -/
theorem wp_answer {β : Type} {x : Prog β} {f : β → α}
    (hx : x.wp (sparing cfg w d restores) (fun _ _ => True) q) :
    (x >>= fun a => pure (f a)).wp (sparing cfg w d restores) (fun _ _ => True) q := by
  refine wp_bind (wp_mono ?_ hx)
  rintro (e | a) q' - <;> trivial

variable {v : Sensor}

/-- A lookup under the id of a text that does not find the deleted device. -/
theorem find_eq_none (hd : Deleted cfg w d) (p : Option ProvisionState) :
    w.sensors.find? (cfg.accepts ⟨some (.str d), some false, p⟩) = none := by
  refine List.find?_eq_none.mpr fun v hv haccepts => ?_
  simp only [Config.accepts, Bool.and_eq_true, Option.all_some, beq_iff_eq] at haccepts
  obtain ⟨⟨hid, hfalse⟩, -⟩ := haccepts
  rw [hd.deleted v hv hid] at hfalse
  cases hfalse

theorem isDeleted_of_mem (hd : Deleted cfg w d) (hv : v ∈ rowsOf d w) : v.isDeleted = true := by
  obtain ⟨hv, hid⟩ := mem_rowsOf.mp hv
  refine hd.deleted v hv ?_
  rw [hid]
  exact (matchesId_str cfg d d).mpr rfl

/-- A lookup that asks for all sensors finds the deleted device. -/
theorem exists_find (hd : Deleted cfg w d) :
    ∃ v, w.sensors.find? (cfg.accepts ⟨some (.str d), none, none⟩) = some v ∧
      v.isDeleted = true := by
  obtain ⟨v, hv, hid⟩ := hd.stored
  have hfound : (w.sensors.find? (cfg.accepts ⟨some (.str d), none, none⟩)).isSome = true := by
    refine List.find?_isSome.mpr ⟨v, hv, ?_⟩
    simp only [Config.accepts, Option.all_none, Bool.and_true, hid]
    exact (matchesId_str cfg d d).mpr rfl
  obtain ⟨v', hv'⟩ := Option.isSome_iff_exists.mp hfound
  refine ⟨v', hv', hd.deleted v' (List.mem_of_find?_eq_some hv') ?_⟩
  have haccepts := List.find?_some hv'
  simp only [Config.accepts, Option.all_none, Bool.and_true] at haccepts
  exact haccepts

/-- An operation on a sensor that is not deleted has not found the device. -/
theorem ne_of_found (hd : Deleted cfg w d) {a : String} {p : Option ProvisionState}
    (h : w.sensors.find? (cfg.accepts ⟨some (.str a), some false, p⟩) = some v) : a ≠ d := by
  rintro rfl
  rw [find_eq_none hd] at h
  cases h

/-- An update of another device. -/
theorem harmless_of_ne {a : String} {u : SensorUpdate} (h : a ≠ d) :
    Harmless cfg w d restores (.updateSensors (some (.str a)) u) :=
  fun hid => absurd ((matchesId_str cfg a d).mp hid) h

theorem wp_validated {deviceId functionality : JsVal} {rest : Unit → Prog α}
    (hrest : ∀ row, (rest ()).wp (sparing cfg w d restores) (fun _ _ => True)
      (.looked ⟨deviceId, some false, none⟩ (some row))) :
    (validateSensorTypes deviceId functionality >>= rest).wp (sparing cfg w d restores)
      (fun _ _ => True) .start := by
  unfold validateSensorTypes
  rw [LawfulMonad.bind_assoc]
  refine wp_findSensor fun found => ?_
  cases found with
  | none => trivial
  | some row =>
    cases hinvalid : invalidSensorTypes row.capabilities functionality with
    | error e =>
      simp only [hinvalid]
      trivial
    | ok invalid =>
      simp only [hinvalid]
      cases invalid with
      | nil => exact hrest row
      | cons v vs => trivial

/-- The write that follows a lookup of the same text among the sensors that are not deleted. -/
theorem harmless_of_found (hd : Deleted cfg w d) {a : String} {p : Option ProvisionState}
    {u : SensorUpdate} (h : Stage.Right cfg w (.looked ⟨some (.str a), some false, p⟩ (some v))) :
    Harmless cfg w d restores (.updateSensors (some (.str a)) u) :=
  harmless_of_ne (ne_of_found hd h.symm)

theorem wp_assignDeviceFunction (hd : Deleted cfg w d) (userId : String)
    (dto : PublishSensorFunctionalityDto) :
    (DeviceService.AssignDeviceFunction userId dto).wp (sparing cfg w d restores)
      (fun _ _ => True) .start := by
  unfold DeviceService.AssignDeviceFunction
  split
  · trivial
  refine wp_idle (stays_getDeviceTopicByUseCase topical_sparing _ _) fun topic => ?_
  refine wp_validated fun row => ?_
  refine wp_idle (stays_quiet rfl nofun) fun requestId => ?_
  refine wp_idle (stays_quiet rfl nofun) fun _ => ?_
  exact wp_written (wp_write (by rintro ⟨⟩) rfl (harmless_of_found hd)) fun _ =>
    wp_stays (stays_quiet rfl nofun)

theorem wp_setDeviceConfiguration (hd : Deleted cfg w d) (config : SensorConfigDto) :
    (DeviceService.setDeviceConfiguration config).wp (sparing cfg w d restores)
      (fun _ _ => True) .start := by
  refine wp_findSensor fun found => ?_
  cases found with
  | none => trivial
  | some row =>
    refine wp_idle (stays_getDeviceTopicByUseCase topical_sparing _ _) fun topic => ?_
    refine wp_idle (stays_quiet rfl nofun) fun _ => ?_
    exact wp_mono (fun _ _ _ => trivial) (wp_write (by rintro ⟨⟩) rfl (harmless_of_found hd))

theorem wp_handleAssignResponse (hd : Deleted cfg w d) {payload : Json} {a : String}
    (hid : payload.get "deviceId" = some (.str a)) :
    (ResponserService.handleAssignResponse payload).wp (sparing cfg w d restores)
      (fun _ _ => True) .start := by
  show Program.wp _ _ (if _ then _ else _) _
  split
  · trivial
  show Program.wp _ _ (if _ then _ else _) _
  split
  · trivial
  rw [hid]
  refine wp_validated fun row => ?_
  exact wp_written (wp_write (by rintro ⟨⟩) rfl (harmless_of_found hd)) fun _ =>
    wp_stays (stays_deleteCache payload)

theorem wp_handleHardwareStatus (hd : Deleted cfg w d) {payload : Json} {a : String}
    (hid : payload.get "deviceId" = some (.str a)) :
    (ResponserService.handleHardwareStatus payload).wp (sparing cfg w d restores)
      (fun _ _ => True) .start := by
  unfold ResponserService.handleHardwareStatus
  split
  · trivial
  dsimp only
  refine wp_findSensor fun found => ?_
  cases found with
  | none => trivial
  | some row =>
    refine wp_written (wp_write (by rintro ⟨⟩) rfl ?_) fun _ =>
      wp_stays (stays_deleteCache payload)
    intro hright (heq : payload.get "deviceId" = some (.str d))
    rw [hid] at hright heq
    cases heq
    exact ne_of_found hd hright.symm rfl

/-- The end of a response that stores what the row has already. -/
theorem wp_updateSensors {payload : Json} {u : SensorUpdate} {a : String} (hq : q ≠ .written)
    (hid : payload.get "deviceId" = some (.str a))
    (hidle : payload.get "deviceId" = some (.str d) → Idle d w u) :
    (do
      updateSensors (payload.get "deviceId") u
      ResponserService.deleteCache payload : Prog Unit).wp (sparing cfg w d restores)
        (fun _ _ => True) q := by
  have hharmless : Harmless cfg w d restores (.updateSensors (payload.get "deviceId") u) := by
    intro hmatches
    rw [hid] at hmatches
    rw [(matchesId_str cfg a d).mp hmatches] at hid
    exact .inl (hidle hid)
  refine wp_written (wp_write hq rfl fun _ => hharmless) fun _ => ?_
  exact wp_stays (stays_deleteCache payload)

theorem wp_handleUpgradeResponse {payload : Json} {a : String}
    (hid : payload.get "deviceId" = some (.str a))
    (hspares : payload.get "deviceId" = some (.str d) →
      CodedType.upgrade.codeAccepted (payload.get "responseCode") = true →
        (payload.get "status").strictEq (some (.str "success")) = true →
          ∀ v ∈ rowsOf d w, v.lastUpgrade = newDate (payload.get "timestamp")) :
    (ResponserService.handleUpgradeResponse payload).wp (sparing cfg w d restores)
      (fun _ _ => True) .start := by
  show Program.wp _ _ (if _ then _ else _) _
  split
  · trivial
  rename_i hcode
  show Program.wp _ _ (if _ then _ else _) _
  split
  · trivial
  show Program.wp _ _ (if _ then _ else _) _
  split
  swap
  · trivial
  rename_i hsuccess
  refine wp_updateSensors (by rintro ⟨⟩) hid fun heq v hv => ?_
  have hsame := hspares heq (by simpa using hcode) hsuccess v hv
  show { v with lastUpgrade := newDate (payload.get "timestamp") } = v
  rw [← hsame]

theorem wp_handleDeviceHeartbeat {payload : Json} {a : String}
    (hid : payload.get "deviceId" = some (.str a))
    (hspares : payload.get "deviceId" = some (.str d) →
      CodedType.heartbeat.codeAccepted (payload.get "responseCode") = true →
        ∀ v ∈ rowsOf d w, v.connectionState = payload.get "connectionState") :
    (ResponserService.handleDeviceHeartbeat payload).wp (sparing cfg w d restores)
      (fun _ _ => True) .start := by
  show Program.wp _ _ (if _ then _ else _) _
  split
  · trivial
  rename_i hcode
  refine wp_findSensor fun found => ?_
  cases found with
  | none => trivial
  | some row =>
    refine wp_updateSensors (by rintro ⟨⟩) hid fun heq v hv => ?_
    have hsame := hspares heq (by simpa using hcode) v hv
    show { v with connectionState := payload.get "connectionState" } = v
    rw [← hsame]

theorem wp_handleRebootResponse {payload : Json} {a : String}
    (hid : payload.get "deviceId" = some (.str a))
    (hspares : payload.get "deviceId" = some (.str d) →
      CodedType.reboot.codeAccepted (payload.get "responseCode") = true →
        ∀ v ∈ rowsOf d w, v.lastReboot = newDate (payload.get "timestamp")) :
    (ResponserService.handleRebootResponse payload).wp (sparing cfg w d restores)
      (fun _ _ => True) .start := by
  show Program.wp _ _ (if _ then _ else _) _
  split
  · trivial
  rename_i hcode
  refine wp_updateSensors (by rintro ⟨⟩) hid fun heq v hv => ?_
  have hsame := hspares heq (by simpa using hcode) v hv
  show { v with lastReboot := newDate (payload.get "timestamp") } = v
  rw [← hsame]

theorem stays_announceDiscovered (payload : Json) :
    (announceDiscovered payload).Stays (sparing cfg w d restores) q := by
  refine stays_bind (stays_quiet rfl nofun) fun _ => ?_
  exact stays_ite (fun _ => stays_deleteCache payload) fun _ => stays_pure

/-- A device that has been found is not stored again. -/
theorem stays_takeDiscovered (cfg : Config) (payload : Json) (name : String) (row : Sensor) :
    (takeDiscovered cfg payload name (some row)).Stays (sparing cfg w d restores) q := by
  refine stays_bind (stays_storeTopic cfg topical_sparing _ _ _) fun base => ?_
  exact stays_announceDiscovered payload

theorem wp_takeDiscovered {payload : Json} {name : String} (hq : q ≠ .written)
    (hne : q.Right cfg w → (discoveredSensor payload).deviceId ≠ some (.str d)) :
    (takeDiscovered cfg payload name none).wp (sparing cfg w d restores) (fun _ _ => True) q := by
  refine wp_idle (stays_storeTopic cfg topical_sparing _ _ _) fun base => ?_
  refine wp_bind (wp_mono ?_ (wp_tryCatch (wp_mono ?_ (wp_written (wp_write hq rfl hne)
    fun _ => ?_))) (Q := fun _ _ => True))
  · rintro (e | a) q' -
    · trivial
    · exact wp_stays (stays_announceDiscovered payload)
  · rintro (e | a) q' - <;> trivial
  · refine wp_idle (stays_quiet rfl nofun) fun _ => ?_
    refine wp_idle (stays_createAllTopicsForDevice cfg topical_sparing _) fun topics => ?_
    exact wp_stays (stays_quiet rfl nofun)

theorem wp_handleDiscoveryResponse (hd : Deleted cfg w d) {payload : Json}
    (hrestores : (Call.discoveryResponse payload).deviceId = some (.str d) → restores)
    (hspares : ∀ deviceId, ResponserService.discoveredId payload = .ok deviceId →
      deviceId ≠ some (.str d) → cfg.matchesId deviceId (some (.str d)) = true →
        ∀ v, w.sensors.find? (cfg.accepts ⟨deviceId, none, none⟩) = some v →
          v.isDeleted = false) :
    (ResponserService.handleDiscoveryResponse cfg payload).wp (sparing cfg w d restores)
      (fun _ _ => True) .start := by
  cases hid : ResponserService.discoveredId payload with
  | error e =>
    unfold ResponserService.handleDiscoveryResponse
    rw [hid]
    trivial
  | ok deviceId =>
    have hdeviceId := Call.deviceId_of_discovered hid
    rw [hdeviceId] at hrestores
    rw [handleDiscoveryResponse_eq hid]
    refine wp_findSensor fun found => ?_
    show Program.wp _ _ (if _ then _ else _) _
    split
    · -- the row that was found is deleted
      rename_i hdeleted
      obtain ⟨row, rfl, hrow⟩ := (Option.any_eq_true _ _).mp hdeleted
      refine wp_written (wp_write (by rintro ⟨⟩) rfl fun hright hmatches => ?_) fun _ =>
        wp_stays (stays_takeDiscovered cfg payload _ row)
      refine .inr ⟨hrestores (by_contra fun hne => ?_), rfl⟩
      rw [hspares deviceId hid hne hmatches row hright.symm] at hrow
      cases hrow
    · cases found with
      | some row => exact wp_stays (stays_takeDiscovered cfg payload _ row)
      | none =>
        refine wp_takeDiscovered (by rintro ⟨⟩) fun hright heq => ?_
        rw [deviceId_discoveredSensor, hdeviceId] at heq
        obtain ⟨v, hv, -⟩ := exists_find hd
        rw [heq] at hright
        exact Option.some_ne_none v (hv.symm.trans hright.symm)

/-- Only a discovery goes without the id of a device. -/
theorem exists_deviceId {kind : ResponseType} {payload : Json} {time : ℕ}
    (hkind : kind ≠ .discovery)
    (hvalid : ClassValidator.validate ((kind.dto time).filter (·.name ≠ "responseCode")) payload =
      true) : ∃ a, payload.get "deviceId" = some (.str a) := by
  have hmem : ClassValidator.Property.required "deviceId"
      [ClassValidator.isString, ClassValidator.isNotEmpty] ∈ kind.dto time := by
    cases kind with
    | discovery => exact absurd rfl hkind
    | _ => exact .tail _ (.tail _ (.tail _ (.tail _ (.head _))))
  have hkept : _ ∈ (kind.dto time).filter (·.name ≠ "responseCode") :=
    List.mem_filter.mpr ⟨hmem, by decide⟩
  exact ClassValidator.exists_str_of_isString
    (ClassValidator.test_of_validate hvalid hkept List.mem_cons_self)

theorem wp_program (hd : Deleted cfg w d) {op : Operation} (hspares : op.Spares cfg w d) :
    (op.program cfg).wp (sparing cfg w d (op.Restores d)) (fun _ _ => True) .start := by
  cases op with
  | getAllSensors =>
    refine wp_answer (wp_stays (stays_bind (stays_quiet rfl nofun) fun devices => ?_))
    exact stays_ite (fun _ => stays_bind stays_throw fun _ => stays_pure) fun _ => stays_pure
  | querySensors query => exact wp_answer (wp_stays (stays_quiet rfl nofun))
  | getSingleSensor deviceId =>
    refine wp_answer (wp_findSensor fun found => ?_)
    cases found <;> trivial
  | getUnassignedSensor =>
    refine wp_answer (wp_stays (stays_bind (stays_quiet rfl nofun) fun sensors => ?_))
    exact stays_ite (fun _ => stays_bind stays_throw fun _ => stays_pure) fun _ => stays_pure
  | getDeviceConfiguration deviceId =>
    refine wp_answer (wp_findSensor fun found => wp_stays ?_)
    exact stays_ite (fun _ => stays_bind stays_throw fun _ => stays_pure) fun _ => stays_pure
  | assignDeviceFunction userId dto => exact wp_answer (wp_assignDeviceFunction hd userId dto)
  | setDeviceConfiguration config => exact wp_answer (wp_setDeviceConfiguration hd config)
  | response kind payload hkind hvalid =>
    refine wp_answer ?_
    obtain ⟨time, hvalid⟩ := hvalid
    cases kind with
    | discovery =>
      show Program.wp _ _ (if _ then _ else _) _
      split
      · exact wp_handleDiscoveryResponse hd id hspares
      · trivial
    | assign =>
      obtain ⟨a, hid⟩ := exists_deviceId (by rintro ⟨⟩) hvalid
      exact wp_handleAssignResponse hd hid
    | ack => trivial
    | upgrade =>
      obtain ⟨a, hid⟩ := exists_deviceId (by rintro ⟨⟩) hvalid
      exact wp_handleUpgradeResponse hid hspares
    | heartbeat =>
      obtain ⟨a, hid⟩ := exists_deviceId (by rintro ⟨⟩) hvalid
      exact wp_handleDeviceHeartbeat hid hspares
    | reboot =>
      obtain ⟨a, hid⟩ := exists_deviceId (by rintro ⟨⟩) hvalid
      exact wp_handleRebootResponse hid hspares
    | telemetry => exact absurd rfl hkind
    | hardwareStatus =>
      obtain ⟨a, hid⟩ := exists_deviceId (by rintro ⟨⟩) hvalid
      exact wp_handleHardwareStatus hd hid

end Operation

end IotPanel.Device
