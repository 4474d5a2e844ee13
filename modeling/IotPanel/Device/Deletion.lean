import IotPanel.Device.Unique

/-!
# Deleted sensors

A sensor that is deleted keeps its row with a mark, and every operation has to leave it alone of
its own accord. Only a discovery of the device takes the mark away.
-/

namespace IotPanel.Device

open Responser (ResponseType CodedType)

/-- What an operation returns. -/
inductive Answer
  | rows (vs : List Sensor)
  | configuration (c : JsVal)
  | done

/-- The operations on sensors. A response has been validated in all but its response code, which
may be the number that its handler asks for; telemetry is none of them. -/
inductive Operation
  | getAllSensors
  | querySensors (query : QueryDeviceDto)
  | getSingleSensor (deviceId : String)
  | getUnassignedSensor
  | getDeviceConfiguration (deviceId : String)
  | assignDeviceFunction (userId : String) (provisionData : PublishSensorFunctionalityDto)
  | setDeviceConfiguration (configData : SensorConfigDto)
  | response (kind : ResponseType) (payload : Json) (hkind : kind ≠ .telemetry)
      (hvalid : ∃ time, ClassValidator.validate
        ((kind.dto time).filter (·.name ≠ "responseCode")) payload = true)

def Operation.program (cfg : Config) : Operation → Prog Answer
  | getAllSensors => return .rows (← DeviceService.getAllSensors)
  | querySensors query => return .rows (← DeviceService.querySensors query)
  | getSingleSensor deviceId => return .rows [← DeviceService.getSingleSensor deviceId]
  | getUnassignedSensor => return .rows (← DeviceService.getUnassignedSensor)
  | getDeviceConfiguration deviceId =>
    return .configuration (← DeviceService.getDeviceConfiguration deviceId)
  | assignDeviceFunction userId dto => do
    DeviceService.AssignDeviceFunction userId dto
    return .done
  | setDeviceConfiguration config => do
    DeviceService.setDeviceConfiguration config
    return .done
  | response kind payload _ _ => do
    ListenerService.handler cfg kind payload
    return .done

/-- The row or record is one of the device. -/
def ofDevice (d : String) (id : JsVal) : Bool := JsVal.strictEq (some (.str d)) id

def rowsOf (d : String) (w : World) : List Sensor := w.sensors.filter fun v => ofDevice d v.deviceId

/-- There is a row of the device, and whatever a lookup of it finds is deleted. -/
structure Deleted (cfg : Config) (w : World) (d : String) : Prop where
  stored : ∃ v ∈ w.sensors, v.deviceId = some (.str d)
  deleted : ∀ v ∈ w.sensors, cfg.matchesId (some (.str d)) v.deviceId = true → v.isDeleted = true

/-- The records of the device are the same. -/
structure SameRecords (d : String) (w w' : World) : Prop where
  telemetry : (w'.telemetry.filter fun t => ofDevice d t.deviceId) =
    w.telemetry.filter fun t => ofDevice d t.deviceId
  unsaved : (w'.unsaved.filter fun t => ofDevice d t.deviceId) =
    w.unsaved.filter fun t => ofDevice d t.deviceId
  hardware : (w'.hardware.filter fun h => ofDevice d h.deviceId) =
    w.hardware.filter fun h => ofDevice d h.deviceId

/-- A discovery of the device. -/
def Operation.Restores (d : String) : Operation → Prop
  | response .discovery payload _ _ => (Call.discoveryResponse payload).deviceId = some (.str d)
  | _ => False

def restored : SensorUpdate := { SensorUpdate.none with isDeleted := some false }

/-- The operation does not return the deleted device, and leaves its row and its records as they
are; a discovery of the device may take the mark away. -/
structure Respects (d : String) (op : Operation) (w : World) (r : Except Exception Answer)
    (w' : World) : Prop where
  rows : ∀ vs, r = .ok (.rows vs) → ∀ v ∈ vs, v.deviceId ≠ some (.str d)
  configuration : op = .getDeviceConfiguration d → ∀ c, r ≠ .ok (.configuration c)
  stored : rowsOf d w' = rowsOf d w ∨
    (op.Restores d ∧ rowsOf d w' = (rowsOf d w).map restored.apply)
  records : SameRecords d w w'

/-- The update leaves the row of the device as it is. -/
def Idle (d : String) (w : World) (u : SensorUpdate) : Prop := ∀ v ∈ rowsOf d w, u.apply v = v

/-- The operation is none that forgets the mark: no search selects the device, a response of it
has nothing new to store, and no discovery of a deleted device finds it under another id. -/
def Operation.Spares (cfg : Config) (w : World) (d : String) : Operation → Prop
  | querySensors query =>
    ∀ v ∈ rowsOf d w, cfg.selects (DeviceService.filterOf query) v = false
  | response .upgrade payload _ _ =>
    payload.get "deviceId" = some (.str d) →
      CodedType.upgrade.codeAccepted (payload.get "responseCode") = true →
        (payload.get "status").strictEq (some (.str "success")) = true →
          ∀ v ∈ rowsOf d w, v.lastUpgrade = newDate (payload.get "timestamp")
  | response .heartbeat payload _ _ =>
    payload.get "deviceId" = some (.str d) →
      CodedType.heartbeat.codeAccepted (payload.get "responseCode") = true →
        ∀ v ∈ rowsOf d w, v.connectionState = payload.get "connectionState"
  | response .reboot payload _ _ =>
    payload.get "deviceId" = some (.str d) →
      CodedType.reboot.codeAccepted (payload.get "responseCode") = true →
        ∀ v ∈ rowsOf d w, v.lastReboot = newDate (payload.get "timestamp")
  | response .discovery payload _ _ =>
    ∀ deviceId, ResponserService.discoveredId payload = .ok deviceId →
      deviceId ≠ some (.str d) → cfg.matchesId deviceId (some (.str d)) = true →
        ∀ v, w.sensors.find? (cfg.accepts ⟨deviceId, none, none⟩) = some v → v.isDeleted = false
  | _ => True

section Frame

variable {cfg : Config} {d : String} {w w' w'' : World} {s s' : Site}

theorem ofDevice_iff {id : JsVal} : ofDevice d id = true ↔ id = some (.str d) := by
  refine ⟨eq_of_strictEq_str, ?_⟩
  rintro rfl
  exact decide_eq_true rfl

theorem mem_rowsOf {v : Sensor} : v ∈ rowsOf d w ↔ v ∈ w.sensors ∧ v.deviceId = some (.str d) := by
  rw [rowsOf, List.mem_filter, ofDevice_iff]

theorem matchesId_str (cfg : Config) (a b : String) :
    cfg.matchesId (some (.str a)) (some (.str b)) = true ↔ a = b := beq_iff_eq

theorem SameRecords.refl (d : String) (w : World) : SameRecords d w w := ⟨rfl, rfl, rfl⟩

/-- The rows of the device after an update. -/
theorem rowsOf_updateSensors (deviceId : JsVal) (u : SensorUpdate) :
    rowsOf d (s.updateSensors cfg deviceId u).world =
      if cfg.matchesId deviceId (some (.str d)) then (rowsOf d s.world).map u.apply
      else rowsOf d s.world := by
  show ((s.world.sensors.map fun v =>
    if cfg.matchesId deviceId v.deviceId then u.apply v else v).filter fun v =>
      ofDevice d v.deviceId) = _
  rw [List.filter_map]
  have hkeep : ((fun v : Sensor => ofDevice d v.deviceId) ∘
      fun v => if cfg.matchesId deviceId v.deviceId then u.apply v else v) =
        fun v => ofDevice d v.deviceId := by
    funext v
    show ofDevice d (if _ then u.apply v else v : Sensor).deviceId = _
    split <;> rfl
  rw [hkeep]
  have hrow : ∀ v ∈ rowsOf d s.world,
      (if cfg.matchesId deviceId v.deviceId then u.apply v else v) =
        if cfg.matchesId deviceId (some (.str d)) then u.apply v else v := by
    intro v hv
    rw [(mem_rowsOf.mp hv).2]
  rw [show (s.world.sensors.filter fun v => ofDevice d v.deviceId) = rowsOf d s.world from rfl,
    List.map_congr_left hrow]
  split
  · rfl
  · exact List.map_id _

/-- An update that has left the rows as they are changes none of them. -/
theorem idle_of_rowsOf {deviceId : JsVal} {u : SensorUpdate}
    (hid : cfg.matchesId deviceId (some (.str d)) = true)
    (h : rowsOf d (s.updateSensors cfg deviceId u).world = rowsOf d s.world) :
    Idle d s.world u := by
  rw [rowsOf_updateSensors, if_pos hid] at h
  intro v hv
  have hmap := List.map_eq_map_iff.mp (h.trans (List.map_id _).symm)
  exact hmap v hv

theorem filter_append_of_not {α : Type} {p : α → Bool} {l : List α} {a : α} (h : p a = false) :
    (l ++ [a]).filter p = l.filter p := by
  rw [List.filter_append, List.filter_cons_of_neg (by simp [h]), List.filter_nil, List.append_nil]

theorem ofDevice_of_ne {id : JsVal} (h : id ≠ some (.str d)) : ofDevice d id = false :=
  Bool.eq_false_iff.mpr fun hid => h (ofDevice_iff.mp hid)

theorem attempt_of_touches {c : Command} {fresh : String} (h : c.touches = none) :
    (s.attempt cfg fresh c).2.world.sensors = s.world.sensors ∧
      SameRecords d s.world (s.attempt cfg fresh c).2.world := by
  cases c with
  | updateSensors _ _ | saveSensor _ | saveTelemetry _ | saveHardwareStatus _ => cases h
  | publish awaited topic payload =>
    show (if _ then _ else _ : Except Exception Unit × Site).2.world.sensors = _ ∧
      SameRecords d s.world (if _ then _ else _ : Except Exception Unit × Site).2.world
    split <;> exact ⟨rfl, .refl d _⟩
  | subscribe topics | unsubscribe topic =>
    show (if _ then _ else _ : Except Exception Unit × Site).2.world.sensors = _ ∧
      SameRecords d s.world (if _ then _ else _ : Except Exception Unit × Site).2.world
    split <;> exact ⟨rfl, .refl d _⟩
  | _ => exact ⟨rfl, rfl, rfl, rfl⟩

end Frame

/-! ### What an operation has learnt when it writes -/

/-- Where an operation is: it has written nothing and looked for nothing, it has looked for a
sensor, or it may have written. -/
inductive Stage
  | start
  | looked (q : SensorQuery) (found : Option Sensor)
  | written

namespace Stage

def look (q : SensorQuery) (found : Option Sensor) : Stage → Stage
  | written => written
  | _ => looked q found

/-- What was found is what is stored. -/
def Right (cfg : Config) (w : World) : Stage → Prop
  | looked q found => found = w.sensors.find? (cfg.accepts q)
  | _ => True

end Stage

/-- The command leaves the device in `w` alone, or takes its mark away when it may. -/
def Harmless (cfg : Config) (w : World) (d : String) (restores : Prop) : Command → Prop
  | .updateSensors deviceId u => cfg.matchesId deviceId (some (.str d)) = true →
      Idle d w u ∨ (restores ∧ u = restored)
  | .saveSensor v => v.deviceId ≠ some (.str d)
  | .saveHardwareStatus h => h.deviceId ≠ some (.str d)
  | .saveTelemetry _ => False
  | _ => True

/-- An operation writes once, and nothing that harms the device. -/
def sparing (cfg : Config) (w : World) (d : String) (restores : Prop) :
    Protocol Stage Command Command.Reply Exception where
  allowed q c :=
    c.touches = none ∨ (q ≠ .written ∧ (q.Right cfg w → Harmless cfg w d restores c))
  next q c r :=
    match c, r with
    | .findSensor f, .ok found => q.look f found
    | c, _ => if c.touches.isSome then .written else q

/-- What is so at each stage of an operation that started in `w`. -/
structure Spared (cfg : Config) (w : World) (d : String) (restores : Prop) (s : Site) (q : Stage) :
    Prop where
  unwritten : q ≠ .written → s.world.sensors = w.sensors
  right : q.Right cfg w
  stored : rowsOf d s.world = rowsOf d w ∨
    (restores ∧ rowsOf d s.world = (rowsOf d w).map restored.apply)
  records : SameRecords d w s.world

namespace Spared

variable {cfg : Config} {w : World} {d : String} {restores : Prop} {s s' : Site} {q : Stage}

theorem written (h : Spared cfg w d restores s q) : Spared cfg w d restores s .written :=
  ⟨fun hq => absurd rfl hq, trivial, h.stored, h.records⟩

theorem congr (h : Spared cfg w d restores s q) (hsensors : s'.world.sensors = s.world.sensors)
    (hrecords : SameRecords d s.world s'.world) : Spared cfg w d restores s' q where
  unwritten hq := hsensors.trans (h.unwritten hq)
  right := h.right
  stored := by
    have hrows : rowsOf d s'.world = rowsOf d s.world := by
      unfold rowsOf
      rw [hsensors]
    rw [hrows]
    exact h.stored
  records := ⟨hrecords.telemetry.trans h.records.telemetry,
    hrecords.unsaved.trans h.records.unsaved, hrecords.hardware.trans h.records.hardware⟩

/-- The rows of the device are still those of `w` when the operation writes. -/
theorem rowsOf_eq (h : Spared cfg w d restores s q) (hq : q ≠ .written) :
    rowsOf d s.world = rowsOf d w := by
  unfold rowsOf
  rw [h.unwritten hq]

theorem error (h : Spared cfg w d restores s q) (c : Command) (e : Exception) :
    Spared cfg w d restores s ((sparing cfg w d restores).next q c (.error e)) := by
  have hnext : (sparing cfg w d restores).next q c (.error e) =
      if c.touches.isSome then .written else q := by
    cases c <;> rfl
  rw [hnext]
  split
  · exact h.written
  · exact h

/-- A lookup, and whatever writes no row and no record. -/
theorem quiet {c : Command} {fresh : String} (h : Spared cfg w d restores s q)
    (htouches : c.touches = none) :
    Spared cfg w d restores (s.attempt cfg fresh c).2
      ((sparing cfg w d restores).next q c (s.attempt cfg fresh c).1) := by
  obtain ⟨hsensors, hrecords⟩ : (s.attempt cfg fresh c).2.world.sensors = s.world.sensors ∧
      SameRecords d s.world (s.attempt cfg fresh c).2.world := attempt_of_touches htouches
  have hcongr := h.congr hsensors hrecords
  cases c with
  | findSensor f =>
    show Spared cfg w d restores s (q.look f (s.world.sensors.find? (cfg.accepts f)))
    cases q with
    | written => exact h
    | start | looked _ _ =>
      have hsame : s.world.sensors = w.sensors := h.unwritten nofun
      exact ⟨fun _ => hsame, congrArg _ hsame, h.stored, h.records⟩
  | updateSensors _ _ | saveSensor _ | saveTelemetry _ | saveHardwareStatus _ => cases htouches
  | _ => exact hcongr

/-- A write that is harmless. -/
theorem write {c : Command} {fresh : String} (h : Spared cfg w d restores s q)
    (hq : q ≠ .written) (hharmless : Harmless cfg w d restores c) (htouches : c.touches ≠ none) :
    Spared cfg w d restores (s.attempt cfg fresh c).2
      ((sparing cfg w d restores).next q c (s.attempt cfg fresh c).1) := by
  have hrows := h.rowsOf_eq hq
  cases c with
  | updateSensors deviceId u =>
    refine ⟨fun hq => absurd rfl hq, trivial, ?_,
      h.records.telemetry, h.records.unsaved, h.records.hardware⟩
    show rowsOf d (s.updateSensors cfg deviceId u).world = _ ∨
      (restores ∧ rowsOf d (s.updateSensors cfg deviceId u).world = _)
    rw [rowsOf_updateSensors, hrows]
    split
    · rename_i hid
      -- An update of the device's rows changes none of them, or is the one that restores them.
      rcases hharmless hid with hidle | ⟨hrestores, rfl⟩
      · exact .inl ((List.map_congr_left hidle).trans (List.map_id _))
      · exact .inr ⟨hrestores, rfl⟩
    · exact .inl rfl
  | saveSensor v =>
    refine ⟨fun hq => absurd rfl hq, trivial, ?_,
      h.records.telemetry, h.records.unsaved, h.records.hardware⟩
    have happend : rowsOf d (s.attempt cfg fresh (.saveSensor v)).2.world = rowsOf d s.world :=
      filter_append_of_not (ofDevice_of_ne hharmless)
    exact .inl (happend.trans hrows)
  | saveHardwareStatus status =>
    refine ⟨fun hq => absurd rfl hq, trivial, h.stored, h.records.telemetry, h.records.unsaved, ?_⟩
    have happend : ((s.world.hardware ++ [status]).filter fun h => ofDevice d h.deviceId) =
        s.world.hardware.filter fun h => ofDevice d h.deviceId :=
      filter_append_of_not (ofDevice_of_ne hharmless)
    exact happend.trans h.records.hardware
  | saveTelemetry t => exact hharmless.elim
  | _ => exact absurd rfl htouches

/-- A command that the protocol allows keeps the device spared. -/
theorem step {c : Command} {r : Except Exception c.Reply} (h : Spared cfg w d restores s q)
    (hallowed : (sparing cfg w d restores).allowed q c) (hexec : Executes cfg s c r s') :
    Spared cfg w d restores s' ((sparing cfg w d restores).next q c r) := by
  cases hexec with
  | failed e hfallible => exact h.error c e
  | kept hconnected => exact h
  | attempted fresh c hfresh =>
    by_cases htouches : c.touches = none
    · exact h.quiet htouches
    · obtain ⟨hq, hharmless⟩ := hallowed.resolve_left htouches
      exact h.write hq (hharmless h.right) htouches

end Spared

end IotPanel.Device
