import IotPanel.Device.Assignment
import IotPanel.Device.Sparing

/-!
# Operations that respect the deletion of a sensor

An operation that spares a deleted sensor respects it in each of its runs, and one that does
not has a run in which nothing fails and the sensor is returned or changed.
-/

namespace IotPanel.Device

open Responser (ResponseType)
open Program

namespace Operation

variable {cfg : Config} {w : World} {d : String} {restores : Prop} {α : Type} {v : Sensor}

/-! ### What the operations return -/

section Answers

variable {s t : Site} {op : Operation} {r : Except Exception Answer}

/-- A list that a method asks for, if it is not empty. -/
theorem runs_listed {f : SensorFilter} {e : Exception} {vs : List Sensor}
    (h : (do
      let found ← findSensors f
      if found = [] then throw e
      return found : Prog (List Sensor)).Runs (Executes cfg) s (.ok vs) t) :
    vs = s.world.sensors.filter (cfg.selects f) := by
  obtain ⟨found, s', hfind, hrest⟩ | ⟨e', he, -⟩ := Program.runs_bind.mp h
  · obtain ⟨rfl, hfound⟩ := executes_findSensors.mp (Program.runs_perform.mp hfind)
    rw [← hfound found rfl]
    change (if _ then _ else _ : Prog (List Sensor)).Runs _ _ _ _ at hrest
    split at hrest
    · obtain ⟨_, _, hthrow, -⟩ | ⟨e', he, -⟩ := Program.runs_bind.mp hrest
      · cases (Program.runs_throw.mp hthrow).1
      · cases he
    · exact Except.ok.inj (Program.runs_pure.mp hrest).1
  · cases he

/-- What is returned is stored, and is not deleted unless a search has selected it. -/
theorem stored_of_rows {vs : List Sensor}
    (h : (op.program cfg).Runs (Executes cfg) s (.ok (.rows vs)) t) (hv : v ∈ vs) :
    v ∈ s.world.sensors ∧ (v.isDeleted = false ∨
      ∃ query, op = .querySensors query ∧ cfg.selects (DeviceService.filterOf query) v = true) := by
  -- what a search for the sensors that are not deleted finds
  have hlisted : ∀ p, v ∈ s.world.sensors.filter (cfg.selects ⟨none, some false, p, none⟩) →
      v ∈ s.world.sensors ∧ v.isDeleted = false := by
    intro p hv
    obtain ⟨hv, hselects⟩ := List.mem_filter.mp hv
    simp only [Config.selects, Option.all_none, Option.all_some, Bool.true_and, Bool.and_true,
      Bool.and_eq_true, beq_iff_eq] at hselects
    exact ⟨hv, hselects.1.symm⟩
  cases op with
  | getAllSensors =>
    obtain ⟨_, hall, ⟨⟩⟩ := Program.runs_bind_pure.mp h
    rw [runs_listed hall] at hv
    exact (hlisted _ hv).imp_right .inl
  | getUnassignedSensor =>
    obtain ⟨_, hall, ⟨⟩⟩ := Program.runs_bind_pure.mp h
    rw [runs_listed hall] at hv
    exact (hlisted _ hv).imp_right .inl
  | querySensors query =>
    obtain ⟨_, hquery, ⟨⟩⟩ := Program.runs_bind_pure.mp h
    obtain ⟨-, hfound⟩ := executes_findSensors.mp (Program.runs_perform.mp hquery)
    rw [hfound _ rfl] at hv
    obtain ⟨hv, hselects⟩ := List.mem_filter.mp hv
    exact ⟨hv, .inr ⟨query, rfl, hselects⟩⟩
  | getSingleSensor deviceId =>
    obtain ⟨device, hsingle, ⟨⟩⟩ := Program.runs_bind_pure.mp h
    obtain rfl := List.mem_singleton.mp hv
    obtain ⟨found, s', hfind, hrest⟩ | ⟨e, he, -⟩ := Program.runs_bind.mp hsingle
    · obtain ⟨rfl, hfound⟩ := runs_findSensor.mp hfind
      cases found with
      | none => cases (Program.runs_throw.mp hrest).1
      | some device =>
        cases (Program.runs_pure.mp hrest).1
        have haccepts := List.find?_some (hfound _ rfl).symm
        simp only [Config.accepts, Option.all_some, Bool.and_eq_true, beq_iff_eq] at haccepts
        exact ⟨List.mem_of_find?_eq_some (hfound _ rfl).symm, .inl haccepts.1.2.symm⟩
    · cases he
  | getDeviceConfiguration deviceId =>
    obtain ⟨_, _, he⟩ := Program.runs_bind_pure.mp h
    cases he
  | assignDeviceFunction userId dto =>
    obtain ⟨_, _, he⟩ := Program.runs_bind_pure.mp h
    cases he
  | setDeviceConfiguration config =>
    obtain ⟨_, _, he⟩ := Program.runs_bind_pure.mp h
    cases he
  | response kind payload hkind hvalid =>
    obtain ⟨_, _, he⟩ := Program.runs_bind_pure.mp h
    cases he

/-- There is no configuration of a deleted device. -/
theorem not_runs_configuration (hd : Deleted cfg s.world d) {c : JsVal} :
    ¬ (DeviceService.getDeviceConfiguration d).Runs (Executes cfg) s (.ok c) t := by
  intro h
  obtain ⟨found, s', hfind, hrest⟩ | ⟨e, he, -⟩ := Program.runs_bind.mp h
  · obtain ⟨rfl, hfound⟩ := runs_findSensor.mp hfind
    rw [hfound found rfl, find_eq_none hd] at hrest
    obtain ⟨_, _, hthrow, -⟩ | ⟨e, he, -⟩ := Program.runs_bind.mp hrest
    · cases (Program.runs_throw.mp hthrow).1
    · cases he
  · cases he

/-- An operation that spares a deleted device respects it, whatever fails on the way. -/
theorem respects_of_spares (hd : Deleted cfg s.world d) (hspares : op.Spares cfg s.world d)
    (h : (op.program cfg).Runs (Executes cfg) s r t) : Respects d op s.world r t.world := by
  have hstart : Spared cfg s.world d (op.Restores d) s .start :=
    ⟨fun _ => rfl, trivial, .inl rfl, .refl d s.world⟩
  obtain ⟨q, -, hspared⟩ := h.of_wp (wp_program hd hspares) hstart
    fun _ _ _ _ _ hA hallowed hexec => hA.step hallowed hexec
  refine ⟨?_, ?_, hspared.stored, hspared.records⟩
  · rintro vs rfl v hv hid
    obtain ⟨hmem, hfalse | ⟨query, rfl, hselects⟩⟩ := stored_of_rows h hv
    · rw [isDeleted_of_mem hd (mem_rowsOf.mpr ⟨hmem, hid⟩)] at hfalse
      cases hfalse
    · have hnot := hspares v (mem_rowsOf.mpr ⟨hmem, hid⟩)
      rw [hselects] at hnot
      cases hnot
  · rintro rfl c rfl
    obtain ⟨c', hread, -⟩ := Program.runs_bind_pure.mp h
    exact not_runs_configuration hd hread

end Answers

/-! ### When it is respected -/

section Runs

variable {s t : Site} {op : Operation} {deviceId : JsVal} {u : SensorUpdate}

/-- Every program runs to its end if nothing fails. -/
theorem exists_runs (cfg : Config) (x : Prog α) (s : Site) : ∃ r t, x.Runs (Executes cfg) s r t := by
  induction x generalizing s with
  | ret a => exact ⟨a, s, .ret⟩
  | await c k ih =>
    have hfirst : Executes cfg s c (s.attempt cfg panelRequest c).1
        (s.attempt cfg panelRequest c).2 :=
      .attempted panelRequest c fun _ => by decide
    obtain ⟨r, t, hrest⟩ := ih _ (s.attempt cfg panelRequest c).2
    exact ⟨r, t, .await hfirst hrest⟩

/-- The rest of an operation that has written. -/
theorem sensors_of_stays {x : Prog α} {r : Except Exception α}
    (hx : x.Stays (sparing cfg w d restores) .written)
    (h : x.Runs (Executes cfg) s r t) : t.world.sensors = s.world.sensors := by
  have hstep : ∀ s' q c r s'', q = Stage.written ∧ s'.world.sensors = s.world.sensors →
      (sparing cfg w d restores).allowed q c → Executes cfg s' c r s'' →
        (sparing cfg w d restores).next q c r = .written ∧
          s''.world.sensors = s.world.sensors := by
    rintro s' _ c r s'' ⟨rfl, hsame⟩ hallowed hexec
    have htouches : c.touches = none := hallowed.resolve_right fun h => h.1 rfl
    have hnext : (sparing cfg w d restores).next .written c r = .written := by
      cases c with
      | findSensor f => cases r <;> rfl
      | updateSensors _ _ | saveSensor _ | saveTelemetry _ | saveHardwareStatus _ => rfl
      | _ => rfl
    refine ⟨hnext, ?_⟩
    cases hexec with
    | failed e hfallible => exact hsame
    | kept hconnected => exact hsame
    | attempted fresh c hfresh => exact (attempt_of_touches (d := d) htouches).1.trans hsame
  obtain ⟨_, -, -, hsame⟩ := h.of_wp hx ⟨rfl, rfl⟩ hstep
  exact hsame

/-- An operation that gets as far as its update has a run in which nothing else touches the
rows. -/
theorem exists_runs_update {rest : Unit → Prog Unit}
    (hrest : ∀ a, (rest a).Stays (sparing cfg s.world d False) .written) :
    ∃ r t, (updateSensors deviceId u >>= rest).Runs (Executes cfg) s r t ∧
      rowsOf d t.world = rowsOf d (s.updateSensors cfg deviceId u).world := by
  obtain ⟨r, t, hrun⟩ := exists_runs cfg (rest ()) (s.updateSensors cfg deviceId u)
  refine ⟨r, t, ?_, ?_⟩
  · refine Program.runs_bind.mpr (.inl ⟨(), _, ?_, hrun⟩)
    exact Program.runs_perform.mpr (executes_updateSensors.mpr (.inl ⟨rfl, rfl⟩))
  · unfold rowsOf
    rw [sensors_of_stays (hrest ()) hrun]

/-- The same, for an update that follows a lookup. -/
theorem exists_runs_found {f : SensorQuery} {e : Exception}
    (hv : s.world.sensors.find? (cfg.accepts f) = some v) {rest : Unit → Prog Unit}
    (hrest : ∀ a, (rest a).Stays (sparing cfg s.world d False) .written) :
    ∃ r t, (do
        match ← findSensor f with
        | none => throw e
        | some _ => updateSensors deviceId u >>= rest : Prog Unit).Runs (Executes cfg) s r t ∧
      rowsOf d t.world = rowsOf d (s.updateSensors cfg deviceId u).world := by
  obtain ⟨r, t, hrun, hrows⟩ := exists_runs_update hrest
  refine ⟨r, t, Program.runs_bind.mpr (.inl ⟨some v, s, ?_, hrun⟩), hrows⟩
  exact runs_findSensor.mpr ⟨rfl, fun found h => (Except.ok.inj h).symm.trans hv.symm⟩

/-- The same, for the update of a discovery that finds a deleted sensor. -/
theorem exists_runs_discovered {payload : Json}
    (hv : s.world.sensors.find? (cfg.accepts ⟨deviceId, none, none⟩) = some v)
    (hdeleted : v.isDeleted = true) :
    ∃ r t, (do
        let stored ← findSensor ⟨deviceId, none, none⟩
        if stored.any fun s => s.isDeleted then
          updateSensors deviceId restored
        takeDiscovered cfg payload (Responser.interpolate deviceId) stored : Prog Unit).Runs
          (Executes cfg) s r t ∧
      rowsOf d t.world = rowsOf d (s.updateSensors cfg deviceId restored).world := by
  have hrest : ∀ _ : Unit, (takeDiscovered cfg payload (Responser.interpolate deviceId)
      (some v)).Stays (sparing cfg s.world d False) .written :=
    fun _ => stays_takeDiscovered cfg payload _ v
  obtain ⟨r, t, hrun, hrows⟩ := exists_runs_update hrest
  refine ⟨r, t, Program.runs_bind.mpr (.inl ⟨some v, s, ?_, ?_⟩), hrows⟩
  · exact runs_findSensor.mpr ⟨rfl, fun found h => (Except.ok.inj h).symm.trans hv.symm⟩
  · show (if _ then _ else _ : Prog Unit).Runs _ _ _ _
    rw [if_pos (show Option.any (fun s : Sensor => s.isDeleted) (some v) = true from hdeleted)]
    exact hrun

/-- A discovery has a response id. -/
theorem truthy_of_validate {payload : Json} {time : ℕ}
    (h : ClassValidator.validate
      ((ResponseType.discovery.dto time).filter (·.name ≠ "responseCode")) payload = true) :
    (payload.get "responseId").truthy = true := by
  have hmem : ClassValidator.Property.required "responseId"
      [ClassValidator.isString, ClassValidator.isNotEmpty] ∈
        (ResponseType.discovery.dto time).filter (·.name ≠ "responseCode") :=
    List.mem_filter.mpr ⟨.tail _ (.head _), by decide⟩
  obtain ⟨a, ha⟩ := ClassValidator.exists_str_of_isString
    (ClassValidator.test_of_validate h hmem List.mem_cons_self)
  have hne := ClassValidator.test_of_validate h hmem (List.mem_cons_of_mem _ List.mem_cons_self)
  rw [ha] at hne ⊢
  exact hne

/-- What an operation that respects the device writes to its row is there already. -/
theorem idle_of_respects {x : Prog Unit}
    (h : ∀ r t, (do
      x
      return Answer.done : Prog Answer).Runs (Executes cfg) s r t → Respects d op s.world r t.world)
    (hrun : ∃ r t, x.Runs (Executes cfg) s r t ∧
      rowsOf d t.world = rowsOf d (s.updateSensors cfg deviceId u).world)
    (hrestores : ¬ op.Restores d) (hid : cfg.matchesId deviceId (some (.str d)) = true) :
    Idle d s.world u := by
  obtain ⟨r, t, hx, hrows⟩ := hrun
  have hstored : rowsOf d t.world = rowsOf d s.world := by
    have hcall : ∃ r', (do
        x
        return Answer.done : Prog Answer).Runs (Executes cfg) s r' t := by
      cases r with
      | ok a =>
        exact ⟨.ok .done,
          Program.runs_bind.mpr (.inl ⟨a, t, hx, Program.runs_pure.mpr ⟨rfl, rfl⟩⟩)⟩
      | error e => exact ⟨.error e, Program.runs_bind.mpr (.inr ⟨e, rfl, hx⟩)⟩
    obtain ⟨r', hcall⟩ := hcall
    exact (h r' t hcall).stored.resolve_right fun hr => hrestores hr.1
  exact idle_of_rowsOf hid (hrows.symm.trans hstored)

theorem eq_str_of_strictEq {v : JsVal} {a : String}
    (h : v.strictEq (some (.str a)) = true) : v = some (.str a) := by
  cases v with
  | none => cases h
  | some j =>
    cases j with
    | str b => rw [eq_of_beq h]
    | _ => cases h

theorem matchesId_self (cfg : Config) (d : String) :
    cfg.matchesId (some (.str d)) (some (.str d)) = true := (matchesId_str cfg d d).mpr rfl

/-! The handlers behind an accepted response code -/

theorem handleUpgradeResponse_eq {payload : Json}
    (hcode : Responser.CodedType.upgrade.codeAccepted (payload.get "responseCode") = true)
    (hsuccess : (payload.get "status").strictEq (some (.str "success")) = true) :
    ResponserService.handleUpgradeResponse payload = (do
      updateSensors (payload.get "deviceId")
        { SensorUpdate.none with lastUpgrade := some (newDate (payload.get "timestamp")) }
      ResponserService.deleteCache payload) := by
  show (if _ then _ else _ : Prog Unit) = _
  rw [if_neg (by simp [hcode])]
  show (if _ then _ else _ : Prog Unit) = _
  rw [eq_str_of_strictEq hsuccess]
  rfl

theorem handleDeviceHeartbeat_eq {payload : Json}
    (hcode : Responser.CodedType.heartbeat.codeAccepted (payload.get "responseCode") = true) :
    ResponserService.handleDeviceHeartbeat payload = (do
      match ← findSensor ⟨payload.get "deviceId", none, none⟩ with
      | none => throw (.forbidden "Device not found")
      | some _ =>
        updateSensors (payload.get "deviceId")
          { SensorUpdate.none with connectionState := some (payload.get "connectionState") }
        ResponserService.deleteCache payload) :=
  if_neg (by simp [hcode])

theorem handleRebootResponse_eq {payload : Json}
    (hcode : Responser.CodedType.reboot.codeAccepted (payload.get "responseCode") = true) :
    ResponserService.handleRebootResponse payload = (do
      updateSensors (payload.get "deviceId")
        { SensorUpdate.none with lastReboot := some (newDate (payload.get "timestamp")) }
      ResponserService.deleteCache payload) :=
  if_neg (by simp [hcode])

/-- An operation that respects the deleted device, whatever fails on the way, spares it. -/
theorem spares_of_respects (hd : Deleted cfg s.world d)
    (h : ∀ r t, (op.program cfg).Runs (Executes cfg) s r t → Respects d op s.world r t.world) :
    op.Spares cfg s.world d := by
  cases op with
  | querySensors query =>
    intro v hv
    rw [Bool.eq_false_iff]
    intro hselects
    obtain ⟨hmem, hid⟩ := mem_rowsOf.mp hv
    refine (h (.ok (.rows _)) s (Program.runs_bind_pure.mpr ⟨_, ?_, rfl⟩)).rows _ rfl v
      (List.mem_filter.mpr ⟨hmem, hselects⟩) hid
    exact Program.runs_perform.mpr
      (executes_findSensors.mpr ⟨rfl, fun found hfound => (Except.ok.inj hfound).symm⟩)
  | response kind payload hkind hvalid =>
    cases kind with
    | upgrade =>
      intro hid hcode hsuccess v hv
      have hidle := idle_of_respects h (by
        show ∃ r t, (ResponserService.handleUpgradeResponse payload).Runs _ _ _ _ ∧ _
        rw [handleUpgradeResponse_eq hcode hsuccess]
        exact exists_runs_update fun _ => stays_deleteCache payload) id
          (by rw [hid]; exact matchesId_self cfg d)
      exact (congrArg Sensor.lastUpgrade (hidle v hv)).symm
    | heartbeat =>
      intro hid hcode v hv
      have hidle := idle_of_respects h (by
        show ∃ r t, (ResponserService.handleDeviceHeartbeat payload).Runs _ _ _ _ ∧ _
        rw [handleDeviceHeartbeat_eq hcode, hid]
        exact exists_runs_found (exists_find hd).choose_spec.1 fun _ =>
          stays_deleteCache payload) id (matchesId_self cfg d)
      exact (congrArg Sensor.connectionState (hidle v hv)).symm
    | reboot =>
      intro hid hcode v hv
      have hidle := idle_of_respects h (by
        show ∃ r t, (ResponserService.handleRebootResponse payload).Runs _ _ _ _ ∧ _
        rw [handleRebootResponse_eq hcode, hid]
        exact exists_runs_update fun _ => stays_deleteCache payload) id (matchesId_self cfg d)
      exact (congrArg Sensor.lastReboot (hidle v hv)).symm
    | discovery =>
      intro deviceId hid hne hmatches row hfound
      rw [Bool.eq_false_iff]
      intro hrow
      -- the payload is an object, so that the handler is called
      have hprogram : ListenerService.handler cfg .discovery payload =
          ResponserService.handleDiscoveryResponse cfg payload := by
        obtain ⟨time, hvalid⟩ := hvalid
        exact if_pos (truthy_of_validate hvalid)
      have hrestores : ¬ (response .discovery payload hkind hvalid).Restores d := by
        show ¬ (Call.discoveryResponse payload).deviceId = some (.str d)
        rw [Call.deviceId_of_discovered hid]
        exact hne
      have hidle := idle_of_respects (u := restored) h (by
        rw [hprogram, handleDiscoveryResponse_eq hid]
        exact exists_runs_discovered hfound hrow) hrestores hmatches
      -- an update that restores leaves a deleted row as it is only if it is not deleted
      obtain ⟨v, hv, hvid⟩ := hd.stored
      have hmem := mem_rowsOf.mpr ⟨hv, hvid⟩
      have hmark := congrArg Sensor.isDeleted (hidle v hmem)
      rw [isDeleted_of_mem hd hmem] at hmark
      cases hmark
    | _ => trivial
  | _ => trivial

end Runs

end Operation

/-- An operation respects a deleted device, whatever fails on the way, exactly when it is none
that forgets the mark. -/
theorem respected_iff_spares (cfg : Config) {s : Site} {d : String} (hd : Deleted cfg s.world d)
    (op : Operation) :
    (∀ r t, (op.program cfg).Runs (Executes cfg) s r t → Respects d op s.world r t.world) ↔
      op.Spares cfg s.world d :=
  ⟨Operation.spares_of_respects hd, fun hspares _ _ hrun =>
    Operation.respects_of_spares hd hspares hrun⟩

/-! ### A device that has been deleted -/

/-- A panel that knows one device, which has been deleted. -/
def retired : Site := { offline with world := panel }

theorem deleted_retired : Deleted panelConfig retired.world "esp32-2" where
  stored := ⟨esp32, List.mem_singleton_self _, rfl⟩
  deleted v hv _ := by
    obtain rfl := List.mem_singleton.mp hv
    rfl

/-- The device tells that it has been upgraded, with the number that the handler asks for. -/
def lateUpgrade : Operation :=
  .response .upgrade (.obj [("userId", .str "ana"), ("responseId", .str "u1"),
    ("responseCode", .num 205), ("requestId", .str panelRequest), ("deviceId", .str "esp32-2"),
    ("timestamp", .num 1763000000000), ("status", .str "success"), ("progress", .num 100)])
    (by rintro ⟨⟩) ⟨0, by decide +kernel⟩

/-- An assignment leaves the device alone, the end of an upgrade does not. -/
theorem respected_iff_spares_assignment :
    (∀ r t, ((Operation.assignDeviceFunction "ana" temperature).program panelConfig).Runs
        (Executes panelConfig) retired r t →
      Respects "esp32-2" (.assignDeviceFunction "ana" temperature) retired.world r t.world) ∧
    ¬ ∀ r t, (lateUpgrade.program panelConfig).Runs (Executes panelConfig) retired r t →
      Respects "esp32-2" lateUpgrade retired.world r t.world := by
  refine ⟨(respected_iff_spares panelConfig deleted_retired _).mpr trivial, fun h => ?_⟩
  have hspares := (respected_iff_spares panelConfig deleted_retired lateUpgrade).mp h
  have hdate := hspares rfl (by decide +kernel) (by decide +kernel) esp32
    (mem_rowsOf.mpr ⟨List.mem_singleton_self _, rfl⟩)
  cases hdate

/-- A heartbeat of a deleted device. -/
def lateHeartbeat : Operation :=
  .response .heartbeat heartbeat.payload (by rintro ⟨⟩) ⟨0, by decide +kernel⟩

theorem not_respected_of_heartbeat :
    ¬ ∀ (cfg : Config) (s : Site) (d : String), Deleted cfg s.world d → ∀ (op : Operation) r t,
      (op.program cfg).Runs (Executes cfg) s r t → Respects d op s.world r t.world := by
  intro h
  have hspares := Operation.spares_of_respects deleted_retired
    (h panelConfig retired "esp32-2" deleted_retired lateHeartbeat)
  have hstate := hspares (eq_of_strictEq_str (by decide +kernel)) (by decide +kernel) esp32
    (mem_rowsOf.mpr ⟨List.mem_singleton_self _, rfl⟩)
  have hsame := congrArg (fun v => JsVal.strictEq v (some (.str "online"))) hstate
  revert hsame
  decide +kernel

end IotPanel.Device
