import IotPanel.Device.Handlers
import IotPanel.Device.Script

/-!
# The statuses of responses

The answers to an assignment, an upgrade and a reboot carry a status. A final one is to close the
request, and only a positive one is to write the row of the device.
-/

namespace IotPanel.Device

open Program
open ClassValidator
open Responser (CodedType pendingKey)
open DeviceService (invalidSensorTypes validateSensorTypes assigned)
open ResponserService (deleteCache)

/-- The responses that report a status. -/
inductive StatusType
  | assign
  | upgrade
  | reboot
  deriving DecidableEq, Repr

/-- The statuses after which nothing more is to come. -/
def finalStatuses : List String := ["accepted", "rejected", "access_denied", "success", "failure"]

def unfinishedStatuses : List String := ["processing", "scheduled"]

namespace StatusType

def coded : StatusType → CodedType
  | assign => .assign
  | upgrade => .upgrade
  | reboot => .reboot

def handler : StatusType → Json → Prog Unit
  | assign => ResponserService.handleAssignResponse
  | upgrade => ResponserService.handleUpgradeResponse
  | reboot => ResponserService.handleRebootResponse

/-- The status with which the row is to be written. -/
def positive : StatusType → String
  | assign => "accepted"
  | upgrade | reboot => "success"

/-- The statuses that the class allows. -/
def statuses : StatusType → List String
  | assign => Responser.ackStatus
  | upgrade => Responser.upgradeStatus
  | reboot => Responser.rebootStatus

/-- The payload is valid but for the response code, which is the number of the kind. -/
structure Expected (k : StatusType) (payload : Json) : Prop where
  valid : ∀ time, validate ((k.coded.type.dto time).filter (·.name ≠ "responseCode")) payload = true
  code : payload.get "responseCode" = some (.num k.coded.code)

end StatusType

/-- The pending request of the payload. -/
def World.pending (w : World) (payload : Json) : Option Json :=
  w.cache.get w.now (pendingKey (payload.get "requestId"))

/-- A command is executed, or it fails if `F` lets it. -/
inductive Attempts (cfg : Config) (F : Command → Prop) (w : World) :
    (c : Command) → Except Exception c.Reply → World → Prop
  | executed (c : Command) :
      Attempts cfg F w c (.ok (cfg.execute "" w c).1) (cfg.execute "" w c).2
  | failed {c : Command} (e : Exception) (hF : F c) : Attempts cfg F w c (.error e) w

namespace StatusType

/-- What the response is to leave. -/
structure Closes (k : StatusType) (payload : Json) (w t : World) : Prop where
  unwritten : payload.get "status" ≠ some (.str k.positive) → t.sensors = w.sensors
  closed : ∀ st ∈ finalStatuses, payload.get "status" = some (.str st) → t.pending payload = none
  kept : ∀ st ∈ unfinishedStatuses, payload.get "status" = some (.str st) →
    t.pending payload = w.pending payload

/-- The handler leaves what it is to leave, whether it returns or throws. -/
def Settles (k : StatusType) (cfg : Config) (F : Command → Prop) (w : World) (payload : Json) :
    Prop :=
  ∀ r t, (k.handler payload).Runs (Attempts cfg F) w r t → k.Closes payload w t

/-- The update that the handler makes. -/
def written : StatusType → Json → SensorUpdate
  | assign, payload => assigned (payload.get "functionality")
  | upgrade, payload =>
    { SensorUpdate.none with lastUpgrade := some (newDate (payload.get "timestamp")) }
  | reboot, payload =>
    { SensorUpdate.none with lastReboot := some (newDate (payload.get "timestamp")) }

/-- The commands of the handler up to the end of the request. -/
def commands (k : StatusType) (payload : Json) : List Command :=
  (if k = assign then [.findSensor ⟨payload.get "deviceId", some false, none⟩] else []) ++
    [.updateSensors (payload.get "deviceId") (k.written payload),
      .cacheDel (pendingKey (payload.get "requestId"))]

end StatusType

/-- The device is stored, and has the functionality of the payload among its capabilities. -/
def Provides (cfg : Config) (w : World) (payload : Json) : Prop :=
  ∃ row, w.sensors.find? (cfg.accepts ⟨payload.get "deviceId", some false, none⟩) = some row ∧
    invalidSensorTypes row.capabilities (payload.get "functionality") = .ok []

/-- Every row of the device shows the time of the payload as its last reboot. -/
def ShowsReboot (cfg : Config) (w : World) (payload : Json) : Prop :=
  ∀ row ∈ w.sensors, cfg.matchesId (payload.get "deviceId") row.deviceId = true →
    row.lastReboot = newDate (payload.get "timestamp")

namespace StatusType

/-- The handler gets to the end of the request with the status, if no command fails. -/
def Reaches (cfg : Config) (w : World) (payload : Json) : StatusType → String → Prop
  | assign, st => st = "accepted" ∧ Provides cfg w payload
  | upgrade, st => st = "success"
  | reboot, _ => True

/-- A reboot that has not succeeded shows already; a final status gets to the end of the request
and no command up to it fails, unless there is no such request; and while a reboot is scheduled
there is none. -/
structure Tidy (k : StatusType) (cfg : Config) (F : Command → Prop) (w : World) (payload : Json) :
    Prop where
  shown : k = .reboot → payload.get "status" ≠ some (.str "success") → ShowsReboot cfg w payload
  reached : ∀ st ∈ finalStatuses, payload.get "status" = some (.str st) →
    w.pending payload = none ∨ (Reaches cfg w payload k st ∧ ∀ c ∈ k.commands payload, ¬ F c)
  scheduled : k = .reboot → payload.get "status" = some (.str "scheduled") →
    w.pending payload = none

end StatusType

section Runs

variable {cfg : Config} {F : Command → Prop} {w t : World} {payload : Json} {k : StatusType}
  {r : Except Exception Unit} {st : String}

theorem attempts_iff {c : Command} {r : Except Exception c.Reply} :
    Attempts cfg F w c r t ↔
      (r = .ok (cfg.execute "" w c).1 ∧ t = (cfg.execute "" w c).2) ∨
        (F c ∧ (∃ e, r = .error e) ∧ t = w) := by
  constructor
  · rintro (⟨⟩ | ⟨e, hF⟩)
    · exact .inl ⟨rfl, rfl⟩
    · exact .inr ⟨hF, ⟨e, rfl⟩, rfl⟩
  · rintro (⟨rfl, rfl⟩ | ⟨hF, ⟨e, rfl⟩, rfl⟩)
    · exact .executed c
    · exact .failed e hF

/-- The rows after the update of the handler. -/
def World.write (cfg : Config) (w : World) (k : StatusType) (payload : Json) : World :=
  (cfg.execute "" w (.updateSensors (payload.get "deviceId") (k.written payload))).2

/-- The pending request is deleted. -/
def World.close (cfg : Config) (w : World) (payload : Json) : World :=
  (cfg.execute "" w (.cacheDel (pendingKey (payload.get "requestId")))).2

@[simp] theorem pending_write : (w.write cfg k payload).pending payload = w.pending payload := rfl

@[simp] theorem pending_close : (w.close cfg payload).pending payload = none := by
  simp [World.close, Config.execute, World.pending]

/-- The update and the end of the request. -/
def applyResponse (k : StatusType) (payload : Json) : Prog Unit := do
  updateSensors (payload.get "deviceId") (k.written payload)
  deleteCache payload

theorem runs_applyResponse (hrequest : (payload.get "requestId").truthy = true) :
    (applyResponse k payload).Runs (Attempts cfg F) w r t ↔
      (r = .ok () ∧ t = (w.write cfg k payload).close cfg payload) ∨
        (F (.updateSensors (payload.get "deviceId") (k.written payload)) ∧ (∃ e, r = .error e) ∧
          t = w) ∨
        (F (.cacheDel (pendingKey (payload.get "requestId"))) ∧ (∃ e, r = .error e) ∧
          t = w.write cfg k payload) := by
  have hdelete : deleteCache payload = cacheDel (pendingKey (payload.get "requestId")) :=
    if_pos hrequest
  rw [applyResponse, hdelete, runs_bind]
  unfold updateSensors cacheDel
  simp only [runs_perform, attempts_iff]
  constructor
  · rintro (⟨a, s', ⟨-, rfl⟩ | ⟨-, ⟨e, he⟩, -⟩, hrest⟩ | ⟨e, rfl, ⟨he, -⟩ | ⟨hF, -, rfl⟩⟩)
    · obtain ⟨rfl, rfl⟩ | ⟨hF, he, rfl⟩ := hrest
      · exact .inl ⟨rfl, rfl⟩
      · exact .inr (.inr ⟨hF, he, rfl⟩)
    · cases he
    · cases he
    · exact .inr (.inl ⟨hF, ⟨e, rfl⟩, rfl⟩)
  · rintro (⟨rfl, rfl⟩ | ⟨hF, ⟨e, rfl⟩, rfl⟩ | ⟨hF, he, rfl⟩)
    · exact .inl ⟨(), _, .inl ⟨trivial, rfl⟩, .inl ⟨rfl, rfl⟩⟩
    · exact .inr ⟨e, rfl, .inr ⟨hF, ⟨e, rfl⟩, rfl⟩⟩
    · exact .inl ⟨(), _, .inl ⟨trivial, rfl⟩, .inr ⟨hF, he, rfl⟩⟩

/-- The rest of the check when the device has been looked up. -/
def checkCapabilities (payload : Json) : Option Sensor → Prog Unit
  | none => throw (.notFound "Device not found")
  | some storedDevice =>
    match invalidSensorTypes storedDevice.capabilities (payload.get "functionality") with
    | .error e => throw e
    | .ok [] => return ()
    | .ok (_ :: _) => throw (.unauthorized
        (Responser.interpolate (payload.get "deviceId") ++ " functionality validation failed"))

theorem validateSensorTypes_eq :
    validateSensorTypes (payload.get "deviceId") (payload.get "functionality") =
      findSensor ⟨payload.get "deviceId", some false, none⟩ >>= checkCapabilities payload := by
  unfold validateSensorTypes
  refine congrArg (findSensor _ >>= ·) (funext fun found => ?_)
  cases found <;> rfl

theorem checkCapabilities_cases (cfg : Config) (w : World) (payload : Json) :
    (checkCapabilities payload (w.sensors.find? (cfg.accepts ⟨payload.get "deviceId", some false,
        none⟩)) = .ret (.ok ()) ∧ Provides cfg w payload) ∨
      ((∃ e, checkCapabilities payload (w.sensors.find? (cfg.accepts ⟨payload.get "deviceId",
        some false, none⟩)) = .ret (.error e)) ∧ ¬ Provides cfg w payload) := by
  unfold Provides
  cases w.sensors.find? (cfg.accepts ⟨payload.get "deviceId", some false, none⟩) with
  | none => exact .inr ⟨⟨_, rfl⟩, by rintro ⟨row, ⟨⟩, -⟩⟩
  | some row =>
    simp only [Option.some.injEq, exists_eq_left', checkCapabilities]
    split
    · next e he => exact .inr ⟨⟨e, rfl⟩, by rw [he]; rintro ⟨⟩⟩
    · next he => exact .inl ⟨rfl, he⟩
    · next he => exact .inr ⟨⟨_, rfl⟩, by rw [he]; rintro ⟨⟩⟩

/-- The check of the device and its capabilities reads the row, or fails to. -/
theorem attempted_validateSensorTypes :
    (validateSensorTypes (payload.get "deviceId") (payload.get "functionality")).Runs
        (Attempts cfg F) w r t ↔
      (checkCapabilities payload (w.sensors.find? (cfg.accepts ⟨payload.get "deviceId", some false,
          none⟩)) = .ret r ∧ t = w) ∨
        (F (.findSensor ⟨payload.get "deviceId", some false, none⟩) ∧ (∃ e, r = .error e) ∧
          t = w) := by
  rw [validateSensorTypes_eq, runs_bind]
  unfold findSensor
  simp only [runs_perform, attempts_iff]
  have hret : ∃ b, checkCapabilities payload (w.sensors.find? (cfg.accepts
      ⟨payload.get "deviceId", some false, none⟩)) = .ret b := by
    obtain ⟨h, -⟩ | ⟨⟨e, h⟩, -⟩ := checkCapabilities_cases cfg w payload
    · exact ⟨_, h⟩
    · exact ⟨_, h⟩
  obtain ⟨b, hb⟩ := hret
  rw [hb]
  constructor
  · rintro (⟨found, s, ⟨hfound, rfl⟩ | ⟨-, ⟨e, ⟨⟩⟩, -⟩, hrest⟩ | ⟨e, rfl, ⟨⟨⟩, -⟩ | ⟨hF, -, rfl⟩⟩)
    · cases hfound
      obtain ⟨rfl, rfl⟩ := runs_ret.mp (hb ▸ hrest)
      exact .inl ⟨rfl, rfl⟩
    · exact .inr ⟨hF, ⟨e, rfl⟩, rfl⟩
  · rintro (⟨⟨⟩, rfl⟩ | ⟨hF, ⟨e, rfl⟩, rfl⟩)
    · refine .inl ⟨_, t, .inl ⟨rfl, rfl⟩, ?_⟩
      exact hb ▸ .ret
    · exact .inr ⟨e, rfl, .inr ⟨hF, ⟨e, rfl⟩, rfl⟩⟩

/-! ### What a handler leaves -/

theorem forall_status_iff {l : List String} {P : String → Prop}
    (hst : payload.get "status" = some (.str st)) :
    (∀ st' ∈ l, payload.get "status" = some (.str st') → P st') ↔ (st ∈ l → P st) := by
  constructor
  · exact fun h hl => h st hl hst
  · intro h st' hl hst'
    obtain rfl : st = st' := by simpa using hst.symm.trans hst'
    exact h hl

theorem status_eq_iff (hst : payload.get "status" = some (.str st)) (st' : String) :
    payload.get "status" = some (.str st') ↔ st = st' := by
  rw [hst, Option.some.injEq, Json.str.injEq]

/-- With the status known, what is to be left is known. -/
theorem closes_iff (hst : payload.get "status" = some (.str st)) :
    k.Closes payload w t ↔ (st ≠ k.positive → t.sensors = w.sensors) ∧
      (st ∈ finalStatuses → t.pending payload = none) ∧
        (st ∈ unfinishedStatuses → t.pending payload = w.pending payload) := by
  rw [← forall_status_iff (P := fun _ => t.pending payload = none) hst,
    ← forall_status_iff (P := fun _ => t.pending payload = w.pending payload) hst, Ne,
    ← status_eq_iff hst]
  exact ⟨fun h => ⟨h.unwritten, h.closed, h.kept⟩, fun h => ⟨h.1, h.2.1, h.2.2⟩⟩

theorem tidy_iff (hst : payload.get "status" = some (.str st)) :
    k.Tidy cfg F w payload ↔ (k = .reboot → st ≠ "success" → ShowsReboot cfg w payload) ∧
      (st ∈ finalStatuses → w.pending payload = none ∨
        (k.Reaches cfg w payload st ∧ ∀ c ∈ k.commands payload, ¬ F c)) ∧
          (k = .reboot → st = "scheduled" → w.pending payload = none) := by
  rw [← forall_status_iff (P := fun st => w.pending payload = none ∨
    (k.Reaches cfg w payload st ∧ ∀ c ∈ k.commands payload, ¬ F c)) hst, Ne, ← status_eq_iff hst,
    ← status_eq_iff hst "scheduled"]
  exact ⟨fun h => ⟨h.shown, h.reached, h.scheduled⟩, fun h => ⟨h.1, h.2.1, h.2.2⟩⟩

theorem not_mem_unfinished (h : st ∈ finalStatuses) : st ∉ unfinishedStatuses := by
  revert st
  decide

/-- A handler that does nothing settles what is not final, and what there is nothing left of. -/
theorem settles_of_idle (hst : payload.get "status" = some (.str st))
    {a : Except Exception Unit} (hidle : k.handler payload = .ret a) :
    k.Settles cfg F w payload ↔ (st ∈ finalStatuses → w.pending payload = none) := by
  unfold StatusType.Settles
  rw [hidle]
  simp only [runs_ret, closes_iff hst]
  constructor
  · intro h
    exact (h a w ⟨rfl, rfl⟩).2.1
  · rintro h r t ⟨-, rfl⟩
    exact ⟨fun _ => rfl, h, fun _ => rfl⟩

/-- An update changes nothing if and only if each row that it is about has the new value. -/
theorem map_ite_eq_self_iff {α : Type} {p : α → Bool} {f : α → α} {xs : List α} :
    (xs.map fun x => if p x then f x else x) = xs ↔ ∀ x ∈ xs, p x = true → f x = x := by
  have hid := List.map_inj_left (f := fun x => if p x then f x else x) (g := id) (l := xs)
  rw [List.map_id] at hid
  rw [hid]
  refine forall₂_congr fun x _ => ?_
  by_cases hp : p x = true
  · simp [hp]
  · simp [hp]

theorem sensors_write_iff :
    (w.write cfg .reboot payload).sensors = w.sensors ↔ ShowsReboot cfg w payload := by
  refine map_ite_eq_self_iff.trans (forall₂_congr fun row _ => ?_)
  refine imp_congr_right fun _ => ?_
  constructor
  · intro h
    exact (congrArg Sensor.lastReboot h).symm
  · intro h
    simp [StatusType.written, SensorUpdate.apply, SensorUpdate.none, ← h]

/-- A handler that makes its update and closes the request. -/
theorem settles_of_apply (hst : payload.get "status" = some (.str st))
    (hrequest : (payload.get "requestId").truthy = true)
    (happly : k.handler payload = applyResponse k payload) :
    k.Settles cfg F w payload ↔
      (st ≠ k.positive → (w.write cfg k payload).sensors = w.sensors) ∧
        (st ∈ finalStatuses → w.pending payload = none ∨
          (¬ F (.updateSensors (payload.get "deviceId") (k.written payload)) ∧
            ¬ F (.cacheDel (pendingKey (payload.get "requestId"))))) ∧
          (st ∈ unfinishedStatuses → w.pending payload = none) := by
  unfold StatusType.Settles
  rw [happly]
  simp only [runs_applyResponse hrequest, closes_iff hst]
  constructor
  -- the run without faults tells of the rows, one run for each fault of the pending entry
  · intro h
    obtain ⟨hrows, -, hkept⟩ := h _ _ (.inl ⟨rfl, rfl⟩)
    refine ⟨hrows, fun hfinal => or_iff_not_imp_left.mpr fun hpending => ⟨fun hF => ?_, fun hF => ?_⟩,
      fun hunfinished => ?_⟩
    · exact hpending ((h _ _ (.inr (.inl ⟨hF, ⟨.error "", rfl⟩, rfl⟩))).2.1 hfinal)
    · exact hpending ((h _ _ (.inr (.inr ⟨hF, ⟨.error "", rfl⟩, rfl⟩))).2.1 hfinal)
    · rw [← hkept hunfinished, pending_close]
  · rintro ⟨hrows, hclosed, hkept⟩ r t (⟨-, rfl⟩ | ⟨hF, -, rfl⟩ | ⟨hF, -, rfl⟩)
    · refine ⟨hrows, fun _ => pending_close, fun hunfinished => ?_⟩
      rw [pending_close, hkept hunfinished]
    -- the update has failed, or the deletion after it
    · refine ⟨fun _ => rfl, fun hfinal => ?_, fun _ => rfl⟩
      exact (hclosed hfinal).resolve_right fun h => h.1 hF
    · refine ⟨hrows, fun hfinal => ?_, fun _ => pending_write⟩
      rw [pending_write]
      exact (hclosed hfinal).resolve_right fun h => h.2 hF

/-! ### The three handlers -/

theorem strictEq_str (a b : String) : JsVal.strictEq (some (.str a)) (some (.str b)) = (a == b) := rfl

theorem StatusType.Expected.exists_status (h : k.Expected payload) :
    ∃ st ∈ k.statuses, payload.get "status" = some (.str st) := by
  have hmem : .required "status" [isEnum k.statuses] ∈
      (k.coded.type.dto 0).filter (·.name ≠ "responseCode") := by
    cases k <;> simp [StatusType.coded, CodedType.type, Responser.ResponseType.dto,
      Responser.sensorFunctionalityResponseDto, Responser.fwUpgradeResponseDto,
      Responser.deviceRebootResponseDto, StatusType.statuses, Property.required]
  have htest := test_of_validate (h.valid 0) hmem (List.mem_singleton.mpr rfl)
  cases hstatus : payload.get "status" with
  | none =>
    rw [hstatus] at htest
    cases htest
  | some v =>
    rw [hstatus] at htest
    cases v with
    | str st => exact ⟨st, List.contains_iff_mem.mp htest, rfl⟩
    | _ => cases htest

theorem StatusType.Expected.truthy_requestId (h : k.Expected payload) :
    (payload.get "requestId").truthy = true := by
  have hmem : Responser.requestIdProperty ∈
      (k.coded.type.dto 0).filter (·.name ≠ "responseCode") := by
    cases k <;> simp [StatusType.coded, CodedType.type, Responser.ResponseType.dto,
      Responser.sensorFunctionalityResponseDto, Responser.fwUpgradeResponseDto,
      Responser.deviceRebootResponseDto, Responser.requestIdProperty, Property.required]
  obtain ⟨s, hs⟩ := exists_str_of_isString (test_of_validate (h.valid 0) hmem (by simp))
  have hne : isNotEmpty (payload.get "requestId") = true :=
    test_of_validate (h.valid 0) hmem (by simp)
  rw [hs] at hne ⊢
  exact hne

theorem handleReboot_eq (h : StatusType.Expected .reboot payload) :
    StatusType.handler .reboot payload = applyResponse .reboot payload := by
  have hcode : CodedType.reboot.codeAccepted (payload.get "responseCode") = true := by
    rw [h.code]
    rfl
  show ResponserService.handleRebootResponse payload = _
  unfold ResponserService.handleRebootResponse
  rw [hcode]
  rfl

theorem handleUpgrade_eq (h : StatusType.Expected .upgrade payload)
    (hst : payload.get "status" = some (.str st)) :
    StatusType.handler .upgrade payload =
      if st = "success" then applyResponse .upgrade payload else pure () := by
  have hcode : CodedType.upgrade.codeAccepted (payload.get "responseCode") = true := by
    rw [h.code]
    rfl
  show ResponserService.handleUpgradeResponse payload = _
  unfold ResponserService.handleUpgradeResponse
  rw [hcode, hst]
  simp only [strictEq_str, beq_iff_eq]
  by_cases hsuccess : st = "success"
  · subst hsuccess
    rfl
  · simp [hsuccess]

theorem handleAssign_eq (h : StatusType.Expected .assign payload)
    (hst : payload.get "status" = some (.str st)) :
    StatusType.handler .assign payload =
      if st = "accepted" then
        validateSensorTypes (payload.get "deviceId") (payload.get "functionality") >>=
          fun _ => applyResponse .assign payload
      else throw (.badRequest "Sensor functionality assign not accepted") := by
  have hcode : CodedType.assign.codeAccepted (payload.get "responseCode") = true := by
    rw [h.code]
    rfl
  show ResponserService.handleAssignResponse payload = _
  unfold ResponserService.handleAssignResponse
  rw [hcode, hst]
  by_cases haccepted : st = "accepted"
  · subst haccepted
    rfl
  · have hne : (st == "accepted") = false := by simpa using haccepted
    simp only [strictEq_str, hne, if_neg haccepted]
    rfl

/-- An assignment that has been accepted. -/
theorem settles_assign_iff (h : StatusType.Expected .assign payload)
    (hst : payload.get "status" = some (.str "accepted")) :
    StatusType.Settles .assign cfg F w payload ↔ w.pending payload = none ∨
      (Provides cfg w payload ∧ ∀ c ∈ StatusType.commands .assign payload, ¬ F c) := by
  have hfinal : "accepted" ∈ finalStatuses := by decide
  have hsettled : ∀ {t}, StatusType.Closes .assign payload w t ↔ t.pending payload = none := by
    intro t
    rw [closes_iff hst]
    exact ⟨fun h => h.2.1 hfinal, fun h => ⟨fun hne => absurd rfl hne, fun _ => h,
      fun hunfinished => absurd hunfinished (not_mem_unfinished hfinal)⟩⟩
  have hcommands : (∀ c ∈ StatusType.commands .assign payload, ¬ F c) ↔
      ¬ F (.findSensor ⟨payload.get "deviceId", some false, none⟩) ∧
        ¬ F (.updateSensors (payload.get "deviceId") (StatusType.written .assign payload)) ∧
          ¬ F (.cacheDel (pendingKey (payload.get "requestId"))) := by
    simp [StatusType.commands]
  rw [hcommands]
  unfold StatusType.Settles
  simp only [handleAssign_eq h hst, if_true, hsettled]
  constructor
  · intro hall
    refine or_iff_not_imp_left.mpr fun hpending => ?_
    have hlookup : ¬ F (.findSensor ⟨payload.get "deviceId", some false, none⟩) := by
      intro hF
      refine hpending (hall (.error (.error "")) w ?_)
      exact runs_bind.mpr (.inr ⟨_, rfl, attempted_validateSensorTypes.mpr (.inr ⟨hF, ⟨_, rfl⟩, rfl⟩)⟩)
    obtain ⟨hret, hprovides⟩ | ⟨⟨e, hret⟩, -⟩ := checkCapabilities_cases cfg w payload
    · have hrest : ∀ r t, (applyResponse .assign payload).Runs (Attempts cfg F) w r t →
          t.pending payload = none := by
        intro r t hrun
        refine hall r t (runs_bind.mpr (.inl ⟨(), w, ?_, hrun⟩))
        exact attempted_validateSensorTypes.mpr (.inl ⟨hret, rfl⟩)
      simp only [runs_applyResponse h.truthy_requestId] at hrest
      refine ⟨hprovides, hlookup, fun hF => ?_, fun hF => ?_⟩
      · exact hpending (hrest _ w (.inr (.inl ⟨hF, ⟨.error "", rfl⟩, rfl⟩)))
      · have hwritten := hrest _ (w.write cfg .assign payload)
          (.inr (.inr ⟨hF, ⟨.error "", rfl⟩, rfl⟩))
        exact hpending (pending_write.symm.trans hwritten)
    -- the check throws, and the entry is never deleted
    · refine absurd (hall (.error e) w ?_) hpending
      exact runs_bind.mpr (.inr ⟨e, rfl, attempted_validateSensorTypes.mpr (.inl ⟨hret, rfl⟩)⟩)
  · intro hsafe r t hrun
    obtain ⟨_, s, hvalidate, happly⟩ | ⟨e, rfl, hvalidate⟩ := runs_bind.mp hrun
    · have hs : s = w := by
        obtain ⟨-, rfl⟩ | ⟨-, -, rfl⟩ := attempted_validateSensorTypes.mp hvalidate <;> rfl
      subst hs
      obtain ⟨-, rfl⟩ | ⟨hF, -, rfl⟩ | ⟨hF, -, rfl⟩ :=
        (runs_applyResponse h.truthy_requestId).mp happly
      · exact pending_close
      · exact hsafe.resolve_right fun h => h.2.2.1 hF
      · exact pending_write.trans (hsafe.resolve_right fun h => h.2.2.2 hF)
    · obtain ⟨hret, rfl⟩ | ⟨hF, -, rfl⟩ := attempted_validateSensorTypes.mp hvalidate
      · refine hsafe.resolve_right fun hprovides => ?_
        obtain ⟨hok, -⟩ | ⟨-, hnot⟩ := checkCapabilities_cases cfg t payload
        · rw [hok] at hret
          cases hret
        · exact hnot hprovides.1
      · exact hsafe.resolve_right fun h => h.2.1 hF

/-- A handler settles a response if and only if it has no slip to make with it. -/
theorem settles_iff_tidy (cfg : Config) (F : Command → Prop) (w : World) (h : k.Expected payload) :
    k.Settles cfg F w payload ↔ k.Tidy cfg F w payload := by
  obtain ⟨st, hmem, hst⟩ := h.exists_status
  rw [tidy_iff hst]
  cases k with
  | assign =>
    have hassign := handleAssign_eq h hst
    by_cases haccepted : st = "accepted"
    · subst haccepted
      rw [settles_assign_iff h hst]
      simp [finalStatuses, StatusType.Reaches]
    -- every other status throws before `deleteCache`
    · rw [if_neg haccepted] at hassign
      rw [settles_of_idle hst hassign]
      simp [StatusType.Reaches, haccepted]
  | upgrade =>
    have hupgrade := handleUpgrade_eq h hst
    by_cases hsuccess : st = "success"
    · subst hsuccess
      rw [settles_of_apply hst h.truthy_requestId hupgrade]
      simp [StatusType.positive, StatusType.Reaches, StatusType.commands, finalStatuses,
        unfinishedStatuses]
    -- every other status returns before `deleteCache`
    · rw [if_neg hsuccess] at hupgrade
      rw [settles_of_idle hst hupgrade]
      simp [StatusType.Reaches, hsuccess]
  | reboot =>
    -- a missing return: the update and the deletion are made whatever the status is
    rw [settles_of_apply hst h.truthy_requestId (handleReboot_eq h), sensors_write_iff]
    have hscheduled : st ∈ unfinishedStatuses ↔ st = "scheduled" := by
      simp only [StatusType.statuses, Responser.rebootStatus, List.mem_cons, List.not_mem_nil,
        or_false] at hmem
      rcases hmem with rfl | rfl | rfl <;> decide
    rw [hscheduled]
    simp [StatusType.positive, StatusType.Reaches, StatusType.commands]

end Runs

/-- The answer of a device to a reboot, with the code as a number. -/
def rebootResponse (status : String) : Json :=
  .obj [("userId", .str "ana"), ("responseId", .str "r1"), ("responseCode", .num 206),
    ("requestId", .str panelRequest), ("deviceId", .str "esp32-2"), ("timestamp", .num 1),
    ("status", .str status)]

theorem expected_rebootResponse {status : String} (h : status ∈ Responser.rebootStatus) :
    StatusType.Expected .reboot (rebootResponse status) where
  valid _ := by
    show validate (Responser.deviceRebootResponseDto.filter (·.name ≠ "responseCode")) _ = true
    revert status
    decide +kernel
  code := rfl

theorem settles_iff_tidy_reboot :
    StatusType.Settles .reboot panelConfig (fun _ => False) panel (rebootResponse "success") ↔
      StatusType.Tidy .reboot panelConfig (fun _ => False) panel (rebootResponse "success") :=
  settles_iff_tidy panelConfig (fun _ => False) panel (expected_rebootResponse (by decide))

/-- A reboot that has failed is stored as one that has happened. -/
theorem not_settles_of_failure :
    ¬ ∀ (k : StatusType) (cfg : Config) (w : World) (payload : Json),
      k.Expected payload → k.Settles cfg (fun _ => False) w payload := by
  intro h
  have hexpected : StatusType.Expected .reboot (rebootResponse "failure") :=
    expected_rebootResponse (by decide)
  have hstatus : (rebootResponse "failure").get "status" ≠ some (.str "success") := by
    intro hst
    have hsuccess : "failure" = "success" := (status_eq_iff rfl "success").mp hst
    exact absurd hsuccess (by decide)
  have hrun : (StatusType.handler .reboot (rebootResponse "failure")).Runs
      (Attempts panelConfig fun _ => False) panel (.ok ())
        ((panel.write panelConfig .reboot (rebootResponse "failure")).close panelConfig
          (rebootResponse "failure")) := by
    rw [handleReboot_eq hexpected]
    exact (runs_applyResponse hexpected.truthy_requestId).mpr (.inl ⟨rfl, rfl⟩)
  have hrows := (h .reboot panelConfig panel _ hexpected _ _ hrun).unwritten hstatus
  have hshown := sensors_write_iff.mp hrows esp32 (List.mem_singleton.mpr rfl) (by decide +kernel)
  cases hshown

end IotPanel.Device
