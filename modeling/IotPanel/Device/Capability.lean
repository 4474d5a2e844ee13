import IotPanel.Device.Assignment
import IotPanel.Device.Repair

/-!
# Capabilities

A sensor is assigned functionality that its row lists among the capabilities. Both requests and
responses validate this; the row itself is made of the data of a discovery.
-/

namespace IotPanel.Device

open DeviceService (validateSensorTypes invalidSensorTypes withoutCapability)
open ResponserService (discoveredSensor)
open Responser (ResponseType)

/-- The list includes the value, as `includes` compares. -/
def Includes (xs : List Json) (y : Json) : Prop :=
  ∃ x ∈ xs, JsVal.strictEq (some x) (some y) = true

/-- The row lists its capabilities, and is assigned nothing else. -/
structure Capable (v : Sensor) : Prop where
  capabilities : ∃ xs, v.capabilities = some (.arr xs)
  assigned : v.assignedFunctionality.isNullish = true ∨ ∃ xs ys,
    v.capabilities = some (.arr xs) ∧ v.assignedFunctionality = some (.arr ys) ∧
      ∀ y ∈ ys, Includes xs y

/-- A test for what a row is assigned. -/
def capable (v : Sensor) : Bool :=
  match v.capabilities with
  | some (.arr xs) =>
    v.assignedFunctionality.isNullish || match v.assignedFunctionality with
      | some (.arr ys) => ys.all fun y => xs.any fun x => JsVal.strictEq (some x) (some y)
      | _ => false
  | _ => false

theorem capable_iff {v : Sensor} : capable v = true ↔ Capable v := by
  unfold capable
  constructor
  · intro h
    split at h
    · rename_i xs hxs
      refine ⟨⟨xs, hxs⟩, ?_⟩
      rcases Bool.or_eq_true_iff.mp h with h | h
      · exact .inl h
      · split at h
        · rename_i ys hys
          refine .inr ⟨xs, ys, hxs, hys, fun y hy => ?_⟩
          exact List.any_eq_true.mp (List.all_eq_true.mp h y hy)
        · cases h
    · cases h
  · rintro ⟨⟨xs, hxs⟩, hassigned⟩
    rw [hxs]
    rcases hassigned with hnone | ⟨xs', ys, hxs', hys, hall⟩
    · exact Bool.or_eq_true_iff.mpr (.inl hnone)
    · rw [hxs] at hxs'
      cases hxs'
      rw [hys]
      exact Bool.or_eq_true_iff.mpr
        (.inr (List.all_eq_true.mpr fun y hy => List.any_eq_true.mpr (hall y hy)))

instance (v : Sensor) : Decidable (Capable v) := decidable_of_iff _ capable_iff

/-- Every sensor has its functionality among its capabilities, and the validation of a list of
functionality fails only because the device is not found or not allowed to have it. -/
structure Sound (cfg : Config) (w : World) : Prop where
  capable : ∀ v ∈ w.sensors, Capable v
  validate : ∀ deviceId functionality e,
    (validateSensorTypes deviceId (some (.arr functionality))).run (answer cfg w) = .error e →
      (∃ m, e = .notFound m) ∨ ∃ m, e = .unauthorized m

/-- The calls that handle responses and assign, configure or delete sensors. A discovery response
has been validated; an assign response names its device, and may have any response code. -/
def Provisioning : ServiceEvent → Prop
  | .start (.discoveryResponse payload) =>
    ∃ time, ClassValidator.validate (ResponseType.discovery.dto time) payload = true
  | .start (.assignResponse payload) => ∃ deviceId, payload.get "deviceId" = some (.str deviceId)
  | .start (.deviceHeartbeat _) | .start (.assignDeviceFunction _ _)
  | .start (.setDeviceConfiguration _) | .start (.deleteSensor _) => True
  | .start _ => False
  | _ => True

/-- No device id finds the row beside a row of other capabilities. -/
def Agrees (cfg : Config) (w : World) (v : Sensor) : Prop :=
  ∀ d : String, cfg.matchesId (some (.str d)) v.deviceId = true → ∀ u ∈ w.sensors,
    cfg.matchesId (some (.str d)) u.deviceId = true → u.capabilities = v.capabilities

/-- A sensor that is stored lists its capabilities, is assigned nothing else, and is not found
beside a row of other capabilities. -/
def Admissible (cfg : Config) (w : World) : ServiceEvent → Prop
  | .did _ _ (.saveSensor v) _ => Capable v ∧ Agrees cfg w v
  | _ => True

section Validation

variable {cfg : Config} {w : World}

theorem withoutCapability_arr (xs ys : List Json) :
    withoutCapability (some (.arr xs)) ys =
      .ok (ys.filter fun y => !xs.any fun x => JsVal.strictEq (some x) (some y)) := by
  induction ys with
  | nil => rfl
  | cons y ys ih =>
    show (do
      let known ← Except.ok (xs.any fun x => JsVal.strictEq (some x) (some y))
      let rest ← withoutCapability (some (.arr xs)) ys
      return if known then rest else y :: rest : Except Exception (List Json)) = _
    rw [ih]
    cases hy : xs.any fun x => JsVal.strictEq (some x) (some y) with
    | true =>
      rw [List.filter_cons_of_neg (by simp [hy])]
      rfl
    | false =>
      rw [List.filter_cons_of_pos (by simp [hy])]
      rfl

/-- Only a list is compared with the capabilities. -/
theorem exists_arr_of_valid {capabilities f : JsVal}
    (h : invalidSensorTypes capabilities f = .ok []) : ∃ ys, f = some (.arr ys) := by
  cases f with
  | none => cases h
  | some j =>
    cases j with
    | arr ys => exact ⟨ys, rfl⟩
    | _ => cases h

/-- What is not invalid is among the capabilities. -/
theorem includes_of_valid {xs ys : List Json}
    (h : invalidSensorTypes (some (.arr xs)) (some (.arr ys)) = .ok []) :
    ∀ y ∈ ys, Includes xs y := by
  intro y hy
  rw [invalidSensorTypes, withoutCapability_arr] at h
  have hnone := List.filter_eq_nil_iff.mp (Except.ok.inj h) y hy
  simp only [Bool.not_eq_true', Bool.not_eq_false] at hnone
  exact List.any_eq_true.mp hnone

theorem validate_of_capable (h : ∀ v ∈ w.sensors, Capable v) {deviceId : JsVal}
    {functionality : List Json} {e : Exception}
    (he : (validateSensorTypes deviceId (some (.arr functionality))).run (answer cfg w) =
      .error e) :
    (∃ m, e = .notFound m) ∨ ∃ m, e = .unauthorized m := by
  rw [validateSensorTypes, run_findSensor] at he
  cases hfind : w.sensors.find? (cfg.accepts ⟨deviceId, some false, none⟩) with
  | none =>
    rw [hfind] at he
    exact .inl ⟨_, (Except.error.inj he).symm⟩
  | some v =>
    obtain ⟨xs, hxs⟩ := (h v (List.mem_of_find?_eq_some hfind)).capabilities
    rw [hfind] at he
    simp only [hxs, invalidSensorTypes, withoutCapability_arr] at he
    split at he
    · rename_i hinvalid
      cases hinvalid
    · cases he
    · exact .inr ⟨_, (Except.error.inj he).symm⟩

theorem sound_of_capable (h : ∀ v ∈ w.sensors, Capable v) : Sound cfg w :=
  ⟨h, fun _ _ _ he => validate_of_capable h he⟩

end Validation

section Invariant

variable {cfg : Config} {s s' : Site} {k : Call} {q q' : Phase}

structure Consistent (cfg : Config) (w : World) : Prop where
  capable : ∀ v ∈ w.sensors, Capable v
  agrees : ∀ v ∈ w.sensors, Agrees cfg w v

/-- What a call that assigns functionality has found is still there. -/
structure Validating (cfg : Config) (s : Site) (k : Call) (q : Phase) : Prop where
  named : k.functionality = none ∨ ∃ d, k.deviceId = some (.str d)
  found : ∀ row, q.device = some (some row) → cfg.matchesId k.deviceId row.deviceId = true ∧
    ∃ v ∈ s.world.sensors, v.deviceId = row.deviceId ∧ v.capabilities = row.capabilities

/-- Rows are only added, and keep their ids and capabilities. -/
def Keeps (w w' : World) : Prop :=
  ∀ v ∈ w.sensors, ∃ v' ∈ w'.sensors, v'.deviceId = v.deviceId ∧ v'.capabilities = v.capabilities

theorem SensorUpdate.apply_same (u : SensorUpdate) (v : Sensor) :
    (u.apply v).deviceId = v.deviceId ∧ (u.apply v).capabilities = v.capabilities := ⟨rfl, rfl⟩

/-- The rows after an update, each with the row that it was. -/
theorem mem_updateSensors {deviceId : JsVal} {u : SensorUpdate} {v' : Sensor}
    (h : v' ∈ (s.updateSensors cfg deviceId u).world.sensors) :
    ∃ v ∈ s.world.sensors, v' = v ∨ (v' = u.apply v ∧ cfg.matchesId deviceId v.deviceId = true) := by
  obtain ⟨v, hv, rfl⟩ := List.mem_map.mp h
  refine ⟨v, hv, ?_⟩
  split
  · exact .inr ⟨rfl, ‹_›⟩
  · exact .inl rfl

theorem keeps_updateSensors (deviceId : JsVal) (u : SensorUpdate) :
    Keeps s.world (s.updateSensors cfg deviceId u).world := by
  intro v hv
  refine ⟨_, List.mem_map_of_mem hv, ?_⟩
  split
  · exact u.apply_same v
  · exact ⟨rfl, rfl⟩

theorem Effect.keeps {c : Command} {r : Except Exception c.Reply}
    (h : Effect cfg k s q c r s' q') : Keeps s.world s'.world := by
  cases h with
  | other hs => exact fun v hv => ⟨v, hs.sensors ▸ hv, rfl, rfl⟩
  | updated hset => exact keeps_updateSensors _ _
  | storedSensor hk hdevice => exact fun v hv => ⟨v, List.mem_append_left _ hv, rfl, rfl⟩
  | _ => exact fun v hv => ⟨v, hv, rfl, rfl⟩

theorem Validating.keeps (h : Validating cfg s k q) (hkeeps : Keeps s.world s'.world) :
    Validating cfg s' k q where
  named := h.named
  found row hrow := by
    obtain ⟨hid, v, hv, hvid, hcaps⟩ := h.found row hrow
    obtain ⟨v', hv', hvid', hcaps'⟩ := hkeeps v hv
    exact ⟨hid, v', hv', hvid'.trans hvid, hcaps'.trans hcaps⟩

theorem Validating.congr (h : Validating cfg s k q)
    (hdevice : ∀ row, q'.device = some (some row) → q.device = some (some row)) :
    Validating cfg s k q' :=
  ⟨h.named, fun row hrow => h.found row (hdevice row hrow)⟩

/-- Rows of the same ids and capabilities agree as before. -/
theorem Agrees.of_same {w w' : World} {v v' : Sensor} (h : Agrees cfg w v)
    (hsame : v'.deviceId = v.deviceId ∧ v'.capabilities = v.capabilities)
    (hrows : ∀ u' ∈ w'.sensors, ∃ u ∈ w.sensors,
      u'.deviceId = u.deviceId ∧ u'.capabilities = u.capabilities) : Agrees cfg w' v' := by
  intro d hd u' hu' hud
  obtain ⟨u, hu, hid, hcaps⟩ := hrows u' hu'
  rw [hsame.1] at hd
  rw [hid] at hud
  exact hcaps.trans ((h d hd u hu hud).trans hsame.2.symm)

/-- The functionality that a call assigns is among the capabilities of every row that it
updates. -/
theorem Validating.capable_apply {u : SensorUpdate} {v : Sensor} (hs : Consistent cfg s.world)
    (h : Validating cfg s k q) (hset : k.MaySet q u) (hv : v ∈ s.world.sensors)
    (hid : cfg.matchesId k.deviceId v.deviceId = true) : Capable (u.apply v) := by
  have hcapable := hs.capable v hv
  rcases hset with hnone | ⟨hsome, row, hrow, hvalid⟩
  · have hsame : (u.apply v).assignedFunctionality = v.assignedFunctionality := by
      show u.assignedFunctionality.getD v.assignedFunctionality = _
      rw [hnone]
      rfl
    refine ⟨hcapable.capabilities, ?_⟩
    rw [hsame]
    exact hcapable.assigned
  · have hassigned : (u.apply v).assignedFunctionality = k.functionality := by
      show u.assignedFunctionality.getD v.assignedFunctionality = _
      rw [hsome]
      rfl
    refine ⟨hcapable.capabilities, ?_⟩
    rw [hassigned]
    obtain ⟨ys, hys⟩ := exists_arr_of_valid hvalid
    rcases h.named with hnone | ⟨d, hd⟩
    · rw [hnone] at hys
      cases hys
    · obtain ⟨hrowid, v', hv', hvid', hcaps'⟩ := h.found row hrow
      rw [hd] at hid hrowid
      rw [← hvid'] at hrowid
      have hagree : v'.capabilities = v.capabilities := hs.agrees v hv d hid v' hv' hrowid
      obtain ⟨xs, hxs⟩ := hcapable.capabilities
      rw [hys, ← hcaps', hagree, hxs] at hvalid
      exact .inr ⟨xs, ys, hxs, hys, includes_of_valid hvalid⟩

/-- What a step keeps, and what the call that makes it knows then. -/
theorem Consistent.effect {c : Command} {r : Except Exception c.Reply}
    (hs : Consistent cfg s.world) (h : Validating cfg s k q)
    (hadmissible : Admissible cfg s.world (.did k q c r)) (he : Effect cfg k s q c r s' q') :
    Consistent cfg s'.world ∧ Validating cfg s' k q' := by
  have hkept := h.keeps he.keeps
  cases he with
  | other hsame =>
    refine ⟨⟨hsame.sensors ▸ hs.capable, fun v hv => ?_⟩, hkept⟩
    rw [hsame.sensors] at hv
    exact (hs.agrees v hv).of_same ⟨rfl, rfl⟩ fun u hu => ⟨u, hsame.sensors ▸ hu, rfl, rfl⟩
  | failed e =>
    exact ⟨hs, h.congr fun _ => Phase.device_of_fail⟩
  | foundSensor =>
    refine ⟨hs, h.named, fun row hrow => ?_⟩
    have hfind := Option.some.inj hrow
    have haccepts := List.find?_some hfind
    simp only [Config.accepts, Bool.and_eq_true] at haccepts
    have hid : k.lookup.deviceId = k.deviceId := by cases k <;> rfl
    rw [hid] at haccepts
    exact ⟨haccepts.1.1, row, List.mem_of_find?_eq_some hfind, rfl, rfl⟩
  | foundTopic ht => exact ⟨hs, h.congr fun _ => id⟩
  | missedTopic hf => exact ⟨hs, h.congr fun _ => id⟩
  | readTopics hk => exact ⟨hs, h.congr fun _ => id⟩
  | @updated u hset =>
    -- an update changes neither ids nor capabilities
    have hrows : ∀ v' ∈ (s.updateSensors cfg k.deviceId u).world.sensors, ∃ v ∈ s.world.sensors,
        v'.deviceId = v.deviceId ∧ v'.capabilities = v.capabilities := by
      intro v' hv'
      obtain ⟨v, hv, rfl | ⟨rfl, -⟩⟩ := mem_updateSensors hv'
      · exact ⟨v', hv, rfl, rfl⟩
      · exact ⟨v, hv, u.apply_same v⟩
    refine ⟨⟨fun v' hv' => ?_, fun v' hv' => ?_⟩, hkept⟩
    · obtain ⟨v, hv, rfl | ⟨rfl, hid⟩⟩ := mem_updateSensors hv'
      · exact hs.capable v' hv
      · exact h.capable_apply hs hset hv hid
    · obtain ⟨v, hv, hsame⟩ := hrows v' hv'
      exact (hs.agrees v hv).of_same hsame hrows
  | @storedSensor payload hk hdevice =>
    obtain ⟨hnew, hagrees⟩ := hadmissible
    refine ⟨⟨fun v hv => ?_, fun v hv d hd u hu hud => ?_⟩, h.named, by rintro row ⟨⟩⟩
    · rcases List.mem_append.mp hv with hv | hv
      · exact hs.capable v hv
      · rw [List.mem_singleton.mp hv]
        exact hnew
    -- two rows of one id: both old, one of them new, or the new row twice
    · rcases List.mem_append.mp hv with hv | hv <;> rcases List.mem_append.mp hu with hu | hu
      · exact hs.agrees v hv d hd u hu hud
      · rw [List.mem_singleton.mp hu] at hud ⊢
        exact (hagrees d hud v hv hd).symm
      · rw [List.mem_singleton.mp hv] at hd ⊢
        exact hagrees d hd u hu hud
      · rw [List.mem_singleton.mp hv, List.mem_singleton.mp hu]
  | storedTopic ht hnames => exact ⟨⟨hs.capable, hs.agrees⟩, hkept.congr fun _ => id⟩
  | subscribed hconnected hts => exact ⟨hs, hkept.congr fun _ => id⟩
  | unsubscribed hconnected => exact ⟨hs, hkept⟩
  | connected hk => exact ⟨hs, hkept.congr fun _ => id⟩
  | renewed hk => exact ⟨hs, hkept⟩

/-- A call that may assign something names its device by a text. -/
theorem named_of_provisioning (h : Provisioning (.start k)) :
    k.functionality = none ∨ ∃ d, k.deviceId = some (.str d) := by
  cases k with
  | assignResponse payload => exact .inr h
  | assignDeviceFunction userId dto => exact .inr ⟨_, rfl⟩
  | _ => exact .inl rfl

theorem consistent_outline (cfg : Config) :
    System.Outline (services cfg)
      (fun p e => Provisioning e ∧ Admissible cfg p.shared.world e)
      (fun s => Consistent cfg s.world) (fun s t => Validating cfg s t.call t.phase) where
  env hG _ h := by
    cases h
    exact ⟨hG, fun t ht => ht.keeps fun v hv => ⟨v, hv, rfl, rfl⟩⟩
  start _ h := ⟨named_of_provisioning h.1, by rintro row ⟨⟩⟩
  did {p i t c k r s} hprog hG hA _ hcond hexec := by
    have he := effect_of_executes (t.allowed_of_await hprog) hexec
    obtain ⟨hs, hself⟩ := hG.effect hA hcond.2 he
    exact ⟨hs, hself, fun j u _ _ hu => hu.keeps he.keeps⟩

end Invariant

/-- In a run in which only admissible sensors are stored, functionality stays among the
capabilities. -/
theorem sound_of_admissible (cfg : Config) {s : Site} (hs : Consistent cfg s.world)
    {tr : List ServiceEvent} {p : Pool Site (Service cfg)}
    (hrun : Run ((services cfg).Step fun p e => Provisioning e ∧ Admissible cfg p.shared.world e)
      (Pool.start s) tr p) : Sound cfg p.shared.world :=
  sound_of_capable ((System.holds_start (G := fun s : Site => Consistent cfg s.world) hs).run
    (consistent_outline cfg) hrun).shared.capable

/-! ### A device that announces itself -/

/-- The answer of a device that tells what it can measure, and what it takes itself to be
assigned. -/
def announced (capabilities : List Json) (assigned : Json) : Call :=
  .discoveryResponse (.obj [("userId", .str "ana"), ("responseId", .str "d1"),
    ("responseCode", .str "200"), ("requestId", .str panelRequest), ("timestamp", .num 1),
    ("isBroadcast", .bool true), ("uptime", .num 5),
    ("sensorData", .obj [("deviceId", .str "esp32-2"),
      ("capabilities", .arr capabilities), ("assignedFunctionality", assigned)])])

/-- The device takes over its humidity. The code is the number that the handler asks for. -/
def assignedHumidity : Call :=
  .assignResponse (.obj [("userId", .str "ana"), ("responseId", .str "a1"),
    ("responseCode", .num 201), ("requestId", .str panelRequest), ("deviceId", .str "esp32-2"),
    ("functionality", .arr [.str "humidity"]), ("status", .str "accepted"),
    ("timestamp", .num 2)])

/-- A test for the calls of a run. -/
def provisions : ServiceEvent → Bool
  | .start (.discoveryResponse payload) =>
    ClassValidator.validate (ResponseType.discovery.dto 0) payload
  | .start (.assignResponse payload) => ClassValidator.isString (payload.get "deviceId")
  | .start (.assignDeviceFunction _ _) => true
  | .start _ => false
  | _ => true

theorem provisioning_of_test {e : ServiceEvent} (h : provisions e = true) : Provisioning e := by
  unfold provisions at h
  split at h
  · exact ⟨0, h⟩
  · exact ClassValidator.exists_str_of_isString h
  · trivial
  · cases h
  · rename_i hstart
    cases e with
    | start k => exact absurd rfl (hstart k)
    | _ => trivial

/-- A test for the steps of a run in which one sensor is stored. -/
def admits (w : World) (e : ServiceEvent) : Bool :=
  provisions e && match e with
    | .did _ _ (.saveSensor v) _ => decide (Capable v) && w.sensors.isEmpty
    | _ => true

theorem admissible_of_test {cfg : Config} {w : World} {e : ServiceEvent} (h : admits w e = true) :
    Provisioning e ∧ Admissible cfg w e := by
  obtain ⟨hprovisions, hsave⟩ := Bool.and_eq_true_iff.mp h
  refine ⟨provisioning_of_test hprovisions, ?_⟩
  unfold Admissible
  split
  · obtain ⟨hcapable, hempty⟩ := Bool.and_eq_true_iff.mp hsave
    refine ⟨of_decide_eq_true hcapable, fun d _ u hu => ?_⟩
    rw [List.isEmpty_iff.mp hempty] at hu
    exact absurd hu List.not_mem_nil
  · trivial

/-- A row is assigned the functionality. -/
def hasFunctionality (w : World) (name : String) : Bool :=
  w.sensors.any fun v => capable v && match v.assignedFunctionality with
    | some (.arr [y]) => JsVal.strictEq (some y) (some (.str name))
    | _ => false

/-- The device is discovered, assigned its temperature, and answers with its humidity while the
assignment still waits for the database. -/
theorem sound_of_admissible_assignment :
    ∃ tr p, Run ((services panelConfig).Step fun p e =>
        Provisioning e ∧ Admissible panelConfig p.shared.world e) (Pool.start empty) tr p ∧
      hasFunctionality p.shared.world "humidity" = true ∧ Sound panelConfig p.shared.world := by
  have hscript : (System.play (oracle panelConfig) 3 (fun p e => admits p.shared.world e)
      (Pool.start empty) (.start 0 (announced [.str "temperature", .str "humidity"] .null) ::
        proceed 0 53 ++ .start 1 (.assignDeviceFunction "ana" temperature) :: proceed 1 2 ++
          .step 1 (.attempt panelRequest) :: .start 2 assignedHumidity :: proceed 2 1 ++
            proceed 1 3 ++ proceed 2 2)).any
        (fun p => hasFunctionality p.shared.world "humidity") = true := by
    decide +kernel
  obtain ⟨tr, p, hrun, -, htest⟩ :=
    System.exists_run (fun _ _ _ => admissible_of_test) (System.below_start _) hscript
  exact ⟨tr, p, hrun, htest,
    sound_of_admissible panelConfig ⟨by rintro _ ⟨⟩, by rintro _ ⟨⟩⟩ hrun⟩

/-- The device says that it is assigned something that it does not list. -/
theorem not_sound_of_announced :
    ¬ ∀ (cfg : Config) (s : Site) (tr : List ServiceEvent) (p : Pool Site (Service cfg)),
      Consistent cfg s.world → Run ((services cfg).Step fun _ e => Provisioning e) (Pool.start s) tr p →
        Sound cfg p.shared.world := by
  intro h
  have hscript : (System.play (oracle panelConfig) 1 (fun _ e => provisions e)
      (Pool.start empty) (.start 0 (announced [.str "temperature"] (.arr [.str "humidity"])) ::
        proceed 0 4)).any
        (fun p => p.shared.world.sensors.any fun v => !capable v) = true := by
    decide +kernel
  obtain ⟨tr, p, hrun, -, htest⟩ :=
    System.exists_run (fun _ _ _ => provisioning_of_test) (System.below_start _) hscript
  obtain ⟨v, hv, hnot⟩ := List.any_eq_true.mp htest
  have hcapable := capable_iff.mpr
    ((h panelConfig empty tr p ⟨by rintro _ ⟨⟩, by rintro _ ⟨⟩⟩ hrun).capable v hv)
  rw [hcapable] at hnot
  cases hnot

end IotPanel.Device
