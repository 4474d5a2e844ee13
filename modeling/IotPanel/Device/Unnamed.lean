import IotPanel.Device.TopicStore
import IotPanel.Device.Unique

/-!
# Discoveries that name no device

The class of a discovery response asks for an object as its sensor data, if there is any, and does
not look into it. The handler takes the id of the device out of it as it is.
-/

namespace IotPanel.Device

open Program
open ClassValidator
open Mqtt (Topic)
open Responser (ResponseType discoveryResponseDto)
open ResponserService (discoveredId discoveredSensor handleDiscoveryResponse)

/-- The sensor data has the id `d`, which is a text and not empty. -/
def NamesDevice (payload : Json) (d : String) : Prop :=
  d ≠ "" ∧ ∃ data, payload.get "sensorData" = some data ∧ data.get "deviceId" = some (.str d)

/-- What is thrown where a property of `undefined` or `null` is read. -/
def typeError : Exception := .error "Cannot destructure property 'deviceId'"

/-- The command writes a row of a sensor or of a topic. -/
def Command.writesRow : Command → Bool
  | .updateSensors _ _ | .saveSensor _ | .saveTopic _ => true
  | _ => false

/-- The rows that the command writes are those of the device. -/
def Command.WritesFor (d : String) : Command → Prop
  | .updateSensors deviceId _ => deviceId = some (.str d)
  | .saveSensor row => row.deviceId = some (.str d)
  | .saveTopic row => row.deviceId = d
  | _ => True

/-- The database, the cache and the broker do not throw the handler's error. -/
def ExecutesCleanly (cfg : Config) (s : Site) (c : Command) (r : Except Exception c.Reply) (t : Site) :
    Prop :=
  Executes cfg s c r t ∧ r ≠ .error typeError

/-- The handler throws no error of its own over what is missing, and each row that it writes is one
of a device that the payload names. -/
structure ActsOnNamed (cfg : Config) (payload : Json) : Prop where
  destructures : ∀ s r t, (handleDiscoveryResponse cfg payload).Runs (ExecutesCleanly cfg) s r t →
    r ≠ .error typeError
  writes : ∀ s c a, (handleDiscoveryResponse cfg payload).Answers (Executes cfg) s c (.ok a) →
    c.writesRow = true → ∃ d, NamesDevice payload d ∧ c.WritesFor d

/-- Rows of other devices are not written. -/
def writing (d : String) : Protocol Unit Command Command.Reply Exception where
  allowed _ c := c.WritesFor d
  next _ _ _ := ()

section Handler

variable {cfg : Config} {payload : Json} {d topic : String} {useCase : Mqtt.TopicUseCase}
  {id : JsVal}

theorem discoveredId_of_names (h : NamesDevice payload d) :
    discoveredId payload = .ok (some (.str d)) := by
  obtain ⟨-, data, hdata, hid⟩ := h
  unfold discoveredId
  rw [hdata]
  cases data with
  | obj fields => exact congrArg Except.ok hid
  | _ => cases hid

theorem discoveredSensor_of_names (h : NamesDevice payload d) :
    (discoveredSensor payload).deviceId = some (.str d) := by
  obtain ⟨-, data, hdata, hid⟩ := h
  show ((payload.get "sensorData").bind fun d => d.get "deviceId") = _
  rw [hdata]
  exact hid

theorem discoveredId_cases (payload : Json) :
    discoveredId payload = .error typeError ∨ ∃ id, discoveredId payload = .ok id := by
  unfold discoveredId
  split
  · exact .inl rfl
  · exact .inl rfl
  · exact .inr ⟨_, rfl⟩

/-! ### A payload with a name -/

theorem letsDiscover_writing (h : NamesDevice payload d) :
    LetsDiscover cfg (writing d) () payload (some (.str d)) where
  findSensor _ := stays_perform trivial fun _ => rfl
  restore := stays_perform
    (show (writing d).allowed () (.updateSensors (some (.str d)) _) from rfl) fun _ => rfl
  findTopic _ := stays_perform trivial fun _ => rfl
  saveTopic _ _ := stays_perform (show (writing d).allowed () (.saveTopic _) from rfl) fun _ => rfl
  saveSensor := stays_perform
    (show (writing d).allowed () (.saveSensor _) from discoveredSensor_of_names h) fun _ => rfl
  subscribe _ := stays_perform trivial fun _ => rfl
  emit := stays_perform trivial fun _ => rfl
  deleteCache := stays_ite (fun _ => stays_perform trivial fun _ => rfl) fun _ => stays_pure

theorem avoids_storeTopic :
    (TopicService.storeTopic cfg d topic useCase).Avoids typeError := by
  refine avoids_bind avoids_perform fun found => ?_
  cases found with
  | some row => exact avoids_pure
  | none => exact avoids_bind avoids_perform fun _ => avoids_pure

theorem avoids_announceDiscovered : (announceDiscovered payload).Avoids typeError := by
  refine avoids_bind avoids_perform fun _ => ?_
  exact avoids_ite (avoids_ite avoids_perform avoids_pure) avoids_pure

theorem avoids_takeDiscovered (stored : Option Sensor) :
    (takeDiscovered cfg payload d stored).Avoids typeError := by
  refine avoids_bind avoids_storeTopic fun base => ?_
  refine avoids_ite ?_ avoids_announceDiscovered
  -- whatever storing the device ends in, another error takes its place
  have hcatch : (tryCatch (storeDiscovered cfg payload d base)
      fun _ => throw (.forbidden "Discovery data malformed")).Avoids typeError :=
    avoids_tryCatch fun _ => avoids_throw (by rintro ⟨⟩)
  exact avoids_bind hcatch fun _ => avoids_announceDiscovered

/-- Where there is sensor data, nothing throws the error. -/
theorem avoids_handleDiscoveryResponse (h : discoveredId payload = .ok id) :
    (handleDiscoveryResponse cfg payload).Avoids typeError := by
  rw [handleDiscoveryResponse_eq h]
  refine avoids_bind avoids_perform fun stored => ?_
  refine avoids_ite ?_ (avoids_takeDiscovered stored)
  exact avoids_bind avoids_perform fun _ => avoids_takeDiscovered stored

theorem actsOnNamed_of_names (h : NamesDevice payload d) : ActsOnNamed cfg payload where
  destructures s r t hruns :=
    (avoids_handleDiscoveryResponse (discoveredId_of_names h)).ne_error
      (fun s c r s' (hc : ExecutesCleanly cfg s c r s') => hc.2) hruns
  writes s c a hanswers _ := by
    obtain ⟨_, hallowed⟩ := hanswers.allowed
      (stays_handleDiscoveryResponse_of (discoveredId_of_names h) (letsDiscover_writing h))
    exact ⟨d, h, hallowed⟩

/-! ### A payload without a name -/

/-- The handler stores the base topic of whatever id it has read. -/
theorem answers_saveTopic (h : discoveredId payload = .ok id) :
    (handleDiscoveryResponse cfg payload).Answers (Executes cfg) empty
      (.saveTopic (topicRecord cfg (Responser.interpolate id)
        (cfg.topics.deviceBaseTopic (Responser.interpolate id)) .deviceBase)) (.ok ()) := by
  have hsensor : (findSensor ⟨id, none, none⟩).Runs (Executes cfg) empty (.ok none) empty := by
    refine runs_perform.mpr (executes_findSensor.mpr ⟨rfl, ?_⟩)
    rintro _ ⟨⟩
    rfl
  have htopic : ∀ q, (findTopic q).Runs (Executes cfg) empty (.ok none) empty := by
    refine fun q => runs_perform.mpr (executes_findTopic.mpr ⟨rfl, ?_⟩)
    rintro _ ⟨⟩
    rfl
  rw [handleDiscoveryResponse_eq h]
  refine answers_bind_of_runs hsensor (Answers.bind ?_)
  refine answers_bind_of_runs (htopic _) (Answers.bind ?_)
  exact .here (.attempted "" (.saveTopic _) nofun)

/-- The handler is safe for exactly the payloads that name a device, in whatever state the stores
are. -/
theorem actsOnNamed_iff (cfg : Config) (payload : Json) :
    ActsOnNamed cfg payload ↔ ∃ d, NamesDevice payload d := by
  constructor
  · intro h
    obtain hid | ⟨id, hid⟩ := discoveredId_cases payload
    · have hruns : (handleDiscoveryResponse cfg payload).Runs (ExecutesCleanly cfg) empty
          (.error typeError) empty := by
        unfold handleDiscoveryResponse
        rw [hid]
        exact .ret
      exact absurd rfl (h.destructures _ _ _ hruns)
    · obtain ⟨d, hd, -⟩ := h.writes _ _ _ (answers_saveTopic hid) rfl
      exact ⟨d, hd⟩
  · rintro ⟨d, hd⟩
    exact actsOnNamed_of_names hd

/-- The sensor data is declared once. -/
theorem eq_sensorDataProperty {time : ℕ} :
    ∀ p ∈ discoveryResponseDto time, p.name = "sensorData" →
      p = .isOptional "sensorData" [isObject] := by
  simp [discoveryResponseDto, Property.required, Property.isOptional, Responser.userIdProperty,
    Responser.responseIdProperty, Responser.responseCodeProperty, Responser.requestIdProperty,
    Responser.timeStampProperty, Responser.uptimeProperty]

/-- What is accepted of a discovery does not depend on the sensor data, as long as it is an object
or missing. -/
theorem transformAndValidate_set_sensorData {time : ℕ} {cache : String → Option Json} {v : Json}
    (h : Responser.transformAndValidate time cache .discovery payload = .ok payload)
    (hv : (JsVal.isNullish (some v) || isObject (some v)) = true) :
    Responser.transformAndValidate time cache .discovery (payload.set "sensorData" v) =
      .ok (payload.set "sensorData" v) := by
  have hvalid : validate (discoveryResponseDto time) payload = true := Responser.validate_of_ok h
  have hset : validate (discoveryResponseDto time) (payload.set "sensorData" v) = true := by
    refine validate_set (validate_filter hvalid) fun p hp hname => ?_
    rw [eq_sensorDataProperty p hp hname]
    simpa [Property.isOptional, Property.check] using hv
  have hrequest : (payload.set "sensorData" v).get "requestId" = payload.get "requestId" :=
    Json.get_set_of_ne (by decide) v
  have huser : (payload.set "sensorData" v).get "userId" = payload.get "userId" :=
    Json.get_set_of_ne (by decide) v
  rw [Responser.transformAndValidate, ResponseType.dto, if_pos hvalid] at h
  rw [Responser.transformAndValidate, ResponseType.dto, if_pos hset, hrequest]
  exact Responser.checkCached_congr h hrequest huser

end Handler

/-- The answer to a discovery without sensor data is accepted. -/
theorem not_actsOnNamed_of_accepted :
    ¬ ∀ (cfg : Config) (time : ℕ) (cache : String → Option Json) (payload p : Json),
      Responser.transformAndValidate time cache .discovery payload = .ok p →
        (∃ d, NamesDevice p d) ∧ ActsOnNamed cfg p := by
  intro h
  let pending : Json := .obj [("requestId", .str panelRequest), ("userId", .str "ana")]
  have hok : Responser.transformAndValidate 0 (fun _ => some pending) .discovery
      (discovered true).payload = .ok (discovered true).payload := by
    have hvalid : validate (discoveryResponseDto 0) (discovered true).payload = true := by
      decide +kernel
    rw [Responser.transformAndValidate, ResponseType.dto, if_pos hvalid]
    rfl
  obtain ⟨⟨d, -, data, hdata, hid⟩, -⟩ := h panelConfig _ _ _ _
    (transformAndValidate_set_sensorData (v := .null) hok rfl)
  cases hdata
  cases hid

end IotPanel.Device
