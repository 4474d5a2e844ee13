import IotPanel.Device.Script
import IotPanel.Device.Site

/-!
# A sensor that is assigned

`AssignDeviceFunction` writes the row of the sensor before it publishes the command, and does not
wait for the publication. The enumeration of the states calls a sensor ASSIGNED when its
configuration has been sent.
-/

namespace IotPanel.Device

open DeviceService

/-- The sensors of the device, as an update finds them, have been assigned the functionality. -/
def AssignedTo (cfg : Config) (sensors : List Sensor) (dto : PublishSensorFunctionalityDto) : Prop :=
  (∃ s ∈ sensors, cfg.matchesId (some (.str dto.deviceId)) s.deviceId = true) ∧
    ∀ s ∈ sensors, cfg.matchesId (some (.str dto.deviceId)) s.deviceId = true →
      s.assignedFunctionality = some (.arr (dto.functionality.map .str)) ∧
        s.provisionState = .assigned

/-- The broker has accepted the command for the assignment. -/
def Published (userId : String) (dto : PublishSensorFunctionalityDto) (s t : Site) : Prop :=
  ∃ topic requestId,
    t.link.sent = (topic, assignPayload dto userId requestId) :: s.link.sent

/-- A call that returns has had its command published and has assigned the sensor; one that has
published nothing throws and leaves the sensors as they were. -/
structure AsSent (cfg : Config) (userId : String) (dto : PublishSensorFunctionalityDto) (s : Site)
    (r : Except Exception Unit) (t : Site) : Prop where
  sent : r = .ok () → Published userId dto s t ∧ AssignedTo cfg t.world.sensors dto
  unsent : ¬ Published userId dto s t → (∃ e, r = .error e) ∧ t.world.sensors = s.world.sensors

/-- The topic for the command, if the call gets as far as publishing it. -/
def Reaches (cfg : Config) (s : Site) (dto : PublishSensorFunctionalityDto) (topic : Mqtt.Topic) :
    Prop :=
  dto.requestCode = "REQUEST_ASSIGN_DEVICE_FUNCTION" ∧
    s.world.topics.find? (TopicQuery.accepts
      ⟨none, some dto.deviceId, none, some .assignDeviceFunction, none⟩) = some topic ∧
    ∃ device, s.world.sensors.find? (cfg.accepts ⟨some (.str dto.deviceId), some false, none⟩) =
        some device ∧
      invalidSensorTypes device.capabilities (some (.arr (dto.functionality.map .str))) =
        .ok []

/-- The client is connected and the broker accepts the command, under whatever id. -/
def Accepted (s : Site) (userId : String) (dto : PublishSensorFunctionalityDto)
    (topic : Mqtt.Topic) : Prop :=
  ∀ requestId, Session.IsUuid requestId →
    s.takes topic.topic (assignPayload dto userId requestId) = true

variable {cfg : Config} {s t : Site} {userId : String} {dto : PublishSensorFunctionalityDto}
  {topic : Mqtt.Topic}

theorem get_assignPayload {requestId key : String}
    (hkey : key ∉ ["userId", "requestCode", "requestId"]) :
    (assignPayload dto userId requestId).get key = (Json.obj dto.fields).get key := by
  simp only [List.mem_cons, List.not_mem_nil, or_false, not_or] at hkey
  obtain ⟨huser, hcode, hid⟩ := hkey
  unfold assignPayload
  rw [Json.get_set_of_ne hid, Json.get_set_of_ne hcode, Json.get_set_of_ne huser]

/-- The command that is published names the device and carries its functionality. -/
theorem Published.carries (h : Published userId dto s t) :
    ∃ topic payload, t.link.sent = (topic, payload) :: s.link.sent ∧
      payload.get "deviceId" = some (.str dto.deviceId) ∧
        payload.get "functionality" = some (.arr (dto.functionality.map .str)) := by
  obtain ⟨topic, requestId, hsent⟩ := h
  refine ⟨topic, _, hsent, ?_, ?_⟩
  · rw [get_assignPayload (by decide)]
    exact dto.get_deviceId
  · rw [get_assignPayload (by decide)]
    exact dto.get_functionality

/-- The row of every sensor of the device after the update. -/
def assignedSensors (cfg : Config) (s : Site) (dto : PublishSensorFunctionalityDto) : List Sensor :=
  s.world.sensors.map fun v =>
    if cfg.matchesId (some (.str dto.deviceId)) v.deviceId then
      (assigned (some (.arr (dto.functionality.map .str)))).apply v else v

theorem assignedTo_assignedSensors
    (h : ∃ v ∈ s.world.sensors, cfg.matchesId (some (.str dto.deviceId)) v.deviceId = true) :
    AssignedTo cfg (assignedSensors cfg s dto) dto := by
  constructor
  · obtain ⟨v, hv, hid⟩ := h
    refine ⟨_, List.mem_map_of_mem hv, ?_⟩
    rw [if_pos hid]
    exact hid
  · intro v hv hid
    obtain ⟨u, -, rfl⟩ := List.mem_map.mp hv
    by_cases hu : cfg.matchesId (some (.str dto.deviceId)) u.deviceId = true
    · rw [if_pos hu]
      exact ⟨rfl, rfl⟩
    · rw [if_neg hu] at hid
      exact absurd hid hu

/-! ### Runs of the call -/

section Parts

variable {deviceId functionality : JsVal}

theorem runs_findSensor {q : SensorQuery} {r : Except Exception (Option Sensor)} :
    (findSensor q).Runs (Executes cfg) s r t ↔
      t = s ∧ ∀ found, r = .ok found → found = s.world.sensors.find? (cfg.accepts q) :=
  Program.runs_perform.trans executes_findSensor

theorem runs_findTopic {q : TopicQuery} {r : Except Exception (Option Mqtt.Topic)} :
    (findTopic q).Runs (Executes cfg) s r t ↔
      t = s ∧ ∀ found, r = .ok found → found = s.world.topics.find? q.accepts :=
  Program.runs_perform.trans executes_findTopic

theorem runs_getDeviceTopicByUseCase {d : String} {useCase : Mqtt.TopicUseCase}
    {r : Except Exception Mqtt.Topic}
    (h : (TopicService.getDeviceTopicByUseCase d useCase).Runs (Executes cfg) s r t) :
    t = s ∧ ∀ topic, r = .ok topic →
      s.world.topics.find? (TopicQuery.accepts ⟨none, some d, none, some useCase, none⟩) =
        some topic := by
  obtain ⟨found, s', hfind, hrest⟩ | ⟨e, rfl, hfind⟩ := Program.runs_bind.mp h
  · obtain ⟨rfl, hfound⟩ := runs_findTopic.mp hfind
    rw [← hfound found rfl]
    cases found with
    | some topic =>
      obtain ⟨rfl, rfl⟩ := Program.runs_pure.mp hrest
      exact ⟨rfl, by rintro _ ⟨⟩; rfl⟩
    | none =>
      obtain ⟨rfl, rfl⟩ := Program.runs_throw.mp hrest
      exact ⟨rfl, by rintro _ ⟨⟩⟩
  · exact ⟨(runs_findTopic.mp hfind).1, by rintro _ ⟨⟩⟩

theorem runs_validateSensorTypes {r : Except Exception Unit}
    (h : (validateSensorTypes deviceId functionality).Runs (Executes cfg) s r t) :
    t = s ∧ (r = .ok () → ∃ device,
      s.world.sensors.find? (cfg.accepts ⟨deviceId, some false, none⟩) = some device ∧
        invalidSensorTypes device.capabilities functionality = .ok []) := by
  obtain ⟨found, s', hfind, hrest⟩ | ⟨e, rfl, hfind⟩ := Program.runs_bind.mp h
  · obtain ⟨rfl, hfound⟩ := runs_findSensor.mp hfind
    rw [← hfound found rfl]
    cases found with
    | none =>
      obtain ⟨rfl, rfl⟩ := Program.runs_throw.mp hrest
      exact ⟨rfl, fun h => by cases h⟩
    | some device =>
      cases hinvalid : invalidSensorTypes device.capabilities functionality with
      | error e =>
        simp only [hinvalid] at hrest
        obtain ⟨rfl, rfl⟩ := Program.runs_throw.mp hrest
        exact ⟨rfl, fun h => by cases h⟩
      | ok invalid =>
        simp only [hinvalid] at hrest
        cases invalid with
        | nil =>
          obtain ⟨rfl, rfl⟩ := Program.runs_pure.mp hrest
          exact ⟨rfl, fun _ => ⟨device, rfl, hinvalid⟩⟩
        | cons v vs =>
          obtain ⟨rfl, rfl⟩ := Program.runs_throw.mp hrest
          exact ⟨rfl, fun h => by cases h⟩
  · exact ⟨(runs_findSensor.mp hfind).1, fun h => by cases h⟩

end Parts

/-- The site after the entry has been sent and the row has been written. -/
def written (cfg : Config) (s : Site) (userId : String) (dto : PublishSensorFunctionalityDto)
    (requestId : String) : Site :=
  let payload := assignPayload dto userId requestId
  let entry : Setex := ⟨Responser.pendingKey (payload.get "requestId"), pendingEntry payload⟩
  Site.updateSensors cfg
    { s with world := { s.world with inFlight := s.world.inFlight ++ [entry] } }
    (some (.str dto.deviceId)) (assigned (some (.arr (dto.functionality.map .str))))

/-- The site after a call that returns. -/
def afterCall (cfg : Config) (s : Site) (userId : String) (dto : PublishSensorFunctionalityDto)
    (topic : Mqtt.Topic) (requestId : String) : Site :=
  let payload := assignPayload dto userId requestId
  if s.takes topic.topic payload then
    (written cfg s userId dto requestId).publish topic.topic payload
  else written cfg s userId dto requestId

/-- Either a call throws before it has changed a row or published anything, or it does all. -/
theorem assign_cases {r : Except Exception Unit}
    (h : (AssignDeviceFunction userId dto).Runs (Executes cfg) s r t) :
    ((∃ e, r = .error e) ∧ t.world.sensors = s.world.sensors ∧ t.link = s.link) ∨
      ∃ topic requestId, Reaches cfg s dto topic ∧ Session.IsUuid requestId ∧ r = .ok () ∧
        t = afterCall cfg s userId dto topic requestId := by
  unfold AssignDeviceFunction at h
  by_cases hcode : dto.requestCode ≠ "REQUEST_ASSIGN_DEVICE_FUNCTION"
  · rw [if_pos hcode] at h
    obtain ⟨_, _, hthrow, -⟩ | ⟨e, rfl, hthrow⟩ := Program.runs_bind.mp h
    · obtain ⟨hok, -⟩ := Program.runs_throw.mp hthrow
      cases hok
    · obtain ⟨-, rfl⟩ := Program.runs_throw.mp hthrow
      exact .inl ⟨⟨e, rfl⟩, rfl, rfl⟩
  rw [if_neg hcode] at h
  dsimp only at h
  obtain ⟨topic, s₁, htopic, h1⟩ | ⟨e, rfl, htopic⟩ := Program.runs_bind.mp h
  swap
  · obtain ⟨rfl, -⟩ := runs_getDeviceTopicByUseCase htopic
    exact .inl ⟨⟨e, rfl⟩, rfl, rfl⟩
  obtain ⟨rfl, hfound⟩ := runs_getDeviceTopicByUseCase htopic
  obtain ⟨⟨⟩, s₂, hvalid, h2⟩ | ⟨e, rfl, hvalid⟩ := Program.runs_bind.mp h1
  swap
  · obtain ⟨rfl, -⟩ := runs_validateSensorTypes hvalid
    exact .inl ⟨⟨e, rfl⟩, rfl, rfl⟩
  obtain ⟨rfl, hdevice⟩ := runs_validateSensorTypes hvalid
  have hreaches : Reaches cfg s₂ dto topic := ⟨not_not.mp hcode, hfound topic rfl, hdevice rfl⟩
  -- from here on only the update of the row can fail
  obtain ⟨requestId, s₃, huuid, h3⟩ | ⟨e, rfl, huuid⟩ := Program.runs_bind.mp h2
  swap
  · obtain ⟨rfl, u, -, hu⟩ := executes_uuid.mp (Program.runs_perform.mp huuid)
    cases hu
  obtain ⟨rfl, u, hu, ⟨⟩⟩ := executes_uuid.mp (Program.runs_perform.mp huuid)
  obtain ⟨⟨⟩, s₄, hcache, h4⟩ | ⟨e, rfl, hcache⟩ := Program.runs_bind.mp h3
  swap
  · obtain ⟨hok, -⟩ := executes_cacheSetex.mp (Program.runs_perform.mp hcache)
    cases hok
  obtain ⟨-, rfl⟩ := executes_cacheSetex.mp (Program.runs_perform.mp hcache)
  obtain ⟨⟨⟩, s₅, hupdate, h5⟩ | ⟨e, rfl, hupdate⟩ := Program.runs_bind.mp h4
  swap
  · obtain ⟨hok, -⟩ | ⟨-, rfl⟩ := executes_updateSensors.mp (Program.runs_perform.mp hupdate)
    · cases hok
    · exact .inl ⟨⟨e, rfl⟩, rfl, rfl⟩
  obtain ⟨-, rfl⟩ | ⟨⟨e, he⟩, -⟩ := executes_updateSensors.mp (Program.runs_perform.mp hupdate)
  swap
  · cases he
  obtain ⟨rfl, rfl⟩ := executes_publish_unawaited.mp (Program.runs_perform.mp h5)
  exact .inr ⟨topic, _, hreaches, hu, rfl, rfl⟩

/-- A call that can get as far as publishing has a run to its end. -/
theorem runs_of_reaches {requestId : String} (h : Reaches cfg s dto topic)
    (hid : Session.IsUuid requestId) :
    (AssignDeviceFunction userId dto).Runs (Executes cfg) s (.ok ())
      (afterCall cfg s userId dto topic requestId) := by
  obtain ⟨hcode, htopic, device, hdevice, hvalid⟩ := h
  unfold AssignDeviceFunction
  rw [if_neg (not_not.mpr hcode)]
  dsimp only
  have hgot : (TopicService.getDeviceTopicByUseCase dto.deviceId .assignDeviceFunction).Runs
      (Executes cfg) s (.ok topic) s :=
    Program.runs_bind.mpr (.inl ⟨some topic, s,
      runs_findTopic.mpr ⟨rfl, fun found h => (Except.ok.inj h).symm.trans htopic.symm⟩,
      Program.runs_pure.mpr ⟨rfl, rfl⟩⟩)
  have hvalidated : (validateSensorTypes (some (.str dto.deviceId))
      (some (.arr (dto.functionality.map .str)))).Runs (Executes cfg) s (.ok ()) s := by
    refine Program.runs_bind.mpr (.inl ⟨some device, s,
      runs_findSensor.mpr ⟨rfl, fun found h => (Except.ok.inj h).symm.trans hdevice.symm⟩, ?_⟩)
    simp only [hvalid]
    exact Program.runs_pure.mpr ⟨rfl, rfl⟩
  refine Program.runs_bind.mpr (.inl ⟨topic, s, hgot, ?_⟩)
  refine Program.runs_bind.mpr (.inl ⟨(), s, hvalidated, ?_⟩)
  refine Program.runs_bind.mpr (.inl ⟨requestId, s,
    Program.runs_perform.mpr (executes_uuid.mpr ⟨rfl, requestId, hid, rfl⟩), ?_⟩)
  refine Program.runs_bind.mpr (.inl ⟨(), _,
    Program.runs_perform.mpr (executes_cacheSetex.mpr ⟨rfl, rfl⟩), ?_⟩)
  refine Program.runs_bind.mpr (.inl ⟨(), _,
    Program.runs_perform.mpr (executes_updateSensors.mpr (.inl ⟨rfl, rfl⟩)), ?_⟩)
  exact Program.runs_perform.mpr (executes_publish_unawaited.mpr ⟨rfl, rfl⟩)

/-- Without the broker the call returns all the same. -/
theorem not_asSent_of_refused {requestId : String}
    (hrefused : ¬ s.takes topic.topic (assignPayload dto userId requestId) = true) :
    ¬ AsSent cfg userId dto s (.ok ()) (afterCall cfg s userId dto topic requestId) := by
  intro h
  have hafter : afterCall cfg s userId dto topic requestId = written cfg s userId dto requestId :=
    if_neg hrefused
  obtain ⟨topic', requestId', hsent⟩ := (h.sent rfl).1
  rw [hafter] at hsent
  exact List.cons_ne_self _ _ hsent.symm

/-- Whatever fails on the way, every outcome of the call is as sent, exactly when the command
that the call would publish is accepted. -/
theorem asSent_iff (cfg : Config) (s : Site) (userId : String)
    (dto : PublishSensorFunctionalityDto) :
    (∀ r t, (AssignDeviceFunction userId dto).Runs (Executes cfg) s r t →
        AsSent cfg userId dto s r t) ↔
      ∀ topic, Reaches cfg s dto topic → Accepted s userId dto topic := by
  constructor
  · intro h topic hreaches requestId hid
    by_contra hrefused
    exact not_asSent_of_refused hrefused (h _ _ (runs_of_reaches hreaches hid))
  · intro h r t hrun
    obtain ⟨⟨e, rfl⟩, hsensors, hlink⟩ | ⟨topic, requestId, hreaches, hid, rfl, rfl⟩ :=
      assign_cases hrun
    · refine ⟨fun hok => ?_, fun _ => ⟨⟨e, rfl⟩, hsensors⟩⟩
      cases hok
    · have hafter : afterCall cfg s userId dto topic requestId =
          (written cfg s userId dto requestId).publish topic.topic
            (assignPayload dto userId requestId) := if_pos (h topic hreaches requestId hid)
      have hpublished : Published userId dto s (afterCall cfg s userId dto topic requestId) :=
        ⟨topic.topic, requestId, by rw [hafter]; rfl⟩
      refine ⟨fun _ => ⟨hpublished, ?_⟩, fun hnot => absurd hpublished hnot⟩
      obtain ⟨-, -, device, hdevice, -⟩ := hreaches
      have haccepted := List.find?_some hdevice
      simp only [Config.accepts, Bool.and_eq_true] at haccepted
      rw [hafter]
      exact assignedTo_assignedSensors ⟨device, List.mem_of_find?_eq_some hdevice, haccepted.1.1⟩

/-- The client has lost its connection; a device with a temperature sensor is known. -/
def offline : Site where
  world := { panel with
    sensors := [{ esp32 with isDeleted := false }]
    topics := [⟨"mqtt://broker", "esp32-2", "iot/esp32-2/assign", .assignDeviceFunction, true⟩] }
  link := { connected := false, accepts := fun _ _ => true, sent := [], subscriptions := [],
            updates := [] }

def temperature : PublishSensorFunctionalityDto where
  deviceId := "esp32-2"
  requestCode := "REQUEST_ASSIGN_DEVICE_FUNCTION"
  functionality := ["temperature"]
  fields :=
    [("deviceId", .str "esp32-2"), ("requestCode", .str "REQUEST_ASSIGN_DEVICE_FUNCTION"),
      ("functionality", .arr [.str "temperature"])]
  get_deviceId := rfl
  get_requestCode := rfl
  get_functionality := rfl

theorem not_asSent_of_offline :
    ¬ ∀ (cfg : Config) (s t : Site) (userId : String) (dto : PublishSensorFunctionalityDto)
        (r : Except Exception Unit),
      (AssignDeviceFunction userId dto).Runs (Executes cfg) s r t → AsSent cfg userId dto s r t := by
  intro h
  have hreaches : Reaches panelConfig offline temperature
      ⟨"mqtt://broker", "esp32-2", "iot/esp32-2/assign", .assignDeviceFunction, true⟩ :=
    ⟨rfl, by decide, { esp32 with isDeleted := false }, rfl, rfl⟩
  have hid : Session.IsUuid panelRequest := by decide
  exact not_asSent_of_refused (by decide) (h _ _ _ "ana" _ _ (runs_of_reaches hreaches hid))

end IotPanel.Device
