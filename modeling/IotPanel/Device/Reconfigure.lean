import IotPanel.Device.Assignment
import IotPanel.Device.Inventory
import IotPanel.Device.TopicStore
import IotPanel.Device.Unique

/-!
# The configuration of a device

The body of a request for a new configuration has the configuration among its properties. The
controller passes the whole body on, and the service publishes and stores it as the configuration.
-/

namespace IotPanel.Device

open ClassValidator Program Responser
open Mqtt (Topic)

def requestCodeProperty : Property := .required "requestCode" [isString, isNotEmpty]

/-- `PublishSetDeviceConfigDto`. The property `configuration` has no decorator that tests it. -/
def publishSetDeviceConfigDto : List Property :=
  [userIdProperty, requestIdProperty, requestCodeProperty, deviceIdProperty, timeStampProperty]

/-- A body of the class for the device `d`. -/
structure SetConfigBody (d : String) where
  fields : List (String × Json)
  accepted : validate publishSetDeviceConfigDto (.obj fields) = true
  deviceId : (Json.obj fields).get "deviceId" = some (.str d)

namespace SetConfigBody

variable {d : String}

def json (body : SetConfigBody d) : Json := .obj body.fields

/-- What the controller passes to the service. -/
def configData (body : SetConfigBody d) : SensorConfigDto := ⟨d, body.fields⟩

def configuration (body : SetConfigBody d) : JsVal := body.json.get "configuration"

end SetConfigBody

def reconfigureDevice {d : String} (body : SetConfigBody d) : Prog Unit :=
  DeviceService.setDeviceConfiguration body.configData

/-- `ValidationPipe` refuses a body with a property that no decorator of the class tests. -/
def SetConfigBody.Whitelisted {d : String} (body : SetConfigBody d) : Prop :=
  ∀ f ∈ body.fields, ∃ p ∈ publishSetDeviceConfigDto, p.name = f.1

/-- What is set is read back, and nothing is stored by a call that throws. -/
structure RoundTrip (cfg : Config) (s : Site) {d : String} (body : SetConfigBody d) : Prop where
  returned : ∀ t, (reconfigureDevice body).Runs (Executes cfg) s (.ok ()) t →
    (∃ t', (DeviceService.getDeviceConfiguration d).Runs (Executes cfg) t
      (.ok body.configuration) t') ∧
    ∀ v t', (DeviceService.getDeviceConfiguration d).Runs (Executes cfg) t (.ok v) t' →
      v = body.configuration
  unchanged : ∀ e t, (reconfigureDevice body).Runs (Executes cfg) s (.error e) t →
    t.world.sensors = s.world.sensors

variable {cfg : Config} {s t : Site} {d : String} {config : SensorConfigDto} {device : Sensor}
  {topic : Topic}

def deviceQuery (d : String) : SensorQuery := ⟨some (.str d), some false, none⟩

def setConfigQuery (d : String) : TopicQuery :=
  ⟨none, some d, none, some .setSensorConfiguration, none⟩

/-- The site after the configuration has been published and stored. -/
def configured (cfg : Config) (s : Site) (config : SensorConfigDto) (topic : Topic) : Site :=
  (s.publish topic.topic config.json).updateSensors cfg (some (.str config.deviceId))
    { SensorUpdate.none with configuration := some (some config.json) }

/-- A call either throws and stores nothing, or publishes the configuration and stores it. -/
theorem setDeviceConfiguration_cases {r : Except Exception Unit}
    (h : (DeviceService.setDeviceConfiguration config).Runs (Executes cfg) s r t) :
    ((∃ e, r = .error e) ∧ t.world.sensors = s.world.sensors) ∨
      ∃ topic, s.world.topics.find? (setConfigQuery config.deviceId).accepts = some topic ∧
        s.takes topic.topic config.json = true ∧ r = .ok () ∧ t = configured cfg s config topic := by
  obtain ⟨found, s₁, hfind, h1⟩ | ⟨e, rfl, hfind⟩ := runs_bind.mp h
  swap
  · obtain ⟨rfl, -⟩ := runs_findSensor.mp hfind
    exact .inl ⟨⟨e, rfl⟩, rfl⟩
  obtain ⟨rfl, -⟩ := runs_findSensor.mp hfind
  cases found with
  | none =>
    obtain ⟨rfl, rfl⟩ := runs_throw.mp h1
    exact .inl ⟨⟨_, rfl⟩, rfl⟩
  | some device =>
    obtain ⟨topic, s₂, htopic, h2⟩ | ⟨e, rfl, htopic⟩ := runs_bind.mp h1
    swap
    · obtain ⟨rfl, -⟩ := runs_getDeviceTopicByUseCase htopic
      exact .inl ⟨⟨e, rfl⟩, rfl⟩
    obtain ⟨rfl, hfound⟩ := runs_getDeviceTopicByUseCase htopic
    -- Nothing is stored before the broker has taken the configuration.
    obtain ⟨⟨⟩, s₃, hpublish, h3⟩ | ⟨e, rfl, hpublish⟩ := runs_bind.mp h2
    swap
    · obtain ⟨-, hok, -⟩ | ⟨-, rfl⟩ := executes_publish_awaited.mp (runs_perform.mp hpublish)
      · cases hok
      · exact .inl ⟨⟨e, rfl⟩, rfl⟩
    obtain ⟨htakes, -, rfl⟩ | ⟨⟨e, he⟩, -⟩ :=
      executes_publish_awaited.mp (runs_perform.mp hpublish)
    swap
    · cases he
    obtain ⟨rfl, rfl⟩ | ⟨⟨e, rfl⟩, rfl⟩ := executes_updateSensors.mp (runs_perform.mp h3)
    · exact .inr ⟨topic, hfound topic rfl, htakes, rfl, rfl⟩
    · exact .inl ⟨⟨e, rfl⟩, rfl⟩

/-- A call for a device that is stored can publish and store if the message is taken. -/
theorem runs_setDeviceConfiguration
    (hdevice : s.world.sensors.find? (cfg.accepts (deviceQuery config.deviceId)) = some device)
    (htopic : s.world.topics.find? (setConfigQuery config.deviceId).accepts = some topic)
    (htakes : s.takes topic.topic config.json = true) :
    (DeviceService.setDeviceConfiguration config).Runs (Executes cfg) s (.ok ())
      (configured cfg s config topic) := by
  have hfound : (findSensor (deviceQuery config.deviceId)).Runs (Executes cfg) s
      (.ok (some device)) s :=
    runs_findSensor.mpr ⟨rfl, fun found h => (Except.ok.inj h).symm.trans hdevice.symm⟩
  have hgot : (TopicService.getDeviceTopicByUseCase config.deviceId .setSensorConfiguration).Runs
      (Executes cfg) s (.ok topic) s :=
    runs_bind.mpr (.inl ⟨some topic, s,
      runs_findTopic.mpr ⟨rfl, fun found h => (Except.ok.inj h).symm.trans htopic.symm⟩,
      runs_pure.mpr ⟨rfl, rfl⟩⟩)
  refine runs_bind.mpr (.inl ⟨some device, s, hfound, ?_⟩)
  refine runs_bind.mpr (.inl ⟨topic, s, hgot, ?_⟩)
  refine runs_bind.mpr (.inl ⟨(), s.publish topic.topic config.json,
    runs_perform.mpr (executes_publish_awaited.mpr (.inl ⟨htakes, rfl, rfl⟩)), ?_⟩)
  exact runs_perform.mpr (executes_updateSensors.mpr (.inl ⟨rfl, rfl⟩))

/-- An update that leaves ids and marks alone changes the row that is found, if it reaches it. -/
theorem find?_map_apply {q : SensorQuery} {p : Sensor → Bool} {u : SensorUpdate} {rows : List Sensor}
    (hdeleted : u.isDeleted = none) (hstate : u.provisionState = none)
    (hp : ∀ v, cfg.accepts q v = true → p v = true)
    (h : rows.find? (cfg.accepts q) = some device) :
    (rows.map fun v => if p v then u.apply v else v).find? (cfg.accepts q) =
      some (u.apply device) := by
  have hsame : (cfg.accepts q ∘ fun v => if p v then u.apply v else v) = cfg.accepts q := by
    funext v
    simp only [Function.comp]
    split
    · simp [Config.accepts, SensorUpdate.apply, hdeleted, hstate]
    · rfl
  rw [List.find?_map, hsame, h, Option.map_some, if_pos (hp device (List.find?_some h))]

theorem runs_getDeviceConfiguration {v : JsVal}
    (hdevice : s.world.sensors.find? (cfg.accepts (deviceQuery d)) = some device)
    (h : (DeviceService.getDeviceConfiguration d).Runs (Executes cfg) s (.ok v) t) :
    v = device.configuration := by
  obtain ⟨found, s₁, hfind, h1⟩ | ⟨e, he, -⟩ := runs_bind.mp h
  · obtain ⟨rfl, hfound⟩ := runs_findSensor.mp hfind
    obtain rfl := (hfound found rfl).trans hdevice
    dsimp only [Option.bind_some] at h1
    split at h1
    · obtain ⟨_, _, hthrow, -⟩ | ⟨e, he, -⟩ := runs_bind.mp h1
      · cases (runs_throw.mp hthrow).1
      · cases he
    · exact Except.ok.inj (runs_pure.mp h1).1
  · cases he

theorem exists_getDeviceConfiguration
    (hdevice : s.world.sensors.find? (cfg.accepts (deviceQuery d)) = some device)
    (hconfig : device.configuration.truthy = true) :
    (DeviceService.getDeviceConfiguration d).Runs (Executes cfg) s (.ok device.configuration) s := by
  have hfound : (findSensor (deviceQuery d)).Runs (Executes cfg) s (.ok (some device)) s :=
    runs_findSensor.mpr ⟨rfl, fun found h => (Except.ok.inj h).symm.trans hdevice.symm⟩
  refine runs_bind.mpr (.inl ⟨some device, s, hfound, ?_⟩)
  dsimp only [Option.bind_some]
  rw [hconfig]
  exact runs_pure.mpr ⟨rfl, rfl⟩

theorem find?_configured (config : SensorConfigDto)
    (hdevice : s.world.sensors.find? (cfg.accepts (deviceQuery config.deviceId)) = some device) :
    (configured cfg s config topic).world.sensors.find? (cfg.accepts (deviceQuery config.deviceId)) =
      some { device with configuration := some config.json } := by
  have hreached : ∀ v, cfg.accepts (deviceQuery config.deviceId) v = true →
      cfg.matchesId (some (.str config.deviceId)) v.deviceId = true := fun v hv =>
    (Bool.and_eq_true_iff.mp (Bool.and_eq_true_iff.mp hv).1).1
  have hstored := find?_map_apply
    (u := { SensorUpdate.none with configuration := some (some config.json) }) rfl rfl hreached
    hdevice
  exact hstored

/-- After a call that returned the body is read back as the configuration. -/
theorem getDeviceConfiguration_configured (config : SensorConfigDto)
    (hdevice : s.world.sensors.find? (cfg.accepts (deviceQuery config.deviceId)) = some device) :
    (DeviceService.getDeviceConfiguration config.deviceId).Runs (Executes cfg)
      (configured cfg s config topic) (.ok (some config.json)) (configured cfg s config topic) :=
  exists_getDeviceConfiguration (s := configured cfg s config topic)
    (find?_configured config hdevice) rfl

/-- Whatever the body holds as the configuration, the whole body is read back. -/
theorem reads_body {v : JsVal} {t' : Site} (body : SetConfigBody d)
    (hdevice : s.world.sensors.find? (cfg.accepts (deviceQuery d)) = some device)
    (hset : (reconfigureDevice body).Runs (Executes cfg) s (.ok ()) t)
    (hget : (DeviceService.getDeviceConfiguration d).Runs (Executes cfg) t (.ok v) t') :
    v = some body.json := by
  obtain ⟨⟨e, he⟩, -⟩ | ⟨topic, -, -, -, rfl⟩ := setDeviceConfiguration_cases hset
  · cases he
  · exact runs_getDeviceConfiguration (s := configured cfg s body.configData topic)
      (find?_configured body.configData hdevice) hget

/-- A body that the pipe lets through has no configuration. -/
theorem configuration_of_whitelisted (body : SetConfigBody d) (h : body.Whitelisted) :
    body.configuration = none := by
  cases hconfig : body.configuration with
  | none => rfl
  | some v =>
    obtain ⟨pre, post, hfields, -⟩ := List.lookup_eq_some_iff.mp hconfig
    obtain ⟨p, hp, hname⟩ := h ("configuration", v) (by simp [hfields])
    have hnames : ∀ p ∈ publishSetDeviceConfigDto, p.name ≠ "configuration" := by
      simp [publishSetDeviceConfigDto, userIdProperty, requestIdProperty, requestCodeProperty,
        deviceIdProperty, timeStampProperty, Property.required]
    exact absurd hname (hnames p hp)

/-- For a device that is stored, the configuration of the body comes back if and only if the call
cannot return, because the message is refused. -/
theorem roundTrip_iff (body : SetConfigBody d)
    (hdevice : s.world.sensors.find? (cfg.accepts (deviceQuery d)) = some device)
    (htopic : s.world.topics.find? (setConfigQuery d).accepts = some topic) :
    RoundTrip cfg s body ↔ s.takes topic.topic body.json = false := by
  constructor
  · intro h
    rw [← Bool.not_eq_true]
    intro htakes
    have hset : (reconfigureDevice body).Runs (Executes cfg) s (.ok ())
        (configured cfg s body.configData topic) :=
      runs_setDeviceConfiguration hdevice htopic htakes
    -- the body comes back, and it is not a part of itself
    have hread : (DeviceService.getDeviceConfiguration d).Runs (Executes cfg)
        (configured cfg s body.configData topic) (.ok (some body.json)) _ :=
      getDeviceConfiguration_configured body.configData hdevice
    have hbody := (h.returned _ hset).2 _ _ hread
    exact Json.get_ne_self body.json "configuration" hbody.symm
  · intro hrefused
    refine ⟨fun t hset => ?_, fun e t hset => ?_⟩
    · obtain ⟨⟨e, he⟩, -⟩ | ⟨topic', htopic', htakes, -⟩ := setDeviceConfiguration_cases hset
      · cases he
      · obtain rfl : topic = topic' := Option.some.inj (htopic.symm.trans htopic')
        rw [← Bool.not_eq_true] at hrefused
        exact absurd htakes hrefused
    · obtain ⟨-, hsame⟩ | ⟨_, -, -, he, -⟩ := setDeviceConfiguration_cases hset
      · exact hsame
      · cases he

/-! ### A device with a topic for its configuration -/

def configuredDevice : Sensor := { esp32 with isDeleted := false }

def configTopic : Topic :=
  topicRecord panelConfig "esp32-2"
    (panelConfig.topics.deviceTopic "esp32-2" .setSensorConfiguration) .setSensorConfiguration

def configSite : Site :=
  { empty with world := { empty.world with sensors := [configuredDevice], topics := [configTopic] } }

/-- A body that the pipe lets through. -/
def configBody : SetConfigBody "esp32-2" where
  fields :=
    [("userId", .str "user-1"), ("requestId", .str "req-1"), ("requestCode", .str "102"),
      ("deviceId", .str "esp32-2"), ("timestamp", .num 1762379573804)]
  accepted := by decide +kernel
  deviceId := rfl

theorem roundTrip_iff_configBody :
    RoundTrip panelConfig configSite configBody ↔
      configSite.takes configTopic.topic configBody.json = false :=
  roundTrip_iff configBody rfl rfl

/-- The whole body comes back instead of its configuration. -/
theorem not_roundTrip_of_configBody :
    ¬ ∀ (cfg : Config) (s : Site) (d : String) (body : SetConfigBody d) (device : Sensor)
      (topic : Topic), body.Whitelisted →
      s.world.sensors.find? (cfg.accepts (deviceQuery d)) = some device →
        s.world.topics.find? (setConfigQuery d).accepts = some topic →
          s.takes topic.topic body.json = true → RoundTrip cfg s body := by
  intro h
  have hdevice : configSite.world.sensors.find? (panelConfig.accepts (deviceQuery "esp32-2")) =
    some configuredDevice := rfl
  have hset : (reconfigureDevice configBody).Runs (Executes panelConfig) configSite (.ok ())
      (configured panelConfig configSite configBody.configData configTopic) :=
    runs_setDeviceConfiguration hdevice rfl rfl
  have hwhitelisted : configBody.Whitelisted := by
    simp [SetConfigBody.Whitelisted, configBody, publishSetDeviceConfigDto, userIdProperty,
      requestIdProperty, requestCodeProperty, deviceIdProperty, timeStampProperty,
      Property.required]
  have hbody := (h panelConfig configSite "esp32-2" configBody configuredDevice configTopic
    hwhitelisted hdevice rfl rfl).returned _ hset
  obtain ⟨⟨t, hget⟩, -⟩ := hbody
  exact Json.get_ne_self configBody.json "configuration" (reads_body configBody hdevice hset hget)

end IotPanel.Device
