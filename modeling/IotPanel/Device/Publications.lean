import IotPanel.Device.Discovery
import IotPanel.Device.Errands
import IotPanel.Device.Provenance
import IotPanel.Device.Reconnection
import IotPanel.Device.Script
import IotPanel.Device.TopicStore
import IotPanel.Lib.Recall
import IotPanel.Lib.Tally

/-!
# What is sent to the devices

A request to `DeviceController` or to the gateway is published once, on a stored topic of the
device that it is for, and what the handlers of messages do is never published. Some routes do not
wait for the publication: they answer before the client has taken the message, and also when it
does not take it. The route of `MqttManagementController` that publishes whatever it is given is
not among the calls.
-/

namespace IotPanel.Device

open Mqtt (Topic TopicUseCase)
open Responser (pendingKey)
open ResponserService (discoveredId)
open Program

abbrev Publication := String × Json

/-- What is to be published: for which device and use case, whether the outcome is waited for, and
what the payload has to ask. -/
structure Purpose where
  deviceId : String
  useCase : TopicUseCase
  awaited : Bool
  asks : Json → Prop

/-- The payload has the request code. -/
def Coded (code : String) (payload : Json) : Prop := payload.get "requestCode" = some (.str code)

namespace Purpose

/-- The topic belongs to the device, and to the use case by its column or by its name. -/
def Fits (cfg : Config) (w : Purpose) (t : Topic) : Prop :=
  t.deviceId = w.deviceId ∧
    (t.useCase = w.useCase ∨ t.topic = cfg.topics.deviceTopic w.deviceId w.useCase)

/-- The query asks for such topics only. -/
def Seeks (cfg : Config) (w : Purpose) (q : TopicQuery) : Prop :=
  q.deviceId = some w.deviceId ∧
    (q.useCase = some w.useCase ∨ q.topic = some (cfg.topics.deviceTopic w.deviceId w.useCase))

end Purpose

/-- What the client has asked to be sent. A device is provisioned by the route only. -/
def Arrival.purpose (a : Arrival) : Option Purpose :=
  match a.entry with
  | .http .discoverDevicesBroadcast | .socket (.discoveryBroadcast _) =>
    some ⟨"Mqtt_Broker", .broadcast, true, Coded "REQUEST_DISCOVERY"⟩
  | .http (.discoverDeviceUnicast _) | .socket (.discoveryUnicast _) =>
    some ⟨"Mqtt_Broker", .broadcast, false, Coded "REQUEST_DISCOVERY"⟩
  | .http (.getHardwareStatus id) =>
    some ⟨id, .hardwareStatus, true, Coded "REQUEST_HARDWARE_METRICS"⟩
  | .http (.provisionDevice body) =>
    some ⟨body.deviceId, .assignDeviceFunction, false, Coded "REQUEST_ASSIGN_DEVICE_FUNCTION"⟩
  | .http (.reconfigureDevice configData) =>
    some ⟨configData.deviceId, .setSensorConfiguration, true,
      fun payload => payload = configData.json⟩
  | .http (.getDeviceTelemetry telemetry) =>
    some ⟨telemetry.deviceId, .telemetry, true, Coded "REQUEST_TELEMETRY_DATA"⟩
  | _ => none

/-- What is known of a call: the topics that it has found or stored, with what it has looked for,
and what it has handed to the client for the broker. -/
structure Posting where
  topics : List (TopicQuery × Topic)
  given : Multiset Publication

namespace Posting

def fresh : Posting := ⟨[], 0⟩

def know (g : Posting) (q : TopicQuery) (t : Topic) : Posting :=
  { g with topics := (q, t) :: g.topics }

def give (g : Posting) (m : Publication) : Posting := { g with given := g.given + {m} }

/-- A topic of the name has been found by a query for what is to be published. -/
def Knows (cfg : Config) (g : Posting) (w : Purpose) (topic : String) : Prop :=
  ∃ f ∈ g.topics, f.2.topic = topic ∧ w.Seeks cfg f.1

end Posting

namespace Errand

def purpose : Errand → Option Purpose
  | arrival a => a.purpose
  | _ => none

/-- The guards have let the client through, or there are none. -/
def Admitted : Errand → Prop
  | arrival a => a.admitted = true
  | _ => True

/-- A call publishes what it is for, on a topic that it has found, and nothing after that. -/
def mayPost (cfg : Config) (k : Errand) (g : Posting) : Command → Prop
  | .publish awaited topic payload => g.given = 0 ∧ k.Admitted ∧
      ∃ w, k.purpose = some w ∧ w.awaited = awaited ∧ w.asks payload ∧ g.Knows cfg w topic
  | _ => True

def learns (g : Posting) : (c : Command) → Except Exception c.Reply → Posting
  | .findTopic q, .ok (some t) => g.know q t
  | .saveTopic t, .ok _ => g.know (nameQuery t) t
  | .publish _ topic payload, .ok _ => g.give (topic, payload)
  | _, _ => g

/-- Of a call that is to publish nothing nothing needs to be known. -/
def posting (cfg : Config) (k : Errand) : Protocol Posting Command Command.Reply Exception where
  allowed := k.mayPost cfg
  next g c r := if k.purpose.isSome then learns g c r else g

/-- A client that is answered without an error has had its message published. -/
def posts (k : Errand) (r : Except Exception Unit) (g : Posting) : Prop :=
  k.purpose.isSome → r = .ok () → ∃ m, g.given = {m}

end Errand

/-! ### Calls that publish nothing -/

section Silent

variable {cfg : Config} {k : Errand} {g : Posting} {α : Type}

def NotPublish : Command → Prop
  | .publish _ _ _ => False
  | _ => True

theorem mayPost_of_not {c : Command} (hc : NotPublish c) : k.mayPost cfg g c := by
  cases c with
  | publish awaited topic payload => exact hc.elim
  | _ => trivial

theorem next_of_none {c : Command} {r : Except Exception c.Reply} (hk : k.purpose = none) :
    (k.posting cfg).next g c r = g := by
  show (if k.purpose.isSome then _ else g) = g
  rw [hk]
  rfl

theorem stays_of_none {c : Command} (hk : k.purpose = none) (hc : NotPublish c) :
    (perform c : Prog c.Reply).Stays (k.posting cfg) g :=
  stays_perform (mayPost_of_not hc) fun _ => next_of_none hk

theorem topical_of_none (hk : k.purpose = none) : Topical (k.posting cfg) g where
  findTopic _ := stays_of_none hk trivial
  saveTopic _ := stays_of_none hk trivial

/-- No listener publishes anything. -/
theorem stays_listen_posting (d : Delivery) :
    (ListenerService.listen cfg d.kind d.topic d.payload).Stays
      ((Errand.message d).posting cfg) g := by
  refine stays_of_wp (fun q c hallowed => ?_) (d.wp_listen cfg)
  refine ⟨mayPost_of_not ?_, fun r => next_of_none rfl⟩
  cases c with
  | publish awaited topic payload => exact hallowed
  | _ => trivial

theorem stays_subscribed_posting (hk : k.purpose = none) :
    TopicService.getAllSubscribedTopics.Stays (k.posting cfg) g := by
  refine stays_bind (stays_of_none hk trivial) fun topics => ?_
  exact stays_ite (fun _ => stays_throw) fun _ => stays_pure

theorem stays_onConnect_posting :
    (MqttClientService.onConnect cfg).Stays (Errand.onConnect.posting cfg) g := by
  have hnone : Errand.onConnect.purpose = none := rfl
  refine stays_bind (stays_of_none hnone trivial) fun _ => ?_
  refine stays_bind (stays_createTopic cfg (topical_of_none hnone) _ _) fun b => ?_
  exact stays_bind (stays_subscribed_posting hnone) fun topics => stays_of_none hnone trivial

theorem stays_disconnect_posting :
    MqttClientService.disconnect.Stays (Errand.disconnect.posting cfg) g := by
  have hnone : Errand.disconnect.purpose = none := rfl
  refine stays_tryCatch ?_ fun _ => stays_throw
  refine stays_bind (stays_subscribed_posting hnone) fun topics => ?_
  refine stays_bind ?_ fun _ => ?_
  · induction topics with
    | nil => exact stays_pure
    | cons t ts ih => exact stays_bind (stays_of_none hnone trivial) fun _ => ih
  · exact stays_bind (stays_of_none hnone trivial) fun _ => stays_of_none hnone trivial

/-- A list that is read, and not looked at here. -/
theorem stays_read_posting {f : SensorFilter} {e : Exception} (hk : k.purpose = none) :
    (do let _ ← (do
          let found ← findSensors f
          if found = [] then throw e
          return found : Prog (List Sensor)) : Prog Unit).Stays (k.posting cfg) g := by
  refine stays_bind (stays_bind (stays_of_none hk trivial) fun found => ?_) fun _ => stays_pure
  exact stays_ite (fun _ => stays_throw) fun _ => stays_pure

/-- A sensor that is looked up, with a rest that issues no commands. -/
theorem stays_found_posting {q : SensorQuery} {rest : Option Sensor → Prog α}
    (hk : k.purpose = none) (hrest : ∀ found, (rest found).Stays (k.posting cfg) g) :
    (findSensor q >>= rest).Stays (k.posting cfg) g :=
  stays_bind (stays_of_none hk trivial) hrest

theorem stays_route_of_none {route : DeviceRoute} {userId : String} {a : Arrival}
    (hentry : a.entry = .http route) (hnone : a.purpose = none) :
    (route.handler cfg userId).Stays ((Errand.arrival a).posting cfg) g := by
  have hk : (Errand.arrival a).purpose = none := hnone
  unfold Arrival.purpose at hnone
  rw [hentry] at hnone
  cases route with
  | getAllSensors | getUnassignedSensor => exact stays_read_posting hk
  | getSingleSensor id =>
    refine stays_bind (stays_found_posting hk fun found => ?_) fun _ => stays_pure
    cases found with
    | some device => exact stays_pure
    | none => exact stays_throw
  | querySensors query => exact stays_bind (stays_of_none hk trivial) fun _ => stays_pure
  | deleteSensor id =>
    refine stays_found_posting hk fun found => ?_
    cases found with
    | some device => exact stays_of_none hk trivial
    | none => exact stays_throw
  | getDeviceConfiguration id =>
    refine stays_bind (stays_found_posting hk fun found => ?_) fun _ => stays_pure
    exact stays_ite (fun _ => stays_throw) fun _ => stays_pure
  | getHistory id | controlDevice id => exact stays_pure
  | getDeviceStatus id =>
    refine stays_found_posting hk fun found => ?_
    cases found with
    | some device => exact stays_pure
    | none => exact stays_throw
  | discoverDevicesBroadcast | discoverDeviceUnicast _ | getHardwareStatus _ | provisionDevice _
  | reconfigureDevice _ | getDeviceTelemetry _ => cases hnone

theorem stays_message_of_none {message : SocketMessage} {a : Arrival}
    (hentry : a.entry = .socket message) (hnone : a.purpose = none) :
    (message.handler cfg).Stays ((Errand.arrival a).posting cfg) g := by
  have hk : (Errand.arrival a).purpose = none := hnone
  unfold Arrival.purpose at hnone
  rw [hentry] at hnone
  cases message with
  | unassignedDevicesQuery | sensorsConfiguration => exact stays_read_posting hk
  | sensorProvision payload =>
    cases payload with
    | none => exact stays_throw
    | some dto =>
      show Program.Stays _ _ (GatewayService.handleSensorProvision (some dto))
      unfold GatewayService.handleSensorProvision
      refine stays_ite (fun _ => stays_throw) fun _ => ?_
      refine stays_bind (stays_getDeviceTopicByUseCase (topical_of_none hk) _ _) fun topic => ?_
      refine stays_bind ?_ fun _ => stays_throw
      exact stays_validateSensorTypes (fun _ => stays_of_none hk trivial) _ _
  | discoveryBroadcast _ | discoveryUnicast _ => cases hnone

end Silent

/-! ### Calls that publish -/

section Publishing

variable {cfg : Config} {k : Errand} {g : Posting} {w : Purpose} {α : Type}

theorem next_of_purpose {c : Command} {r : Except Exception c.Reply} (hk : k.purpose = some w) :
    (k.posting cfg).next g c r = Errand.learns g c r := by
  show (if k.purpose.isSome then _ else g) = _
  rw [hk]
  rfl

/-- A command that is neither a publication nor about the topics. -/
def Plain : Command → Prop
  | .publish _ _ _ | .findTopic _ | .saveTopic _ => False
  | _ => True

theorem stays_of_plain {c : Command} (hk : k.purpose = some w) (hc : Plain c) :
    (perform c : Prog c.Reply).Stays (k.posting cfg) g := by
  refine stays_perform (mayPost_of_not ?_) fun r => ?_
  · cases c with
    | publish awaited topic payload => exact hc.elim
    | _ => trivial
  · rw [next_of_purpose hk]
    cases c with
    | publish awaited topic payload | findTopic q | saveTopic t => exact hc.elim
    | _ => rfl

/-- Nothing has been published, and a topic that will do is known. -/
def Addressed (cfg : Config) (w : Purpose) (t : Topic) (g : Posting) : Prop :=
  g.given = 0 ∧ g.Knows cfg w t.topic

/-- Something has been published. -/
def Given (g : Posting) : Prop := ∃ m, g.given = {m}

/-- A lookup of a topic and what is done with its answer. -/
theorem returns_findTopic {q : TopicQuery} {rest : Option Topic → Prog α}
    {Q : α → Posting → Prop} (hk : k.purpose = some w)
    (hnone : (rest none).Returns (k.posting cfg) Q g)
    (hsome : ∀ t, (rest (some t)).Returns (k.posting cfg) Q (g.know q t)) :
    (findTopic q >>= rest).Returns (k.posting cfg) Q g := by
  have hfound : (findTopic q).Returns (k.posting cfg)
      (fun found g' => g' = Errand.learns g (.findTopic q) (.ok found)) g :=
    returns_perform trivial fun _ => next_of_purpose hk
  refine returns_bind hfound ?_
  rintro found _ rfl
  cases found with
  | none => exact hnone
  | some t => exact hsome t

/-- A topic that a query for the purpose has found. -/
theorem addressed_know {q : TopicQuery} {t : Topic} (hgiven : g.given = 0) (hq : w.Seeks cfg q) :
    Addressed cfg w t (g.know q t) :=
  ⟨hgiven, (q, t), List.mem_cons_self, rfl, hq⟩

theorem returns_getDeviceTopicByUseCase (hk : k.purpose = some w) (hgiven : g.given = 0) :
    (TopicService.getDeviceTopicByUseCase w.deviceId w.useCase).Returns (k.posting cfg)
      (Addressed cfg w) g :=
  returns_findTopic hk returns_throw fun _ =>
    returns_pure (addressed_know hgiven ⟨rfl, .inl rfl⟩)

theorem returns_storeTopic {topic : String} (hk : k.purpose = some w) (hgiven : g.given = 0) :
    (TopicService.storeTopic cfg w.deviceId topic w.useCase).Returns (k.posting cfg)
      (Addressed cfg w) g := by
  refine returns_findTopic hk ?_ fun t =>
    returns_pure (addressed_know hgiven ⟨rfl, .inl rfl⟩)
  have hsaved : (saveTopic ⟨cfg.topics.mqttBrokerUrl, w.deviceId, topic, w.useCase, true⟩).Returns
      (k.posting cfg) (fun _ => Addressed cfg w
        ⟨cfg.topics.mqttBrokerUrl, w.deviceId, topic, w.useCase, true⟩) g := by
    refine returns_perform trivial fun _ => ?_
    rw [next_of_purpose hk]
    exact addressed_know hgiven ⟨rfl, .inl rfl⟩
  exact returns_bind hsaved fun _ _ h => returns_pure h

theorem returns_createTopic (hk : k.purpose = some w) (hgiven : g.given = 0) :
    (TopicService.createTopic cfg w.deviceId w.useCase).Returns (k.posting cfg)
      (Addressed cfg w) g :=
  returns_findTopic hk (returns_storeTopic hk hgiven) fun _ =>
    returns_pure (addressed_know hgiven ⟨rfl, .inr rfl⟩)

/-- The broadcast topic is only read for its name. -/
theorem returns_getBroadcastTopic (hk : k.purpose = some w) (hgiven : g.given = 0) :
    TopicService.getBroadcastTopic.Returns (k.posting cfg) (fun _ g' => g'.given = 0) g :=
  returns_findTopic hk returns_throw fun _ => returns_pure hgiven

/-- The publication that the call is for. -/
theorem returns_publish {t : Topic} {payload : Json} (hk : k.purpose = some w)
    (hadmitted : k.Admitted) (haddressed : Addressed cfg w t g) (hasks : w.asks payload) :
    (publish w.awaited t.topic payload).Returns (k.posting cfg) (fun _ => Given) g := by
  obtain ⟨hgiven, hknows⟩ := haddressed
  refine returns_perform ⟨hgiven, hadmitted, w, hk, rfl, hasks, hknows⟩ fun _ => ?_
  rw [next_of_purpose hk]
  refine ⟨(t.topic, payload), ?_⟩
  show g.given + {(t.topic, payload)} = _
  rw [hgiven, zero_add]

/-! ### The requests -/

theorem coded_discovery {v : JsVal} {requestId : String} {timestamp : ℕ} :
    Coded "REQUEST_DISCOVERY" (jsonObject [("isBroadcast", some (.bool true)), ("userId", v),
      ("requestId", some (.str requestId)), ("requestCode", some (.str "REQUEST_DISCOVERY")),
      ("timestamp", some (.num timestamp))]) := by
  cases v with
  | none | some _ => rfl

theorem coded_unicast {v d : JsVal} {requestId : String} {timestamp : ℕ} :
    Coded "REQUEST_DISCOVERY" (jsonObject [("deviceId", d), ("userId", v),
      ("isBroadcast", some (.bool false)), ("requestCode", some (.str "REQUEST_DISCOVERY")),
      ("requestId", some (.str requestId)), ("timestamp", some (.num timestamp))]) := by
  cases d with
  | none | some _ =>
    cases v with
    | none | some _ => rfl

/-- What both requests for a discovery end with. -/
theorem returns_announce {name : String} {awaited : Bool} {asks : Json → Prop} {payload : Json}
    (hk : k.purpose = some ⟨"Mqtt_Broker", .broadcast, awaited, asks⟩) (hadmitted : k.Admitted)
    (hgiven : g.given = 0) (hasks : asks payload) :
    (announce cfg awaited name payload).Returns (k.posting cfg) (fun _ => Given) g := by
  refine returns_bind (returns_storeTopic hk hgiven) fun t g' haddressed => ?_
  refine returns_bind (returns_publish hk hadmitted haddressed hasks) fun _ g'' hg => ?_
  exact returns_of_stays (stays_of_plain hk trivial) fun _ => hg

theorem returns_discoverOn {awaited : Bool} {compose : Topic → String} {asks : Json → Prop}
    {payload : String → ℕ → Json}
    (hk : k.purpose = some ⟨"Mqtt_Broker", .broadcast, awaited, asks⟩) (hadmitted : k.Admitted)
    (hgiven : g.given = 0) (hasks : ∀ requestId timestamp, asks (payload requestId timestamp)) :
    (discoverOn cfg awaited compose payload).Returns (k.posting cfg) (fun _ => Given) g := by
  refine returns_bind (returns_getBroadcastTopic hk hgiven) fun b g' hgiven' => ?_
  refine returns_after (stays_of_plain hk trivial) fun requestId => ?_
  refine returns_after (stays_of_plain hk trivial) fun timestamp => ?_
  refine returns_after (stays_of_plain hk trivial) fun _ => ?_
  exact returns_announce hk hadmitted hgiven' (hasks requestId timestamp)

theorem returns_broadcastFor {userId : JsVal} (hadmitted : k.Admitted) (hgiven : g.given = 0)
    (hk : k.purpose = some ⟨"Mqtt_Broker", .broadcast, true, Coded "REQUEST_DISCOVERY"⟩) :
    (DeviceService.broadcastFor cfg userId).Returns (k.posting cfg) (fun _ => Given) g := by
  rw [DeviceService.broadcastFor_eq]
  exact returns_discoverOn hk hadmitted hgiven fun _ _ => coded_discovery

theorem returns_unicastFor {userId deviceId : JsVal} (hadmitted : k.Admitted)
    (hgiven : g.given = 0)
    (hk : k.purpose = some ⟨"Mqtt_Broker", .broadcast, false, Coded "REQUEST_DISCOVERY"⟩) :
    (DeviceService.unicastFor cfg userId deviceId).Returns (k.posting cfg) (fun _ => Given) g := by
  rw [DeviceService.unicastFor_eq]
  exact returns_discoverOn hk hadmitted hgiven fun _ _ => coded_unicast

theorem returns_getHardwareStatus {userId deviceId : String} (hadmitted : k.Admitted)
    (hgiven : g.given = 0)
    (hk : k.purpose =
      some ⟨deviceId, .hardwareStatus, true, Coded "REQUEST_HARDWARE_METRICS"⟩) :
    (DeviceService.getHardwareStatus cfg userId deviceId).Returns (k.posting cfg)
      (fun _ => Given) g := by
  refine returns_after (stays_of_plain hk trivial) fun found => ?_
  cases found with
  | none => exact returns_throw
  | some device =>
    refine returns_rethrow ?_
    refine returns_after (stays_of_plain hk trivial) fun requestId => ?_
    refine returns_after (stays_of_plain hk trivial) fun timestamp => ?_
    obtain ⟨-, -, hcode⟩ := hardwarePayload_ids device.deviceId userId requestId timestamp
    refine returns_bind (returns_createTopic hk hgiven) fun t g' haddressed => ?_
    refine returns_after (stays_of_plain hk trivial) fun _ => ?_
    exact returns_publish hk hadmitted haddressed hcode

theorem returns_AssignDeviceFunction {userId : String} {dto : PublishSensorFunctionalityDto}
    (hadmitted : k.Admitted) (hgiven : g.given = 0)
    (hk : k.purpose = some ⟨dto.deviceId, .assignDeviceFunction, false,
      Coded "REQUEST_ASSIGN_DEVICE_FUNCTION"⟩) :
    (DeviceService.AssignDeviceFunction userId dto).Returns (k.posting cfg)
      (fun _ => Given) g := by
  unfold DeviceService.AssignDeviceFunction
  refine returns_guard fun _ => ?_
  refine returns_bind (returns_getDeviceTopicByUseCase hk hgiven) fun t g' haddressed => ?_
  refine returns_after (stays_validateSensorTypes (fun _ => stays_of_plain hk trivial) _ _)
    fun _ => ?_
  refine returns_after (stays_of_plain hk trivial) fun requestId => ?_
  obtain ⟨-, -, hcode⟩ := assignPayload_ids dto userId requestId
  refine returns_after (stays_of_plain hk trivial) fun _ => ?_
  refine returns_after (stays_of_plain hk trivial) fun _ => ?_
  exact returns_publish hk hadmitted haddressed hcode

theorem returns_setDeviceConfiguration {configData : SensorConfigDto} (hadmitted : k.Admitted)
    (hgiven : g.given = 0)
    (hk : k.purpose = some ⟨configData.deviceId, .setSensorConfiguration, true,
      fun payload => payload = configData.json⟩) :
    (DeviceService.setDeviceConfiguration configData).Returns (k.posting cfg)
      (fun _ => Given) g := by
  refine returns_after (stays_of_plain hk trivial) fun found => ?_
  cases found with
  | none => exact returns_throw
  | some device =>
    refine returns_bind (returns_getDeviceTopicByUseCase hk hgiven) fun t g' haddressed => ?_
    refine returns_bind (returns_publish hk hadmitted haddressed rfl) fun _ g'' hg => ?_
    exact returns_of_stays (stays_of_plain hk trivial) fun _ => hg

/-- The code of a telemetry request is the one that has been tested. -/
theorem returns_getDeviceTelemetry {telemetry : PublishTelemetryDto} (hadmitted : k.Admitted)
    (hgiven : g.given = 0)
    (hk : k.purpose =
      some ⟨telemetry.deviceId, .telemetry, true, Coded "REQUEST_TELEMETRY_DATA"⟩) :
    (DeviceService.getDeviceTelemetry telemetry).Returns (k.posting cfg) (fun _ => Given) g := by
  unfold DeviceService.getDeviceTelemetry
  refine returns_guard fun hcode => ?_
  refine returns_after (stays_of_plain hk trivial) fun found => ?_
  cases found with
  | none => exact returns_throw
  | some device =>
    refine returns_bind (returns_getDeviceTopicByUseCase hk hgiven) fun t g' haddressed => ?_
    refine returns_after (stays_of_plain hk trivial) fun _ => ?_
    refine returns_publish hk hadmitted haddressed ?_
    have hasked : telemetry.requestCode = "REQUEST_TELEMETRY_DATA" := not_not.mp hcode
    show some (Json.str telemetry.requestCode) = _
    rw [hasked]

theorem returns_route {route : DeviceRoute} {userId : String} {a : Arrival}
    (hentry : a.entry = .http route) (hadmitted : a.admitted = true) (hgiven : g.given = 0)
    (hk : a.purpose = some w) :
    (route.handler cfg userId).Returns ((Errand.arrival a).posting cfg) (fun _ => Given) g := by
  have hown : (Errand.arrival a).purpose = a.purpose := rfl
  unfold Arrival.purpose at hk hown
  rw [hentry] at hk hown
  cases route with
  | discoverDevicesBroadcast =>
    show (DeviceService.discoverDevicesBroadcast cfg userId).Returns _ _ _
    rw [← DeviceService.broadcastFor_str]
    exact returns_broadcastFor hadmitted hgiven hown
  | discoverDeviceUnicast id =>
    show (DeviceService.discoverDeviceUnicast cfg userId id).Returns _ _ _
    rw [← DeviceService.unicastFor_str]
    exact returns_unicastFor hadmitted hgiven hown
  | getHardwareStatus id => exact returns_getHardwareStatus hadmitted hgiven hown
  | provisionDevice body => exact returns_AssignDeviceFunction hadmitted hgiven hown
  | reconfigureDevice configData => exact returns_setDeviceConfiguration hadmitted hgiven hown
  | getDeviceTelemetry telemetry => exact returns_getDeviceTelemetry hadmitted hgiven hown
  | getAllSensors | getSingleSensor _ | querySensors _ | getUnassignedSensor | deleteSensor _
  | getDeviceConfiguration _ | getHistory _ | controlDevice _ | getDeviceStatus _ => cases hk

theorem returns_message {message : SocketMessage} {a : Arrival}
    (hentry : a.entry = .socket message) (hgiven : g.given = 0) (hk : a.purpose = some w) :
    (message.handler cfg).Returns ((Errand.arrival a).posting cfg) (fun _ => Given) g := by
  have hown : (Errand.arrival a).purpose = a.purpose := rfl
  have hadmitted : (Errand.arrival a).Admitted := by
    show a.admitted = true
    rw [Arrival.admitted, hentry]
  unfold Arrival.purpose at hk hown
  rw [hentry] at hk hown
  cases message with
  | discoveryBroadcast payload =>
    cases payload with
    | none => exact returns_throw
    | some payload =>
      cases payload with
      | null => exact returns_throw
      | _ => exact returns_broadcastFor hadmitted hgiven hown
  | discoveryUnicast payload =>
    cases payload with
    | none => exact returns_throw
    | some payload =>
      cases payload with
      | null => exact returns_throw
      | _ => exact returns_unicastFor hadmitted hgiven hown
  | unassignedDevicesQuery | sensorProvision _ | sensorsConfiguration => cases hk

end Publishing

/-- Every call follows its protocol. -/
theorem Errand.wp_posting (cfg : Config) (k : Errand) :
    (k.program cfg).wp (k.posting cfg) k.posts .fresh := by
  have hsilent : ∀ {x : Prog Unit}, k.purpose = none → x.Stays (k.posting cfg) .fresh →
      x.wp (k.posting cfg) k.posts .fresh := by
    intro x hk hx
    refine wp_of_stays hx fun r hsome => ?_
    rw [hk] at hsome
    cases hsome
  cases k with
  | message d => exact hsilent rfl (stays_listen_posting d)
  | initConnection =>
    exact hsilent rfl (stays_tryCatch (stays_of_none rfl trivial) fun _ => stays_throw)
  | onConnect => exact hsilent rfl stays_onConnect_posting
  | disconnect => exact hsilent rfl stays_disconnect_posting
  | arrival a =>
    have hgiven : ∀ {x : Prog Unit},
        x.Returns ((Errand.arrival a).posting cfg) (fun _ => Given) .fresh →
          x.wp ((Errand.arrival a).posting cfg) (Errand.arrival a).posts .fresh := fun h =>
      wp_mono (fun r g hr _ hok => hr () hok) h
    show (a.program cfg).wp _ _ _
    unfold Arrival.program
    cases hentry : a.entry with
    | http route =>
      dsimp only
      cases hguards : guards route.roles a.cookie a.session with
      | error e => exact hgiven returns_throw
      | ok d =>
        have hadmitted : a.admitted = true := by
          rw [Arrival.admitted, hentry]
          show (guards route.roles a.cookie a.session).toBool = true
          rw [hguards]
          rfl
        cases hk : a.purpose with
        | none => exact hsilent hk (stays_route_of_none hentry hk)
        | some w => exact hgiven (returns_route hentry hadmitted rfl hk)
    | socket message =>
      cases hk : a.purpose with
      | none => exact hsilent hk (stays_message_of_none hentry hk)
      | some w => exact hgiven (returns_message hentry rfl hk)

/-! ### The calls side by side -/

/-- The site, and for the specifications the publications that nobody has waited for and that the
client has not taken. -/
structure Outbox where
  site : Site
  missed : List Publication

/-- What happens besides: an incident, or an update of topics is executed. -/
inductive Happening
  | incident (x : Incident)
  | updated (i : ℕ)

namespace Outbox

def after (cfg : Config) (o : Outbox) : Happening → Option Outbox
  | .incident x => ((⟨o.site, []⟩ : Archive).after cfg x).map fun a => { o with site := a.site }
  | .updated i => o.site.link.updates[i]?.map fun u =>
      { o with site := o.site.updateTopics u.1 u.2 (o.site.link.updates.eraseIdx i) }

/-- What is missed after a command. -/
def missing (o : Outbox) : Command → List Publication
  | .publish false topic payload =>
    if o.site.takes topic payload then o.missed else (topic, payload) :: o.missed
  | _ => o.missed

/-- All that has been handed to the client. -/
def handed (o : Outbox) : Multiset Publication := ↑o.site.link.sent + ↑o.missed

end Outbox

def postings (cfg : Config) :
    System Outbox Errand Posting Happening Command Command.Reply Exception where
  program := Errand.program cfg
  protocol := Errand.posting cfg
  fresh := .fresh
  ends := Errand.posts
  follows := Errand.wp_posting cfg
  env := Outbox.after cfg
  execute o c r o' := Executes cfg o.site c r o'.site ∧ o'.missed = o.missing c

abbrev PostingEvent := CallEvent Errand Posting Happening Command Command.Reply Exception

abbrev PostingPool (cfg : Config) := Pool Outbox (Process (postings cfg))

/-- One command of one call, or something else that happens. -/
abbrev Posts (cfg : Config) : PostingPool cfg → PostingEvent → PostingPool cfg → Prop :=
  (postings cfg).Step fun _ _ => True

section Runs

variable {cfg : Config} {k : Errand} {g : Posting} {o o' : Outbox} {w : Purpose}

/-- Nothing that happens besides sends a message or takes one back. -/
theorem handed_after {x : Happening} (h : o.after cfg x = some o') : o'.handed = o.handed := by
  cases x with
  | incident x =>
    obtain ⟨a, ha, rfl⟩ := Option.map_eq_some_iff.mp h
    have hsent : a.site.link.sent = o.site.link.sent := by
      cases x with
      | tick | closed =>
        cases ha
        rfl
      | landed i | lost i | saved i | refused i =>
        obtain ⟨f, -, rfl⟩ := Option.map_eq_some_iff.mp ha
        rfl
    show (↑a.site.link.sent + ↑o.missed : Multiset Publication) = _
    rw [hsent]
    rfl
  | updated i =>
    obtain ⟨u, -, rfl⟩ := Option.map_eq_some_iff.mp h
    rfl

theorem missing_of_not {c : Command} (hc : NotPublish c) : o.missing c = o.missed := by
  cases c with
  | publish awaited topic payload => exact hc.elim
  | _ => rfl

/-- Any command but a publication leaves what has been sent as it is. -/
theorem sent_of_not {s t : Site} {c : Command} {r : Except Exception c.Reply}
    (hc : NotPublish c) (h : Executes cfg s c r t) : t.link.sent = s.link.sent := by
  refine sent_of_serves (.executed h) ?_
  rintro awaited topic payload rfl
  exact hc

theorem coe_cons_add {m : Publication} {xs ys : List Publication} :
    (↑(m :: xs) + ↑ys : Multiset Publication) = ↑xs + ↑ys + {m} := by
  rw [← Multiset.cons_coe, ← Multiset.singleton_add]
  ac_rfl

theorem coe_add_cons {m : Publication} {xs ys : List Publication} :
    (↑xs + ↑(m :: ys) : Multiset Publication) = ↑xs + ↑ys + {m} := by
  rw [← Multiset.cons_coe, ← Multiset.singleton_add]
  ac_rfl

/-- A publication that is answered without an error has been sent or is missed. -/
theorem handed_of_publish {awaited : Bool} {topic : String} {payload : Json}
    {r : Except Exception Unit} (h : Executes cfg o.site (.publish awaited topic payload) r o'.site)
    (hmissed : o'.missed = o.missing (.publish awaited topic payload)) :
    (r = .ok () ∧ o'.handed = o.handed + {(topic, payload)}) ∨
      ((∃ e, r = .error e) ∧ o'.handed = o.handed) := by
  unfold Outbox.handed
  cases awaited with
  | true =>
    have hnone : o'.missed = o.missed := hmissed
    rw [hnone]
    obtain ⟨-, rfl, hsite⟩ | ⟨hfailed, hsite⟩ := executes_publish_awaited.mp h
    · rw [hsite]
      exact .inl ⟨rfl, coe_cons_add⟩
    · rw [hsite]
      exact .inr ⟨hfailed, rfl⟩
  | false =>
    obtain ⟨rfl, hsite⟩ := executes_publish_unawaited.mp h
    have hkept : o'.missed = if o.site.takes topic payload then o.missed
      else (topic, payload) :: o.missed := hmissed
    rw [hkept, hsite]
    refine .inl ⟨rfl, ?_⟩
    by_cases htakes : o.site.takes topic payload = true
    · rw [if_pos htakes, if_pos htakes]
      exact coe_cons_add
    · rw [if_neg htakes, if_neg htakes]
      exact coe_add_cons

theorem given_of_not {c : Command} {r : Except Exception c.Reply} (hc : NotPublish c) :
    ((k.posting cfg).next g c r).given = g.given := by
  show (if k.purpose.isSome then Errand.learns g c r else g).given = _
  split
  · unfold Errand.learns
    split
    · rfl
    · rfl
    · exact hc.elim
    · rfl
  · rfl

/-- Each call is charged with what it has handed to the client. -/
theorem handed_tally : System.Tally (postings cfg) Outbox.handed fun _ g => g.given where
  fresh _ := rfl
  env h := handed_after h
  did {o t c r o'} hallowed hexec := by
    obtain ⟨hexec, hmissed⟩ := hexec
    by_cases hc : NotPublish c
    · have hgiven : ((t.call.posting cfg).next t.phase c r).given = t.phase.given :=
        given_of_not hc
      show o'.handed + _ = o.handed + ((t.call.posting cfg).next t.phase c r).given
      rw [hgiven]
      unfold Outbox.handed
      rw [hmissed, missing_of_not hc, sent_of_not hc hexec]
    · cases c with
      | publish awaited topic payload =>
        obtain ⟨-, -, w, hk, -⟩ := hallowed
        have hnext : (t.call.posting cfg).next t.phase (.publish awaited topic payload) r =
            Errand.learns t.phase (.publish awaited topic payload) r := next_of_purpose hk
        show o'.handed + _ = o.handed + ((t.call.posting cfg).next t.phase _ r).given
        rw [hnext]
        obtain ⟨rfl, hadds⟩ | ⟨⟨e, rfl⟩, hsame⟩ := handed_of_publish hexec hmissed
        · rw [hadds]
          show _ = o.handed + (t.phase.given + {(topic, payload)})
          ac_rfl
        · rw [hsame]
          rfl
      | _ => exact absurd trivial hc

/-! ### What a call has published -/

/-- A row with the device, the name and the use case of the topic is stored. -/
def Outbox.Lists (o : Outbox) (t : Topic) : Prop :=
  ∃ row ∈ o.site.world.topics, Named t.deviceId t.topic t.useCase row

/-- Topics stay in the database under their names, and what has been sent stays sent. -/
structure Outbox.Keeps (o o' : Outbox) : Prop where
  topics : ∀ t, o.Lists t → o'.Lists t
  sent : o.site.link.sent ⊆ o'.site.link.sent

theorem Outbox.Lists.of_subset {t : Topic} (h : o.Lists t)
    (hsubset : o.site.world.topics ⊆ o'.site.world.topics) : o'.Lists t := by
  obtain ⟨row, hrow, hnamed⟩ := h
  exact ⟨row, hsubset hrow, hnamed⟩

theorem kept_after {x : Happening} (h : o.after cfg x = some o') : o.Keeps o' := by
  cases x with
  | incident x =>
    obtain ⟨a, ha, rfl⟩ := Option.map_eq_some_iff.mp h
    cases x with
    | tick | closed =>
      cases ha
      exact ⟨fun t ht => ht, List.Subset.refl _⟩
    | landed i | lost i | saved i | refused i =>
      obtain ⟨f, -, rfl⟩ := Option.map_eq_some_iff.mp ha
      exact ⟨fun t ht => ht, List.Subset.refl _⟩
  | updated i =>
    obtain ⟨u, -, rfl⟩ := Option.map_eq_some_iff.mp h
    refine ⟨?_, List.Subset.refl _⟩
    rintro t ⟨row, hrow, hnamed⟩
    -- the update sets a column that is no part of the name
    refine ⟨_, List.mem_map_of_mem hrow, ?_⟩
    split
    · exact hnamed
    · exact hnamed

/-- What has been sent is never taken back. -/
theorem sent_subset_of_executes {s t : Site} {c : Command} {r : Except Exception c.Reply}
    (h : Executes cfg s c r t) : s.link.sent ⊆ t.link.sent := by
  by_cases hc : NotPublish c
  · rw [sent_of_not hc h]
    exact List.Subset.refl _
  · cases c with
    | publish awaited topic payload =>
      obtain rfl | rfl := executes_publish h
      · exact List.Subset.refl _
      · exact List.subset_cons_self _ _
    | _ => exact absurd trivial hc

theorem kept_of_executes {c : Command} {r : Except Exception c.Reply}
    (h : Executes cfg o.site c r o'.site) : o.Keeps o' :=
  ⟨fun _ ht => ht.of_subset (topics_subset_of_serves (.executed h)), sent_subset_of_executes h⟩

theorem kept_of_step {p q : PostingPool cfg} {e : PostingEvent} (hs : Posts cfg p e q) :
    p.shared.Keeps q.shared := by
  obtain ⟨x, -, hx, -⟩ | ⟨i, k, -, -, hshared, -⟩ | ⟨i, t, c, k, r, -, -, -, hexec, -⟩ :=
    System.step_cases hs
  · exact kept_after hx
  · rw [hshared]
    exact ⟨fun t ht => ht, List.Subset.refl _⟩
  · exact kept_of_executes hexec.1

/-- The message is what the call is for: an admitted client has asked for it, its topic is stored
for the device, and it has been sent if the call has waited for it. -/
def Fulfils (cfg : Config) (o : Outbox) (k : Errand) (m : Publication) : Prop :=
  k.Admitted ∧ ∃ w, k.purpose = some w ∧ w.asks m.2 ∧
    (∃ t, t.topic = m.1 ∧ w.Fits cfg t ∧ o.Lists t) ∧
      (w.awaited = true → m ∈ o.site.link.sent)

theorem Fulfils.mono {m : Publication} (h : Fulfils cfg o k m) (hkeeps : o.Keeps o') :
    Fulfils cfg o' k m := by
  obtain ⟨hadmitted, w, hk, hasks, ⟨t, htopic, hfits, hlists⟩, hsent⟩ := h
  exact ⟨hadmitted, w, hk, hasks, ⟨t, htopic, hfits, hkeeps.topics t hlists⟩,
    fun hawaited => hkeeps.sent (hsent hawaited)⟩

/-- What is known of a call is true, and it has published nothing or what it is for. -/
structure Honest (cfg : Config) (o : Outbox) (k : Errand) (g : Posting) : Prop where
  topics : ∀ f ∈ g.topics, f.1.accepts f.2 = true ∧ o.Lists f.2
  given : g.given = 0 ∨ ∃ m, g.given = {m} ∧ Fulfils cfg o k m

theorem Honest.mono (h : Honest cfg o k g) (hkeeps : o.Keeps o') : Honest cfg o' k g where
  topics f hf := ⟨(h.topics f hf).1, hkeeps.topics _ (h.topics f hf).2⟩
  given := h.given.imp_right fun ⟨m, hm, hfulfils⟩ => ⟨m, hm, hfulfils.mono hkeeps⟩

/-- A topic that such a query has found. -/
theorem fits_of_accepts {q : TopicQuery} {t : Topic} (hq : w.Seeks cfg q)
    (h : q.accepts t = true) : w.Fits cfg t := by
  obtain ⟨hdevice, hname⟩ := hq
  simp only [TopicQuery.accepts, Bool.and_eq_true] at h
  obtain ⟨⟨⟨⟨-, hd⟩, ht⟩, hu⟩, -⟩ := h
  rw [hdevice] at hd
  refine ⟨(eq_of_beq hd).symm, hname.imp (fun huse => ?_) fun htopic => ?_⟩
  · rw [huse] at hu
    exact (of_decide_eq_true hu).symm
  · rw [htopic] at ht
    exact (eq_of_beq ht).symm

theorem Honest.know {q : TopicQuery} {t : Topic} (h : Honest cfg o k g) (hq : q.accepts t = true)
    (ht : o.Lists t) : Honest cfg o k (g.know q t) where
  topics f hf := by
    obtain rfl | hf := List.mem_cons.mp hf
    · exact ⟨hq, ht⟩
    · exact h.topics f hf
  given := h.given

theorem Honest.give {awaited : Bool} {topic : String} {payload : Json}
    (h : Honest cfg o' k g) (hallowed : k.mayPost cfg g (.publish awaited topic payload))
    (hsent : awaited = true → (topic, payload) ∈ o'.site.link.sent) :
    Honest cfg o' k (g.give (topic, payload)) where
  topics := h.topics
  given := by
    obtain ⟨hgiven, hadmitted, w, hk, rfl, hasks, f, hf, htopic, hseeks⟩ := hallowed
    obtain ⟨haccepts, hlists⟩ := h.topics f hf
    refine .inr ⟨(topic, payload), ?_, hadmitted, w, hk, hasks,
      ⟨f.2, htopic, fits_of_accepts hseeks haccepts, hlists⟩, hsent⟩
    show g.given + _ = _
    rw [hgiven, zero_add]

/-- The step of the call itself. -/
theorem Honest.learns {c : Command} {r : Except Exception c.Reply} (h : Honest cfg o k g)
    (hallowed : k.mayPost cfg g c) (hexec : Executes cfg o.site c r o'.site) :
    Honest cfg o' k (Errand.learns g c r) := by
  have hkept : Honest cfg o' k g := h.mono (kept_of_executes hexec)
  unfold Errand.learns
  split
  · rename_i q t
    obtain ⟨-, hfound, -⟩ := serves_findTopic (.executed hexec)
    obtain ⟨ht, hq⟩ := hfound t rfl
    have hlists : o.Lists t := ⟨t, ht, rfl, rfl, rfl⟩
    exact hkept.know hq ((kept_of_executes hexec).topics t hlists)
  · rename_i t v
    obtain ⟨-, hsite⟩ | ⟨⟨e, he⟩, -⟩ := serves_saveTopic (.executed hexec)
    · have hlists : o'.Lists t := by
        refine ⟨t, ?_, rfl, rfl, rfl⟩
        rw [hsite]
        exact List.mem_append_right _ List.mem_cons_self
      exact hkept.know (accepts_nameQuery.mpr ⟨rfl, rfl, rfl⟩) hlists
    · cases he
  · rename_i awaited topic payload v
    refine hkept.give hallowed ?_
    rintro rfl
    obtain ⟨-, -, hsite⟩ | ⟨⟨e, he⟩, -⟩ := executes_publish_awaited.mp hexec
    · rw [hsite]
      exact List.mem_cons_self
    · cases he
  · exact hkept

theorem honest_recall : System.Recall (postings cfg) (fun _ _ => True)
    fun _ o k g => Honest cfg o k g where
  start := ⟨fun f hf => absurd hf List.not_mem_nil, .inl rfl⟩
  mono hs h := h.mono (kept_of_step hs)
  did {tr o t c r o'} h hallowed hexec := by
    show Honest cfg o' t.call (if t.call.purpose.isSome then _ else t.phase)
    split
    · exact h.learns hallowed hexec.1
    · exact h.mono (kept_of_executes hexec.1)

/-- Whatever the order in which these calls go on and whatever fails: what has been handed to the
client is what was before and at most one message for each call, which is what an admitted client
has asked for and goes to a stored topic of the device. A call that is to publish and returns has
published; and what it has waited for has been sent. -/
theorem published_of_run {o : Outbox} {tr : List PostingEvent} {p : PostingPool cfg}
    (hrun : Run (Posts cfg) (Pool.start o) tr p) :
    System.Balanced Outbox.handed (fun _ g => g.given) o.handed p ∧
      ∀ i t, p.threads i = some t →
        (t.phase.given = 0 ∨ ∃ m, t.phase.given = {m} ∧ Fulfils cfg p.shared t.call m) ∧
        (t.call.purpose.isSome → t.prog = .ret (.ok ()) →
          ∃ m, t.phase.given = {m} ∧ Fulfils cfg p.shared t.call m) := by
  refine ⟨System.balanced_of_run handed_tally hrun, fun i t ht => ?_⟩
  have hgiven : t.phase.given = 0 ∨ ∃ m, t.phase.given = {m} ∧ Fulfils cfg p.shared t.call m :=
    (System.recalls_of_run honest_recall hrun i t ht).given
  refine ⟨hgiven, fun hsome hret => ?_⟩
  obtain ⟨m, hm⟩ := t.ends_of_ret hret hsome rfl
  obtain hnone | hdone := hgiven
  · rw [hm] at hnone
    exact absurd hnone (Multiset.singleton_ne_zero m)
  · exact hdone

end Runs

/-! ### An announcement -/

def postingsOracle (cfg : Config) : System.Oracle (postings cfg) Outcome where
  answer x o c := ((oracle cfg).answer x o.site c).map fun (r, site) => (r, ⟨site, o.missing c⟩)
  sound {x o c r o'} h := by
    obtain ⟨⟨r', site⟩, hanswer, heq⟩ := Option.map_eq_some_iff.mp h
    cases heq
    exact ⟨(oracle cfg).sound hanswer, rfl⟩

/-- The client is connected to the broker, and nothing has been missed. -/
def connectedOutbox : Outbox := ⟨engineerBackend.site, []⟩

/-- The engineer asks all devices to announce themselves, and is answered. -/
def announcing : List (System.Move Errand Happening Outcome) :=
  .start 0 (.arrival announcement) :: .step 0 (.attempt "") :: .step 0 (.attempt panelRequest) ::
    List.replicate 6 (.step 0 (.attempt ""))

def returned (t : Process (postings panelConfig)) : Bool :=
  match t.prog with
  | .ret (.ok _) => true
  | _ => false

/-- The request is one to publish, and has been answered without an error. -/
def answered (p : PostingPool panelConfig) : Bool :=
  (p.threads 0).any fun t => t.call.purpose.isSome && returned t

theorem ret_of_answered {p : PostingPool panelConfig} (h : answered p = true) :
    ∃ t, p.threads 0 = some t ∧ t.call.purpose.isSome ∧ t.prog = .ret (.ok ()) := by
  obtain ⟨t, ht, htest⟩ := (Option.any_eq_true _ _).mp h
  obtain ⟨hpurpose, hreturned⟩ := Bool.and_eq_true_iff.mp htest
  refine ⟨t, ht, hpurpose, ?_⟩
  unfold returned at hreturned
  split at hreturned
  · assumption
  · cases hreturned

theorem published_of_run_announcing :
    ∃ tr p, Run (Posts panelConfig) (Pool.start connectedOutbox) tr p ∧
      System.Balanced Outbox.handed (fun _ g => g.given) connectedOutbox.handed p ∧
      ∃ t m, p.threads 0 = some t ∧ t.phase.given = {m} ∧
        Fulfils panelConfig p.shared t.call m := by
  have hscript : (System.play (postingsOracle panelConfig) 1 (fun _ _ => true)
      (Pool.start connectedOutbox) announcing).any answered = true := by
    decide +kernel
  obtain ⟨tr, p, hrun, -, htest⟩ :=
    System.exists_run (fun _ _ _ _ => trivial) (System.below_start _) hscript
  obtain ⟨t, ht, hpurpose, hret⟩ := ret_of_answered htest
  obtain ⟨hbalanced, hcalls⟩ := published_of_run hrun
  obtain ⟨m, hm, hfulfils⟩ := (hcalls 0 t ht).2 hpurpose hret
  exact ⟨tr, p, hrun, hbalanced, t, m, ht, hm, hfulfils⟩

end IotPanel.Device
