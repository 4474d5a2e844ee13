import IotPanel.Device.Connection
import IotPanel.Device.Protocol
import IotPanel.Device.Inventory

/-!
# What the calls of the services do, command by command

Every call that writes sensors or topics, with what is known of it after each of its commands and
which commands it may issue then. The invariants of the stores are shown from these protocols.
-/

namespace IotPanel.Device

open Mqtt (Topic TopicUseCase)
open ResponserService (discoveredId discoveredSensor)
open Program

inductive Call
  | discoveryResponse (payload : Json)
  | assignResponse (payload : Json)
  | deviceHeartbeat (payload : Json)
  | assignDeviceFunction (userId : String) (provisionData : PublishSensorFunctionalityDto)
  | setDeviceConfiguration (configData : SensorConfigDto)
  | deleteSensor (deviceId : String)
  | createTopic (deviceId : String) (useCase : TopicUseCase)
  | storeTopic (deviceId topic : String) (useCase : TopicUseCase)
  | subscribe (topics : List String)
  | unsubscribe (topic : String)
  | discoverDevicesBroadcast (userId : String)
  | discoverDeviceUnicast (userId deviceId : String)
  | getHardwareStatus (userId deviceId : String)
  | initConnection
  | onConnect

namespace Call

def program (cfg : Config) : Call → Prog Unit
  | discoveryResponse payload => ResponserService.handleDiscoveryResponse cfg payload
  | assignResponse payload => ResponserService.handleAssignResponse payload
  | deviceHeartbeat payload => ResponserService.handleDeviceHeartbeat payload
  | assignDeviceFunction userId dto => DeviceService.AssignDeviceFunction userId dto
  | setDeviceConfiguration config => DeviceService.setDeviceConfiguration config
  | deleteSensor deviceId => DeviceService.deleteSensor deviceId
  | createTopic deviceId useCase => do
    let _ ← TopicService.createTopic cfg deviceId useCase
  | storeTopic deviceId topic useCase => do
    let _ ← TopicService.storeTopic cfg deviceId topic useCase
  | subscribe topics => Device.subscribe topics
  | unsubscribe topic => Device.unsubscribe topic
  | discoverDevicesBroadcast userId => DeviceService.discoverDevicesBroadcast cfg userId
  | discoverDeviceUnicast userId deviceId => DeviceService.discoverDeviceUnicast cfg userId deviceId
  | getHardwareStatus userId deviceId => DeviceService.getHardwareStatus cfg userId deviceId
  | initConnection => MqttClientService.initConnection
  | onConnect => MqttClientService.onConnect cfg

/-- The device whose row the call looks up and writes. -/
def deviceId : Call → JsVal
  | discoveryResponse payload =>
    match discoveredId payload with
    | .ok d => d
    | .error _ => none
  | assignResponse payload | deviceHeartbeat payload => payload.get "deviceId"
  | assignDeviceFunction _ dto => some (.str dto.deviceId)
  | setDeviceConfiguration config => some (.str config.deviceId)
  | deleteSensor d | getHardwareStatus _ d => some (.str d)
  | _ => none

theorem deviceId_of_discovered {payload : Json} {deviceId : JsVal}
    (h : discoveredId payload = .ok deviceId) :
    (discoveryResponse payload).deviceId = deviceId := by
  rw [Call.deviceId, h]

/-- How the call looks up its sensor. -/
def lookup (k : Call) : SensorQuery :=
  match k with
  | discoveryResponse _ | deviceHeartbeat _ => ⟨k.deviceId, none, none⟩
  | _ => ⟨k.deviceId, some false, none⟩

/-- The functionality that the call assigns. -/
def functionality : Call → JsVal
  | assignResponse payload => payload.get "functionality"
  | assignDeviceFunction _ dto => some (.arr (dto.functionality.map .str))
  | _ => none

end Call

/-- What is known of a call: what its last lookup of a sensor has found, the topic that it has
looked for in vain and stores next, the lookups of topics that have been answered with a row, the
topics that it has stored and will subscribe to, whether it is yet to read which subscriptions it
restores, and whether a command has failed while there was something to subscribe to. -/
structure Phase where
  device : Option (Option Sensor)
  topic : Option Topic
  known : List (TopicQuery × Topic)
  owed : List String
  restoring : Bool
  failed : Bool

namespace Phase

def fresh : Phase := ⟨none, none, [], [], false, false⟩

/-- There is nothing left to subscribe to. -/
def Clear (q : Phase) : Prop := q.owed = [] ∧ q.restoring = false

def Settled (q : Phase) : Prop := q.failed = true ∨ q.Clear

/-- What is known after a command that has failed: a row that was to be stored is not stored by
this call any more. -/
def fail (q : Phase) (c : Command) : Phase :=
  { q with
    device := if c matches .saveSensor _ then none else q.device
    topic := if c matches .saveTopic _ then none else q.topic
    failed := q.failed || q.restoring || !q.owed.isEmpty }

/-- A failure only forgets. -/
theorem device_of_fail {q : Phase} {c : Command} {found : Option Sensor}
    (h : (q.fail c).device = some found) : q.device = some found := by
  change (if _ then none else q.device) = some found at h
  split at h
  · cases h
  · exact h

theorem topic_of_fail {q : Phase} {c : Command} {t : Topic}
    (h : (q.fail c).topic = some t) : q.topic = some t := by
  change (if _ then none else q.topic) = some t at h
  split at h
  · cases h
  · exact h

/-- A row of this name has been found or stored. -/
def Knows (q : Phase) (deviceId topic : String) : Prop :=
  ∃ f ∈ q.known, f.1.deviceId = some deviceId ∧ f.1.topic = some topic

end Phase

/-- The lookup by device, name and use case. -/
def nameQuery (t : Topic) : TopicQuery :=
  ⟨none, some t.deviceId, some t.topic, some t.useCase, none⟩

/-- The row that is stored when a lookup by device, name and use case finds nothing. -/
def TopicQuery.record (cfg : Config) : TopicQuery → Option Topic
  | ⟨none, some deviceId, some topic, some useCase, none⟩ =>
    some { brokerUrl := cfg.topics.mqttBrokerUrl, deviceId, topic, useCase, isSubscribed := true }
  | _ => none

def broadcastQuery : TopicQuery := ⟨none, some "Mqtt_Broker", none, some .broadcast, some true⟩

namespace Call

/-- The call goes on to subscribe to the topics that it stores. -/
def subscribes (k : Call) (q : Phase) : Bool :=
  match k, q.device with
  | discoveryResponse _, some (some _) => false
  | discoveryResponse _, _ => true
  | discoverDevicesBroadcast _, _ | discoverDeviceUnicast _ _, _ | onConnect, _ => true
  | _, _ => false

/-- What is known after the answer to a command. -/
def learn (cfg : Config) (k : Call) (q : Phase) : (c : Command) → c.Reply → Phase
  | .findSensor _, found => { q with device := some found }
  | .findTopic f, some t => { q with topic := none, known := (f, t) :: q.known }
  | .findTopic f, none => { q with topic := f.record cfg }
  | .findTopics _, ts => { q with owed := ts.map fun t => t.topic, restoring := false }
  | .saveSensor _, _ => { q with device := none }
  | .saveTopic t, _ =>
    { q with
      topic := none, known := (nameQuery t, t) :: q.known
      owed := if k.subscribes q then t.topic :: q.owed else q.owed }
  | .subscribe ts, _ => { q with owed := q.owed.filter fun t => t ∉ ts }
  | .setConnected b, _ => { q with restoring := b }
  | _, _ => q

def track (cfg : Config) (k : Call) (q : Phase) (c : Command) : Except Exception c.Reply → Phase
  | .ok a => k.learn cfg q c a
  | .error _ => q.fail c

/-- The update assigns nothing, or what the capabilities of the sensor that was looked up allow. -/
def MaySet (k : Call) (q : Phase) (u : SensorUpdate) : Prop :=
  u.assignedFunctionality = none ∨
    u.assignedFunctionality = some k.functionality ∧ ∃ row, q.device = some (some row) ∧
      DeviceService.invalidSensorTypes row.capabilities k.functionality = .ok []

/-- Where the name of a topic that the call stores comes from. -/
def Names (cfg : Config) (k : Call) (q : Phase) (t : Topic) : Prop :=
  match k with
  | storeTopic deviceId topic useCase =>
    t.deviceId = deviceId ∧ t.topic = topic ∧ t.useCase = useCase
  | discoverDevicesBroadcast _ => t.deviceId = "Mqtt_Broker" ∧ t.useCase = .broadcast ∧
      ∃ b, (broadcastQuery, b) ∈ q.known ∧ t.topic = b.topic ++ "/" ++ TopicUseCase.discovery.value
  | discoverDeviceUnicast _ _ => t.deviceId = "Mqtt_Broker" ∧ t.useCase = .broadcast ∧
      t.topic = "[object Object]" ++ "/" ++ TopicUseCase.discovery.value
  | _ => (t.topic = cfg.topics.baseTopic ++ "/" ++ t.deviceId ∧ t.useCase = .deviceBase) ∨
      t.topic = cfg.topics.deviceTopic t.deviceId t.useCase

def allows (cfg : Config) (k : Call) (q : Phase) : Command → Prop
  | .findSensor f => f = k.lookup
  | .updateSensors deviceId u => deviceId = k.deviceId ∧ k.MaySet q u
  | .saveSensor s => q.device = some none ∧
      ∃ payload, k = discoveryResponse payload ∧ s = discoveredSensor payload
  | .saveTopic t => q.topic = some t ∧ k.Names cfg q t
  | .findTopics f => k = onConnect ∧ f = subscribedTopics
  | .setConnected b => k = onConnect ∧ q = .fresh ∧ b = true
  | .connectClient => k = initConnection
  | .subscribe ts => k = subscribe ts ∨ ∀ x ∈ q.owed, x ∈ ts
  | .unsubscribe topic => k = unsubscribe topic
  | .saveTelemetry _ | .saveHardwareStatus _ | .sendTopicUpdate _ _ | .endClient => False
  | .findSensors _ => False
  | _ => True

def protocol (cfg : Config) (k : Call) : Protocol Phase Command Command.Reply Exception where
  allowed := k.allows cfg
  next := k.track cfg

/-- A call is over with nothing left to subscribe to, unless a command has failed. A discovery that
returns has found the sensor, or has found or stored all topics of the device. -/
def ends (cfg : Config) (k : Call) (r : Except Exception Unit) (q : Phase) : Prop :=
  q.Settled ∧ ∀ payload, k = discoveryResponse payload → r = .ok () →
    let name := Responser.interpolate k.deviceId
    q.Knows name (cfg.topics.baseTopic ++ "/" ++ name) ∧
      ((∃ row, q.device = some (some row)) ∨
        ∀ useCase, q.Knows name (cfg.topics.deviceTopic name useCase))

end Call

end IotPanel.Device
