import IotPanel.Device.World

/-!
# Requests to devices

The operations of `DeviceService` that send a request, and what they use of `TopicService`.
-/

namespace IotPanel.Device

open Mqtt (Topic TopicUseCase)
open Responser (pendingKey)

/-! ### Topics -/

namespace TopicService

def getBroadcastTopic : Prog Topic := do
  match ← findTopic ⟨none, some "Mqtt_Broker", none, some .broadcast, some true⟩ with
  | some t => return t
  | none => throw (.notFound "Broadcast topic not found")

def getDeviceTopicByUseCase (deviceId : String) (useCase : TopicUseCase) : Prog Topic := do
  match ← findTopic ⟨none, some deviceId, none, some useCase, none⟩ with
  | some t => return t
  | none => throw (.notFound "Topic not found")

def storeTopic (cfg : Config) (deviceId topic : String) (useCase : TopicUseCase) : Prog Topic := do
  match ← findTopic ⟨none, some deviceId, some topic, some useCase, none⟩ with
  | some t => return t
  | none =>
    let record : Topic :=
      { brokerUrl := cfg.topics.mqttBrokerUrl, deviceId, topic, useCase, isSubscribed := true }
    saveTopic record
    return record

def createTopic (cfg : Config) (deviceId : String) (useCase : TopicUseCase) : Prog Topic := do
  let deviceTopic := cfg.topics.deviceTopic deviceId useCase
  match ← findTopic ⟨some cfg.topics.mqttBrokerUrl, some deviceId, some deviceTopic, none, none⟩ with
  | some t => return t
  | none => storeTopic cfg deviceId deviceTopic useCase

def createDeviceBaseTopic (cfg : Config) (deviceId : String) : Prog Topic :=
  storeTopic cfg deviceId (cfg.topics.baseTopic ++ "/" ++ deviceId) .deviceBase

def createAllTopicsForDevice (cfg : Config) (deviceId : String) : Prog (List Topic) := do
  let baseTopic ← createDeviceBaseTopic cfg deviceId
  let topics ← TopicUseCase.all.mapM (createTopic cfg deviceId)
  return baseTopic :: topics

end TopicService

/-! ### Requests -/

/-- What is read of the body of an assignment, and its fields, all of which are passed on. -/
structure PublishSensorFunctionalityDto where
  deviceId : String
  requestCode : String
  functionality : List String
  fields : List (String × Json)
  get_deviceId : (Json.obj fields).get "deviceId" = some (.str deviceId)
  get_requestCode : (Json.obj fields).get "requestCode" = some (.str requestCode)
  get_functionality : (Json.obj fields).get "functionality" =
    some (.arr (functionality.map .str))

structure PublishTelemetryDto where
  userId : String
  requestId : String
  requestCode : String
  deviceId : String
  timestamp : ℚ

def PublishTelemetryDto.json (dto : PublishTelemetryDto) : Json :=
  .obj [("userId", .str dto.userId), ("requestId", .str dto.requestId),
    ("requestCode", .str dto.requestCode), ("deviceId", .str dto.deviceId),
    ("timestamp", .num dto.timestamp)]

/-- The object that `JSON.stringify` and `JSON.parse` make: what is undefined is left out. -/
def jsonObject (fields : List (String × JsVal)) : Json :=
  .obj (fields.filterMap fun f => f.2.map fun v => (f.1, v))

/-- The request as it is kept for the comparison with a reply. -/
def pendingEntry (dto : Json) : Json :=
  jsonObject [("requestCode", dto.get "requestCode"), ("userId", dto.get "userId"),
    ("requestId", dto.get "requestId")]

/-- `setCache`, which does not wait for the cache. -/
def setCache (dto : Json) : Prog Unit :=
  cacheSetex (pendingKey (dto.get "requestId")) (pendingEntry dto)

namespace DeviceService

def discoveryPayload (userId requestId : String) (timestamp : ℕ) : Json :=
  .obj [("isBroadcast", .bool true), ("userId", .str userId), ("requestId", .str requestId),
    ("requestCode", .str "REQUEST_DISCOVERY"), ("timestamp", .num timestamp)]

def discoverDevicesBroadcast (cfg : Config) (userId : String) : Prog Unit := do
  let broadcastTopic ← TopicService.getBroadcastTopic
  let requestId ← uuid
  let timestamp ← now
  let payload := discoveryPayload userId requestId timestamp
  setCache payload
  let topic ← TopicService.storeTopic cfg "Mqtt_Broker"
    (broadcastTopic.topic ++ "/" ++ TopicUseCase.discovery.value) .broadcast
  publish true topic.topic payload
  subscribe [topic.topic]

def unicastPayload (userId deviceId requestId : String) (timestamp : ℕ) : Json :=
  .obj [("deviceId", .str deviceId), ("userId", .str userId), ("isBroadcast", .bool false),
    ("requestCode", .str "REQUEST_DISCOVERY"), ("requestId", .str requestId),
    ("timestamp", .num timestamp)]

/-- The topic of a unicast discovery is made of the row of the broadcast topic, which is an
object. -/
def discoverDeviceUnicast (cfg : Config) (userId deviceId : String) : Prog Unit := do
  let _ ← TopicService.getBroadcastTopic
  let requestId ← uuid
  let timestamp ← now
  let payload := unicastPayload userId deviceId requestId timestamp
  setCache payload
  let topic ← TopicService.storeTopic cfg "Mqtt_Broker"
    ("[object Object]" ++ "/" ++ TopicUseCase.discovery.value) .broadcast
  publish false topic.topic payload
  subscribe [topic.topic]

def hardwarePayload (deviceId : JsVal) (userId requestId : String) (timestamp : ℕ) : Json :=
  jsonObject [("deviceId", deviceId), ("userId", some (.str userId)),
    ("requestId", some (.str requestId)), ("requestCode", some (.str "REQUEST_HARDWARE_METRICS")),
    ("timestamp", some (.num timestamp))]

def getHardwareStatus (cfg : Config) (userId deviceId : String) : Prog Unit := do
  match ← findSensor ⟨some (.str deviceId), some false, none⟩ with
  | none => throw (.notFound ("Device with ID " ++ deviceId ++ " not found"))
  | some device =>
    try
      let requestId ← uuid
      let timestamp ← now
      let payload := hardwarePayload device.deviceId userId requestId timestamp
      let topic ← TopicService.createTopic cfg deviceId .hardwareStatus
      setCache payload
      publish true topic.topic payload
    catch _ => throw (.badRequest "Hardware status request failed")

/-- `capabilities.includes(v)`, on whatever a discovery has stored as the capabilities. -/
def includesCapability (capabilities : JsVal) (v : Json) : Except Exception Bool :=
  match capabilities with
  | some (.arr xs) => .ok (xs.any fun x => JsVal.strictEq (some x) (some v))
  | some (.str s) => .ok (decide (v.text.toList <:+: s.toList))
  | _ => .error (.error "capabilities.includes is not a function")

/-- The elements that are not among the capabilities. -/
def withoutCapability (capabilities : JsVal) : List Json → Except Exception (List Json)
  | [] => .ok []
  | v :: vs => do
    let known ← includesCapability capabilities v
    let rest ← withoutCapability capabilities vs
    return if known then rest else v :: rest

/-- The functionality that is not among the capabilities. -/
def invalidSensorTypes (capabilities : JsVal) : JsVal → Except Exception (List Json)
  | some (.arr functionality) => withoutCapability capabilities functionality
  | _ => .error (.error "functionality.filter is not a function")

def validateSensorTypes (deviceId functionality : JsVal) : Prog Unit := do
  match ← findSensor ⟨deviceId, some false, none⟩ with
  | none => throw (.notFound "Device not found")
  | some storedDevice =>
    match invalidSensorTypes storedDevice.capabilities functionality with
    | .error e => throw e
    | .ok [] => return ()
    | .ok (_ :: _) => throw (.unauthorized
        (Responser.interpolate deviceId ++ " functionality validation failed"))

def assigned (functionality : JsVal) : SensorUpdate :=
  { SensorUpdate.none with
    assignedFunctionality := some functionality, provisionState := some .assigned }

def assignPayload (dto : PublishSensorFunctionalityDto) (userId requestId : String) : Json :=
  (((Json.obj dto.fields).set "userId" (.str userId)).set "requestCode"
    (.str "REQUEST_ASSIGN_DEVICE_FUNCTION")).set "requestId" (.str requestId)

def AssignDeviceFunction (userId : String) (dto : PublishSensorFunctionalityDto) : Prog Unit := do
  if dto.requestCode ≠ "REQUEST_ASSIGN_DEVICE_FUNCTION" then
    throw (.badRequest "Invalid Request")
  let topic ← TopicService.getDeviceTopicByUseCase dto.deviceId .assignDeviceFunction
  validateSensorTypes (some (.str dto.deviceId)) (some (.arr (dto.functionality.map .str)))
  let requestId ← uuid
  let payload := assignPayload dto userId requestId
  setCache payload
  updateSensors (some (.str dto.deviceId)) (assigned (some (.arr (dto.functionality.map .str))))
  publish false topic.topic payload

/-- `getDeviceTelemetry` publishes the data it is given, and caches their class: an object with
none of the properties. -/
def getDeviceTelemetry (telemetry : PublishTelemetryDto) : Prog Unit := do
  if telemetry.requestCode ≠ "REQUEST_TELEMETRY_DATA" then
    throw (.badRequest "Invalid request")
  match ← findSensor ⟨some (.str telemetry.deviceId), some false, some .assigned⟩ with
  | none => throw (.notFound "Device not found")
  | some _ =>
    let topic ← TopicService.getDeviceTopicByUseCase telemetry.deviceId .telemetry
    setCache (.obj [])
    publish true topic.topic telemetry.json

end DeviceService

inductive RequestOp
  | discoverDevicesBroadcast (userId : String)
  | discoverDeviceUnicast (userId deviceId : String)
  | getHardwareStatus (userId deviceId : String)
  | AssignDeviceFunction (userId : String) (provisionData : PublishSensorFunctionalityDto)
  | getDeviceTelemetry (telemetry : PublishTelemetryDto)

namespace RequestOp

def program (cfg : Config) : RequestOp → Prog Unit
  | discoverDevicesBroadcast userId => DeviceService.discoverDevicesBroadcast cfg userId
  | discoverDeviceUnicast userId deviceId =>
    DeviceService.discoverDeviceUnicast cfg userId deviceId
  | getHardwareStatus userId deviceId => DeviceService.getHardwareStatus cfg userId deviceId
  | AssignDeviceFunction userId dto => DeviceService.AssignDeviceFunction userId dto
  | getDeviceTelemetry telemetry => DeviceService.getDeviceTelemetry telemetry

def userId : RequestOp → String
  | discoverDevicesBroadcast userId | discoverDeviceUnicast userId _ => userId
  | getHardwareStatus userId _ | AssignDeviceFunction userId _ => userId
  | getDeviceTelemetry telemetry => telemetry.userId

/-- The request code of what is sent. -/
def code : RequestOp → String
  | discoverDevicesBroadcast _ | discoverDeviceUnicast _ _ => "REQUEST_DISCOVERY"
  | getHardwareStatus _ _ => "REQUEST_HARDWARE_METRICS"
  | AssignDeviceFunction _ _ => "REQUEST_ASSIGN_DEVICE_FUNCTION"
  | getDeviceTelemetry _ => "REQUEST_TELEMETRY_DATA"

/-- The device that the request is for; a broadcast is for all of them. -/
def target : RequestOp → Option String
  | discoverDevicesBroadcast _ => none
  | discoverDeviceUnicast _ deviceId | getHardwareStatus _ deviceId => some deviceId
  | AssignDeviceFunction _ dto => some dto.deviceId
  | getDeviceTelemetry telemetry => some telemetry.deviceId

end RequestOp

end IotPanel.Device
