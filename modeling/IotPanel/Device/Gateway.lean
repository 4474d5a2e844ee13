import IotPanel.Device.Inventory
import IotPanel.Device.Protocol
import IotPanel.Users.Http

/-!
# The ways to the device services

A client reaches `DeviceService` by the routes of `DeviceController`, behind the guards, or by
messages to the socket of `GatewayService`, which has no guards.
-/

namespace IotPanel.Device

open Mqtt (TopicUseCase)
open Session (SessionData)
open Users (Role includes)

/-! ### Requests in the name of whatever a client has sent -/

namespace DeviceService

/-- `discoverDevicesBroadcast`, when the id of the user need not be a text. -/
def broadcastFor (cfg : Config) (userId : JsVal) : Prog Unit := do
  let broadcastTopic ← TopicService.getBroadcastTopic
  let requestId ← uuid
  let timestamp ← now
  let payload := jsonObject [("isBroadcast", some (.bool true)), ("userId", userId),
    ("requestId", some (.str requestId)), ("requestCode", some (.str "REQUEST_DISCOVERY")),
    ("timestamp", some (.num timestamp))]
  setCache payload
  let topic ← TopicService.storeTopic cfg "Mqtt_Broker"
    (broadcastTopic.topic ++ "/" ++ TopicUseCase.discovery.value) .broadcast
  publish true topic.topic payload
  subscribe [topic.topic]

/-- `discoverDeviceUnicast`, when the ids need not be texts. -/
def unicastFor (cfg : Config) (userId deviceId : JsVal) : Prog Unit := do
  let _ ← TopicService.getBroadcastTopic
  let requestId ← uuid
  let timestamp ← now
  let payload := jsonObject [("deviceId", deviceId), ("userId", userId),
    ("isBroadcast", some (.bool false)), ("requestCode", some (.str "REQUEST_DISCOVERY")),
    ("requestId", some (.str requestId)), ("timestamp", some (.num timestamp))]
  setCache payload
  let topic ← TopicService.storeTopic cfg "Mqtt_Broker"
    ("[object Object]" ++ "/" ++ TopicUseCase.discovery.value) .broadcast
  publish false topic.topic payload
  subscribe [topic.topic]

theorem broadcastFor_eq (cfg : Config) (userId : JsVal) :
    broadcastFor cfg userId = discoverOn cfg true
      (fun broadcastTopic => broadcastTopic.topic ++ "/" ++ TopicUseCase.discovery.value)
      (fun requestId timestamp => jsonObject [("isBroadcast", some (.bool true)),
        ("userId", userId), ("requestId", some (.str requestId)),
        ("requestCode", some (.str "REQUEST_DISCOVERY")),
        ("timestamp", some (.num timestamp))]) := rfl

theorem unicastFor_eq (cfg : Config) (userId deviceId : JsVal) :
    unicastFor cfg userId deviceId = discoverOn cfg false
      (fun _ => "[object Object]" ++ "/" ++ TopicUseCase.discovery.value)
      (fun requestId timestamp => jsonObject [("deviceId", deviceId), ("userId", userId),
        ("isBroadcast", some (.bool false)), ("requestCode", some (.str "REQUEST_DISCOVERY")),
        ("requestId", some (.str requestId)), ("timestamp", some (.num timestamp))]) := rfl

theorem broadcastFor_str (cfg : Config) (userId : String) :
    broadcastFor cfg (some (.str userId)) = discoverDevicesBroadcast cfg userId := rfl

theorem unicastFor_str (cfg : Config) (userId deviceId : String) :
    unicastFor cfg (some (.str userId)) (some (.str deviceId)) =
      discoverDeviceUnicast cfg userId deviceId := rfl

def getDeviceStatus (deviceId : String) : Prog Unit := do
  match ← findSensor ⟨some (.str deviceId), none, none⟩ with
  | none => throw (.notFound ("Device with ID " ++ deviceId ++ " not found"))
  | some _ => return ()

end DeviceService

/-! ### The controller -/

inductive DeviceRoute
  | getAllSensors
  | getSingleSensor (id : String)
  | querySensors (query : QueryDeviceDto)
  | discoverDevicesBroadcast
  | discoverDeviceUnicast (id : String)
  | getUnassignedSensor
  | getHardwareStatus (id : String)
  | provisionDevice (body : PublishSensorFunctionalityDto)
  | deleteSensor (id : String)
  | getDeviceConfiguration (id : String)
  | reconfigureDevice (configData : SensorConfigDto)
  | getHistory (id : String)
  | controlDevice (id : String)
  | getDeviceStatus (id : String)
  | getDeviceTelemetry (telemetry : PublishTelemetryDto)

namespace DeviceRoute

/-- The roles that `@Roles` demands. -/
def roles : DeviceRoute → List Role
  | provisionDevice _ | deleteSensor _ => [.admin, .superAdmin]
  | getHistory _ | getDeviceStatus _ | getDeviceTelemetry _ =>
    [.viewer, .engineer, .admin, .superAdmin]
  | _ => [.engineer, .admin, .superAdmin]

/-- The handler of the route, for the user of the session. What it answers is left out. -/
def handler (cfg : Config) (userId : String) : DeviceRoute → Prog Unit
  | getAllSensors => do let _ ← DeviceService.getAllSensors
  | getSingleSensor id => do let _ ← DeviceService.getSingleSensor id
  | querySensors query => do let _ ← DeviceService.querySensors query
  | discoverDevicesBroadcast => DeviceService.discoverDevicesBroadcast cfg userId
  | discoverDeviceUnicast id => DeviceService.discoverDeviceUnicast cfg userId id
  | getUnassignedSensor => do let _ ← DeviceService.getUnassignedSensor
  | getHardwareStatus id => DeviceService.getHardwareStatus cfg userId id
  | provisionDevice body => DeviceService.AssignDeviceFunction userId body
  | deleteSensor id => DeviceService.deleteSensor id
  | getDeviceConfiguration id => do let _ ← DeviceService.getDeviceConfiguration id
  | reconfigureDevice configData => DeviceService.setDeviceConfiguration configData
  | getHistory _ | controlDevice _ => return ()
  | getDeviceStatus id => DeviceService.getDeviceStatus id
  | getDeviceTelemetry telemetry => DeviceService.getDeviceTelemetry telemetry

end DeviceRoute

/-- What the guards find for a request with the cookie: the session, or why it is refused.
`session` is what the session store has under the cookie. -/
def guards (roles : List Role) (cookie : Option String) (session : Option SessionData) :
    Except Exception SessionData :=
  match cookie, session with
  | none, _ | some "", _ => .error (.unauthorized "Session not found. Please login.")
  | some _, none => .error (.unauthorized "Session expired or invalid. Please login again.")
  | some _, some d =>
    if d.roles = [] then .error (.forbidden "Access denied - no user roles found")
    else if roles.any fun r => includes d.roles r.json then .ok d
    else .error (.forbidden
      ("Access denied. Required roles: " ++ ", ".intercalate (roles.map Role.value) ++
        ". Your roles: " ++ Json.joinText ", " d.roles))

/-! ### The socket -/

/-- The messages that `GatewayService` handles, with what came as their payload. -/
inductive SocketMessage
  | discoveryBroadcast (payload : JsVal)
  | discoveryUnicast (payload : JsVal)
  | unassignedDevicesQuery
  | sensorProvision (payload : Option PublishSensorFunctionalityDto)
  | sensorsConfiguration

namespace GatewayService

def handleDiscoveryBroadcast (cfg : Config) : JsVal → Prog Unit
  | none | some .null => throw (.error "Cannot read properties of undefined (reading 'userId')")
  | some payload => DeviceService.broadcastFor cfg (payload.get "userId")

def handleDiscoveryUnicast (cfg : Config) : JsVal → Prog Unit
  | none | some .null => throw (.error "Cannot destructure property 'deviceId'")
  | some payload =>
    DeviceService.unicastFor cfg (payload.get "userId") (payload.get "deviceId")

/-- A socket has no user, so that `AssignDeviceFunction` is called without one and fails where it
reads his id. -/
def handleSensorProvision : Option PublishSensorFunctionalityDto → Prog Unit
  | none => throw (.error "Cannot destructure property 'deviceId'")
  | some dto => do
    if dto.requestCode ≠ "REQUEST_ASSIGN_DEVICE_FUNCTION" then
      throw (.badRequest "Invalid Request")
    let _ ← TopicService.getDeviceTopicByUseCase dto.deviceId .assignDeviceFunction
    DeviceService.validateSensorTypes (some (.str dto.deviceId))
      (some (.arr (dto.functionality.map .str)))
    throw (.error "Cannot read properties of null (reading 'userId')")

end GatewayService

/-- The handler of a message. What is sent back to the clients is left out. -/
def SocketMessage.handler (cfg : Config) : SocketMessage → Prog Unit
  | discoveryBroadcast payload => GatewayService.handleDiscoveryBroadcast cfg payload
  | discoveryUnicast payload => GatewayService.handleDiscoveryUnicast cfg payload
  | unassignedDevicesQuery => do let _ ← DeviceService.getUnassignedSensor
  | sensorProvision payload => GatewayService.handleSensorProvision payload
  | sensorsConfiguration => do let _ ← DeviceService.getAllSensors

/-! ### What arrives -/

inductive Entry
  | http (route : DeviceRoute)
  | socket (message : SocketMessage)

/-- A request or a message, with the cookie of its client and the live session under the cookie,
when it has one. -/
structure Arrival where
  cookie : Option String
  session : Option SessionData
  entry : Entry

def Arrival.program (cfg : Config) (a : Arrival) : Prog Unit :=
  match a.entry with
  | .http route =>
    match guards route.roles a.cookie a.session with
    | .error e => throw e
    | .ok d => route.handler cfg d.userId
  | .socket message => message.handler cfg

end IotPanel.Device
