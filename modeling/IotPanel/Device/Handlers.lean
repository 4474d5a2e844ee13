import IotPanel.Device.Requests
import IotPanel.Responser.Routing

/-!
# Responses of devices

`ListenerService` validates a response and hands it to the method of `ResponserService` for its
kind.
-/

namespace IotPanel.Device

open Mqtt (Topic TopicUseCase)
open Responser (ResponseType CodedType EventListener pendingKey checkCached)
open DeviceService (validateSensorTypes assigned)

namespace ResponserService

/-- `deleteCache` of a response, which does nothing without a request id. -/
def deleteCache (payload : Json) : Prog Unit := do
  if (payload.get "requestId").truthy then
    cacheDel (pendingKey (payload.get "requestId"))

/-- The id that the discovery data gives the device. -/
def discoveredId (payload : Json) : Except Exception JsVal :=
  match payload.get "sensorData" with
  | some (.null) | none => .error (.error "Cannot destructure property 'deviceId'")
  | some sensorData => .ok (sensorData.get "deviceId")

def discoveredSensor (payload : Json) : Sensor :=
  let field (name : String) : JsVal := (payload.get "sensorData").bind fun d => d.get name
  { deviceId := field "deviceId", capabilities := field "capabilities",
    assignedFunctionality := field "assignedFunctionality", provisionState := .discovered,
    connectionState := field "connectionState", isActuator := false, isDeleted := false,
    lastReboot := .value (field "lastReboot"), lastUpgrade := .value (field "lastUpgrade"),
    configuration := field "configuration" }

def handleDiscoveryResponse (cfg : Config) (payload : Json) : Prog Unit := do
  match discoveredId payload with
  | .error e => throw e
  | .ok deviceId =>
    let storedDevice ← findSensor ⟨deviceId, none, none⟩
    if storedDevice.any fun s => s.isDeleted then
      updateSensors deviceId { SensorUpdate.none with isDeleted := some false }
    let base ← TopicService.createDeviceBaseTopic cfg (Responser.interpolate deviceId)
    if storedDevice.isNone then
      try
        saveSensor (discoveredSensor payload)
        subscribe [base.topic]
        let otherTopics ←
          TopicService.createAllTopicsForDevice cfg (Responser.interpolate deviceId)
        subscribe (otherTopics.map fun t => t.topic)
      catch _ => throw (.forbidden "Discovery data malformed")
    emit payload
    if !(payload.get "isBroadcast").truthy then
      deleteCache payload

def handleAssignResponse (payload : Json) : Prog Unit := do
  if !CodedType.assign.codeAccepted (payload.get "responseCode") then
    throw (.forbidden "Invalid Response")
  if !(payload.get "status").strictEq (some (.str "accepted")) then
    throw (.badRequest "Sensor functionality assign not accepted")
  validateSensorTypes (payload.get "deviceId") (payload.get "functionality")
  updateSensors (payload.get "deviceId") (assigned (payload.get "functionality"))
  deleteCache payload

def handleUpgradeResponse (payload : Json) : Prog Unit := do
  if !CodedType.upgrade.codeAccepted (payload.get "responseCode") then
    return ()
  if (payload.get "status").strictEq (some (.str "processing")) then
    return ()
  if (payload.get "status").strictEq (some (.str "success")) then
    updateSensors (payload.get "deviceId")
      { SensorUpdate.none with lastUpgrade := some (newDate (payload.get "timestamp")) }
    deleteCache payload

def handleDeviceHeartbeat (payload : Json) : Prog Unit := do
  if !CodedType.heartbeat.codeAccepted (payload.get "responseCode") then
    return ()
  match ← findSensor ⟨payload.get "deviceId", none, none⟩ with
  | none => throw (.forbidden "Device not found")
  | some _ =>
    updateSensors (payload.get "deviceId")
      { SensorUpdate.none with connectionState := some (payload.get "connectionState") }
    deleteCache payload

def handleRebootResponse (payload : Json) : Prog Unit := do
  if !CodedType.reboot.codeAccepted (payload.get "responseCode") then
    return ()
  updateSensors (payload.get "deviceId")
    { SensorUpdate.none with lastReboot := some (newDate (payload.get "timestamp")) }
  deleteCache payload

def handleTelemetryResponse (payload : Json) : Prog Unit := do
  if !CodedType.telemetry.codeAccepted (payload.get "responseCode") then
    throw (.badRequest "Invalid response")
  saveTelemetry ⟨payload.get "deviceId", payload.get "metric", payload.get "value",
    payload.get "meta"⟩
  deleteCache payload

def hardwareStatus (payload : Json) : HardwareStatus :=
  { userId := payload.get "userId", responseId := payload.get "responseId",
    deviceId := payload.get "deviceId", memoryUsage := payload.get "memoryUsage",
    cpuUsage := payload.get "cpuUsage", uptime := payload.get "uptime",
    timestamp := newDate (payload.get "timestamp"), internalTemp := payload.get "internalTemp",
    wifiRssi := payload.get "wifiRssi" }

def handleHardwareStatus (payload : Json) : Prog Unit := do
  if !CodedType.hardwareStatus.codeAccepted (payload.get "responseCode") then
    throw (.unauthorized "Invalid response")
  match ← findSensor ⟨payload.get "deviceId", some false, none⟩ with
  | none => throw (.notFound "Device not found")
  | some _ =>
    saveHardwareStatus (hardwareStatus payload)
    deleteCache payload

def handleAckMessage (_ : Json) : Prog Unit := throw (.error "Method not implemented.")

end ResponserService

namespace ListenerService

def listener : ResponseType → EventListener
  | .discovery => Responser.handleDiscoveryEvent
  | .assign => Responser.handleSensorAssignEvent
  | .ack => Responser.handleAckEvent
  | .upgrade => Responser.handleUpgradeEvent
  | .heartbeat => Responser.handleHeartbeatEvent
  | .reboot => Responser.handleRebootEvent
  | .telemetry => Responser.handleTelemetryEvent
  | .hardwareStatus => Responser.handleMetricsEvent

def transformAndValidate (t : ResponseType) (payload : Json) : Prog Json := do
  let time ← now
  if !ClassValidator.validate (t.dto time) payload then
    throw (.badRequest "Invalid payload")
  let cached ← cacheGet (pendingKey (payload.get "requestId"))
  match checkCached cached payload with
  | .ok dtoInstance => return dtoInstance
  | .error e => throw e

/-- With the replies of a cache that nobody writes to meanwhile, this is the validation of one
payload. -/
theorem run_transformAndValidate {time : ℕ} {cache : String → Option Json}
    {reply : (c : Command) → Except Exception c.Reply} (hnow : reply .now = .ok time)
    (hget : ∀ key, reply (.cacheGet key) = .ok (cache key)) (t : ResponseType) (payload : Json) :
    (transformAndValidate t payload).run reply =
      Responser.transformAndValidate time cache t payload := by
  show (Program.await Command.now _).run reply = _
  rw [Program.run, hnow, Responser.transformAndValidate]
  show (if _ then _ else _ : Prog Json).run reply = _
  cases hvalid : ClassValidator.validate (t.dto time) payload with
  | false => rfl
  | true =>
    show (Program.await (Command.cacheGet _) _).run reply = _
    rw [Program.run, hget]
    show (match checkCached (cache (pendingKey (payload.get "requestId"))) payload with
      | .ok dtoInstance => (pure dtoInstance : Prog Json)
      | .error e => throw e).run reply = _
    cases checkCached (cache (pendingKey (payload.get "requestId"))) payload <;> rfl

/-- The method of `ResponserService` for the kind. A discovery asks once more for a response
id. -/
def handler (cfg : Config) (t : ResponseType) (payload : Json) : Prog Unit :=
  match t with
  | .discovery => do
    if (payload.get "responseId").truthy then
      ResponserService.handleDiscoveryResponse cfg payload
  | .assign => ResponserService.handleAssignResponse payload
  | .ack => ResponserService.handleAckMessage payload
  | .upgrade => ResponserService.handleUpgradeResponse payload
  | .heartbeat => ResponserService.handleDeviceHeartbeat payload
  | .reboot => ResponserService.handleRebootResponse payload
  | .telemetry => ResponserService.handleTelemetryResponse payload
  | .hardwareStatus => ResponserService.handleHardwareStatus payload

/-- The method of `ListenerService` for the kind, called with a message. -/
def listen (cfg : Config) (t : ResponseType) (topic : String) (payload : Json) : Prog Unit := do
  if !(listener t).goesOn topic payload then
    return ()
  let validatedPayload ← transformAndValidate t payload
  handler cfg t validatedPayload

end ListenerService

end IotPanel.Device
