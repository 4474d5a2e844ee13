import IotPanel.Device.Handlers

/-!
# The devices that are stored

The methods of `DeviceService` that list, read, configure and delete sensors. A sensor that is
deleted keeps its row, with a mark.
-/

namespace IotPanel.Device

open Mqtt (TopicUseCase)

/-- What a search asks for. An empty id is no id. -/
structure QueryDeviceDto where
  deviceId : Option String
  provisionState : Option ProvisionState
  functionality : Option (List Json)

/-- The id and the fields of a configuration, all of which are passed on. -/
structure SensorConfigDto where
  deviceId : String
  fields : List (String × Json)

def SensorConfigDto.json (dto : SensorConfigDto) : Json := .obj dto.fields

namespace DeviceService

def getAllSensors : Prog (List Sensor) := do
  let devices ← findSensors ⟨none, some false, none, none⟩
  if devices = [] then throw (.notFound "There is no device yet.")
  return devices

def filterOf (query : QueryDeviceDto) : SensorFilter :=
  { deviceId := (query.deviceId.filter fun d => d ≠ "").map fun d => some (.str d)
    isDeleted := none
    provisionState := query.provisionState
    assignedFunctionality := query.functionality }

def querySensors (query : QueryDeviceDto) : Prog (List Sensor) := findSensors (filterOf query)

def getSingleSensor (deviceId : String) : Prog Sensor := do
  match ← findSensor ⟨some (.str deviceId), some false, none⟩ with
  | some device => return device
  | none => throw (.notFound ("Device with ID " ++ deviceId ++ " not found"))

def getUnassignedSensor : Prog (List Sensor) := do
  let sensors ← findSensors ⟨none, some false, some .discovered, none⟩
  if sensors = [] then throw (.notFound "No unassigned devices found")
  return sensors

def deleteSensor (deviceId : String) : Prog Unit := do
  match ← findSensor ⟨some (.str deviceId), some false, none⟩ with
  | none => throw (.notFound ("Device with ID " ++ deviceId ++ " not found"))
  | some _ => updateSensors (some (.str deviceId)) { SensorUpdate.none with isDeleted := some true }

def getDeviceConfiguration (deviceId : String) : Prog JsVal := do
  let storedDevice ← findSensor ⟨some (.str deviceId), some false, none⟩
  let configuration : JsVal := storedDevice.bind fun s => s.configuration
  if !configuration.truthy then throw (.notFound "Device not Found")
  return configuration

def setDeviceConfiguration (configData : SensorConfigDto) : Prog Unit := do
  match ← findSensor ⟨some (.str configData.deviceId), some false, none⟩ with
  | none => throw (.notFound ("Device with id " ++ configData.deviceId ++ " not found"))
  | some _ =>
    let topic ← TopicService.getDeviceTopicByUseCase configData.deviceId .setSensorConfiguration
    publish true topic.topic configData.json
    updateSensors (some (.str configData.deviceId))
      { SensorUpdate.none with configuration := some (some configData.json) }

end DeviceService

end IotPanel.Device
