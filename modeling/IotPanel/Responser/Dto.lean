import IotPanel.Js.ClassValidator

/-!
# The response classes

What `transformAndValidate` tests of each kind of response. The decorators of the shared
properties are definitions of their own, as in the source.
-/

namespace IotPanel.Responser

open ClassValidator

/-- `IsValidTimestampMillis`, which accepts any number for the time being. -/
def isValidTimestampMillis : JsVal → Bool := isNumber

/-- `IsValidEpochMillis` at time `now`, with a minute of drift. -/
def isValidEpochMillis (now : ℕ) : JsVal → Bool
  | some (.num q) => decide (0 ≤ q) && decide (q ≤ now + 60000)
  | _ => false

def userIdProperty : Property := .required "userId" [isString, isNotEmpty]

def responseIdProperty : Property := .required "responseId" [isString, isNotEmpty]

def responseCodeProperty : Property := .required "responseCode" [isString, isNotEmpty]

def requestIdProperty : Property := .required "requestId" [isString, isNotEmpty]

def deviceIdProperty : Property := .required "deviceId" [isString, isNotEmpty]

def timeStampProperty : Property := .required "timestamp" [isValidTimestampMillis, isNotEmpty]

def uptimeProperty (now : ℕ) : Property := .required "uptime" [isValidEpochMillis now]

def requiredStringApiProperty (name : String) : Property := .required name [isString, isNotEmpty]

def requiredNumberApiProperty (name : String) : Property := .required name [isNumber, isNotEmpty]

def optionalStringApiProperty (name : String) : Property := .isOptional name [isString]

def optionalNumberApiProperty (name : String) : Property := .isOptional name [isNumber]

def ackStatus : List String := ["accepted", "rejected", "access_denied"]

def upgradeStatus : List String := ["success", "failure", "processing", "scheduled"]

def rebootStatus : List String := ["success", "failure", "scheduled"]

def connectionState : List String := ["online", "offline", "error"]

def telemetryMetric : List String :=
  ["temperature", "humidity", "pressure", "airQuality", "co2", "voc", "noise", "light", "voltage",
    "current", "power", "powerFactor", "energyConsumption", "waterFlow", "waterLevel", "gasLeak",
    "gasFlow", "accelerometer", "gyroscope", "magnetometer", "vibration", "tilt", "geoLatitude",
    "geoLongitude", "rpm", "torque", "batteryLevel", "heaterState", "motorState", "smoke", "flame",
    "motion", "doorState", "windowState", "soilMoisture", "soilTemperature", "ph", "ec"]

def deviceLocationDto : List Property :=
  [optionalStringApiProperty "site", optionalNumberApiProperty "floor",
    optionalStringApiProperty "unit"]

def telemetryMetaDto : List Property :=
  [optionalStringApiProperty "firmwareVersion",
    .isOptional "location" [validateNested deviceLocationDto],
    optionalStringApiProperty "comment"]

def discoveryResponseDto (now : ℕ) : List Property :=
  [userIdProperty, responseIdProperty, responseCodeProperty, requestIdProperty, timeStampProperty,
    .required "isBroadcast" [isBoolean, isNotEmpty], .isOptional "sensorData" [isObject],
    uptimeProperty now, .isOptional "additionalInfo" [isObject]]

def sensorFunctionalityResponseDto : List Property :=
  [userIdProperty, responseIdProperty, responseCodeProperty, requestIdProperty, deviceIdProperty,
    .required "functionality" [isArray, isNotEmpty], .required "status" [isEnum ackStatus]]

def ackResponseDto : List Property :=
  [userIdProperty, responseIdProperty, responseCodeProperty, requestIdProperty, deviceIdProperty,
    timeStampProperty, .required "ackStatus" [isEnum ackStatus, isNotEmpty],
    requiredStringApiProperty "details"]

def fwUpgradeResponseDto : List Property :=
  [userIdProperty, responseIdProperty, responseCodeProperty, requestIdProperty, deviceIdProperty,
    timeStampProperty, .required "status" [isEnum upgradeStatus], .required "progress" [isNumber]]

def heartbeatDto (now : ℕ) : List Property :=
  [userIdProperty, responseIdProperty, responseCodeProperty, requestIdProperty, deviceIdProperty,
    timeStampProperty, .required "connectionState" [isEnum connectionState], uptimeProperty now,
    requiredNumberApiProperty "wifiRssi"]

def deviceRebootResponseDto : List Property :=
  [userIdProperty, responseIdProperty, responseCodeProperty, requestIdProperty, deviceIdProperty,
    timeStampProperty, .required "status" [isEnum rebootStatus],
    optionalStringApiProperty "message"]

def telemetryResponseDto : List Property :=
  [userIdProperty, responseIdProperty, responseCodeProperty, requestIdProperty, deviceIdProperty,
    timeStampProperty, .required "metric" [isEnum telemetryMetric],
    requiredNumberApiProperty "value",
    .isOptional "meta" [isObject, validateNested telemetryMetaDto]]

def hardwareStatusResponseDto (now : ℕ) : List Property :=
  [userIdProperty, responseIdProperty, responseCodeProperty, requestIdProperty, deviceIdProperty,
    timeStampProperty, requiredNumberApiProperty "memoryUsage",
    requiredNumberApiProperty "cpuUsage", uptimeProperty now,
    requiredNumberApiProperty "internalTemp", requiredNumberApiProperty "wifiRssi"]

end IotPanel.Responser
