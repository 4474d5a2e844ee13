import IotPanel.Lib.Expiring
import IotPanel.Lib.Program
import IotPanel.Mqtt.Topic
import IotPanel.Responser.Validation

/-!
# What the device services share

The repositories of devices and topics, the cache of pending requests and the broker, with the
commands that the services issue. A command that is not awaited takes effect later: its write
is in flight until then.
-/

namespace IotPanel.Device

open Mqtt (Topic TopicUseCase)

inductive ProvisionState
  | discovered
  | unassigned
  | assigned
  | active
  | error
  deriving DecidableEq, Repr

/-- What a column for dates holds: a value as a discovery brought it, or a date, in milliseconds
unless it is an invalid one. -/
inductive DateColumn
  | value (v : JsVal)
  | date (time : Option ℤ)

/-- `new Date(time)` of the number that a timestamp is validated to be: a fraction of a
millisecond is dropped, and what is too far off makes an invalid date. A value of another type,
which no validated response has, stands for the date that is made of it. -/
def newDate : JsVal → DateColumn
  | some (.num time) =>
    .date (if |time| ≤ 8640000000000000 then some (time.num.tdiv time.den) else none)
  | v => .value v

/-- The columns of a sensor that these services read or write. What comes out of the data of a
discovery is stored unchecked. -/
structure Sensor where
  deviceId : JsVal
  capabilities : JsVal
  assignedFunctionality : JsVal
  provisionState : ProvisionState
  connectionState : JsVal
  isActuator : Bool
  isDeleted : Bool
  lastReboot : DateColumn
  lastUpgrade : DateColumn
  configuration : JsVal

structure SensorQuery where
  deviceId : JsVal
  isDeleted : Option Bool
  provisionState : Option ProvisionState

/-- The columns that a search for sensors fixes. -/
structure SensorFilter where
  deviceId : Option JsVal
  isDeleted : Option Bool
  provisionState : Option ProvisionState
  assignedFunctionality : Option (List Json)

/-- The columns that an update sets. -/
structure SensorUpdate where
  isDeleted : Option Bool
  provisionState : Option ProvisionState
  assignedFunctionality : Option JsVal
  connectionState : Option JsVal
  lastReboot : Option DateColumn
  lastUpgrade : Option DateColumn
  configuration : Option JsVal

def SensorUpdate.none : SensorUpdate := ⟨.none, .none, .none, .none, .none, .none, .none⟩

def SensorUpdate.apply (u : SensorUpdate) (s : Sensor) : Sensor :=
  { s with
    isDeleted := u.isDeleted.getD s.isDeleted
    provisionState := u.provisionState.getD s.provisionState
    assignedFunctionality := u.assignedFunctionality.getD s.assignedFunctionality
    connectionState := u.connectionState.getD s.connectionState
    lastReboot := u.lastReboot.getD s.lastReboot
    lastUpgrade := u.lastUpgrade.getD s.lastUpgrade
    configuration := u.configuration.getD s.configuration }

structure Telemetry where
  deviceId : JsVal
  metric : JsVal
  value : JsVal
  metaData : JsVal

structure HardwareStatus where
  userId : JsVal
  responseId : JsVal
  deviceId : JsVal
  memoryUsage : JsVal
  cpuUsage : JsVal
  uptime : JsVal
  timestamp : DateColumn
  internalTemp : JsVal
  wifiRssi : JsVal

/-- The columns that a query for a topic fixes. -/
structure TopicQuery where
  brokerUrl : Option String
  deviceId : Option String
  topic : Option String
  useCase : Option TopicUseCase
  isSubscribed : Option Bool

def TopicQuery.accepts (q : TopicQuery) (t : Topic) : Bool :=
  q.brokerUrl.all (· == t.brokerUrl) && q.deviceId.all (· == t.deviceId) &&
    q.topic.all (· == t.topic) && q.useCase.all (fun u => decide (u = t.useCase)) &&
    q.isSubscribed.all (· == t.isSubscribed)

/-- A command `SETEX` that has been sent, with the configured lifetime. -/
structure Setex where
  key : String
  value : Json

inductive Command
  | now
  | uuid
  | cacheGet (key : String)
  | cacheDel (key : String)
  | cacheSetex (key : String) (value : Json)
  | findSensor (q : SensorQuery)
  | findSensors (q : SensorFilter)
  | updateSensors (deviceId : JsVal) (u : SensorUpdate)
  | saveSensor (s : Sensor)
  | saveTelemetry (t : Telemetry)
  | saveHardwareStatus (h : HardwareStatus)
  | findTopic (q : TopicQuery)
  | findTopics (q : TopicQuery)
  | saveTopic (t : Topic)
  | sendTopicUpdate (topic : String) (isSubscribed : Bool)
  | publish (awaited : Bool) (topic : String) (payload : Json)
  | subscribe (topics : List String)
  | unsubscribe (topic : String)
  | setConnected (b : Bool)
  | connectClient
  | endClient
  | emit (payload : Json)

namespace Command

abbrev Reply : Command → Type
  | now => ℕ
  | uuid => String
  | cacheGet _ => Option Json
  | findSensor _ => Option Sensor
  | findSensors _ => List Sensor
  | findTopic _ => Option Topic
  | findTopics _ => List Topic
  | _ => Unit

/-- The commands whose failure the program gets to see. -/
def fallible : Command → Bool
  | now | uuid | cacheSetex _ _ | saveTelemetry _ | emit _ => false
  | sendTopicUpdate _ _ | setConnected _ => false
  | publish awaited _ _ => awaited
  | _ => true

/-- The device whose sensor rows or records the command writes. -/
def touches : Command → Option JsVal
  | updateSensors deviceId _ => some deviceId
  | saveSensor s => some s.deviceId
  | saveTelemetry t => some t.deviceId
  | saveHardwareStatus h => some h.deviceId
  | _ => none

end Command

abbrev Prog := Program Command Command.Reply Exception

/-! ### The commands as programs -/

def now : Prog ℕ := .perform Command.now

def uuid : Prog String := .perform Command.uuid

def cacheGet (key : String) : Prog (Option Json) := .perform (Command.cacheGet key)

def cacheDel (key : String) : Prog Unit := .perform (Command.cacheDel key)

def cacheSetex (key : String) (value : Json) : Prog Unit := .perform (Command.cacheSetex key value)

def findSensor (q : SensorQuery) : Prog (Option Sensor) := .perform (Command.findSensor q)

def findSensors (q : SensorFilter) : Prog (List Sensor) := .perform (Command.findSensors q)

def updateSensors (deviceId : JsVal) (u : SensorUpdate) : Prog Unit :=
  .perform (Command.updateSensors deviceId u)

def saveSensor (s : Sensor) : Prog Unit := .perform (Command.saveSensor s)

def saveTelemetry (t : Telemetry) : Prog Unit := .perform (Command.saveTelemetry t)

def saveHardwareStatus (h : HardwareStatus) : Prog Unit := .perform (Command.saveHardwareStatus h)

def findTopic (q : TopicQuery) : Prog (Option Topic) := .perform (Command.findTopic q)

def findTopics (q : TopicQuery) : Prog (List Topic) := .perform (Command.findTopics q)

def saveTopic (t : Topic) : Prog Unit := .perform (Command.saveTopic t)

def sendTopicUpdate (topic : String) (isSubscribed : Bool) : Prog Unit :=
  .perform (Command.sendTopicUpdate topic isSubscribed)

def publish (awaited : Bool) (topic : String) (payload : Json) : Prog Unit :=
  .perform (Command.publish awaited topic payload)

def subscribe (topics : List String) : Prog Unit := .perform (Command.subscribe topics)

def unsubscribe (topic : String) : Prog Unit := .perform (Command.unsubscribe topic)

def setConnected (b : Bool) : Prog Unit := .perform (Command.setConnected b)

def connectClient : Prog Unit := .perform Command.connectClient

def endClient : Prog Unit := .perform Command.endClient

def emit (payload : Json) : Prog Unit := .perform (Command.emit payload)

/-! ### What the commands do -/

structure World where
  now : ℕ
  cache : Store String Json
  inFlight : List Setex
  sensors : List Sensor
  telemetry : List Telemetry
  unsaved : List Telemetry
  hardware : List HardwareStatus
  topics : List Topic

/-- What the services run with: the lifetime of cached requests in seconds, the topics, and how
the database matches the ids of sensors that are no texts and a list with a stored
functionality. -/
structure Config where
  ttl : ℕ
  topics : Mqtt.TopicConfig
  idMatches : JsVal → JsVal → Bool
  functionalityMatches : List Json → JsVal → Bool

namespace Config

/-- Whether a query for the id `q` finds a sensor of the id `v`. -/
def matchesId (cfg : Config) : JsVal → JsVal → Bool
  | some (.str a), some (.str b) => a == b
  | q, v => cfg.idMatches q v

def accepts (cfg : Config) (q : SensorQuery) (s : Sensor) : Bool :=
  cfg.matchesId q.deviceId s.deviceId && q.isDeleted.all (· == s.isDeleted) &&
    q.provisionState.all fun p => decide (p = s.provisionState)

def selects (cfg : Config) (q : SensorFilter) (s : Sensor) : Bool :=
  q.deviceId.all (cfg.matchesId · s.deviceId) && q.isDeleted.all (· == s.isDeleted) &&
    q.provisionState.all (fun p => decide (p = s.provisionState)) &&
    q.assignedFunctionality.all (cfg.functionalityMatches · s.assignedFunctionality)

/-- The command is executed; `fresh` is the id that `uuid` draws. -/
def execute (cfg : Config) (fresh : String) (w : World) : (c : Command) → c.Reply × World
  | .now => (w.now, w)
  | .uuid => (fresh, w)
  | .cacheGet key => (w.cache.get w.now key, w)
  | .cacheDel key => ((), { w with cache := w.cache.del key })
  | .cacheSetex key value => ((), { w with inFlight := w.inFlight ++ [⟨key, value⟩] })
  | .findSensor q => (w.sensors.find? (cfg.accepts q), w)
  | .findSensors q => (w.sensors.filter (cfg.selects q), w)
  | .updateSensors deviceId u =>
    ((), { w with
      sensors := w.sensors.map fun s => if cfg.matchesId deviceId s.deviceId then u.apply s else s })
  | .saveSensor s => ((), { w with sensors := w.sensors ++ [s] })
  | .saveTelemetry t => ((), { w with unsaved := w.unsaved ++ [t] })
  | .saveHardwareStatus h => ((), { w with hardware := w.hardware ++ [h] })
  | .findTopic q => (w.topics.find? q.accepts, w)
  | .findTopics q => (w.topics.filter q.accepts, w)
  | .saveTopic t => ((), { w with topics := w.topics ++ [t] })
  | .sendTopicUpdate _ _ => ((), w)
  | .publish _ _ _ => ((), w)
  | .subscribe _ => ((), w)
  | .unsubscribe _ => ((), w)
  | .setConnected _ => ((), w)
  | .connectClient => ((), w)
  | .endClient => ((), w)
  | .emit _ => ((), w)

end Config

/-- The command `f` that has been sent is executed. -/
def World.land (w : World) (ttl : ℕ) (f : Setex) (rest : List Setex) : World :=
  { w with cache := w.cache.setex w.now f.key f.value (1000 * ttl), inFlight := rest }

end IotPanel.Device
