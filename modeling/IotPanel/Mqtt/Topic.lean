import IotPanel.Lib.Text

/-!
# Topics of devices

A topic is named after the base topic, the device and a use case. `TopicService` stores each
topic once and returns the stored row.
-/

namespace IotPanel.Mqtt

inductive TopicUseCase
  | assignDeviceFunction
  | networkConfiguration
  | setSensorConfiguration
  | getSensorConfiguration
  | hardwareStatus
  | firmwareStatus
  | firmwareUpdate
  | telemetryQueue
  | rebootCommand
  | deviceBase
  | diagnostics
  | discovery
  | telemetry
  | heartbeat
  | broadcast
  deriving DecidableEq, Repr

namespace TopicUseCase

def value : TopicUseCase → String
  | assignDeviceFunction => "assign"
  | networkConfiguration => "netconfig"
  | setSensorConfiguration => "config/set"
  | getSensorConfiguration => "config/get"
  | hardwareStatus => "hardware-status"
  | firmwareStatus => "firmware/status"
  | firmwareUpdate => "firmware/upgrade"
  | telemetryQueue => "telemetry-queue"
  | rebootCommand => "reboot"
  | deviceBase => "base"
  | diagnostics => "diagnose"
  | discovery => "discovery"
  | telemetry => "telemetry"
  | heartbeat => "heartbeat"
  | broadcast => "broadcast"

/-- `Object.values(TopicUseCase)` -/
def all : List TopicUseCase :=
  [assignDeviceFunction, networkConfiguration, setSensorConfiguration,
    getSensorConfiguration, hardwareStatus, firmwareStatus, firmwareUpdate, telemetryQueue,
    rebootCommand, deviceBase, diagnostics, discovery, telemetry, heartbeat, broadcast]

end TopicUseCase

/-- A row of the topic collection, without its id and its timestamps. -/
structure Topic where
  brokerUrl : String
  deviceId : String
  topic : String
  useCase : TopicUseCase
  isSubscribed : Bool
  deriving DecidableEq

/-- What `TopicService` reads from the configuration. -/
structure TopicConfig where
  baseTopic : String
  mqttBrokerUrl : String

def TopicConfig.deviceTopic (cfg : TopicConfig) (deviceId : String) (useCase : TopicUseCase) :
    String :=
  cfg.baseTopic ++ "/" ++ deviceId ++ "/" ++ useCase.value

/-- `TopicService.storeTopic`: the stored row, and the collection after it. -/
def storeTopic (cfg : TopicConfig) (rows : List Topic) (deviceId topic : String)
    (useCase : TopicUseCase) : Topic × List Topic :=
  match rows.find? fun r => r.topic = topic ∧ r.useCase = useCase ∧ r.deviceId = deviceId with
  | some row => (row, rows)
  | none =>
    let record := { brokerUrl := cfg.mqttBrokerUrl, deviceId, topic, useCase,
                    isSubscribed := true }
    (record, rows ++ [record])

/-- `TopicService.createTopic` -/
def createTopic (cfg : TopicConfig) (rows : List Topic) (deviceId : String)
    (useCase : TopicUseCase) : Topic × List Topic :=
  let deviceTopic := cfg.deviceTopic deviceId useCase
  match rows.find? fun r =>
      r.brokerUrl = cfg.mqttBrokerUrl ∧ r.topic = deviceTopic ∧ r.deviceId = deviceId with
  | some row => (row, rows)
  | none => storeTopic cfg rows deviceId deviceTopic useCase

theorem storeTopic_topic (cfg : TopicConfig) (rows : List Topic) (deviceId topic : String)
    (useCase : TopicUseCase) : (storeTopic cfg rows deviceId topic useCase).1.topic = topic := by
  unfold storeTopic
  split
  · rename_i row hrow
    have hfound := List.find?_some hrow
    rw [decide_eq_true_eq] at hfound
    exact hfound.1
  · rfl

/-- Whether the topic was stored before or not, the row carries the name built for it. -/
theorem createTopic_topic (cfg : TopicConfig) (rows : List Topic) (deviceId : String)
    (useCase : TopicUseCase) :
    (createTopic cfg rows deviceId useCase).1.topic = cfg.deviceTopic deviceId useCase := by
  unfold createTopic
  dsimp only
  split
  · rename_i row hrow
    have hfound := List.find?_some hrow
    rw [decide_eq_true_eq] at hfound
    exact hfound.2.1
  · exact storeTopic_topic cfg rows deviceId _ useCase

end IotPanel.Mqtt
