import IotPanel.Mqtt.Router

/-!
# From a device's topic to a listener

`ListenerService` subscribes each of its methods to one event of the router and looks at the
topic again before it does anything. A message on the topic of a use case reaches the
listener of that use case if the topic, the router and the listener spell it alike.
-/

namespace IotPanel.Responser

open Mqtt Text

/-- A method of `ListenerService` with the test at its beginning. Two of them ask for the
suffix and a response id; the others give up only when both are missing. -/
structure EventListener where
  event : String
  topicSuffix : String
  needsBoth : Bool
  deriving DecidableEq

namespace EventListener

def suffixTest (l : EventListener) (topic : String) : Bool := endsWith topic l.topicSuffix

/-- Whether the method goes on to validate the payload. -/
def goesOn (l : EventListener) (topic : String) (payload : Json) : Bool :=
  if l.needsBoth then l.suffixTest topic && (payload.get "responseId").truthy
  else l.suffixTest topic || (payload.get "responseId").truthy

end EventListener

def handleDiscoveryEvent : EventListener := ⟨"mqtt/message/discovery", "/discovery", true⟩

def handleSensorAssignEvent : EventListener := ⟨"mqtt/message/assign", "/assign", true⟩

def handleAckEvent : EventListener := ⟨"mqtt/message/ack", "/ack", false⟩

def handleUpgradeEvent : EventListener := ⟨"mqtt/message/upgrade", "/upgrade", false⟩

def handleHeartbeatEvent : EventListener := ⟨"mqtt/message/heartbeat", "/heartbeat", false⟩

def handleRebootEvent : EventListener := ⟨"mqtt/message/reboot", "/reboot", false⟩

def handleTelemetryEvent : EventListener := ⟨"mqtt/message/telemetry", "/telemetry", false⟩

def handleMetricsEvent : EventListener :=
  ⟨"mqtt/message/hardware-status", "/hardware_status", false⟩

/-- The listener for the responses of a use case. -/
def responseListener : TopicUseCase → Option EventListener
  | .discovery => some handleDiscoveryEvent
  | .assignDeviceFunction => some handleSensorAssignEvent
  | .firmwareUpdate => some handleUpgradeEvent
  | .heartbeat => some handleHeartbeatEvent
  | .rebootCommand => some handleRebootEvent
  | .telemetry => some handleTelemetryEvent
  | .hardwareStatus => some handleMetricsEvent
  | _ => none

/-- A message on `topic` gets to the listener of its use case; a use case without a listener
gets to none of them. -/
def Reaches (topic : String) (useCase : TopicUseCase) (payload : Json) : Prop :=
  match responseListener useCase with
  | some l =>
    initializeMessageRouter.route topic payload = .ok l.event ∧ l.suffixTest topic = true
  | none => ∀ useCase' l, responseListener useCase' = some l →
    initializeMessageRouter.route topic payload ≠ .ok l.event

/-- The last parts of a topic, from the slash before the use case on. -/
def topicTail (useCase : TopicUseCase) : String := "/" ++ useCase.value

theorem deviceTopic_eq (cfg : TopicConfig) (deviceId : String) (useCase : TopicUseCase) :
    cfg.deviceTopic deviceId useCase =
      cfg.baseTopic ++ "/" ++ deviceId ++ topicTail useCase := by
  simp [TopicConfig.deviceTopic, topicTail, String.append_assoc]

/-- No suffix of a handler reaches beyond the use case in a topic. -/
theorem tail_suffices (useCase : TopicUseCase) :
    ∀ g ∈ initializeMessageRouter.sortedHandlers,
      endsWith g.topicSuffix (topicTail useCase) = true →
        g.canHandle (topicTail useCase) = true := by
  cases useCase <;> decide

theorem suffixTest_append {l : EventListener} {tail : String} (init : String)
    (h : l.suffixTest tail = true) : l.suffixTest (init ++ tail) = true := by
  simp only [EventListener.suffixTest, endsWith_iff, String.toList_append] at *
  exact h.trans (List.suffix_append _ _)

/-- The event of a topic depends on its use case only. -/
theorem route_deviceTopic (cfg : TopicConfig) (deviceId : String) (useCase : TopicUseCase)
    (payload : Json) :
    initializeMessageRouter.route (cfg.deviceTopic deviceId useCase) payload =
      initializeMessageRouter.route (topicTail useCase) payload := by
  rw [deviceTopic_eq]
  exact route_append _ _ payload (tail_suffices useCase)

/-- The event that a JSON object on the topic of a use case is emitted as. -/
def routedEvent : TopicUseCase → String
  | .discovery => "mqtt/message/discovery"
  | .assignDeviceFunction => "mqtt/message/assign"
  | .firmwareUpdate => "mqtt/message/upgrade"
  | .heartbeat => "mqtt/message/heartbeat"
  | .rebootCommand => "mqtt/message/reboot"
  | .telemetry => "mqtt/message/telemetry"
  | .getSensorConfiguration => "mqtt/message/config/get"
  | .setSensorConfiguration => "mqtt/message/config/set"
  | _ => "mqtt/message/unknown"

theorem route_topicTail (useCase : TopicUseCase) (fields : List (String × Json)) :
    initializeMessageRouter.route (topicTail useCase) (.obj fields) =
      .ok (routedEvent useCase) := by
  cases useCase <;> rfl

theorem suffixTest_topicTail {useCase : TopicUseCase} {l : EventListener}
    (h : responseListener useCase = some l) (hne : useCase ≠ .hardwareStatus) :
    l.suffixTest (topicTail useCase) = true := by
  cases useCase <;> cases h <;> first | decide | exact absurd rfl hne

/-- A message on a topic built by `createTopic` gets where it should for every use case but
the hardware status, which the topics spell with a dash and the handlers with an underscore. -/
theorem reaches_iff (cfg : TopicConfig) (rows : List Topic) (deviceId : String)
    (useCase : TopicUseCase) (fields : List (String × Json)) :
    Reaches (createTopic cfg rows deviceId useCase).1.topic useCase (.obj fields) ↔
      useCase ≠ .hardwareStatus := by
  rw [createTopic_topic]
  unfold Reaches
  rw [route_deviceTopic, route_topicTail]
  constructor
  · rintro hreaches rfl
    exact absurd hreaches.1 (by decide)
  · intro hne
    cases hl : responseListener useCase with
    | some l =>
      refine ⟨?_, ?_⟩
      · cases useCase <;> cases hl <;> first | rfl | exact absurd rfl hne
      · rw [deviceTopic_eq]
        exact suffixTest_append _ (suffixTest_topicTail hl hne)
    | none =>
      intro useCase' l hl'
      cases useCase <;> cases hl <;> cases useCase' <;> cases hl' <;> decide

/-- A hardware status message is emitted as an unknown one. -/
theorem not_reaches_hardwareStatus :
    ¬ ∀ (cfg : TopicConfig) (rows : List Topic) (deviceId : String) (useCase : TopicUseCase)
        (fields : List (String × Json)),
      Reaches (createTopic cfg rows deviceId useCase).1.topic useCase (.obj fields) := by
  intro h
  have hreaches := h ⟨"iot", "mqtt://broker"⟩ [] "esp32-1" .hardwareStatus []
  exact absurd hreaches.1 (by decide)

end IotPanel.Responser
