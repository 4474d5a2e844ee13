import IotPanel.Js.Value
import IotPanel.Mqtt.Topic
import Mathlib.Data.List.Sort

/-!
# The message router

Each handler claims the topics with its suffix and names the event to emit. The router asks
the handlers in the order of their priority; the first that can handle the topic decides.
-/

namespace IotPanel.Mqtt

open Text

/-- A subclass of `BaseMqttMessageHandler`, under its class name. -/
structure MessageHandler where
  name : String
  topicSuffix : String
  priority : ℕ
  event : String
  deriving DecidableEq

namespace MessageHandler

def canHandle (h : MessageHandler) (topic : String) : Bool := endsWith topic h.topicSuffix

/-- `validatePayload`, for a parsed payload. -/
def validatePayload : Json → Except String Unit
  | .null => .error "Payload cannot be null or undefined"
  | payload => if payload.isObjectType then .ok () else .error "Payload must be a JSON object"

def handle (h : MessageHandler) (payload : Json) : Except String String := do
  validatePayload payload
  return h.event

end MessageHandler

def discoveryMessageHandler : MessageHandler :=
  ⟨"DiscoveryMessageHandler", "/discovery", 10, "mqtt/message/discovery"⟩

def assignmentMessageHandler : MessageHandler :=
  ⟨"AssignmentMessageHandler", "/assign", 10, "mqtt/message/assign"⟩

def configurationGetMessageHandler : MessageHandler :=
  ⟨"ConfigurationGetMessageHandler", "/config/get", 10, "mqtt/message/config/get"⟩

def configurationSetMessageHandler : MessageHandler :=
  ⟨"ConfigurationSetMessageHandler", "/config/set", 10, "mqtt/message/config/set"⟩

def acknowledgeMessageHandler : MessageHandler :=
  ⟨"AcknowledgeMessageHandler", "/ack", 10, "mqtt/message/ack"⟩

def firmwareUpgradeMessageHandler : MessageHandler :=
  ⟨"FirmwareUpgradeMessageHandler", "/upgrade", 10, "mqtt/message/upgrade"⟩

def heartbeatMessageHandler : MessageHandler :=
  ⟨"HeartbeatMessageHandler", "/heartbeat", 5, "mqtt/message/heartbeat"⟩

def rebootMessageHandler : MessageHandler :=
  ⟨"RebootMessageHandler", "/reboot", 10, "mqtt/message/reboot"⟩

def telemetryMessageHandler : MessageHandler :=
  ⟨"TelemetryMessageHandler", "/telemetry", 8, "mqtt/message/telemetry"⟩

def hardwareStatusMessageHandler : MessageHandler :=
  ⟨"HardwareStatusMessageHandler", "/hardware_status", 8, "mqtt/message/hardware-status"⟩

def alertMessageHandler : MessageHandler :=
  ⟨"AlertMessageHandler", "/alert", 15, "mqtt/message/alert"⟩

/-- `MqttMessageRouter`: the handlers in the order of their registration. -/
structure MessageRouter where
  handlers : List MessageHandler

namespace MessageRouter

/-- `Map.set` under the class name: a handler of the same class is replaced where it stands. -/
def register (r : MessageRouter) (h : MessageHandler) : MessageRouter :=
  if r.handlers.any (·.name == h.name) then
    ⟨r.handlers.map fun g => if g.name == h.name then h else g⟩
  else ⟨r.handlers ++ [h]⟩

/-- Higher priority first, in the order of registration among equals. -/
def sortedHandlers (r : MessageRouter) : List MessageHandler :=
  r.handlers.insertionSort fun a b => b.priority ≤ a.priority

def routeTo : List MessageHandler → String → Json → Except String String
  | [], _, _ => .ok "mqtt/message/unknown"
  | h :: hs, topic, payload =>
    if h.canHandle topic then h.handle payload else routeTo hs topic payload

def route (r : MessageRouter) (topic : String) (payload : Json) : Except String String :=
  routeTo r.sortedHandlers topic payload

end MessageRouter

/-- `MqttClientService.initializeMessageRouter` -/
def initializeMessageRouter : MessageRouter :=
  let r : MessageRouter := ⟨[]⟩
  let r := r.register discoveryMessageHandler
  let r := r.register assignmentMessageHandler
  let r := r.register configurationGetMessageHandler
  let r := r.register configurationSetMessageHandler
  let r := r.register acknowledgeMessageHandler
  let r := r.register firmwareUpgradeMessageHandler
  let r := r.register heartbeatMessageHandler
  let r := r.register rebootMessageHandler
  let r := r.register telemetryMessageHandler
  let r := r.register hardwareStatusMessageHandler
  r.register alertMessageHandler

/-! ### Routing looks at the end of a topic -/

/-- Two topics that the same handlers claim are routed alike. -/
theorem routeTo_congr {hs : List MessageHandler} {topic topic' : String} (payload : Json)
    (h : ∀ g ∈ hs, g.canHandle topic = g.canHandle topic') :
    MessageRouter.routeTo hs topic payload = MessageRouter.routeTo hs topic' payload := by
  induction hs with
  | nil => rfl
  | cons g hs ih =>
    have hg := h g (by simp)
    have hrest := ih fun g' hg' => h g' (by simp [hg'])
    simp only [MessageRouter.routeTo, hg, hrest]

/-- What stands before the last parts of a topic does not matter to a handler whose suffix does
not reach beyond them. -/
theorem canHandle_append {g : MessageHandler} {tail : String} (init : String)
    (h : endsWith g.topicSuffix tail = true → g.canHandle tail = true) :
    g.canHandle (init ++ tail) = g.canHandle tail := by
  rw [Bool.eq_iff_iff]
  simp only [MessageHandler.canHandle, endsWith_iff, String.toList_append] at *
  constructor
  · intro hsuffix
    rcases Nat.le_total g.topicSuffix.toList.length tail.toList.length with hle | hle
    · exact List.suffix_of_suffix_length_le hsuffix (List.suffix_append _ _) hle
    · exact h (List.suffix_of_suffix_length_le (List.suffix_append _ _) hsuffix hle)
  · intro hsuffix
    exact hsuffix.trans (List.suffix_append _ _)

theorem route_append (r : MessageRouter) {tail : String} (init : String) (payload : Json)
    (h : ∀ g ∈ r.sortedHandlers, endsWith g.topicSuffix tail = true → g.canHandle tail = true) :
    r.route (init ++ tail) payload = r.route tail payload :=
  routeTo_congr payload fun g hg => canHandle_append init (h g hg)

end IotPanel.Mqtt
