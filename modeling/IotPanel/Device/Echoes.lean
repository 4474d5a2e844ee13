import IotPanel.Device.Handlers

/-!
# Requests that come back

The server is subscribed to the topics it publishes on, so that its own requests are delivered to
it. A listener tells a response from a request by its response id.
-/

namespace IotPanel.Device.ListenerService

open Responser (ResponseType EventListener)

/-- A response on a topic of the listener. -/
def IsResponse (l : EventListener) (topic : String) (payload : Json) : Prop :=
  l.suffixTest topic = true ∧ (payload.get "responseId").truthy = true

/-- The listener validates the responses and handles what it gets, and does nothing with any
other delivery. -/
def IgnoresEchoes (cfg : Config) (t : ResponseType) (topic : String) (payload : Json) : Prop :=
  (listen cfg t topic payload = (transformAndValidate t payload >>= handler cfg t) ↔
    IsResponse (listener t) topic payload) ∧
  (¬ IsResponse (listener t) topic payload → listen cfg t topic payload = pure ())

variable {cfg : Config} {t : ResponseType} {topic : String} {payload : Json}

theorem listen_of_goesOn (h : (listener t).goesOn topic payload = true) :
    listen cfg t topic payload = (transformAndValidate t payload >>= handler cfg t) := by
  unfold listen
  rw [h]
  rfl

theorem listen_of_not_goesOn (h : (listener t).goesOn topic payload = false) :
    listen cfg t topic payload = pure () := by
  unfold listen
  rw [h]
  rfl

/-- A validation begins with a command. -/
theorem validation_ne_pure :
    (transformAndValidate t payload >>= handler cfg t) ≠ (pure () : Prog Unit) := by
  intro h
  cases h

/-- A listener ignores what it should if it goes on with the responses and nothing else. -/
theorem ignoresEchoes_iff_goesOn :
    IgnoresEchoes cfg t topic payload ↔
      ((listener t).goesOn topic payload = true ↔ IsResponse (listener t) topic payload) := by
  unfold IgnoresEchoes
  cases h : (listener t).goesOn topic payload with
  | true =>
    rw [listen_of_goesOn h]
    simp [validation_ne_pure]
  | false =>
    rw [listen_of_not_goesOn h]
    simp [validation_ne_pure.symm]

theorem goesOn_iff {l : EventListener} :
    (l.goesOn topic payload = true ↔ IsResponse l topic payload) ↔
      l.needsBoth = true ∨ l.suffixTest topic = (payload.get "responseId").truthy := by
  unfold EventListener.goesOn IsResponse
  cases l.needsBoth
  · cases l.suffixTest topic <;> cases (payload.get "responseId").truthy <;> decide
  · simp

/-- The listeners that give up when one of the two is missing ignore every request. The others
give up only when both are missing, and are right where the topic and the response id agree. -/
theorem ignoresEchoes_iff (cfg : Config) (t : ResponseType) (topic : String) (payload : Json) :
    IgnoresEchoes cfg t topic payload ↔
      (listener t).needsBoth = true ∨
        (listener t).suffixTest topic = (payload.get "responseId").truthy := by
  rw [ignoresEchoes_iff_goesOn, goesOn_iff]

/-- A request for telemetry that comes back is validated as if it were a response. -/
theorem not_ignoresEchoes_telemetry :
    ¬ ∀ (cfg : Config) (t : ResponseType) (topic : String) (payload : Json),
      IgnoresEchoes cfg t topic payload := by
  intro h
  let cfg : Config := ⟨60, ⟨"iot", "mqtt://broker"⟩, fun _ _ => false, fun _ _ => false⟩
  have hecho := h cfg .telemetry "iot/esp32-1/telemetry"
    (.obj [("requestCode", .str "REQUEST_TELEMETRY_DATA")])
  rw [ignoresEchoes_iff_goesOn] at hecho
  exact absurd (hecho.mp (by decide)).2 (by decide)

end IotPanel.Device.ListenerService
