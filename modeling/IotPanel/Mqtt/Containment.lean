import IotPanel.Mqtt.Router

/-!
# What becomes of a message

The callback of the client parses a message, asks the router for the name of its event and emits
the event. Nobody awaits the callback, so what it throws is handled nowhere.
-/

namespace IotPanel.Mqtt

/-- An event on the bus, with the topic and the parsed message that it carries. -/
structure Emission where
  eventName : String
  topic : String
  payload : Json

/-- The callback of `onMessage`: the events that it emits, or what it throws. `parse` is
`JSON.parse(payload.toString())`. -/
def onMessage (parse : List UInt8 → Except String Json) (router : MessageRouter) (topic : String)
    (payload : List UInt8) : Except String (List Emission) := do
  let parsedPayload ← parse payload
  let eventName ← router.route topic parsedPayload
  return [⟨eventName, topic, parsedPayload⟩]

/-- The handler that the router asks for a topic. -/
def MessageRouter.selected (r : MessageRouter) (topic : String) : Option MessageHandler :=
  r.sortedHandlers.find? fun h => h.canHandle topic

variable {parse : List UInt8 → Except String Json} {topic : String} {payload : List UInt8}

theorem routeTo_eq (hs : List MessageHandler) (topic : String) (v : Json) :
    MessageRouter.routeTo hs topic v =
      match hs.find? fun h => h.canHandle topic with
      | some h => h.handle v
      | none => .ok "mqtt/message/unknown" := by
  induction hs with
  | nil => rfl
  | cons h hs ih =>
    rw [MessageRouter.routeTo, List.find?_cons]
    cases h.canHandle topic with
    | true => rfl
    | false => exact ih

theorem route_eq (r : MessageRouter) (topic : String) (v : Json) :
    r.route topic v =
      match r.selected topic with
      | some h => h.handle v
      | none => .ok "mqtt/message/unknown" := routeTo_eq _ _ _

/-- A handler accepts the objects, arrays among them. -/
theorem handle_eq (h : MessageHandler) (v : Json) :
    (v.isObjectType = true ∧ h.handle v = .ok h.event) ∨
      (v.isObjectType = false ∧ ∃ e, h.handle v = .error e) := by
  cases v with
  | arr | obj => exact .inl ⟨rfl, rfl⟩
  | null | bool | num | str => exact .inr ⟨rfl, _, rfl⟩

/-- The message is a value that the handler for its topic accepts. -/
def Accepted (parse : List UInt8 → Except String Json) (h : MessageHandler) (payload : List UInt8)
    (v : Json) : Prop :=
  parse payload = .ok v ∧ h.handle v = .ok h.event

/-- The callback throws nothing. A message that its handler accepts is emitted once, and any
other one not at all or as an unknown one. -/
def Contained (parse : List UInt8 → Except String Json) (topic : String) (payload : List UInt8) :
    Prop :=
  ∃ events, onMessage parse initializeMessageRouter topic payload = .ok events ∧
    (∀ h v, initializeMessageRouter.selected topic = some h → Accepted parse h payload v →
      events = [⟨h.event, topic, v⟩]) ∧
    ((¬ ∃ h v, initializeMessageRouter.selected topic = some h ∧ Accepted parse h payload v) →
      events = [] ∨ ∃ v, events = [⟨"mqtt/message/unknown", topic, v⟩])

theorem onMessage_of_parse {v : Json} (r : MessageRouter) (h : parse payload = .ok v) :
    onMessage parse r topic payload =
      (r.route topic v).map fun eventName => [⟨eventName, topic, v⟩] := by
  unfold onMessage
  rw [h]
  show (r.route topic v >>= fun eventName => pure [_]) = _
  cases r.route topic v <;> rfl

/-- A message for which there is no handler is emitted as an unknown one. -/
theorem contained_of_not_selected {v : Json} (h : parse payload = .ok v)
    (hnone : initializeMessageRouter.selected topic = none) : Contained parse topic payload := by
  refine ⟨[⟨"mqtt/message/unknown", topic, v⟩], ?_, ?_, fun _ => .inr ⟨v, rfl⟩⟩
  · rw [onMessage_of_parse _ h, route_eq, hnone]
    rfl
  · intro g _ hg
    rw [hnone] at hg
    cases hg

theorem contained_of_object {v : Json} {h : MessageHandler} (hparse : parse payload = .ok v)
    (hselected : initializeMessageRouter.selected topic = some h) (hv : v.isObjectType = true) :
    Contained parse topic payload := by
  have hhandle : h.handle v = .ok h.event := by
    obtain ⟨_, hhandle⟩ | ⟨hfalse, _⟩ := handle_eq h v
    · exact hhandle
    · rw [hv] at hfalse
      cases hfalse
  refine ⟨[⟨h.event, topic, v⟩], ?_, ?_, fun hnot => absurd ⟨h, v, hselected, hparse, hhandle⟩ hnot⟩
  · rw [onMessage_of_parse _ hparse, route_eq, hselected]
    show (h.handle v).map _ = _
    rw [hhandle]
    rfl
  · intro g w hg hw
    rw [hselected] at hg
    cases hg
    have hv : v = w := Except.ok.inj (hparse.symm.trans hw.1)
    rw [hv]

/-- A message is contained if it parses, and is an object where a handler claims its topic. -/
theorem contained_iff (parse : List UInt8 → Except String Json) (topic : String)
    (payload : List UInt8) :
    Contained parse topic payload ↔
      ∃ v, parse payload = .ok v ∧
        (initializeMessageRouter.selected topic = none ∨ v.isObjectType = true) := by
  constructor
  · rintro ⟨events, hok, -⟩
    cases hparse : parse payload with
    | error e =>
      unfold onMessage at hok
      rw [hparse] at hok
      cases hok
    | ok v =>
      refine ⟨v, rfl, ?_⟩
      rw [onMessage_of_parse _ hparse, route_eq] at hok
      cases hselected : initializeMessageRouter.selected topic with
      | none => exact .inl rfl
      | some h =>
        right
        rw [hselected] at hok
        obtain ⟨hv, _⟩ | ⟨_, e, he⟩ := handle_eq h v
        · exact hv
        · change (h.handle v).map _ = _ at hok
          rw [he] at hok
          cases hok
  · rintro ⟨v, hparse, hnone | hv⟩
    · exact contained_of_not_selected hparse hnone
    · cases hselected : initializeMessageRouter.selected topic with
      | none => exact contained_of_not_selected hparse hselected
      | some h => exact contained_of_object hparse hselected hv

/-- One opening brace is no JSON text. -/
theorem not_contained_of_malformed :
    ¬ ∀ (parse : List UInt8 → Except String Json) (topic : String) (payload : List UInt8),
      Contained parse topic payload := by
  intro h
  obtain ⟨v, hparse, -⟩ := (contained_iff _ _ _).mp
    (h (fun _ => .error "Unexpected end of JSON input") "iot/esp32-1/telemetry" [0x7B])
  cases hparse

end IotPanel.Mqtt
