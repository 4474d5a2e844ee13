import IotPanel.Lib.OrderedMap
import Mathlib.Data.List.Induction

/-!
# The subscriptions that the gateway keeps track of

The gateway has the client subscribe to topics and unsubscribe from them, one after the other,
and notes which ones are subscribed. The client throws when it cannot subscribe, but reports
that it cannot unsubscribe.
-/

namespace IotPanel.Gateway

inductive BrokerVerb
  | subscribe
  | unsubscribe
  deriving DecidableEq

/-- An operation that the broker has carried out. -/
abbrev BrokerOp := BrokerVerb × String

/-- What an operation meets: a connection or none, and the answer of the broker. -/
structure Link where
  connected : Bool
  answer : Except String Unit

structure SubscriptionResult where
  success : Bool
  topics : String
  description : String

structure UnsubscriptionResult where
  success : Bool
  topic : String
  error : Option String

namespace MqttClientService

/-- `subscribe`, with the operations of the broker before and after it, the last one first. -/
def subscribe (link : Link) (topics : String) (broker : List BrokerOp) :
    Except String SubscriptionResult × List BrokerOp :=
  if !link.connected then (.error "MQTT client not connected", broker)
  else match link.answer with
    | .ok () =>
      (.ok ⟨true, topics, "Successfully subscribed to topic"⟩, (.subscribe, topics) :: broker)
    | .error e => (.error e, broker)

/-- `unsubscribe` does not throw the error of the broker. -/
def unsubscribe (link : Link) (topic : String) (broker : List BrokerOp) :
    Except String UnsubscriptionResult × List BrokerOp :=
  if !link.connected then (.error "MQTT client not connected", broker)
  else match link.answer with
    | .ok () => (.ok ⟨true, topic, none⟩, (.unsubscribe, topic) :: broker)
    | .error e => (.ok ⟨false, topic, some e⟩, broker)

end MqttClientService

/-- What the gateway has noted, and what the broker has done. -/
structure Subscriptions where
  subscriptionTracking : OrderedMap String Bool
  broker : List BrokerOp

namespace Subscriptions

def initial : Subscriptions := ⟨OrderedMap.empty, []⟩

/-- One turn of the loop of `subscribeToTopics`. -/
def subscribeTo (s : Subscriptions) (topic : String) (link : Link) : Subscriptions :=
  match MqttClientService.subscribe link topic s.broker with
  | (.ok _, broker) => ⟨s.subscriptionTracking.set topic true, broker⟩
  | (.error _, broker) => { s with broker := broker }

/-- One turn of the loop of `unsubscribeFromTopics`. -/
def unsubscribeFrom (s : Subscriptions) (topic : String) (link : Link) : Subscriptions :=
  match MqttClientService.unsubscribe link topic s.broker with
  | (.ok _, broker) => ⟨s.subscriptionTracking.delete topic, broker⟩
  | (.error _, broker) => { s with broker := broker }

end Subscriptions

/-- The topics of a call come with the link that each one's turn meets. -/
def subscribeToTopics : List (String × Link) → Subscriptions → Subscriptions
  | [], s => s
  | (topic, link) :: topics, s => subscribeToTopics topics (s.subscribeTo topic link)

def unsubscribeFromTopics : List (String × Link) → Subscriptions → Subscriptions
  | [], s => s
  | (topic, link) :: topics, s => unsubscribeFromTopics topics (s.unsubscribeFrom topic link)

/-- A call of the gateway. -/
inductive TopicsCall
  | subscribeToTopics (topics : List (String × Link))
  | unsubscribeFromTopics (topics : List (String × Link))

def TopicsCall.run : TopicsCall → Subscriptions → Subscriptions
  | subscribeToTopics topics => Gateway.subscribeToTopics topics
  | unsubscribeFromTopics topics => Gateway.unsubscribeFromTopics topics

/-! ### Turns -/

/-- A turn of one of the loops. -/
structure Turn where
  verb : BrokerVerb
  topic : String
  link : Link

def TopicsCall.turns : TopicsCall → List Turn
  | subscribeToTopics topics => topics.map fun t => ⟨.subscribe, t.1, t.2⟩
  | unsubscribeFromTopics topics => topics.map fun t => ⟨.unsubscribe, t.1, t.2⟩

namespace Subscriptions

def turn (s : Subscriptions) (t : Turn) : Subscriptions :=
  match t.verb with
  | .subscribe => s.subscribeTo t.topic t.link
  | .unsubscribe => s.unsubscribeFrom t.topic t.link

/-- The last operation about the topic that the broker carried out was to subscribe it. -/
def InPlace (s : Subscriptions) (topic : String) : Prop :=
  s.broker.find? (fun o => o.2 = topic) = some (.subscribe, topic)

/-- What is tracked is what is in place. -/
def Truthful (s : Subscriptions) : Prop :=
  ∀ topic, topic ∈ s.subscriptionTracking.keys ↔ s.InPlace topic

/-- The broker refuses to unsubscribe a topic that is tracked. -/
def Refuses (s : Subscriptions) (t : Turn) : Prop :=
  t.verb = .unsubscribe ∧ t.link.connected = true ∧ t.link.answer.isOk = false ∧
    t.topic ∈ s.subscriptionTracking.keys

variable {s : Subscriptions} {t : Turn} {topic : String} {link : Link}

theorem subscribeTo_cases (s : Subscriptions) (topic : String) (link : Link) :
    s.subscribeTo topic link = s ∨
      s.subscribeTo topic link =
        ⟨s.subscriptionTracking.set topic true, (.subscribe, topic) :: s.broker⟩ := by
  unfold subscribeTo MqttClientService.subscribe
  cases link.connected with
  | false => exact .inl rfl
  | true =>
    cases link.answer with
    | error e => exact .inl rfl
    | ok a => exact .inr rfl

theorem unsubscribeFrom_cases (s : Subscriptions) (topic : String) (link : Link) :
    s.unsubscribeFrom topic link = s ∧ link.connected = false ∨
      s.unsubscribeFrom topic link =
        ⟨s.subscriptionTracking.delete topic, (.unsubscribe, topic) :: s.broker⟩ ∧
        link.answer.isOk = true ∨
      s.unsubscribeFrom topic link = { s with
        subscriptionTracking := s.subscriptionTracking.delete topic } ∧
        link.connected = true ∧ link.answer.isOk = false := by
  unfold unsubscribeFrom MqttClientService.unsubscribe
  cases link.connected with
  | false => exact .inl ⟨rfl, rfl⟩
  | true =>
    cases link.answer with
    | error e => exact .inr (.inr ⟨rfl, rfl, rfl⟩)
    | ok a => exact .inr (.inl ⟨rfl, rfl⟩)

/-- An operation settles its own topic and leaves the others as they were. -/
theorem inPlace_cons {tracking : OrderedMap String Bool} {verb : BrokerVerb} {topic' : String} :
    InPlace ⟨tracking, (verb, topic') :: s.broker⟩ topic ↔
      topic = topic' ∧ verb = .subscribe ∨ topic ≠ topic' ∧ s.InPlace topic := by
  unfold InPlace
  by_cases h : topic = topic'
  · subst h
    simp
  · have h' : ¬ topic' = topic := fun heq => h heq.symm
    simp [h, h']

/-- From a state in which the tracking is true a turn keeps it so unless the broker refuses. -/
theorem truthful_turn_iff (h : s.Truthful) (t : Turn) :
    (s.turn t).Truthful ↔ ¬ s.Refuses t := by
  obtain ⟨verb, topic, link⟩ := t
  cases verb with
  | subscribe =>
    have hnot : ¬ s.Refuses ⟨.subscribe, topic, link⟩ := fun hr => by cases hr.1
    refine iff_of_true ?_ hnot
    change (s.subscribeTo topic link).Truthful
    obtain hsame | hset := subscribeTo_cases s topic link
    · rwa [hsame]
    · rw [hset]
      intro x
      rw [OrderedMap.mem_keys_set, inPlace_cons, h x]
      by_cases hx : x = topic <;> simp [hx]
  | unsubscribe =>
    change (s.unsubscribeFrom topic link).Truthful ↔ _
    obtain ⟨hsame, hdown⟩ | ⟨hdone, hok⟩ | ⟨hlost, hup, herror⟩ :=
      unsubscribeFrom_cases s topic link
    · rw [hsame]
      exact iff_of_true h fun hr => by simpa [hdown] using hr.2.1
    · have hnot : ¬ s.Refuses ⟨.unsubscribe, topic, link⟩ := fun hr => by
        have herror := hr.2.2.1
        rw [hok] at herror
        cases herror
      refine iff_of_true ?_ hnot
      rw [hdone]
      intro x
      rw [OrderedMap.mem_keys_delete, inPlace_cons, h x]
      by_cases hx : x = topic <;> simp [hx]
    · -- the topic is no longer tracked, while the broker has done nothing
      rw [hlost]
      constructor
      · rintro htrue ⟨-, -, -, hmem⟩
        exact (OrderedMap.mem_keys_delete.mp ((htrue topic).mpr ((h topic).mp hmem))).1 rfl
      · intro hnot x
        rw [OrderedMap.mem_keys_delete]
        refine Iff.trans ⟨And.right, fun hx => ⟨?_, hx⟩⟩ (h x)
        rintro rfl
        exact hnot ⟨rfl, hup, herror, hx⟩

/-! ### Runs -/

def after (s : Subscriptions) (turns : List Turn) : Subscriptions := turns.foldl turn s

theorem after_append (s : Subscriptions) (ts us : List Turn) :
    s.after (ts ++ us) = (s.after ts).after us := List.foldl_append

theorem run_call (c : TopicsCall) (s : Subscriptions) : c.run s = s.after c.turns := by
  have hsub : ∀ topics s, Gateway.subscribeToTopics topics s =
      after s (topics.map fun t => ⟨.subscribe, t.1, t.2⟩) := by
    intro topics
    induction topics with
    | nil => exact fun s => rfl
    | cons t topics ih => exact fun s => ih _
  have hunsub : ∀ topics s, Gateway.unsubscribeFromTopics topics s =
      after s (topics.map fun t => ⟨.unsubscribe, t.1, t.2⟩) := by
    intro topics
    induction topics with
    | nil => exact fun s => rfl
    | cons t topics ih => exact fun s => ih _
  cases c with
  | subscribeToTopics topics => exact hsub topics s
  | unsubscribeFromTopics topics => exact hunsub topics s

def runCalls (calls : List TopicsCall) (s : Subscriptions) : Subscriptions :=
  calls.foldl (fun s c => c.run s) s

/-- Calls are their turns, one after the other. -/
theorem runCalls_eq (calls : List TopicsCall) (s : Subscriptions) :
    runCalls calls s = s.after (calls.flatMap TopicsCall.turns) := by
  induction calls generalizing s with
  | nil => rfl
  | cons c calls ih =>
    rw [List.flatMap_cons, after_append, ← run_call]
    exact ih (c.run s)

theorem truthful_initial : initial.Truthful := by
  intro topic
  simp [initial, InPlace, OrderedMap.empty, OrderedMap.keys]

/-- The tracking is true after every turn if and only if no turn meets a refusal. -/
theorem truthful_after_iff (h : s.Truthful) (ts : List Turn) :
    (∀ us, us <+: ts → (s.after us).Truthful) ↔
      ∀ us t, us ++ [t] <+: ts → ¬ (s.after us).Refuses t := by
  constructor
  · intro htrue us t hus
    have hbefore := htrue us ((List.prefix_append us [t]).trans hus)
    have hafter := htrue _ hus
    rw [after_append] at hafter
    exact (truthful_turn_iff hbefore t).mp hafter
  · intro hnone us
    -- the turns are taken from the end, so that the tracking before the last one is true
    induction us using List.reverseRecOn with
    | nil => exact fun _ => h
    | append_singleton us t ih =>
      intro hus
      have hbefore := ih ((List.prefix_append us [t]).trans hus)
      rw [after_append]
      exact (truthful_turn_iff hbefore t).mpr (hnone us t hus)

/-- In a run of calls the tracking says in every state which subscriptions are in place if and
only if the broker never refuses to unsubscribe a topic that is tracked. -/
theorem tracking_truthful_iff (calls : List TopicsCall) :
    let turns := calls.flatMap TopicsCall.turns
    runCalls calls initial = initial.after turns ∧
      ((∀ us, us <+: turns → (initial.after us).Truthful) ↔
        ∀ us t, us ++ [t] <+: turns → ¬ (initial.after us).Refuses t) :=
  ⟨runCalls_eq calls initial, truthful_after_iff truthful_initial _⟩

/-- A topic is subscribed, and the broker refuses to unsubscribe it. -/
theorem not_tracking_truthful :
    ¬ ∀ calls : List TopicsCall, (runCalls calls initial).Truthful := by
  intro h
  have htrue := h [.subscribeToTopics [("greenhouse/esp-1/telemetry", ⟨true, .ok ()⟩)],
    .unsubscribeFromTopics [("greenhouse/esp-1/telemetry", ⟨true, .error "timeout"⟩)]]
    "greenhouse/esp-1/telemetry"
  exact absurd (htrue.mpr rfl) (by decide)

end Subscriptions

end IotPanel.Gateway
