import IotPanel.Device.Following
import IotPanel.Device.Site
import IotPanel.Lib.Process

/-!
# The calls side by side

The calls run on one database and one connection, command by command. What one command can change
is said once; the invariants of the stores are shown from these cases.
-/

namespace IotPanel.Device

open Mqtt (Topic TopicUseCase)
open ResponserService (discoveredSensor)

/-- The connection to the broker is closed. The library keeps the subscriptions. -/
inductive LinkEvent
  | closed

def Site.after (s : Site) : LinkEvent → Option Site
  | .closed => some { s with link := { s.link with connected := false } }

def services (cfg : Config) : System Site Call Phase LinkEvent Command Command.Reply Exception where
  program := Call.program cfg
  protocol := Call.protocol cfg
  fresh := .fresh
  ends := Call.ends cfg
  follows := Call.wp_program cfg
  env := Site.after
  execute := Executes cfg

abbrev Service (cfg : Config) := Process (services cfg)

abbrev ServiceEvent := CallEvent Call Phase LinkEvent Command Command.Reply Exception

/-- How a command turns out in a script: it is attempted, with an id to draw, or it fails. -/
inductive Outcome
  | attempt (fresh : String)
  | fail (e : Exception)

/-- A command may be given `fresh` as the id that it draws, if it draws one. -/
def Command.grants (fresh : String) : Command → Bool
  | .uuid => decide (Session.IsUuid fresh)
  | _ => true

def oracle (cfg : Config) : System.Oracle (services cfg) Outcome where
  answer o s c :=
    match o with
    | .attempt fresh => if c.grants fresh then some (s.attempt cfg fresh c) else none
    | .fail e => if c.fallible then some (.error e, s) else none
  sound {o s c r s'} h := by
    cases o with
    | attempt fresh =>
      simp only at h
      split at h
      · rename_i hgrants
        obtain rfl := (Prod.mk.inj (Option.some.inj h)).1
        obtain rfl := (Prod.mk.inj (Option.some.inj h)).2
        refine .attempted fresh c fun hc => ?_
        subst hc
        exact of_decide_eq_true hgrants
      · cases h
    | fail e =>
      simp only at h
      split at h
      · cases h
        exact .failed e ‹_›
      · cases h

/-- The call `i` goes on for `n` commands, and nothing fails. -/
def proceed {K η : Type} (i n : ℕ) : List (System.Move K η Outcome) :=
  List.replicate n (.step i (.attempt ""))

/-- The rows of sensors and topics are the same, and so are the subscriptions. -/
structure Site.Same (s s' : Site) : Prop where
  sensors : s'.world.sensors = s.world.sensors
  topics : s'.world.topics = s.world.topics
  connected : s'.link.connected = s.link.connected
  subscriptions : s'.link.subscriptions = s.link.subscriptions

namespace Site

theorem Same.refl (s : Site) : s.Same s := ⟨rfl, rfl, rfl, rfl⟩

def storeSensor (s : Site) (v : Sensor) : Site :=
  { s with world := { s.world with sensors := s.world.sensors ++ [v] } }

def storeTopic (s : Site) (t : Topic) : Site :=
  { s with world := { s.world with topics := s.world.topics ++ [t] } }

def setSubscriptions (s : Site) (ts : List String) : Site :=
  { s with link := { s.link with subscriptions := ts } }

end Site

/-- All that a command of a call can do to the stores and to what is known of the call. -/
inductive Effect (cfg : Config) (k : Call) (s : Site) (q : Phase) :
    (c : Command) → Except Exception c.Reply → Site → Phase → Prop
  | other {c : Command} {r : Except Exception c.Reply} {s' : Site} (hs : s.Same s') :
      Effect cfg k s q c r s' q
  | failed {c : Command} (e : Exception) : Effect cfg k s q c (.error e) s (q.fail c)
  | foundSensor :
      Effect cfg k s q (.findSensor k.lookup)
        (.ok (s.world.sensors.find? (cfg.accepts k.lookup))) s
        { q with device := some (s.world.sensors.find? (cfg.accepts k.lookup)) }
  | foundTopic {f : TopicQuery} {t : Topic} (ht : s.world.topics.find? f.accepts = some t) :
      Effect cfg k s q (.findTopic f) (.ok (some t)) s
        { q with topic := none, known := (f, t) :: q.known }
  | missedTopic {f : TopicQuery} (hf : s.world.topics.find? f.accepts = none) :
      Effect cfg k s q (.findTopic f) (.ok none) s { q with topic := f.record cfg }
  | readTopics (hk : k = .onConnect) :
      Effect cfg k s q (.findTopics subscribedTopics)
        (.ok (s.world.topics.filter subscribedTopics.accepts)) s
        { q with
          owed := (s.world.topics.filter subscribedTopics.accepts).map fun t => t.topic
          restoring := false }
  | updated {u : SensorUpdate} (hset : k.MaySet q u) :
      Effect cfg k s q (.updateSensors k.deviceId u) (.ok ()) (s.updateSensors cfg k.deviceId u) q
  | storedSensor {payload : Json} (hk : k = .discoveryResponse payload)
      (hdevice : q.device = some none) :
      Effect cfg k s q (.saveSensor (discoveredSensor payload)) (.ok ())
        (s.storeSensor (discoveredSensor payload)) { q with device := none }
  | storedTopic {t : Topic} (ht : q.topic = some t) (hnames : k.Names cfg q t) :
      Effect cfg k s q (.saveTopic t) (.ok ()) (s.storeTopic t)
        { q with
          topic := none, known := (nameQuery t, t) :: q.known
          owed := if k.subscribes q then t.topic :: q.owed else q.owed }
  | subscribed {ts : List String} (hconnected : s.link.connected = true)
      (hts : k = .subscribe ts ∨ ∀ x ∈ q.owed, x ∈ ts) :
      Effect cfg k s q (.subscribe ts) (.ok ()) (s.setSubscriptions (s.link.subscriptions ++ ts))
        { q with owed := q.owed.filter fun t => t ∉ ts }
  | unsubscribed {topic : String} (hconnected : s.link.connected = true) :
      Effect cfg k s q (.unsubscribe topic) (.ok ())
        (s.setSubscriptions (s.link.subscriptions.filter fun t => t ≠ topic)) q
  | connected (hk : k = .onConnect) (hq : q = .fresh) :
      Effect cfg k s q (.setConnected true) (.ok ())
        { s with link := { s.link with connected := true } } { q with restoring := true }
  | renewed (hk : k = .initConnection) :
      Effect cfg k s q .connectClient (.ok ()) (s.setSubscriptions []) q

variable {cfg : Config} {k : Call} {s s' : Site} {q : Phase}

variable {fresh : String}

/-- Without the connection the command fails, if the caller waits for the outcome. -/
theorem effect_publish (awaited : Bool) (topic : String) (payload : Json) :
    Effect cfg k s q (.publish awaited topic payload)
      (s.attempt cfg fresh (.publish awaited topic payload)).1
      (s.attempt cfg fresh (.publish awaited topic payload)).2
      (k.track cfg q (.publish awaited topic payload)
        (s.attempt cfg fresh (.publish awaited topic payload)).1) := by
  have hattempt : s.attempt cfg fresh (.publish awaited topic payload) =
      if s.takes topic payload then (.ok (), s.publish topic payload)
      else (if awaited then .error notConnected else .ok (), s) := rfl
  by_cases htakes : s.takes topic payload = true
  · rw [hattempt, if_pos htakes]
    exact .other ⟨rfl, rfl, rfl, rfl⟩
  · rw [hattempt, if_neg htakes]
    cases awaited with
    | true => exact .failed notConnected
    | false => exact .other (.refl s)

theorem effect_subscribe {ts : List String} (hallowed : k.allows cfg q (.subscribe ts)) :
    Effect cfg k s q (.subscribe ts) (s.attempt cfg fresh (.subscribe ts)).1
      (s.attempt cfg fresh (.subscribe ts)).2
      (k.track cfg q (.subscribe ts) (s.attempt cfg fresh (.subscribe ts)).1) := by
  have hattempt : s.attempt cfg fresh (.subscribe ts) =
      if s.link.connected then (.ok (), s.setSubscriptions (s.link.subscriptions ++ ts))
      else (.error notConnected, s) := rfl
  by_cases hconnected : s.link.connected = true
  · rw [hattempt, if_pos hconnected]
    exact .subscribed hconnected hallowed
  · rw [hattempt, if_neg hconnected]
    exact .failed notConnected

theorem effect_unsubscribe (topic : String) :
    Effect cfg k s q (.unsubscribe topic) (s.attempt cfg fresh (.unsubscribe topic)).1
      (s.attempt cfg fresh (.unsubscribe topic)).2
      (k.track cfg q (.unsubscribe topic) (s.attempt cfg fresh (.unsubscribe topic)).1) := by
  have hattempt : s.attempt cfg fresh (.unsubscribe topic) =
      if s.link.connected then
        (.ok (), s.setSubscriptions (s.link.subscriptions.filter fun t => t ≠ topic))
      else (.error notConnected, s) := rfl
  by_cases hconnected : s.link.connected = true
  · rw [hattempt, if_pos hconnected]
    exact .unsubscribed hconnected
  · rw [hattempt, if_neg hconnected]
    exact .failed notConnected

theorem effect_findTopic (f : TopicQuery) :
    Effect cfg k s q (.findTopic f) (.ok (s.world.topics.find? f.accepts)) s
      (k.learn cfg q (.findTopic f) (s.world.topics.find? f.accepts)) := by
  cases hf : s.world.topics.find? f.accepts with
  | some t => exact .foundTopic hf
  | none => exact .missedTopic hf

theorem effect_of_executes {c : Command} {r : Except Exception c.Reply}
    (hallowed : k.allows cfg q c) (h : Executes cfg s c r s') :
    Effect cfg k s q c r s' (k.track cfg q c r) := by
  cases h with
  | failed e hfallible => exact .failed e
  | kept hconnected => exact .other (.refl s)
  | attempted fresh c hfresh =>
    cases c with
    | findSensor f =>
      obtain rfl : f = k.lookup := hallowed
      exact .foundSensor
    | findTopic f => exact effect_findTopic f
    | findTopics f =>
      obtain ⟨hk, rfl⟩ := hallowed
      exact .readTopics hk
    | updateSensors deviceId u =>
      obtain ⟨rfl, hset⟩ := hallowed
      exact .updated hset
    | saveSensor v =>
      obtain ⟨hdevice, payload, hk, rfl⟩ := hallowed
      exact .storedSensor hk hdevice
    | saveTopic t => exact .storedTopic hallowed.1 hallowed.2
    | publish awaited topic payload => exact effect_publish awaited topic payload
    | subscribe ts => exact effect_subscribe hallowed
    | unsubscribe topic => exact effect_unsubscribe topic
    | setConnected b =>
      obtain ⟨hk, hq, rfl⟩ := hallowed
      exact .connected hk hq
    | connectClient => exact .renewed hallowed
    -- no call gives these commands
    | saveTelemetry t => exact hallowed.elim
    | saveHardwareStatus h => exact hallowed.elim
    | sendTopicUpdate topic b => exact hallowed.elim
    | endClient => exact hallowed.elim
    | findSensors f => exact hallowed.elim
    | _ => exact .other ⟨rfl, rfl, rfl, rfl⟩

end IotPanel.Device
