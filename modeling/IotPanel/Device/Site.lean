import IotPanel.Device.Handlers
import IotPanel.Session.Keys

/-!
# The services and their connection to the broker

`MqttClientService` refuses to publish and to subscribe while it is not connected; otherwise the
outcome is up to the broker. What is stored and what the client is subscribed to are changed by
different commands.
-/

namespace IotPanel.Device

/-- The state of `MqttClientService`: whether it takes itself to be connected, which messages
the broker accepts and which it has accepted, what the client is subscribed to, and the updates
of topics that have been sent to the database and not been executed. -/
structure Link where
  connected : Bool
  accepts : String → Json → Bool
  sent : List (String × Json)
  subscriptions : List String
  updates : List (String × Bool)

structure Site where
  world : World
  link : Link

def notConnected : Exception := .error "MQTT client not connected"

namespace Site

/-- The client takes the message and the broker accepts it. -/
def takes (s : Site) (topic : String) (payload : Json) : Bool :=
  s.link.connected && s.link.accepts topic payload

def publish (s : Site) (topic : String) (payload : Json) : Site :=
  { s with link := { s.link with sent := (topic, payload) :: s.link.sent } }

/-- The update is executed. -/
def updateSensors (cfg : Config) (s : Site) (deviceId : JsVal) (u : SensorUpdate) : Site :=
  { s with world := (cfg.execute "" s.world (.updateSensors deviceId u)).2 }

/-- The update of topics is executed, and those of `updates` are still to come. -/
def updateTopics (s : Site) (topic : String) (isSubscribed : Bool)
    (updates : List (String × Bool)) : Site :=
  { s with
    world := { s.world with
      topics := s.world.topics.map fun t => if t.topic = topic then { t with isSubscribed } else t }
    link := { s.link with updates } }

/-- The outcome of a command when nothing but the connection stands in its way. A publication
that is not awaited fails unseen. A new client has no subscriptions. -/
def attempt (cfg : Config) (fresh : String) (s : Site) :
    (c : Command) → Except Exception c.Reply × Site
  | .publish awaited topic payload =>
    if s.takes topic payload then (.ok (), s.publish topic payload)
    else (if awaited then .error notConnected else .ok (), s)
  | .subscribe topics =>
    if s.link.connected then
      (.ok (), { s with link := { s.link with subscriptions := s.link.subscriptions ++ topics } })
    else (.error notConnected, s)
  | .unsubscribe topic =>
    if s.link.connected then
      (.ok (), { s with
        link := { s.link with subscriptions := s.link.subscriptions.filter fun t => t ≠ topic } })
    else (.error notConnected, s)
  | .setConnected b => (.ok (), { s with link := { s.link with connected := b } })
  | .connectClient => (.ok (), { s with link := { s.link with subscriptions := [] } })
  | .endClient => (.ok (), { s with link := { s.link with subscriptions := [] } })
  | .sendTopicUpdate topic isSubscribed =>
    (.ok (), { s with link := { s.link with updates := s.link.updates ++ [(topic, isSubscribed)] } })
  | c => (.ok (cfg.execute fresh s.world c).1, { s with world := (cfg.execute fresh s.world c).2 })

end Site

/-- A command is attempted, with a new id for those that draw one, or fails. An unsubscription
that the broker refuses is answered like the others. -/
inductive Executes (cfg : Config) (s : Site) : (c : Command) → Except Exception c.Reply → Site → Prop
  | attempted (fresh : String) (c : Command) (hfresh : c = .uuid → Session.IsUuid fresh) :
      Executes cfg s c (s.attempt cfg fresh c).1 (s.attempt cfg fresh c).2
  | failed {c : Command} (e : Exception) (hfallible : c.fallible = true) :
      Executes cfg s c (.error e) s
  | kept {topic : String} (hconnected : s.link.connected = true) :
      Executes cfg s (.unsubscribe topic) (.ok ()) s

section Outcomes

variable {cfg : Config} {s t : Site}

/-- A command that changes nothing is answered with what is stored, or fails. -/
theorem executes_lookup {c : Command} {v : c.Reply} {r : Except Exception c.Reply}
    (hattempt : ∀ fresh, s.attempt cfg fresh c = (.ok v, s)) (hfallible : c.fallible = true)
    (huuid : c ≠ .uuid) (hkept : ∀ topic, c ≠ .unsubscribe topic) :
    Executes cfg s c r t ↔ t = s ∧ ∀ found, r = .ok found → found = v := by
  constructor
  · intro h
    cases h with
    | attempted fresh c =>
      rw [hattempt fresh]
      exact ⟨rfl, fun found h => (Except.ok.inj h).symm⟩
    | failed e => exact ⟨rfl, fun found h => by cases h⟩
    | kept => exact absurd rfl (hkept _)
  · rintro ⟨rfl, h⟩
    cases r with
    | ok found =>
      have hattempted : Executes cfg t c (t.attempt cfg "" c).1 (t.attempt cfg "" c).2 :=
        .attempted "" c fun h => absurd h huuid
      rw [hattempt ""] at hattempted
      rw [h found rfl]
      exact hattempted
    | error e => exact .failed e hfallible

theorem executes_findSensor {q : SensorQuery} {r : Except Exception (Option Sensor)} :
    Executes cfg s (.findSensor q) r t ↔
      t = s ∧ ∀ found, r = .ok found → found = s.world.sensors.find? (cfg.accepts q) :=
  executes_lookup (fun _ => rfl) rfl (by rintro ⟨⟩) (by rintro _ ⟨⟩)

theorem executes_findSensors {q : SensorFilter} {r : Except Exception (List Sensor)} :
    Executes cfg s (.findSensors q) r t ↔
      t = s ∧ ∀ found, r = .ok found → found = s.world.sensors.filter (cfg.selects q) :=
  executes_lookup (fun _ => rfl) rfl (by rintro ⟨⟩) (by rintro _ ⟨⟩)

theorem executes_findTopic {q : TopicQuery} {r : Except Exception (Option Mqtt.Topic)} :
    Executes cfg s (.findTopic q) r t ↔
      t = s ∧ ∀ found, r = .ok found → found = s.world.topics.find? q.accepts :=
  executes_lookup (fun _ => rfl) rfl (by rintro ⟨⟩) (by rintro _ ⟨⟩)

/-- A publication that nobody waits for is answered in any case. -/
theorem executes_publish_unawaited {topic : String} {payload : Json}
    {r : Except Exception Unit} :
    Executes cfg s (.publish false topic payload) r t ↔
      r = .ok () ∧ t = (if s.takes topic payload then s.publish topic payload else s) := by
  have hattempt : ∀ fresh, s.attempt cfg fresh (.publish false topic payload) =
      (.ok (), if s.takes topic payload then s.publish topic payload else s) := by
    intro fresh
    show (if s.takes topic payload then _ else _) = _
    split <;> rfl
  constructor
  · rintro (⟨fresh, _, -⟩ | ⟨e, hfallible⟩)
    · rw [hattempt]
      exact ⟨rfl, rfl⟩
    · cases hfallible
  · rintro ⟨rfl, rfl⟩
    have h : Executes cfg s (.publish false topic payload) _ _ :=
      .attempted "" (.publish false topic payload) (fun h => by cases h)
    rwa [hattempt] at h

/-- A publication that is waited for is taken, or its failure is seen. -/
theorem executes_publish_awaited {topic : String} {payload : Json} {r : Except Exception Unit} :
    Executes cfg s (.publish true topic payload) r t ↔
      (s.takes topic payload = true ∧ r = .ok () ∧ t = s.publish topic payload) ∨
        ((∃ e, r = .error e) ∧ t = s) := by
  constructor
  · rintro (⟨fresh, _, -⟩ | ⟨e, -⟩)
    · unfold Site.attempt
      dsimp only
      split
      · exact .inl ⟨‹_›, rfl, rfl⟩
      · exact .inr ⟨⟨_, rfl⟩, rfl⟩
    · exact .inr ⟨⟨e, rfl⟩, rfl⟩
  · rintro (⟨htakes, rfl, rfl⟩ | ⟨⟨e, rfl⟩, rfl⟩)
    · have hattempted : Executes cfg s (.publish true topic payload) _ _ :=
        .attempted "" (.publish true topic payload) (fun h => by cases h)
      rw [Site.attempt, if_pos htakes] at hattempted
      exact hattempted
    · exact .failed e rfl

/-- Waited for or not, a message is sent or it is not. -/
theorem executes_publish {awaited : Bool} {topic : String} {payload : Json}
    {r : Except Exception Unit} (h : Executes cfg s (.publish awaited topic payload) r t) :
    t = s ∨ t = s.publish topic payload := by
  cases awaited with
  | true =>
    obtain ⟨-, -, hsent⟩ | ⟨-, hsame⟩ := executes_publish_awaited.mp h
    · exact .inr hsent
    · exact .inl hsame
  | false =>
    obtain ⟨-, ht⟩ := executes_publish_unawaited.mp h
    by_cases htakes : s.takes topic payload = true
    · exact .inr (by rw [ht, if_pos htakes])
    · exact .inl (by rw [ht, if_neg htakes])

/-- An update that fails changes nothing. -/
theorem executes_updateSensors {deviceId : JsVal} {u : SensorUpdate} {r : Except Exception Unit} :
    Executes cfg s (.updateSensors deviceId u) r t ↔
      (r = .ok () ∧ t = s.updateSensors cfg deviceId u) ∨ ((∃ e, r = .error e) ∧ t = s) := by
  constructor
  · rintro (⟨fresh, _, -⟩ | ⟨e, -⟩)
    · exact .inl ⟨rfl, rfl⟩
    · exact .inr ⟨⟨e, rfl⟩, rfl⟩
  · rintro (⟨rfl, rfl⟩ | ⟨⟨e, rfl⟩, rfl⟩)
    · exact .attempted "" (.updateSensors deviceId u) (fun h => by cases h)
    · exact .failed e rfl

theorem executes_uuid {r : Except Exception String} :
    Executes cfg s .uuid r t ↔ t = s ∧ ∃ u, Session.IsUuid u ∧ r = .ok u := by
  constructor
  · rintro (⟨fresh, _, hfresh⟩ | ⟨e, hfallible⟩)
    · exact ⟨rfl, fresh, hfresh rfl, rfl⟩
    · cases hfallible
  · rintro ⟨rfl, u, hu, rfl⟩
    exact .attempted u .uuid fun _ => hu

/-- The write to the cache is sent in any case. -/
theorem executes_cacheSetex {key : String} {value : Json} {r : Except Exception Unit} :
    Executes cfg s (.cacheSetex key value) r t ↔ r = .ok () ∧
      t = { s with world := { s.world with inFlight := s.world.inFlight ++ [⟨key, value⟩] } } := by
  constructor
  · rintro (⟨fresh, _, -⟩ | ⟨e, hfallible⟩)
    · exact ⟨rfl, rfl⟩
    · cases hfallible
  · rintro ⟨rfl, rfl⟩
    exact .attempted "" (.cacheSetex key value) (fun h => by cases h)

end Outcomes

end IotPanel.Device
