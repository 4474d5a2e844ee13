import IotPanel.Device.Subscription

/-!
# Connecting again

`disconnect` sends an update for every marked topic and does not wait for it; the callback of the
next connection reads the marks to find out what to subscribe to. Which marks are left by then is
a matter of time.
-/

namespace IotPanel.Device

open Mqtt (Topic)
open Program

/-- What happens while the services disconnect and connect: an update of the topics of a name is
executed, or a command is. -/
inductive Deed
  | updated (topic : String)
  | did (c : Command)

/-- A site with what has happened, the last first. -/
abbrev Timeline := Site × List Deed

/-- One of the updates that are under way is executed. -/
inductive Lands : Timeline → Timeline → Prop
  | mk {s : Site} {l : List Deed} {before after : List (String × Bool)} {topic : String}
      {isSubscribed : Bool} (h : s.link.updates = before ++ (topic, isSubscribed) :: after) :
      Lands (s, l) (s.updateTopics topic isSubscribed (before ++ after), .updated topic :: l)

/-- Any number of updates are executed, and then the command. Nothing fails. -/
inductive Timely (cfg : Config) : Timeline → (c : Command) → Except Exception c.Reply → Timeline → Prop
  | now (s : Site) (l : List Deed) (fresh : String) (c : Command) :
      Timely cfg (s, l) c (s.attempt cfg fresh c).1 ((s.attempt cfg fresh c).2, .did c :: l)
  | later {p p' q : Timeline} {c : Command} {r : Except Exception c.Reply} (hland : Lands p p')
      (h : Timely cfg p' c r q) : Timely cfg p c r q

def broadcastName (cfg : Config) : String := cfg.topics.deviceTopic "Mqtt_Broker" .broadcast

/-- After the callback the client is subscribed to the topics that were marked and to the broadcast
topic, and the broadcast topic is found. -/
structure Restored (cfg : Config) (s : Site) (r : Except Exception Unit) (t : Site) : Prop where
  returns : r = .ok ()
  subscribed : ∀ row ∈ s.world.topics, row.isSubscribed = true →
    row.topic ∈ t.link.subscriptions
  broadcast : broadcastName cfg ∈ t.link.subscriptions
  found : ∃ row, TopicService.getBroadcastTopic.run (answer cfg t.world) = .ok row

/-! ### Marks in the course of time -/

/-- A marked row with `P` is left after these deeds: it was there and none of them has cleared
its mark, or it has been stored since. -/
def Lasts (s : Site) (P : Topic → Prop) : List Deed → Prop
  | [] => ∃ row ∈ s.world.topics, row.isSubscribed = true ∧ P row
  | .updated topic :: l => Lasts s (fun row => P row ∧ row.topic ≠ topic) l
  | .did (.saveTopic row) :: l => (row.isSubscribed = true ∧ P row) ∨ Lasts s P l
  | .did _ :: l => Lasts s P l

def Deed.reads : Deed → Bool
  | .did (.findTopics _) => true
  | _ => false

/-- What had happened when the marks were last read. -/
def untilRead (l : List Deed) : List Deed := l.dropWhile fun e => !e.reads

/-- Until the callback reads the marks no update of a marked topic has been executed, the broadcast
topic apart, and there is a marked row whose topic has had none; and until its end there is one for
the broadcast. -/
structure InTime (cfg : Config) (s : Site) (l : List Deed) : Prop where
  kept : ∀ row ∈ s.world.topics, row.isSubscribed = true → row.topic ≠ broadcastName cfg →
    .updated row.topic ∉ untilRead l
  left : Lasts s (fun _ => True) (untilRead l)
  broadcast : Lasts s (fun row => row.deviceId = "Mqtt_Broker" ∧ row.useCase = .broadcast) l

/-- What is so at any time: updates clear marks, the marks that are left are those of the record,
and no row has been stored but that of the broadcast. -/
structure Recorded (cfg : Config) (s : Site) (p : Timeline) : Prop where
  sent : ∀ u ∈ p.1.link.updates, u.2 = false
  marks : ∀ P : Topic → Prop,
    (∃ row ∈ p.1.world.topics, row.isSubscribed = true ∧ P row) ↔ Lasts s P p.2
  stored : ∀ row, .did (.saveTopic row) ∈ p.2 → row.topic = broadcastName cfg

/-- Updates only clear marks, and only the row of the broadcast is stored. -/
def reconnecting (cfg : Config) : Protocol Unit Command Command.Reply Exception where
  allowed _ c :=
    match c with
    | .sendTopicUpdate _ isSubscribed => isSubscribed = false
    | .saveTopic row => row.topic = broadcastName cfg
    | _ => True
  next _ _ _ := ()

section Time

variable {cfg : Config} {s : Site} {p p' q : Timeline} {c : Command}
  {r : Except Exception c.Reply}

theorem Recorded.start (h : ∀ u ∈ s.link.updates, u.2 = false) : Recorded cfg s (s, []) :=
  ⟨h, fun _ => Iff.rfl, fun _ hrow => absurd hrow List.not_mem_nil⟩

theorem Recorded.lands (h : Recorded cfg s p) (hland : Lands p p') : Recorded cfg s p' := by
  obtain ⟨hsplit⟩ := hland
  rename_i s' l before after topic isSubscribed
  have hsent : ∀ u ∈ before ++ (topic, isSubscribed) :: after, u.2 = false := hsplit ▸ h.sent
  obtain rfl : isSubscribed = false :=
    hsent (topic, isSubscribed) (List.mem_append_right _ List.mem_cons_self)
  refine ⟨fun u hu => ?_, fun P => ?_, fun row hrow => ?_⟩
  · refine hsent u ?_
    rcases List.mem_append.mp hu with hu | hu
    · exact List.mem_append_left _ hu
    · exact List.mem_append_right _ (List.mem_cons_of_mem _ hu)
  · refine Iff.trans ?_ (h.marks fun row => P row ∧ row.topic ≠ topic)
    constructor
    · rintro ⟨_, hrow, hmarked, hP⟩
      obtain ⟨row, hmem, rfl⟩ := List.mem_map.mp hrow
      by_cases htopic : row.topic = topic
      · rw [if_pos htopic] at hmarked
        cases hmarked
      · rw [if_neg htopic] at hmarked hP
        exact ⟨row, hmem, hmarked, hP, htopic⟩
    · rintro ⟨row, hrow, hmarked, hP, htopic⟩
      exact ⟨row, List.mem_map.mpr ⟨row, hrow, if_neg htopic⟩, hmarked, hP⟩
  · rcases List.mem_cons.mp hrow with hrow | hrow
    · cases hrow
    · exact h.stored row hrow

/-- Most commands change neither the topics nor what has been sent of them. -/
theorem attempt_same {fresh : String} (hsave : ∀ row, c ≠ .saveTopic row)
    (hsend : ∀ topic isSubscribed, c ≠ .sendTopicUpdate topic isSubscribed) :
    (s.attempt cfg fresh c).2.world.topics = s.world.topics ∧
      (s.attempt cfg fresh c).2.link.updates = s.link.updates := by
  cases c with
  | saveTopic row => exact absurd rfl (hsave row)
  | sendTopicUpdate topic isSubscribed => exact absurd rfl (hsend topic isSubscribed)
  | publish awaited topic payload =>
    show (if _ then _ else _ : Except Exception Unit × Site).2.world.topics = _ ∧
      (if _ then _ else _ : Except Exception Unit × Site).2.link.updates = _
    split <;> exact ⟨rfl, rfl⟩
  | subscribe topics | unsubscribe topic =>
    show (if _ then _ else _ : Except Exception Unit × Site).2.world.topics = _ ∧
      (if _ then _ else _ : Except Exception Unit × Site).2.link.updates = _
    split <;> exact ⟨rfl, rfl⟩
  | _ => exact ⟨rfl, rfl⟩

/-- The command itself. -/
theorem Recorded.now {t : Site} {l : List Deed} {fresh : String} (h : Recorded cfg s (t, l))
    (hallowed : (reconnecting cfg).allowed () c) :
    Recorded cfg s ((t.attempt cfg fresh c).2, .did c :: l) := by
  have hsaved : ∀ row, Deed.did (.saveTopic row) ∈ Deed.did c :: l →
      row.topic = broadcastName cfg := by
    intro row hrow
    rcases List.mem_cons.mp hrow with hrow | hrow
    · cases hrow
      exact hallowed
    · exact h.stored row hrow
  by_cases hsave : ∃ row, c = .saveTopic row
  · obtain ⟨row, rfl⟩ := hsave
    refine ⟨h.sent, fun P => ?_, hsaved⟩
    show (∃ row' ∈ t.world.topics ++ [row], row'.isSubscribed = true ∧ P row') ↔
      (row.isSubscribed = true ∧ P row) ∨ Lasts s P l
    rw [← h.marks P]
    constructor
    · rintro ⟨row', hrow, hmarked⟩
      rcases List.mem_append.mp hrow with hrow | hrow
      · exact .inr ⟨row', hrow, hmarked⟩
      · obtain rfl := List.mem_singleton.mp hrow
        exact .inl hmarked
    · rintro (hmarked | ⟨row', hrow, hmarked⟩)
      · exact ⟨row, List.mem_append_right _ (List.mem_singleton_self row), hmarked⟩
      · exact ⟨row', List.mem_append_left _ hrow, hmarked⟩
  -- an update that is sent is on its way only; it is executed later
  by_cases hsend : ∃ topic isSubscribed, c = .sendTopicUpdate topic isSubscribed
  · obtain ⟨topic, isSubscribed, rfl⟩ := hsend
    obtain rfl : isSubscribed = false := hallowed
    refine ⟨fun u hu => ?_, h.marks, hsaved⟩
    rcases List.mem_append.mp hu with hu | hu
    · exact h.sent u hu
    · rw [List.mem_singleton.mp hu]
  obtain ⟨htopics, hupdates⟩ : (t.attempt cfg fresh c).2.world.topics = t.world.topics ∧
      (t.attempt cfg fresh c).2.link.updates = t.link.updates :=
    attempt_same (fun row hc => hsave ⟨row, hc⟩)
      fun topic isSubscribed hc => hsend ⟨topic, isSubscribed, hc⟩
  refine ⟨fun u hu => h.sent u (hupdates ▸ hu), fun P => ?_, hsaved⟩
  have hlasts : Lasts s P (.did c :: l) ↔ Lasts s P l := by
    cases c with
    | saveTopic row => exact absurd ⟨row, rfl⟩ hsave
    | _ => exact Iff.rfl
  rw [htopics, hlasts]
  exact h.marks P

theorem Recorded.step (h : Recorded cfg s p) (hallowed : (reconnecting cfg).allowed () c)
    (hstep : Timely cfg p c r q) : Recorded cfg s q := by
  induction hstep with
  | now t l fresh c => exact h.now hallowed
  | later hland _ ih => exact ih (h.lands hland) hallowed

theorem Recorded.run {α : Type} {x : Prog α} {r : Except Exception α} (h : Recorded cfg s p)
    (hx : x.Stays (reconnecting cfg) ()) (hrun : x.Runs (Timely cfg) p r q) : Recorded cfg s q := by
  obtain ⟨_, -, hq⟩ := hrun.of_wp (A := fun p _ => Recorded cfg s p) hx h
    fun _ _ _ _ _ hA hallowed hstep => hA.step hallowed hstep
  exact hq

/-- The time until a command: only updates are executed. -/
structure Waits (p p' : Timeline) : Prop where
  connected : p'.1.link.connected = p.1.link.connected
  subscriptions : p'.1.link.subscriptions = p.1.link.subscriptions
  read : untilRead p'.2 = untilRead p.2

theorem Waits.lands (hland : Lands p p') (h : Waits p' q) : Waits p q := by
  obtain ⟨hsplit⟩ := hland
  exact ⟨h.connected, h.subscriptions, h.read⟩

theorem timely_cases (h : Timely cfg p c r q) :
    ∃ p' fresh, Waits p p' ∧ r = (p'.1.attempt cfg fresh c).1 ∧
      q = ((p'.1.attempt cfg fresh c).2, .did c :: p'.2) := by
  induction h with
  | now t l fresh c => exact ⟨(t, l), fresh, ⟨rfl, rfl, rfl⟩, rfl, rfl⟩
  | later hland _ ih =>
    obtain ⟨p', fresh, hwaits, hr, hq⟩ := ih
    exact ⟨p', fresh, hwaits.lands hland, hr, hq⟩

/-! ### The parts of the callback -/

theorem runs_findTopic_timely {f : TopicQuery} {r : Except Exception (Option Topic)}
    (h : (findTopic f).Runs (Timely cfg) p r q) :
    (∃ found, r = .ok found ∧ ∀ t, found = some t → f.accepts t = true) ∧
      q.1.link.connected = p.1.link.connected ∧
        q.1.link.subscriptions = p.1.link.subscriptions := by
  obtain ⟨p', fresh, hwaits, rfl, rfl⟩ := timely_cases (Program.runs_perform.mp h)
  exact ⟨⟨_, rfl, fun t ht => List.find?_some ht⟩, hwaits.connected, hwaits.subscriptions⟩

/-- The topic of the broadcast is found or stored, and nothing is subscribed to on the way. -/
theorem runs_createTopic {r : Except Exception Topic}
    (h : (TopicService.createTopic cfg "Mqtt_Broker" .broadcast).Runs (Timely cfg) p r q) :
    (∃ b, r = .ok b ∧ b.topic = broadcastName cfg) ∧
      q.1.link.connected = p.1.link.connected ∧
        q.1.link.subscriptions = p.1.link.subscriptions := by
  have hname : ∀ {f : TopicQuery} {t : Topic}, f.topic = some (broadcastName cfg) →
      f.accepts t = true → t.topic = broadcastName cfg := by
    intro f t hf haccepts
    simp only [TopicQuery.accepts, hf, Option.all_some, Bool.and_eq_true, beq_iff_eq] at haccepts
    exact haccepts.1.1.2.symm
  obtain ⟨found, p₁, hfind, h1⟩ | ⟨e, rfl, hfind⟩ := Program.runs_bind.mp h
  swap
  · obtain ⟨⟨_, he, -⟩, -⟩ := runs_findTopic_timely hfind
    cases he
  obtain ⟨⟨_, ⟨⟩, hfound⟩, hconnected, hsubscriptions⟩ := runs_findTopic_timely hfind
  cases found with
  | some t =>
    obtain ⟨rfl, rfl⟩ := Program.runs_pure.mp h1
    exact ⟨⟨t, rfl, hname rfl (hfound t rfl)⟩, hconnected, hsubscriptions⟩
  -- the second lookup is by the use case
  | none =>
    obtain ⟨found, p₂, hfind, h2⟩ | ⟨e, rfl, hfind⟩ := Program.runs_bind.mp h1
    swap
    · obtain ⟨⟨_, he, -⟩, -⟩ := runs_findTopic_timely hfind
      cases he
    obtain ⟨⟨_, ⟨⟩, hfound⟩, hconnected', hsubscriptions'⟩ := runs_findTopic_timely hfind
    cases found with
    | some t =>
      obtain ⟨rfl, rfl⟩ := Program.runs_pure.mp h2
      exact ⟨⟨t, rfl, hname rfl (hfound t rfl)⟩, hconnected'.trans hconnected,
        hsubscriptions'.trans hsubscriptions⟩
    | none =>
      obtain ⟨⟨⟩, p₃, hsave, h3⟩ | ⟨e, rfl, hsave⟩ := Program.runs_bind.mp h2
      swap
      · obtain ⟨_, _, -, he, -⟩ := timely_cases (Program.runs_perform.mp hsave)
        cases he
      obtain ⟨p', fresh, hwaits, -, rfl⟩ := timely_cases (Program.runs_perform.mp hsave)
      obtain ⟨rfl, rfl⟩ := Program.runs_pure.mp h3
      exact ⟨⟨_, rfl, rfl⟩, hwaits.connected.trans (hconnected'.trans hconnected),
        hwaits.subscriptions.trans (hsubscriptions'.trans hsubscriptions)⟩

theorem stays_createTopic_reconnecting :
    (TopicService.createTopic cfg "Mqtt_Broker" .broadcast).Stays (reconnecting cfg) () := by
  have hsave : (reconnecting cfg).allowed () (.saveTopic ⟨cfg.topics.mqttBrokerUrl, "Mqtt_Broker",
      cfg.topics.deviceTopic "Mqtt_Broker" .broadcast, .broadcast, true⟩) := rfl
  exact stays_createTopic_of (fun _ => stays_perform trivial fun _ => rfl)
    (stays_perform hsave fun _ => rfl)

/-- The topics that are marked. -/
def marked (w : World) : List Topic := w.topics.filter subscribedTopics.accepts

theorem mem_marked {w : World} {row : Topic} :
    row ∈ marked w ↔ row ∈ w.topics ∧ row.isSubscribed = true := by
  rw [marked, List.mem_filter, accepts_subscribedTopics]

/-- The marks are read by a command of their own, and the callback throws when there are none. -/
theorem runs_getAllSubscribedTopics {r : Except Exception (List Topic)}
    (hrecorded : Recorded cfg s p)
    (h : TopicService.getAllSubscribedTopics.Runs (Timely cfg) p r q) :
    Recorded cfg s q ∧ untilRead q.2 = q.2 ∧ q.1.link.connected = p.1.link.connected ∧
      q.1.link.subscriptions = p.1.link.subscriptions ∧
        ((marked q.1.world = [] ∧ ∃ e, r = .error e) ∨
          (marked q.1.world ≠ [] ∧ r = .ok (marked q.1.world))) := by
  obtain ⟨ts, p₁, hfind, h1⟩ | ⟨e, rfl, hfind⟩ := Program.runs_bind.mp h
  swap
  · obtain ⟨_, _, -, he, -⟩ := timely_cases (Program.runs_perform.mp hfind)
    cases he
  have hrecorded' := hrecorded.step (c := .findTopics _) trivial (Program.runs_perform.mp hfind)
  obtain ⟨p', fresh, hwaits, hts, rfl⟩ := timely_cases (Program.runs_perform.mp hfind)
  obtain rfl : ts = marked p'.1.world := Except.ok.inj hts
  change (if _ then _ else _ : Prog (List Topic)).Runs _ _ _ _ at h1
  split at h1
  · rename_i hnone
    obtain ⟨_, _, hthrow, -⟩ | ⟨e, rfl, hthrow⟩ := Program.runs_bind.mp h1
    · cases (Program.runs_throw.mp hthrow).1
    · obtain ⟨-, rfl⟩ := Program.runs_throw.mp hthrow
      exact ⟨hrecorded', rfl, hwaits.connected, hwaits.subscriptions, .inl ⟨hnone, e, rfl⟩⟩
  · rename_i hsome
    obtain ⟨rfl, rfl⟩ := Program.runs_pure.mp h1
    exact ⟨hrecorded', rfl, hwaits.connected, hwaits.subscriptions, .inr ⟨hsome, rfl⟩⟩

/-- The state in which the callback has read the marks; it throws when there is none, and
subscribes to all of them otherwise. -/
theorem onConnect_cases {r : Except Exception Unit} (hrecorded : Recorded cfg s p)
    (h : (MqttClientService.onConnect cfg).Runs (Timely cfg) p r q) :
    Recorded cfg s q ∧ ∃ read : Timeline, Recorded cfg s read ∧ untilRead q.2 = read.2 ∧
      ((marked read.1.world = [] ∧ ∃ e, r = .error e) ∨
        (marked read.1.world ≠ [] ∧ r = .ok () ∧ q.1.link.subscriptions = p.1.link.subscriptions ++
          ((marked read.1.world).map (fun t => t.topic) ++ [broadcastName cfg]))) := by
  obtain ⟨⟨⟩, p₁, hset, h1⟩ | ⟨e, rfl, hset⟩ := Program.runs_bind.mp h
  swap
  · obtain ⟨_, _, -, he, -⟩ := timely_cases (Program.runs_perform.mp hset)
    cases he
  have hrecorded₁ := hrecorded.step (c := .setConnected _) trivial (Program.runs_perform.mp hset)
  obtain ⟨p', fresh, hwaits, -, rfl⟩ := timely_cases (Program.runs_perform.mp hset)
  obtain ⟨b, p₂, hcreate, h2⟩ | ⟨e, rfl, hcreate⟩ := Program.runs_bind.mp h1
  swap
  · obtain ⟨⟨_, he, -⟩, -⟩ := runs_createTopic hcreate
    cases he
  -- the topic of the broadcast, which is subscribed to in any case
  have hrecorded₂ := hrecorded₁.run stays_createTopic_reconnecting hcreate
  obtain ⟨⟨_, ⟨⟩, hname⟩, hconnected₂, hsubscriptions₂⟩ := runs_createTopic hcreate
  obtain ⟨ts, p₃, hread, h3⟩ | ⟨e, rfl, hread⟩ := Program.runs_bind.mp h2
  swap
  · obtain ⟨hrecorded₃, hlog, -, -, ⟨hnone, -⟩ | ⟨-, he⟩⟩ :=
      runs_getAllSubscribedTopics hrecorded₂ hread
    · exact ⟨hrecorded₃, q, hrecorded₃, hlog, .inl ⟨hnone, e, rfl⟩⟩
    · cases he
  obtain ⟨hrecorded₃, hlog, hconnected₃, hsubscriptions₃, ⟨-, e, he⟩ | ⟨hsome, ⟨⟩⟩⟩ :=
    runs_getAllSubscribedTopics hrecorded₂ hread
  · cases he
  have hrecorded₄ := hrecorded₃.step (c := .subscribe _) trivial (Program.runs_perform.mp h3)
  obtain ⟨p'', fresh', hwaits', hr, rfl⟩ := timely_cases (Program.runs_perform.mp h3)
  have hconnected : p''.1.link.connected = true := by
    rw [hwaits'.connected, hconnected₃, hconnected₂]
    rfl
  have hsubscribe : p''.1.attempt cfg fresh'
      (.subscribe ((marked p₃.1.world).map (fun t => t.topic) ++ [b.topic])) =
        (.ok (), p''.1.setSubscriptions (p''.1.link.subscriptions ++
          ((marked p₃.1.world).map (fun t => t.topic) ++ [b.topic]))) := if_pos hconnected
  rw [hsubscribe] at hr
  refine ⟨hrecorded₄, p₃, hrecorded₃, ?_, .inr ⟨hsome, hr, ?_⟩⟩
  · exact hwaits'.read.trans hlog
  · rw [hsubscribe, hname]
    show p''.1.link.subscriptions ++ _ = _
    rw [hwaits'.subscriptions, hsubscriptions₃, hsubscriptions₂]
    show p'.1.link.subscriptions ++ _ = _
    rw [hwaits.subscriptions]

theorem stays_forM {topics : List Topic} :
    (topics.forM fun t => sendTopicUpdate t.topic false).Stays (reconnecting cfg) () := by
  induction topics with
  | nil => exact stays_pure
  | cons t ts ih => exact stays_bind (stays_perform rfl fun _ => rfl) fun _ => ih

theorem stays_disconnect : MqttClientService.disconnect.Stays (reconnecting cfg) () := by
  refine stays_tryCatch (stays_bind (stays_bind (stays_perform trivial fun _ => rfl) ?_) ?_) ?_
  · intro topics
    exact stays_ite (fun _ => stays_bind stays_throw fun _ => stays_pure) fun _ => stays_pure
  · intro topics
    refine stays_bind stays_forM fun _ => ?_
    exact stays_bind (stays_perform trivial fun _ => rfl) fun _ =>
      stays_perform trivial fun _ => rfl
  · exact fun _ => stays_throw

theorem stays_initConnection : MqttClientService.initConnection.Stays (reconnecting cfg) () :=
  stays_tryCatch (stays_perform trivial fun _ => rfl) fun _ => stays_throw

/-- A new client has no subscriptions. -/
theorem runs_initConnection
    (h : MqttClientService.initConnection.Runs (Timely cfg) p (.ok ()) q) :
    q.1.link.subscriptions = [] := by
  obtain ⟨_, -, hconnect⟩ | ⟨e, p', hconnect, -⟩ := Program.runs_tryCatch.mp h
  · obtain ⟨p', fresh, -, -, rfl⟩ := timely_cases (Program.runs_perform.mp hconnect)
    rfl
  · obtain ⟨_, _, -, he, -⟩ := timely_cases (Program.runs_perform.mp hconnect)
    cases he

end Time

/-! ### What is left of the marks -/

namespace Lasts

variable {s : Site} {l : List Deed} {P : Topic → Prop} {cfg : Config}

theorem exists_row (h : Lasts s P l) : ∃ row, P row := by
  induction l generalizing P with
  | nil =>
    obtain ⟨row, -, -, hP⟩ := h
    exact ⟨row, hP⟩
  | cons e l ih =>
    cases e with
    | updated topic =>
      obtain ⟨row, hP, -⟩ := ih h
      exact ⟨row, hP⟩
    | did c =>
      cases c with
      | saveTopic row =>
        rcases h with ⟨-, hP⟩ | h
        · exact ⟨row, hP⟩
        · exact ih h
      | _ => exact ih h

/-- A mark of another topic than the broadcast topic that is left has not been cleared. -/
theorem not_updated {topic : String} (h : Lasts s P l) (hP : ∀ row, P row → row.topic = topic)
    (hstored : ∀ row, .did (.saveTopic row) ∈ l → row.topic = broadcastName cfg)
    (hne : topic ≠ broadcastName cfg) : .updated topic ∉ l := by
  induction l generalizing P with
  | nil => exact List.not_mem_nil
  | cons e l ih =>
    have hstored' : ∀ row, .did (.saveTopic row) ∈ l → row.topic = broadcastName cfg :=
      fun row hrow => hstored row (List.mem_cons_of_mem _ hrow)
    intro hmem
    cases e with
    | updated other =>
      rcases List.mem_cons.mp hmem with heq | hmem
      · cases heq
        have hnone : Lasts s (fun row => P row ∧ row.topic ≠ topic) l := h
        obtain ⟨row, hrow, hother⟩ := hnone.exists_row
        exact hother (hP row hrow)
      · exact ih h (fun row hrow => hP row hrow.1) hstored' hmem
    | did c =>
      have hearlier : Deed.updated topic ∈ l := (List.mem_cons.mp hmem).resolve_left nofun
      cases c with
      | saveTopic row =>
        rcases h with ⟨-, hrow⟩ | h
        · exact hne ((hP row hrow).symm.trans (hstored row List.mem_cons_self))
        · exact ih h hP hstored' hearlier
      | _ => exact ih h hP hstored' hearlier

/-- A mark that has not been cleared is left. -/
theorem of_not_updated {row : Topic} (hrow : row ∈ s.world.topics)
    (hmarked : row.isSubscribed = true) (hP : P row) (h : .updated row.topic ∉ l) :
    Lasts s P l := by
  induction l generalizing P with
  | nil => exact ⟨row, hrow, hmarked, hP⟩
  | cons e l ih =>
    have hl : .updated row.topic ∉ l := fun hmem => h (List.mem_cons_of_mem _ hmem)
    cases e with
    | updated topic =>
      refine ih ⟨hP, ?_⟩ hl
      rintro rfl
      exact h List.mem_cons_self
    | did c =>
      cases c with
      | saveTopic stored => exact .inr (ih hP hl)
      | _ => exact ih hP hl

end Lasts

/-- The broadcast topic is found when one of its rows is marked. -/
theorem found_iff {cfg : Config} {w : World} :
    (∃ row, TopicService.getBroadcastTopic.run (answer cfg w) = .ok row) ↔
      ∃ row ∈ w.topics, row.isSubscribed = true ∧
        (row.deviceId = "Mqtt_Broker" ∧ row.useCase = .broadcast) := by
  have haccepts : ∀ row, broadcastQuery.accepts row = true ↔ row.isSubscribed = true ∧
      (row.deviceId = "Mqtt_Broker" ∧ row.useCase = .broadcast) := by
    intro row
    simp only [broadcastQuery, TopicQuery.accepts, Option.all_none, Option.all_some, Bool.true_and,
      Bool.and_true, Bool.and_eq_true, beq_iff_eq, decide_eq_true_eq]
    constructor
    · rintro ⟨⟨hdevice, huse⟩, hmark⟩
      exact ⟨hmark.symm, hdevice.symm, huse.symm⟩
    · rintro ⟨hmark, hdevice, huse⟩
      exact ⟨⟨hdevice.symm, huse.symm⟩, hmark.symm⟩
  rw [TopicService.getBroadcastTopic, run_findTopic]
  constructor
  · rintro ⟨row, hrow⟩
    cases hfind : w.topics.find? broadcastQuery.accepts with
    | none =>
      rw [broadcastQuery] at hfind
      rw [hfind] at hrow
      cases hrow
    | some t => exact ⟨t, List.mem_of_find?_eq_some hfind, (haccepts t).mp (List.find?_some hfind)⟩
  · rintro ⟨row, hrow, hmark⟩
    have hsome := List.find?_isSome.mpr ⟨row, hrow, (haccepts row).mpr hmark⟩
    obtain ⟨t, ht⟩ := Option.isSome_iff_exists.mp hsome
    rw [broadcastQuery] at ht
    rw [ht]
    exact ⟨t, rfl⟩

/-- A connection that follows a disconnection restores the subscriptions exactly when the updates
that the disconnection has sent are executed late enough. -/
theorem restored_iff_inTime (cfg : Config) {s : Site} {p₁ p₂ p₃ : Timeline}
    {r : Except Exception Unit} (hsent : ∀ u ∈ s.link.updates, u.2 = false)
    (hdisconnect : MqttClientService.disconnect.Runs (Timely cfg) (s, []) (.ok ()) p₁)
    (hconnect : MqttClientService.initConnection.Runs (Timely cfg) p₁ (.ok ()) p₂)
    (hcallback : (MqttClientService.onConnect cfg).Runs (Timely cfg) p₂ r p₃) :
    Restored cfg s r p₃.1 ↔ InTime cfg s p₃.2 := by
  have hrecorded := ((Recorded.start hsent).run stays_disconnect hdisconnect).run
    stays_initConnection hconnect
  obtain ⟨hend, read, hread, hlog, hcases⟩ := onConnect_cases hrecorded hcallback
  rw [runs_initConnection hconnect] at hcases
  constructor
  · -- all is restored: what the callback has subscribed to was still marked when it read
    rintro ⟨rfl, hsubscribed, -, hfound⟩
    obtain ⟨-, e, he⟩ | ⟨hsome, -, hsubscriptions⟩ := hcases
    · cases he
    refine ⟨fun row hrow hmarked hne => ?_, ?_, (hend.marks _).mp (found_iff.mp hfound)⟩
    · rw [hlog]
      have htopic := hsubscribed row hrow hmarked
      rw [hsubscriptions, List.nil_append] at htopic
      rcases List.mem_append.mp htopic with htopic | htopic
      · obtain ⟨row', hrow', heq⟩ := List.mem_map.mp htopic
        obtain ⟨hmem, hmark⟩ := mem_marked.mp hrow'
        exact ((hread.marks fun t => t.topic = row.topic).mp ⟨row', hmem, hmark, heq⟩).not_updated
          (fun _ h => h) hread.stored hne
      · exact absurd (List.mem_singleton.mp htopic) hne
    · rw [hlog]
      obtain ⟨row, hrow⟩ := List.exists_mem_of_ne_nil _ hsome
      obtain ⟨hmem, hmark⟩ := mem_marked.mp hrow
      exact (hread.marks _).mp ⟨row, hmem, hmark, trivial⟩
  · -- the updates are late: the marks are there to be read
    rintro ⟨hkept, hleft, hbroadcast⟩
    rw [hlog] at hkept hleft
    obtain ⟨row, hmem, hmark, -⟩ := (hread.marks _).mpr hleft
    obtain ⟨hnone, -⟩ | ⟨-, rfl, hsubscriptions⟩ := hcases
    · exact absurd (hnone ▸ mem_marked.mpr ⟨hmem, hmark⟩) List.not_mem_nil
    rw [List.nil_append] at hsubscriptions
    refine ⟨rfl, fun row hrow hmarked => ?_, ?_, found_iff.mpr ((hend.marks _).mpr hbroadcast)⟩
    · rw [hsubscriptions]
      by_cases hne : row.topic = broadcastName cfg
      · rw [hne]
        exact List.mem_append_right _ (List.mem_singleton_self _)
      · have hlasts : Lasts s (fun t => t.topic = row.topic) read.2 :=
          .of_not_updated hrow hmarked rfl (hkept row hrow hmarked hne)
        obtain ⟨row', hmem', hmark', heq⟩ := (hread.marks _).mpr hlasts
        exact List.mem_append_left _ (List.mem_map.mpr ⟨row', mem_marked.mpr ⟨hmem', hmark'⟩, heq⟩)
    · rw [hsubscriptions]
      exact List.mem_append_right _ (List.mem_singleton_self _)

/-! ### A panel that connects again -/

/-- All updates that are under way are executed. -/
def landAll : List (String × Bool) → Timeline → Timeline
  | [], p => p
  | (topic, isSubscribed) :: updates, (s, l) =>
    landAll updates (s.updateTopics topic isSubscribed updates, .updated topic :: l)

theorem Timely.landAll {cfg : Config} {updates : List (String × Bool)} {p q : Timeline}
    {c : Command} {r : Except Exception c.Reply} (hupdates : p.1.link.updates = updates)
    (h : Timely cfg (landAll updates p) c r q) : Timely cfg p c r q := by
  induction updates generalizing p with
  | nil => exact h
  | cons u updates ih =>
    obtain ⟨s, l⟩ := p
    obtain ⟨topic, isSubscribed⟩ := u
    exact .later (@Lands.mk s l [] updates topic isSubscribed hupdates) (ih rfl h)

/-- A run in which updates are executed as early, or as late, as can be. -/
def paced {α : Type} (cfg : Config) (early : Bool) :
    Prog α → Timeline → Except Exception α × Timeline
  | .ret a, p => (a, p)
  | .await c k, p =>
    let p' := if early then landAll p.1.link.updates p else p
    let (r, s) := p'.1.attempt cfg "" c
    paced cfg early (k r) (s, .did c :: p'.2)

theorem runs_paced {α : Type} (cfg : Config) (early : Bool) (x : Prog α) (p : Timeline) :
    x.Runs (Timely cfg) p (paced cfg early x p).1 (paced cfg early x p).2 := by
  induction x generalizing p with
  | ret a => exact .ret
  | await c k ih =>
    refine .await ?_ (ih _ _)
    cases early with
    | true => exact .landAll rfl (.now _ _ "" c)
    | false => exact .now _ _ "" c

/-- The client is connected, and subscribed to the broadcast topic. -/
def broadcastSite : Site where
  world := { panel with
    topics := [⟨"mqtt://broker", "Mqtt_Broker", "iot/Mqtt_Broker/broadcast", .broadcast, true⟩] }
  link := { connected := true, accepts := fun _ _ => true, sent := [],
            subscriptions := ["iot/Mqtt_Broker/broadcast"], updates := [] }

theorem sent_broadcastSite : ∀ u ∈ broadcastSite.link.updates, u.2 = false :=
  fun _ hu => absurd hu List.not_mem_nil

/-- The run of the callback in a connection that follows a disconnection. -/
def reconnected (early : Bool) : Except Exception Unit × Timeline :=
  let p₁ := (paced panelConfig early MqttClientService.disconnect (broadcastSite, [])).2
  let p₂ := (paced panelConfig early MqttClientService.initConnection p₁).2
  paced panelConfig early (MqttClientService.onConnect panelConfig) p₂

/-- Without an update in time nothing is lost. -/
theorem restored_iff_inTime_late :
    Restored panelConfig broadcastSite (reconnected false).1 (reconnected false).2.1 := by
  refine (restored_iff_inTime panelConfig sent_broadcastSite (runs_paced _ false _ _)
    (runs_paced _ false _ _) (runs_paced _ false _ _)).mpr ⟨?_, ?_, ?_⟩
  · intro row hrow _ hne
    obtain rfl := List.mem_singleton.mp hrow
    exact absurd rfl hne
  · show ∃ row ∈ broadcastSite.world.topics, row.isSubscribed = true ∧ True
    exact ⟨_, List.mem_singleton_self _, rfl, trivial⟩
  · show ∃ row ∈ broadcastSite.world.topics, row.isSubscribed = true ∧ _
    exact ⟨_, List.mem_singleton_self _, rfl, rfl, rfl⟩

theorem not_restored_of_early :
    ¬ ∀ (cfg : Config) (s : Site) (p₁ p₂ p₃ : Timeline) (r : Except Exception Unit),
      (∀ u ∈ s.link.updates, u.2 = false) →
        MqttClientService.disconnect.Runs (Timely cfg) (s, []) (.ok ()) p₁ →
          MqttClientService.initConnection.Runs (Timely cfg) p₁ (.ok ()) p₂ →
            (MqttClientService.onConnect cfg).Runs (Timely cfg) p₂ r p₃ →
              Restored cfg s r p₃.1 := by
  intro h
  have hreturns := (h panelConfig broadcastSite _ _ _ _ sent_broadcastSite (runs_paced _ true _ _)
    (runs_paced _ true _ _) (runs_paced _ true _ _)).returns
  have hthrows : (reconnected true).1.toBool = false := by decide +kernel
  have hok : (reconnected true).1.toBool = true := congrArg Except.toBool hreturns
  rw [hthrows] at hok
  cases hok

end IotPanel.Device
