import IotPanel.Device.Reconnection
import IotPanel.Device.TopicStore
import IotPanel.Device.Unique
import IotPanel.Lib.Filter

/-!
# Topics that are no filters

The callback of a connection subscribes to all marked topics in one call, which the library rejects
if one of them is no valid filter.
-/

namespace IotPanel.Device

open Mqtt (Topic TopicUseCase)
open Program

/-- The callback of the event `connect`, with the events that it emits. -/
def MqttClientService.connectCallback (cfg : Config) : Prog (List String) := do
  onConnect cfg
  return ["mqtt/event/connected"]

def rejected : Exception := .error "Invalid topic"

/-- The outcome of a command when nothing fails but the subscription to a topic that the library
does not take for a filter. -/
def Site.offer (cfg : Config) (valid : String → Bool) (s : Site) :
    (c : Command) → Except Exception c.Reply × Site
  | .subscribe topics =>
    if topics.all valid then s.attempt cfg "" (.subscribe topics) else (.error rejected, s)
  | c => s.attempt cfg panelRequest c

/-- The same, with a lookup of a topic that finds any of the rows. -/
inductive Offers (cfg : Config) (valid : String → Bool) (s : Site) :
    (c : Command) → Except Exception c.Reply → Site → Prop
  | found {q : TopicQuery} {row : Topic} (hrow : row ∈ s.world.topics) (hq : q.accepts row = true) :
      Offers cfg valid s (.findTopic q) (.ok (some row)) s
  | offered (c : Command) : Offers cfg valid s c (s.offer cfg valid c).1 (s.offer cfg valid c).2

/-- The callback says that it is connected, and has subscribed to all stored topics that are valid
filters. -/
def Tolerant (cfg : Config) (valid : String → Bool) (s : Site) : Prop :=
  ∀ r t, (MqttClientService.connectCallback cfg).Runs (Offers cfg valid) s r t →
    r = .ok ["mqtt/event/connected"] ∧
      ∀ row ∈ t.world.topics, valid row.topic = true → row.topic ∈ t.link.subscriptions

/-- A row that `createTopic` finds when it looks for the broadcast topic. -/
def IsBroadcast (cfg : Config) (row : Topic) : Prop :=
  row.deviceId = "Mqtt_Broker" ∧ row.topic = broadcastName cfg ∧
    (row.brokerUrl = cfg.topics.mqttBrokerUrl ∨ row.useCase = .broadcast)

/-- The broadcast topic and all marked topics are valid; some topic is marked, or the broadcast
topic is yet to be stored; and every stored topic that is valid is marked, or subscribed to in any
case. -/
structure Tolerable (cfg : Config) (valid : String → Bool) (s : Site) : Prop where
  broadcast : valid (broadcastName cfg) = true
  marked : ∀ row ∈ s.world.topics, row.isSubscribed = true → valid row.topic = true
  some : (∃ row ∈ s.world.topics, row.isSubscribed = true) ∨
    ∀ row ∈ s.world.topics, ¬ IsBroadcast cfg row
  complete : ∀ row ∈ s.world.topics, valid row.topic = true →
    (∃ m ∈ s.world.topics, m.isSubscribed = true ∧ m.topic = row.topic) ∨
      row.topic = broadcastName cfg ∨ row.topic ∈ s.link.subscriptions

/-- The collections of topics that operations and discovery responses lead to. -/
inductive Arises (cfg : Config) : Site → Prop
  | blank {s : Site} (h : s.world.topics = []) : Arises cfg s
  | stored {s t : Site} {op : TopicOp} (hs : Arises cfg s) (h : TopicOp.Step cfg s op t) :
      Arises cfg t
  | discovered {s t : Site} {payload : Json} {r : Except Exception Unit} (hs : Arises cfg s)
      (h : (ResponserService.handleDiscoveryResponse cfg payload).Runs (Serves cfg) s r t) :
      Arises cfg t

section Callback

variable {cfg : Config} {valid : String → Bool} {s t : Site} {row : Topic}

theorem offers_findTopic {q : TopicQuery} {r : Except Exception (Option Topic)}
    (h : Offers cfg valid s (.findTopic q) r t) :
    t = s ∧ ((∃ row ∈ s.world.topics, q.accepts row = true ∧ r = .ok (some row)) ∨
      ((∀ row ∈ s.world.topics, q.accepts row = false) ∧ r = .ok none)) := by
  cases h with
  | found hrow hq => exact ⟨rfl, .inl ⟨_, hrow, hq, rfl⟩⟩
  | offered c =>
    refine ⟨rfl, ?_⟩
    show _ ∨ (_ ∧ (.ok (s.world.topics.find? q.accepts) : Except Exception (Option Topic)) = _)
    cases hfound : s.world.topics.find? q.accepts with
    | some row =>
      refine .inl ⟨row, List.mem_of_find?_eq_some hfound, List.find?_some hfound, ?_⟩
      show (.ok (s.world.topics.find? q.accepts) : Except Exception (Option Topic)) = _
      rw [hfound]
    | none =>
      refine .inr ⟨fun row hrow => ?_, rfl⟩
      simpa using List.find?_eq_none.mp hfound row hrow

theorem offers_subscribe {topics : List String} {r : Except Exception Unit}
    (hconnected : s.link.connected = true) (h : Offers cfg valid s (.subscribe topics) r t) :
    (topics.all valid = true ∧ r = .ok () ∧
        t = s.setSubscriptions (s.link.subscriptions ++ topics)) ∨
      (topics.all valid = false ∧ r = .error rejected ∧ t = s) := by
  cases h
  by_cases hvalid : topics.all valid = true
  · have hoffer : s.offer cfg valid (.subscribe topics) =
        (.ok (), s.setSubscriptions (s.link.subscriptions ++ topics)) :=
      (if_pos hvalid).trans (if_pos hconnected)
    rw [hoffer]
    exact .inl ⟨hvalid, rfl, rfl⟩
  · have hoffer : s.offer cfg valid (.subscribe topics) = (.error rejected, s) := if_neg hvalid
    rw [hoffer]
    exact .inr ⟨Bool.eq_false_iff.mpr hvalid, rfl, rfl⟩

/-- The stored topics after the broadcast topic has been created. -/
inductive Creates (cfg : Config) (rows : List Topic) : List Topic → Prop
  | found {row : Topic} (hrow : row ∈ rows) (h : IsBroadcast cfg row) : Creates cfg rows rows
  | stored (h : ∀ row ∈ rows, ¬ IsBroadcast cfg row) :
      Creates cfg rows (rows ++ [topicRecord cfg "Mqtt_Broker" (broadcastName cfg) .broadcast])

theorem creates_of_runs {r : Except Exception Topic}
    (h : (TopicService.createTopic cfg "Mqtt_Broker" .broadcast).Runs (Offers cfg valid) s r t) :
    Creates cfg s.world.topics t.world.topics ∧ t.link = s.link ∧
      ∃ b, r = .ok b ∧ b.topic = broadcastName cfg := by
  obtain ⟨found, s₁, hfind, hrest⟩ | ⟨e, -, hfind⟩ := runs_bind.mp h
  swap
  · obtain ⟨-, ⟨_, _, _, he⟩ | ⟨_, he⟩⟩ := offers_findTopic (runs_perform.mp hfind) <;> cases he
  obtain ⟨rfl, ⟨row, hrow, hq, ⟨⟩⟩ | ⟨hnone, ⟨⟩⟩⟩ := offers_findTopic (runs_perform.mp hfind)
  · obtain ⟨rfl, rfl⟩ := runs_pure.mp hrest
    obtain ⟨hbroker, hdevice, htopic⟩ := accepts_topicQuery.mp hq
    exact ⟨.found hrow ⟨hdevice, htopic, .inl hbroker⟩, rfl, row, rfl, htopic⟩
  obtain ⟨found, s₂, hfind', hrest'⟩ | ⟨e, -, hfind'⟩ := runs_bind.mp hrest
  swap
  · obtain ⟨-, ⟨_, _, _, he⟩ | ⟨_, he⟩⟩ := offers_findTopic (runs_perform.mp hfind') <;> cases he
  obtain ⟨rfl, ⟨row, hrow, hq, ⟨⟩⟩ | ⟨hnone', ⟨⟩⟩⟩ := offers_findTopic (runs_perform.mp hfind')
  · obtain ⟨rfl, rfl⟩ := runs_pure.mp hrest'
    obtain ⟨hdevice, htopic, huse⟩ := accepts_nameQuery.mp hq
    exact ⟨.found hrow ⟨hdevice, htopic, .inr huse⟩, rfl, row, rfl, htopic⟩
  obtain ⟨_, s₃, hsave, hreturn⟩ | ⟨e, -, hsave⟩ := runs_bind.mp hrest'
  swap
  · cases runs_perform.mp hsave
  cases runs_perform.mp hsave
  obtain ⟨rfl, rfl⟩ := runs_pure.mp hreturn
  refine ⟨.stored ?_, rfl, _, rfl, rfl⟩
  rintro row hrow ⟨hdevice, htopic, hbroker | huse⟩
  · have hq := accepts_topicQuery.mpr ⟨hbroker, hdevice, htopic⟩
    exact Bool.false_ne_true ((hnone row hrow).symm.trans hq)
  · have hq := accepts_nameQuery.mpr ⟨hdevice, htopic, huse⟩
    exact Bool.false_ne_true ((hnone' row hrow).symm.trans hq)

def markedRows (rows : List Topic) : List Topic := rows.filter subscribedTopics.accepts

theorem mem_markedRows {rows : List Topic} :
    row ∈ markedRows rows ↔ row ∈ rows ∧ row.isSubscribed = true := by
  rw [markedRows, List.mem_filter, accepts_subscribedTopics]

/-- The topics that the callback asks the library to subscribe to. -/
def wanted (cfg : Config) (rows : List Topic) : List String :=
  (markedRows rows).map (fun t => t.topic) ++ [broadcastName cfg]

theorem mem_wanted {rows : List Topic} {name : String} :
    name ∈ wanted cfg rows ↔
      (∃ row ∈ rows, row.isSubscribed = true ∧ row.topic = name) ∨ name = broadcastName cfg := by
  simp only [wanted, List.mem_append, List.mem_map, mem_markedRows, List.mem_singleton, and_assoc]

theorem getAllSubscribedTopics_cases {r : Except Exception (List Topic)}
    (h : TopicService.getAllSubscribedTopics.Runs (Offers cfg valid) s r t) :
    t = s ∧ ((markedRows s.world.topics = [] ∧ ∃ e, r = .error e) ∨
      (markedRows s.world.topics ≠ [] ∧ r = .ok (markedRows s.world.topics))) := by
  obtain ⟨topics, s₁, hfind, hrest⟩ | ⟨e, -, hfind⟩ := runs_bind.mp h
  swap
  · cases runs_perform.mp hfind
  cases runs_perform.mp hfind
  change (if _ then _ else _ : Prog (List Topic)).Runs _ _ _ _ at hrest
  split at hrest
  · obtain ⟨_, _, hthrow, -⟩ | ⟨e, rfl, hthrow⟩ := runs_bind.mp hrest
    · cases (runs_throw.mp hthrow).1
    · exact ⟨(runs_throw.mp hthrow).2, .inl ⟨‹_›, e, rfl⟩⟩
  · obtain ⟨rfl, rfl⟩ := runs_pure.mp hrest
    exact ⟨rfl, .inr ⟨‹_›, rfl⟩⟩

/-- The callback ends in an error if there is nothing marked or the library rejects the call, and
subscribes to all that it asks for otherwise. -/
theorem connectCallback_cases {r : Except Exception (List String)}
    (h : (MqttClientService.connectCallback cfg).Runs (Offers cfg valid) s r t) :
    Creates cfg s.world.topics t.world.topics ∧
      (((markedRows t.world.topics = [] ∨ (wanted cfg t.world.topics).all valid = false) ∧
          ∃ e, r = .error e) ∨
        (markedRows t.world.topics ≠ [] ∧ (wanted cfg t.world.topics).all valid = true ∧
          r = .ok ["mqtt/event/connected"] ∧
            t.link.subscriptions = s.link.subscriptions ++ wanted cfg t.world.topics)) := by
  have hcases : ∃ r', (MqttClientService.onConnect cfg).Runs (Offers cfg valid) s r' t ∧
      ((r' = .ok () ∧ r = .ok ["mqtt/event/connected"]) ∨ ∃ e, r' = .error e ∧ r = .error e) := by
    obtain ⟨⟨⟩, s₁, hconnect, hemit⟩ | ⟨e, rfl, hconnect⟩ := runs_bind.mp h
    · obtain ⟨rfl, rfl⟩ := runs_pure.mp hemit
      exact ⟨_, hconnect, .inl ⟨rfl, rfl⟩⟩
    · exact ⟨_, hconnect, .inr ⟨e, rfl, rfl⟩⟩
  obtain ⟨r', hconnect, hr⟩ := hcases
  -- the flag is set, then the topic of the broadcast is found or stored
  obtain ⟨_, s₁, hset, h1⟩ | ⟨e, -, hset⟩ := runs_bind.mp hconnect
  swap
  · cases runs_perform.mp hset
  cases runs_perform.mp hset
  obtain ⟨b, s₂, hcreate, h2⟩ | ⟨e, rfl, hcreate⟩ := runs_bind.mp h1
  swap
  · obtain ⟨-, -, b, he, -⟩ := creates_of_runs hcreate
    cases he
  obtain ⟨hcreates, hlink, _, ⟨⟩, hname⟩ := creates_of_runs hcreate
  -- the marks are read; without any the callback throws
  obtain ⟨rows, s₃, hread, h3⟩ | ⟨e, rfl, hread⟩ := runs_bind.mp h2
  swap
  · obtain ⟨rfl, ⟨hnone, -⟩ | ⟨-, he⟩⟩ := getAllSubscribedTopics_cases hread
    · obtain ⟨he, -⟩ | ⟨e', -, rfl⟩ := hr
      · cases he
      · exact ⟨hcreates, .inl ⟨.inl hnone, e', rfl⟩⟩
    · cases he
  obtain ⟨rfl, ⟨-, e, he⟩ | ⟨hsome, ⟨⟩⟩⟩ := getAllSubscribedTopics_cases hread
  · cases he
  -- the library takes the whole list or none of it
  rw [hname] at h3
  change (subscribe (wanted cfg s₃.world.topics)).Runs _ _ _ _ at h3
  obtain ⟨hvalid, rfl, rfl⟩ | ⟨hvalid, rfl, rfl⟩ :=
    offers_subscribe (congrArg Link.connected hlink) (runs_perform.mp h3)
  · obtain ⟨-, rfl⟩ | ⟨e, he, -⟩ := hr
    · refine ⟨hcreates, .inr ⟨hsome, hvalid, rfl, ?_⟩⟩
      show s₃.link.subscriptions ++ _ = _
      rw [hlink]
      rfl
    · cases he
  · obtain ⟨he, -⟩ | ⟨e, -, rfl⟩ := hr
    · cases he
    · exact ⟨hcreates, .inl ⟨.inr hvalid, e, rfl⟩⟩

/-! ### When it is tolerated -/

theorem mem_of_creates {rows rows' : List Topic} (h : Creates cfg rows rows')
    (hrow : row ∈ rows') : row ∈ rows ∨ row.topic = broadcastName cfg := by
  cases h with
  | found => exact .inl hrow
  | stored h =>
    rcases List.mem_append.mp hrow with hrow | hrow
    · exact .inl hrow
    · exact .inr (List.mem_singleton.mp hrow ▸ rfl)

theorem subset_of_creates {rows rows' : List Topic} (h : Creates cfg rows rows') : rows ⊆ rows' := by
  cases h with
  | found => exact List.Subset.refl _
  | stored h => exact List.subset_append_left _ _

/-- Something is marked after the creation if it was before, or if the broadcast topic is new. -/
theorem exists_marked_iff {rows rows' : List Topic} (h : Creates cfg rows rows') :
    (∃ row ∈ rows', row.isSubscribed = true) ↔
      (∃ row ∈ rows, row.isSubscribed = true) ∨ ∀ row ∈ rows, ¬ IsBroadcast cfg row := by
  cases h with
  | found hrow hbroadcast =>
    rw [or_iff_left]
    exact fun hnone => hnone _ hrow hbroadcast
  | stored hnone =>
    refine ⟨fun _ => .inr hnone, fun _ => ?_⟩
    exact ⟨_, List.mem_append_right _ List.mem_cons_self, rfl⟩

theorem tolerant_of_tolerable (h : Tolerable cfg valid s) : Tolerant cfg valid s := by
  intro r t hrun
  obtain ⟨hcreates, hcases⟩ := connectCallback_cases hrun
  obtain ⟨row, hrow⟩ := (exists_marked_iff hcreates).mpr h.some
  have hvalid : (wanted cfg t.world.topics).all valid = true := by
    refine List.all_eq_true.mpr fun name hname => ?_
    obtain ⟨row, hrow, hmarked, rfl⟩ | rfl := mem_wanted.mp hname
    · rcases mem_of_creates hcreates hrow with hrow | hname
      · exact h.marked row hrow hmarked
      · exact hname ▸ h.broadcast
    · exact h.broadcast
  obtain ⟨hnone | hinvalid, -⟩ | ⟨-, -, hr, hsubscriptions⟩ := hcases
  · have hmarked := mem_markedRows.mpr hrow
    rw [hnone] at hmarked
    cases hmarked
  · rw [hvalid] at hinvalid
    cases hinvalid
  · refine ⟨hr, fun row hrow hrowvalid => ?_⟩
    rw [hsubscriptions, List.mem_append, mem_wanted]
    rcases mem_of_creates hcreates hrow with hrow | hname
    · obtain ⟨m, hm, hmarked⟩ | hname | hbefore := h.complete row hrow hrowvalid
      · exact .inr (.inl ⟨m, subset_of_creates hcreates hm, hmarked⟩)
      · exact .inr (.inr hname)
      · exact .inl hbefore
    · exact .inr (.inr hname)

theorem exists_runs_offers (cfg : Config) (valid : String → Bool) {α : Type} (x : Prog α) (s : Site) :
    ∃ r t, x.Runs (Offers cfg valid) s r t := by
  have hoffered : ∀ c (s : Site), Offers cfg valid s c (s.offer cfg valid c).1
      (s.offer cfg valid c).2 := fun c _ => .offered c
  exact ⟨_, _, runs_exec hoffered x s⟩

theorem tolerable_of_tolerant (h : Tolerant cfg valid s) : Tolerable cfg valid s := by
  obtain ⟨r, t, hrun⟩ := exists_runs_offers cfg valid (MqttClientService.connectCallback cfg) s
  obtain ⟨hr, hall⟩ := h r t hrun
  obtain ⟨hcreates, ⟨-, e, he⟩ | ⟨hsome, hvalid, -, hsubscriptions⟩⟩ := connectCallback_cases hrun
  · rw [hr] at he
    cases he
  have hwanted : ∀ name ∈ wanted cfg t.world.topics, valid name = true := List.all_eq_true.mp hvalid
  have hsubset := subset_of_creates hcreates
  refine ⟨hwanted _ (mem_wanted.mpr (.inr rfl)), fun row hrow hmarked => ?_, ?_,
    fun row hrow hrowvalid => ?_⟩
  · exact hwanted _ (mem_wanted.mpr (.inl ⟨row, hsubset hrow, hmarked, rfl⟩))
  · obtain ⟨row, hrow⟩ := List.exists_mem_of_ne_nil _ hsome
    exact (exists_marked_iff hcreates).mp ⟨row, mem_markedRows.mp hrow⟩
  · have hsubscribed := hall row (hsubset hrow) hrowvalid
    rw [hsubscriptions, List.mem_append, mem_wanted] at hsubscribed
    obtain hbefore | ⟨m, hm, hmarked, hname⟩ | hname := hsubscribed
    · exact .inr (.inr hbefore)
    · rcases mem_of_creates hcreates hm with hm | hbroadcast
      · exact .inl ⟨m, hm, hmarked, hname⟩
      · exact .inr (.inl (hname.symm.trans hbroadcast))
    · exact .inr (.inl hname)

/-- The callback does its duty on a collection if and only if nothing marked is invalid and nothing
valid is unmarked. -/
theorem tolerant_iff (cfg : Config) (valid : String → Bool) (s : Site) :
    Tolerant cfg valid s ↔ Tolerable cfg valid s :=
  ⟨tolerable_of_tolerant, tolerant_of_tolerable⟩

end Callback

/-- A rejection is one of the failures that a command can meet. -/
theorem serves_offer (cfg : Config) (valid : String → Bool) (c : Command) (s : Site) :
    Serves cfg s c (s.offer cfg valid c).1 (s.offer cfg valid c).2 := by
  refine .executed ?_
  cases c with
  | subscribe topics =>
    by_cases hvalid : topics.all valid = true
    · have hoffer : s.offer cfg valid (.subscribe topics) = s.attempt cfg "" (.subscribe topics) :=
        if_pos hvalid
      rw [hoffer]
      exact .attempted "" (.subscribe topics) nofun
    · have hoffer : s.offer cfg valid (.subscribe topics) = (.error rejected, s) := if_neg hvalid
      rw [hoffer]
      exact .failed rejected rfl
  | uuid => exact .attempted panelRequest .uuid fun _ => by decide
  | _ => exact .attempted panelRequest _ nofun

/-- The first discovery response of a device with a wildcard in its id. -/
def wildDiscovery : Json :=
  .obj [("isBroadcast", .bool true), ("sensorData", .obj [("deviceId", .str "esp#2")])]

/-- Its topic is stored before the library rejects it, and stays. -/
theorem not_tolerant_of_wildcard :
    ¬ ∀ (cfg : Config) (valid : String → Bool) (s : Site), Arises cfg s → Tolerant cfg valid s := by
  intro h
  let outcome := (ResponserService.handleDiscoveryResponse panelConfig wildDiscovery).exec
    (fun c s => s.offer panelConfig TopicFilter.valid c) empty
  have harises : Arises panelConfig outcome.2 :=
    .discovered (.blank rfl) (runs_exec (serves_offer panelConfig TopicFilter.valid) _ _)
  have hmarked : (outcome.2.world.topics.any fun row =>
      row.isSubscribed && !TopicFilter.valid row.topic) = true := by
    decide +kernel
  obtain ⟨row, hrow, htest⟩ := List.any_eq_true.mp hmarked
  obtain ⟨hsubscribed, hinvalid⟩ := Bool.and_eq_true_iff.mp htest
  have hvalid := (tolerable_of_tolerant (h _ TopicFilter.valid _ harises)).marked row hrow hsubscribed
  rw [hvalid] at hinvalid
  cases hinvalid

end IotPanel.Device
