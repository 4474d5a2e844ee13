import IotPanel.Device.Protocol
import IotPanel.Device.TopicStore
import IotPanel.Device.Unique

/-!
# The topic of a discovery

The two requests for a discovery compose the name of their topic from the row of the broadcast
topic. One takes the column with the name, the other one the row itself.
-/

namespace IotPanel.Device

open Mqtt (Topic TopicUseCase)
open Program

/-- What a run of a request has done: it published, subscribed and stored under one name only, and
it did the latter two if it returned. -/
structure OnTopic (cfg : Config) (name : String) (s : Site) (r : Except Exception Unit) (t : Site) :
    Prop where
  published : t.link.sent = s.link.sent ∨ ∃ payload, t.link.sent = (name, payload) :: s.link.sent
  subscribed : t.link.subscriptions = s.link.subscriptions ∨
    t.link.subscriptions = s.link.subscriptions ++ [name]
  stored : t.world.topics = s.world.topics ∨ t.world.topics =
    (Mqtt.storeTopic cfg.topics s.world.topics "Mqtt_Broker" name .broadcast).2
  complete : r = .ok () → t.link.subscriptions = s.link.subscriptions ++ [name] ∧
    t.world.topics = (Mqtt.storeTopic cfg.topics s.world.topics "Mqtt_Broker" name .broadcast).2

/-- Wherever the rows are stored, every run of the request is on the topic. -/
def Announces (cfg : Config) (rows : List Topic) (name : String) (x : Prog Unit) : Prop :=
  ∀ s r t, s.world.topics = rows → x.Runs (Executes cfg) s r t → OnTopic cfg name s r t

/-- Two requests on one topic. -/
def OneTopic (cfg : Config) (rows : List Topic) (name : String) (x y : Prog Unit) : Prop :=
  Announces cfg rows name x ∧ Announces cfg rows name y

/-! ### Commands that leave the topics and the client alone -/

structure KeepsRows (s t : Site) : Prop where
  link : t.link = s.link
  topics : t.world.topics = s.world.topics

def Command.looksUp : Command → Bool
  | .findTopic _ | .uuid | .now | .cacheSetex _ _ => true
  | _ => false

variable {cfg : Config} {rows : List Topic} {name : String} {b : Topic} {s t : Site}

theorem keeps_of_executes {c : Command} {r : Except Exception c.Reply} (hc : c.looksUp = true)
    (h : Executes cfg s c r t) : KeepsRows s t := by
  cases h with
  | attempted fresh c _ =>
    cases c <;> first | exact ⟨rfl, rfl⟩ | cases hc
  | failed => exact ⟨rfl, rfl⟩
  | kept => cases hc

theorem OnTopic.of_keepsRows {s' : Site} {r : Except Exception Unit} (hs : KeepsRows s s')
    (h : OnTopic cfg name s' r t) : OnTopic cfg name s r t := by
  obtain ⟨hpublished, hsubscribed, hstored, hcomplete⟩ := h
  rw [hs.link] at hpublished hsubscribed hcomplete
  rw [hs.topics] at hstored hcomplete
  exact ⟨hpublished, hsubscribed, hstored, hcomplete⟩

theorem onTopic_error {e : Exception} (h : KeepsRows s t) : OnTopic cfg name s (.error e) t :=
  ⟨.inl (by rw [h.link]), .inl (by rw [h.link]), .inl h.topics, nofun⟩

/-- A request goes on after a lookup, or ends with its error. -/
theorem onTopic_bind {c : Command} {f : c.Reply → Prog Unit} {r : Except Exception Unit}
    (hc : c.looksUp = true) (h : ((perform c : Prog c.Reply) >>= f).Runs (Executes cfg) s r t)
    (hf : ∀ a s', Executes cfg s c (.ok a) s' → (f a).Runs (Executes cfg) s' r t →
      OnTopic cfg name s' r t) : OnTopic cfg name s r t := by
  obtain ⟨a, s', hlookup, hrest⟩ | ⟨e, rfl, hlookup⟩ := runs_bind.mp h
  · have hlookup := runs_perform.mp hlookup
    exact (hf a s' hlookup hrest).of_keepsRows (keeps_of_executes hc hlookup)
  · exact onTopic_error (keeps_of_executes hc (runs_perform.mp hlookup))

theorem link_storeTopic {deviceId topic : String} {useCase : TopicUseCase}
    {r : Except Exception Topic}
    (h : (TopicService.storeTopic cfg deviceId topic useCase).Runs (Executes cfg) s r t) :
    t.link = s.link := by
  obtain ⟨found, s', hfind, hrest⟩ | ⟨e, rfl, hfind⟩ := runs_bind.mp h
  · have hkeeps := keeps_of_executes rfl (runs_perform.mp hfind)
    cases found with
    | some row =>
      obtain ⟨-, rfl⟩ := runs_pure.mp hrest
      exact hkeeps.link
    | none =>
      have hsaved : ∀ {r t}, (saveTopic (topicRecord cfg deviceId topic useCase)).Runs
          (Executes cfg) s' r t → t.link = s'.link := by
        intro r t hsave
        obtain ⟨-, rfl⟩ | ⟨-, rfl⟩ := serves_saveTopic (.executed (runs_perform.mp hsave)) <;> rfl
      obtain ⟨_, s'', hsave, hreturn⟩ | ⟨e, rfl, hsave⟩ := runs_bind.mp hrest
      · obtain ⟨-, rfl⟩ := runs_pure.mp hreturn
        exact (hsaved hsave).trans hkeeps.link
      · exact (hsaved hsave).trans hkeeps.link
  · exact (keeps_of_executes rfl (runs_perform.mp hfind)).link

theorem executes_subscribe {topics : List String} {r : Except Exception Unit}
    (h : Executes cfg s (.subscribe topics) r t) :
    (r = .ok () ∧ t = s.setSubscriptions (s.link.subscriptions ++ topics)) ∨
      ((∃ e, r = .error e) ∧ t = s) := by
  cases h with
  | attempted fresh _ _ =>
    unfold Site.attempt
    dsimp only
    split
    · exact .inl ⟨rfl, rfl⟩
    · exact .inr ⟨⟨_, rfl⟩, rfl⟩
  | failed e => exact .inr ⟨⟨e, rfl⟩, rfl⟩

/-- Whatever the name is, it is the only one that is used. -/
theorem onTopic_announce {awaited : Bool} {payload : Json} {r : Except Exception Unit}
    (h : (announce cfg awaited name payload).Runs (Executes cfg) s r t) :
    OnTopic cfg name s r t := by
  obtain ⟨topic, s₁, hstore, hrest⟩ | ⟨e, rfl, hstore⟩ := runs_bind.mp h
  · have hlink := link_storeTopic hstore
    obtain ⟨⟨e, he⟩, -⟩ | ⟨hok, htopics⟩ := performs_storeTopic hstore
    · cases he
    · have hname : topic.topic = name := by
        rw [Except.ok.inj hok]
        exact Mqtt.storeTopic_topic _ _ _ _ _
      rw [hname] at hrest
      -- what the publication leaves, whether it is taken or not
      have hpublish : ∀ {r s₂}, (publish awaited name payload).Runs (Executes cfg) s₁ r s₂ →
          (s₂.link.sent = s.link.sent ∨ ∃ payload, s₂.link.sent = (name, payload) :: s.link.sent) ∧
            s₂.link.subscriptions = s.link.subscriptions ∧
              s₂.world.topics = s₁.world.topics := by
        intro r s₂ hruns
        obtain rfl | rfl := executes_publish (runs_perform.mp hruns)
        · exact ⟨.inl (by rw [hlink]), by rw [hlink], rfl⟩
        · refine ⟨.inr ⟨payload, ?_⟩, ?_, rfl⟩
          · show (name, payload) :: s₁.link.sent = _
            rw [hlink]
          · show s₁.link.subscriptions = _
            rw [hlink]
      obtain ⟨_, s₂, hruns, hsubscribe⟩ | ⟨e, rfl, hruns⟩ := runs_bind.mp hrest
      · obtain ⟨hsent, hsubscriptions, hsame⟩ := hpublish hruns
        have hstored := hsame.trans htopics
        obtain ⟨rfl, rfl⟩ | ⟨⟨e, rfl⟩, rfl⟩ := executes_subscribe (runs_perform.mp hsubscribe)
        · have hdone : s₂.link.subscriptions ++ [name] = s.link.subscriptions ++ [name] := by
            rw [hsubscriptions]
          exact ⟨hsent, .inr hdone, .inr hstored, fun _ => ⟨hdone, hstored⟩⟩
        · exact ⟨hsent, .inl hsubscriptions, .inr hstored, nofun⟩
      · obtain ⟨hsent, hsubscriptions, hsame⟩ := hpublish hruns
        exact ⟨hsent, .inl hsubscriptions, .inr (hsame.trans htopics), nofun⟩
  · obtain ⟨-, htopics⟩ | ⟨he, -⟩ := performs_storeTopic hstore
    · exact onTopic_error ⟨link_storeTopic hstore, htopics⟩
    · cases he

/-! ### The two requests -/

/-- The name of the topic on which devices wait for a discovery. -/
def discoveryTopic (b : Topic) : String := b.topic ++ "/" ++ TopicUseCase.discovery.value

theorem discoverDevicesBroadcast_eq (userId : String) :
    DeviceService.discoverDevicesBroadcast cfg userId =
      discoverOn cfg true discoveryTopic (DeviceService.discoveryPayload userId) := rfl

/-- The row in a template string is the text of an object. -/
theorem discoverDeviceUnicast_eq (userId deviceId : String) :
    DeviceService.discoverDeviceUnicast cfg userId deviceId =
      discoverOn cfg false (fun _ => "[object Object]" ++ "/" ++ TopicUseCase.discovery.value)
        (DeviceService.unicastPayload userId deviceId) := rfl

variable {awaited : Bool} {compose : Topic → String} {payload : String → ℕ → Json}

theorem getBroadcastTopic_cases {r : Except Exception Topic}
    (h : TopicService.getBroadcastTopic.Runs (Executes cfg) s r t) :
    t = s ∧ ∀ row, r = .ok row → s.world.topics.find? broadcastQuery.accepts = some row := by
  obtain ⟨found, s', hfind, hrest⟩ | ⟨e, rfl, hfind⟩ := runs_bind.mp h
  · obtain ⟨rfl, hfound⟩ := executes_findTopic.mp (runs_perform.mp hfind)
    cases found with
    | some row =>
      obtain ⟨rfl, rfl⟩ := runs_pure.mp hrest
      refine ⟨rfl, fun row' hrow => ?_⟩
      cases hrow
      exact (hfound _ rfl).symm
    | none =>
      obtain ⟨rfl, rfl⟩ := runs_throw.mp hrest
      exact ⟨rfl, nofun⟩
  · obtain ⟨rfl, -⟩ := executes_findTopic.mp (runs_perform.mp hfind)
    exact ⟨rfl, nofun⟩

/-- A request uses the name that it composes. -/
theorem announces_discoverOn (hb : rows.find? broadcastQuery.accepts = some b) :
    Announces cfg rows (compose b) (discoverOn cfg awaited compose payload) := by
  rintro s r t rfl h
  obtain ⟨row, s₁, hrow, hrest⟩ | ⟨e, rfl, hrow⟩ := runs_bind.mp h
  · obtain ⟨rfl, hfound⟩ := getBroadcastTopic_cases hrow
    obtain rfl : row = b := Option.some.inj ((hfound row rfl).symm.trans hb)
    refine onTopic_bind rfl hrest fun requestId s₂ _ hrest => ?_
    refine onTopic_bind rfl hrest fun timestamp s₃ _ hrest => ?_
    refine onTopic_bind rfl hrest fun _ s₄ _ hrest => ?_
    exact onTopic_announce hrest
  · obtain ⟨rfl, -⟩ := getBroadcastTopic_cases hrow
    exact onTopic_error ⟨rfl, rfl⟩

/-- With a client that is connected a request can return. -/
theorem exists_discoverOn (hb : s.world.topics.find? broadcastQuery.accepts = some b)
    (hconnected : s.link.connected = true) :
    ∃ t, (discoverOn cfg false compose payload).Runs (Executes cfg) s (.ok ()) t := by
  let requestId := "0f8fad5b-d9cb-469f-a165-70867728950e"
  have hid : Session.IsUuid requestId := by decide +kernel
  have hfound : TopicService.getBroadcastTopic.Runs (Executes cfg) s (.ok b) s :=
    runs_bind.mpr (.inl ⟨some b, s, runs_perform.mpr (executes_findTopic.mpr
      ⟨rfl, fun found h => (Except.ok.inj h).symm.trans hb.symm⟩), runs_pure.mpr ⟨rfl, rfl⟩⟩)
  have hnow : Executes cfg s .now (.ok s.world.now) s := .attempted "" .now nofun
  let sent : Setex :=
    ⟨Responser.pendingKey ((payload requestId s.world.now).get "requestId"),
      pendingEntry (payload requestId s.world.now)⟩
  let cached : Site := { s with world := { s.world with inFlight := s.world.inFlight ++ [sent] } }
  obtain ⟨topic, stored, hstore⟩ :=
    exists_executes_storeTopic cfg "Mqtt_Broker" (compose b) .broadcast cached
  have hlink : stored.link = cached.link := link_storeTopic hstore
  let published : Site :=
    if stored.takes topic.topic (payload requestId s.world.now) then
      stored.publish topic.topic (payload requestId s.world.now)
    else stored
  have hpublish : Executes cfg stored
      (.publish false topic.topic (payload requestId s.world.now)) (.ok ()) published :=
    executes_publish_unawaited.mpr ⟨rfl, rfl⟩
  have hstill : published.link.connected = true := by
    obtain hsame | hsame := executes_publish hpublish <;> rw [hsame] <;>
      exact (congrArg Link.connected hlink).trans hconnected
  have hsubscribe : Executes cfg published (.subscribe [topic.topic]) (.ok ())
      (published.setSubscriptions (published.link.subscriptions ++ [topic.topic])) := by
    have hattempted : Executes cfg published (.subscribe [topic.topic]) _ _ :=
      .attempted "" (.subscribe [topic.topic]) nofun
    rw [Site.attempt, if_pos hstill] at hattempted
    exact hattempted
  -- the commands of the request one after another, each of which succeeds
  refine ⟨published.setSubscriptions (published.link.subscriptions ++ [topic.topic]), ?_⟩
  refine runs_bind.mpr (.inl ⟨b, s, hfound, ?_⟩)
  refine runs_bind.mpr (.inl ⟨requestId, s,
    runs_perform.mpr (executes_uuid.mpr ⟨rfl, requestId, hid, rfl⟩), ?_⟩)
  refine runs_bind.mpr (.inl ⟨s.world.now, s, runs_perform.mpr hnow, ?_⟩)
  refine runs_bind.mpr (.inl ⟨(), cached,
    runs_perform.mpr (executes_cacheSetex.mpr ⟨rfl, rfl⟩), ?_⟩)
  refine runs_bind.mpr (.inl ⟨topic, stored, hstore, ?_⟩)
  refine runs_bind.mpr (.inl ⟨(), published, runs_perform.mpr hpublish, ?_⟩)
  exact runs_perform.mpr hsubscribe

/-- A site with the rows and a client that is connected. -/
def withRows (rows : List Topic) : Site :=
  { empty with world := { empty.world with topics := rows } }

/-- The name that a request composes is the only one it can be on. -/
theorem announces_iff (hb : rows.find? broadcastQuery.accepts = some b) :
    Announces cfg rows name (discoverOn cfg false compose payload) ↔ compose b = name := by
  constructor
  · intro h
    obtain ⟨t, hrun⟩ : ∃ t, (discoverOn cfg false compose payload).Runs (Executes cfg)
        (withRows rows) (.ok ()) t := exists_discoverOn hb rfl
    have hname := ((h _ _ _ rfl hrun).complete rfl).1
    have hcompose := ((announces_discoverOn hb _ _ _ rfl hrun).complete rfl).1
    rw [hname] at hcompose
    exact (List.singleton_injective (List.append_cancel_left hcompose)).symm
  · rintro rfl
    exact announces_discoverOn hb

/-- The two requests are on the topic of the devices if and only if the name in the row is the
text that an object has. -/
theorem oneTopic_iff (cfg : Config) (userId deviceId : String)
    (hb : rows.find? broadcastQuery.accepts = some b) :
    OneTopic cfg rows (discoveryTopic b) (DeviceService.discoverDevicesBroadcast cfg userId)
        (DeviceService.discoverDeviceUnicast cfg userId deviceId) ↔
      b.topic = "[object Object]" := by
  rw [OneTopic, discoverDevicesBroadcast_eq, discoverDeviceUnicast_eq, announces_iff hb]
  constructor
  · rintro ⟨-, hname⟩
    exact (TopicUseCase.eq_of_append_eq hname).2.symm
  · intro htopic
    exact ⟨announces_discoverOn hb, by rw [discoveryTopic, htopic]⟩

/-- The row that `onConnect` stores for the broadcast topic. -/
def broadcastRow : Topic :=
  topicRecord panelConfig "Mqtt_Broker" (panelConfig.topics.deviceTopic "Mqtt_Broker" .broadcast)
    .broadcast

theorem oneTopic_iff_broadcastRow :
    OneTopic panelConfig [broadcastRow] (discoveryTopic broadcastRow)
        (DeviceService.discoverDevicesBroadcast panelConfig "user-1")
        (DeviceService.discoverDeviceUnicast panelConfig "user-1" "esp32-1") ↔
      broadcastRow.topic = "[object Object]" :=
  oneTopic_iff panelConfig "user-1" "esp32-1" (by decide +kernel)

/-- The broadcast topic of the panel. -/
theorem not_oneTopic_of_broadcastRow :
    ¬ ∀ (cfg : Config) (rows : List Topic) (b : Topic) (userId deviceId : String),
      rows.find? broadcastQuery.accepts = some b →
        OneTopic cfg rows (discoveryTopic b) (DeviceService.discoverDevicesBroadcast cfg userId)
          (DeviceService.discoverDeviceUnicast cfg userId deviceId) := by
  intro h
  have hb : [broadcastRow].find? broadcastQuery.accepts = some broadcastRow := by decide +kernel
  have hunicast := (h panelConfig [broadcastRow] broadcastRow "user-1" "esp32-1" hb).2
  rw [discoverDeviceUnicast_eq, announces_iff hb] at hunicast
  exact absurd hunicast (by decide +kernel)

end IotPanel.Device
