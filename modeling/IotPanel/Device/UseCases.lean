import IotPanel.Device.TopicStore
import IotPanel.Device.Unique
import Mathlib.Data.List.Nodup

/-!
# One topic for a use case

Topics are created under their names and looked up by device and use case. The base topic of a
device is stored under the use case for which another topic is made as well, and the topic of a
broadcast discovery under that of the broadcast topic that it is named after.
-/

namespace IotPanel.Device

open Mqtt (Topic TopicUseCase)
open Program

def useCaseKey (row : Topic) : String × TopicUseCase := (row.deviceId, row.useCase)

/-- The topic on which broadcast discoveries are sent. -/
def discoveryName (cfg : Config) : String :=
  cfg.topics.deviceTopic "Mqtt_Broker" .broadcast ++ "/" ++ TopicUseCase.discovery.value

/-- A device has one row for a use case. The lookups have one answer, and broadcast discoveries
are published on one topic. -/
structure Identified (cfg : Config) (s : Site) : Prop where
  unique : (s.world.topics.map useCaseKey).Nodup
  byUseCase : ∀ deviceId useCase a b t t',
    (TopicService.getDeviceTopicByUseCase deviceId useCase).Runs (Serves cfg) s (.ok a) t →
      (TopicService.getDeviceTopicByUseCase deviceId useCase).Runs (Serves cfg) s (.ok b) t' → a = b
  broadcast : ∀ a b t t', TopicService.getBroadcastTopic.Runs (Serves cfg) s (.ok a) t →
    TopicService.getBroadcastTopic.Runs (Serves cfg) s (.ok b) t' → a = b
  published : ∀ m ∈ s.link.sent, m.1 = discoveryName cfg

/-- The rows that an operation stores, unless it finds them. -/
def TopicOp.records (cfg : Config) (s : Site) : TopicOp → List Topic
  | createTopic deviceId useCase =>
    [topicRecord cfg deviceId (cfg.topics.deviceTopic deviceId useCase) useCase]
  | createDeviceBaseTopic deviceId =>
    [topicRecord cfg deviceId (cfg.topics.deviceBaseTopic deviceId) .deviceBase]
  | createAllTopicsForDevice deviceId =>
    topicRecord cfg deviceId (cfg.topics.deviceBaseTopic deviceId) .deviceBase ::
      TopicUseCase.all.map fun u => topicRecord cfg deviceId (cfg.topics.deviceTopic deviceId u) u
  | onConnect =>
    [topicRecord cfg "Mqtt_Broker" (cfg.topics.deviceTopic "Mqtt_Broker" .broadcast) .broadcast]
  | discoverDevicesBroadcast _ =>
    (s.world.topics.filter (TopicQuery.accepts
      ⟨none, some "Mqtt_Broker", none, some .broadcast, some true⟩)).map fun b =>
        topicRecord cfg "Mqtt_Broker" (b.topic ++ "/" ++ TopicUseCase.discovery.value) .broadcast

/-- What an operation stores for a device and a use case is one topic, and no other one is stored
for them. -/
def Fits (cfg : Config) (s : Site) (op : TopicOp) : Prop :=
  ∀ x ∈ op.records cfg s, ∀ y ∈ op.records cfg s ++ s.world.topics,
    useCaseKey x = useCaseKey y → x.topic = y.topic

/-- A collection from which runs begin. -/
def Blank (s : Site) : Prop := s.world.topics = [] ∧ s.link.sent = []

/-- What is so after every operation that fits. -/
structure Orderly (cfg : Config) (s : Site) : Prop where
  made : ∀ row ∈ s.world.topics, Made cfg row
  unique : (s.world.topics.map useCaseKey).Nodup
  published : ∀ m ∈ s.link.sent, m.1 = discoveryName cfg

/-- The collection and what has been published are the same. -/
structure Site.SameTopics (s t : Site) : Prop where
  topics : t.world.topics = s.world.topics
  sent : t.link.sent = s.link.sent

/-- Nothing is stored and nothing is published. -/
def quiet : Protocol Unit Command Command.Reply Exception where
  allowed _ c :=
    match c with
    | .saveTopic _ => False
    | .publish _ _ _ => False
    | _ => True
  next _ _ _ := ()

section Lookups

variable {cfg : Config} {s t t' : Site} {q : TopicQuery} {a b : Topic} {α : Type}

theorem Site.SameTopics.refl (s : Site) : s.SameTopics s := ⟨rfl, rfl⟩

theorem Site.SameTopics.trans (h : s.SameTopics t) (h' : t.SameTopics t') : s.SameTopics t' :=
  ⟨h'.topics.trans h.topics, h'.sent.trans h.sent⟩

theorem same_of_quiet {x : Prog α} {r : Except Exception α} (hx : x.Stays quiet ())
    (h : x.Runs (Serves cfg) s r t) : s.SameTopics t := by
  obtain ⟨-, -, hsame⟩ := h.of_wp (A := fun t _ => s.SameTopics t) hx (.refl s)
    fun t _ c r t' hsame hallowed hserves => by
      refine hsame.trans ⟨?_, sent_of_serves hserves ?_⟩
      · obtain htopics | ⟨row, rfl, -⟩ := topics_of_serves hserves
        · exact htopics
        · exact hallowed.elim
      · rintro awaited topic payload rfl
        exact hallowed
  exact hsame

/-- A lookup that throws when it finds nothing. -/
theorem runs_findTopic_or_throw {message : String}
    (h : (do
      match ← findTopic q with
      | some t => return t
      | none => throw (.notFound message) : Prog Topic).Runs (Serves cfg) s (.ok a) t) :
    t = s ∧ a ∈ s.world.topics ∧ q.accepts a = true := by
  obtain ⟨found, s', hfind, hrest⟩ | ⟨e, he, -⟩ := runs_bind.mp h
  · obtain ⟨rfl, hsome, -⟩ := serves_findTopic (runs_perform.mp hfind)
    cases found with
    | some row =>
      obtain ⟨hrow, rfl⟩ := runs_pure.mp hrest
      cases hrow
      exact ⟨rfl, hsome a rfl⟩
    | none =>
      obtain ⟨he, -⟩ := runs_throw.mp hrest
      cases he
  · cases he

theorem accepts_useCaseQuery {deviceId : String} {useCase : TopicUseCase} :
    TopicQuery.accepts ⟨none, some deviceId, none, some useCase, none⟩ a = true ↔
      useCaseKey a = (deviceId, useCase) := by
  simp only [TopicQuery.accepts, Option.all_none, Option.all_some, Bool.and_eq_true, beq_iff_eq,
    decide_eq_true_eq, true_and, and_true, useCaseKey, Prod.mk.injEq]
  constructor
  · rintro ⟨rfl, rfl⟩
    exact ⟨rfl, rfl⟩
  · rintro ⟨rfl, rfl⟩
    exact ⟨rfl, rfl⟩

theorem accepts_broadcastQuery :
    TopicQuery.accepts ⟨none, some "Mqtt_Broker", none, some .broadcast, some true⟩ a = true ↔
      useCaseKey a = ("Mqtt_Broker", .broadcast) ∧ a.isSubscribed = true := by
  simp only [TopicQuery.accepts, Option.all_none, Option.all_some, Bool.and_eq_true, beq_iff_eq,
    decide_eq_true_eq, true_and, and_true, useCaseKey, Prod.mk.injEq]
  constructor
  · rintro ⟨⟨hdevice, huse⟩, hsubscribed⟩
    exact ⟨⟨hdevice.symm, huse.symm⟩, hsubscribed.symm⟩
  · rintro ⟨⟨hdevice, huse⟩, hsubscribed⟩
    exact ⟨⟨hdevice.symm, huse.symm⟩, hsubscribed.symm⟩

theorem eq_of_useCaseKey (h : (s.world.topics.map useCaseKey).Nodup) (ha : a ∈ s.world.topics)
    (hb : b ∈ s.world.topics) (hkey : useCaseKey a = useCaseKey b) : a = b :=
  List.inj_on_of_nodup_map h ha hb hkey

/-- The lookups have one answer because there is one row. -/
theorem Orderly.identified (h : Orderly cfg s) : Identified cfg s where
  unique := h.unique
  byUseCase deviceId useCase a b t t' ha hb := by
    obtain ⟨-, ha, hqa⟩ := runs_findTopic_or_throw ha
    obtain ⟨-, hb, hqb⟩ := runs_findTopic_or_throw hb
    exact eq_of_useCaseKey h.unique ha hb
      ((accepts_useCaseQuery.mp hqa).trans (accepts_useCaseQuery.mp hqb).symm)
  broadcast a b t t' ha hb := by
    obtain ⟨-, ha, hqa⟩ := runs_findTopic_or_throw ha
    obtain ⟨-, hb, hqb⟩ := runs_findTopic_or_throw hb
    exact eq_of_useCaseKey h.unique ha hb
      ((accepts_broadcastQuery.mp hqa).1.trans (accepts_broadcastQuery.mp hqb).1.symm)
  published := h.published

theorem Orderly.same (h : Orderly cfg s) (hsame : s.SameTopics t) : Orderly cfg t := by
  obtain ⟨htopics, hsent⟩ := hsame
  exact ⟨htopics ▸ h.made, htopics ▸ h.unique, hsent ▸ h.published⟩

/-- A row is stored for a device and a use case that have none. -/
theorem Orderly.storeTopic (h : Orderly cfg s) {row : Topic} (hmade : Made cfg row)
    (hnew : ∀ y ∈ s.world.topics, useCaseKey y ≠ useCaseKey row) :
    Orderly cfg (s.storeTopic row) where
  made y hy := by
    rcases List.mem_append.mp hy with hy | hy
    · exact h.made y hy
    · exact List.mem_singleton.mp hy ▸ hmade
  unique := by
    show ((s.world.topics ++ [row]).map useCaseKey).Nodup
    rw [List.map_append, List.map_singleton, List.nodup_append]
    refine ⟨h.unique, List.nodup_singleton _, ?_⟩
    intro k hk k' hk'
    obtain ⟨y, hy, rfl⟩ := List.mem_map.mp hk
    rw [List.mem_singleton.mp hk']
    exact hnew y hy
  published := h.published

end Lookups

/-! ### The operations -/

/-- What is stored for the device and the use case of a row has its name. -/
def SameTopic (s : Site) (row : Topic) : Prop :=
  ∀ y ∈ s.world.topics, useCaseKey row = useCaseKey y → row.topic = y.topic

section Operations

variable {cfg : Config} {s t : Site} {row : Topic} {op : TopicOp} {deviceId userId : String}
  {useCase : TopicUseCase} {α : Type}

theorem fits_iff_sameTopic (h : op.records cfg s = [row]) : Fits cfg s op ↔ SameTopic s row := by
  unfold Fits SameTopic
  rw [h]
  constructor
  · intro hfits y hy hkey
    exact hfits row List.mem_cons_self y (List.mem_cons_of_mem row hy) hkey
  · intro htopic_eq x hx y hy hkey
    obtain rfl := List.mem_singleton.mp hx
    rcases List.mem_cons.mp hy with rfl | hy
    · rfl
    · exact htopic_eq y hy hkey

/-- The base topic and the topic of its use case are two topics. -/
theorem not_fits_createAllTopicsForDevice :
    ¬ Fits cfg s (.createAllTopicsForDevice deviceId) := by
  intro h
  have hbase := h (topicRecord cfg deviceId (cfg.topics.deviceBaseTopic deviceId) .deviceBase)
    List.mem_cons_self
    (topicRecord cfg deviceId (cfg.topics.deviceTopic deviceId .deviceBase) .deviceBase)
    (List.mem_append_left _ (List.mem_cons_of_mem _ (List.mem_map.mpr ⟨_, TopicUseCase.mem_all _, rfl⟩)))
    rfl
  exact cfg.topics.deviceBaseTopic_ne deviceId .deviceBase hbase

/-- A name is not the same with a use case behind it. -/
theorem name_ne (name : String) (u : TopicUseCase) : name ++ "/" ++ u.value ≠ name := by
  intro h
  have hlength := congrArg (fun s : String => s.toList.length) h
  simp only [String.toList_append, List.length_append] at hlength
  have hslash : "/".toList.length = 1 := rfl
  omega

theorem not_fits_discoverDevicesBroadcast {b : Topic} (hb : b ∈ s.world.topics)
    (hq : TopicQuery.accepts ⟨none, some "Mqtt_Broker", none, some .broadcast, some true⟩ b = true) :
    ¬ Fits cfg s (.discoverDevicesBroadcast userId) := by
  intro h
  have hname := h _ (List.mem_map_of_mem (List.mem_filter.mpr ⟨hb, hq⟩)) b
    (List.mem_append_right _ hb) (accepts_broadcastQuery.mp hq).1.symm
  exact name_ne b.topic .discovery hname

theorem Orderly.storeRecord (h : Orderly cfg s) (hmade : Made cfg row) (htopic_eq : SameTopic s row)
    (hno : ∀ y ∈ s.world.topics, ¬ Named row.deviceId row.topic row.useCase y) :
    Orderly cfg (s.storeTopic row) := by
  refine h.storeTopic hmade fun y hy hkey => hno y hy ?_
  obtain ⟨hdevice, huse⟩ := Prod.mk.inj hkey
  exact ⟨hdevice, (htopic_eq y hy hkey.symm).symm, huse⟩

theorem Orderly.createTopic {r : Except Exception Topic} (h : Orderly cfg s)
    (htopic_eq : SameTopic s (topicRecord cfg deviceId (cfg.topics.deviceTopic deviceId useCase) useCase))
    (hrun : (TopicService.createTopic cfg deviceId useCase).Runs (Serves cfg) s r t) :
    Orderly cfg t := by
  obtain ⟨rfl, -⟩ | ⟨-, rfl, hno⟩ := createTopic_cases hrun
  · exact h
  · exact h.storeRecord ⟨rfl, rfl, .inr rfl⟩ htopic_eq hno

theorem Orderly.createDeviceBaseTopic {r : Except Exception Topic} (h : Orderly cfg s)
    (htopic_eq : SameTopic s (topicRecord cfg deviceId (cfg.topics.deviceBaseTopic deviceId) .deviceBase))
    (hrun : (TopicService.createDeviceBaseTopic cfg deviceId).Runs (Serves cfg) s r t) :
    Orderly cfg t := by
  obtain ⟨rfl, -⟩ | ⟨-, rfl, hno⟩ := createDeviceBaseTopic_cases hrun
  · exact h
  · exact h.storeRecord ⟨rfl, rfl, .inl ⟨rfl, rfl⟩⟩ htopic_eq hno

theorem exists_runs_of_bind {x : Prog α} {r : Except Exception Unit}
    (h : (do let _ ← x : Prog Unit).Runs (Serves cfg) s r t) :
    ∃ r', x.Runs (Serves cfg) s r' t ∧ (r = .ok () → ∃ a, r' = .ok a) := by
  obtain ⟨a, s', hx, hpure⟩ | ⟨e, rfl, hx⟩ := runs_bind.mp h
  · obtain ⟨-, rfl⟩ := runs_pure.mp hpure
    exact ⟨.ok a, hx, fun _ => ⟨a, rfl⟩⟩
  · exact ⟨.error e, hx, fun h => by cases h⟩

theorem stays_quiet (c : Command) (hc : quiet.allowed () c) :
    (perform c : Prog c.Reply).Stays quiet () := stays_perform hc fun _ => rfl

/-- The callback of a connection creates the broadcast topic, and stores nothing else. -/
theorem runs_onConnect {r : Except Exception Unit}
    (h : (MqttClientService.onConnect cfg).Runs (Serves cfg) s r t) :
    (r ≠ .ok () ∧ s.SameTopics t) ∨ ∃ s₁ s₂ r', s.SameTopics s₁ ∧
      (TopicService.createTopic cfg "Mqtt_Broker" .broadcast).Runs (Serves cfg) s₁ r' s₂ ∧
        s₂.SameTopics t ∧ (r = .ok () → ∃ row, r' = .ok row) := by
  obtain ⟨_, s₁, hset, hrest⟩ | ⟨e, rfl, hset⟩ := runs_bind.mp h
  · have hsame₁ := same_of_quiet (stays_quiet (.setConnected true) trivial) hset
    obtain ⟨row, s₂, hcreate, hread⟩ | ⟨e, rfl, hcreate⟩ := runs_bind.mp hrest
    · refine .inr ⟨s₁, s₂, .ok row, hsame₁, hcreate, same_of_quiet ?_ hread, fun _ => ⟨row, rfl⟩⟩
      refine stays_bind (stays_bind (stays_quiet (.findTopics _) trivial) fun topics => ?_)
        fun _ => stays_quiet (.subscribe _) trivial
      exact stays_ite (fun _ => stays_bind stays_throw fun _ => stays_pure) fun _ => stays_pure
    · exact .inr ⟨s₁, t, .error e, hsame₁, hcreate, .refl t, fun h => by cases h⟩
  · exact .inl ⟨nofun, same_of_quiet (stays_quiet (.setConnected true) trivial) hset⟩

theorem SameTopic.same (h : SameTopic s row) (hsame : s.SameTopics t) : SameTopic t row := by
  unfold SameTopic
  rw [hsame.topics]
  exact h

theorem Orderly.step (h : Orderly cfg s) (hfits : Fits cfg s op) (hstep : TopicOp.Step cfg s op t) :
    Orderly cfg t := by
  obtain ⟨r, hrun⟩ := hstep
  cases op with
  | createTopic deviceId useCase =>
    obtain ⟨r', hcreate, -⟩ := exists_runs_of_bind hrun
    exact h.createTopic ((fits_iff_sameTopic rfl).mp hfits) hcreate
  | createDeviceBaseTopic deviceId =>
    obtain ⟨r', hcreate, -⟩ := exists_runs_of_bind hrun
    exact h.createDeviceBaseTopic ((fits_iff_sameTopic rfl).mp hfits) hcreate
  | createAllTopicsForDevice deviceId => exact absurd hfits not_fits_createAllTopicsForDevice
  | onConnect =>
    obtain ⟨-, hsame⟩ | ⟨s₁, s₂, r', hsame, hcreate, hrest, -⟩ := runs_onConnect hrun
    · exact h.same hsame
    · have htopic_eq := ((fits_iff_sameTopic rfl).mp hfits).same hsame
      exact ((h.same hsame).createTopic htopic_eq hcreate).same hrest
  | discoverDevicesBroadcast userId =>
    obtain ⟨b, s', hb, -⟩ | ⟨e, rfl, hb⟩ := runs_bind.mp hrun
    · obtain ⟨-, hb, hq⟩ := runs_findTopic_or_throw hb
      exact absurd hfits (not_fits_discoverDevicesBroadcast hb hq)
    · refine h.same (same_of_quiet ?_ hb)
      refine stays_bind (stays_quiet (.findTopic _) trivial) fun found => ?_
      cases found with
      | some b => exact stays_pure
      | none => exact stays_throw

/-! ### What an operation that returns has stored -/

/-- A row of the name that is left in a collection with one row for a use case. -/
theorem sameTopic_of_unique {y : Topic} (ht : (t.world.topics.map useCaseKey).Nodup)
    (hsubset : s.world.topics ⊆ t.world.topics) (hy : y ∈ t.world.topics)
    (hkey : useCaseKey row = useCaseKey y) (htopic : row.topic = y.topic) : SameTopic s row := by
  intro z hz hz'
  rw [htopic, eq_of_useCaseKey ht hy (hsubset hz) (hkey.symm.trans hz')]

theorem sameTopic_createTopic (hs : ∀ y ∈ s.world.topics, Made cfg y)
    (hrun : (TopicService.createTopic cfg deviceId useCase).Runs (Serves cfg) s (.ok row) t)
    (ht : (t.world.topics.map useCaseKey).Nodup) :
    SameTopic s (topicRecord cfg deviceId (cfg.topics.deviceTopic deviceId useCase) useCase) := by
  obtain ⟨rfl, hfound⟩ | ⟨-, rfl, -⟩ := createTopic_cases hrun
  · obtain ⟨hrow, rfl, htopic⟩ := hfound row rfl
    have huse : row.useCase = useCase :=
      (regular_of_derived (hs row hrow).name).derived useCase htopic
    refine sameTopic_of_unique ht (List.Subset.refl _) hrow ?_ htopic.symm
    show (row.deviceId, useCase) = (row.deviceId, row.useCase)
    rw [huse]
  · exact sameTopic_of_unique ht (List.subset_append_left _ _)
      (List.mem_append_right _ List.mem_cons_self) rfl rfl

theorem sameTopic_createDeviceBaseTopic
    (hrun : (TopicService.createDeviceBaseTopic cfg deviceId).Runs (Serves cfg) s (.ok row) t)
    (ht : (t.world.topics.map useCaseKey).Nodup) :
    SameTopic s (topicRecord cfg deviceId (cfg.topics.deviceBaseTopic deviceId) .deviceBase) := by
  obtain ⟨rfl, hfound⟩ | ⟨-, rfl, -⟩ := createDeviceBaseTopic_cases hrun
  · obtain ⟨hrow, rfl, htopic, huse⟩ := hfound row rfl
    refine sameTopic_of_unique ht (List.Subset.refl _) hrow ?_ htopic.symm
    show (row.deviceId, TopicUseCase.deviceBase) = (row.deviceId, row.useCase)
    rw [huse]
  · exact sameTopic_of_unique ht (List.subset_append_left _ _)
      (List.mem_append_right _ List.mem_cons_self) rfl rfl

theorem not_unique_of_equipped (ht : ∀ y ∈ t.world.topics, Made cfg y)
    (h : Equipped cfg t deviceId) : ¬ (t.world.topics.map useCaseKey).Nodup := by
  intro hnodup
  obtain ⟨a, ha, hadevice, hatopic⟩ := h.base
  obtain ⟨b, hb, hbdevice, hbtopic⟩ := h.derived .deviceBase (TopicUseCase.mem_all _)
  have hause : a.useCase = .deviceBase :=
    (regular_of_derived (ht a ha).name).base (hadevice ▸ hatopic)
  have hbuse : b.useCase = .deviceBase :=
    (regular_of_derived (ht b hb).name).derived _ (hbdevice ▸ hbtopic)
  obtain rfl := eq_of_useCaseKey hnodup ha hb (by
    rw [useCaseKey, useCaseKey, hadevice, hbdevice, hause, hbuse])
  exact cfg.topics.deviceBaseTopic_ne deviceId _ (hatopic.symm.trans hbtopic)

/-- A broadcast discovery that returns has stored a topic named after a stored one of the same use
case. -/
theorem not_unique_of_discovery
    (hrun : (DeviceService.discoverDevicesBroadcast cfg userId).Runs (Serves cfg) s (.ok ()) t) :
    ¬ (t.world.topics.map useCaseKey).Nodup := by
  intro hnodup
  obtain ⟨b, s₁, hb, h1⟩ | ⟨e, he, -⟩ := runs_bind.mp hrun
  swap
  · cases he
  obtain ⟨rfl, hb, hq⟩ := runs_findTopic_or_throw hb
  obtain ⟨requestId, s₂, huuid, h2⟩ | ⟨e, he, -⟩ := runs_bind.mp h1
  swap
  · cases he
  obtain ⟨timestamp, s₃, hnow, h3⟩ | ⟨e, he, -⟩ := runs_bind.mp h2
  swap
  · cases he
  obtain ⟨⟨⟩, s₄, hcache, h4⟩ | ⟨e, he, -⟩ := runs_bind.mp h3
  swap
  · cases he
  obtain ⟨row, s₅, hstore, h5⟩ | ⟨e, he, -⟩ := runs_bind.mp h4
  swap
  · cases he
  have hrow : row ∈ s₅.world.topics ∧
      Named "Mqtt_Broker" (b.topic ++ "/" ++ TopicUseCase.discovery.value) .broadcast row := by
    obtain ⟨rfl, hrow⟩ | ⟨⟨⟩, rfl, -⟩ := storeTopic_cases hstore
    · exact hrow row rfl
    · exact ⟨List.mem_append_right _ List.mem_cons_self, rfl, rfl, rfl⟩
  obtain ⟨hrow, hdevice, htopic, huse⟩ := hrow
  have hkey : useCaseKey row = useCaseKey b := by
    rw [(accepts_broadcastQuery.mp hq).1, useCaseKey, hdevice, huse]
  obtain rfl := eq_of_useCaseKey hnodup (topics_subset h5 hrow) (topics_subset h1 hb) hkey
  exact name_ne row.topic .discovery htopic.symm

theorem fits_of_unique (hs : Orderly cfg s)
    (hrun : (op.program cfg).Runs (Serves cfg) s (.ok ()) t)
    (ht : (t.world.topics.map useCaseKey).Nodup) : Fits cfg s op := by
  cases op with
  | createTopic deviceId useCase =>
    obtain ⟨_, hcreate, hok⟩ := exists_runs_of_bind hrun
    obtain ⟨row, rfl⟩ := hok rfl
    exact (fits_iff_sameTopic rfl).mpr (sameTopic_createTopic hs.made hcreate ht)
  | createDeviceBaseTopic deviceId =>
    obtain ⟨_, hcreate, hok⟩ := exists_runs_of_bind hrun
    obtain ⟨row, rfl⟩ := hok rfl
    exact (fits_iff_sameTopic rfl).mpr (sameTopic_createDeviceBaseTopic hcreate ht)
  | createAllTopicsForDevice deviceId =>
    obtain ⟨_, hcreate, hok⟩ := exists_runs_of_bind hrun
    obtain ⟨rows, rfl⟩ := hok rfl
    have hmade := made_of_step (show TopicOp.ForDevice (.createAllTopicsForDevice deviceId) from trivial)
      ⟨_, hrun⟩ hs.made
    exact absurd ht (not_unique_of_equipped hmade (equipped_createAllTopicsForDevice hcreate))
  | onConnect =>
    obtain ⟨herror, -⟩ | ⟨s₁, s₂, r', hsame, hcreate, hrest, hok⟩ := runs_onConnect hrun
    · exact absurd rfl herror
    · obtain ⟨row, rfl⟩ := hok rfl
      refine (fits_iff_sameTopic rfl).mpr ?_
      have htopic_eq := sameTopic_createTopic (hs.same hsame).made hcreate (hrest.topics ▸ ht)
      exact htopic_eq.same ⟨hsame.topics.symm, hsame.sent.symm⟩
  | discoverDevicesBroadcast userId => exact absurd ht (not_unique_of_discovery hrun)

/-! ### Runs -/

/-- In every run of operations that fit, a use case identifies a topic; and after an operation
that returns it does so only if the operation fits. -/
theorem identified_of_fits (cfg : Config) :
    (∀ s₀ tr s, Blank s₀ → Run (fun s op t => Fits cfg s op ∧ TopicOp.Step cfg s op t) s₀ tr s →
        Identified cfg s) ∧
      ∀ s₀ tr s op t, Blank s₀ →
        Run (fun s op t => Fits cfg s op ∧ TopicOp.Step cfg s op t) s₀ tr s →
          (op.program cfg).Runs (Serves cfg) s (.ok ()) t → (Identified cfg t ↔ Fits cfg s op) := by
  have horderly : ∀ s₀ tr s, Blank s₀ →
      Run (fun s op t => Fits cfg s op ∧ TopicOp.Step cfg s op t) s₀ tr s → Orderly cfg s := by
    rintro s₀ tr s ⟨htopics, hsent⟩ hrun
    refine hrun.invariant (I := Orderly cfg) ⟨?_, ?_, ?_⟩ fun h ⟨hfits, hstep⟩ => h.step hfits hstep
    · rw [htopics]
      exact fun row hrow => absurd hrow List.not_mem_nil
    · rw [htopics]
      exact List.nodup_nil
    · rw [hsent]
      exact fun m hm => absurd hm List.not_mem_nil
  refine ⟨fun s₀ tr s hblank hrun => (horderly s₀ tr s hblank hrun).identified, ?_⟩
  intro s₀ tr s op t hblank hrun hop
  have hs := horderly s₀ tr s hblank hrun
  exact ⟨fun ht => fits_of_unique hs hop ht.unique,
    fun hfits => (hs.step hfits ⟨_, hop⟩).identified⟩

end Operations

theorem identified_of_fits_telemetry :
    ∃ t, TopicOp.Step panelConfig empty (.createTopic "esp32-1" .telemetry) t ∧
      Identified panelConfig t ∧
        (Identified panelConfig t ↔ Fits panelConfig empty (.createTopic "esp32-1" .telemetry)) := by
  obtain ⟨row, t, hcreate⟩ := exists_runs_createTopic panelConfig "esp32-1" .telemetry empty
  have hrun : ((TopicOp.createTopic "esp32-1" .telemetry).program panelConfig).Runs
      (Serves panelConfig) empty (.ok ()) t := runs_bind_pure.mpr ⟨row, hcreate, rfl⟩
  have hfits : Fits panelConfig empty (.createTopic "esp32-1" .telemetry) :=
    (fits_iff_sameTopic rfl).mpr (by rintro _ ⟨⟩)
  exact ⟨t, ⟨_, hrun⟩,
    (identified_of_fits panelConfig).1 empty _ t ⟨rfl, rfl⟩ (.single ⟨hfits, _, hrun⟩),
    (identified_of_fits panelConfig).2 empty [] empty _ t ⟨rfl, rfl⟩ .refl hrun⟩

/-- The topics of one device. -/
theorem not_identified_of_createAllTopicsForDevice :
    ¬ ∀ (cfg : Config) (s₀ s : Site) (tr : List TopicOp), Blank s₀ →
      Run (TopicOp.Step cfg) s₀ tr s → Identified cfg s := by
  intro h
  obtain ⟨rows, t, hcreate⟩ := exists_runs_createAllTopicsForDevice panelConfig "esp32-1" empty
  have hstep : TopicOp.Step panelConfig empty (.createAllTopicsForDevice "esp32-1") t :=
    ⟨.ok (), runs_bind_pure.mpr ⟨rows, hcreate, rfl⟩⟩
  have hmade : ∀ row ∈ t.world.topics, Made panelConfig row :=
    made_of_step (show TopicOp.ForDevice (.createAllTopicsForDevice "esp32-1") from trivial) hstep
      (by rintro _ ⟨⟩)
  refine not_unique_of_equipped hmade (equipped_createAllTopicsForDevice hcreate) ?_
  exact (h panelConfig empty t _ ⟨rfl, rfl⟩ (.single hstep)).unique

end IotPanel.Device
