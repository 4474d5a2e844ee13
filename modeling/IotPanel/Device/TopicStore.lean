import IotPanel.Device.Naming
import IotPanel.Device.Services

/-!
# The collection of topics

The operations that store topics, one after the other. What a lookup finds among several rows is
left open, and so is which of the commands fail.
-/

namespace IotPanel.Device

open Mqtt (Topic TopicUseCase)
open Program

inductive TopicOp
  | createTopic (deviceId : String) (useCase : TopicUseCase)
  | createDeviceBaseTopic (deviceId : String)
  | createAllTopicsForDevice (deviceId : String)
  | onConnect
  | discoverDevicesBroadcast (userId : String)

def TopicOp.program (cfg : Config) : TopicOp → Prog Unit
  | createTopic deviceId useCase => do
    let _ ← TopicService.createTopic cfg deviceId useCase
  | createDeviceBaseTopic deviceId => do
    let _ ← TopicService.createDeviceBaseTopic cfg deviceId
  | createAllTopicsForDevice deviceId => do
    let _ ← TopicService.createAllTopicsForDevice cfg deviceId
  | onConnect => MqttClientService.onConnect cfg
  | discoverDevicesBroadcast userId => DeviceService.discoverDevicesBroadcast cfg userId

/-- A lookup of a topic finds any row that the query accepts; the other commands are carried out
or fail. -/
inductive Serves (cfg : Config) (s : Site) : (c : Command) → Except Exception c.Reply → Site → Prop
  | found {q : TopicQuery} {row : Topic} (hrow : row ∈ s.world.topics) (hq : q.accepts row = true) :
      Serves cfg s (.findTopic q) (.ok (some row)) s
  | executed {c : Command} {r : Except Exception c.Reply} {t : Site} (h : Executes cfg s c r t) :
      Serves cfg s c r t

/-- The operation runs to its end, with a result or an error. -/
def TopicOp.Step (cfg : Config) (s : Site) (op : TopicOp) (t : Site) : Prop :=
  ∃ r, (op.program cfg).Runs (Serves cfg) s r t

/-- The operation stores topics for a device. -/
def TopicOp.ForDevice : TopicOp → Prop
  | discoverDevicesBroadcast _ => False
  | _ => True

/-- A row as `TopicService` makes it: under the name of the device's base topic or of the use
case. -/
structure Made (cfg : Config) (row : Topic) : Prop where
  brokerUrl : row.brokerUrl = cfg.topics.mqttBrokerUrl
  isSubscribed : row.isSubscribed = true
  name : (row.topic = cfg.topics.deviceBaseTopic row.deviceId ∧ row.useCase = .deviceBase) ∨
    row.topic = cfg.topics.deviceTopic row.deviceId row.useCase

/-- The columns that `storeTopic` looks for. -/
def Named (deviceId topic : String) (useCase : TopicUseCase) (row : Topic) : Prop :=
  row.deviceId = deviceId ∧ row.topic = topic ∧ row.useCase = useCase

/-- The row that `storeTopic` saves. -/
def topicRecord (cfg : Config) (deviceId topic : String) (useCase : TopicUseCase) : Topic :=
  { brokerUrl := cfg.topics.mqttBrokerUrl, deviceId, topic, useCase, isSubscribed := true }

section Commands

variable {cfg : Config} {s t : Site} {c : Command} {r : Except Exception c.Reply} {row : Topic}

/-- Only `saveTopic` changes the stored topics. -/
theorem topics_of_serves (h : Serves cfg s c r t) :
    t.world.topics = s.world.topics ∨
      ∃ row, c = .saveTopic row ∧ t.world.topics = s.world.topics ++ [row] := by
  cases h with
  | found hrow hq => exact .inl rfl
  | executed h =>
    cases h with
    | failed e hfallible => exact .inl rfl
    | kept hconnected => exact .inl rfl
    | attempted fresh c hfresh =>
      cases c with
      | saveTopic row => exact .inr ⟨row, rfl, rfl⟩
      | publish awaited topic payload =>
        left
        show (if s.takes topic payload then _ else _ : Except Exception Unit × Site).2.world.topics = _
        split <;> rfl
      | subscribe topics =>
        left
        show (if s.link.connected then _ else _ : Except Exception Unit × Site).2.world.topics = _
        split <;> rfl
      | unsubscribe topic =>
        left
        show (if s.link.connected then _ else _ : Except Exception Unit × Site).2.world.topics = _
        split <;> rfl
      | _ => exact .inl rfl

theorem topics_subset_of_serves (h : Serves cfg s c r t) : s.world.topics ⊆ t.world.topics := by
  obtain htopics | ⟨row, -, htopics⟩ := topics_of_serves h
  · rw [htopics]
    exact List.Subset.refl _
  · rw [htopics]
    exact List.subset_append_left _ _

/-- No row is ever removed. -/
theorem topics_subset {α : Type} {x : Prog α} {r : Except Exception α}
    (h : x.Runs (Serves cfg) s r t) : s.world.topics ⊆ t.world.topics := by
  induction h with
  | ret => exact List.Subset.refl _
  | await hserves _ ih => exact List.Subset.trans (topics_subset_of_serves hserves) ih

/-- Only `publish` sends messages. -/
theorem sent_of_serves (h : Serves cfg s c r t) (hc : ∀ awaited topic payload,
    c ≠ .publish awaited topic payload) : t.link.sent = s.link.sent := by
  cases h with
  | found hrow hq => rfl
  | executed h =>
    cases h with
    | failed e hfallible => rfl
    | kept hconnected => rfl
    | attempted fresh c hfresh =>
      cases c with
      | publish awaited topic payload => exact absurd rfl (hc awaited topic payload)
      | subscribe topics =>
        show (if s.link.connected then _ else _ : Except Exception Unit × Site).2.link.sent = _
        split <;> rfl
      | unsubscribe topic =>
        show (if s.link.connected then _ else _ : Except Exception Unit × Site).2.link.sent = _
        split <;> rfl
      | _ => rfl

theorem serves_findTopic {q : TopicQuery} {r : Except Exception (Option Topic)}
    (h : Serves cfg s (.findTopic q) r t) :
    t = s ∧ (∀ row, r = .ok (some row) → row ∈ s.world.topics ∧ q.accepts row = true) ∧
      (r = .ok none → ∀ row ∈ s.world.topics, q.accepts row = false) := by
  cases h with
  | found hrow hq =>
    refine ⟨rfl, fun row h => ?_, fun h => by cases h⟩
    cases h
    exact ⟨hrow, hq⟩
  | executed h =>
    obtain ⟨rfl, hfound⟩ := executes_findTopic.mp h
    refine ⟨rfl, fun row h => ?_, fun h => ?_⟩
    · have hrow := (hfound _ h).symm
      exact ⟨List.mem_of_find?_eq_some hrow, List.find?_some hrow⟩
    · intro row hrow
      simpa using List.find?_eq_none.mp (hfound _ h).symm row hrow

theorem serves_saveTopic {r : Except Exception Unit} (h : Serves cfg s (.saveTopic row) r t) :
    (r = .ok () ∧ t = s.storeTopic row) ∨ ((∃ e, r = .error e) ∧ t = s) := by
  cases h with
  | executed h =>
    cases h with
    | failed e hfallible => exact .inr ⟨⟨e, rfl⟩, rfl⟩
    | attempted fresh c hfresh => exact .inl ⟨rfl, rfl⟩

end Commands

/-! ### What the operations store -/

section Operations

variable {cfg : Config} {s t : Site} {deviceId topic : String} {useCase : TopicUseCase}
  {r : Except Exception Topic} {row : Topic}

theorem accepts_nameQuery :
    TopicQuery.accepts ⟨none, some deviceId, some topic, some useCase, none⟩ row = true ↔
      Named deviceId topic useCase row := by
  simp only [TopicQuery.accepts, Option.all_none, Option.all_some, Bool.and_eq_true, beq_iff_eq,
    decide_eq_true_eq, true_and, and_true]
  constructor
  · rintro ⟨⟨rfl, rfl⟩, rfl⟩
    exact ⟨rfl, rfl, rfl⟩
  · rintro ⟨rfl, rfl, rfl⟩
    exact ⟨⟨rfl, rfl⟩, rfl⟩

/-- The row that `createTopic` looks for first. -/
theorem accepts_topicQuery :
    TopicQuery.accepts ⟨some cfg.topics.mqttBrokerUrl, some deviceId, some topic, none, none⟩ row =
        true ↔
      row.brokerUrl = cfg.topics.mqttBrokerUrl ∧ row.deviceId = deviceId ∧ row.topic = topic := by
  simp only [TopicQuery.accepts, Option.all_none, Option.all_some, Bool.and_eq_true, beq_iff_eq,
    and_true]
  constructor
  · rintro ⟨⟨hbroker, rfl⟩, rfl⟩
    exact ⟨hbroker.symm, rfl, rfl⟩
  · rintro ⟨hbroker, rfl, rfl⟩
    exact ⟨⟨hbroker.symm, rfl⟩, rfl⟩

theorem storeTopic_cases
    (h : (TopicService.storeTopic cfg deviceId topic useCase).Runs (Serves cfg) s r t) :
    (t = s ∧ ∀ row, r = .ok row → row ∈ s.world.topics ∧ Named deviceId topic useCase row) ∨
      (r = .ok (topicRecord cfg deviceId topic useCase) ∧
        t = s.storeTopic (topicRecord cfg deviceId topic useCase) ∧
        ∀ row ∈ s.world.topics, ¬ Named deviceId topic useCase row) := by
  obtain ⟨found, s', hfind, hrest⟩ | ⟨e, rfl, hfind⟩ := runs_bind.mp h
  · obtain ⟨rfl, hsome, hnone⟩ := serves_findTopic (runs_perform.mp hfind)
    cases found with
    | some row =>
      obtain ⟨rfl, rfl⟩ := runs_pure.mp hrest
      left
      refine ⟨rfl, fun row' h => ?_⟩
      cases h
      exact ⟨(hsome row rfl).1, accepts_nameQuery.mp (hsome row rfl).2⟩
    | none =>
      have hno : ∀ row ∈ s'.world.topics, ¬ Named deviceId topic useCase row := by
        intro row hrow hnamed
        have hq := hnone rfl row hrow
        rw [accepts_nameQuery.mpr hnamed] at hq
        cases hq
      -- A save that fails leaves the topics as they were.
      obtain ⟨_, s'', hsave, hreturn⟩ | ⟨e, rfl, hsave⟩ := runs_bind.mp hrest
      · obtain ⟨-, rfl⟩ | ⟨⟨e, he⟩, -⟩ := serves_saveTopic (runs_perform.mp hsave)
        · obtain ⟨rfl, rfl⟩ := runs_pure.mp hreturn
          exact .inr ⟨rfl, rfl, hno⟩
        · cases he
      · obtain ⟨he, -⟩ | ⟨-, rfl⟩ := serves_saveTopic (runs_perform.mp hsave)
        · cases he
        · exact .inl ⟨rfl, fun row h => by cases h⟩
  · obtain ⟨rfl, -⟩ := serves_findTopic (runs_perform.mp hfind)
    exact .inl ⟨rfl, fun row h => by cases h⟩

theorem createTopic_cases
    (h : (TopicService.createTopic cfg deviceId useCase).Runs (Serves cfg) s r t) :
    (t = s ∧ ∀ row, r = .ok row → row ∈ s.world.topics ∧ row.deviceId = deviceId ∧
        row.topic = cfg.topics.deviceTopic deviceId useCase) ∨
      (r = .ok (topicRecord cfg deviceId (cfg.topics.deviceTopic deviceId useCase) useCase) ∧
        t = s.storeTopic (topicRecord cfg deviceId (cfg.topics.deviceTopic deviceId useCase) useCase) ∧
        ∀ row ∈ s.world.topics,
          ¬ Named deviceId (cfg.topics.deviceTopic deviceId useCase) useCase row) := by
  obtain ⟨found, s', hfind, hrest⟩ | ⟨e, rfl, hfind⟩ := runs_bind.mp h
  · obtain ⟨rfl, hsome, -⟩ := serves_findTopic (runs_perform.mp hfind)
    cases found with
    | some row =>
      obtain ⟨rfl, rfl⟩ := runs_pure.mp hrest
      left
      refine ⟨rfl, fun row' h => ?_⟩
      cases h
      exact ⟨(hsome row rfl).1, (accepts_topicQuery.mp (hsome row rfl).2).2⟩
    | none =>
      obtain ⟨rfl, hrow⟩ | hstored := storeTopic_cases hrest
      · exact .inl ⟨rfl, fun row h => ⟨(hrow row h).1, (hrow row h).2.1, (hrow row h).2.2.1⟩⟩
      · exact .inr hstored
  · obtain ⟨rfl, -⟩ := serves_findTopic (runs_perform.mp hfind)
    exact .inl ⟨rfl, fun row h => by cases h⟩

theorem createDeviceBaseTopic_cases
    (h : (TopicService.createDeviceBaseTopic cfg deviceId).Runs (Serves cfg) s r t) :
    (t = s ∧ ∀ row, r = .ok row → row ∈ s.world.topics ∧
        Named deviceId (cfg.topics.deviceBaseTopic deviceId) .deviceBase row) ∨
      (r = .ok (topicRecord cfg deviceId (cfg.topics.deviceBaseTopic deviceId) .deviceBase) ∧
        t = s.storeTopic (topicRecord cfg deviceId (cfg.topics.deviceBaseTopic deviceId) .deviceBase) ∧
        ∀ row ∈ s.world.topics,
          ¬ Named deviceId (cfg.topics.deviceBaseTopic deviceId) .deviceBase row) :=
  storeTopic_cases h

/-- The row of the name is stored. -/
def HasRow (s : Site) (deviceId topic : String) : Prop :=
  ∃ row ∈ s.world.topics, row.deviceId = deviceId ∧ row.topic = topic

theorem HasRow.runs {α : Type} {x : Prog α} {r : Except Exception α} {d n : String}
    (hd : HasRow s d n) (h : x.Runs (Serves cfg) s r t) : HasRow t d n := by
  obtain ⟨row, hrow, hnamed⟩ := hd
  exact ⟨row, topics_subset h hrow, hnamed⟩

theorem hasRow_storeTopic : HasRow (s.storeTopic row) row.deviceId row.topic :=
  ⟨row, List.mem_append_right _ List.mem_cons_self, rfl, rfl⟩

theorem hasRow_createTopic
    (h : (TopicService.createTopic cfg deviceId useCase).Runs (Serves cfg) s (.ok row) t) :
    HasRow t deviceId (cfg.topics.deviceTopic deviceId useCase) := by
  obtain ⟨rfl, hrow⟩ | ⟨-, rfl, -⟩ := createTopic_cases h
  · exact ⟨row, hrow row rfl⟩
  · exact hasRow_storeTopic

/-- All topics of the device have been stored. -/
structure Equipped (cfg : Config) (s : Site) (deviceId : String) : Prop where
  base : HasRow s deviceId (cfg.topics.deviceBaseTopic deviceId)
  derived : ∀ u ∈ TopicUseCase.all, HasRow s deviceId (cfg.topics.deviceTopic deviceId u)

theorem equipped_createAllTopicsForDevice {rows : List Topic}
    (h : (TopicService.createAllTopicsForDevice cfg deviceId).Runs (Serves cfg) s (.ok rows) t) :
    Equipped cfg t deviceId := by
  obtain ⟨base, s', hbase, hrest⟩ | ⟨e, he, -⟩ := runs_bind.mp h
  · obtain ⟨topics, hall, -⟩ := runs_bind_pure.mp hrest
    have hfirst : HasRow s' deviceId (cfg.topics.deviceBaseTopic deviceId) := by
      obtain ⟨rfl, hrow⟩ | ⟨-, rfl, -⟩ := createDeviceBaseTopic_cases hbase
      · exact ⟨base, (hrow base rfl).1, (hrow base rfl).2.1, (hrow base rfl).2.2.1⟩
      · exact hasRow_storeTopic
    refine ⟨hfirst.runs hall, ?_⟩
    exact runs_mapM_ok (J := fun u s => HasRow s deviceId (cfg.topics.deviceTopic deviceId u))
      (fun _ _ _ _ hrun => hasRow_createTopic hrun) (fun _ _ _ _ _ hrun hd => hd.runs hrun) hall
  · cases he

/-! ### Lookups that find the first row -/

theorem accepts_nameQuery_eq :
    TopicQuery.accepts ⟨none, some deviceId, some topic, some useCase, none⟩ =
      fun r => decide (r.topic = topic ∧ r.useCase = useCase ∧ r.deviceId = deviceId) := by
  funext r
  rw [Bool.eq_iff_iff, accepts_nameQuery, decide_eq_true_eq]
  exact ⟨fun ⟨hd, ht, hu⟩ => ⟨ht, hu, hd⟩, fun ⟨ht, hu, hd⟩ => ⟨hd, ht, hu⟩⟩

theorem accepts_topicQuery_eq :
    TopicQuery.accepts ⟨some cfg.topics.mqttBrokerUrl, some deviceId, some topic, none, none⟩ =
      fun r => decide (r.brokerUrl = cfg.topics.mqttBrokerUrl ∧ r.topic = topic ∧
        r.deviceId = deviceId) := by
  funext r
  rw [Bool.eq_iff_iff, accepts_topicQuery, decide_eq_true_eq]
  exact ⟨fun ⟨hb, hd, ht⟩ => ⟨hb, ht, hd⟩, fun ⟨hb, ht, hd⟩ => ⟨hb, hd, ht⟩⟩

/-- An operation that stores topics fails and changes none, or does what is said of the rows. -/
def Performs {α : Type} (s : Site) (r : Except Exception α) (t : Site)
    (outcome : α × List Topic) : Prop :=
  ((∃ e, r = .error e) ∧ t.world.topics = s.world.topics) ∨
    (r = .ok outcome.1 ∧ t.world.topics = outcome.2)

theorem performs_storeTopic
    (h : (TopicService.storeTopic cfg deviceId topic useCase).Runs (Executes cfg) s r t) :
    Performs s r t (Mqtt.storeTopic cfg.topics s.world.topics deviceId topic useCase) := by
  obtain ⟨found, s', hfind, hrest⟩ | ⟨e, rfl, hfind⟩ := runs_bind.mp h
  · obtain ⟨rfl, hfound⟩ := executes_findTopic.mp (runs_perform.mp hfind)
    have hrows := hfound _ rfl
    rw [accepts_nameQuery_eq] at hrows
    cases found with
    | some row =>
      obtain ⟨rfl, rfl⟩ := runs_pure.mp hrest
      right
      simp only [Mqtt.storeTopic, ← hrows, and_self]
    | none =>
      obtain ⟨_, s'', hsave, hreturn⟩ | ⟨e, rfl, hsave⟩ := runs_bind.mp hrest
      · obtain ⟨-, rfl⟩ | ⟨⟨e, he⟩, -⟩ := serves_saveTopic (.executed (runs_perform.mp hsave))
        · obtain ⟨rfl, rfl⟩ := runs_pure.mp hreturn
          right
          simp only [Mqtt.storeTopic, ← hrows]
          exact ⟨trivial, rfl⟩
        · cases he
      · obtain ⟨he, -⟩ | ⟨-, rfl⟩ := serves_saveTopic (.executed (runs_perform.mp hsave))
        · cases he
        · exact .inl ⟨⟨e, rfl⟩, rfl⟩
  · obtain ⟨rfl, -⟩ := executes_findTopic.mp (runs_perform.mp hfind)
    exact .inl ⟨⟨e, rfl⟩, rfl⟩

theorem performs_createTopic
    (h : (TopicService.createTopic cfg deviceId useCase).Runs (Executes cfg) s r t) :
    Performs s r t (Mqtt.createTopic cfg.topics s.world.topics deviceId useCase) := by
  obtain ⟨found, s', hfind, hrest⟩ | ⟨e, rfl, hfind⟩ := runs_bind.mp h
  · obtain ⟨rfl, hfound⟩ := executes_findTopic.mp (runs_perform.mp hfind)
    have hrows := hfound _ rfl
    rw [accepts_topicQuery_eq] at hrows
    cases found with
    | some row =>
      obtain ⟨rfl, rfl⟩ := runs_pure.mp hrest
      right
      simp only [Mqtt.createTopic, ← hrows, and_self]
    | none =>
      simp only [Mqtt.createTopic, ← hrows]
      exact performs_storeTopic hrest
  · obtain ⟨rfl, -⟩ := executes_findTopic.mp (runs_perform.mp hfind)
    exact .inl ⟨⟨e, rfl⟩, rfl⟩

/-! ### Where nothing fails -/

/-- A topic is looked up and returned, or else made. -/
theorem exists_executes_findTopic {q : TopicQuery} {make : Option Topic → Prog Topic} {s : Site}
    (hsome : ∀ row, make (some row) = pure row)
    (hnone : ∃ row t, (make none).Runs (Executes cfg) s (.ok row) t) :
    ∃ row t, (Program.perform (.findTopic q) >>= make).Runs (Executes cfg) s (.ok row) t := by
  have hlookup : Executes cfg s (.findTopic q) (.ok (s.world.topics.find? q.accepts)) s :=
    executes_findTopic.mpr ⟨rfl, fun found h => (Except.ok.inj h).symm⟩
  cases hfound : s.world.topics.find? q.accepts with
  | some row =>
    rw [hfound] at hlookup
    refine ⟨row, s, runs_bind.mpr (.inl ⟨_, s, runs_perform.mpr hlookup, ?_⟩)⟩
    rw [hsome]
    exact runs_pure.mpr ⟨rfl, rfl⟩
  | none =>
    rw [hfound] at hlookup
    obtain ⟨row, t, hmake⟩ := hnone
    exact ⟨row, t, runs_bind.mpr (.inl ⟨_, s, runs_perform.mpr hlookup, hmake⟩)⟩

theorem exists_executes_storeTopic (cfg : Config) (deviceId topic : String) (useCase : TopicUseCase)
    (s : Site) : ∃ row t,
      (TopicService.storeTopic cfg deviceId topic useCase).Runs (Executes cfg) s (.ok row) t := by
  let record := topicRecord cfg deviceId topic useCase
  have hsave : Executes cfg s (.saveTopic record) (.ok ()) (s.storeTopic record) :=
    .attempted "" (.saveTopic record) fun h => by cases h
  exact exists_executes_findTopic (fun _ => rfl) ⟨record, s.storeTopic record,
    runs_bind.mpr (.inl ⟨(), _, runs_perform.mpr hsave, runs_pure.mpr ⟨rfl, rfl⟩⟩)⟩

theorem exists_executes_createTopic (cfg : Config) (deviceId : String) (useCase : TopicUseCase)
    (s : Site) : ∃ row t,
      (TopicService.createTopic cfg deviceId useCase).Runs (Executes cfg) s (.ok row) t :=
  exists_executes_findTopic (fun _ => rfl)
    (exists_executes_storeTopic cfg deviceId (cfg.topics.deviceTopic deviceId useCase) useCase s)

theorem exists_executes_createAllTopicsForDevice (cfg : Config) (deviceId : String) (s : Site) :
    ∃ rows t,
      (TopicService.createAllTopicsForDevice cfg deviceId).Runs (Executes cfg) s (.ok rows) t := by
  obtain ⟨base, s', hbase⟩ := exists_executes_storeTopic cfg deviceId
    (cfg.topics.baseTopic ++ "/" ++ deviceId) .deviceBase s
  obtain ⟨topics, t, hall⟩ :=
    exists_runs_mapM (exists_executes_createTopic cfg deviceId) TopicUseCase.all s'
  exact ⟨base :: topics, t, runs_bind.mpr (.inl ⟨base, s', hbase,
    runs_bind_pure.mpr ⟨topics, hall, rfl⟩⟩)⟩

theorem exists_runs_createTopic (cfg : Config) (deviceId : String) (useCase : TopicUseCase)
    (s : Site) : ∃ row t,
      (TopicService.createTopic cfg deviceId useCase).Runs (Serves cfg) s (.ok row) t := by
  obtain ⟨row, t, h⟩ := exists_executes_createTopic cfg deviceId useCase s
  exact ⟨row, t, h.mono fun _ _ _ _ => .executed⟩

theorem exists_runs_createAllTopicsForDevice (cfg : Config) (deviceId : String) (s : Site) :
    ∃ rows t,
      (TopicService.createAllTopicsForDevice cfg deviceId).Runs (Serves cfg) s (.ok rows) t := by
  obtain ⟨rows, t, h⟩ := exists_executes_createAllTopicsForDevice cfg deviceId s
  exact ⟨rows, t, h.mono fun _ _ _ _ => .executed⟩

end Operations

/-! ### The names of what is stored -/

/-- Only rows of the usual names are saved. -/
def making (cfg : Config) : Protocol Unit Command Command.Reply Exception where
  allowed _ c :=
    match c with
    | .saveTopic row => Made cfg row
    | _ => True
  next _ _ _ := ()

section Names

variable {cfg : Config} {s t : Site} {deviceId topic : String} {useCase : TopicUseCase} {op : TopicOp}

theorem stays_other {c : Command} (hc : ∀ row, c ≠ .saveTopic row) :
    (perform c : Prog c.Reply).Stays (making cfg) () := by
  refine stays_perform ?_ fun _ => rfl
  cases c with
  | saveTopic row => exact absurd rfl (hc row)
  | _ => exact trivial

theorem stays_findTopic_making (q : TopicQuery) : (findTopic q).Stays (making cfg) () :=
  stays_other fun _ h => by cases h

theorem stays_createTopic_making :
    (TopicService.createTopic cfg deviceId useCase).Stays (making cfg) () :=
  stays_createTopic_of stays_findTopic_making (stays_perform ⟨rfl, rfl, .inr rfl⟩ fun _ => rfl)

theorem stays_createDeviceBaseTopic :
    (TopicService.createDeviceBaseTopic cfg deviceId).Stays (making cfg) () :=
  stays_storeTopic_of stays_findTopic_making
    (stays_perform ⟨rfl, rfl, .inl ⟨rfl, rfl⟩⟩ fun _ => rfl)

theorem stays_program (hop : op.ForDevice) : (op.program cfg).Stays (making cfg) () := by
  cases op with
  | createTopic deviceId useCase => exact stays_bind stays_createTopic_making fun _ => stays_pure
  | createDeviceBaseTopic deviceId =>
    exact stays_bind stays_createDeviceBaseTopic fun _ => stays_pure
  | createAllTopicsForDevice deviceId =>
    refine stays_bind (stays_bind stays_createDeviceBaseTopic fun _ => ?_) fun _ => stays_pure
    exact stays_bind (stays_mapM fun _ => stays_createTopic_making) fun _ => stays_pure
  | onConnect =>
    refine stays_bind (stays_other fun _ h => by cases h) fun _ => ?_
    refine stays_bind stays_createTopic_making fun broadcastTopic => ?_
    refine stays_bind ?_ fun storedTopics => stays_other fun _ h => by cases h
    refine stays_bind (stays_other fun _ h => by cases h) fun topics => ?_
    exact stays_ite (fun _ => stays_bind stays_throw fun _ => stays_pure) fun _ => stays_pure
  | discoverDevicesBroadcast userId => exact hop.elim

theorem made_of_step (hop : op.ForDevice) (hstep : TopicOp.Step cfg s op t)
    (hs : ∀ row ∈ s.world.topics, Made cfg row) : ∀ row ∈ t.world.topics, Made cfg row := by
  obtain ⟨r, hruns⟩ := hstep
  obtain ⟨-, -, ht⟩ := hruns.of_wp (A := fun s _ => ∀ row ∈ s.world.topics, Made cfg row)
    (stays_program hop) hs fun s _ c r t hs hallowed hserves => by
      obtain htopics | ⟨saved, rfl, htopics⟩ := topics_of_serves hserves
      · rwa [htopics]
      · intro row hrow
        rw [htopics] at hrow
        rcases List.mem_append.mp hrow with hrow | hrow
        · exact hs row hrow
        · exact List.mem_singleton.mp hrow ▸ hallowed
  exact ht

end Names

end IotPanel.Device
