import IotPanel.Device.TopicStore
import IotPanel.Device.Unique
import IotPanel.Lib.Ensure
import Mathlib.Data.Fintype.EquivFin
import Mathlib.Logic.Relation

/-!
# Creating the topics of a device again

`createAllTopicsForDevice` adds the rows that are missing. Cut short at any command it can be
called again, and what it leaves is the same. Called once more it finds what it returned before.
For another broker it adds nothing unless a row of the present one has taken the name of another
use case, and finds the same rows unless those of one name belong to different brokers, or the
first of them to another use case.
-/

namespace IotPanel.Device

open Mqtt (Topic TopicUseCase)
open Program

/-! ### What is wanted for a device -/

/-- The rows of the device under the name of a use case. -/
def derivedRows (cfg : Config) (deviceId : String) (u : TopicUseCase) (rows : List Topic) :
    List Topic :=
  rows.filter fun row => row.topic = cfg.topics.deviceTopic deviceId u ∧ row.deviceId = deviceId

/-- The row that `createTopic` returns, among those of the name. -/
def pick (cfg : Config) (deviceId : String) (u : TopicUseCase) (derived : List Topic) : Topic :=
  (derived.find? fun row => row.brokerUrl = cfg.topics.mqttBrokerUrl).getD
    ((derived.find? fun row => row.useCase = u).getD
      (topicRecord cfg deviceId (cfg.topics.deviceTopic deviceId u) u))

def wantedBase (cfg : Config) (deviceId : String) : Wanted Topic where
  found row := row.topic = cfg.topics.deviceBaseTopic deviceId ∧ row.useCase = .deviceBase ∧
    row.deviceId = deviceId
  row := topicRecord cfg deviceId (cfg.topics.deviceBaseTopic deviceId) .deviceBase
  found_row := by simp [topicRecord]

def wantedTopic (cfg : Config) (deviceId : String) (u : TopicUseCase) : Wanted Topic where
  found row := row.topic = cfg.topics.deviceTopic deviceId u ∧ row.deviceId = deviceId ∧
    (row.brokerUrl = cfg.topics.mqttBrokerUrl ∨ row.useCase = u)
  row := topicRecord cfg deviceId (cfg.topics.deviceTopic deviceId u) u
  found_row := by simp [topicRecord]

def wantedTopics (cfg : Config) (deviceId : String) : List (Wanted Topic) :=
  wantedBase cfg deviceId :: TopicUseCase.all.map (wantedTopic cfg deviceId)

variable {cfg : Config} {deviceId : String} {u v : TopicUseCase} {rows : List Topic} {s s' t : Site}

/-- `createTopic` adds a row if nothing that is stored will do. -/
theorem createTopic_snd :
    (Mqtt.createTopic cfg.topics rows deviceId u).2 = ensure rows (wantedTopic cfg deviceId u) := by
  have hfound : ∀ row ∈ rows, row.topic = cfg.topics.deviceTopic deviceId u →
      row.deviceId = deviceId → (row.brokerUrl = cfg.topics.mqttBrokerUrl ∨ row.useCase = u) →
      ensure rows (wantedTopic cfg deviceId u) = rows := by
    intro row hrow htopic hdevice hone
    refine if_pos (List.any_eq_true.mpr ⟨row, hrow, ?_⟩)
    simp [wantedTopic, htopic, hdevice, hone]
  unfold Mqtt.createTopic Mqtt.storeTopic
  dsimp only
  split
  · next row hrow =>
    have h := List.find?_some hrow
    rw [decide_eq_true_eq] at h
    exact (hfound row (List.mem_of_find?_eq_some hrow) h.2.1 h.2.2 (.inl h.1)).symm
  · next hnobroker =>
    split
    · next row hrow =>
      have h := List.find?_some hrow
      rw [decide_eq_true_eq] at h
      exact (hfound row (List.mem_of_find?_eq_some hrow) h.1 h.2.2 (.inr h.2.1)).symm
    · next hnoname =>
      refine (if_neg ?_).symm
      rw [List.any_eq_true]
      rintro ⟨row, hrow, hw⟩
      obtain ⟨htopic, hdevice, hbroker | huse⟩ := of_decide_eq_true hw
      · simpa [htopic, hdevice, hbroker] using List.find?_eq_none.mp hnobroker row hrow
      · simpa [htopic, hdevice, huse] using List.find?_eq_none.mp hnoname row hrow

theorem find?_derivedRows (p : Topic → Prop) [DecidablePred p] :
    (derivedRows cfg deviceId u rows).find? (fun row => p row) =
      rows.find? fun row => row.topic = cfg.topics.deviceTopic deviceId u ∧
        row.deviceId = deviceId ∧ p row := by
  rw [derivedRows, List.find?_filter]
  congr 1
  funext row
  simp only [decide_eq_true_eq, and_assoc]

theorem createTopic_fst :
    (Mqtt.createTopic cfg.topics rows deviceId u).1 =
      pick cfg deviceId u (derivedRows cfg deviceId u rows) := by
  have hbroker : ∀ row : Topic, (row.brokerUrl = cfg.topics.mqttBrokerUrl ∧
      row.topic = cfg.topics.deviceTopic deviceId u ∧ row.deviceId = deviceId) ↔
        (row.topic = cfg.topics.deviceTopic deviceId u ∧ row.deviceId = deviceId ∧
          row.brokerUrl = cfg.topics.mqttBrokerUrl) := fun row => by tauto
  have hname : ∀ row : Topic, (row.topic = cfg.topics.deviceTopic deviceId u ∧
      row.useCase = u ∧ row.deviceId = deviceId) ↔
        (row.topic = cfg.topics.deviceTopic deviceId u ∧ row.deviceId = deviceId ∧
          row.useCase = u) := fun row => by tauto
  unfold Mqtt.createTopic Mqtt.storeTopic pick
  simp only [find?_derivedRows, hbroker, hname]
  split
  · next row hrow => rw [hrow, Option.getD_some]
  · next hnone =>
    rw [hnone, Option.getD_none]
    split
    · next row hrow => rw [hrow, Option.getD_some]
    · next hnone =>
      rw [hnone]
      rfl

theorem mem_derivedRows {row : Topic} :
    row ∈ derivedRows cfg deviceId u rows ↔
      row ∈ rows ∧ row.topic = cfg.topics.deviceTopic deviceId u ∧ row.deviceId = deviceId := by
  simp [derivedRows]

/-- Another name's row is not among those of the name. -/
theorem derivedRows_ensure_of_ne {w : Wanted Topic}
    (h : w.row.topic ≠ cfg.topics.deviceTopic deviceId u) :
    derivedRows cfg deviceId u (ensure rows w) = derivedRows cfg deviceId u rows := by
  unfold ensure
  split
  · rfl
  · simp [derivedRows, h]

/-- The rows of a name after `createTopic`: those that were there, or the new one. -/
theorem pick_ensure :
    pick cfg deviceId u (derivedRows cfg deviceId u (ensure rows (wantedTopic cfg deviceId u))) =
      pick cfg deviceId u (derivedRows cfg deviceId u rows) := by
  by_cases hany : rows.any (wantedTopic cfg deviceId u).found = true
  · rw [ensure, if_pos hany]
  · -- nothing that was there will do, and the new row does
    have hnone : ∀ row ∈ derivedRows cfg deviceId u rows,
        row.brokerUrl ≠ cfg.topics.mqttBrokerUrl ∧ row.useCase ≠ u := by
      intro row hrow
      obtain ⟨hrow, htopic, hdevice⟩ := mem_derivedRows.mp hrow
      have hnot := fun hw => hany (List.any_eq_true.mpr ⟨row, hrow, hw⟩)
      simpa [wantedTopic, htopic, hdevice] using hnot
    have hbroker : (derivedRows cfg deviceId u rows).find?
        (fun row => row.brokerUrl = cfg.topics.mqttBrokerUrl) = none :=
      List.find?_eq_none.mpr fun row hrow => by simpa using (hnone row hrow).1
    have hname : (derivedRows cfg deviceId u rows).find? (fun row => row.useCase = u) = none :=
      List.find?_eq_none.mpr fun row hrow => by simpa using (hnone row hrow).2
    have hnew : derivedRows cfg deviceId u (ensure rows (wantedTopic cfg deviceId u)) =
        derivedRows cfg deviceId u rows ++ [(wantedTopic cfg deviceId u).row] := by
      rw [ensure, if_neg hany]
      simp [derivedRows, wantedTopic, topicRecord]
    rw [hnew]
    simp [pick, hbroker, hname, wantedTopic, topicRecord]

/-! ### What a call leaves behind -/

/-- The rows that a call returns, once they are stored. -/
def storedRows (cfg : Config) (deviceId : String) (rows : List Topic) : List Topic :=
  (Mqtt.storeTopic cfg.topics rows deviceId (cfg.topics.deviceBaseTopic deviceId) .deviceBase).1 ::
    TopicUseCase.all.map fun u => pick cfg deviceId u (derivedRows cfg deviceId u rows)

theorem derivedRows_ensureAll_of_ne {ws : List (Wanted Topic)}
    (h : ∀ w ∈ ws, w.row.topic ≠ cfg.topics.deviceTopic deviceId u) :
    derivedRows cfg deviceId u (ensureAll rows ws) = derivedRows cfg deviceId u rows := by
  induction ws generalizing rows with
  | nil => rfl
  | cons w ws ih =>
    rw [ensureAll_cons, ih fun v hv => h v (by simp [hv]), derivedRows_ensure_of_ne (h w (by simp))]

/-- The loop over the use cases, up to its end or to an error. -/
theorem performs_createTopics {us : List TopicUseCase} (hus : us.Nodup)
    {r : Except Exception (List Topic)}
    (h : (us.mapM (TopicService.createTopic cfg deviceId)).Runs (Executes cfg) s r t) :
    ((∃ e, r = .error e) ∧ Partly (us.map (wantedTopic cfg deviceId)) s.world.topics t.world.topics) ∨
      (t.world.topics = ensureAll s.world.topics (us.map (wantedTopic cfg deviceId)) ∧
        r = .ok (us.map fun u => pick cfg deviceId u (derivedRows cfg deviceId u t.world.topics))) := by
  induction us generalizing s r with
  | nil =>
    obtain ⟨rfl, rfl⟩ := runs_pure.mp h
    exact .inr ⟨rfl, rfl⟩
  | cons u us ih =>
    obtain ⟨hu, hus⟩ := List.nodup_cons.mp hus
    rw [List.mapM_cons, runs_bind] at h
    obtain ⟨row, s', hcreate, hrest⟩ | ⟨e, rfl, hcreate⟩ := h
    · obtain ⟨⟨e, he⟩, -⟩ | ⟨hrow, hs'⟩ := performs_createTopic hcreate
      · cases he
      · rw [createTopic_fst, ← pick_ensure, ← createTopic_snd, ← hs'] at hrow
        rw [createTopic_snd] at hs'
        obtain ⟨rows, t', hloop, hpure⟩ | ⟨e, rfl, hloop⟩ := runs_bind.mp hrest
        · obtain ⟨rfl, rfl⟩ := runs_pure.mp hpure
          obtain ⟨⟨e, he⟩, -⟩ | ⟨ht, hrows⟩ := ih hus hloop
          · cases he
          · -- what the rest of the loop adds has other names
            have hkept : derivedRows cfg deviceId u t.world.topics =
                derivedRows cfg deviceId u s'.world.topics := by
              rw [ht]
              refine derivedRows_ensureAll_of_ne fun w hw htopic => ?_
              obtain ⟨v, hv, rfl⟩ := List.mem_map.mp hw
              exact hu (cfg.topics.deviceTopic_injective htopic ▸ hv)
            right
            rw [List.map_cons, List.map_cons, ensureAll_cons, ← hs', hkept]
            cases hrow
            cases hrows
            exact ⟨ht, rfl⟩
        · obtain ⟨-, hpartly⟩ | ⟨-, he⟩ := ih hus hloop
          · rw [hs'] at hpartly
            exact .inl ⟨⟨e, rfl⟩, hpartly.cons⟩
          · cases he
    · obtain ⟨-, ht⟩ | ⟨he, -⟩ := performs_createTopic hcreate
      · exact .inl ⟨⟨e, rfl⟩, ht ▸ Partly.refl⟩
      · cases he

theorem storeTopic_eq :
    Mqtt.storeTopic cfg.topics rows deviceId (cfg.topics.deviceBaseTopic deviceId) .deviceBase =
      ((rows.find? (wantedBase cfg deviceId).found).getD (wantedBase cfg deviceId).row,
        ensure rows (wantedBase cfg deviceId)) := by
  have hfound : (rows.find? fun r => r.topic = cfg.topics.deviceBaseTopic deviceId ∧
      r.useCase = .deviceBase ∧ r.deviceId = deviceId) =
        rows.find? (wantedBase cfg deviceId).found := rfl
  unfold Mqtt.storeTopic ensure
  rw [← List.isSome_find?, hfound]
  cases rows.find? (wantedBase cfg deviceId).found with
  | some row => simp
  | none => rfl

/-- The row of the base topic is the first one that will do, and remains it. -/
theorem find?_ensureAll {w : Wanted Topic} {ws : List (Wanted Topic)} :
    ((ensureAll rows (w :: ws)).find? w.found).getD w.row = (rows.find? w.found).getD w.row := by
  obtain ⟨rest, hrest⟩ := prefix_ensureAll (ensure rows w) ws
  rw [ensureAll_cons, ← hrest, List.find?_append]
  cases hfind : rows.find? w.found with
  | some row =>
    have hany : rows.any w.found = true := by
      rw [← List.isSome_find?, hfind]
      rfl
    rw [ensure, if_pos hany, hfind]
    rfl
  | none =>
    have hany : ¬ rows.any w.found = true := by
      rw [← List.isSome_find?, hfind]
      exact Bool.false_ne_true
    rw [ensure, if_neg hany, List.find?_append, hfind]
    simp [w.found_row]

theorem ensureAll_wantedTopics :
    ensureAll rows (wantedTopics cfg deviceId) =
      ensureAll (ensure rows (wantedBase cfg deviceId))
        (TopicUseCase.all.map (wantedTopic cfg deviceId)) := by
  rw [wantedTopics, ensureAll_cons]

theorem storeTopic_ensureAll :
    (Mqtt.storeTopic cfg.topics (ensureAll rows (wantedTopics cfg deviceId)) deviceId
      (cfg.topics.deviceBaseTopic deviceId) .deviceBase).1 =
    (Mqtt.storeTopic cfg.topics rows deviceId (cfg.topics.deviceBaseTopic deviceId)
      .deviceBase).1 := by
  rw [storeTopic_eq, storeTopic_eq, wantedTopics]
  dsimp only
  exact find?_ensureAll

/-- A call that is cut short has added some of the rows that are missing, a complete one all. -/
theorem performs_createAllTopics {r : Except Exception (List Topic)}
    (h : (TopicService.createAllTopicsForDevice cfg deviceId).Runs (Executes cfg) s r t) :
    ((∃ e, r = .error e) ∧ Partly (wantedTopics cfg deviceId) s.world.topics t.world.topics) ∨
      (t.world.topics = ensureAll s.world.topics (wantedTopics cfg deviceId) ∧
        r = .ok (storedRows cfg deviceId t.world.topics)) := by
  obtain ⟨base, s', hbase, hrest⟩ | ⟨e, rfl, hbase⟩ := runs_bind.mp h
  · obtain ⟨⟨e, he⟩, -⟩ | ⟨hrow, hs'⟩ := performs_storeTopic hbase
    · cases he
    · have hs' : s'.world.topics = ensure s.world.topics (wantedBase cfg deviceId) :=
        hs'.trans (congrArg Prod.snd storeTopic_eq)
      have hall : TopicUseCase.all.Nodup := by decide
      obtain ⟨rows, t', hloop, hpure⟩ | ⟨e, rfl, hloop⟩ := runs_bind.mp hrest
      · obtain ⟨rfl, rfl⟩ := runs_pure.mp hpure
        obtain ⟨⟨e, he⟩, -⟩ | ⟨ht, hrows⟩ := performs_createTopics hall hloop
        · cases he
        · rw [hs', ← ensureAll_wantedTopics] at ht
          cases hrow
          cases hrows
          refine .inr ⟨ht, ?_⟩
          rw [storedRows, ht, storeTopic_ensureAll]
          rfl
      · obtain ⟨-, hpartly⟩ | ⟨-, he⟩ := performs_createTopics hall hloop
        · rw [hs'] at hpartly
          exact .inl ⟨⟨e, rfl⟩, hpartly.cons⟩
        · cases he
  · obtain ⟨-, ht⟩ | ⟨he, -⟩ := performs_storeTopic hbase
    · exact .inl ⟨⟨e, rfl⟩, ht ▸ Partly.refl⟩
    · cases he

/-! ### Calling again, for any broker -/

def Config.withBroker (cfg : Config) (url : String) : Config :=
  { cfg with topics := { cfg.topics with mqttBrokerUrl := url } }

/-- The rows of a name belong to one broker, and the first of them to the use case. -/
structure Settled (u : TopicUseCase) (derived : List Topic) : Prop where
  broker : ∀ a ∈ derived, ∀ b ∈ derived, a.brokerUrl = b.brokerUrl
  useCase : ∀ row, derived.head? = some row → row.useCase = u

variable {derived : List Topic} {row : Topic}

theorem pick_withBroker (url : String) :
    pick (cfg.withBroker url) deviceId u derived =
      (derived.find? fun row => row.brokerUrl = url).getD
        ((derived.find? fun row => row.useCase = u).getD
          (topicRecord (cfg.withBroker url) deviceId (cfg.topics.deviceTopic deviceId u) u)) := rfl

theorem pick_of_settled (h : Settled u derived) (hrow : derived.head? = some row) (url : String) :
    pick (cfg.withBroker url) deviceId u derived = row := by
  obtain ⟨rest, rfl⟩ := List.head?_eq_some_iff.mp hrow
  have huse := h.useCase row hrow
  rw [pick_withBroker]
  by_cases hurl : row.brokerUrl = url
  · simp [hurl]
  · have hnone : (row :: rest).find? (fun a => a.brokerUrl = url) = none := by
      refine List.find?_eq_none.mpr fun a ha => ?_
      rw [h.broker a ha row (by simp)]
      simpa using hurl
    rw [hnone]
    simp [huse]

theorem exists_new_url (rows : List Topic) : ∃ url, ∀ row ∈ rows, row.brokerUrl ≠ url := by
  obtain ⟨url, hurl⟩ := Infinite.exists_notMem_finset (rows.map fun row => row.brokerUrl).toFinset
  refine ⟨url, fun row hrow heq => hurl ?_⟩
  exact List.mem_toFinset.mpr (List.mem_map.mpr ⟨row, hrow, heq⟩)

/-- For a broker that no row has, only a row of the use case will do. -/
theorem useCase_of_found {url : String} (hurl : ∀ a ∈ derived, a.brokerUrl ≠ url)
    (hrow : row ∈ derived) (h : (wantedTopic (cfg.withBroker url) deviceId u).found row = true) :
    row.useCase = u := by
  obtain ⟨-, -, hbroker | huse⟩ := of_decide_eq_true h
  · exact absurd hbroker (hurl row hrow)
  · exact huse

/-- Whatever the broker is, something will do and the same row is returned. -/
theorem settled_of_pick
    (h : ∀ url, derived.any (wantedTopic (cfg.withBroker url) deviceId u).found = true ∧
      pick (cfg.withBroker url) deviceId u derived = row) :
    Settled u derived := by
  -- a row of some broker would be returned for that broker
  have hbroker : ∀ a ∈ derived, a.brokerUrl = row.brokerUrl := by
    intro a ha
    have hpick := (h a.brokerUrl).2
    rw [pick_withBroker] at hpick
    cases hfind : derived.find? fun b => b.brokerUrl = a.brokerUrl with
    | none => simpa using List.find?_eq_none.mp hfind a ha
    | some b =>
      have hb := List.find?_some hfind
      rw [decide_eq_true_eq] at hb
      rw [hfind, Option.getD_some] at hpick
      rw [← hb, hpick]
  have hhead : ∀ a, derived.head? = some a → a = row := by
    intro a ha
    obtain ⟨rest, rfl⟩ := List.head?_eq_some_iff.mp ha
    have hpick := (h a.brokerUrl).2
    rw [pick_withBroker] at hpick
    simpa using hpick
  refine ⟨fun a ha b hb => (hbroker a ha).trans (hbroker b hb).symm, fun a ha => ?_⟩
  obtain rfl := hhead a ha
  -- for a broker that no row has the use case decides
  obtain ⟨url, hurl⟩ := exists_new_url derived
  have hnone : derived.find? (fun b => b.brokerUrl = url) = none :=
    List.find?_eq_none.mpr fun b hb => by simpa using hurl b hb
  obtain ⟨hany, hpick⟩ := h url
  obtain ⟨b, hb, hfound⟩ := List.any_eq_true.mp hany
  have hbuse := useCase_of_found hurl hb hfound
  cases hfind : derived.find? fun c => c.useCase = u with
  | none => simpa [hbuse] using List.find?_eq_none.mp hfind b hb
  | some c =>
    have hc := List.find?_some hfind
    rw [decide_eq_true_eq] at hc
    rw [pick_withBroker, hnone, hfind, Option.getD_none, Option.getD_some] at hpick
    rw [← hpick, hc]

theorem any_derivedRows :
    (derivedRows cfg deviceId u rows).any (wantedTopic cfg deviceId u).found =
      rows.any (wantedTopic cfg deviceId u).found := by
  rw [Bool.eq_iff_iff, List.any_eq_true, List.any_eq_true]
  constructor
  · rintro ⟨row, hrow, hfound⟩
    exact ⟨row, (mem_derivedRows.mp hrow).1, hfound⟩
  · rintro ⟨row, hrow, hfound⟩
    obtain ⟨htopic, hdevice, -⟩ := of_decide_eq_true hfound
    exact ⟨row, mem_derivedRows.mpr ⟨hrow, htopic, hdevice⟩, hfound⟩

theorem derivedRows_ensure_self :
    derivedRows cfg deviceId u (ensure rows (wantedTopic cfg deviceId u)) =
      ensure (derivedRows cfg deviceId u rows) (wantedTopic cfg deviceId u) := by
  rw [ensure, ensure, any_derivedRows]
  split
  · rfl
  · simp [derivedRows, wantedTopic, topicRecord]

theorem derivedRows_ensureAll {us : List TopicUseCase} (hus : us.Nodup) (hu : u ∈ us) :
    derivedRows cfg deviceId u (ensureAll rows (us.map (wantedTopic cfg deviceId))) =
      ensure (derivedRows cfg deviceId u rows) (wantedTopic cfg deviceId u) := by
  induction us generalizing rows with
  | nil => exact absurd hu List.not_mem_nil
  | cons v us ih =>
    obtain ⟨hv, hus⟩ := List.nodup_cons.mp hus
    rw [List.map_cons, ensureAll_cons]
    by_cases huv : u = v
    · subst huv
      rw [derivedRows_ensureAll_of_ne, derivedRows_ensure_self]
      intro w hw htopic
      obtain ⟨v, hv', rfl⟩ := List.mem_map.mp hw
      exact hv (cfg.topics.deviceTopic_injective htopic ▸ hv')
    · have hne : (wantedTopic cfg deviceId v).row.topic ≠ cfg.topics.deviceTopic deviceId u :=
        fun htopic => huv (cfg.topics.deviceTopic_injective htopic).symm
      rw [ih hus ((List.mem_cons.mp hu).resolve_left huv), derivedRows_ensure_of_ne hne]

/-- The rows of a name after a complete call. -/
theorem derivedRows_wantedTopics :
    derivedRows cfg deviceId u (ensureAll rows (wantedTopics cfg deviceId)) =
      ensure (derivedRows cfg deviceId u rows) (wantedTopic cfg deviceId u) := by
  have hbase : (wantedBase cfg deviceId).row.topic ≠ cfg.topics.deviceTopic deviceId u :=
    cfg.topics.deviceBaseTopic_ne deviceId u
  rw [ensureAll_wantedTopics, derivedRows_ensureAll (by decide) u.mem_all,
    derivedRows_ensure_of_ne hbase]

theorem Settled.of_prefix {derived' : List Topic} (h : Settled u derived')
    (hbegin : derived <+: derived') : Settled u derived := by
  obtain ⟨rest, rfl⟩ := hbegin
  refine ⟨fun a ha b hb => h.broker a (by simp [ha]) b (by simp [hb]), fun row hrow => ?_⟩
  exact h.useCase row (by simp [List.head?_append, hrow])

/-- Where the rows of a name are settled a row is added only to none. -/
theorem Settled.ensure (h : Settled u (derivedRows cfg deviceId u rows)) :
    Settled u (ensure (derivedRows cfg deviceId u rows) (wantedTopic cfg deviceId u)) ∧
      ∃ row, (ensure (derivedRows cfg deviceId u rows) (wantedTopic cfg deviceId u)).head? =
        some row := by
  cases hderived : derivedRows cfg deviceId u rows with
  | nil =>
    have hnew : IotPanel.ensure [] (wantedTopic cfg deviceId u) =
      [(wantedTopic cfg deviceId u).row] := rfl
    rw [hnew]
    refine ⟨⟨fun a ha b hb => ?_, fun row hrow => ?_⟩, _, rfl⟩
    · rw [List.mem_singleton.mp ha, List.mem_singleton.mp hb]
    · cases hrow
      rfl
  | cons row rest =>
    rw [hderived] at h
    have hmem := mem_derivedRows.mp (hderived ▸ List.mem_cons_self : row ∈ derivedRows cfg deviceId u rows)
    have hfound : (wantedTopic cfg deviceId u).found row = true :=
      decide_eq_true ⟨hmem.2.1, hmem.2.2, .inr (h.useCase row rfl)⟩
    rw [IotPanel.ensure, if_pos (List.any_eq_true.mpr ⟨row, by simp, hfound⟩)]
    exact ⟨h, row, rfl⟩

/-! ### Restarting -/

/-- A call of `createAllTopicsForDevice` with no other one at the same time. -/
def CreatesAll (cfg : Config) (deviceId : String) (s : Site) (r : Except Exception (List Topic))
    (t : Site) : Prop :=
  (TopicService.createAllTopicsForDevice cfg deviceId).Runs (Executes cfg) s r t

def CutShort (cfg : Config) (deviceId : String) (s t : Site) : Prop :=
  ∃ e, CreatesAll cfg deviceId s (.error e) t

/-- A complete call, after some that were cut short, and another one for the broker `url`. -/
structure Twice (cfg : Config) (deviceId url : String) (s t : Site) (rows : List Topic) (t' : Site)
    (again : List Topic) : Prop where
  first : ∃ s', Relation.ReflTransGen (CutShort cfg deviceId) s s' ∧
    CreatesAll cfg deviceId s' (.ok rows) t
  second : CreatesAll (cfg.withBroker url) deviceId t (.ok again) t'

/-- For whatever broker, the other call adds nothing. -/
def AddsNothing (cfg : Config) (deviceId : String) (s : Site) : Prop :=
  ∀ url t rows t' again, Twice cfg deviceId url s t rows t' again →
    t'.world.topics = t.world.topics

/-- For whatever broker, the other call adds nothing and returns the same rows. -/
def Repeats (cfg : Config) (deviceId : String) (s : Site) : Prop :=
  ∀ url t rows t' again, Twice cfg deviceId url s t rows t' again →
    t'.world.topics = t.world.topics ∧ again = rows

/-- If the present broker has a row of the name, some row of the name is of the use case. -/
def Provided (cfg : Config) (u : TopicUseCase) (derived : List Topic) : Prop :=
  (∃ row ∈ derived, row.brokerUrl = cfg.topics.mqttBrokerUrl) → ∃ row ∈ derived, row.useCase = u

theorem partly_of_cutShort (h : Relation.ReflTransGen (CutShort cfg deviceId) s t) :
    Partly (wantedTopics cfg deviceId) s.world.topics t.world.topics := by
  induction h with
  | refl => exact .refl
  | tail _ hcut ih =>
    obtain ⟨e, hcall⟩ := hcut
    obtain ⟨-, hpartly⟩ | ⟨-, he⟩ := performs_createAllTopics hcall
    · exact ih.trans hpartly
    · cases he

theorem CreatesAll.complete {returned : List Topic}
    (h : CreatesAll cfg deviceId s (.ok returned) t) :
    t.world.topics = ensureAll s.world.topics (wantedTopics cfg deviceId) ∧
      returned = storedRows cfg deviceId t.world.topics := by
  obtain ⟨⟨e, he⟩, -⟩ | ⟨ht, hrows⟩ := performs_createAllTopics h
  · cases he
  · exact ⟨ht, Except.ok.inj hrows⟩

/-- A complete call after some that were cut short leaves what it would have left at once. -/
theorem complete_of_cutShort {returned : List Topic}
    (hcut : Relation.ReflTransGen (CutShort cfg deviceId) s s')
    (h : CreatesAll cfg deviceId s' (.ok returned) t) :
    t.world.topics = ensureAll s.world.topics (wantedTopics cfg deviceId) ∧
      returned = storedRows cfg deviceId t.world.topics := by
  obtain ⟨ht, hreturned⟩ := h.complete
  exact ⟨ht.trans (partly_of_cutShort hcut).ensureAll_eq, hreturned⟩

/-- The row of the base topic is returned for any broker. -/
theorem storedRows_withBroker {url : String}
    (hbase : rows.any (wantedBase cfg deviceId).found = true) :
    storedRows (cfg.withBroker url) deviceId rows = storedRows cfg deviceId rows ↔
      ∀ u, pick (cfg.withBroker url) deviceId u (derivedRows cfg deviceId u rows) =
        pick cfg deviceId u (derivedRows cfg deviceId u rows) := by
  obtain ⟨row, hrow⟩ := Option.isSome_iff_exists.mp (List.isSome_find? ▸ hbase)
  have hfirst : (Mqtt.storeTopic (cfg.withBroker url).topics rows deviceId
      (cfg.topics.deviceBaseTopic deviceId) .deviceBase).1 =
        (Mqtt.storeTopic cfg.topics rows deviceId (cfg.topics.deviceBaseTopic deviceId)
          .deviceBase).1 := by
    rw [storeTopic_eq, hrow]
    have hfind : rows.find? (wantedBase (cfg.withBroker url) deviceId).found = some row := hrow
    have hother : Mqtt.storeTopic (cfg.withBroker url).topics rows deviceId
        ((cfg.withBroker url).topics.deviceBaseTopic deviceId) .deviceBase = _ := storeTopic_eq
    rw [hfind] at hother
    have hreturned := congrArg Prod.fst hother
    exact hreturned
  rw [storedRows, storedRows]
  constructor
  · intro h u
    exact List.map_inj_left.mp (List.cons.inj h).2 u u.mem_all
  · intro h
    exact congrArg₂ List.cons hfirst (List.map_congr_left fun u _ => h u)

/-- What two complete calls leave and return. -/
theorem Twice.complete {url : String} {returned again : List Topic}
    (h : Twice cfg deviceId url s t returned s' again) :
    (t.world.topics = ensureAll s.world.topics (wantedTopics cfg deviceId) ∧
      returned = storedRows cfg deviceId t.world.topics) ∧
    s'.world.topics = ensureAll t.world.topics (wantedTopics (cfg.withBroker url) deviceId) ∧
      again = storedRows (cfg.withBroker url) deviceId s'.world.topics := by
  obtain ⟨s₁, hcut, hfirst⟩ := h.first
  exact ⟨complete_of_cutShort hcut hfirst, h.second.complete⟩

theorem exists_twice (cfg : Config) (deviceId url : String) (s : Site) :
    ∃ t rows t' again, Twice cfg deviceId url s t rows t' again := by
  obtain ⟨rows, t, hcall⟩ := exists_executes_createAllTopicsForDevice cfg deviceId s
  obtain ⟨again, t', hagain⟩ :=
    exists_executes_createAllTopicsForDevice (cfg.withBroker url) deviceId t
  exact ⟨t, rows, t', again, ⟨s, .refl, hcall⟩, hagain⟩

/-- With the same broker nothing is added, and the same rows are returned. -/
theorem Twice.repeats {returned again : List Topic}
    (h : Twice cfg deviceId cfg.topics.mqttBrokerUrl s t returned s' again) :
    s'.world.topics = t.world.topics ∧ again = returned := by
  obtain ⟨⟨ht, hreturned⟩, hs', hagain⟩ := h.complete
  have hsame : s'.world.topics = t.world.topics := by
    rw [hs', ht]
    exact ensureAll_of_any fun w hw => any_ensureAll hw
  refine ⟨hsame, ?_⟩
  rw [hagain, hreturned, hsame]
  rfl

/-! ### Another broker -/

/-- Nothing is missing for another broker if something will do under each name. -/
theorem ensureAll_withBroker {url : String}
    (hbase : rows.any (wantedBase cfg deviceId).found = true) :
    ensureAll rows (wantedTopics (cfg.withBroker url) deviceId) = rows ↔
      ∀ u, (derivedRows cfg deviceId u rows).any
        (wantedTopic (cfg.withBroker url) deviceId u).found = true := by
  have hderived : ∀ u, (derivedRows cfg deviceId u rows).any
      (wantedTopic (cfg.withBroker url) deviceId u).found =
        rows.any (wantedTopic (cfg.withBroker url) deviceId u).found := by
    intro u
    show (derivedRows (cfg.withBroker url) deviceId u rows).any _ = _
    exact any_derivedRows
  simp only [hderived]
  rw [ensureAll_eq_self_iff]
  constructor
  · intro h u
    exact h _ (List.mem_cons_of_mem _ (List.mem_map_of_mem u.mem_all))
  · intro h w hw
    rcases List.mem_cons.mp hw with rfl | hw
    · exact hbase
    · obtain ⟨u, -, rfl⟩ := List.mem_map.mp hw
      exact h u

theorem any_wantedBase (h : t.world.topics = ensureAll s.world.topics (wantedTopics cfg deviceId)) :
    t.world.topics.any (wantedBase cfg deviceId).found = true := by
  rw [h]
  exact any_ensureAll List.mem_cons_self

/-- The rows of a name, after a complete call, that are provided for have one of the use case. -/
theorem exists_useCase (h : Provided cfg u (derivedRows cfg deviceId u rows)) :
    ∃ row ∈ ensure (derivedRows cfg deviceId u rows) (wantedTopic cfg deviceId u),
      row.useCase = u := by
  unfold ensure
  split
  · next hany =>
    obtain ⟨row, hrow, hfound⟩ := List.any_eq_true.mp hany
    obtain ⟨-, -, hbroker | huse⟩ := of_decide_eq_true hfound
    · exact h ⟨row, hrow, hbroker⟩
    · exact ⟨row, hrow, huse⟩
  · exact ⟨_, List.mem_append_right _ (List.mem_singleton_self _), rfl⟩

theorem addsNothing_of_provided
    (h : ∀ u, Provided cfg u (derivedRows cfg deviceId u s.world.topics)) :
    AddsNothing cfg deviceId s := by
  intro url t returned t' again htwice
  obtain ⟨⟨ht, -⟩, ht', -⟩ := htwice.complete
  rw [ht', ensureAll_withBroker (any_wantedBase ht)]
  intro u
  obtain ⟨row, hrow, huse⟩ := exists_useCase (h u)
  rw [← derivedRows_wantedTopics, ← ht] at hrow
  obtain ⟨-, htopic, hdevice⟩ := mem_derivedRows.mp hrow
  exact List.any_eq_true.mpr ⟨row, hrow, decide_eq_true ⟨htopic, hdevice, .inr huse⟩⟩

/-- A broker that no row has finds that the rows are provided for. -/
theorem provided_of_addsNothing (h : AddsNothing cfg deviceId s) (u : TopicUseCase) :
    Provided cfg u (derivedRows cfg deviceId u s.world.topics) := by
  rintro ⟨row, hrow, hbroker⟩
  -- the complete call adds nothing under the name
  obtain ⟨-, htopic, hdevice⟩ := mem_derivedRows.mp hrow
  have hkept : ensure (derivedRows cfg deviceId u s.world.topics) (wantedTopic cfg deviceId u) =
      derivedRows cfg deviceId u s.world.topics :=
    if_pos (List.any_eq_true.mpr ⟨row, hrow, decide_eq_true ⟨htopic, hdevice, .inl hbroker⟩⟩)
  obtain ⟨url, hurl⟩ := exists_new_url (derivedRows cfg deviceId u s.world.topics)
  obtain ⟨t, returned, t', again, htwice⟩ := exists_twice cfg deviceId url s
  obtain ⟨⟨ht, -⟩, ht', -⟩ := htwice.complete
  have hsame := h url t returned t' again htwice
  rw [ht', ensureAll_withBroker (any_wantedBase ht)] at hsame
  obtain ⟨row', hrow', hfound⟩ := List.any_eq_true.mp (hsame u)
  rw [ht, derivedRows_wantedTopics, hkept] at hrow'
  exact ⟨row', hrow', useCase_of_found hurl hrow' hfound⟩

/-- Settled rows are provided for. -/
theorem Settled.provided (h : Settled u derived) : Provided cfg u derived := by
  rintro ⟨row, hrow, -⟩
  cases derived with
  | nil => exact absurd hrow List.not_mem_nil
  | cons first rest => exact ⟨first, List.mem_cons_self, h.useCase first rfl⟩

theorem repeats_of_settled
    (h : ∀ u, Settled u (derivedRows cfg deviceId u s.world.topics)) : Repeats cfg deviceId s := by
  intro url t returned t' again htwice
  have hsame : t'.world.topics = t.world.topics :=
    addsNothing_of_provided (fun u => (h u).provided) url t returned t' again htwice
  obtain ⟨⟨ht, rfl⟩, -, rfl⟩ := htwice.complete
  refine ⟨hsame, ?_⟩
  rw [hsame, storedRows_withBroker (any_wantedBase ht)]
  intro u
  have hsettled : Settled u (derivedRows cfg deviceId u t.world.topics) ∧
      ∃ row, (derivedRows cfg deviceId u t.world.topics).head? = some row := by
    rw [ht, derivedRows_wantedTopics]
    exact (h u).ensure
  obtain ⟨hu, row, hrow⟩ := hsettled
  exact (pick_of_settled hu hrow url).trans
    (pick_of_settled hu hrow cfg.topics.mqttBrokerUrl).symm

theorem settled_of_repeats (h : Repeats cfg deviceId s) (u : TopicUseCase) :
    Settled u (derivedRows cfg deviceId u s.world.topics) := by
  let rows := ensureAll s.world.topics (wantedTopics cfg deviceId)
  have hpick : ∀ url,
      (derivedRows cfg deviceId u rows).any (wantedTopic (cfg.withBroker url) deviceId u).found =
        true ∧
      pick (cfg.withBroker url) deviceId u (derivedRows cfg deviceId u rows) =
        pick cfg deviceId u (derivedRows cfg deviceId u rows) := by
    intro url
    obtain ⟨t, returned, t', again, htwice⟩ := exists_twice cfg deviceId url s
    obtain ⟨⟨ht, hreturned⟩, ht', hreturned'⟩ := htwice.complete
    obtain ⟨hsame, hagain⟩ := h url t returned t' again htwice
    have hbase := any_wantedBase ht
    constructor
    · rw [ht', ensureAll_withBroker hbase] at hsame
      rw [show rows = t.world.topics from ht.symm]
      exact hsame u
    · rw [hreturned', hsame, hreturned, storedRows_withBroker hbase] at hagain
      rw [show rows = t.world.topics from ht.symm]
      exact hagain u
  have hsettled := settled_of_pick hpick
  rw [derivedRows_wantedTopics] at hsettled
  exact hsettled.of_prefix (prefix_ensure _ _)

/-- No call changes a row. A complete call after some that were cut short leaves the rows that
one call would have left, and returns the same. Another one finds everything as it is. For
whatever broker it adds nothing if and only if the rows of each name were provided for, and
returns the same rows as well if and only if they were settled. -/
theorem createAllTopics_restartable (cfg : Config) (deviceId : String) (s : Site) :
    (∀ r t, CreatesAll cfg deviceId s r t → s.world.topics <+: t.world.topics) ∧
    (∀ s' rows t rows' t', Relation.ReflTransGen (CutShort cfg deviceId) s s' →
      CreatesAll cfg deviceId s' (.ok rows) t → CreatesAll cfg deviceId s (.ok rows') t' →
        t.world.topics = t'.world.topics ∧ rows = rows') ∧
    (∀ t rows t' again, Twice cfg deviceId cfg.topics.mqttBrokerUrl s t rows t' again →
      t'.world.topics = t.world.topics ∧ again = rows) ∧
    (AddsNothing cfg deviceId s ↔
      ∀ u, Provided cfg u (derivedRows cfg deviceId u s.world.topics)) ∧
    (Repeats cfg deviceId s ↔
      ∀ u, Settled u (derivedRows cfg deviceId u s.world.topics)) := by
  refine ⟨fun r t h => ?_, fun s' rows t rows' t' hcut h h' => ?_,
    fun t rows t' again h => h.repeats, ⟨provided_of_addsNothing, addsNothing_of_provided⟩,
    settled_of_repeats, repeats_of_settled⟩
  · obtain ⟨-, vs, -, ht⟩ | ⟨ht, -⟩ := performs_createAllTopics h
    · rw [ht]
      exact prefix_ensureAll _ _
    · rw [ht]
      exact prefix_ensureAll _ _
  · obtain ⟨ht, hrows⟩ := complete_of_cutShort hcut h
    obtain ⟨ht', hrows'⟩ := h'.complete
    have hsame := ht.trans ht'.symm
    exact ⟨hsame, by rw [hrows, hrows', hsame]⟩

/-- A store with these rows under the name of the telemetry of a device. -/
def named (rows : List (String × TopicUseCase)) : Site :=
  { empty with
    world :=
      { empty.world with
        topics := rows.map fun (url, u) =>
          ⟨url, "esp32-1", panelConfig.topics.deviceTopic "esp32-1" .telemetry, u, true⟩ } }

theorem derivedRows_named (rows : List (String × TopicUseCase)) :
    derivedRows panelConfig "esp32-1" .telemetry (named rows).world.topics =
      (named rows).world.topics := by
  refine List.filter_eq_self.mpr fun row hrow => ?_
  obtain ⟨r, -, rfl⟩ := List.mem_map.mp hrow
  exact decide_eq_true ⟨rfl, rfl⟩

/-- For another broker other rows are returned where an older row of another broker stands beside
the row of the present one, and a row is added where the present broker's is of another use case. -/
theorem not_repeats_of_two_brokers :
    (¬ ∀ (cfg : Config) (deviceId : String) (s : Site), Repeats cfg deviceId s) ∧
      ¬ ∀ (cfg : Config) (deviceId : String) (s : Site), AddsNothing cfg deviceId s := by
  constructor
  · intro h
    let s := named [("mqtt://old", .telemetry), ("mqtt://broker", .telemetry)]
    have hsettled := settled_of_repeats (h panelConfig "esp32-1" s) .telemetry
    rw [derivedRows_named] at hsettled
    have hbroker := hsettled.broker _ List.mem_cons_self _ (.tail _ List.mem_cons_self)
    exact absurd hbroker (by decide +kernel)
  · intro h
    let s := named [(panelConfig.topics.mqttBrokerUrl, .deviceBase)]
    have hprovided := provided_of_addsNothing (h panelConfig "esp32-1" s) .telemetry
    rw [derivedRows_named] at hprovided
    obtain ⟨row, hrow, huse⟩ := hprovided ⟨_, List.mem_cons_self, rfl⟩
    rw [List.mem_singleton.mp hrow] at huse
    cases huse

end IotPanel.Device
