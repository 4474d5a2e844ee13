import IotPanel.Device.Unique

/-!
# A discovery that returns

The row of a sensor is stored before its topics are, and a discovery that finds the row stores no
more than the base topic. What an earlier discovery has left undone stays undone.
-/

namespace IotPanel.Device

open Mqtt (Topic TopicUseCase)

/-- There is a topic for every use case of the device. -/
def HasTopics (cfg : Config) (w : World) (name : String) : Prop :=
  ∀ u, ∃ row ∈ w.topics, row.deviceId = name ∧ row.topic = cfg.topics.deviceTopic name u ∧
    row.useCase = u

def HasBase (cfg : Config) (w : World) (name : String) : Prop :=
  ∃ row ∈ w.topics, row.deviceId = name ∧ row.topic = cfg.topics.deviceBaseTopic name ∧
    row.useCase = .deviceBase

/-- The answer of the database to a command. -/
def answer (cfg : Config) (w : World) (c : Command) : Except Exception c.Reply :=
  .ok (cfg.execute "" w c).1

/-- The topics of the device are there, and are found for every use case. -/
structure Served (cfg : Config) (w : World) (name : String) : Prop where
  base : HasBase cfg w name
  topics : HasTopics cfg w name
  found : ∀ u, ∃ t, (TopicService.getDeviceTopicByUseCase name u).run (answer cfg w) = .ok t

/-- All calls but those that store a topic under a name of their own. -/
def Derived : ServiceEvent → Prop
  | .start (.storeTopic _ _ _) => False
  | _ => True

/-- A discovery finds the row of a sensor only when there is a topic for every use case. -/
def Complete (cfg : Config) (w : World) : ServiceEvent → Prop
  | .did (.discoveryResponse payload) _ (.findSensor _) (.ok (some _)) =>
    HasTopics cfg w (Responser.interpolate (Call.discoveryResponse payload).deviceId)
  | _ => True

variable {cfg : Config} {s s' : Site} {w : World} {k : Call} {q q' : Phase} {name : String}

section Lookups

variable {α : Type}

theorem run_findTopic (f : TopicQuery) (g : Option Topic → Prog α) :
    (findTopic f >>= g).run (answer cfg w) =
      (g (w.topics.find? f.accepts)).run (answer cfg w) :=
  rfl

theorem run_findSensor (f : SensorQuery) (g : Option Sensor → Prog α) :
    (findSensor f >>= g).run (answer cfg w) =
      (g (w.sensors.find? (cfg.accepts f))).run (answer cfg w) :=
  rfl

end Lookups

/-- A stored topic is found. -/
theorem exists_topic_of_mem {row : Topic} (hrow : row ∈ w.topics) (hname : row.deviceId = name) :
    ∃ t, (TopicService.getDeviceTopicByUseCase name row.useCase).run (answer cfg w) = .ok t := by
  let f : TopicQuery := ⟨none, some name, none, some row.useCase, none⟩
  have hsome : (w.topics.find? f.accepts).isSome := by
    refine List.find?_isSome.mpr ⟨row, hrow, ?_⟩
    simp [f, TopicQuery.accepts, hname]
  obtain ⟨t, ht⟩ := Option.isSome_iff_exists.mp hsome
  refine ⟨t, ?_⟩
  rw [TopicService.getDeviceTopicByUseCase, run_findTopic, ht]
  rfl

theorem served_of_hasTopics (hbase : HasBase cfg w name) (htopics : HasTopics cfg w name) :
    Served cfg w name where
  base := hbase
  topics := htopics
  found u := by
    obtain ⟨row, hrow, hname, -, rfl⟩ := htopics u
    exact exists_topic_of_mem hrow hname

/-! ### What a call knows of the topics -/

/-- The row is what the query asks for, its flag apart. -/
structure TopicQuery.Names (f : TopicQuery) (t : Topic) : Prop where
  deviceId : ∀ d, f.deviceId = some d → t.deviceId = d
  topic : ∀ n, f.topic = some n → t.topic = n
  useCase : ∀ u, f.useCase = some u → t.useCase = u

theorem TopicQuery.names_of_accepts {f : TopicQuery} {t : Topic} (h : f.accepts t = true) :
    f.Names t := by
  simp only [TopicQuery.accepts, Bool.and_eq_true] at h
  obtain ⟨⟨⟨⟨-, hdevice⟩, htopic⟩, huse⟩, -⟩ := h
  refine ⟨fun d hd => ?_, fun n hn => ?_, fun u hu => ?_⟩
  · rw [hd] at hdevice
    exact (of_decide_eq_true hdevice).symm
  · rw [hn] at htopic
    exact (of_decide_eq_true htopic).symm
  · rw [hu] at huse
    exact (of_decide_eq_true huse).symm

theorem names_nameQuery (t : Topic) : (nameQuery t).Names t :=
  ⟨by rintro d ⟨⟩; rfl, by rintro n ⟨⟩; rfl, by rintro u ⟨⟩; rfl⟩

/-- The rows that the call has found or stored are regular, and rows of their names are there. -/
structure Informed (cfg : Config) (s : Site) (k : Call) (q : Phase) : Prop where
  named : ∀ d n u, k ≠ .storeTopic d n u
  known : ∀ f ∈ q.known, f.1.Names f.2 ∧ Regular cfg f.2 ∧
    ∃ row ∈ s.world.topics, row.deviceId = f.2.deviceId ∧ row.topic = f.2.topic
  found : ∀ payload, k = .discoveryResponse payload → (∃ row, q.device = some (some row)) →
    HasTopics cfg s.world (Responser.interpolate k.deviceId)

/-- A call that stores a topic keeps the rows regular. -/
theorem Informed.regular {t : Topic} (h : Informed cfg s k q) (hnames : k.Names cfg q t) :
    Regular cfg t := by
  cases k with
  | storeTopic d n u => exact absurd rfl (h.named d n u)
  | discoverDevicesBroadcast userId =>
    obtain ⟨hdevice, -, b, hb, htopic⟩ := hnames
    obtain ⟨hquery, hregular, -⟩ := h.known _ hb
    exact regular_of_broadcast hdevice htopic hregular (hquery.deviceId _ rfl)
      (hquery.useCase _ rfl)
  | discoverDeviceUnicast userId deviceId => exact regular_of_unicast hnames.1 hnames.2.2
  | _ => exact regular_of_derived hnames

/-- What a call knows stays true when topics are added. -/
theorem Informed.mono (h : Informed cfg s k q)
    (htopics : ∀ row ∈ s.world.topics, row ∈ s'.world.topics) : Informed cfg s' k q where
  named := h.named
  known f hf := by
    obtain ⟨hquery, hregular, row, hrow, hsame⟩ := h.known f hf
    exact ⟨hquery, hregular, row, htopics row hrow, hsame⟩
  found payload hk hrow u := by
    obtain ⟨row, hmem, hname⟩ := h.found payload hk hrow u
    exact ⟨row, htopics row hmem, hname⟩

theorem Effect.topics_subset {c : Command} {r : Except Exception c.Reply}
    (h : Effect cfg k s q c r s' q') : ∀ row ∈ s.world.topics, row ∈ s'.world.topics := by
  intro row hrow
  cases h with
  | other hs => exact hs.topics ▸ hrow
  | storedTopic ht hnames => exact List.mem_append_left _ hrow
  | _ => exact hrow

/-- What the call that makes the step knows then. -/
theorem Informed.effect {c : Command} {r : Except Exception c.Reply}
    (hregular : ∀ row ∈ s.world.topics, Regular cfg row) (h : Informed cfg s k q)
    (hcomplete : Complete cfg s.world (.did k q c r)) (he : Effect cfg k s q c r s' q') :
    (∀ row ∈ s'.world.topics, Regular cfg row) ∧ Informed cfg s' k q' := by
  cases he with
  | other hs => exact ⟨hs.topics ▸ hregular, h.mono fun row hrow => hs.topics ▸ hrow⟩
  | failed e =>
    refine ⟨hregular, h.named, h.known, fun payload hk hrow => h.found payload hk ?_⟩
    obtain ⟨row, hrow⟩ := hrow
    exact ⟨row, Phase.device_of_fail hrow⟩
  | foundSensor =>
    refine ⟨hregular, h.named, h.known, ?_⟩
    -- a row that is found has its topics by the assumption on the run
    rintro payload rfl ⟨row, hrow⟩
    rw [Option.some.inj hrow] at hcomplete
    exact hcomplete
  | @foundTopic f t ht =>
    have hmem := List.mem_of_find?_eq_some ht
    have hquery := TopicQuery.names_of_accepts (List.find?_some ht)
    refine ⟨hregular, h.named, fun g hg => ?_, h.found⟩
    rcases List.mem_cons.mp hg with rfl | hg
    · exact ⟨hquery, hregular t hmem, t, hmem, rfl, rfl⟩
    · exact h.known g hg
  | missedTopic hf => exact ⟨hregular, h.named, h.known, h.found⟩
  | readTopics hk => exact ⟨hregular, h.named, h.known, h.found⟩
  | updated hset => exact ⟨hregular, h.named, h.known, h.found⟩
  | storedSensor hk hdevice => exact ⟨hregular, h.named, h.known, by rintro _ _ ⟨_, ⟨⟩⟩⟩
  | @storedTopic t ht hnames =>
    have hrow := h.regular hnames
    have hgrown : Informed cfg (s.storeTopic t) k q :=
      h.mono fun row hrow => List.mem_append_left _ hrow
    refine ⟨fun row hmem => ?_, hgrown.named, fun g hg => ?_, hgrown.found⟩
    · rcases List.mem_append.mp hmem with hmem | hmem
      · exact hregular row hmem
      · rw [List.mem_singleton.mp hmem]
        exact hrow
    · rcases List.mem_cons.mp hg with rfl | hg
      · exact ⟨names_nameQuery t, hrow, t,
          List.mem_append_right _ (List.mem_singleton_self t), rfl, rfl⟩
      · exact hgrown.known g hg
  | subscribed hconnected hts => exact ⟨hregular, h.named, h.known, h.found⟩
  | unsubscribed hconnected => exact ⟨hregular, h.named, h.known, h.found⟩
  | connected hk => exact ⟨hregular, h.named, h.known, h.found⟩
  | renewed hk => exact ⟨hregular, h.named, h.known, h.found⟩

theorem informed_outline (cfg : Config) :
    System.Outline (services cfg) (fun p e => Derived e ∧ Complete cfg p.shared.world e)
      (fun s => ∀ row ∈ s.world.topics, Regular cfg row)
      (fun s t => Informed cfg s t.call t.phase) where
  env hG _ h := by
    cases h
    exact ⟨hG, fun t ht => ht.mono fun row hrow => hrow⟩
  start _ h := by
    refine ⟨?_, by rintro f ⟨⟩, by rintro _ _ ⟨_, ⟨⟩⟩⟩
    rintro d n u rfl
    exact h.1
  did {p i t c k r s} hprog hG hA _ hcond hexec := by
    have he := effect_of_executes (t.allowed_of_await hprog) hexec
    obtain ⟨hs, hself⟩ := hA.effect hG hcond.2 he
    exact ⟨hs, hself, fun j u _ _ hu => hu.mono he.topics_subset⟩

/-- A name that is known belongs to a row, whose use case is that of the name. -/
theorem Informed.exists_row {topic : String} (h : Informed cfg s k q)
    (hknows : q.Knows name topic) :
    ∃ row ∈ s.world.topics, row.deviceId = name ∧ row.topic = topic := by
  obtain ⟨f, hf, hdevice, htopic⟩ := hknows
  obtain ⟨hquery, -, row, hrow, hrdevice, hrtopic⟩ := h.known f hf
  exact ⟨row, hrow, hrdevice.trans (hquery.deviceId _ hdevice),
    hrtopic.trans (hquery.topic _ htopic)⟩

/-- In a run in which discoveries find a sensor only when its topics are complete, a discovery
that has returned leaves the topics complete, whatever has failed before. -/
theorem served_of_complete (cfg : Config) {s : Site}
    (hregular : ∀ row ∈ s.world.topics, Regular cfg row) {tr : List ServiceEvent}
    {p : Pool Site (Service cfg)} {i : ℕ} {t : Service cfg} {payload : Json}
    (hrun : Run ((services cfg).Step fun p e => Derived e ∧ Complete cfg p.shared.world e)
      (Pool.start s) tr p)
    (ht : p.threads i = some t) (hcall : t.call = .discoveryResponse payload)
    (hreturned : t.prog = .ret (.ok ())) :
    Served cfg p.shared.world (Responser.interpolate t.call.deviceId) := by
  obtain ⟨hrows, hinformed⟩ := (System.holds_start hregular).run (informed_outline cfg) hrun
  have h := hinformed ht
  obtain ⟨-, hends⟩ := t.ends_of_ret hreturned
  obtain ⟨hbase, htopics⟩ := hends payload hcall rfl
  refine served_of_hasTopics ?_ ?_
  · obtain ⟨row, hrow, hdevice, htopic⟩ := h.exists_row hbase
    refine ⟨row, hrow, hdevice, htopic, (hrows row hrow).base ?_⟩
    rw [hdevice]
    exact htopic
  · rcases htopics with hfound | hall
    · exact h.found payload hcall hfound
    · intro u
      obtain ⟨row, hrow, hdevice, htopic⟩ := h.exists_row (hall u)
      refine ⟨row, hrow, hdevice, htopic, (hrows row hrow).derived u ?_⟩
      rw [hdevice]
      exact htopic

/-! ### Two answers of one device -/

/-- A test for a discovery that has returned. -/
def Service.returned (t : Service cfg) : Bool :=
  match t.call, t.prog with
  | .discoveryResponse _, .ret (.ok _) => true
  | _, _ => false

theorem Service.of_returned {t : Service cfg} (h : Service.returned t = true) :
    (∃ payload, t.call = .discoveryResponse payload) ∧ t.prog = .ret (.ok ()) := by
  obtain ⟨call, phase, prog, follows⟩ := t
  unfold Service.returned at h
  split at h
  · rename_i payload _ hcall hprog
    exact ⟨⟨payload, hcall⟩, hprog⟩
  · cases h

def hasTopics (cfg : Config) (w : World) (name : String) : Bool :=
  TopicUseCase.all.all fun u => w.topics.any fun row =>
    row.deviceId == name && row.topic == cfg.topics.deviceTopic name u && decide (row.useCase = u)

theorem hasTopics_of_test (h : hasTopics cfg w name = true) : HasTopics cfg w name := by
  intro u
  have hu : u ∈ TopicUseCase.all := by cases u <;> decide
  obtain ⟨row, hrow, htest⟩ := List.any_eq_true.mp (List.all_eq_true.mp h u hu)
  simp only [Bool.and_eq_true, beq_iff_eq, decide_eq_true_eq] at htest
  exact ⟨row, hrow, htest.1.1, htest.1.2, htest.2⟩

/-- A test for runs of these calls. -/
def derived : ServiceEvent → Bool
  | .start (.storeTopic _ _ _) => false
  | _ => true

theorem derived_of_test {e : ServiceEvent} (h : derived e = true) : Derived e := by
  unfold Derived
  split
  · cases h
  · trivial

/-- A test for steps that find only sensors with complete topics. -/
def completes (cfg : Config) (w : World) (e : ServiceEvent) : Bool :=
  derived e && match e with
    | .did (.discoveryResponse payload) _ (.findSensor _) (.ok (some _)) =>
      hasTopics cfg w (Responser.interpolate (Call.discoveryResponse payload).deviceId)
    | _ => true

theorem complete_of_test {e : ServiceEvent} (h : completes cfg w e = true) :
    Derived e ∧ Complete cfg w e := by
  obtain ⟨hderived, hfound⟩ := Bool.and_eq_true_iff.mp h
  refine ⟨derived_of_test hderived, ?_⟩
  unfold Complete
  split
  · exact hasTopics_of_test hfound
  · trivial

/-- The device answers a second time after its topics have been stored. -/
theorem served_of_complete_discovery :
    ∃ tr p t, Run ((services panelConfig).Step fun p e =>
        Derived e ∧ Complete panelConfig p.shared.world e) (Pool.start empty) tr p ∧
      p.threads 1 = some t ∧
        Served panelConfig p.shared.world (Responser.interpolate t.call.deviceId) := by
  have hscript : (System.play (oracle panelConfig) 2 (fun p e =>
      completes panelConfig p.shared.world e) (Pool.start empty)
        (.start 0 discovery :: proceed 0 53 ++ .start 1 discovery :: proceed 1 3)).any
          (fun p => (p.threads 1).any Service.returned) = true := by
    decide +kernel
  obtain ⟨tr, p, hrun, -, htest⟩ :=
    System.exists_run (fun _ _ _ => complete_of_test) (System.below_start _) hscript
  obtain ⟨t, ht, hreturned⟩ := (Option.any_eq_true _ _).mp htest
  obtain ⟨⟨payload, hcall⟩, hprog⟩ := Service.of_returned hreturned
  exact ⟨tr, p, t, hrun, ht,
    served_of_complete panelConfig (by rintro _ ⟨⟩) hrun ht hcall hprog⟩

/-- The broker cannot be reached when the device answers first. -/
theorem not_served_of_offline :
    ¬ ∀ (cfg : Config) (s : Site) (tr : List ServiceEvent) (p : Pool Site (Service cfg)) (i : ℕ)
      (t : Service cfg) (payload : Json), (∀ row ∈ s.world.topics, Regular cfg row) →
        Run ((services cfg).Step fun _ e => Derived e) (Pool.start s) tr p →
          p.threads i = some t → t.call = .discoveryResponse payload → t.prog = .ret (.ok ()) →
            Served cfg p.shared.world (Responser.interpolate t.call.deviceId) := by
  intro h
  let offline : Site := { empty with link := { empty.link with connected := false } }
  have hscript : (System.play (oracle panelConfig) 2 (fun _ e => derived e) (Pool.start offline)
        (.start 0 discovery :: proceed 0 5 ++ .start 1 discovery :: proceed 1 3)).any
          (fun p => (p.threads 1).any Service.returned &&
            p.shared.world.topics.all fun row => row.useCase != .telemetry) = true := by
    decide +kernel
  obtain ⟨tr, p, hrun, -, htest⟩ :=
    System.exists_run (fun _ _ _ => derived_of_test) (System.below_start _) hscript
  obtain ⟨hreturned, hnone⟩ := Bool.and_eq_true_iff.mp htest
  obtain ⟨t, ht, hreturned⟩ := (Option.any_eq_true _ _).mp hreturned
  obtain ⟨⟨payload, hcall⟩, hprog⟩ := Service.of_returned hreturned
  obtain ⟨row, hrow, -, -, huse⟩ :=
    (h panelConfig offline tr p 1 t payload (by rintro _ ⟨⟩) hrun ht hcall hprog).topics .telemetry
  have hnot := List.all_eq_true.mp hnone row hrow
  rw [huse] at hnot
  cases hnot

end IotPanel.Device
