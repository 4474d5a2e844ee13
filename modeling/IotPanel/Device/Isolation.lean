import IotPanel.Device.TopicStore
import IotPanel.Device.Unique
import IotPanel.Lib.Filter

/-!
# Topics of different devices

The id of a device becomes part of a topic as it is. The server subscribes to the topics that it
stores for a device, as filters; whether they keep clear of the topics of another device is a
matter of the two ids.
-/

namespace IotPanel.Device

open Mqtt (Topic TopicUseCase)
open Program

/-- The operations of devices lead from an empty collection to the one of `s`. -/
def Reachable (cfg : Config) (s : Site) : Prop :=
  ∃ s₀ tr, s₀.world.topics = [] ∧
    Run (fun s op t => op.ForDevice ∧ TopicOp.Step cfg s op t) s₀ tr s

/-- No filter that is subscribed for `d₁` accepts a topic that is stored for `d₂`, and among the
topics of the two devices the name determines device and use case. -/
structure Isolated (s : Site) (d₁ d₂ : String) : Prop where
  silent : ∀ a ∈ s.world.topics, ∀ b ∈ s.world.topics, a.deviceId = d₁ → b.deviceId = d₂ →
    a.isSubscribed = true → TopicFilter.accepts a.topic b.topic = false
  determined : ∀ a ∈ s.world.topics, ∀ b ∈ s.world.topics,
    (a.deviceId = d₁ ∨ a.deviceId = d₂) → (b.deviceId = d₁ ∨ b.deviceId = d₂) →
      a.topic = b.topic → a.deviceId = b.deviceId ∧ a.useCase = b.useCase

/-- The first id, as a filter, accepts neither the second one nor that followed by a use case, and
followed by a use case it does not accept the second one; and neither id is the other one followed
by a use case. -/
structure Apart (d₁ d₂ : String) : Prop where
  base : TopicFilter.accepts d₁ d₂ = false
  above : ∀ u : TopicUseCase,
    TopicFilter.accepts d₁ (d₂ ++ "/" ++ u.value) = false ∧ d₁ ≠ d₂ ++ "/" ++ u.value
  below : ∀ u : TopicUseCase,
    TopicFilter.accepts (d₁ ++ "/" ++ u.value) d₂ = false ∧ d₁ ++ "/" ++ u.value ≠ d₂

/-! ### The rows -/

section Rows

variable {cfg : Config} {s : Site}

theorem made_of_reachable (h : Reachable cfg s) : ∀ row ∈ s.world.topics, Made cfg row := by
  obtain ⟨s₀, tr, hempty, hrun⟩ := h
  refine hrun.invariant (I := fun s => ∀ row ∈ s.world.topics, Made cfg row) ?_ ?_
  · intro row hrow
    rw [hempty] at hrow
    cases hrow
  · rintro s op t hs ⟨hop, hstep⟩
    exact made_of_step hop hstep hs

/-- A collection with all topics of two devices. -/
theorem exists_equipped (cfg : Config) (d₁ d₂ : String) :
    ∃ s, Reachable cfg s ∧ Equipped cfg s d₁ ∧ Equipped cfg s d₂ := by
  obtain ⟨rows₁, s₁, hfirst⟩ := exists_runs_createAllTopicsForDevice cfg d₁ empty
  obtain ⟨rows₂, s₂, hsecond⟩ := exists_runs_createAllTopicsForDevice cfg d₂ s₁
  have hequipped₁ := equipped_createAllTopicsForDevice hfirst
  refine ⟨s₂, ⟨empty, [.createAllTopicsForDevice d₂, .createAllTopicsForDevice d₁], rfl, ?_⟩,
    ⟨hequipped₁.base.runs hsecond, fun u hu => (hequipped₁.derived u hu).runs hsecond⟩,
    equipped_createAllTopicsForDevice hsecond⟩
  have hstep : ∀ {d rows s t}, (TopicService.createAllTopicsForDevice cfg d).Runs (Serves cfg) s
      (.ok rows) t → TopicOp.Step cfg s (.createAllTopicsForDevice d) t := fun h =>
    ⟨.ok (), runs_bind_pure.mpr ⟨_, h, rfl⟩⟩
  exact .snoc (.single ⟨trivial, hstep hfirst⟩) ⟨trivial, hstep hsecond⟩

end Rows

/-! ### The names -/

section Names

open TopicFilter

variable {cfg : Config} {d₁ d₂ : String}

theorem levels_value_plain (u : TopicUseCase) : ∀ l ∈ levels u.value, plain l = true := by
  cases u <;> decide +kernel

/-- The last level of a use case tells how many levels it has. -/
theorem length_levels_eq {u v : TopicUseCase}
    (h : (levels u.value).getLast? = (levels v.value).getLast?) :
    (levels u.value).length = (levels v.value).length := by
  have hall : ∀ u ∈ TopicUseCase.all, ∀ v ∈ TopicUseCase.all,
      (levels u.value).getLast? = (levels v.value).getLast? →
        (levels u.value).length = (levels v.value).length := by
    decide +kernel
  exact hall u u.mem_all v v.mem_all h

/-- What topics have in common before the ids does not matter. -/
theorem accepts_append_left {base : String} (hbase : plain base = true) (a b : String) :
    accepts (base ++ "/" ++ a) (base ++ "/" ++ b) = accepts a b := by
  unfold accepts valid
  rw [levels_append, levels_append, wellFormed_append_left fun l hl => plain_of_mem_levels hbase hl,
    covers_append_left (levels_ne_nil a)]

/-- Two ids are told apart whatever use cases follow them. -/
theorem accepts_of_accepts_append {a b : String} {u v : TopicUseCase}
    (h : accepts (a ++ "/" ++ u.value) (b ++ "/" ++ v.value) = true) : accepts a b = true := by
  unfold accepts valid at h ⊢
  rw [levels_append, levels_append, Bool.and_eq_true] at h
  have hlength := length_levels_eq (getLast?_eq_of_covers (levels_value_plain u) (levels_ne_nil _)
    (levels_ne_nil _) h.2)
  rw [Bool.and_eq_true]
  exact ⟨wellFormed_of_append h.1, (covers_append_right (levels_value_plain u) hlength h.2).1⟩

theorem deviceTopic_eq (d : String) (u : TopicUseCase) :
    cfg.topics.deviceTopic d u = cfg.topics.baseTopic ++ "/" ++ (d ++ "/" ++ u.value) := by
  simp only [Mqtt.TopicConfig.deviceTopic, String.append_assoc]

theorem append_left_injective {base a b : String} (h : base ++ "/" ++ a = base ++ "/" ++ b) :
    a = b := by
  have hlist := congrArg String.toList h
  simp only [String.toList_append, List.append_right_inj] at hlist
  exact String.toList_injective hlist

/-- What a row adds to the base topic: the device, alone or with its use case. -/
theorem Made.suffix {row : Topic} (h : Made cfg row) :
    (row.topic = cfg.topics.baseTopic ++ "/" ++ row.deviceId) ∨
      row.topic = cfg.topics.baseTopic ++ "/" ++ (row.deviceId ++ "/" ++ row.useCase.value) := by
  rcases h.name with ⟨hname, -⟩ | hname
  · exact .inl hname
  · exact .inr (hname.trans (deviceTopic_eq _ _))

theorem Apart.silent (h : Apart d₁ d₂) (hbase : plain cfg.topics.baseTopic = true) {a b : Topic}
    (ha : Made cfg a) (hb : Made cfg b) (hda : a.deviceId = d₁) (hdb : b.deviceId = d₂) :
    accepts a.topic b.topic = false := by
  subst hda hdb
  obtain ha | ha := ha.suffix
  · obtain hb | hb := hb.suffix
    · rw [ha, hb, accepts_append_left hbase]
      exact h.base
    · rw [ha, hb, accepts_append_left hbase]
      exact (h.above b.useCase).1
  · obtain hb | hb := hb.suffix
    · rw [ha, hb, accepts_append_left hbase]
      exact (h.below a.useCase).1
    · rw [ha, hb, accepts_append_left hbase, ← Bool.not_eq_true]
      intro haccepts
      have hbase := h.base
      rw [accepts_of_accepts_append haccepts] at hbase
      cases hbase

theorem Apart.ne (h : Apart d₁ d₂) (hne : d₁ ≠ d₂) {a b : Topic} (ha : Made cfg a)
    (hb : Made cfg b) (hda : a.deviceId = d₁) (hdb : b.deviceId = d₂) : a.topic ≠ b.topic := by
  subst hda hdb
  intro htopic
  obtain ha | ha := ha.suffix
  · obtain hb | hb := hb.suffix
    · rw [ha, hb] at htopic
      exact hne (append_left_injective htopic)
    · rw [ha, hb] at htopic
      exact (h.above b.useCase).2 (append_left_injective htopic)
  · obtain hb | hb := hb.suffix
    · rw [ha, hb] at htopic
      exact (h.below a.useCase).2 (append_left_injective htopic)
    · rw [ha, hb] at htopic
      exact hne (TopicUseCase.eq_of_append_eq (append_left_injective htopic)).2

end Names

/-! ### Isolation -/

section Theorem

variable {cfg : Config} {s : Site} {d₁ d₂ : String}

theorem Made.regular {row : Topic} (h : Made cfg row) : Regular cfg row := regular_of_derived h.name

theorem isolated_of_apart (hbase : TopicFilter.plain cfg.topics.baseTopic = true) (hne : d₁ ≠ d₂)
    (h : Apart d₁ d₂) (hs : Reachable cfg s) : Isolated s d₁ d₂ := by
  have hmade := made_of_reachable hs
  refine ⟨fun a ha b hb hda hdb _ => ?_, fun a ha b hb hda hdb htopic => ?_⟩
  · exact h.silent hbase (hmade a ha) (hmade b hb) hda hdb
  · have hdevice : a.deviceId = b.deviceId := by
      rcases hda with hda | hda
      · rcases hdb with hdb | hdb
        · rw [hda, hdb]
        · exact absurd htopic (h.ne hne (hmade a ha) (hmade b hb) hda hdb)
      · rcases hdb with hdb | hdb
        · exact absurd htopic.symm (h.ne hne (hmade b hb) (hmade a ha) hdb hda)
        · rw [hda, hdb]
    exact ⟨hdevice, (hmade a ha).regular.useCase_eq (hmade b hb).name hdevice htopic⟩

/-- Two stored names of different devices, of which the first neither accepts nor is the second. -/
theorem Isolated.apart (h : Isolated s d₁ d₂) (hs : Reachable cfg s) (hne : d₁ ≠ d₂)
    (hbase : TopicFilter.plain cfg.topics.baseTopic = true) {a b : String}
    (ha : HasRow s d₁ (cfg.topics.baseTopic ++ "/" ++ a))
    (hb : HasRow s d₂ (cfg.topics.baseTopic ++ "/" ++ b)) :
    TopicFilter.accepts a b = false ∧ a ≠ b := by
  obtain ⟨x, hx, hdx, hxtopic⟩ := ha
  obtain ⟨y, hy, hdy, hytopic⟩ := hb
  have hsilent := h.silent x hx y hy hdx hdy (made_of_reachable hs x hx).isSubscribed
  rw [hxtopic, hytopic, accepts_append_left hbase] at hsilent
  refine ⟨hsilent, ?_⟩
  rintro rfl
  have hdevice := (h.determined x hx y hy (.inl hdx) (.inr hdy) (hxtopic.trans hytopic.symm)).1
  exact hne (hdx.symm.trans (hdevice.trans hdy))

theorem apart_of_isolated (hbase : TopicFilter.plain cfg.topics.baseTopic = true) (hne : d₁ ≠ d₂)
    (h : ∀ s, Reachable cfg s → Isolated s d₁ d₂) : Apart d₁ d₂ := by
  obtain ⟨s, hs, hfirst, hsecond⟩ := exists_equipped cfg d₁ d₂
  have hderived : ∀ {d}, Equipped cfg s d → ∀ u : TopicUseCase,
      HasRow s d (cfg.topics.baseTopic ++ "/" ++ (d ++ "/" ++ u.value)) := by
    intro d hd u
    have hrow := hd.derived u u.mem_all
    rwa [deviceTopic_eq] at hrow
  exact ⟨((h s hs).apart hs hne hbase hfirst.base hsecond.base).1,
    fun u => (h s hs).apart hs hne hbase hfirst.base (hderived hsecond u),
    fun u => (h s hs).apart hs hne hbase (hderived hfirst u) hsecond.base⟩

/-- The topics of two devices are isolated in every collection if and only if the ids keep apart. -/
theorem isolated_iff (cfg : Config) (hbase : TopicFilter.plain cfg.topics.baseTopic = true)
    {d₁ d₂ : String} (hne : d₁ ≠ d₂) :
    (∀ s, Reachable cfg s → Isolated s d₁ d₂) ↔ Apart d₁ d₂ :=
  ⟨apart_of_isolated hbase hne, fun h _ hs => isolated_of_apart hbase hne h hs⟩

theorem isolated_iff_sensors :
    (∀ s, Reachable panelConfig s → Isolated s "esp32-1" "esp32-2") ↔ Apart "esp32-1" "esp32-2" :=
  isolated_iff panelConfig (by decide) (by decide)

/-- Ids that are one level without wildcards keep apart. -/
theorem apart_of_plain (hne : d₁ ≠ d₂) (h₁ : TopicFilter.plain d₁ = true) (hslash₁ : '/' ∉ d₁.toList)
    (hslash₂ : '/' ∉ d₂.toList) : Apart d₁ d₂ := by
  have hd₁ : TopicFilter.levels d₁ = [d₁] := TopicFilter.levels_of_not_mem hslash₁
  have hd₂ : TopicFilter.levels d₂ = [d₂] := TopicFilter.levels_of_not_mem hslash₂
  have hfirst : ∀ l ∈ TopicFilter.levels d₁, TopicFilter.plain l = true := fun l hl =>
    TopicFilter.plain_of_mem_levels h₁ hl
  -- An id with a use case has more levels than an id.
  have hone : ∀ {d d' : String} {u : TopicUseCase}, TopicFilter.levels d = [d] →
      TopicFilter.levels d' = [d'] → TopicFilter.levels d ≠ TopicFilter.levels (d' ++ "/" ++ u.value) := by
    intro d d' u hd hd' heq
    rw [hd, TopicFilter.levels_append, hd'] at heq
    exact TopicFilter.levels_ne_nil _ (List.cons.inj heq).2.symm
  refine ⟨TopicFilter.accepts_eq_false hfirst fun heq => ?_, fun u => ⟨?_, fun heq => ?_⟩,
    fun u => ⟨TopicFilter.accepts_eq_false (fun l hl => ?_) (hone hd₂ hd₁).symm, fun heq => ?_⟩⟩
  · rw [hd₁, hd₂] at heq
    exact hne (List.cons.inj heq).1
  · exact TopicFilter.accepts_eq_false hfirst (hone hd₁ hd₂)
  · exact hone hd₁ hd₂ (congrArg TopicFilter.levels heq)
  · rw [TopicFilter.levels_append] at hl
    rcases List.mem_append.mp hl with hl | hl
    · exact hfirst l hl
    · exact levels_value_plain u l hl
  · exact hone hd₂ hd₁ (congrArg TopicFilter.levels heq.symm)

/-- A device that calls itself `+` hears all other devices. -/
theorem not_isolated_of_wildcard :
    ¬ ∀ (cfg : Config) (d₁ d₂ : String), TopicFilter.plain cfg.topics.baseTopic = true → d₁ ≠ d₂ →
      ∀ s, Reachable cfg s → Isolated s d₁ d₂ := by
  intro h
  have hapart := apart_of_isolated (by decide) (by decide)
    (h panelConfig "+" "esp32-2" (by decide) (by decide))
  have haccepts : TopicFilter.accepts "+" "esp32-2" = true := by decide +kernel
  rw [hapart.base] at haccepts
  cases haccepts

end Theorem

end IotPanel.Device
