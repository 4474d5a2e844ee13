import IotPanel.Mqtt.Containment
import IotPanel.Mqtt.Registry

/-!
# The order of the handlers does not matter

No suffix of one of the panel's handlers ends in the suffix of another one. A topic therefore has
one handler at most, and the router finds it in whatever order it asks.
-/

namespace IotPanel.Mqtt

open Text

/-- The handlers that `initializeMessageRouter` registers. -/
def messageHandlers : List MessageHandler := initializeMessageRouter.handlers

/-- The handler as the router sees it, when its priority is `priority`. -/
def MessageHandler.withPriority (h : MessageHandler) (priority : ℚ) : Handler String where
  className := h.name
  canHandle := h.canHandle
  handle _ payload := h.handle payload
  getPriority := some priority

/-- A new router after the handlers were registered. -/
def registerAll {ε : Type*} (hs : List (Handler ε)) : Registry ε := replay (hs.map .register)

/-! ### One handler for a topic -/

theorem suffix_of_messageHandlers :
    ∀ g ∈ messageHandlers, ∀ h ∈ messageHandlers,
      g.topicSuffix.toList.isSuffixOf h.topicSuffix.toList = true → g = h := by
  decide +kernel

/-- Two handlers that claim one topic are the same: one of the suffixes ends in the other. -/
theorem eq_of_canHandle {g h : MessageHandler} {topic : String} (hg : g ∈ messageHandlers)
    (hh : h ∈ messageHandlers) (hgt : g.canHandle topic = true) (hht : h.canHandle topic = true) :
    g = h := by
  simp only [MessageHandler.canHandle, endsWith_iff] at hgt hht
  rcases List.suffix_or_suffix_of_suffix hgt hht with hsuffix | hsuffix
  · exact suffix_of_messageHandlers g hg h hh (List.isSuffixOf_iff_suffix.mpr hsuffix)
  · exact (suffix_of_messageHandlers h hh g hg (List.isSuffixOf_iff_suffix.mpr hsuffix)).symm

/-! ### Registering handlers of different classes -/

theorem current_registerAll {ε : Type*} {hs : List (Handler ε)} {g : Handler ε}
    (h : (hs.map Handler.className).Nodup) : Current (hs.map .register) g ↔ g ∈ hs := by
  induction hs using List.reverseRecOn with
  | nil => simp [Current]
  | append_singleton hs a ih =>
    rw [List.map_append, List.nodup_append] at h
    obtain ⟨hnodup, -, hdisjoint⟩ := h
    rw [List.map_append, List.map_singleton, List.mem_append, List.mem_singleton]
    by_cases hname : a.className = g.className
    · -- only the last handler has its name
      have hnot : g ∉ hs := fun hg =>
        hdisjoint _ (List.mem_map_of_mem hg) _ (by simp) hname.symm
      rw [current_snoc_of_registers (registers_register.mpr hname)]
      simp [hnot, eq_comm]
    · have hne : g ≠ a := fun hga => hname (hga ▸ rfl)
      rw [current_snoc_of_other (mt registers_register.mp hname), ih hnodup]
      simp [not_removes_register, hne]

variable {topic : String} {payload : Json}

/-- The handler of a topic decides, whatever its rank. -/
theorem route_of_canHandle {hs : List (Handler String)} {g : Handler String}
    (hnodup : (hs.map Handler.className).Nodup) (hg : g ∈ hs) (hcan : g.canHandle topic = true)
    (honly : ∀ h ∈ hs, h.canHandle topic = true → h = g) :
    ((registerAll hs).route topic payload).result = g.handle topic payload := by
  obtain ⟨h, hsel, hroute⟩ | ⟨hnone, -⟩ := route_replay (hs.map .register) topic payload
  · have hh := honly h ((current_registerAll hnodup).mp hsel.current) hsel.canHandle
    rw [registerAll, hroute, hh]
  · have hfalse := hnone g ((current_registerAll hnodup).mpr hg)
    rw [hcan] at hfalse
    cases hfalse

theorem route_of_not_canHandle {hs : List (Handler String)}
    (hnodup : (hs.map Handler.className).Nodup) (hnone : ∀ h ∈ hs, h.canHandle topic = false) :
    ((registerAll hs).route topic payload).result = .ok "mqtt/message/unknown" := by
  obtain ⟨h, hsel, -⟩ | ⟨-, hroute⟩ := route_replay (hs.map .register) topic payload
  · have hfalse := hnone h ((current_registerAll hnodup).mp hsel.current)
    rw [hsel.canHandle] at hfalse
    cases hfalse
  · rw [registerAll, hroute]

theorem names_messageHandlers : (messageHandlers.map MessageHandler.name).Nodup := by decide +kernel

/-- The order and the priorities of the panel's handlers do not matter to `route`. -/
theorem route_order_irrelevant :
    (∀ topic, ∀ g ∈ messageHandlers, ∀ h ∈ messageHandlers,
      g.canHandle topic = true → h.canHandle topic = true → g = h) ∧
    ∀ (topic : String) (payload : Json) (order : List MessageHandler)
      (priority : MessageHandler → ℚ), order.Perm messageHandlers →
      ((registerAll (order.map fun h => h.withPriority (priority h))).route topic payload).result =
        initializeMessageRouter.route topic payload := by
  refine ⟨fun topic g hg h hh => eq_of_canHandle hg hh, ?_⟩
  intro topic payload order priority hperm
  have hnodup : ((order.map fun h => h.withPriority (priority h)).map Handler.className).Nodup := by
    rw [List.map_map]
    exact (hperm.map MessageHandler.name).nodup_iff.mpr names_messageHandlers
  have hmem : ∀ {h}, h ∈ initializeMessageRouter.sortedHandlers ↔ h ∈ messageHandlers :=
    List.mem_insertionSort _
  rw [route_eq, MessageRouter.selected]
  cases hfind : initializeMessageRouter.sortedHandlers.find? fun h => h.canHandle topic with
  | some g =>
    -- the order keeps all handlers, so that the topic's is still there and the only one
    have hg := hmem.mp (List.mem_of_find?_eq_some hfind)
    have hcan : g.canHandle topic = true := by simpa using List.find?_some hfind
    refine route_of_canHandle (g := g.withPriority (priority g)) hnodup ?_ hcan ?_
    · exact List.mem_map_of_mem (hperm.mem_iff.mpr hg)
    · intro h hh hht
      obtain ⟨f, hf, rfl⟩ := List.mem_map.mp hh
      rw [eq_of_canHandle (hperm.mem_iff.mp hf) hg hht hcan]
  | none =>
    refine route_of_not_canHandle hnodup fun h hh => ?_
    obtain ⟨f, hf, rfl⟩ := List.mem_map.mp hh
    show f.canHandle topic = false
    simpa using List.find?_eq_none.mp hfind f (hmem.mpr (hperm.mem_iff.mp hf))

example : messageHandlers.length = 11 := by decide +kernel

end IotPanel.Mqtt
