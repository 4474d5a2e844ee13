import IotPanel.Lib.OrderedMap
import IotPanel.Lib.Selection
import IotPanel.Mqtt.Router
import Mathlib.Algebra.Order.Field.Rat

/-!
# Handlers that come and go

The router takes any handler, under the name of its class, and gives it up again by that name.
What is registered, and since when, is read off the calls that were made; the router agrees with
it, and asks the handler that comes first by priority and then by registration.
-/

namespace IotPanel.Mqtt

variable {ε : Type*}

/-- `IMqttMessageHandler`. The method `getPriority` may be missing, and `handle` may throw. -/
structure Handler (ε : Type*) where
  className : String
  canHandle : String → Bool
  handle : String → Json → Except ε String
  getPriority : Option ℚ

/-- `getPriority?.() ?? 0` -/
def Handler.priority (h : Handler ε) : ℚ := h.getPriority.getD 0

/-- What `route` returns or throws, and the handlers whose `handle` it called. -/
structure Routed (ε : Type*) where
  result : Except ε String
  asked : List (Handler ε)

/-- `MqttMessageRouter`, with handlers of any class. -/
structure Registry (ε : Type*) where
  handlers : OrderedMap String (Handler ε)

namespace Registry

def register (r : Registry ε) (handler : Handler ε) : Registry ε :=
  ⟨r.handlers.set handler.className handler⟩

def unregister (r : Registry ε) (handlerName : String) : Registry ε :=
  ⟨r.handlers.delete handlerName⟩

def clear (_ : Registry ε) : Registry ε := ⟨.empty⟩

/-- The function that `route` gives to `sort`. -/
def comparePriority (a b : Handler ε) : ℚ := b.priority - a.priority

def sortedHandlers (r : Registry ε) : List (Handler ε) :=
  r.handlers.values.insertionSort fun a b => comparePriority a b ≤ 0

/-- What a handler throws is an `Error`: its message is logged, and it is thrown again. -/
def routeTo : List (Handler ε) → String → Json → Routed ε
  | [], _, _ => ⟨.ok "mqtt/message/unknown", []⟩
  | h :: hs, topic, payload =>
    if h.canHandle topic then ⟨h.handle topic payload, [h]⟩ else routeTo hs topic payload

def route (r : Registry ε) (topic : String) (payload : Json) : Routed ε :=
  routeTo r.sortedHandlers topic payload

end Registry

/-- A call of one of the methods that change the router. -/
inductive RegistryCall (ε : Type*)
  | register (handler : Handler ε)
  | unregister (handlerName : String)
  | clear

def RegistryCall.apply (r : Registry ε) : RegistryCall ε → Registry ε
  | .register handler => r.register handler
  | .unregister handlerName => r.unregister handlerName
  | .clear => r.clear

/-- A new router after the calls. -/
def replay (calls : List (RegistryCall ε)) : Registry ε := calls.foldl RegistryCall.apply ⟨.empty⟩

/-! ### What is registered, by the calls alone -/

def RegistryCall.Registers (c : RegistryCall ε) (name : String) : Prop :=
  ∃ h, c = .register h ∧ h.className = name

def RegistryCall.Removes (c : RegistryCall ε) (name : String) : Prop :=
  c = .unregister name ∨ c = .clear

/-- The call at `i` registered the name, and no call after it took the name away. -/
def Standing (calls : List (RegistryCall ε)) (name : String) (i : ℕ) : Prop :=
  (∃ c, calls[i]? = some c ∧ c.Registers name) ∧
    ∀ k c, i < k → calls[k]? = some c → ¬ c.Removes name

/-- The first registration of the name that still stands. -/
def Place (calls : List (RegistryCall ε)) (name : String) (i : ℕ) : Prop :=
  IsLeast {i | Standing calls name i} i

/-- The handler of the last registration of its name, which still stands. -/
def Current (calls : List (RegistryCall ε)) (h : Handler ε) : Prop :=
  ∃ j, IsGreatest {j | Standing calls h.className j} j ∧ calls[j]? = some (.register h)

/-- Among the current handlers that can handle the topic `h` has the highest priority, and it
has the first place among those of its priority. -/
structure Selected (calls : List (RegistryCall ε)) (topic : String) (h : Handler ε) : Prop where
  current : Current calls h
  canHandle : h.canHandle topic = true
  highest : ∀ g, Current calls g → g.canHandle topic = true → g.priority ≤ h.priority
  first : ∀ g i j, Current calls g → g.canHandle topic = true → g.priority = h.priority →
    Place calls h.className i → Place calls g.className j → i ≤ j

variable {calls : List (RegistryCall ε)} {c : RegistryCall ε} {g h : Handler ε}
  {name topic : String} {i j : ℕ}

theorem Standing.lt_length (hs : Standing calls name i) : i < calls.length := by
  obtain ⟨⟨c, hc, -⟩, -⟩ := hs
  exact (List.getElem?_eq_some_iff.mp hc).1

theorem RegistryCall.Registers.not_removes (hc : c.Registers name) : ¬ c.Removes name := by
  obtain ⟨h, rfl, -⟩ := hc
  simp [Removes]

theorem getElem?_snoc {d : RegistryCall ε} :
    (calls ++ [c])[i]? = some d ↔ calls[i]? = some d ∨ (i = calls.length ∧ d = c) := by
  rcases Nat.lt_trichotomy i calls.length with hlt | rfl | hgt
  · rw [List.getElem?_append_left hlt]
    simp [hlt.ne]
  · rw [List.getElem?_concat_length]
    simp [eq_comm]
  · have hlen : (calls ++ [c]).length ≤ i := by
      rw [List.length_append, List.length_singleton]
      exact hgt
    rw [List.getElem?_eq_none hlen, List.getElem?_eq_none hgt.le]
    simp [hgt.ne']

/-- One more call leaves the registrations that it does not take away, and may add itself. -/
theorem standing_snoc :
    Standing (calls ++ [c]) name i ↔
      (Standing calls name i ∧ ¬ c.Removes name) ∨ (i = calls.length ∧ c.Registers name) := by
  constructor
  · rintro ⟨⟨d, hd, hreg⟩, hlater⟩
    rcases getElem?_snoc.mp hd with hd | ⟨rfl, rfl⟩
    · have hlt := (List.getElem?_eq_some_iff.mp hd).1
      refine .inl ⟨⟨⟨d, hd, hreg⟩, fun k e hk he => ?_⟩, ?_⟩
      · exact hlater k e hk (getElem?_snoc.mpr (.inl he))
      · exact hlater _ c hlt (getElem?_snoc.mpr (.inr ⟨rfl, rfl⟩))
    · exact .inr ⟨rfl, hreg⟩
  · rintro (⟨⟨⟨d, hd, hreg⟩, hlater⟩, hc⟩ | ⟨rfl, hreg⟩)
    · refine ⟨⟨d, getElem?_snoc.mpr (.inl hd), hreg⟩, fun k e hk he => ?_⟩
      rcases getElem?_snoc.mp he with he | ⟨rfl, rfl⟩
      · exact hlater k e hk he
      · exact hc
    · refine ⟨⟨c, getElem?_snoc.mpr (.inr ⟨rfl, rfl⟩), hreg⟩, fun k e hk he => ?_⟩
      have hlen := (List.getElem?_eq_some_iff.mp he).1
      rw [List.length_append, List.length_singleton] at hlen
      omega

/-- A call that does not concern the name leaves its registrations as they were. -/
theorem standing_snoc_of_other (hreg : ¬ c.Registers name) (hrem : ¬ c.Removes name) :
    Standing (calls ++ [c]) name i ↔ Standing calls name i := by
  simp [standing_snoc, hreg, hrem]

theorem not_standing_of_removes (hrem : c.Removes name) : ¬ Standing (calls ++ [c]) name i := by
  rw [standing_snoc]
  rintro (⟨-, hnot⟩ | ⟨-, hreg⟩)
  · exact hnot hrem
  · exact hreg.not_removes hrem

theorem Standing.exists_place (hs : Standing calls name i) : ∃ j, Place calls name j := by
  classical
  have hex : ∃ k, Standing calls name k := ⟨i, hs⟩
  exact ⟨Nat.find hex, Nat.find_spec hex, fun k hk => Nat.find_min' hex hk⟩

/-- A name that stands keeps its place when it is registered again, and another one does so in
any case. -/
theorem Place.of_snoc (hp : Place (calls ++ [c]) name i)
    (hs : (∃ k, Standing calls name k) ∨ ¬ c.Registers name) : Place calls name i := by
  obtain ⟨hi, hleast⟩ := hp
  rcases standing_snoc.mp hi with ⟨hi, hrem⟩ | ⟨rfl, hreg⟩
  · exact ⟨hi, fun k hk => hleast (standing_snoc.mpr (.inl ⟨hk, hrem⟩))⟩
  · obtain ⟨k, hk⟩ | hnot := hs
    · -- the old registration comes before the new one
      have hle := hleast (standing_snoc.mpr (.inl ⟨hk, hreg.not_removes⟩))
      exact absurd hk.lt_length (Nat.not_lt.mpr hle)
    · exact absurd hreg hnot

/-- Of the handlers with the name that a call registers only the new one is current. -/
theorem current_snoc_of_registers (hreg : c.Registers g.className) :
    Current (calls ++ [c]) g ↔ c = .register g := by
  have hlast : Standing (calls ++ [c]) g.className calls.length :=
    standing_snoc.mpr (.inr ⟨rfl, hreg⟩)
  constructor
  · rintro ⟨j, ⟨-, hgreatest⟩, hg⟩
    have hle := hgreatest hlast
    rcases getElem?_snoc.mp hg with hg | ⟨-, hg⟩
    · exact absurd (List.getElem?_eq_some_iff.mp hg).1 (Nat.not_lt.mpr hle)
    · exact hg.symm
  · rintro rfl
    refine ⟨calls.length, ⟨hlast, fun k hk => ?_⟩, List.getElem?_concat_length⟩
    have hlt := Standing.lt_length hk
    rw [List.length_append, List.length_singleton] at hlt
    omega

/-- A handler of another name stays unless the call takes it away. -/
theorem current_snoc_of_other (hreg : ¬ c.Registers g.className) :
    Current (calls ++ [c]) g ↔ Current calls g ∧ ¬ c.Removes g.className := by
  by_cases hrem : c.Removes g.className
  · simp only [hrem, not_true, and_false, iff_false]
    rintro ⟨j, ⟨hj, -⟩, -⟩
    exact not_standing_of_removes hrem hj
  · have hstand : {i | Standing (calls ++ [c]) g.className i} =
        {i | Standing calls g.className i} := by
      ext i
      exact standing_snoc_of_other hreg hrem
    simp only [Current, hstand, hrem, not_false_eq_true, and_true]
    refine exists_congr fun j => and_congr_right fun hj => ?_
    rw [getElem?_snoc]
    refine or_iff_left ?_
    rintro ⟨rfl, -⟩
    exact absurd (Standing.lt_length hj.1) (Nat.lt_irrefl _)

/-- No two current handlers have the same name. -/
theorem Current.eq_of_className (hg : Current calls g) (hh : Current calls h)
    (hname : g.className = h.className) : g = h := by
  obtain ⟨i, hi, hgi⟩ := hg
  obtain ⟨j, hj, hhj⟩ := hh
  rw [hname] at hi
  obtain rfl := hi.unique hj
  rw [hgi] at hhj
  cases hhj
  rfl

theorem Current.exists_place (hg : Current calls g) : ∃ i, Place calls g.className i := by
  obtain ⟨j, ⟨hj, -⟩, -⟩ := hg
  exact Standing.exists_place hj

/-! ### The router agrees with the calls -/

/-- The router holds the current handlers in the order of their places. -/
structure Reflects (calls : List (RegistryCall ε)) (r : Registry ε) : Prop where
  mem : ∀ e, e ∈ r.handlers.entries ↔ e.1 = e.2.className ∧ Current calls e.2
  stands : ∀ name, name ∈ r.handlers.keys ↔ ∃ i, Standing calls name i
  ordered : r.handlers.keys.Pairwise fun a b => ∀ i j, Place calls a i → Place calls b j → i < j

theorem reflects_nil : Reflects ([] : List (RegistryCall ε)) ⟨.empty⟩ where
  mem e := by simp [OrderedMap.empty, Current]
  stands name := by simp [OrderedMap.empty, OrderedMap.keys, Standing]
  ordered := .nil

theorem Reflects.keys_eq {r : Registry ε} (hr : Reflects calls r) :
    r.handlers.keys = r.handlers.values.map Handler.className := by
  simp only [OrderedMap.keys, OrderedMap.values, List.map_map]
  exact List.map_congr_left fun e he => ((hr.mem e).mp he).1

theorem registers_register : (RegistryCall.register h).Registers name ↔ h.className = name := by
  simp [RegistryCall.Registers]

theorem not_removes_register : ¬ (RegistryCall.register h).Removes name := by
  simp [RegistryCall.Removes]

theorem Reflects.register {r : Registry ε} (hr : Reflects calls r) (h : Handler ε) :
    Reflects (calls ++ [.register h]) (r.register h) where
  mem := by
    rintro ⟨name, g⟩
    simp only [Registry.register, OrderedMap.mem_set, hr.mem, Prod.mk.injEq]
    by_cases hname : h.className = g.className
    · rw [current_snoc_of_registers (registers_register.mpr hname)]
      constructor
      · rintro (⟨rfl, rfl⟩ | ⟨⟨rfl, -⟩, hne⟩)
        · exact ⟨rfl, rfl⟩
        · exact absurd hname.symm hne
      · rintro ⟨rfl, hgh⟩
        cases hgh
        exact .inl ⟨rfl, rfl⟩
    · rw [current_snoc_of_other (mt registers_register.mp hname)]
      constructor
      · rintro (⟨rfl, rfl⟩ | ⟨⟨rfl, hg⟩, -⟩)
        · exact absurd rfl hname
        · exact ⟨rfl, hg, not_removes_register⟩
      · rintro ⟨rfl, hg, -⟩
        exact .inr ⟨⟨rfl, hg⟩, Ne.symm hname⟩
  stands name := by
    simp only [Registry.register, OrderedMap.keys_set, standing_snoc, not_removes_register,
      registers_register, not_false_eq_true, and_true]
    split
    · next hmem =>
      rw [hr.stands]
      constructor
      · rintro ⟨i, hi⟩
        exact ⟨i, .inl hi⟩
      · rintro ⟨i, hi | ⟨-, rfl⟩⟩
        · exact ⟨i, hi⟩
        · exact (hr.stands _).mp hmem
    · rw [List.mem_append, List.mem_singleton, hr.stands]
      constructor
      · rintro (⟨i, hi⟩ | rfl)
        · exact ⟨i, .inl hi⟩
        · exact ⟨_, .inr ⟨rfl, rfl⟩⟩
      · rintro ⟨i, hi | ⟨-, rfl⟩⟩
        · exact .inl ⟨i, hi⟩
        · exact .inr rfl
  ordered := by
    -- a name that is there keeps its place
    have hkept : ∀ {a i}, a ∈ r.handlers.keys → Place (calls ++ [.register h]) a i →
        Place calls a i := fun ha hi => hi.of_snoc (.inl ((hr.stands _).mp ha))
    simp only [Registry.register, OrderedMap.keys_set]
    split
    · refine hr.ordered.imp_of_mem fun {a b} ha hb hab i j hi hj => ?_
      exact hab i j (hkept ha hi) (hkept hb hj)
    · next hnew =>
      refine List.pairwise_append.mpr ⟨?_, List.pairwise_singleton _ _, ?_⟩
      · refine hr.ordered.imp_of_mem fun {a b} ha hb hab i j hi hj => ?_
        exact hab i j (hkept ha hi) (hkept hb hj)
      · -- a new name comes last
        rintro a ha b hb i j hi hj
        obtain rfl := List.mem_singleton.mp hb
        rcases standing_snoc.mp hj.1 with ⟨hj, -⟩ | ⟨rfl, -⟩
        · exact absurd ((hr.stands _).mpr ⟨j, hj⟩) hnew
        · exact Standing.lt_length (hkept ha hi).1

/-- A call that registers nothing and takes away the names without `keep`. -/
theorem Reflects.remove {r r' : Registry ε} (hr : Reflects calls r) (keep : String → Prop)
    [DecidablePred keep] (hreg : ∀ name, ¬ c.Registers name)
    (hrem : ∀ name, c.Removes name ↔ ¬ keep name)
    (hentries : r'.handlers.entries = r.handlers.entries.filter fun e => keep e.1) :
    Reflects (calls ++ [c]) r' where
  mem e := by
    rw [hentries, List.mem_filter, hr.mem, current_snoc_of_other (hreg _), hrem, not_not,
      decide_eq_true_eq]
    constructor
    · rintro ⟨⟨hname, he⟩, hkeep⟩
      exact ⟨hname, he, hname ▸ hkeep⟩
    · rintro ⟨hname, he, hkeep⟩
      exact ⟨⟨hname, he⟩, hname ▸ hkeep⟩
  stands name := by
    have hkeys : r'.handlers.keys = r.handlers.keys.filter keep := by
      simp only [OrderedMap.keys, hentries, List.filter_map]
      rfl
    rw [hkeys, List.mem_filter, hr.stands]
    simp [standing_snoc, hreg, hrem]
  ordered := by
    have hkeys : r'.handlers.keys = r.handlers.keys.filter keep := by
      simp only [OrderedMap.keys, hentries, List.filter_map]
      rfl
    rw [hkeys]
    refine (hr.ordered.filter _).imp fun {a b} hab i j hi hj => ?_
    exact hab i j (hi.of_snoc (.inr (hreg a))) (hj.of_snoc (.inr (hreg b)))

theorem reflects_apply {r : Registry ε} (hr : Reflects calls r) (c : RegistryCall ε) :
    Reflects (calls ++ [c]) (c.apply r) := by
  cases c with
  | register h => exact hr.register h
  | unregister name =>
    refine hr.remove (fun a => a ≠ name) ?_ ?_ ?_
    · simp [RegistryCall.Registers]
    · simp [RegistryCall.Removes, eq_comm]
    · rfl
  | clear =>
    refine hr.remove (fun _ => False) ?_ ?_ ?_
    · simp [RegistryCall.Registers]
    · simp [RegistryCall.Removes]
    · simp [RegistryCall.apply, Registry.clear, OrderedMap.empty]

theorem replay_snoc : replay (calls ++ [c]) = c.apply (replay calls) := by
  simp [replay]

/-- After any calls. -/
theorem reflects_replay (calls : List (RegistryCall ε)) : Reflects calls (replay calls) := by
  induction calls using List.reverseRecOn with
  | nil => exact reflects_nil
  | append_singleton calls c ih =>
    rw [replay_snoc]
    exact reflects_apply ih c

/-! ### The handler that the router asks -/

namespace Registry

theorem sortedHandlers_eq (r : Registry ε) :
    r.sortedHandlers = sortByRank Handler.priority r.handlers.values := by
  simp only [sortedHandlers, comparePriority, sub_nonpos]
  rfl

theorem routeTo_eq (hs : List (Handler ε)) (topic : String) (payload : Json) :
    routeTo hs topic payload =
      match hs.find? fun h => h.canHandle topic with
      | some h => ⟨h.handle topic payload, [h]⟩
      | none => ⟨.ok "mqtt/message/unknown", []⟩ := by
  induction hs with
  | nil => rfl
  | cons h hs ih =>
    rw [routeTo, List.find?_cons]
    by_cases hcan : h.canHandle topic = true
    · simp [hcan]
    · simpa [hcan] using ih

end Registry

theorem Reflects.mem_values {r : Registry ε} (hr : Reflects calls r) :
    h ∈ r.handlers.values ↔ Current calls h := by
  rw [OrderedMap.values, List.mem_map]
  constructor
  · rintro ⟨e, he, rfl⟩
    exact ((hr.mem e).mp he).2
  · intro hh
    exact ⟨(h.className, h), (hr.mem _).mpr ⟨rfl, hh⟩, rfl⟩

/-- No two handlers are selected for one topic. -/
theorem Selected.unique (hg : Selected calls topic g) (hh : Selected calls topic h) : g = h := by
  have hpriority : g.priority = h.priority :=
    le_antisymm (hh.highest g hg.current hg.canHandle) (hg.highest h hh.current hh.canHandle)
  obtain ⟨i, hi⟩ := hg.current.exists_place
  obtain ⟨j, hj⟩ := hh.current.exists_place
  have hij : i = j := le_antisymm
    (hg.first h i j hh.current hh.canHandle hpriority.symm hi hj)
    (hh.first g j i hg.current hg.canHandle hpriority hj hi)
  subst hij
  obtain ⟨⟨c, hc, hcg⟩, -⟩ := hi.1
  obtain ⟨⟨d, hd, hdh⟩, -⟩ := hj.1
  rw [hc] at hd
  cases hd
  obtain ⟨f, rfl, hfg⟩ := hcg
  exact hg.current.eq_of_className hh.current (hfg.symm.trans (registers_register.mp hdh))

/-- The first match in the order of the router is selected. -/
theorem selected_of_find? {r : Registry ε} (hr : Reflects calls r)
    (h : r.sortedHandlers.find? (fun h => h.canHandle topic) = some g) :
    Selected calls topic g := by
  rw [Registry.sortedHandlers_eq] at h
  obtain ⟨pre, post, hvalues, hg⟩ := exists_of_find?_sortByRank h
  have hmem : ∀ {f}, Current calls f ↔ f ∈ pre ++ g :: post := by
    intro f
    rw [← hvalues, hr.mem_values]
  have hordered := hr.ordered
  rw [hr.keys_eq, hvalues, List.map_append, List.map_cons, List.pairwise_append,
    List.pairwise_cons] at hordered
  refine ⟨hmem.mpr (by simp), hg.1, fun f hf hcan => hg.rank_le (hmem.mp hf) hcan, ?_⟩
  intro f i j hf hcan hpriority hi hj
  rcases List.mem_append.mp (hmem.mp hf) with hf | hf
  · exact absurd hpriority (hg.2.1 f hf hcan).ne
  · rcases List.mem_cons.mp hf with rfl | hf
    · exact (hi.unique hj).le
    · exact (hordered.2.1.1 _ (List.mem_map_of_mem hf) i j hi hj).le

/-- What `route` does, from the calls that were made. -/
theorem route_replay (calls : List (RegistryCall ε)) (topic : String) (payload : Json) :
    (∃ h, Selected calls topic h ∧
      (replay calls).route topic payload = ⟨h.handle topic payload, [h]⟩) ∨
    ((∀ h, Current calls h → h.canHandle topic = false) ∧
      (replay calls).route topic payload = ⟨.ok "mqtt/message/unknown", []⟩) := by
  have hr := reflects_replay calls
  rw [Registry.route, Registry.routeTo_eq]
  cases hfind : (replay calls).sortedHandlers.find? fun h => h.canHandle topic with
  | some h => exact .inl ⟨h, selected_of_find? hr hfind, rfl⟩
  | none =>
    refine .inr ⟨fun h hh => ?_, rfl⟩
    have hmem : h ∈ (replay calls).sortedHandlers := by
      rw [Registry.sortedHandlers_eq, mem_sortByRank]
      exact hr.mem_values.mpr hh
    simpa using List.find?_eq_none.mp hfind h hmem

/-- The router asks the selected handler and no other. It falls back on the unknown event if no
current handler matches. -/
theorem route_selection (calls : List (RegistryCall ε)) (topic : String) (payload : Json) :
    (∀ h, Selected calls topic h →
      (replay calls).route topic payload = ⟨h.handle topic payload, [h]⟩) ∧
    ((∃ h, Current calls h ∧ h.canHandle topic = true) → ∃ h, Selected calls topic h) ∧
    ((∀ h, Current calls h → h.canHandle topic = false) →
      (replay calls).route topic payload = ⟨.ok "mqtt/message/unknown", []⟩) ∧
    (((replay calls).route topic payload).result = .ok "mqtt/message/unknown" ↔
      (∀ h, Current calls h → h.canHandle topic = false) ∨
        ∃ h, Selected calls topic h ∧ h.handle topic payload = .ok "mqtt/message/unknown") := by
  obtain ⟨g, hg, hroute⟩ | ⟨hnone, hroute⟩ := route_replay calls topic payload
  · have hmatch : ¬ ∀ h, Current calls h → h.canHandle topic = false := fun hnone => by
      simpa [hg.canHandle] using hnone g hg.current
    rw [hroute]
    refine ⟨fun h hh => by rw [hg.unique hh], fun _ => ⟨g, hg⟩, fun hnone => absurd hnone hmatch, ?_⟩
    constructor
    · exact fun hresult => .inr ⟨g, hg, hresult⟩
    · rintro (hnone | ⟨h, hh, hresult⟩)
      · exact absurd hnone hmatch
      · rwa [← hg.unique hh] at hresult
  · have hnot : ∀ h, ¬ Selected calls topic h := fun h hh => by
      simpa [hh.canHandle] using hnone h hh.current
    rw [hroute]
    refine ⟨fun h hh => absurd hh (hnot h), ?_, fun _ => rfl, fun _ => .inl hnone, fun _ => rfl⟩
    rintro ⟨h, hh, hcan⟩
    simpa [hcan] using hnone h hh

/-- A handler may return the unknown event itself. -/
theorem not_unknown_iff_no_match :
    ¬ ∀ (calls : List (RegistryCall String)) (topic : String) (payload : Json),
      ((replay calls).route topic payload).result = .ok "mqtt/message/unknown" ↔
        ∀ h, Current calls h → h.canHandle topic = false := by
  intro hiff
  let h : Handler String :=
    ⟨"CatchAllHandler", fun _ => true, fun _ _ => .ok "mqtt/message/unknown", none⟩
  have hcurrent : Current ([] ++ [RegistryCall.register h]) h :=
    (current_snoc_of_registers (registers_register.mpr rfl)).mpr rfl
  have hnone := (hiff [.register h] "iot/esp32-1/telemetry" (.obj [])).mp rfl
  simpa using hnone h hcurrent

end IotPanel.Mqtt
