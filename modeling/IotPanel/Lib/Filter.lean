import IotPanel.Lib.Text

/-!
# Topic filters

A topic is a sequence of levels with slashes between them. In a filter `+` stands for any one
level, and `#`, which has to be the last level, for any number of levels.
-/

namespace IotPanel.TopicFilter

def levels (s : String) : List String := Text.split s '/'

/-- A text without wildcards. -/
def plain (s : String) : Bool := s.toList.all fun c => c != '+' && c != '#'

/-- A wildcard fills its level, and `#` is the last one. -/
def wellFormed : List String → Bool
  | [] => true
  | l :: ls => if l = "#" then ls.isEmpty else (l == "+" || plain l) && wellFormed ls

/-- Whether the levels of a filter cover those of a topic. -/
def covers : List String → List String → Bool
  | [], ts => ts.isEmpty
  | l :: ls, [] => l == "#" && ls.isEmpty
  | l :: ls, t :: ts => (l == "#" && ls.isEmpty) || ((l == "+" || l == t) && covers ls ts)

def valid (filter : String) : Bool := wellFormed (levels filter)

/-- What is not well formed is no filter and matches nothing. -/
def accepts (filter topic : String) : Bool :=
  valid filter && covers (levels filter) (levels topic)

variable {l t x z : String} {ls ts p f s s' : List String}

/-! ### Levels -/

theorem levels_ne_nil (s : String) : levels s ≠ [] := by
  simp [levels, Text.split]

theorem levels_append (a b : String) : levels (a ++ "/" ++ b) = levels a ++ levels b := by
  simp [levels, Text.split, List.splitOn_append_cons_self]

theorem subset_of_mem_splitOn {c : Char} {w cs : List Char} (h : w ∈ cs.splitOn c) : w ⊆ cs := by
  induction cs generalizing w with
  | nil =>
    rw [List.splitOn_nil, List.mem_singleton] at h
    exact h ▸ List.Subset.refl _
  | cons d cs ih =>
    rw [List.splitOn_cons_eq_if_modifyHead] at h
    split at h
    · rcases List.mem_cons.mp h with rfl | h
      · exact List.nil_subset _
      · exact List.Subset.trans (ih h) (List.subset_cons_self d cs)
    · obtain ⟨head, tail, hsplit⟩ := List.exists_cons_of_ne_nil (List.splitOn_ne_nil c cs)
      rw [hsplit] at h ih
      rcases List.mem_cons.mp h with rfl | h
      · exact List.cons_subset_cons d (ih List.mem_cons_self)
      · exact List.Subset.trans (ih (List.mem_cons_of_mem _ h)) (List.subset_cons_self d cs)

/-- The levels of a plain text are plain. -/
theorem plain_of_mem_levels {a : String} (ha : plain a = true) (hl : l ∈ levels a) :
    plain l = true := by
  obtain ⟨w, hw, rfl⟩ := List.mem_map.mp hl
  refine List.all_eq_true.mpr fun c hc => ?_
  rw [String.toList_ofList] at hc
  exact List.all_eq_true.mp ha c (subset_of_mem_splitOn hw hc)

theorem ne_of_plain (h : plain l = true) : l ≠ "+" ∧ l ≠ "#" := by
  constructor
  · rintro rfl
    exact absurd h (by decide)
  · rintro rfl
    exact absurd h (by decide)

theorem levels_of_not_mem {a : String} (h : '/' ∉ a.toList) : levels a = [a] :=
  Text.split_of_not_mem h

/-! ### Well-formed filters -/

theorem wellFormed_cons_plain (h : plain l = true) :
    wellFormed (l :: ls) = wellFormed ls := by
  rw [wellFormed, if_neg (ne_of_plain h).2, h, Bool.or_true, Bool.true_and]

theorem wellFormed_append_left (hp : ∀ l ∈ p, plain l = true) :
    wellFormed (p ++ f) = wellFormed f := by
  induction p with
  | nil => rfl
  | cons l p ih =>
    rw [List.cons_append, wellFormed_cons_plain (hp l List.mem_cons_self)]
    exact ih fun m hm => hp m (List.mem_cons_of_mem l hm)

/-- A filter that goes on has no `#` before. -/
theorem wellFormed_of_append (h : wellFormed (f ++ s) = true) : wellFormed f = true := by
  induction f with
  | nil => rfl
  | cons l f ih =>
    rw [List.cons_append, wellFormed] at h
    rw [wellFormed]
    split at h
    · rw [List.isEmpty_iff, List.append_eq_nil_iff] at h
      rw [if_pos ‹_›, List.isEmpty_iff]
      exact h.1
    · rw [if_neg ‹_›]
      rw [Bool.and_eq_true] at h ⊢
      exact ⟨h.1, ih h.2⟩

/-! ### Covering -/

@[simp] theorem covers_nil : covers [] ts = true ↔ ts = [] := by
  rw [covers, List.isEmpty_iff]

@[simp] theorem covers_cons_nil : covers (l :: ls) [] = true ↔ l = "#" ∧ ls = [] := by
  rw [covers, Bool.and_eq_true, beq_iff_eq, List.isEmpty_iff]

@[simp] theorem covers_cons_cons :
    covers (l :: ls) (t :: ts) = true ↔
      (l = "#" ∧ ls = []) ∨ ((l = "+" ∨ l = t) ∧ covers ls ts = true) := by
  simp only [covers, Bool.or_eq_true, Bool.and_eq_true, beq_iff_eq, List.isEmpty_iff]

/-- Nothing is gained or lost by levels that a filter has in common with a topic. -/
theorem covers_append_left (hf : f ≠ []) : covers (p ++ f) (p ++ ts) = covers f ts := by
  induction p with
  | nil => rfl
  | cons l p ih =>
    rw [← ih, Bool.eq_iff_iff, List.cons_append, List.cons_append, covers_cons_cons]
    simp [hf]

/-- The last level of a filter that is no wildcard is the last one of the topic. -/
theorem covers_concat (hx : plain x = true) (h : covers (f ++ [x]) (ts ++ [z]) = true) :
    covers f ts = true ∧ x = z := by
  obtain ⟨hplus, hhash⟩ := ne_of_plain hx
  induction f generalizing ts with
  | nil =>
    cases ts with
    | nil =>
      simp [hplus, hhash] at h
      exact ⟨rfl, h⟩
    | cons t ts => simp [hplus, hhash] at h
  | cons l f ih =>
    cases ts with
    | nil =>
      rw [List.nil_append, List.cons_append, covers_cons_cons] at h
      cases f with
      | nil => simp [hhash] at h
      | cons m f => simp at h
    | cons t ts =>
      rw [List.cons_append, List.cons_append, covers_cons_cons] at h
      rcases h with ⟨_, hnil⟩ | ⟨hl, hrest⟩
      · simp at hnil
      · obtain ⟨hcovers, rfl⟩ := ih hrest
        exact ⟨covers_cons_cons.mpr (.inr ⟨hl, hcovers⟩), rfl⟩

/-- The same for as many levels as the filter and the topic end with. -/
theorem covers_append_right (hs : ∀ l ∈ s, plain l = true) (hlength : s.length = s'.length)
    (h : covers (f ++ s) (ts ++ s') = true) : covers f ts = true ∧ s = s' := by
  induction s using List.reverseRecOn generalizing s' with
  | nil =>
    obtain rfl : s' = [] := List.length_eq_zero_iff.mp hlength.symm
    rw [List.append_nil, List.append_nil] at h
    exact ⟨h, rfl⟩
  | append_singleton s x ih =>
    rcases List.eq_nil_or_concat s' with rfl | ⟨s', z, rfl⟩
    · simp at hlength
    · rw [List.concat_eq_append] at h hlength ⊢
      rw [← List.append_assoc, ← List.append_assoc] at h
      obtain ⟨hfirst, rfl⟩ := covers_concat (hs x (by simp)) h
      obtain ⟨hcovers, rfl⟩ := ih (fun l hl => hs l (by simp [hl])) (by simpa using hlength) hfirst
      exact ⟨hcovers, rfl⟩

theorem getLast?_eq_of_covers (hs : ∀ l ∈ s, plain l = true) (hne : s ≠ []) (hne' : s' ≠ [])
    (h : covers (f ++ s) (ts ++ s') = true) : s.getLast? = s'.getLast? := by
  rw [← List.dropLast_append_getLast hne, ← List.dropLast_append_getLast hne', ← List.append_assoc,
    ← List.append_assoc] at h
  have hlast := (covers_concat (hs _ (List.getLast_mem hne)) h).2
  rw [List.getLast?_eq_some_getLast hne, List.getLast?_eq_some_getLast hne', hlast]

/-- A filter of plain levels covers itself only. -/
theorem eq_of_covers (hf : ∀ l ∈ f, plain l = true) (h : covers f ts = true) : f = ts := by
  induction f generalizing ts with
  | nil => exact (covers_nil.mp h).symm
  | cons l f ih =>
    obtain ⟨hplus, hhash⟩ := ne_of_plain (hf l List.mem_cons_self)
    cases ts with
    | nil => exact absurd (covers_cons_nil.mp h).1 hhash
    | cons t ts =>
      rcases covers_cons_cons.mp h with ⟨hl, _⟩ | ⟨hl, hrest⟩
      · exact absurd hl hhash
      · obtain rfl := hl.resolve_left hplus
        rw [ih (fun m hm => hf m (List.mem_cons_of_mem l hm)) hrest]

/-- A filter without wildcards accepts no other topic. -/
theorem accepts_eq_false {a b : String} (ha : ∀ l ∈ levels a, plain l = true)
    (hne : levels a ≠ levels b) : accepts a b = false := by
  rw [← Bool.not_eq_true, accepts, Bool.and_eq_true]
  rintro ⟨-, hcovers⟩
  exact hne (eq_of_covers ha hcovers)

end IotPanel.TopicFilter
