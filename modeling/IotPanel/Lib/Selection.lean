import Mathlib.Data.List.Sort
import Mathlib.Order.Lattice

/-!
# The first match after a stable sort

The sort puts the higher ranks first and keeps the order among equals. The first element of the
sorted list with a property is the one of the highest rank, and the first of these in the list.
-/

namespace IotPanel

variable {α β : Type*} [LinearOrder β]

/-- The elements with the higher ranks first, in their order among equals. -/
def sortByRank (rank : α → β) (l : List α) : List α :=
  l.insertionSort fun a b => rank b ≤ rank a

/-- `x` has the property `p` at its place between `pre` and `post`, and no element with the
property comes before it in the order of the ranks. -/
def FirstOfHighest (rank : α → β) (p : α → Bool) (pre : List α) (x : α) (post : List α) : Prop :=
  p x = true ∧ (∀ y ∈ pre, p y = true → rank y < rank x) ∧
    ∀ y ∈ post, p y = true → rank y ≤ rank x

variable {rank : α → β} {p : α → Bool} {l : List α} {a x : α}

theorem mem_sortByRank : x ∈ sortByRank rank l ↔ x ∈ l :=
  List.mem_insertionSort _

theorem sortByRank_pairwise (l : List α) :
    (sortByRank rank l).Pairwise fun a b => rank b ≤ rank a := by
  have : Std.Total fun a b : α => rank b ≤ rank a := ⟨fun a b => le_total (rank b) (rank a)⟩
  have : IsTrans α fun a b => rank b ≤ rank a := ⟨fun a b c hab hbc => hbc.trans hab⟩
  exact List.pairwise_insertionSort _ l

/-- Where `a` goes into a list that is sorted. -/
theorem find?_orderedInsert (h : l.Pairwise fun a b => rank b ≤ rank a) :
    (l.orderedInsert (fun a b => rank b ≤ rank a) a).find? p =
      if p a then
        match l.find? p with
        | some y => if rank y ≤ rank a then some a else some y
        | none => some a
      else l.find? p := by
  induction l with
  | nil =>
    by_cases hp : p a <;> simp [hp]
  | cons b l ih =>
    obtain ⟨hb, hl⟩ := List.pairwise_cons.mp h
    by_cases hba : rank b ≤ rank a
    · -- everything in the list ranks at most as high as `a`
      rw [List.orderedInsert_cons_of_le _ l hba, List.find?_cons]
      by_cases hp : p a
      · simp only [hp, if_true]
        cases hfind : (b :: l).find? p with
        | none => rfl
        | some y =>
          have hy : rank y ≤ rank a := by
            rcases List.mem_cons.mp (List.mem_of_find?_eq_some hfind) with rfl | hy
            · exact hba
            · exact (hb y hy).trans hba
          simp [hy]
      · simp [hp]
    · rw [List.orderedInsert_of_not_le _ l hba, List.find?_cons, List.find?_cons]
      by_cases hp : p b
      · by_cases hpa : p a <;> simp [hp, hpa, hba]
      · simpa [hp] using ih hl

/-- Nothing with the property ranks higher. -/
theorem FirstOfHighest.rank_le {pre post : List α} {y : α} (h : FirstOfHighest rank p pre x post)
    (hy : y ∈ pre ++ x :: post) (hp : p y = true) : rank y ≤ rank x := by
  obtain ⟨-, hpre, hpost⟩ := h
  rcases List.mem_append.mp hy with hy | hy
  · exact (hpre y hy hp).le
  · rcases List.mem_cons.mp hy with rfl | hy
    · exact le_rfl
    · exact hpost y hy hp

/-- The first match in the sorted list is the first of the matches of the highest rank. -/
theorem exists_of_find?_sortByRank (h : (sortByRank rank l).find? p = some x) :
    ∃ pre post, l = pre ++ x :: post ∧ FirstOfHighest rank p pre x post := by
  induction l generalizing x with
  | nil => simp [sortByRank] at h
  | cons a l ih =>
    have hsorted : (sortByRank rank l).Pairwise fun a b => rank b ≤ rank a := sortByRank_pairwise l
    have hsort : sortByRank rank (a :: l) =
        (sortByRank rank l).orderedInsert (fun a b => rank b ≤ rank a) a := rfl
    rw [hsort, find?_orderedInsert hsorted] at h
    by_cases hp : p a
    · rw [if_pos hp] at h
      cases hfind : (sortByRank rank l).find? p with
      | none =>
        rw [hfind] at h
        cases h
        refine ⟨[], l, rfl, hp, by simp, fun y hy hpy => ?_⟩
        exact absurd hpy (List.find?_eq_none.mp hfind y (mem_sortByRank.mpr hy))
      | some y =>
        obtain ⟨pre, post, rfl, hy⟩ := ih hfind
        rw [hfind] at h
        change (if rank y ≤ rank a then some a else some y) = some x at h
        by_cases hle : rank y ≤ rank a
        · -- `a` ranks at least as high as the first match behind it
          rw [if_pos hle] at h
          cases h
          exact ⟨[], _, rfl, hp, by simp, fun z hz hpz => (hy.rank_le hz hpz).trans hle⟩
        · rw [if_neg hle] at h
          cases h
          refine ⟨a :: pre, post, rfl, hy.1, ?_, hy.2.2⟩
          simpa using ⟨fun _ => lt_of_not_ge hle, hy.2.1⟩
    · rw [if_neg hp] at h
      obtain ⟨pre, post, rfl, hx⟩ := ih h
      refine ⟨a :: pre, post, rfl, hx.1, ?_, hx.2.2⟩
      simpa [hp] using hx.2.1

end IotPanel
