import Mathlib.Data.List.Lex
import Mathlib.Data.List.Sort

/-!
# The leaves of a tree from left to right

A partial function with finitely many arguments, whose arguments are ordered, enumerates its
values in their order. The leaves of a tree are the values of such a function: its arguments are
the positions in the tree, each the list of child indices on the way down from the root, and
the order of the positions from left to right is the lexicographic one.
-/

namespace IotPanel

/-! ### Values in the order of their arguments -/

section Enumeration

variable {ι κ β : Type*} [Preorder ι] [Preorder κ] {f g : ι → Option β} {bs cs : List β}

/-- `bs` are the values of the partial function `f`, in the order of its arguments. -/
def Enumerates (f : ι → Option β) (bs : List β) : Prop :=
  ∃ keys : List ι, keys.Pairwise (· < ·) ∧ (∀ k, k ∈ keys ↔ (f k).isSome) ∧
    keys.map f = bs.map some

namespace Enumerates

/-- A function has one enumeration at most. -/
theorem unique (hb : Enumerates f bs) (hc : Enumerates f cs) : bs = cs := by
  obtain ⟨keys, hsorted, hkeys, hvalues⟩ := hb
  obtain ⟨keys', hsorted', hkeys', hvalues'⟩ := hc
  have hsame : keys = keys' :=
    List.Pairwise.eq_of_mem_iff hsorted hsorted' fun k => by rw [hkeys k, hkeys' k]
  subst hsame
  exact List.map_injective_iff.mpr (Option.some_injective β) (hvalues.symm.trans hvalues')

theorem nil (h : ∀ k, f k = none) : Enumerates f [] :=
  ⟨[], List.Pairwise.nil, fun k => by simp [h k], rfl⟩

/-- A function that is defined at one argument only. -/
theorem singleton {k : ι} {b : β} (hk : f k = some b) (h : ∀ k', k' ≠ k → f k' = none) :
    Enumerates f [b] := by
  refine ⟨[k], List.pairwise_singleton _ _, fun k' => ?_, by simp [hk]⟩
  by_cases hkk : k' = k
  · simp [hkk, hk]
  · simp [hkk, h k' hkk]

/-- Where all arguments of one function come before those of another, its values come first. -/
theorem append (hf : Enumerates f bs) (hg : Enumerates g cs)
    (hlt : ∀ k k', (f k).isSome → (g k').isSome → k < k') :
    Enumerates (fun k => (f k).or (g k)) (bs ++ cs) := by
  obtain ⟨keys, hsorted, hkeys, hvalues⟩ := hf
  obtain ⟨keys', hsorted', hkeys', hvalues'⟩ := hg
  refine ⟨keys ++ keys', ?_, fun k => ?_, ?_⟩
  · refine List.pairwise_append.mpr ⟨hsorted, hsorted', fun k hk k' hk' => ?_⟩
    exact hlt k k' ((hkeys k).mp hk) ((hkeys' k').mp hk')
  · rw [List.mem_append, hkeys, hkeys', Option.isSome_or, Bool.or_eq_true]
  · have hfirst : keys.map (fun k => (f k).or (g k)) = keys.map f := by
      refine List.map_congr_left fun k hk => ?_
      rw [Option.or_of_isSome ((hkeys k).mp hk)]
    have hsecond : keys'.map (fun k => (f k).or (g k)) = keys'.map g := by
      refine List.map_congr_left fun k hk => ?_
      cases hfk : f k with
      | none => rfl
      | some b =>
        -- an argument of both would come before itself
        exact absurd (hlt k k (by simp [hfk]) ((hkeys' k).mp hk)) (lt_irrefl k)
    rw [List.map_append, List.map_append, hfirst, hsecond, hvalues, hvalues']

/-- The arguments may be renamed, as long as their order is kept. -/
theorem rename {e : ι → κ} {f' : κ → Option β} (hf : Enumerates f bs) (he : StrictMono e)
    (heq : ∀ k, f' (e k) = f k) (hrange : ∀ k', (f' k').isSome → ∃ k, e k = k') :
    Enumerates f' bs := by
  obtain ⟨keys, hsorted, hkeys, hvalues⟩ := hf
  refine ⟨keys.map e, ?_, fun k' => ?_, ?_⟩
  · exact List.pairwise_map.mpr (hsorted.imp fun h => he h)
  · rw [List.mem_map]
    constructor
    · rintro ⟨k, hk, rfl⟩
      rw [heq]
      exact (hkeys k).mp hk
    · intro hk'
      obtain ⟨k, rfl⟩ := hrange k' hk'
      exact ⟨k, (hkeys k).mpr (by rwa [heq] at hk'), rfl⟩
  · rw [List.map_map, ← hvalues]
    exact List.map_congr_left fun k _ => heq k

end Enumerates

end Enumeration

/-! ### Positions in a tree -/

namespace Tree

variable {α β : Type*} (children : α → List α) (leaf : α → Option β)

/-- The leaf at a position, if there is one. -/
def leafAt : α → List ℕ → Option β
  | a, [] => leaf a
  | a, i :: position => (children a)[i]?.bind fun c => leafAt c position

/-- `bs` are the leaves of the tree below `a`, from left to right. -/
def IsListing (a : α) (bs : List β) : Prop := Enumerates (leafAt children leaf a) bs

/-- A position in a row of trees: first the index of one of them. -/
def rowAt (row : List α) : List ℕ → Option β
  | [] => none
  | i :: position => row[i]?.bind fun c => leafAt children leaf c position

variable {children leaf} {a : α}

theorem leafAt_of_not_leaf (h : leaf a = none) :
    leafAt children leaf a = rowAt children leaf (children a) := by
  funext position
  cases position with
  | nil => exact h
  | cons i position => rfl

/-- The function at the positions in the first tree of a row. -/
def inFirst (f : List ℕ → Option β) : List ℕ → Option β
  | 0 :: position => f position
  | _ => none

/-- The function at the positions in the other trees of a row. -/
def inOthers (f : List ℕ → Option β) : List ℕ → Option β
  | (i + 1) :: position => f (i :: position)
  | _ => none

/-- The same position in a row that is one tree longer at the front. -/
def later : List ℕ → List ℕ
  | [] => []
  | i :: position => (i + 1) :: position

theorem strictMono_cons (i : ℕ) : StrictMono (i :: ·) :=
  fun _ _ h => List.cons_lt_cons_self.mpr h

theorem strictMono_later : StrictMono later := by
  intro p q hpq
  cases q with
  | nil => exact absurd hpq (List.not_lt_nil p)
  | cons j q =>
    cases p with
    | nil => exact List.nil_lt_cons (j + 1) q
    | cons i p =>
      apply List.cons_lt_cons_iff.mpr
      rcases List.cons_lt_cons_iff.mp hpq with h | ⟨rfl, h⟩
      · exact Or.inl (by omega)
      · exact Or.inr ⟨rfl, h⟩

theorem enumerates_inFirst {f : List ℕ → Option β} {bs : List β} (h : Enumerates f bs) :
    Enumerates (inFirst f) bs := by
  apply h.rename (strictMono_cons 0) fun _ => rfl
  intro position hsome
  match position, hsome with
  | 0 :: position, _ => exact ⟨position, rfl⟩

theorem enumerates_inOthers {f : List ℕ → Option β} {bs : List β} (h : Enumerates f bs)
    (hroot : f [] = none) : Enumerates (inOthers f) bs := by
  apply h.rename strictMono_later
  · intro position
    cases position with
    | nil => exact hroot.symm
    | cons i position => rfl
  · intro position hsome
    match position, hsome with
    | (i + 1) :: position, _ => exact ⟨i :: position, rfl⟩

theorem rowAt_cons (c : α) (row : List α) :
    rowAt children leaf (c :: row) = fun position =>
      (inFirst (leafAt children leaf c) position).or
        (inOthers (rowAt children leaf row) position) := by
  funext position
  match position with
  | [] => rfl
  | 0 :: position => simp [inFirst, inOthers, rowAt]
  | (i + 1) :: position => simp [inFirst, inOthers, rowAt]

/-- The leaves of a row of trees are those of the first, then those of the others. -/
theorem enumerates_row {listing : α → List β} (row : List α)
    (h : ∀ c ∈ row, IsListing children leaf c (listing c)) :
    Enumerates (rowAt children leaf row) (row.flatMap listing) := by
  induction row with
  | nil => exact Enumerates.nil fun position => by cases position <;> rfl
  | cons c row ih =>
    have hfirst := enumerates_inFirst (h c List.mem_cons_self)
    have hothers := enumerates_inOthers (ih fun d hd => h d (List.mem_cons_of_mem c hd)) rfl
    rw [rowAt_cons, List.flatMap_cons]
    apply hfirst.append hothers
    intro p q hp hq
    match p, q, hp, hq with
    | 0 :: p, (j + 1) :: q, _, _ => exact List.cons_lt_cons_iff.mpr (Or.inl (by omega))

/-- A leaf without children is listed alone. -/
theorem IsListing.of_leaf {b : β} (hleaf : leaf a = some b) (hchildren : children a = []) :
    IsListing children leaf a [b] := by
  refine Enumerates.singleton (k := []) hleaf fun position hne => ?_
  cases position with
  | nil => exact absurd rfl hne
  | cons i position => simp [leafAt, hchildren]

/-- What is no leaf and has no children lists nothing. -/
theorem IsListing.of_childless (hleaf : leaf a = none) (hchildren : children a = []) :
    IsListing children leaf a [] := by
  refine Enumerates.nil fun position => ?_
  cases position with
  | nil => exact hleaf
  | cons i position => simp [leafAt, hchildren]

/-- The leaves of an inner node are those of its children in turn. -/
theorem IsListing.of_children {listing : α → List β} (hleaf : leaf a = none)
    (h : ∀ c ∈ children a, IsListing children leaf c (listing c)) :
    IsListing children leaf a ((children a).flatMap listing) := by
  rw [IsListing, leafAt_of_not_leaf hleaf]
  exact enumerates_row (children a) h

end Tree

end IotPanel
