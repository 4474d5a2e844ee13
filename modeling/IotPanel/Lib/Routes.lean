import Mathlib.Data.List.Nodup

/-!
# Tables of routes

A path is answered by the first route of a table that accepts it. A route that another one covers
is never selected behind it; a route that none in front of it covers is selected by some path.
-/

namespace IotPanel.Routing

/-- A segment of a pattern: a name, or a parameter, which stands for any segment but the blank. -/
inductive Segment (κ : Type*)
  | name (key : κ)
  | param
  deriving DecidableEq

/-- What a route matches, and what it leads to. -/
structure Route (κ ρ : Type*) where
  pattern : List (Segment κ)
  handler : ρ
  deriving DecidableEq

variable {σ κ ρ : Type*} [DecidableEq κ]

/-- Segments of a path are compared with names by their keys. -/
def Segment.accepts (key : σ → κ) (blank : κ) (s : σ) : Segment κ → Bool
  | name k => key s = k
  | param => key s ≠ blank

def accepts (key : σ → κ) (blank : κ) : List (Segment κ) → List σ → Bool
  | [], [] => true
  | p :: ps, s :: ss => p.accepts key blank s && accepts key blank ps ss
  | _, _ => false

def select (key : σ → κ) (blank : κ) (table : List (Route κ ρ)) (path : List σ) :
    Option (Route κ ρ) :=
  table.find? fun r => accepts key blank r.pattern path

def Segment.covers (blank : κ) : Segment κ → Segment κ → Bool
  | param, param => true
  | param, name k => k ≠ blank
  | name j, name k => j = k
  | name _, param => false

/-- The first pattern accepts what the second one does. -/
def covers (blank : κ) : List (Segment κ) → List (Segment κ) → Bool
  | [], [] => true
  | p :: ps, q :: qs => p.covers blank q && covers blank ps qs
  | _, _ => false

def Segment.name? : Segment κ → Option κ
  | name k => some k
  | param => none

def names (p : List (Segment κ)) : List κ := p.filterMap Segment.name?

variable {key : σ → κ} {blank : κ} {p q : List (Segment κ)} {path : List σ}

omit [DecidableEq κ] in
@[simp] theorem mem_names {k : κ} : k ∈ names p ↔ .name k ∈ p := by
  rw [names, List.mem_filterMap]
  constructor
  · rintro ⟨s, hs, hname⟩
    cases s with
    | name j => exact Option.some.inj hname ▸ hs
    | param => cases hname
  · exact fun h => ⟨.name k, h, rfl⟩

theorem accepts_of_covers (h : covers blank p q = true) (hq : accepts key blank q path = true) :
    accepts key blank p path = true := by
  induction p generalizing q path with
  | nil =>
    cases q with
    | nil => exact hq
    | cons b qs => cases h
  | cons a ps ih =>
    cases q with
    | nil => cases h
    | cons b qs =>
      cases path with
      | nil => cases hq
      | cons s ss =>
        obtain ⟨hab, hrest⟩ := Bool.and_eq_true_iff.mp h
        obtain ⟨hb, hss⟩ := Bool.and_eq_true_iff.mp hq
        refine Bool.and_eq_true_iff.mpr ⟨?_, ih hrest hss⟩
        cases a <;> cases b <;> simp_all [Segment.accepts, Segment.covers]

/-- What is in front of both patterns makes no difference, where it covers itself. -/
theorem covers_append_left {pre : List (Segment κ)} (hpre : covers blank pre pre = true) :
    covers blank (pre ++ p) (pre ++ q) = covers blank p q := by
  induction pre with
  | nil => rfl
  | cons a pre ih =>
    obtain ⟨ha, hrest⟩ := Bool.and_eq_true_iff.mp hpre
    show (a.covers blank a && covers blank (pre ++ p) (pre ++ q)) = _
    rw [ha, Bool.true_and, ih hrest]

theorem covers_names (l : List κ) :
    covers blank (l.map Segment.name) (l.map Segment.name) = true := by
  induction l with
  | nil => rfl
  | cons k l ih => exact Bool.and_eq_true_iff.mpr ⟨decide_eq_true rfl, ih⟩

/-! ### Behind a route that covers it -/

variable {table : List (Route κ ρ)} {r first : Route κ ρ}

/-- A route behind another one that accepts the path is not selected. -/
theorem select_ne_of_sublist (hnodup : table.Nodup) (hbehind : [first, r].Sublist table)
    (haccepts : accepts key blank first.pattern path = true) :
    select key blank table path ≠ some r := by
  induction table with
  | nil => cases hbehind
  | cons a table ih =>
    obtain ⟨ha, hrest⟩ := List.nodup_cons.mp hnodup
    intro hselect
    cases hbehind with
    | cons _ hbehind =>
      have hmem : r ∈ table := hbehind.subset (by simp)
      rw [select, List.find?_cons] at hselect
      split at hselect
      · -- the head is selected, and it does not come again
        cases hselect
        exact ha hmem
      · exact ih hrest hbehind hselect
    | cons_cons _ hbehind =>
      have hmem : r ∈ table := List.singleton_sublist.mp hbehind
      rw [select, List.find?_cons, haccepts] at hselect
      cases hselect
      exact ha hmem

theorem accepts_of_select (h : select key blank table path = some r) :
    accepts key blank r.pattern path = true := by
  unfold select at h
  have haccepts := List.find?_some h
  exact haccepts

theorem select_ne_of_covers (hnodup : table.Nodup) (hbehind : [first, r].Sublist table)
    (hcovers : covers blank first.pattern r.pattern = true) (path : List σ) :
    select key blank table path ≠ some r := by
  intro hselect
  have haccepts := accepts_of_covers hcovers (accepts_of_select hselect)
  exact select_ne_of_sublist hnodup hbehind haccepts hselect

/-- Two elements of a list without repetitions stand in one order. -/
theorem not_sublist_swap {α : Type*} {l : List α} {a b : α} (hnodup : l.Nodup)
    (hab : [a, b].Sublist l) : ¬ [b, a].Sublist l := by
  induction l with
  | nil => cases hab
  | cons x l ih =>
    obtain ⟨hx, hrest⟩ := List.nodup_cons.mp hnodup
    intro hba
    cases hab with
    | cons _ hab =>
      cases hba with
      | cons _ hba => exact ih hrest hab hba
      | cons_cons _ hba => exact hx (hab.subset (by simp))
    | cons_cons _ hab =>
      cases hba with
      | cons _ hba => exact hx (hba.subset (by simp))
      | cons_cons _ hba => exact hx (List.singleton_sublist.mp hab)

/-! ### A path of its own -/

/-- A segment that a segment of a pattern accepts: what stands for a name, or a new one. -/
def Segment.fill (sample : κ → σ) (new : σ) : Segment κ → σ
  | name k => sample k
  | param => new

def fill (sample : κ → σ) (new : σ) (p : List (Segment κ)) : List σ :=
  p.map (Segment.fill sample new)

variable {sample : κ → σ} {new : σ}

theorem accepts_fill (hsample : ∀ k, Segment.name k ∈ q → key (sample k) = k)
    (hnew : key new ≠ blank) : accepts key blank q (fill sample new q) = true := by
  induction q with
  | nil => rfl
  | cons b qs ih =>
    have hrest := ih fun k hk => hsample k (List.mem_cons_of_mem b hk)
    refine Bool.and_eq_true_iff.mpr ⟨?_, hrest⟩
    cases b with
    | name k => exact decide_eq_true (hsample k List.mem_cons_self)
    | param => exact decide_eq_true hnew

/-- A pattern that knows nothing of the new segment accepts the path only if it covers. -/
theorem covers_of_accepts_fill (hsample : ∀ k, Segment.name k ∈ q → key (sample k) = k)
    (hnew : .name (key new) ∉ p) (h : accepts key blank p (fill sample new q) = true) :
    covers blank p q = true := by
  induction p generalizing q with
  | nil =>
    cases q with
    | nil => rfl
    | cons b qs => cases h
  | cons a ps ih =>
    cases q with
    | nil => cases h
    | cons b qs =>
      obtain ⟨ha, hps⟩ := Bool.and_eq_true_iff.mp h
      have hrest := ih (fun k hk => hsample k (List.mem_cons_of_mem b hk))
        (fun hmem => hnew (List.mem_cons_of_mem a hmem)) hps
      refine Bool.and_eq_true_iff.mpr ⟨?_, hrest⟩
      cases b with
      | name k =>
        have hk := hsample k List.mem_cons_self
        cases a with
        | name j => exact decide_eq_true ((of_decide_eq_true ha).symm.trans hk)
        | param => exact decide_eq_true (hk ▸ of_decide_eq_true ha)
      | param =>
        cases a with
        | name j =>
          obtain rfl : key new = j := of_decide_eq_true ha
          exact absurd List.mem_cons_self hnew
        | param => rfl

/-- A route that none in front of it covers is selected by the path that it is filled to. -/
theorem select_fill {pre post : List (Route κ ρ)}
    (hsample : ∀ k, Segment.name k ∈ r.pattern → key (sample k) = k) (hblank : key new ≠ blank)
    (hnew : ∀ p ∈ pre, .name (key new) ∉ p.pattern)
    (hfree : ∀ p ∈ pre, covers blank p.pattern r.pattern = false) :
    select key blank (pre ++ r :: post) (fill sample new r.pattern) = some r := by
  apply List.find?_eq_some_iff_append.mpr
  refine ⟨accepts_fill hsample hblank, pre, post, rfl, fun p hp => ?_⟩
  rw [Bool.not_eq_true', ← Bool.not_eq_true]
  intro haccepts
  have hcovers := covers_of_accepts_fill hsample (hnew p hp) haccepts
  rw [hfree p hp] at hcovers
  cases hcovers

end IotPanel.Routing
