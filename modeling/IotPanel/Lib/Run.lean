import Mathlib.Data.List.Basic
import Mathlib.Data.Nat.Init
import Mathlib.Data.Stream.Defs

/-!
# Runs of a labelled step relation

The trace of a run lists its labels with the newest one first, so that
"the most recent step that ..." is a search from the head of the trace. A run without end is a
sequence of states and labels.
-/

namespace IotPanel

variable {σ α : Type*}

/-- `Run step s tr t`: from `s` the steps labelled `tr` (newest first) lead to `t`. -/
inductive Run (step : σ → α → σ → Prop) (s : σ) : List α → σ → Prop
  | refl : Run step s [] s
  | snoc {tr : List α} {t u : σ} {a : α} :
      Run step s tr t → step t a u → Run step s (a :: tr) u

namespace Run

variable {step step' : σ → α → σ → Prop} {s t u : σ} {tr tr' : List α} {a : α}

/-- The invariant rule, for an invariant that may speak about the trace so far. -/
theorem induct {I : List α → σ → Prop} (h0 : I [] s)
    (hstep : ∀ {tr t a u}, Run step s tr t → I tr t → step t a u → I (a :: tr) u)
    (h : Run step s tr t) : I tr t := by
  induction h with
  | refl => exact h0
  | snoc hrun hs ih => exact hstep hrun ih hs

/-- The invariant rule for a predicate on states. -/
theorem invariant {I : σ → Prop} (h0 : I s)
    (hstep : ∀ {t a u}, I t → step t a u → I u) (h : Run step s tr t) : I t :=
  h.induct (I := fun _ => I) h0 (fun _ hI hs => hstep hI hs)

theorem single (h : step s a t) : Run step s [a] t := .snoc .refl h

theorem trans (h : Run step s tr t) (h' : Run step t tr' u) : Run step s (tr' ++ tr) u := by
  induction h' with
  | refl => exact h
  | snoc _ hs ih => exact .snoc ih hs

/-- A run of a stronger step relation is a run of the weaker one. -/
theorem mono (hle : ∀ {t a u}, step t a u → step' t a u) (h : Run step s tr t) :
    Run step' s tr t := by
  induction h with
  | refl => exact .refl
  | snoc _ hs ih => exact .snoc ih (hle hs)

end Run

/-! ### Endless runs -/

variable {P : σ → Prop} {s : ℕ → σ} {n : ℕ}

/-- A measure never grows, and decreases again and again unless `P` is found. Then `P` is found. -/
theorem exists_of_descends {μ : σ → ℕ} (hle : ∀ m, n ≤ m → μ (s (m + 1)) ≤ μ (s m))
    (hlt : ∀ m, n ≤ m → ∃ k, m ≤ k ∧ (P (s k) ∨ μ (s (k + 1)) < μ (s k))) : ∃ k, P (s k) := by
  have hanti : ∀ {m k}, n ≤ m → m ≤ k → μ (s k) ≤ μ (s m) := by
    intro m k hm hk
    induction k, hk using Nat.le_induction with
    | base => exact Nat.le_refl _
    | succ k hk ih => exact Nat.le_trans (hle k (Nat.le_trans hm hk)) ih
  -- what is left to descend bounds how often it can
  have hbounded : ∀ b m, n ≤ m → μ (s m) ≤ b → ∃ k, P (s k) := by
    intro b
    induction b with
    | zero =>
      intro m hm hb
      obtain ⟨k, hk, hP | hless⟩ := hlt m hm
      · exact ⟨k, hP⟩
      · have := hanti hm hk
        omega
    | succ b ih =>
      intro m hm hb
      obtain ⟨k, hk, hP | hless⟩ := hlt m hm
      · exact ⟨k, hP⟩
      · have := hanti hm hk
        exact ih (k + 1) (by omega) (by omega)
  exact hbounded _ n (Nat.le_refl n) (Nat.le_refl _)

end IotPanel
