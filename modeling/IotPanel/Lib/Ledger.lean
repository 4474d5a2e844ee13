import IotPanel.Lib.Run

/-!
# What a trace has written

The steps of a system write cells of its state, each step some of them. What a cell holds after a
run is what the newest step to write it has left there.
-/

namespace IotPanel

variable {σ α κ β : Type*} {step : σ → α → σ → Prop} {cell : σ → κ → β} {writes : α → κ → Option β}
  {s t : σ} {tr : List α}

/-- A run has gone through what it has before its last steps. -/
theorem Run.before {later : List α} (h : Run step s (later ++ tr) t) : ∃ u, Run step s tr u := by
  induction later generalizing t with
  | nil => exact ⟨t, h⟩
  | cons a later ih =>
    cases h with
    | snoc h _ => exact ih h

/-- What the newest step to write a cell has left there. -/
def lastWrite (writes : α → κ → Option β) (tr : List α) (k : κ) : Option β :=
  tr.findSome? fun a => writes a k

/-- Every step leaves what it does not write. -/
def Writes (step : σ → α → σ → Prop) (cell : σ → κ → β) (writes : α → κ → Option β) : Prop :=
  ∀ ⦃s a t⦄, step s a t → ∀ k, cell t k = (writes a k).getD (cell s k)

theorem Writes.cell_eq (h : Writes step cell writes) (hrun : Run step s tr t) (k : κ) :
    cell t k = (lastWrite writes tr k).getD (cell s k) := by
  induction hrun with
  | refl => rfl
  | @snoc tr t u a hrun hstep ih =>
    rw [h hstep k, ih, lastWrite, lastWrite, List.findSome?_cons]
    cases writes a k <;> rfl

end IotPanel
