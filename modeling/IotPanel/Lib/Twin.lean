import Mathlib.Init

/-!
# Two runs of a computation

A computation that may throw is run on each of two states. The runs agree if they throw the same
error, or return related values, and leave related states behind.
-/

namespace IotPanel

universe u

variable {ε σ α β γ δ : Type u}

/-- How two runs may end. -/
inductive Agree (S : σ → σ → Prop) (R : α → β → Prop) :
    Except ε α × σ → Except ε β × σ → Prop
  | ok {a : α} {b : β} {s t : σ} (hR : R a b) (hS : S s t) : Agree S R (.ok a, s) (.ok b, t)
  | error (e : ε) {s t : σ} (hS : S s t) : Agree S R (.error e, s) (.error e, t)

/-- The runs of `x` and `y` on the states `s` and `t` agree. -/
def Twin (S : σ → σ → Prop) (R : α → β → Prop) (x : ExceptT ε (StateM σ) α)
    (y : ExceptT ε (StateM σ) β) (s t : σ) : Prop :=
  Agree S R (x.run.run s) (y.run.run t)

namespace Agree

variable {S : σ → σ → Prop} {R : α → β → Prop} {p : Except ε α × σ} {q : Except ε β × σ}

theorem state (h : Agree S R p q) : S p.2 q.2 := by
  cases h with
  | ok _ hS => exact hS
  | error _ hS => exact hS

/-- Values that are related by equality are answered alike. -/
theorem fst_eq {p q : Except ε α × σ} (h : Agree S (fun a b => a = b) p q) : p.1 = q.1 := by
  cases h with
  | ok hab _ => exact congrArg Except.ok hab
  | error e _ => rfl

end Agree

namespace Twin

variable {S S' : σ → σ → Prop} {R : α → β → Prop} {Q : γ → δ → Prop} {s t : σ}
  {x : ExceptT ε (StateM σ) α} {y : ExceptT ε (StateM σ) β}

theorem pure {a : α} {b : β} (hR : R a b) (hS : S s t) :
    Twin S R (Pure.pure a : ExceptT ε (StateM σ) α) (Pure.pure b) s t := .ok hR hS

theorem throw (e : ε) (hS : S s t) :
    Twin S R (MonadExcept.throw e : ExceptT ε (StateM σ) α)
      (MonadExcept.throw e : ExceptT ε (StateM σ) β) s t := .error e hS

/-- The rule of sequences. More may be known of the states after the first part. -/
theorem bind_of {f : α → ExceptT ε (StateM σ) γ} {g : β → ExceptT ε (StateM σ) δ}
    (hx : Twin S' R x y s t) (hS : ∀ s' t', S' s' t' → S s' t')
    (hf : ∀ a b s' t', R a b → S' s' t' → Twin S Q (f a) (g b) s' t') :
    Twin S Q (x >>= f) (y >>= g) s t := by
  unfold Twin at hx ⊢
  rw [ExceptT.run_bind, ExceptT.run_bind, StateT.run_bind, StateT.run_bind]
  generalize x.run.run s = p at hx
  generalize y.run.run t = q at hx
  cases hx with
  | ok hR hS' => exact hf _ _ _ _ hR hS'
  | error e hS' => exact .error e (hS _ _ hS')

theorem bind {f : α → ExceptT ε (StateM σ) γ} {g : β → ExceptT ε (StateM σ) δ}
    (hx : Twin S R x y s t)
    (hf : ∀ a b s' t', R a b → S s' t' → Twin S Q (f a) (g b) s' t') :
    Twin S Q (x >>= f) (y >>= g) s t :=
  bind_of hx (fun _ _ h => h) hf

theorem map {f : α → γ} {g : β → δ} (hx : Twin S R x y s t) (hf : ∀ a b, R a b → Q (f a) (g b)) :
    Twin S Q (f <$> x) (g <$> y) s t := by
  rw [map_eq_pure_bind, map_eq_pure_bind]
  exact bind hx fun a b _ _ hab hS => pure (hf a b hab) hS

/-- Two tests that come out alike. -/
theorem ite {c d : Prop} [Decidable c] [Decidable d] {x' : ExceptT ε (StateM σ) α}
    {y' : ExceptT ε (StateM σ) β} (hcd : c ↔ d) (hx : c → Twin S R x y s t)
    (hx' : ¬ c → Twin S R x' y' s t) :
    Twin S R (if c then x else x') (if d then y else y') s t := by
  by_cases hc : c
  · rw [if_pos hc, if_pos (hcd.mp hc)]
    exact hx hc
  · rw [if_neg hc, if_neg (mt hcd.mpr hc)]
    exact hx' hc

end Twin

end IotPanel
