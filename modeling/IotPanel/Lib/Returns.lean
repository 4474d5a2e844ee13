import IotPanel.Lib.Program

/-!
# What a program returns with

Partial correctness under a protocol: only allowed commands are issued, and where the program
returns, `Q` holds of the result and of the state that it has come to. An error is no concern.
-/

namespace IotPanel

universe u

namespace Program

variable {S : Type u} {C : Type} {R : C → Type} {ε α β : Type} {P : Protocol S C R ε} {s : S}
  {x : Program C R ε α} {Q Q' : α → S → Prop}

def Returns (P : Protocol S C R ε) (Q : α → S → Prop) (x : Program C R ε α) (s : S) : Prop :=
  x.wp P (fun a t => ∀ v, a = .ok v → Q v t) s

theorem returns_pure {a : α} (h : Q a s) : (pure a : Program C R ε α).Returns P Q s := by
  intro v hv
  cases hv
  exact h

theorem returns_throw {e : ε} : (throw e : Program C R ε α).Returns P Q s := by
  intro v hv
  cases hv

theorem returns_mono (hQ : ∀ a t, Q a t → Q' a t) (h : x.Returns P Q s) : x.Returns P Q' s :=
  wp_mono (fun _ t ha v hv => hQ v t (ha v hv)) h

theorem returns_bind {f : α → Program C R ε β} {Q' : β → S → Prop} (hx : x.Returns P Q s)
    (hf : ∀ a t, Q a t → (f a).Returns P Q' t) : (x >>= f).Returns P Q' s := by
  refine wp_bind (wp_mono (fun a t ha => ?_) hx)
  cases a with
  | ok a => exact hf a t (ha a rfl)
  | error e =>
    intro v hv
    cases hv

theorem returns_perform {c : C} {Q : R c → S → Prop} (hc : P.allowed s c)
    (hQ : ∀ v, Q v (P.next s c (.ok v))) : (perform c).Returns P Q s := by
  refine ⟨hc, fun r v hv => ?_⟩
  subst hv
  exact hQ v

/-- After a part that stays where it is. -/
theorem returns_after {f : α → Program C R ε β} {Q : β → S → Prop} (hx : x.Stays P s)
    (hf : ∀ a, (f a).Returns P Q s) : (x >>= f).Returns P Q s :=
  wp_bind_of_stays hx hf fun _ _ hv => by cases hv

theorem returns_of_stays (hx : x.Stays P s) (hQ : ∀ a, Q a s) : x.Returns P Q s :=
  wp_of_stays hx fun _ v _ => hQ v

theorem returns_ite {c : Prop} [Decidable c] {y : Program C R ε α} (hx : c → x.Returns P Q s)
    (hy : ¬ c → y.Returns P Q s) : (if c then x else y).Returns P Q s := by
  by_cases hc : c
  · rw [if_pos hc]
    exact hx hc
  · rw [if_neg hc]
    exact hy hc

/-- A test before the rest of the program. -/
theorem returns_guard {c : Prop} [Decidable c] {e : ε} {f : PUnit → Program C R ε α}
    (h : ¬ c → (f ⟨⟩).Returns P Q s) :
    (if c then throw e >>= f else f ⟨⟩).Returns P Q s :=
  returns_ite (fun _ => returns_throw) h

/-- A program that follows one protocol stays where it is under another one that lets all commands
of the first one pass unnoticed. -/
theorem stays_of_wp {S' : Type u} {P' : Protocol S' C R ε} {s' : S'} {F : Except ε α → S → Prop}
    (hP : ∀ t c, P.allowed t c → P'.allowed s' c ∧ ∀ r, P'.next s' c r = s')
    (h : x.wp P F s) : x.Stays P' s' := by
  induction x generalizing s with
  | ret a => rfl
  | await c k ih =>
    obtain ⟨hallowed, hrest⟩ := h
    obtain ⟨hpass, hnext⟩ := hP s c hallowed
    refine ⟨hpass, fun r => ?_⟩
    rw [hnext r]
    exact ih r (hrest r)

/-- An error that is replaced by another one. -/
theorem returns_rethrow {e : ε} (h : x.Returns P Q s) :
    (tryCatch x fun _ => throw e).Returns P Q s := by
  refine wp_tryCatch (wp_mono (fun a t ha => ?_) h)
  cases a with
  | ok a => exact ha
  | error e =>
    intro v hv
    cases hv

end Program

end IotPanel
