import IotPanel.Lib.Process

/-!
# What has happened to a call

An assertion about each call and the events so far. It holds of every call along every run once it
holds of a new call, is not lost by any step, and is passed on by the commands of the call itself.
-/

namespace IotPanel

universe u

namespace System

variable {σ K φ η : Type u} {C : Type} {R : C → Type} {ε : Type}

/-- What has to be shown of an assertion `T` about the events so far, the shared state and a
call. -/
structure Recall (S : System σ K φ η C R ε)
    (cond : Pool σ (Process S) → CallEvent K φ η C R ε → Prop)
    (T : List (CallEvent K φ η C R ε) → σ → K → φ → Prop) : Prop where
  start : ∀ {tr s k}, T tr s k S.fresh
  mono : ∀ {p q : Pool σ (Process S)} {e : CallEvent K φ η C R ε} {tr k x}, S.Step cond p e q →
    T tr p.shared k x → T (e :: tr) q.shared k x
  did : ∀ {tr s} {t : Process S} {c : C} {r : Except ε (R c)} {s' : σ},
    T tr s t.call t.phase → (S.protocol t.call).allowed t.phase c → S.execute s c r s' →
    T (.did t.call t.phase c r :: tr) s' t.call ((S.protocol t.call).next t.phase c r)

variable {S : System σ K φ η C R ε} {cond : Pool σ (Process S) → CallEvent K φ η C R ε → Prop}
  {T : List (CallEvent K φ η C R ε) → σ → K → φ → Prop} {p q : Pool σ (Process S)}
  {e : CallEvent K φ η C R ε} {tr : List (CallEvent K φ η C R ε)}

def Recalls (T : List (CallEvent K φ η C R ε) → σ → K → φ → Prop)
    (tr : List (CallEvent K φ η C R ε)) (p : Pool σ (Process S)) : Prop :=
  ∀ i t, p.threads i = some t → T tr p.shared t.call t.phase

theorem Recalls.step (M : Recall S cond T) (h : Recalls T tr p) (hs : S.Step cond p e q) :
    Recalls T (e :: tr) q := by
  intro j u hu
  obtain ⟨x, -, -, hthreads⟩ | ⟨i, k, -, -, -, hthreads⟩ |
    ⟨i, t, c, k, r, hprog, ht, rfl, hexec, hthreads⟩ := step_cases hs
  · rw [hthreads] at hu
    exact M.mono hs (h j u hu)
  · rw [hthreads] at hu
    by_cases hj : j = i
    · subst hj
      rw [Function.update_self] at hu
      cases hu
      exact M.start
    · rw [Function.update_of_ne hj] at hu
      exact M.mono hs (h j u hu)
  · rw [hthreads] at hu
    by_cases hj : j = i
    · subst hj
      rw [Function.update_self] at hu
      cases hu
      exact M.did (h j t ht) (t.allowed_of_await hprog) hexec
    · rw [Function.update_of_ne hj] at hu
      exact M.mono hs (h j u hu)

/-- The run rule. -/
theorem recalls_of_run {s : σ} (M : Recall S cond T) (hr : Run (S.Step cond) (Pool.start s) tr p) :
    Recalls T tr p :=
  hr.induct (I := Recalls T) (fun _ _ h => by cases h) fun _ h hs => h.step M hs

end System

end IotPanel
