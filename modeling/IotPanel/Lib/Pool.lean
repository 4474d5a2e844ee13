import IotPanel.Lib.Run

/-!
# Threads over a shared state

A pool runs threads that take turns at atomic steps on one shared state. A thread may carry
specification state that has to follow the shared state; `observe` refreshes it after every step.
An outline gives a shared invariant and an assertion for each thread; they hold along every run
once each thread's steps keep its own assertion and leave those of the other threads true.
-/

namespace IotPanel

/-- What the environment, a new thread and a thread's next atomic step can do. A step of a
thread leads to the thread's next state, or to `none` when the thread ends. -/
structure Semantics (σ τ ε : Type*) where
  env : σ → ε → σ → Prop
  spawn : σ → ε → σ → τ → Prop
  exec : σ → τ → ε → σ → Option τ → Prop
  observe : σ → τ → τ

/-- The threads only take the steps that `C` allows. -/
def Semantics.restrict {σ τ ε : Type*} (M : Semantics σ τ ε) (C : σ → τ → ε → Prop) :
    Semantics σ τ ε :=
  { M with exec := fun s t e s' t' => M.exec s t e s' t' ∧ C s t e }

structure Pool (σ τ : Type*) where
  shared : σ
  threads : ℕ → Option τ

namespace Pool

variable {σ τ ε : Type*} {M : Semantics σ τ ε}

/-- No thread is running. -/
def Idle (p : Pool σ τ) : Prop := ∀ i, p.threads i = none

def start (s : σ) : Pool σ τ := ⟨s, fun _ => none⟩

theorem idle_start (s : σ) : (start s : Pool σ τ).Idle := fun _ => rfl

/-- The pool after a step to `s` that leaves thread `i` in state `t`. -/
def put (M : Semantics σ τ ε) (p : Pool σ τ) (s : σ) (i : ℕ) (t : Option τ) : Pool σ τ :=
  ⟨s, fun j => (if j = i then t else p.threads j).map (M.observe s)⟩

variable {p q : Pool σ τ} {s : σ} {i j : ℕ} {t : Option τ} {u : τ} {e : ε}

@[simp] theorem put_shared : (p.put M s i t).shared = s := rfl

@[simp] theorem put_threads_self : (p.put M s i t).threads i = t.map (M.observe s) := by
  simp [put]

theorem put_threads_of_ne (h : j ≠ i) :
    (p.put M s i t).threads j = (p.threads j).map (M.observe s) := by
  simp [put, h]

/-- A thread found after a step is the one that moved or was there before. -/
theorem threads_put {w : τ} (h : (p.put M s i t).threads j = some w) :
    (j = i ∧ ∃ v, t = some v ∧ w = M.observe s v) ∨
      (j ≠ i ∧ ∃ v, p.threads j = some v ∧ w = M.observe s v) := by
  by_cases hj : j = i
  · subst hj
    rw [put_threads_self, Option.map_eq_some_iff] at h
    obtain ⟨v, hv, rfl⟩ := h
    exact .inl ⟨rfl, v, hv, rfl⟩
  · rw [put_threads_of_ne hj, Option.map_eq_some_iff] at h
    obtain ⟨v, hv, rfl⟩ := h
    exact .inr ⟨hj, v, hv, rfl⟩

/-- One step of the pool. New threads start only when `admits` lets them. -/
inductive Step (M : Semantics σ τ ε) (admits : Pool σ τ → Prop) :
    Pool σ τ → ε → Pool σ τ → Prop
  | env {p : Pool σ τ} {e : ε} {s : σ} (h : M.env p.shared e s) :
      Step M admits p e ⟨s, fun j => (p.threads j).map (M.observe s)⟩
  | spawn {p : Pool σ τ} {e : ε} {s : σ} {t : τ} (i : ℕ) (hfree : p.threads i = none)
      (hadmits : admits p) (h : M.spawn p.shared e s t) : Step M admits p e (p.put M s i (some t))
  | exec {p : Pool σ τ} {e : ε} {s : σ} {t : τ} {t' : Option τ} (i : ℕ)
      (ht : p.threads i = some t) (h : M.exec p.shared t e s t') :
      Step M admits p e (p.put M s i t')

theorem Step.of_restrict {C : σ → τ → ε → Prop} {admits : Pool σ τ → Prop}
    (h : Step (M.restrict C) admits p e q) : Step M admits p e q := by
  cases h with
  | env h => exact .env h
  | spawn i hfree hadmits h => exact .spawn i hfree hadmits h
  | exec i ht h => exact .exec i ht h.1

theorem Step.restrict {C : σ → τ → ε → Prop} {admits : Pool σ τ → Prop}
    (h : Step M admits p e q) (hC : ∀ t, C p.shared t e) : Step (M.restrict C) admits p e q := by
  cases h with
  | env h => exact .env h
  | spawn i hfree hadmits h => exact .spawn i hfree hadmits h
  | exec i ht h => exact .exec i ht ⟨h, hC _⟩

/-- A shared invariant `G`, an assertion `L` for each thread and an exclusion `X` between any two
threads, with what has to be shown of them for one step. -/
structure Outline (M : Semantics σ τ ε) (G : σ → Prop) (L : σ → τ → Prop) (X : τ → τ → Prop) :
    Prop where
  symm : ∀ {t u}, X t u → X u t
  observe : ∀ {s t u}, X t u → X (M.observe s t) (M.observe s u)
  env : ∀ {s e s'}, G s → M.env s e s' → G s' ∧ ∀ u, L s u → L s' (M.observe s' u)
  spawn : ∀ {s e s' t}, G s → M.spawn s e s' t →
    G s' ∧ L s' (M.observe s' t) ∧ ∀ u, L s u → L s' (M.observe s' u) ∧ X t u
  exec : ∀ {s t e s' t'}, G s → L s t → M.exec s t e s' t' →
    G s' ∧ (∀ w ∈ t', L s' (M.observe s' w)) ∧
      ∀ u, L s u → X t u → L s' (M.observe s' u) ∧ ∀ w ∈ t', X w u

/-- Fewer steps of the threads keep the same outline. -/
theorem Outline.restrict {G : σ → Prop} {L : σ → τ → Prop} {X : τ → τ → Prop}
    (O : Outline M G L X) (C : σ → τ → ε → Prop) : Outline (M.restrict C) G L X where
  symm := O.symm
  observe := O.observe
  env := O.env
  spawn := O.spawn
  exec hG hL h := O.exec hG hL h.1

/-- An outline with one more invariant of the shared state. -/
theorem Outline.strengthen {G J : σ → Prop} {L : σ → τ → Prop} {X : τ → τ → Prop}
    (O : Outline M G L X) (henv : ∀ {s e s'}, G s → J s → M.env s e s' → J s')
    (hspawn : ∀ {s e s' t}, G s → J s → M.spawn s e s' t → J s')
    (hexec : ∀ {s t e s' t'}, G s → L s t → J s → M.exec s t e s' t' → J s') :
    Outline M (fun s => G s ∧ J s) L X where
  symm := O.symm
  observe := O.observe
  env hG h := ⟨⟨(O.env hG.1 h).1, henv hG.1 hG.2 h⟩, (O.env hG.1 h).2⟩
  spawn hG h := ⟨⟨(O.spawn hG.1 h).1, hspawn hG.1 hG.2 h⟩, (O.spawn hG.1 h).2⟩
  exec hG hL h := ⟨⟨(O.exec hG.1 hL h).1, hexec hG.1 hL hG.2 h⟩, (O.exec hG.1 hL h).2⟩

/-- The outline holds of every thread of the pool. -/
structure Holds (G : σ → Prop) (L : σ → τ → Prop) (X : τ → τ → Prop) (p : Pool σ τ) : Prop where
  shared : G p.shared
  thread : ∀ {i t}, p.threads i = some t → L p.shared t
  apart : ∀ {i j t u}, p.threads i = some t → p.threads j = some u → i ≠ j → X t u

variable {G : σ → Prop} {L : σ → τ → Prop} {X : τ → τ → Prop} {admits : Pool σ τ → Prop}

theorem holds_start (h : G s) : Holds G L X (start s : Pool σ τ) where
  shared := h
  thread h := by cases h
  apart h := by cases h

/-- A step that puts a thread at `i` keeps the outline, given what it owes each other thread. -/
theorem Holds.put (O : Outline M G L X) (h : Holds G L X p) {s' : σ} (hG : G s')
    (hself : ∀ w ∈ t, L s' (M.observe s' w))
    (hothers : ∀ {j u}, j ≠ i → p.threads j = some u →
      L s' (M.observe s' u) ∧ ∀ w ∈ t, X w u) :
    Holds G L X (p.put M s' i t) where
  shared := hG
  thread {j w} hw := by
    obtain ⟨rfl, v, hv, rfl⟩ | ⟨hj, v, hv, rfl⟩ := threads_put hw
    · exact hself v hv
    · exact (hothers hj hv).1
  apart {j k v w} hv hw hne := by
    obtain ⟨rfl, v', hv', rfl⟩ | ⟨hj, v', hv', rfl⟩ := threads_put hv
    · obtain ⟨rfl, _⟩ | ⟨hk, w', hw', rfl⟩ := threads_put hw
      · exact absurd rfl hne
      · exact O.observe ((hothers hk hw').2 v' hv')
    · obtain ⟨rfl, w', hw', rfl⟩ | ⟨hk, w', hw', rfl⟩ := threads_put hw
      · exact O.observe (O.symm ((hothers hj hv').2 w' hw'))
      · exact O.observe (h.apart hv' hw' hne)

/-- One step keeps the outline. -/
theorem Holds.step (O : Outline M G L X) (h : Holds G L X p) (hs : Step M admits p e q) :
    Holds G L X q := by
  cases hs with
  | env henv =>
    obtain ⟨hG, hL⟩ := O.env h.shared henv
    refine ⟨hG, fun hw => ?_, fun hv hw hne => ?_⟩
    · obtain ⟨w', hw', rfl⟩ := Option.map_eq_some_iff.mp hw
      exact hL _ (h.thread hw')
    · obtain ⟨v', hv', rfl⟩ := Option.map_eq_some_iff.mp hv
      obtain ⟨w', hw', rfl⟩ := Option.map_eq_some_iff.mp hw
      exact O.observe (h.apart hv' hw' hne)
  | spawn i hfree _ hspawn =>
    obtain ⟨hG, hL, hothers⟩ := O.spawn h.shared hspawn
    refine h.put O hG (fun w hw => ?_) (fun {j u} _ hu => ?_)
    · cases hw
      exact hL
    · obtain ⟨hLu, hX⟩ := hothers u (h.thread hu)
      refine ⟨hLu, fun w hw => ?_⟩
      cases hw
      exact hX
  | exec i ht hexec =>
    obtain ⟨hG, hL, hothers⟩ := O.exec h.shared (h.thread ht) hexec
    exact h.put O hG hL fun {j u} hj hu => hothers u (h.thread hu) (h.apart ht hu hj.symm)

/-- An outline that holds at the start holds along every run. -/
theorem Holds.run (O : Outline M G L X) {tr : List ε} (h : Holds G L X p)
    (hr : Run (Step M admits) p tr q) : Holds G L X q :=
  hr.invariant h fun hp hs => hp.step O hs

/-! ### One thread at a time -/

/-- At most one thread runs, and `I` holds of the shared state and that thread. -/
inductive Solo (I : σ → Option τ → Prop) (p : Pool σ τ) : Prop
  | idle (hidle : p.Idle) (h : I p.shared none)
  | busy {t : τ} (i : ℕ) (ht : p.threads i = some t) (halone : ∀ j, j ≠ i → p.threads j = none)
      (h : I p.shared (some t))

/-- An invariant of runs in which a thread starts only when no thread runs, relative to an
outline `G`, `L`. It may speak about the trace. -/
structure Sequential (M : Semantics σ τ ε) (G : σ → Prop) (L : σ → τ → Prop)
    (I : List ε → σ → Option τ → Prop) : Prop where
  env : ∀ (tr) {s t e s'}, G s → (∀ w ∈ t, L s w) → I tr s t → M.env s e s' →
    I (e :: tr) s' (t.map (M.observe s'))
  spawn : ∀ (tr) {s t e s'}, G s → I tr s none → M.spawn s e s' t →
    I (e :: tr) s' (some (M.observe s' t))
  exec : ∀ (tr) {s t e s' t'}, G s → L s t → I tr s (some t) → M.exec s t e s' t' →
    I (e :: tr) s' (t'.map (M.observe s'))

theorem Solo.of_idle {I : σ → Option τ → Prop} (h : Solo I p) (hidle : p.Idle) :
    I p.shared none := by
  cases h with
  | idle _ h => exact h
  | busy i ht _ _ => rw [hidle i] at ht; cases ht

theorem Solo.put {I : σ → Option τ → Prop} {s' : σ} (halone : ∀ j, j ≠ i → p.threads j = none)
    (h : I s' (t.map (M.observe s'))) : Solo I (p.put M s' i t) := by
  have hrest : ∀ j, j ≠ i → (p.put M s' i t).threads j = none := fun j hj => by
    rw [put_threads_of_ne hj, halone j hj]
    rfl
  cases t with
  | none =>
    refine .idle (fun j => ?_) h
    by_cases hj : j = i
    · subst hj
      exact put_threads_self
    · exact hrest j hj
  | some w => exact .busy i put_threads_self hrest h

theorem Solo.step {I : List ε → σ → Option τ → Prop} {tr : List ε}
    (S : Sequential M G L I) (hp : Holds G L X p) (h : Solo (I tr) p)
    (hs : Step M Idle p e q) : Solo (I (e :: tr)) q := by
  cases hs with
  | env henv =>
    cases h with
    | idle hidle h =>
      refine .idle (fun j => ?_) (S.env tr hp.shared (by simp) h henv)
      simp [hidle j]
    | @busy t i ht halone h =>
      have hL : ∀ w ∈ some t, L p.shared w := by
        rintro w ⟨⟩
        exact hp.thread ht
      refine .busy i ?_ (fun j hj => ?_) (S.env tr hp.shared hL h henv)
      · simp [ht]
      · simp [halone j hj]
  | spawn i _ hidle hspawn =>
    exact .put (fun j _ => hidle j) (S.spawn tr hp.shared (h.of_idle hidle) hspawn)
  | exec i ht hexec =>
    cases h with
    | idle hidle _ => rw [hidle i] at ht; cases ht
    | busy k hk halone h =>
      have hik : i = k := by
        by_contra hne
        rw [halone i hne] at ht
        cases ht
      subst hik
      rw [ht] at hk
      cases hk
      exact .put halone (S.exec tr hp.shared (hp.thread ht) h hexec)

/-- A sequential invariant that holds at the start holds along every sequential run. -/
theorem Solo.run {I : List ε → σ → Option τ → Prop} {tr : List ε}
    (O : Outline M G L X) (S : Sequential M G L I) (hp : Holds G L X p) (h : Solo (I []) p)
    (hr : Run (Step M Idle) p tr q) : Solo (I tr) q :=
  hr.induct (I := fun tr p => Solo (I tr) p) h fun hr' h hs => h.step S (hp.run O hr') hs

end Pool

end IotPanel
