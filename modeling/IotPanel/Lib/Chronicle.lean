import IotPanel.Lib.Pool

/-!
# What a run has left behind

Assertions about the past of a pool: what the shared state owes to the events so far, and what
each thread owes to them. They are carried along every run that keeps an outline.
-/

namespace IotPanel

variable {σ τ ε : Type*}

/-- What a step does to the shared state, whichever thread takes it. -/
inductive Semantics.Moves (M : Semantics σ τ ε) (s : σ) (e : ε) (s' : σ) : Prop
  | env (h : M.env s e s')
  | spawn {t : τ} (h : M.spawn s e s' t)
  | exec {t : τ} {t' : Option τ} (h : M.exec s t e s' t')

namespace Pool

/-- What has to be shown for one step of `J`, about the events and the shared state, and `K`, about
the events, the shared state and a thread. A thread that does not move must keep `K`. -/
structure Chronicle (M : Semantics σ τ ε) (G : σ → Prop) (L : σ → τ → Prop)
    (J : List ε → σ → Prop) (K : List ε → σ → τ → Prop) : Prop where
  keep : ∀ {tr s e s' u}, M.Moves s e s' → K tr s u → K (e :: tr) s' (M.observe s' u)
  env : ∀ {tr s e s'}, G s → J tr s → M.env s e s' → J (e :: tr) s'
  spawn : ∀ {tr s e s' t}, G s → J tr s → M.spawn s e s' t →
    J (e :: tr) s' ∧ K (e :: tr) s' (M.observe s' t)
  exec : ∀ {tr s t e s' t'}, G s → L s t → J tr s → K tr s t → M.exec s t e s' t' →
    J (e :: tr) s' ∧ ∀ w ∈ t', K (e :: tr) s' (M.observe s' w)

/-- The assertions hold of the shared state and of every thread. -/
structure Tells (J : List ε → σ → Prop) (K : List ε → σ → τ → Prop) (tr : List ε)
    (p : Pool σ τ) : Prop where
  shared : J tr p.shared
  thread : ∀ {i t}, p.threads i = some t → K tr p.shared t

variable {M : Semantics σ τ ε} {G : σ → Prop} {L : σ → τ → Prop} {X : τ → τ → Prop}
  {J : List ε → σ → Prop} {K : List ε → σ → τ → Prop} {admits : Pool σ τ → Prop}
  {p q : Pool σ τ} {e : ε} {tr tr' : List ε} {s s' : σ} {t : Option τ}

theorem tells_start (h : J tr s) : Tells J K tr (start s : Pool σ τ) where
  shared := h
  thread h := by cases h

theorem Tells.put (C : Chronicle M G L J K) (h : Tells J K tr p) {i : ℕ}
    (hmoves : M.Moves p.shared e s') (hJ : J (e :: tr) s')
    (hself : ∀ w ∈ t, K (e :: tr) s' (M.observe s' w)) :
    Tells J K (e :: tr) (p.put M s' i t) where
  shared := hJ
  thread {j w} hw := by
    obtain ⟨_, v, hv, rfl⟩ | ⟨_, v, hv, rfl⟩ := threads_put hw
    · exact hself v hv
    · exact C.keep hmoves (h.thread hv)

theorem Tells.step (C : Chronicle M G L J K) (hp : Holds G L X p) (h : Tells J K tr p)
    (hs : Step M admits p e q) : Tells J K (e :: tr) q := by
  cases hs with
  | env henv =>
    refine ⟨C.env hp.shared h.shared henv, fun hw => ?_⟩
    obtain ⟨v, hv, rfl⟩ := Option.map_eq_some_iff.mp hw
    exact C.keep (.env henv) (h.thread hv)
  | spawn i _ _ hspawn =>
    obtain ⟨hJ, hself⟩ := C.spawn hp.shared h.shared hspawn
    refine h.put C (.spawn hspawn) hJ fun w hw => ?_
    cases hw
    exact hself
  | exec i ht hexec =>
    obtain ⟨hJ, hself⟩ := C.exec hp.shared (hp.thread ht) h.shared (h.thread ht) hexec
    exact h.put C (.exec hexec) hJ hself

/-- What the events so far tell of a pool, they tell of it after every further run. -/
theorem Tells.run (C : Chronicle M G L J K) (O : Outline M G L X) (hp : Holds G L X p)
    (h : Tells J K tr p) (hr : Run (Step M admits) p tr' q) : Tells J K (tr' ++ tr) q :=
  hr.induct (I := fun ev q => Tells J K (ev ++ tr) q) h fun hrun hq hs =>
    hq.step C (hp.run O hrun) hs

end Pool

end IotPanel
