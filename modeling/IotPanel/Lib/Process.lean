import IotPanel.Lib.Pool
import IotPanel.Lib.Program

/-!
# Calls that run side by side

Each call runs a program that follows a protocol; a thread of the pool is a call with its phase and
the rest of its program. One command is one step on the shared state. An outline proves an
invariant of the shared state and an assertion about each call from what one command does to them.
-/

namespace IotPanel

universe u

/-- The calls with their programs and protocols, and what the commands do. Every program follows
the protocol of its call, and has come to one of its `ends` when it is over. -/
structure System (σ K φ η : Type u) (C : Type) (R : C → Type) (ε : Type) where
  program : K → Program C R ε Unit
  protocol : K → Protocol φ C R ε
  fresh : φ
  ends : K → Except ε Unit → φ → Prop
  follows : ∀ k, (program k).wp (protocol k) (ends k) fresh
  env : σ → η → Option σ
  execute : σ → (c : C) → Except ε (R c) → σ → Prop

variable {σ K φ η : Type u} {C : Type} {R : C → Type} {ε : Type}

/-- A call, how far it has come, and the rest of its program. -/
structure Process (S : System σ K φ η C R ε) where
  call : K
  phase : φ
  prog : Program C R ε Unit
  follows : prog.wp (S.protocol call) (S.ends call) phase

namespace Process

variable {S : System σ K φ η C R ε}

def start (S : System σ K φ η C R ε) (k : K) : Process S := ⟨k, S.fresh, S.program k, S.follows k⟩

theorem allowed_of_await (t : Process S) {c : C} {k : Except ε (R c) → Program C R ε Unit}
    (h : t.prog = .await c k) : (S.protocol t.call).allowed t.phase c := by
  have hfollows := t.follows
  rw [h] at hfollows
  exact hfollows.1

/-- The call after the reply to its command. -/
def reply (t : Process S) {c : C} {k : Except ε (R c) → Program C R ε Unit}
    (h : t.prog = .await c k) (r : Except ε (R c)) : Process S where
  call := t.call
  phase := (S.protocol t.call).next t.phase c r
  prog := k r
  follows := by
    have hfollows := t.follows
    rw [h] at hfollows
    exact hfollows.2 r

/-- A call that is over has come to one of its ends. -/
theorem ends_of_ret (t : Process S) {a : Except ε Unit} (h : t.prog = .ret a) :
    S.ends t.call a t.phase := by
  have hfollows := t.follows
  rw [h] at hfollows
  exact hfollows

def Over (t : Process S) : Prop := ∃ a, t.prog = .ret a

theorem not_over_of_await (t : Process S) {c : C} {k : Except ε (R c) → Program C R ε Unit}
    (h : t.prog = .await c k) : ¬ t.Over := by
  rintro ⟨a, ha⟩
  rw [h] at ha
  cases ha

end Process

/-- What happens to the shared state from outside, a call that starts, and a command of a call. -/
inductive CallEvent (K φ η : Type u) (C : Type) (R : C → Type) (ε : Type)
  | env (x : η)
  | start (k : K)
  | did (k : K) (q : φ) (c : C) (r : Except ε (R c))

namespace System

variable (S : System σ K φ η C R ε)

def machine : Semantics σ (Process S) (CallEvent K φ η C R ε) where
  env s e s' := ∃ x, e = .env x ∧ S.env s x = some s'
  spawn s e s' t := ∃ k, e = .start k ∧ s' = s ∧ t = Process.start S k
  exec s t e s' t' := ∃ c k r, ∃ h : t.prog = .await c k,
    e = .did t.call t.phase c r ∧ S.execute s c r s' ∧ t' = some (t.reply h r)
  observe _ t := t

/-- A step that meets the condition `cond`, which may look at all calls. -/
def Step (cond : Pool σ (Process S) → CallEvent K φ η C R ε → Prop)
    (p : Pool σ (Process S)) (e : CallEvent K φ η C R ε) (q : Pool σ (Process S)) : Prop :=
  Pool.Step S.machine (fun _ => True) p e q ∧ cond p e

variable {S} {cond : Pool σ (Process S) → CallEvent K φ η C R ε → Prop}
  {p q : Pool σ (Process S)} {e : CallEvent K φ η C R ε}

theorem threads_put (p : Pool σ (Process S)) (s : σ) (i : ℕ) (t : Option (Process S)) :
    (p.put S.machine s i t).threads = Function.update p.threads i t := by
  funext j
  by_cases hj : j = i
  · subst hj
    rw [Pool.put_threads_self, Function.update_self]
    exact Option.map_id_apply
  · rw [Pool.put_threads_of_ne hj, Function.update_of_ne hj]
    exact Option.map_id_apply

/-- All that a step can be. -/
theorem step_cases (h : S.Step cond p e q) :
    (∃ x, e = .env x ∧ S.env p.shared x = some q.shared ∧ q.threads = p.threads) ∨
    (∃ i k, e = .start k ∧ p.threads i = none ∧ q.shared = p.shared ∧
      q.threads = Function.update p.threads i (some (Process.start S k))) ∨
    ∃ i t c k r, ∃ h : t.prog = .await c k, p.threads i = some t ∧ e = .did t.call t.phase c r ∧
      S.execute p.shared c r q.shared ∧
      q.threads = Function.update p.threads i (some (t.reply h r)) := by
  obtain ⟨hs, -⟩ := h
  cases hs with
  | env henv =>
    obtain ⟨x, rfl, hx⟩ := henv
    exact .inl ⟨x, rfl, hx, funext fun j => Option.map_id_apply⟩
  | spawn i hfree _ hspawn =>
    obtain ⟨k, rfl, rfl, rfl⟩ := hspawn
    exact .inr (.inl ⟨i, k, rfl, hfree, rfl, threads_put _ _ _ _⟩)
  | exec i ht hexec =>
    obtain ⟨c, k, r, hprog, rfl, hexecute, rfl⟩ := hexec
    exact .inr (.inr ⟨i, _, c, k, r, hprog, ht, rfl, hexecute, threads_put _ _ _ _⟩)

/-- A call stays in the pool. -/
theorem exists_call_of_step (h : S.Step cond p e q) {i : ℕ} {t : Process S}
    (ht : p.threads i = some t) : ∃ t', q.threads i = some t' ∧ t'.call = t.call := by
  obtain ⟨_, -, -, hthreads⟩ | ⟨j, _, -, hfree, -, hthreads⟩ |
    ⟨j, u, _, _, r, hprog, hu, -, -, hthreads⟩ := step_cases h
  · exact ⟨t, hthreads ▸ ht, rfl⟩
  · have hj : i ≠ j := by
      rintro rfl
      rw [hfree] at ht
      cases ht
    refine ⟨t, ?_, rfl⟩
    rw [hthreads, Function.update_of_ne hj, ht]
  · rw [hthreads]
    by_cases hj : i = j
    · subst hj
      rw [hu] at ht
      cases ht
      exact ⟨_, Function.update_self .., rfl⟩
    · exact ⟨t, by rw [Function.update_of_ne hj, ht], rfl⟩

/-- An invariant of the shared state and an assertion about every call, with what has to be shown
of them for one step that meets the condition. -/
structure Outline (S : System σ K φ η C R ε)
    (cond : Pool σ (Process S) → CallEvent K φ η C R ε → Prop)
    (G : σ → Prop) (A : σ → Process S → Prop) : Prop where
  env : ∀ {p x s}, G p.shared → cond p (.env x) → S.env p.shared x = some s →
    G s ∧ ∀ t, A p.shared t → A s t
  start : ∀ {p k}, G p.shared → cond p (.start k) → A p.shared (Process.start S k)
  did : ∀ {p : Pool σ (Process S)} {i t c k r s} (hprog : t.prog = .await c k), G p.shared →
    A p.shared t → p.threads i = some t → cond p (.did t.call t.phase c r) →
    S.execute p.shared c r s →
    G s ∧ A s (t.reply hprog r) ∧
      ∀ j u, j ≠ i → p.threads j = some u → A p.shared u → A s u

structure Holds (G : σ → Prop) (A : σ → Process S → Prop) (p : Pool σ (Process S)) : Prop where
  shared : G p.shared
  call : ∀ {i t}, p.threads i = some t → A p.shared t

variable {G : σ → Prop} {A : σ → Process S → Prop}

theorem holds_start {s : σ} (h : G s) : Holds G A (Pool.start s : Pool σ (Process S)) :=
  ⟨h, fun h => by cases h⟩

theorem Holds.step (O : Outline S cond G A) (h : Holds G A p) (hs : S.Step cond p e q) :
    Holds G A q := by
  obtain ⟨x, rfl, hx, hq⟩ | ⟨i, k, rfl, hfree, hq, hthreads⟩ |
    ⟨i, t, c, k, r, hprog, ht, rfl, hexec, hthreads⟩ := step_cases hs
  · obtain ⟨hG, hA⟩ := O.env h.shared hs.2 hx
    refine ⟨hG, fun {j u} hu => ?_⟩
    rw [hq] at hu
    exact hA _ (h.call hu)
  · refine ⟨hq ▸ h.shared, fun {j u} hu => ?_⟩
    rw [hq]
    rw [hthreads] at hu
    by_cases hj : j = i
    · subst hj
      rw [Function.update_self] at hu
      cases hu
      exact O.start h.shared hs.2
    · rw [Function.update_of_ne hj] at hu
      exact h.call hu
  · obtain ⟨hG, hself, hothers⟩ :=
      O.did hprog h.shared (h.call ht) ht hs.2 hexec
    refine ⟨hG, fun {j u} hu => ?_⟩
    rw [hthreads] at hu
    by_cases hj : j = i
    · subst hj
      rw [Function.update_self] at hu
      cases hu
      exact hself
    · rw [Function.update_of_ne hj] at hu
      exact hothers j u hj hu (h.call hu)

/-- The run rule. -/
theorem Holds.run (O : Outline S cond G A) {tr : List (CallEvent K φ η C R ε)}
    (h : Holds G A p) (hr : Run (S.Step cond) p tr q) : Holds G A q :=
  hr.invariant h fun hp hs => hp.step O hs

/-- A command that has been executed was allowed by the protocol of its call. -/
theorem Holds.allowed_of_mem (O : Outline S cond G A) {tr : List (CallEvent K φ η C R ε)}
    (h : Holds G A p) (hr : Run (S.Step cond) p tr q) {k : K} {x : φ} {c : C} {r : Except ε (R c)}
    (he : .did k x c r ∈ tr) :
    ∃ s t, t.call = k ∧ t.phase = x ∧ A s t ∧ (S.protocol k).allowed x c := by
  induction hr with
  | refl => exact absurd he List.not_mem_nil
  | snoc hrun hs ih =>
    rcases List.mem_cons.mp he with rfl | he
    · obtain ⟨_, heq, -⟩ | ⟨_, _, heq, -⟩ | ⟨i, t, c', k', r', hprog, ht, heq, -⟩ := step_cases hs
      · cases heq
      · cases heq
      · cases heq
        exact ⟨_, t, rfl, rfl, (h.run O hrun).call ht, t.allowed_of_await hprog⟩
    · exact ih he

/-- The next command of a call can be executed. -/
theorem exists_did {i : ℕ} {t : Process S} {c : C} {k : Except ε (R c) → Program C R ε Unit}
    {r : Except ε (R c)} {s : σ} (ht : p.threads i = some t) (hprog : t.prog = .await c k)
    (hexec : S.execute p.shared c r s) :
    ∃ q, Pool.Step S.machine (fun _ => True) p (.did t.call t.phase c r) q :=
  ⟨_, .exec i ht ⟨c, k, r, hprog, rfl, hexec, rfl⟩⟩

/-! ### Scripts -/

/-- What a scheduler does next; `o` says how a command is answered. -/
inductive Move (K η ω : Type u)
  | env (x : η)
  | start (i : ℕ) (k : K)
  | step (i : ℕ) (o : ω)

section Scripts

variable {ω : Type u}

/-- A computation of what commands do. -/
structure Oracle (S : System σ K φ η C R ε) (ω : Type u) where
  answer : ω → σ → (c : C) → Option (Except ε (R c) × σ)
  sound : ∀ {o s c r s'}, answer o s c = some (r, s') → S.execute s c r s'

/-- The event and the pool after a move, if it can be made. The calls are numbered below `n`. -/
def move (O : Oracle S ω) (n : ℕ) (p : Pool σ (Process S)) :
    Move K η ω → Option (CallEvent K φ η C R ε × Pool σ (Process S))
  | .env x => (S.env p.shared x).map fun s => (.env x, ⟨s, p.threads⟩)
  | .start i k =>
    if i < n ∧ (p.threads i).isNone then
      some (.start k, ⟨p.shared, Function.update p.threads i (some (Process.start S k))⟩)
    else none
  | .step i o => do
    let t ← p.threads i
    match h : t.prog with
    | .ret _ => none
    | .await c _ =>
      let (r, s) ← O.answer o p.shared c
      return (.did t.call t.phase c r, ⟨s, Function.update p.threads i (some (t.reply h r))⟩)

/-- The pool after all moves, if each can be made with an event that `allow` lets through. -/
def play (O : Oracle S ω) (n : ℕ) (allow : Pool σ (Process S) → CallEvent K φ η C R ε → Bool) :
    Pool σ (Process S) → List (Move K η ω) → Option (Pool σ (Process S))
  | p, [] => some p
  | p, m :: ms => do
    let (e, q) ← move O n p m
    if allow p e then play O n allow q ms else none

/-- No call has a number from `n` on. -/
def Below (n : ℕ) (p : Pool σ (Process S)) : Prop := ∀ i, n ≤ i → p.threads i = none

/-- A test for calls that are over. -/
def isOver (t : Process S) : Bool :=
  match t.prog with
  | .ret _ => true
  | .await _ _ => false

theorem over_of_test {t : Process S} (h : isOver t = true) : t.Over := by
  unfold isOver at h
  split at h
  · exact ⟨_, ‹_›⟩
  · cases h

/-- The calls are over when those below `n` are. -/
theorem over_of_below {n : ℕ} (hp : Below n p)
    (h : (List.range n).all (fun i => (p.threads i).all isOver) = true) :
    ∀ i t, p.threads i = some t → t.Over := by
  intro i t ht
  have hi : i < n := by
    by_contra hi
    rw [hp i (by omega)] at ht
    cases ht
  have htest := List.all_eq_true.mp h i (List.mem_range.mpr hi)
  rw [ht] at htest
  exact over_of_test htest

variable {O : Oracle S ω} {n : ℕ}

theorem below_start (s : σ) : Below n (Pool.start s : Pool σ (Process S)) := fun _ _ => rfl

theorem step_of_move {m : Move K η ω} (h : move O n p m = some (e, q)) :
    Pool.Step S.machine (fun _ => True) p e q := by
  have hput : ∀ s i t, (⟨s, Function.update p.threads i t⟩ : Pool σ (Process S)) =
      p.put S.machine s i t := fun s i t => by rw [← threads_put p s i t]; rfl
  cases m with
  | env x =>
    simp only [move, Option.map_eq_some_iff] at h
    obtain ⟨s, hs, heq⟩ := h
    cases heq
    -- Processes see nothing of the shared state between their commands.
    have hmap : (fun j => (p.threads j).map (S.machine.observe s)) = p.threads :=
      funext fun j => Option.map_id_apply
    have henv : Pool.Step S.machine (fun _ => True) p (.env x)
        ⟨s, fun j => (p.threads j).map (S.machine.observe s)⟩ := .env ⟨x, rfl, hs⟩
    rwa [hmap] at henv
  | start i k =>
    simp only [move] at h
    split at h
    · rename_i hfree
      cases h
      rw [hput]
      exact .spawn i (Option.isNone_iff_eq_none.mp hfree.2) trivial ⟨k, rfl, rfl, rfl⟩
    · cases h
  | step i o =>
    simp only [move, Option.bind_eq_bind, Option.bind_eq_some_iff] at h
    obtain ⟨t, ht, h⟩ := h
    split at h
    · cases h
    · rename_i c k hprog
      obtain ⟨⟨r, s⟩, hanswer, h⟩ := Option.bind_eq_some_iff.mp h
      cases h
      rw [hput]
      exact .exec i ht ⟨c, k, r, hprog, rfl, O.sound hanswer, rfl⟩

theorem below_of_move {m : Move K η ω} (hp : Below n p) (h : move O n p m = some (e, q)) :
    Below n q := by
  have hupdate : ∀ s t i, i < n →
      Below n (⟨s, Function.update p.threads i t⟩ : Pool σ (Process S)) := by
    intro s t i hi j hj
    show Function.update p.threads i t j = none
    rw [Function.update_of_ne (by omega)]
    exact hp j hj
  cases m with
  | env x =>
    simp only [move, Option.map_eq_some_iff] at h
    obtain ⟨s, hs, heq⟩ := h
    cases heq
    exact hp
  | start i k =>
    simp only [move] at h
    split at h
    · rename_i hfree
      cases h
      exact hupdate _ _ i hfree.1
    · cases h
  | step i o =>
    simp only [move, Option.bind_eq_bind, Option.bind_eq_some_iff] at h
    obtain ⟨t, ht, h⟩ := h
    -- A process that moves is in the pool already, so its number is below `n`.
    have hi : i < n := by
      by_contra hi
      rw [hp i (by omega)] at ht
      cases ht
    split at h
    · cases h
    · obtain ⟨⟨r, s⟩, hanswer, h⟩ := Option.bind_eq_some_iff.mp h
      cases h
      exact hupdate _ _ i hi

theorem run_of_play {allow : Pool σ (Process S) → CallEvent K φ η C R ε → Bool}
    {ms : List (Move K η ω)} (hallow : ∀ p e, Below n p → allow p e = true → cond p e)
    (hp : Below n p) (h : play O n allow p ms = some q) :
    (∃ tr, Run (S.Step cond) p tr q) ∧ Below n q := by
  induction ms generalizing p with
  | nil =>
    cases h
    exact ⟨⟨_, .refl⟩, hp⟩
  | cons m ms ih =>
    simp only [play, Option.bind_eq_bind, Option.bind_eq_some_iff] at h
    obtain ⟨⟨e, p'⟩, hmove, h⟩ := h
    split at h
    · rename_i he
      obtain ⟨⟨tr, hrun⟩, hq⟩ := ih (below_of_move hp hmove) h
      exact ⟨⟨_, (Run.single ⟨step_of_move hmove, hallow p e hp he⟩).trans hrun⟩, hq⟩
    · cases h

/-- A script whose events are allowed is a run, to a pool that passes the test. -/
theorem exists_run {allow : Pool σ (Process S) → CallEvent K φ η C R ε → Bool}
    {ms : List (Move K η ω)} {test : Pool σ (Process S) → Bool}
    (hallow : ∀ p e, Below n p → allow p e = true → cond p e) (hp : Below n p)
    (h : (play O n allow p ms).any test = true) :
    ∃ tr q, Run (S.Step cond) p tr q ∧ Below n q ∧ test q = true := by
  obtain ⟨q, hq, htest⟩ := (Option.any_eq_true _ _).mp h
  obtain ⟨⟨tr, hrun⟩, hbelow⟩ := run_of_play hallow hp hq
  exact ⟨tr, q, hrun, hbelow, htest⟩

end Scripts

end System

end IotPanel
