import Mathlib.Algebra.Order.BigOperators.Group.Finset
import Mathlib.Algebra.Order.Group.Multiset
import IotPanel.Lib.Process

/-!
# What the calls contribute

A content of the shared state to which the calls contribute: each command adds as much to the
content as to the log of its call, and nothing else changes the content. Whatever the interleaving,
the content is then the initial one together with the logs of all calls, nothing twice and nothing
lost.
-/

namespace IotPanel

universe u

namespace System

variable {σ K φ η : Type u} {C : Type} {R : C → Type} {ε : Type} {M : Type*}
  [AddCancelCommMonoid M]

/-- What has to be shown of a content and of the logs of the calls. -/
structure Tally (S : System σ K φ η C R ε) (content : σ → M) (log : K → φ → M) : Prop where
  fresh : ∀ k, log k S.fresh = 0
  env : ∀ {s x s'}, S.env s x = some s' → content s' = content s
  did : ∀ {s : σ} {t : Process S} {c : C} {r : Except ε (R c)} {s' : σ},
    (S.protocol t.call).allowed t.phase c → S.execute s c r s' →
    content s' + log t.call t.phase =
      content s + log t.call ((S.protocol t.call).next t.phase c r)

variable {S : System σ K φ η C R ε} {cond : Pool σ (Process S) → CallEvent K φ η C R ε → Prop}
  {content : σ → M} {log : K → φ → M} {p q : Pool σ (Process S)} {e : CallEvent K φ η C R ε}

/-- The log of the call with the number `i`, if there is one. -/
def logOf (log : K → φ → M) (p : Pool σ (Process S)) (i : ℕ) : M :=
  (p.threads i).elim 0 fun t => log t.call t.phase

/-- The numbers of all calls. -/
def Numbers (p : Pool σ (Process S)) (ids : Finset ℕ) : Prop :=
  ∀ i, i ∈ ids ↔ (p.threads i).isSome

/-- The content is the initial one together with the logs of all calls. -/
def Balanced (content : σ → M) (log : K → φ → M) (initial : M) (p : Pool σ (Process S)) : Prop :=
  ∃ ids : Finset ℕ, Numbers p ids ∧ content p.shared = initial + ∑ i ∈ ids, logOf log p i

theorem balanced_start (s : σ) :
    Balanced content log (content s) (Pool.start s : Pool σ (Process S)) :=
  ⟨∅, fun i => by simp [Pool.start], by simp [Pool.start]⟩

theorem logOf_of_ne {i j : ℕ} {t : Process S} (hthreads : q.threads =
    Function.update p.threads i (some t)) (hj : j ≠ i) : logOf log q j = logOf log p j := by
  unfold logOf
  rw [hthreads, Function.update_of_ne hj]

theorem logOf_self {i : ℕ} {t : Process S} (hthreads : q.threads =
    Function.update p.threads i (some t)) : logOf log q i = log t.call t.phase := by
  unfold logOf
  rw [hthreads, Function.update_self]
  rfl

/-- A call that starts has contributed nothing. -/
theorem Balanced.spawn {initial : M} {i : ℕ} {k : K} (T : Tally S content log)
    (h : Balanced content log initial p) (hfree : p.threads i = none)
    (hshared : q.shared = p.shared)
    (hthreads : q.threads = Function.update p.threads i (some (Process.start S k))) :
    Balanced content log initial q := by
  obtain ⟨ids, hids, hsum⟩ := h
  have hi : i ∉ ids := by
    rw [hids, hfree]
    simp
  refine ⟨insert i ids, fun j => ?_, ?_⟩
  · rw [Finset.mem_insert, hids, hthreads]
    by_cases hj : j = i
    · subst hj
      simp
    · rw [Function.update_of_ne hj]
      simp [hj]
  · have hfresh : logOf log q i = 0 := (logOf_self hthreads).trans (T.fresh k)
    have hothers : ∑ j ∈ ids, logOf log q j = ∑ j ∈ ids, logOf log p j := by
      refine Finset.sum_congr rfl fun j hj => logOf_of_ne hthreads ?_
      rintro rfl
      exact hi hj
    rw [Finset.sum_insert hi, hfresh, zero_add, hothers, hshared, hsum]

/-- What a command adds to the content it adds to the log of its call. -/
theorem Balanced.move {initial : M} {i : ℕ} {t t' : Process S}
    (h : Balanced content log initial p) (ht : p.threads i = some t)
    (hthreads : q.threads = Function.update p.threads i (some t'))
    (hadds : content q.shared + log t.call t.phase = content p.shared + log t'.call t'.phase) :
    Balanced content log initial q := by
  obtain ⟨ids, hids, hsum⟩ := h
  have hi : i ∈ ids := by
    rw [hids, ht]
    rfl
  refine ⟨ids, fun j => ?_, ?_⟩
  · rw [hids, hthreads]
    by_cases hj : j = i
    · subst hj
      rw [ht, Function.update_self]
      simp
    · rw [Function.update_of_ne hj]
  · have hbefore := Finset.add_sum_erase ids (logOf log p) hi
    have hafter := Finset.add_sum_erase ids (logOf log q) hi
    have hothers : ∑ j ∈ ids.erase i, logOf log q j = ∑ j ∈ ids.erase i, logOf log p j :=
      Finset.sum_congr rfl fun j hj => logOf_of_ne hthreads (Finset.ne_of_mem_erase hj)
    have hself : logOf log p i = log t.call t.phase := by
      unfold logOf
      rw [ht]
      rfl
    rw [hself] at hbefore
    rw [logOf_self hthreads, hothers] at hafter
    refine add_right_cancel (b := log t.call t.phase) ?_
    calc content q.shared + log t.call t.phase
        = content p.shared + log t'.call t'.phase := hadds
      _ = initial + (log t.call t.phase + ∑ j ∈ ids.erase i, logOf log p j) +
            log t'.call t'.phase := by rw [hsum, hbefore]
      _ = initial + (log t'.call t'.phase + ∑ j ∈ ids.erase i, logOf log p j) +
            log t.call t.phase := by ac_rfl
      _ = initial + ∑ j ∈ ids, logOf log q j + log t.call t.phase := by rw [hafter]

theorem Balanced.step {initial : M} (T : Tally S content log) (h : Balanced content log initial p)
    (hs : S.Step cond p e q) : Balanced content log initial q := by
  obtain ⟨x, rfl, hx, hthreads⟩ | ⟨i, k, rfl, hfree, hshared, hthreads⟩ |
    ⟨i, t, c, k, r, hprog, ht, rfl, hexec, hthreads⟩ := step_cases hs
  · obtain ⟨ids, hids, hsum⟩ := h
    refine ⟨ids, fun i => by rw [hids, hthreads], ?_⟩
    have hlogs : logOf log q = logOf log p := by
      funext i
      unfold logOf
      rw [hthreads]
    rw [hlogs, T.env hx, hsum]
  · exact h.spawn T hfree hshared hthreads
  · exact h.move ht hthreads (T.did (t.allowed_of_await hprog) hexec)

/-- The run rule. -/
theorem balanced_of_run {s : σ} {tr : List (CallEvent K φ η C R ε)} (T : Tally S content log)
    (hr : Run (S.Step cond) (Pool.start s) tr p) : Balanced content log (content s) p :=
  hr.invariant (balanced_start s) fun h hs => h.step T hs

end System

end IotPanel
