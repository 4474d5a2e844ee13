import IotPanel.Session.Table

/-!
# Calls come to their end

Between two scans a call sends a bounded number of commands. So it returns if Redis answers and
its scan comes back to cursor `0`, whatever the batches are and however long Redis takes.
-/

namespace IotPanel.Session

variable {T i : ℕ} {c c' : Call} {reply : Batch} {e : Event} {p q : Pool State Task}

/-- How many commands a call sends at most, up to its next scan or to its end. -/
def Call.rest : Call → ℕ
  | .createSetSession _ _ | .extendSetSession _ _ | .destroyDelSession _ _ => 2
  | .createSetTracking _ _ | .extendSetTracking _ _ | .destroyDelTracking _ _ => 1
  | .guardGet _ => 4
  | .extendGet _ | .destroyGet _ => 3
  | .invalidateScan _ _ => 1
  | .invalidateDelSession _ _ keys _ => 2 * keys.length + 3
  | .invalidateDelTracking _ _ keys _ => 2 * keys.length + 2

theorem Call.rest_pos (c : Call) : 0 < c.rest := by
  cases c <;> simp [Call.rest]

/-- A command other than a scan leaves the call with less to do. -/
theorem rest_next {r : Redis} (hscan : ∀ u cursor, c ≠ .invalidateScan u cursor)
    (h : (c.next T r reply).2 = .inl c') : c'.rest < c.rest := by
  cases c with
  | guardGet sid | extendGet sid | destroyGet sid =>
    simp only [Call.next] at h
    cases hget : r.getSession sid <;> rw [hget] at h <;> cases h
    simp [Call.rest]
  | createSetTracking | extendSetTracking | destroyDelTracking => cases h
  | createSetSession | extendSetSession | destroyDelSession =>
    cases h
    simp [Call.rest]
  | invalidateScan u cursor => exact absurd rfl (hscan u cursor)
  | invalidateDelSession u key keys next =>
    cases h
    simp [Call.rest]
  | invalidateDelTracking u key keys next =>
    obtain ⟨rfl, -, rfl⟩ | ⟨k, rest, rfl, rfl⟩ := nextKey_eq h
    · simp [Call.rest]
    · simp [Call.rest, Nat.mul_add]

/-- Steps between the start of the call and its end. -/
abbrev NoStart : Pool State Task → Prop := fun _ => False

/-- No thread but `i` runs. -/
def Only (i : ℕ) (p : Pool State Task) : Prop := ∀ j, j ≠ i → p.threads j = none

/-- What thread `i` has left to do before its next scan. -/
def rest (i : ℕ) (p : Pool State Task) : ℕ := ((p.threads i).map fun t => t.call.rest).getD 0

theorem Only.step (h : Only i p) (hs : Pool.Step (reliable T) NoStart p e q) : Only i q := by
  intro j hj
  cases hs with
  | env henv =>
    show (p.threads j).map _ = none
    rw [h j hj]
    rfl
  | spawn _ _ hno _ => exact hno.elim
  | exec k ht hexec =>
    have hk : j ≠ k := by
      rintro rfl
      rw [h j hj] at ht
      cases ht
    rw [Pool.put_threads_of_ne hk, h j hj]
    rfl

/-- Time takes nothing off what is left to do, and a command that is no scan takes off something. -/
theorem rest_step (h : Only i p) (hs : Pool.Step (reliable T) NoStart p e q)
    (hscan : ∀ u cursor now, e ≠ .executed (.invalidateScan u cursor) now) :
    rest i q ≤ rest i p ∧ ∀ c now, e = .executed c now → rest i q < rest i p := by
  cases hs with
  | env henv =>
    obtain ⟨d, rfl, -⟩ := henv
    refine ⟨?_, by rintro c now ⟨⟩⟩
    show (((p.threads i).map _).map fun t : Task => t.call.rest).getD 0 ≤ rest i p
    rw [Option.map_map]
    exact Nat.le_refl (rest i p)
  | spawn _ _ hno _ => exact hno.elim
  | @exec s t t' k ht hexec =>
    obtain rfl : k = i := by
      by_contra hk
      rw [h k hk] at ht
      cases ht
    have hbefore : rest k p = t.call.rest := by
      rw [rest, ht]
      rfl
    obtain ⟨hexec, hreliable⟩ := hexec
    cases hexec with
    | fault => exact absurd rfl (hreliable t.call)
    | command reply hreply =>
      have hless : ∀ s, rest k (p.put (reliable T) s k
          (t.resume reply (t.call.next T p.shared.redis reply).2)) < t.call.rest := by
        intro s
        rw [rest, Pool.put_threads_self]
        cases hnext : (t.call.next T p.shared.redis reply).2 with
        | inl c' =>
          refine rest_next (fun u cursor hcall => ?_) hnext
          exact hscan u cursor _ (by rw [hcall])
        | inr res => exact t.call.rest_pos
      rw [hbefore]
      exact ⟨(hless _).le, fun _ _ _ => hless _⟩

/-! ### Scans -/

def IsScan (e : Event) : Prop := ∃ u cursor now, e = .executed (.invalidateScan u cursor) now

/-- The call is at a batch that has come with cursor `0`. -/
def Call.AtLastBatch : Call → Prop
  | .invalidateDelSession _ _ _ nextCursor | .invalidateDelTracking _ _ _ nextCursor =>
    nextCursor = "0"
  | _ => False

/-- A scan has come back to cursor `0`: if a call goes on, it is at the batch that came with it. -/
def CameBack (p : Pool State Task) : Prop := ∀ j t, p.threads j = some t → t.call.AtLastBatch

theorem Call.AtLastBatch.next {r : Redis} (h : c.AtLastBatch)
    (hnext : (c.next T r reply).2 = .inl c') : c'.AtLastBatch := by
  cases c with
  | invalidateDelSession u key keys next =>
    cases hnext
    exact h
  | invalidateDelTracking u key keys next =>
    obtain rfl : next = "0" := h
    obtain ⟨-, hne, -⟩ | ⟨k, rest, -, rfl⟩ := nextKey_eq hnext
    · exact absurd rfl hne
    · rfl
  | _ => exact h.elim

/-- There are no more scans then. -/
theorem CameBack.step (h : CameBack p) (hs : Pool.Step (reliable T) NoStart p e q) :
    CameBack q ∧ ¬ IsScan e := by
  cases hs with
  | env henv =>
    obtain ⟨d, rfl, -⟩ := henv
    refine ⟨fun j t ht => ?_, by rintro ⟨u, cursor, now, ⟨⟩⟩⟩
    obtain ⟨t', ht', rfl⟩ := Option.map_eq_some_iff.mp ht
    exact h j t' ht'
  | spawn _ _ hno _ => exact hno.elim
  | @exec s t t' k ht hexec =>
    obtain ⟨hexec, hreliable⟩ := hexec
    cases hexec with
    | fault => exact absurd rfl (hreliable t.call)
    | command reply hreply =>
      have hlast := h k t ht
      refine ⟨fun j w hw => ?_, ?_⟩
      · obtain ⟨rfl, v, hv, rfl⟩ | ⟨-, v, hv, rfl⟩ := Pool.threads_put hw
        · exact hlast.next (Task.resume_eq hv).1
        · exact h j v hv
      · rintro ⟨u, cursor, now, heq⟩
        injection heq with hcall
        rw [hcall] at hlast
        exact hlast

/-- A run without end in which no other call starts. Redis answers as long as there is a call, and
a scan that goes on and on comes back to cursor `0`. -/
structure Endless (T : ℕ) (σ : ℕ → Pool State Task) (e : ℕ → Event) : Prop where
  step : ∀ n, Pool.Step (reliable T) NoStart (σ n) (e n) (σ (n + 1))
  answers : ∀ n, ∃ m, n ≤ m ∧ ((σ m).Idle ∨ ∃ c now, e m = .executed c now)
  scans : (∀ n, ∃ m, n ≤ m ∧ IsScan (e m)) → ∃ m, IsScan (e m) ∧ CameBack (σ (m + 1))

namespace Endless

variable {σ : ℕ → Pool State Task} {e : ℕ → Event}

theorem exists_last_scan (h : Endless T σ e) : ∃ n, ∀ m, n ≤ m → ¬ IsScan (e m) := by
  by_contra hforever
  push Not at hforever
  obtain ⟨n, -, hback⟩ := h.scans hforever
  have hafter : ∀ m, n + 1 ≤ m → CameBack (σ m) := by
    intro m hm
    induction m, hm using Nat.le_induction with
    | base => exact hback
    | succ m _ ih => exact (ih.step (h.step m)).1
  obtain ⟨m, hm, hscan⟩ := hforever (n + 1)
  exact ((hafter m hm).step (h.step m)).2 hscan

/-- The call returns. -/
theorem returns (h : Endless T σ e) (honly : Only i (σ 0)) : ∃ n, (σ n).Idle := by
  have halone : ∀ n, Only i (σ n) := by
    intro n
    induction n with
    | zero => exact honly
    | succ n ih => exact ih.step (h.step n)
  obtain ⟨n, hscans⟩ := h.exists_last_scan
  have hrest : ∀ m, n ≤ m → rest i (σ (m + 1)) ≤ rest i (σ m) ∧
      ∀ c now, e m = .executed c now → rest i (σ (m + 1)) < rest i (σ m) := by
    intro m hm
    exact rest_step (halone m) (h.step m) fun u cursor now he => hscans m hm ⟨u, cursor, now, he⟩
  refine exists_of_descends (fun m hm => (hrest m hm).1) fun m hm => ?_
  obtain ⟨k, hk, hidle | ⟨c, now, he⟩⟩ := h.answers m
  · exact ⟨k, hk, .inl hidle⟩
  · exact ⟨k, hk, .inr ((hrest k (hm.trans hk)).2 c now he)⟩

end Endless

end IotPanel.Session
