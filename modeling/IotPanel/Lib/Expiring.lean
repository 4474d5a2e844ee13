import Mathlib.Data.Nat.Notation

/-!
# A key-value store whose entries expire

Reads are always made at a time, so expiry needs no step of its own: an entry
that is not live at the time of the read reads as absent.
-/

namespace IotPanel

structure Entry (V : Type*) where
  value : V
  expiresAt : ℕ
  deriving DecidableEq

/-- A store maps a key to the entry last written under it. -/
def Store (K V : Type*) := K → Option (Entry V)

namespace Store

variable {K V : Type*} [DecidableEq K] {s : Store K V} {k k' : K} {v : V} {t t' now ttl : ℕ}

def empty : Store K V := fun _ => none

/-- What a read of `k` at time `t` returns. -/
def get (s : Store K V) (t : ℕ) (k : K) : Option V :=
  match s k with
  | some e => if t < e.expiresAt then some e.value else none
  | none => none

/-- Write `v` under `k` at time `now`, to live for `ttl`. -/
def setex (s : Store K V) (now : ℕ) (k : K) (v : V) (ttl : ℕ) : Store K V :=
  fun k' => if k' = k then some ⟨v, now + ttl⟩ else s k'

def del (s : Store K V) (k : K) : Store K V := fun k' => if k' = k then none else s k'

omit [DecidableEq K] in
theorem get_eq_some : s.get t k = some v ↔ ∃ e, s k = some e ∧ t < e.expiresAt ∧ e.value = v := by
  unfold get
  cases hk : s k with
  | none => simp
  | some e =>
    by_cases ht : t < e.expiresAt
    · simp [ht]
    · simp [ht]

omit [DecidableEq K] in
/-- What is live at a later time is live now, with the same value. -/
theorem get_of_le (hle : t ≤ t') (h : s.get t' k = some v) : s.get t k = some v := by
  obtain ⟨e, hk, ht, hv⟩ := get_eq_some.mp h
  exact get_eq_some.mpr ⟨e, hk, by omega, hv⟩

@[simp] theorem get_del_self : (s.del k).get t k = none := by
  simp [get, del]

/-- From `now` on, `k'` is readable whenever `k` is: the key `k'` expires no
earlier than `k`. -/
def Outlives (s : Store K V) (now : ℕ) (k k' : K) : Prop :=
  ∀ t, now ≤ t → (s.get t k).isSome → (s.get t k').isSome

end Store

end IotPanel
