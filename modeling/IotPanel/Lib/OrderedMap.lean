import Mathlib.Data.List.Nodup

/-!
# A map that remembers the order of its keys

A key keeps the place it came to first for as long as it stays; a new value for it does not move
it. A key that left and comes again goes to the end.
-/

namespace IotPanel

structure OrderedMap (κ υ : Type*) where
  entries : List (κ × υ)
  nodup : (entries.map Prod.fst).Nodup

namespace OrderedMap

variable {κ υ : Type*}

def empty : OrderedMap κ υ := ⟨[], by simp⟩

def keys (m : OrderedMap κ υ) : List κ := m.entries.map Prod.fst

def values (m : OrderedMap κ υ) : List υ := m.entries.map Prod.snd

section Writes

variable [DecidableEq κ]

/-- The entries after `k` got the value `v`. -/
def setEntries (k : κ) (v : υ) : List (κ × υ) → List (κ × υ)
  | [] => [(k, v)]
  | e :: es => if e.1 = k then (k, v) :: es else e :: setEntries k v es

theorem keys_setEntries (k : κ) (v : υ) (es : List (κ × υ)) :
    (setEntries k v es).map Prod.fst =
      if k ∈ es.map Prod.fst then es.map Prod.fst else es.map Prod.fst ++ [k] := by
  induction es with
  | nil => simp [setEntries]
  | cons e es ih =>
    by_cases he : e.1 = k
    · simp [setEntries, he]
    · have hne : ¬ k = e.1 := Ne.symm he
      simp only [setEntries, if_neg he, List.map_cons, ih, List.mem_cons, hne, false_or]
      split <;> rfl

theorem nodup_setEntries {es : List (κ × υ)} (h : (es.map Prod.fst).Nodup) (k : κ) (v : υ) :
    ((setEntries k v es).map Prod.fst).Nodup := by
  rw [keys_setEntries]
  by_cases hk : k ∈ es.map Prod.fst
  · rwa [if_pos hk]
  · rw [if_neg hk, List.nodup_append]
    refine ⟨h, by simp, ?_⟩
    rintro a ha b hb rfl
    exact hk (List.mem_singleton.mp hb ▸ ha)

def set (m : OrderedMap κ υ) (k : κ) (v : υ) : OrderedMap κ υ :=
  ⟨setEntries k v m.entries, nodup_setEntries m.nodup k v⟩

def delete (m : OrderedMap κ υ) (k : κ) : OrderedMap κ υ where
  entries := m.entries.filter fun e => e.1 ≠ k
  nodup := m.nodup.sublist (List.filter_sublist.map _)

end Writes

variable [DecidableEq κ] {m : OrderedMap κ υ} {e : κ × υ} {k : κ} {v : υ}

@[simp]
theorem mem_delete : e ∈ (m.delete k).entries ↔ e ∈ m.entries ∧ e.1 ≠ k := by
  simp [delete]

theorem mem_setEntries {es : List (κ × υ)} (h : (es.map Prod.fst).Nodup) :
    e ∈ setEntries k v es ↔ e = (k, v) ∨ (e ∈ es ∧ e.1 ≠ k) := by
  induction es with
  | nil => simp [setEntries]
  | cons a es ih =>
    obtain ⟨ha, hes⟩ := List.nodup_cons.mp h
    by_cases hk : a.1 = k
    · -- the keys behind `a` are other ones, so that they stay
      have hrest : ∀ x ∈ es, x.1 ≠ k := by
        rintro x hx rfl
        exact ha (hk ▸ List.mem_map_of_mem hx)
      simp only [setEntries, if_pos hk, List.mem_cons]
      constructor
      · rintro (rfl | he)
        · exact .inl rfl
        · exact .inr ⟨.inr he, hrest e he⟩
      · rintro (rfl | ⟨rfl | he, hne⟩)
        · exact .inl rfl
        · exact absurd hk hne
        · exact .inr he
    · simp only [setEntries, if_neg hk, List.mem_cons, ih hes]
      constructor
      · rintro (rfl | rfl | ⟨he, hne⟩)
        · exact .inr ⟨.inl rfl, hk⟩
        · exact .inl rfl
        · exact .inr ⟨.inr he, hne⟩
      · rintro (rfl | ⟨rfl | he, hne⟩)
        · exact .inr (.inl rfl)
        · exact .inl rfl
        · exact .inr (.inr ⟨he, hne⟩)

@[simp]
theorem mem_set : e ∈ (m.set k v).entries ↔ e = (k, v) ∨ (e ∈ m.entries ∧ e.1 ≠ k) :=
  mem_setEntries m.nodup

/-- A new value for a key leaves the keys as they are, and a new key goes to the end. -/
theorem keys_set : (m.set k v).keys = if k ∈ m.keys then m.keys else m.keys ++ [k] :=
  keys_setEntries k v m.entries

theorem mem_keys_set {k' : κ} : k' ∈ (m.set k v).keys ↔ k' = k ∨ k' ∈ m.keys := by
  rw [keys_set]
  by_cases hk : k ∈ m.keys
  · rw [if_pos hk]
    refine ⟨.inr, ?_⟩
    rintro (rfl | hk')
    · exact hk
    · exact hk'
  · rw [if_neg hk, List.mem_append, List.mem_singleton, or_comm]

theorem mem_keys_delete {k' : κ} : k' ∈ (m.delete k).keys ↔ k' ≠ k ∧ k' ∈ m.keys := by
  simp only [keys, List.mem_map, mem_delete]
  constructor
  · rintro ⟨e, ⟨he, hne⟩, rfl⟩
    exact ⟨hne, e, he, rfl⟩
  · rintro ⟨hne, e, he, rfl⟩
    exact ⟨e, ⟨he, hne⟩, rfl⟩

end OrderedMap

end IotPanel
