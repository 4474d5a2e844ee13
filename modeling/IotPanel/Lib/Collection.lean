import Mathlib.Data.List.Nodup

/-!
# Rows under unique indexes

A collection refuses every write after which two of its rows would agree on one of its
indexes.
-/

namespace IotPanel

structure Collection {ρ κ : Type*} (indexes : List (ρ → κ)) where
  rows : List ρ
  unique : ∀ ix ∈ indexes, (rows.map ix).Nodup

namespace Collection

variable {ρ κ : Type*} {indexes : List (ρ → κ)}

def empty : Collection indexes := ⟨[], by simp⟩

def find? (c : Collection indexes) (p : ρ → Bool) : Option ρ := c.rows.find? p

section Writes

variable [DecidableEq κ]

/-- The rows as a collection, if no index is violated. -/
def ofRows? (rows : List ρ) : Option (Collection indexes) :=
  if h : ∀ ix ∈ indexes, (rows.map ix).Nodup then some ⟨rows, h⟩ else none

def insert? (c : Collection indexes) (r : ρ) : Option (Collection indexes) :=
  ofRows? (c.rows ++ [r])

/-- Apply `f` to each row that satisfies `p`. -/
def update? (c : Collection indexes) (p : ρ → Bool) (f : ρ → ρ) : Option (Collection indexes) :=
  ofRows? (c.rows.map fun r => if p r then f r else r)

end Writes

variable {c c' : Collection indexes} {p : ρ → Bool} {f : ρ → ρ} {r x y : ρ}

theorem eq_of_key (ix : ρ → κ) (hix : ix ∈ indexes) (hx : x ∈ c.rows) (hy : y ∈ c.rows) (h : ix x = ix y) :
    x = y :=
  List.inj_on_of_nodup_map (c.unique ix hix) hx hy h

theorem mem_of_find? (h : c.find? p = some x) : x ∈ c.rows ∧ p x = true :=
  ⟨List.mem_of_find?_eq_some h, List.find?_some h⟩

/-- A row is found by any test that it passes and that fixes one of its unique keys. -/
theorem find?_of_mem (ix : ρ → κ) (hix : ix ∈ indexes) (hx : x ∈ c.rows) (hp : p x = true)
    (hkey : ∀ y, p y = true → ix y = ix x) : c.find? p = some x := by
  cases h : c.find? p with
  | none => exact absurd hp (List.find?_eq_none.mp h x hx)
  | some y =>
    obtain ⟨hy, hpy⟩ := mem_of_find? h
    rw [eq_of_key ix hix hy hx (hkey y hpy)]

theorem find?_eq_none : c.find? p = none ↔ ∀ x ∈ c.rows, p x = false := by
  simp [find?]

variable [DecidableEq κ]

theorem rows_of_ofRows? {rows : List ρ} (h : ofRows? rows = some c) :
    c.rows = rows := by
  unfold ofRows? at h
  split at h
  · cases h
    rfl
  · cases h

theorem mem_insert? (h : c.insert? r = some c') : x ∈ c'.rows ↔ x ∈ c.rows ∨ x = r := by
  rw [rows_of_ofRows? h]
  simp

theorem mem_update? (h : c.update? p f = some c') :
    x ∈ c'.rows ↔ ∃ y ∈ c.rows, (if p y then f y else y) = x := by
  rw [rows_of_ofRows? h, List.mem_map]

/-- An update of the row with a key replaces that row. -/
theorem mem_update?_of_key (ix : ρ → κ) (hix : ix ∈ indexes) (h : c.update? p f = some c')
    (hx : x ∈ c.rows) (hp : ∀ y, p y = true ↔ ix y = ix x) :
    y ∈ c'.rows ↔ (y ∈ c.rows ∧ ix y ≠ ix x) ∨ y = f x := by
  rw [mem_update? h]
  constructor
  · rintro ⟨z, hz, rfl⟩
    by_cases hkey : ix z = ix x
    · rw [if_pos ((hp z).mpr hkey), eq_of_key ix hix hz hx hkey]
      exact .inr rfl
    · rw [if_neg (mt (hp z).mp hkey)]
      exact .inl ⟨hz, hkey⟩
  · rintro (⟨hy, hkey⟩ | rfl)
    · exact ⟨y, hy, if_neg (mt (hp y).mp hkey)⟩
    · exact ⟨x, hx, if_pos ((hp x).mpr rfl)⟩

/-- An inserted row is new under each index. -/
theorem key_ne_of_insert? (ix : ρ → κ) (h : c.insert? r = some c') (hix : ix ∈ indexes)
    (hx : x ∈ c.rows) : ix x ≠ ix r := by
  have hnodup := c'.unique ix hix
  rw [rows_of_ofRows? h, List.map_append, List.nodup_append] at hnodup
  exact hnodup.2.2 _ (List.mem_map_of_mem hx) _ (by simp)

theorem insert?_isSome (h : ∀ ix ∈ indexes, ∀ x ∈ c.rows, ix x ≠ ix r) :
    (c.insert? r).isSome := by
  unfold insert? ofRows?
  rw [dif_pos]
  · rfl
  intro ix hix
  rw [List.map_append, List.nodup_append]
  refine ⟨c.unique ix hix, by simp, ?_⟩
  intro a ha b hb
  obtain ⟨x, hx, rfl⟩ := List.mem_map.mp ha
  rw [List.map_singleton, List.mem_singleton] at hb
  exact hb ▸ h ix hix x hx

/-- An update that leaves the indexed columns alone is never refused. -/
theorem update?_isSome (h : ∀ ix ∈ indexes, ∀ x, ix (f x) = ix x) : (c.update? p f).isSome := by
  unfold update? ofRows?
  rw [dif_pos]
  · rfl
  intro ix hix
  have hmap : (c.rows.map fun r => if p r then f r else r).map ix = c.rows.map ix := by
    rw [List.map_map]
    refine List.map_congr_left fun x _ => ?_
    show ix (if p x then f x else x) = ix x
    split
    · exact h ix hix x
    · rfl
  rw [hmap]
  exact c.unique ix hix

end Collection

end IotPanel
