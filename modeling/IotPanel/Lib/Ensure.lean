import Mathlib.Data.List.Infix

/-!
# Adding what is missing

A list of things is wanted, one after the other, and each is added unless something is there that
will do. Work that was cut short can be begun again from the start: what the first attempt has
added is found by the second one.
-/

namespace IotPanel

variable {ρ : Type*}

/-- What will do, and the row that is added if nothing does. -/
structure Wanted (ρ : Type*) where
  found : ρ → Bool
  row : ρ
  found_row : found row = true

def ensure (rows : List ρ) (w : Wanted ρ) : List ρ :=
  if rows.any w.found then rows else rows ++ [w.row]

def ensureAll (rows : List ρ) (ws : List (Wanted ρ)) : List ρ := ws.foldl ensure rows

variable {rows rows' : List ρ} {w : Wanted ρ} {ws vs : List (Wanted ρ)}

@[simp]
theorem ensureAll_cons : ensureAll rows (w :: ws) = ensureAll (ensure rows w) ws := rfl

theorem ensureAll_append : ensureAll rows (ws ++ vs) = ensureAll (ensureAll rows ws) vs :=
  List.foldl_append

theorem prefix_ensure (rows : List ρ) (w : Wanted ρ) : rows <+: ensure rows w := by
  unfold ensure
  split
  · exact List.prefix_rfl
  · exact List.prefix_append _ _

theorem any_ensure (rows : List ρ) (w : Wanted ρ) : (ensure rows w).any w.found = true := by
  unfold ensure
  split
  · assumption
  · simp [w.found_row]

theorem prefix_ensureAll (rows : List ρ) (ws : List (Wanted ρ)) : rows <+: ensureAll rows ws := by
  induction ws generalizing rows with
  | nil => exact List.prefix_rfl
  | cons w ws ih => exact (prefix_ensure rows w).trans (ih (ensure rows w))

theorem any_of_prefix {p : ρ → Bool} (h : rows <+: rows') (hany : rows.any p = true) :
    rows'.any p = true := by
  obtain ⟨r, hr, hp⟩ := List.any_eq_true.mp hany
  exact List.any_eq_true.mpr ⟨r, h.subset hr, hp⟩

/-- Everything that was wanted is there in the end. -/
theorem any_ensureAll (h : w ∈ ws) : (ensureAll rows ws).any w.found = true := by
  induction ws generalizing rows with
  | nil => exact absurd h List.not_mem_nil
  | cons v ws ih =>
    rcases List.mem_cons.mp h with rfl | h
    · exact any_of_prefix (prefix_ensureAll _ ws) (any_ensure rows w)
    · exact ih h

theorem ensureAll_of_any (h : ∀ w ∈ ws, rows.any w.found = true) : ensureAll rows ws = rows := by
  induction ws with
  | nil => rfl
  | cons w ws ih =>
    rw [ensureAll_cons, ensure, if_pos (h w (by simp))]
    exact ih fun v hv => h v (by simp [hv])

/-- Nothing is added if and only if everything is there. -/
theorem ensureAll_eq_self_iff : ensureAll rows ws = rows ↔ ∀ w ∈ ws, rows.any w.found = true := by
  constructor
  · intro h w hw
    rw [← h]
    exact any_ensureAll hw
  · exact ensureAll_of_any

/-- The work is begun again after a part of it was done. -/
theorem ensureAll_of_prefix (h : vs <+: ws) : ensureAll (ensureAll rows vs) ws = ensureAll rows ws := by
  obtain ⟨rest, rfl⟩ := h
  rw [ensureAll_append, ensureAll_append, ensureAll_of_any fun w hw => any_ensureAll hw]

/-- Some of the work has been done, from the start. -/
def Partly (ws : List (Wanted ρ)) (rows rows' : List ρ) : Prop :=
  ∃ vs, vs <+: ws ∧ rows' = ensureAll rows vs

theorem Partly.refl : Partly ws rows rows := ⟨[], List.nil_prefix, rfl⟩

theorem Partly.cons (h : Partly ws (ensure rows w) rows') : Partly (w :: ws) rows rows' := by
  obtain ⟨vs, hvs, rfl⟩ := h
  exact ⟨w :: vs, (List.prefix_cons_inj w).mpr hvs, rfl⟩

theorem Partly.trans {rows'' : List ρ} (h : Partly ws rows rows') (h' : Partly ws rows' rows'') :
    Partly ws rows rows'' := by
  obtain ⟨vs, hvs, rfl⟩ := h
  obtain ⟨us, hus, rfl⟩ := h'
  rcases List.prefix_or_prefix_of_prefix hvs hus with hle | hle
  · exact ⟨us, hus, ensureAll_of_prefix hle⟩
  · exact ⟨vs, hvs, ensureAll_of_any fun w hw => any_ensureAll (hle.subset hw)⟩

theorem Partly.ensureAll_eq (h : Partly ws rows rows') : ensureAll rows' ws = ensureAll rows ws := by
  obtain ⟨vs, hvs, rfl⟩ := h
  exact ensureAll_of_prefix hvs

end IotPanel
