import IotPanel.Users.Roles

/-!
# The roles of active users

A user has some roles, each one of the enumeration. The class of the bodies for the role routes
demands that of a list; those of a creation and of an update take any list.
-/

namespace IotPanel.Users

open UsersService AuthService
open ClassValidator (validate Property)

/-- The value is a role of the enumeration. -/
def IsRole (v : Json) : Prop := ∃ r : Role, v = r.json

def WellFormedRoles (roles : List Json) : Prop := roles ≠ [] ∧ ∀ v ∈ roles, IsRole v

def RolesOk (w : World) : Prop :=
  ∀ u ∈ w.users.rows, u.isActive = true → WellFormedRoles u.roles

/-- The roles that a creation or an update brings are well formed. -/
def BringsRoles (req : Request) : Prop :=
  match req.route with
  | .create => WellFormedRoles (CreateUserDto.ofBody req.body).roles
  | .updateProfile | .update _ => ∀ roles ∈ listOf req.body "roles", WellFormedRoles roles
  | _ => True

variable {fmt : Formats} {b : Bcrypt} {w w' : World} {req : Request} {u : User}
  {roles added : List Json}

theorem wellFormedRoles_default : WellFormedRoles defaultRoles := by
  refine ⟨by simp [defaultRoles], fun v hv => ⟨.viewer, ?_⟩⟩
  exact List.mem_singleton.mp hv

/-- Merging drops nothing but what is there already. -/
theorem mergeRoles_ne_nil (h : roles ≠ []) : mergeRoles roles added ≠ [] := by
  have hfold : ∀ (l acc : List Json), acc ≠ [] →
      l.foldl (fun acc r => if includes acc r then acc else acc ++ [r]) acc ≠ [] := by
    intro l
    induction l with
    | nil => exact fun acc hacc => hacc
    | cons r rs ih =>
      intro acc hacc
      refine ih _ ?_
      dsimp only
      split
      · exact hacc
      · simp
  cases roles with
  | nil => exact absurd rfl h
  | cons r rs => exact hfold _ [r] (by simp)

theorem WellFormedRoles.merge (h : WellFormedRoles roles) (hadded : ∀ v ∈ added, IsRole v) :
    WellFormedRoles (mergeRoles roles added) := by
  refine ⟨mergeRoles_ne_nil h.1, fun v hv => ?_⟩
  obtain hv | hv := mem_mergeRoles.mp hv
  · exact h.2 v hv
  · exact hadded v hv

theorem WellFormedRoles.without (h : WellFormedRoles roles)
    (hne : withoutRoles roles added ≠ []) : WellFormedRoles (withoutRoles roles added) :=
  ⟨hne, fun v hv => h.2 v (List.mem_of_mem_filter hv)⟩

/-! ### Bodies of the role routes -/

theorem isRole_of_isEnum {v : Json}
    (h : ClassValidator.isEnum (Role.all.map Role.value) (some v) = true) : IsRole v := by
  cases v with
  | str s =>
    obtain ⟨r, -, hr⟩ := List.mem_map.mp (List.contains_iff_mem.mp h)
    exact ⟨r, by rw [Role.json, hr]⟩
  | _ => cases h

theorem exists_arr_of_ofArray {test : List Json → Bool} {v : JsVal} (h : ofArray test v = true) :
    ∃ xs, v = some (.arr xs) ∧ test xs = true := by
  unfold ofArray at h
  split at h
  · exact ⟨_, rfl, h⟩
  · cases h

/-- A body that the class of the role routes accepts brings roles. -/
theorem wellFormedRoles_of_validate {body : Json} (h : validate assignRolesDto body = true) :
    WellFormedRoles ((listOf body "roles").getD []) := by
  have hmem : Property.required "roles" _ ∈ assignRolesDto := List.mem_singleton.mpr rfl
  obtain ⟨xs, hxs, hall⟩ :=
    exists_arr_of_ofArray (ClassValidator.test_of_validate h hmem (.tail _ (.head _)))
  obtain ⟨ys, hys, hlength⟩ :=
    exists_arr_of_ofArray (ClassValidator.test_of_validate h hmem (.tail _ (.tail _ (.head _))))
  have hlist : listOf body "roles" = some xs := by rw [listOf, hxs]
  have hsame : xs = ys := Json.arr.inj (Option.some.inj (hxs.symm.trans hys))
  rw [hlist, Option.getD_some]
  refine ⟨?_, fun v hv => isRole_of_isEnum (List.all_eq_true.mp hall v hv)⟩
  rintro rfl
  rw [← hsame] at hlength
  cases hlength

/-! ### Requests -/

theorem RolesOk.of_users (h : RolesOk w) (husers : w'.users = w.users) : RolesOk w' := by
  intro u hu
  rw [husers] at hu
  exact h u hu

theorem wellFormed_of_saves (hsaves : req.Saves u) (hbrings : BringsRoles req) :
    WellFormedRoles u.roles := by
  obtain ⟨-, hroles⟩ := hsaves
  unfold BringsRoles at hbrings
  cases hroute : req.route with
  | signup =>
    rw [hroute] at hroles
    rw [hroles]
    exact wellFormedRoles_default
  | create =>
    rw [hroute] at hroles hbrings
    rw [hroles]
    exact hbrings
  | _ =>
    rw [hroute] at hroles
    exact hroles.elim

theorem wellFormed_of_leaves {seen left : User} (hleaves : req.Leaves seen left)
    (hbrings : BringsRoles req) (hseen : WellFormedRoles seen.roles) (hactive : left.isActive = true) :
    WellFormedRoles left.roles := by
  unfold Request.Leaves at hleaves
  unfold BringsRoles at hbrings
  cases hroute : req.route with
  | changePassword =>
    rw [hroute] at hleaves
    rwa [hleaves.2]
  | updateProfile | update id =>
    rw [hroute] at hleaves hbrings
    rw [hleaves.2]
    cases hbody : listOf req.body "roles" with
    | none => exact hseen
    | some roles => exact hbrings roles hbody
  | delete id =>
    rw [hroute] at hleaves
    rw [hleaves] at hactive
    cases hactive
  | assignRoles id =>
    rw [hroute] at hleaves
    rw [hleaves.2.2]
    exact wellFormedRoles_of_validate hleaves.2.1
  | addRoles id =>
    rw [hroute] at hleaves
    rw [hleaves.2.2]
    exact hseen.merge (wellFormedRoles_of_validate hleaves.2.1).2
  | removeRoles id =>
    rw [hroute] at hleaves
    obtain ⟨-, hne, hroles⟩ := hleaves
    rw [hroles] at hne ⊢
    exact hseen.without hne
  | _ =>
    rw [hroute] at hleaves
    exact hleaves.elim

/-- A request that brings no ill-formed roles keeps those of all active users well formed. -/
theorem rolesOk_dispatch (hw : RolesOk w) (hbrings : BringsRoles req) :
    RolesOk ((dispatch fmt b req).exec w).2 := by
  cases (handled_dispatch fmt b w req).effect with
  | same husers _ => exact hw.of_users husers
  | saved u hsaves _ hrows =>
    intro v hv hactive
    obtain hv | rfl := (hrows v).mp hv
    · exact hw v hv hactive
    · exact wellFormed_of_saves hsaves hbrings
  | rewritten seen left _ hseen hseenActive hleaves _ hrows _ =>
    intro v hv hactive
    obtain ⟨hv, -⟩ | rfl := (hrows v).mp hv
    · exact hw v hv hactive
    · exact wellFormed_of_leaves hleaves hbrings (hw seen hseen hseenActive) hactive

/-! ### What is answered has been written -/

theorem writes_of_not_bringsRoles (h : ¬ BringsRoles req) : req.route.writes = true := by
  unfold BringsRoles at h
  cases hroute : req.route with
  | login | logout | resetPassword =>
    rw [hroute] at h
    exact absurd trivial h
  | _ => rfl

theorem not_wellFormed_of_saves (hsaves : req.Saves u) (hnot : ¬ BringsRoles req) :
    ¬ WellFormedRoles u.roles := by
  obtain ⟨-, hroles⟩ := hsaves
  unfold BringsRoles at hnot
  cases hroute : req.route with
  | create =>
    rw [hroute] at hroles hnot
    rw [hroles]
    exact hnot
  | signup =>
    rw [hroute] at hnot
    exact absurd trivial hnot
  | _ =>
    rw [hroute] at hroles
    exact hroles.elim

theorem not_wellFormed_of_leaves {seen left : User} (hleaves : req.Leaves seen left)
    (hnot : ¬ BringsRoles req) : left.isActive = true ∧ ¬ WellFormedRoles left.roles := by
  unfold Request.Leaves at hleaves
  unfold BringsRoles at hnot
  cases hroute : req.route with
  | updateProfile | update id =>
    rw [hroute] at hleaves hnot
    simp only [not_forall] at hnot
    obtain ⟨roles, hbody, hroles⟩ := hnot
    rw [Option.mem_def.mp hbody, Option.getD_some] at hleaves
    refine ⟨hleaves.1, ?_⟩
    rwa [hleaves.2]
  | create =>
    rw [hroute] at hleaves
    exact hleaves.elim
  | _ =>
    rw [hroute] at hnot
    exact absurd trivial hnot

/-- An answered request that brings ill-formed roles has stored them. -/
theorem not_rolesOk_of_answered {r : Reply} (hok : ((dispatch fmt b req).exec w).1 = .ok r)
    (hnot : ¬ BringsRoles req) : ¬ RolesOk ((dispatch fmt b req).exec w).2 := by
  intro h
  cases (handled_dispatch fmt b w req).effect with
  | same _ hanswered =>
    have hwrites := hanswered r hok
    rw [writes_of_not_bringsRoles hnot] at hwrites
    cases hwrites
  | saved u hsaves _ hrows =>
    exact not_wellFormed_of_saves hsaves hnot (h u ((hrows u).mpr (.inr rfl)) hsaves.1)
  | rewritten seen left _ _ _ hleaves _ hrows _ =>
    obtain ⟨hactive, hroles⟩ := not_wellFormed_of_leaves hleaves hnot
    exact hroles (h left ((hrows left).mpr (.inr rfl)) hactive)

/-! ### Runs -/

/-- In every run of requests that bring no ill-formed roles those of all active users stay well
formed; and an answered request keeps them so only if it brings none. -/
theorem rolesOk_of_bringsRoles (fmt : Formats) (b : Bcrypt) :
    (∀ w tr w', Run (fun w e w' => w' = w.handle fmt b e ∧
        ∀ req, e = .request req → BringsRoles req) w tr w' → RolesOk w → RolesOk w') ∧
    ∀ w req r, RolesOk w → ((dispatch fmt b req).exec w).1 = .ok r →
      (RolesOk (w.handle fmt b (.request req)) ↔ BringsRoles req) := by
  refine ⟨fun w tr w' hrun hw => ?_, fun w req r hw hok => ⟨fun hw' => ?_, ?_⟩⟩
  · refine hrun.invariant hw ?_
    rintro w₁ e _ hw₁ ⟨rfl, hreq⟩
    cases e with
    | request req => exact rolesOk_dispatch hw₁ (hreq req rfl)
    | lapse live => exact hw₁.of_users rfl
  · by_contra hnot
    exact not_rolesOk_of_answered hok hnot hw'
  · exact rolesOk_dispatch hw

theorem rolesOk_initial : RolesOk .initial := by
  intro u hu
  cases hu

theorem rolesOk_of_bringsRoles_update :
    let w := World.initial.handle atSign markedText (.request johnRegisters)
    let w' := w.handle atSign markedText (.request johnTakesARole)
    RolesOk w' ∧ (RolesOk w' ↔ BringsRoles johnTakesARole) := by
  intro w w'
  have hbrings : BringsRoles johnTakesARole := by
    intro roles hroles
    cases hroles
    refine ⟨List.cons_ne_nil _ _, fun v hv => ?_⟩
    obtain rfl | hv := List.mem_cons.mp hv
    · exact ⟨.viewer, rfl⟩
    · exact ⟨.admin, List.mem_singleton.mp hv⟩
  have hrun : Run (fun w e w' => w' = w.handle atSign markedText e ∧
      ∀ req, e = .request req → BringsRoles req) .initial [.request johnRegisters] w := by
    refine .single ⟨rfl, ?_⟩
    rintro _ ⟨⟩
    exact trivial
  have hw : RolesOk w := (rolesOk_of_bringsRoles atSign markedText).1 _ _ _ hrun rolesOk_initial
  refine ⟨(rolesOk_of_bringsRoles atSign markedText).1 _ _ _ (hrun.snoc ⟨rfl, ?_⟩)
    rolesOk_initial, (rolesOk_of_bringsRoles atSign markedText).2 _ _ (.user _) hw rfl⟩
  rintro _ ⟨⟩
  exact hbrings

/-- John takes all roles out of his profile. -/
def johnDropsHisRoles : Request :=
  { route := .updateProfile, sessionId := some "s", env := visit, guardFails := false,
    body := .obj [("roles", .arr [])] }

theorem not_rolesOk_of_profileUpdate :
    ¬ ∀ (fmt : Formats) (b : Bcrypt) (tr : List Event) (w : World),
      Run (fun w e w' => w' = w.handle fmt b e) .initial tr w → RolesOk w := by
  intro h
  let w := World.initial.handle atSign markedText (.request johnRegisters)
  have hrun : Run (fun w e w' => w' = w.handle atSign markedText e) .initial
      [.request johnDropsHisRoles, .request johnRegisters]
      (w.handle atSign markedText (.request johnDropsHisRoles)) := .snoc (.single rfl) rfl
  refine not_rolesOk_of_answered (r := .user _) rfl ?_ (h atSign markedText _ _ hrun)
  intro hbrings
  exact (hbrings [] rfl).1 rfl

end IotPanel.Users
