import IotPanel.Lib.Run
import IotPanel.Users.Requests

/-!
# Who can give roles

The routes for roles are for super admins only. The roles of a user are a column like the
others, though, and the classes of the bodies of a creation and of an update let them through.
-/

namespace IotPanel.Users

open UsersService AuthService

/-- The stored roles of a user who was there before are different afterwards. -/
def RolesChanged (w w' : World) : Prop :=
  ∃ u ∈ w.users.rows, ∃ u' ∈ w'.users.rows, u'.userId = u.userId ∧ u'.roles ≠ u.roles

/-- A user has `SUPER_ADMIN` among the roles who has not been there with it before. -/
def SuperAdminAppears (w w' : World) : Prop :=
  ∃ u' ∈ w'.users.rows, Role.superAdmin.json ∈ u'.roles ∧
    ∀ u ∈ w.users.rows, u.userId = u'.userId → Role.superAdmin.json ∉ u.roles

def Escalates (w w' : World) : Prop := RolesChanged w w' ∨ SuperAdminAppears w w'

/-- The request is made under a session whose roles contain `SUPER_ADMIN`. -/
def BySuperAdmin (w : World) (req : Request) : Prop :=
  ∃ d, sessionOf w req = some d ∧ Role.superAdmin.json ∈ d.roles

/-- The user whose columns an update route writes. -/
def Request.updates (w : World) (req : Request) : Option String :=
  match req.route with
  | .updateProfile => (sessionOf w req).map fun d => d.userId
  | .update id => some id
  | _ => none

/-- A creation gives no `SUPER_ADMIN`, and an update brings no roles but those that its user
has. -/
def LeavesRoles (w : World) (req : Request) : Prop :=
  (req.route = .create → Role.superAdmin.json ∉ (CreateUserDto.ofBody req.body).roles) ∧
    ∀ id ∈ req.updates w, ∀ roles ∈ listOf req.body "roles",
      ∀ u ∈ w.users.rows, u.userId = id → u.isActive = true → u.roles = roles

/-- The requests that do not use a body to give roles without being a super admin's. -/
def GivesNoRoles (w : World) (req : Request) : Prop := BySuperAdmin w req ∨ LeavesRoles w req

/-- All users stay, with their roles, and nobody becomes a super admin. -/
structure KeepsRoles (w w' : World) : Prop where
  kept : ∀ u ∈ w.users.rows, ∃ u' ∈ w'.users.rows, u'.userId = u.userId ∧ u'.roles = u.roles
  old : ∀ u' ∈ w'.users.rows, Role.superAdmin.json ∈ u'.roles →
    ∃ u ∈ w.users.rows, u.userId = u'.userId ∧ Role.superAdmin.json ∈ u.roles

variable {fmt : Formats} {b : Bcrypt} {w w' w'' : World} {req : Request} {u : User}

namespace KeepsRoles

theorem of_users (h : w'.users = w.users) : KeepsRoles w w' := by
  constructor
  · intro u hu
    exact ⟨u, h ▸ hu, rfl, rfl⟩
  · intro u' hu' hsuper
    exact ⟨u', h ▸ hu', rfl, hsuper⟩

theorem trans (h : KeepsRoles w w') (h' : KeepsRoles w' w'') : KeepsRoles w w'' := by
  constructor
  · intro u hu
    obtain ⟨u', hu', hid, hroles⟩ := h.kept u hu
    obtain ⟨u'', hu'', hid', hroles'⟩ := h'.kept u' hu'
    exact ⟨u'', hu'', hid'.trans hid, hroles'.trans hroles⟩
  · intro u'' hu'' hsuper
    obtain ⟨u', hu', hid', hsuper'⟩ := h'.old u'' hu'' hsuper
    obtain ⟨u, hu, hid, hsuper''⟩ := h.old u' hu' hsuper'
    exact ⟨u, hu, hid.trans hid', hsuper''⟩

theorem not_escalates (h : KeepsRoles w w') : ¬ Escalates w w' := by
  rintro (⟨u, hu, u', hu', hid, hne⟩ | ⟨u', hu', hsuper, hnew⟩)
  · obtain ⟨v, hv, hvid, hvroles⟩ := h.kept u hu
    have hvu : v = u' :=
      Collection.eq_of_key User.userId (by simp) hv hu' (hvid.trans hid.symm)
    exact hne (hvu ▸ hvroles)
  · obtain ⟨u, hu, hid, hsuper'⟩ := h.old u' hu' hsuper
    exact hnew u hu hid hsuper'

theorem saved (hrows : ∀ v, v ∈ w'.users.rows ↔ v ∈ w.users.rows ∨ v = u)
    (hsuper : Role.superAdmin.json ∉ u.roles) : KeepsRoles w w' := by
  constructor
  · intro v hv
    exact ⟨v, (hrows v).mpr (.inl hv), rfl, rfl⟩
  · intro v hv hvsuper
    obtain hv | rfl := (hrows v).mp hv
    · exact ⟨v, hv, rfl, hvsuper⟩
    · exact absurd hvsuper hsuper

theorem rewritten {seen left : User} (hseen : seen ∈ w.users.rows)
    (hid : left.userId = seen.userId) (hroles : left.roles = seen.roles)
    (hrows : ∀ v, v ∈ w'.users.rows ↔ (v ∈ w.users.rows ∧ v.userId ≠ seen.userId) ∨ v = left) :
    KeepsRoles w w' := by
  constructor
  · intro v hv
    by_cases hvid : v.userId = seen.userId
    · obtain rfl := Collection.eq_of_key User.userId (by simp) hv hseen hvid
      exact ⟨left, (hrows left).mpr (.inr rfl), hid, hroles⟩
    · exact ⟨v, (hrows v).mpr (.inl ⟨hv, hvid⟩), rfl, rfl⟩
  · intro v hv hsuper
    obtain ⟨hv, -⟩ | rfl := (hrows v).mp hv
    · exact ⟨v, hv, rfl, hsuper⟩
    · exact ⟨seen, hseen, hid.symm, hroles ▸ hsuper⟩

end KeepsRoles

/-! ### Requests -/

theorem Passed.bySuperAdmin (h : Passed w req) (hroute : req.route.roles = [.superAdmin]) :
    BySuperAdmin w req := by
  obtain hnone | ⟨d, hd, r, hr, hmem⟩ := h
  · rw [hroute] at hnone
    cases hnone
  · rw [hroute] at hr
    obtain rfl := List.mem_singleton.mp hr
    exact ⟨d, hd, hmem⟩

theorem not_superAdmin_of_saves (hsaves : req.Saves u) (hleaves : LeavesRoles w req) :
    Role.superAdmin.json ∉ u.roles := by
  obtain ⟨-, hroles⟩ := hsaves
  cases hroute : req.route with
  | signup =>
    rw [hroute] at hroles
    simp [hroles, defaultRoles, Role.json, Role.value]
  | create =>
    rw [hroute] at hroles
    rw [hroles]
    exact hleaves.1 hroute
  | _ =>
    rw [hroute] at hroles
    exact hroles.elim

/-- The routes for roles are for super admins, and an update leaves the roles alone. -/
theorem roles_of_leaves {seen left : User} (hnot : ¬ BySuperAdmin w req) (hpassed : Passed w req)
    (hleaves : LeavesRoles w req) (htarget : req.target w = some seen.userId)
    (hseen : seen ∈ w.users.rows) (hactive : seen.isActive = true)
    (hleft : req.Leaves seen left) : left.roles = seen.roles := by
  unfold Request.Leaves at hleft
  cases hroute : req.route with
  | changePassword =>
    rw [hroute] at hleft
    exact hleft.2
  | updateProfile | update id =>
    rw [hroute] at hleft
    rw [Request.target, hroute] at htarget
    have hupdates : req.updates w = some seen.userId := by rwa [Request.updates, hroute]
    rw [hleft.2]
    cases hbody : listOf req.body "roles" with
    | none => rfl
    | some roles => exact (hleaves.2 seen.userId hupdates roles hbody seen hseen rfl hactive).symm
  | delete id | assignRoles id | addRoles id | removeRoles id =>
    exact absurd (hpassed.bySuperAdmin (by rw [hroute]; rfl)) hnot
  | _ =>
    rw [hroute] at hleft
    exact hleft.elim

/-- A request by nobody special that leaves the roles in its body alone. -/
theorem keepsRoles_dispatch (hnot : ¬ BySuperAdmin w req) (hleaves : LeavesRoles w req) :
    KeepsRoles w ((dispatch fmt b req).exec w).2 := by
  obtain husers | hpassed := same_or_passed fmt b w req
  · exact .of_users husers
  cases (handled_dispatch fmt b w req).effect with
  | same husers _ => exact .of_users husers
  | saved u hsaves _ hrows => exact .saved hrows (not_superAdmin_of_saves hsaves hleaves)
  | rewritten seen left htarget hseen hactive hleft hid hrows _ =>
    exact .rewritten hseen hid
      (roles_of_leaves hnot hpassed hleaves htarget hseen hactive hleft) hrows

/-! ### What is answered has been done -/

theorem target_of_updates {id : String} (h : req.updates w = some id) :
    req.target w = some id ∧ (req.route = .updateProfile ∨ ∃ id, req.route = .update id) := by
  unfold Request.updates at h
  unfold Request.target
  split at h
  · rename_i hroute
    rw [hroute]
    exact ⟨h, .inl rfl⟩
  · rename_i id' hroute
    rw [hroute]
    exact ⟨h, .inr ⟨id', rfl⟩⟩
  · cases h

/-- A creation that is answered has saved the roles of its body. -/
theorem superAdminAppears_of_create {r : Reply} (hroute : req.route = .create)
    (hok : ((dispatch fmt b req).exec w).1 = .ok r)
    (hsuper : Role.superAdmin.json ∈ (CreateUserDto.ofBody req.body).roles) :
    SuperAdminAppears w ((dispatch fmt b req).exec w).2 := by
  cases (handled_dispatch fmt b w req).effect with
  | same _ hanswered =>
    have hwrites := hanswered r hok
    rw [hroute] at hwrites
    cases hwrites
  | saved u hsaves hnew hrows =>
    obtain ⟨-, hroles⟩ := hsaves
    rw [hroute] at hroles
    refine ⟨u, (hrows u).mpr (.inr rfl), hroles ▸ hsuper, fun v hv hid => ?_⟩
    exact absurd hid (hnew v hv)
  | rewritten seen left _ _ _ hleft _ _ _ =>
    rw [Request.Leaves, hroute] at hleft
    exact hleft.elim

/-- An update that is answered has written the roles of its body. -/
theorem rolesChanged_of_update {r : Reply} {id : String} {roles : List Json}
    (hupdates : req.updates w = some id) (hok : ((dispatch fmt b req).exec w).1 = .ok r)
    (hbody : listOf req.body "roles" = some roles) (hu : u ∈ w.users.rows) (huid : u.userId = id)
    (hne : u.roles ≠ roles) : RolesChanged w ((dispatch fmt b req).exec w).2 := by
  obtain ⟨htarget', hroute⟩ := target_of_updates hupdates
  cases (handled_dispatch fmt b w req).effect with
  | same _ hanswered =>
    have hwrites := hanswered r hok
    obtain hroute | ⟨id', hroute⟩ := hroute <;>
      · rw [hroute] at hwrites
        cases hwrites
  | saved v hsaves _ _ =>
    obtain ⟨-, hroles⟩ := hsaves
    obtain hroute | ⟨id', hroute⟩ := hroute <;>
      · rw [hroute] at hroles
        exact hroles.elim
  | rewritten seen left htarget hseen _ hleft hid hrows _ =>
    have hleftRoles : left.roles = roles := by
      obtain hroute | ⟨id', hroute⟩ := hroute <;>
        · rw [Request.Leaves, hroute, hbody] at hleft
          exact hleft.2
    have hsame : seen.userId = id := Option.some.inj (htarget.symm.trans htarget')
    refine ⟨u, hu, left, (hrows left).mpr (.inr rfl), (hid.trans hsame).trans huid.symm, ?_⟩
    rw [hleftRoles]
    exact hne.symm

/-- An answered request that brings roles which it ought to leave alone escalates. -/
theorem escalates_of_answered {r : Reply} (hok : ((dispatch fmt b req).exec w).1 = .ok r)
    (hnot : ¬ LeavesRoles w req) : Escalates w ((dispatch fmt b req).exec w).2 := by
  obtain hcreate | hupdate := not_and_or.mp hnot
  · obtain ⟨hroute, hsuper⟩ := Classical.not_imp.mp hcreate
    exact .inr (superAdminAppears_of_create hroute hok (not_not.mp hsuper))
  · simp only [not_forall] at hupdate
    obtain ⟨id, hid, roles, hroles, u, hu, huid, _, hne⟩ := hupdate
    exact .inl (rolesChanged_of_update hid hok hroles hu huid hne)

/-! ### Runs -/

/-- A request is handled, or sessions lapse. -/
inductive Event
  | request (req : Request)
  | lapse (live : String → Bool)

def World.handle (fmt : Formats) (b : Bcrypt) (w : World) : Event → World
  | .request req => ((dispatch fmt b req).exec w).2
  | .lapse live => { w with sessions := fun sid => (w.sessions sid).filter fun _ => live sid }

/-- A request that gives no roles escalates for super admins only; among answered requests
these are the only ones; and a run of such requests by others leaves all roles as they were. -/
theorem bySuperAdmin_of_escalates (fmt : Formats) (b : Bcrypt) :
    (∀ w req, GivesNoRoles w req → Escalates w (w.handle fmt b (.request req)) →
      BySuperAdmin w req) ∧
    (∀ w req r, ((dispatch fmt b req).exec w).1 = .ok r →
      ((Escalates w (w.handle fmt b (.request req)) → BySuperAdmin w req) ↔
        GivesNoRoles w req)) ∧
    ∀ w tr w', Run (fun w e w' => w' = w.handle fmt b e ∧
        ∀ req, e = .request req → GivesNoRoles w req ∧ ¬ BySuperAdmin w req) w tr w' →
      ¬ Escalates w w' := by
  have hstep : ∀ w req, GivesNoRoles w req → Escalates w (w.handle fmt b (.request req)) →
      BySuperAdmin w req := by
    intro w req hgives hesc
    obtain hsuper | hleaves := hgives
    · exact hsuper
    · by_contra hnot
      exact (keepsRoles_dispatch hnot hleaves).not_escalates hesc
  refine ⟨hstep, ?_, ?_⟩
  · intro w req r hok
    refine ⟨fun h => ?_, hstep w req⟩
    by_cases hleaves : LeavesRoles w req
    · exact .inr hleaves
    -- An answered request that gives roles has escalated, so its sender is a super admin.
    · exact .inl (h (escalates_of_answered hok hleaves))
  · intro w tr w' hrun
    have hkeeps : KeepsRoles w w' := by
      refine hrun.invariant (.of_users rfl) ?_
      rintro w₁ e _ hI ⟨rfl, hreq⟩
      refine hI.trans ?_
      cases e with
      | request req =>
        obtain ⟨hgives, hnot⟩ := hreq req rfl
        exact keepsRoles_dispatch hnot (hgives.resolve_left hnot)
      | lapse live => exact .of_users rfl
    exact hkeeps.not_escalates

/-- What has an at sign is an email address. -/
def atSign : Formats := ⟨fun s => s.toList.contains '@', fun s => s.startsWith "https://"⟩

def johnRegisters : Request :=
  { route := .signup, sessionId := none, env := visit, guardFails := false,
    body := .obj [("username", .str "John Wick"), ("email", .str "john@wick.com"),
      ("password", .str "123456789")] }

/-- John updates the roles in his profile. -/
def johnPromotesHimself : Request :=
  { route := .updateProfile, sessionId := some "s", env := visit, guardFails := false,
    body := .obj [("roles", .arr [Role.superAdmin.json])] }

/-- John sends his roles along as they are. -/
def johnKeepsHisRoles : Request :=
  { johnPromotesHimself with
    body := .obj [("firstName", .str "John"), ("roles", .arr [Role.viewer.json])] }

theorem bySuperAdmin_of_escalates_update :
    let w := World.initial.handle atSign markedText (.request johnRegisters)
    let w' := w.handle atSign markedText (.request johnKeepsHisRoles)
    (Escalates w w' → BySuperAdmin w johnKeepsHisRoles) ∧
      ((Escalates w w' → BySuperAdmin w johnKeepsHisRoles) ↔ GivesNoRoles w johnKeepsHisRoles) ∧
        ¬ Escalates .initial w' := by
  intro w w'
  have hsignup : GivesNoRoles .initial johnRegisters ∧ ¬ BySuperAdmin .initial johnRegisters := by
    refine ⟨.inr ⟨nofun, nofun⟩, ?_⟩
    rintro ⟨_, h, _⟩
    cases h
  have hupdate : GivesNoRoles w johnKeepsHisRoles := by
    refine .inr ⟨nofun, fun id _ roles hroles u hu _ _ => ?_⟩
    obtain rfl := List.mem_singleton.mp hu
    cases hroles
    rfl
  have hnot : ¬ BySuperAdmin w johnKeepsHisRoles := by
    rintro ⟨d, hd, hsuper⟩
    cases hd
    have hvalue : "super-admin" = "viewer" := Json.str.inj (List.mem_singleton.mp hsuper)
    exact absurd hvalue (by decide)
  refine ⟨(bySuperAdmin_of_escalates atSign markedText).1 _ _ hupdate,
    (bySuperAdmin_of_escalates atSign markedText).2.1 _ _ (.user _) rfl,
    (bySuperAdmin_of_escalates atSign markedText).2.2 _ _ _
      (.snoc (.single ⟨rfl, ?_⟩) ⟨rfl, ?_⟩)⟩
  · rintro _ ⟨⟩
    exact hsignup
  · rintro _ ⟨⟩
    exact ⟨hupdate, hnot⟩

/-- John takes a second role. -/
def johnTakesARole : Request :=
  { johnPromotesHimself with
    body := .obj [("roles", .arr [Role.viewer.json, Role.admin.json])] }

/-- John signs up and makes himself a super admin. -/
theorem not_bySuperAdmin_of_profileUpdate :
    ¬ ∀ (fmt : Formats) (b : Bcrypt) (tr : List Event) (w : World) (req : Request),
      Run (fun w e w' => w' = w.handle fmt b e) .initial tr w →
        Escalates w (w.handle fmt b (.request req)) → BySuperAdmin w req := by
  intro h
  let w := World.initial.handle atSign markedText (.request johnRegisters)
  have hesc : Escalates w (w.handle atSign markedText (.request johnPromotesHimself)) := by
    refine escalates_of_answered (r := .user _) rfl ?_
    rintro ⟨-, hroles⟩
    have hkept := hroles "u" rfl [Role.superAdmin.json] rfl _ (List.mem_singleton.mpr rfl) rfl rfl
    have hvalue : "viewer" = "super-admin" := Json.str.inj (List.head_eq_of_cons_eq hkept)
    exact absurd hvalue (by decide)
  obtain ⟨d, hd, hsuper⟩ := h atSign markedText _ w johnPromotesHimself (.single rfl) hesc
  cases hd
  have hvalue : "super-admin" = "viewer" := Json.str.inj (List.mem_singleton.mp hsuper)
  exact absurd hvalue (by decide)

end IotPanel.Users
