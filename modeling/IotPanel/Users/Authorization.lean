import IotPanel.Users.Roles

/-!
# What the guards go by

The guards of a route look at the session of a request. Its roles were copied from the row of the
user when the session was made, and every renewal writes the copy back; the row may have lost
roles since then, or the user may have been deleted.
-/

namespace IotPanel.Users

open UsersService AuthService

/-- The guards of a route with the required roles `R`. -/
def canActivate (R : List Role) (req : Request) : Service Unit := do
  let session ← sessionAuthGuard req
  rolesGuard R session.roles

/-- The guards let the request through. -/
def Admits (w : World) (R : List Role) (req : Request) : Prop :=
  ((canActivate R req).exec w).1 = .ok ()

/-- There is an active user of the id with one of the roles. -/
def Entitled (w : World) (userId : String) (R : List Role) : Prop :=
  ∃ u ∈ w.users.rows, u.userId = userId ∧ u.isActive = true ∧ ∃ r ∈ R, r.json ∈ u.roles

/-- Whoever is admitted to a route with required roles is entitled to it at that moment. -/
def Reflected (w : World) : Prop :=
  ∀ R req d, R ≠ [] → sessionOf w req = some d → Admits w R req → Entitled w d.userId R

/-- The request takes the role away from the user, if it goes through. -/
def Request.Takes (w : World) (req : Request) (userId : String) (r : Role) : Prop :=
  match req.route with
  | .updateProfile => (sessionOf w req).map (fun d => d.userId) = some userId ∧
      ∃ roles ∈ listOf req.body "roles", r.json ∉ roles
  | .update id => id = userId ∧ ∃ roles ∈ listOf req.body "roles", r.json ∉ roles
  | .delete id => id = userId
  | .assignRoles id => id = userId ∧ r.json ∉ (listOf req.body "roles").getD []
  | .removeRoles id => id = userId ∧ r.json ∈ (listOf req.body "roles").getD []
  | _ => False

/-- The request takes no role away that a live session of the user carries. -/
def Spares (w : World) (req : Request) : Prop :=
  ∀ sid d r, sid ≠ "" → w.sessions sid = some d → r.json ∈ d.roles → ¬ req.Takes w d.userId r

/-- The roles of the live sessions are roles of active users. -/
def Backed (w : World) : Prop :=
  ∀ sid d r, sid ≠ "" → w.sessions sid = some d → r.json ∈ d.roles → Entitled w d.userId [r]

variable {fmt : Formats} {b : Bcrypt} {w w' w'' : World} {req : Request} {u : User} {r : Role}

/-! ### The guards -/

theorem exec_rolesGuard_of_mem {roles : List Json} (h : r.json ∈ roles) :
    (rolesGuard [r] roles).exec w = (.ok (), w) := by
  unfold rolesGuard
  rw [if_neg (by simp), if_neg (List.ne_nil_of_mem h),
    if_pos (List.any_eq_true.mpr ⟨r, List.mem_singleton.mpr rfl, includes_json.mpr h⟩)]
  rfl

/-- A request that is admitted has a live session with one of the roles. -/
theorem session_of_admits {R : List Role} (hR : R ≠ []) (h : Admits w R req) :
    ∃ sid d, sid ≠ "" ∧ req.sessionId = some sid ∧ w.sessions sid = some d ∧
      ∃ r ∈ R, r.json ∈ d.roles := by
  unfold Admits canActivate at h
  rw [Service.exec_bind] at h
  obtain ⟨e, he⟩ | ⟨d, w', hd, -, hok⟩ := sessionAuthGuard_cases w req
  · rw [he] at h
    cases h
  have hsid : ∃ sid, sid ≠ "" ∧ req.sessionId = some sid := by
    unfold sessionAuthGuard at hok
    split at hok
    · cases hok
    · cases hok
    · rename_i sid hne hsid
      exact ⟨sid, fun hempty => hne (hempty ▸ rfl), hsid⟩
  obtain ⟨sid, hne, hsid⟩ := hsid
  rw [sessionOf, hsid] at hd
  rw [hok] at h
  obtain ⟨e, he⟩ | ⟨hroles, -⟩ := rolesGuard_cases R d.roles w'
  · simp only [he] at h
    cases h
  · exact ⟨sid, d, hne, hsid, hd, hroles.resolve_left hR⟩

/-- A visit to a route under the session. -/
def visitWith (sid : String) : Request :=
  { route := .logout, sessionId := some sid, body := .obj [], env := visit, guardFails := false }

theorem exec_sessionAuthGuard_visitWith {sid : String} {d : Session.SessionData} (hne : sid ≠ "")
    (hd : w.sessions sid = some d) :
    ∃ w', (sessionAuthGuard (visitWith sid)).exec w = (.ok { d with lastActivity := 0 }, w') := by
  unfold sessionAuthGuard visitWith
  dsimp only
  split
  · rename_i hnone
    cases hnone
  · rename_i hempty
    exact absurd (Option.some.inj hempty) hne
  · rename_i sid' _ hsid
    cases hsid
    rw [if_neg (by simp), Service.exec_bind, Service.exec_get]
    simp only [hd]
    exact ⟨_, rfl⟩

theorem admits_visitWith {sid : String} {d : Session.SessionData} (hne : sid ≠ "")
    (hd : w.sessions sid = some d) (hr : r.json ∈ d.roles) : Admits w [r] (visitWith sid) := by
  obtain ⟨w', hguard⟩ := exec_sessionAuthGuard_visitWith hne hd
  unfold Admits canActivate
  rw [Service.exec_bind, hguard]
  exact congrArg Prod.fst (exec_rolesGuard_of_mem hr)

/-- What the guards let through is decided by the roles of the live sessions. -/
theorem reflected_iff : Reflected w ↔ Backed w := by
  constructor
  · intro h sid d r hne hd hr
    exact h [r] (visitWith sid) d (by simp) hd (admits_visitWith hne hd hr)
  · intro h R req d hR hd hadmits
    obtain ⟨sid, d', hne, hsid, hd', r, hr, hmem⟩ := session_of_admits hR hadmits
    rw [sessionOf, hsid] at hd
    obtain rfl : d' = d := Option.some.inj (hd'.symm.trans hd)
    obtain ⟨u, hu, hid, hactive, r', hr', hstored⟩ := h sid d' r hne hd' hmem
    obtain rfl := List.mem_singleton.mp hr'
    exact ⟨u, hu, hid, hactive, r', hr, hstored⟩

/-! ### What keeps the sessions backed -/

theorem Entitled.of_users {R : List Role} {userId : String} (h : Entitled w userId R)
    (husers : w'.users = w.users) : Entitled w' userId R := by
  rwa [Entitled, husers]

/-- Sessions are lost, the users stay. -/
theorem Backed.fewer (h : Backed w) (husers : w'.users = w.users)
    (hsessions : ∀ sid d, w'.sessions sid = some d → w.sessions sid = some d) : Backed w' :=
  fun sid d r hne hd hr => (h sid d r hne (hsessions sid d hd) hr).of_users husers

/-! ### Requests -/

theorem mem_withoutRoles {roles rolesToRemove : List Json} :
    r.json ∈ withoutRoles roles rolesToRemove ↔ r.json ∈ roles ∧ r.json ∉ rolesToRemove := by
  rw [withoutRoles, List.mem_filter, Bool.not_eq_true', ← Bool.not_eq_true, includes_json]

/-- A request that does not take the role away leaves it in the row. -/
theorem keeps_of_leaves {seen left : User} (hleaves : req.Leaves seen left)
    (htarget : req.target w = some seen.userId) (hnot : ¬ req.Takes w seen.userId r)
    (hmem : r.json ∈ seen.roles) : left.isActive = true ∧ r.json ∈ left.roles := by
  unfold Request.Leaves at hleaves
  unfold Request.target at htarget
  unfold Request.Takes at hnot
  cases hroute : req.route with
  | changePassword =>
    rw [hroute] at hleaves
    exact ⟨hleaves.1, hleaves.2 ▸ hmem⟩
  | updateProfile | update id =>
    rw [hroute] at hleaves htarget hnot
    refine ⟨hleaves.1, ?_⟩
    rw [hleaves.2]
    cases hbody : listOf req.body "roles" with
    | none => exact hmem
    -- A body that lists roles without `r` would take it.
    | some roles => exact by_contra fun hlost => hnot ⟨by simpa using htarget, roles, hbody, hlost⟩
  | delete id =>
    rw [hroute] at htarget hnot
    exact absurd (Option.some.inj htarget) hnot
  | assignRoles id =>
    rw [hroute] at hleaves htarget hnot
    refine ⟨hleaves.1, ?_⟩
    rw [hleaves.2.2]
    exact by_contra fun hlost => hnot ⟨Option.some.inj htarget, hlost⟩
  | addRoles id =>
    rw [hroute] at hleaves
    refine ⟨hleaves.1, ?_⟩
    rw [hleaves.2.2]
    exact mem_mergeRoles.mpr (.inl hmem)
  | removeRoles id =>
    rw [hroute] at hleaves htarget hnot
    refine ⟨hleaves.1, ?_⟩
    rw [hleaves.2.2]
    exact mem_withoutRoles.mpr ⟨hmem, fun hlost => hnot ⟨Option.some.inj htarget, hlost⟩⟩
  | _ =>
    rw [hroute] at hleaves
    exact hleaves.elim

/-- A request that spares the live sessions leaves them backed. -/
theorem backed_dispatch (hw : Backed w) (hs : Spares w req) :
    Backed ((dispatch fmt b req).exec w).2 := by
  intro sid d r hne hd hr
  obtain ⟨heffect, hopened⟩ := handled_dispatch fmt b w req
  obtain ⟨d₀, hd₀, hid₀, hroles₀⟩ | ⟨u, hu, hactive, huid, hroles⟩ := hopened sid d hd
  · -- the session was there before, and its user keeps the role
    rw [← hid₀]
    rw [← hroles₀] at hr
    obtain ⟨v, hv, hvid, hactive, r', hr', hstored⟩ := hw sid d₀ r hne hd₀ hr
    obtain rfl := List.mem_singleton.mp hr'
    cases heffect with
    | same husers _ => exact Entitled.of_users ⟨v, hv, hvid, hactive, r', hr', hstored⟩ husers
    | saved u _ _ hrows =>
      exact ⟨v, (hrows v).mpr (.inl hv), hvid, hactive, r', hr', hstored⟩
    | rewritten seen left htarget hseen _ hleaves hid hrows _ =>
      by_cases hsame : v.userId = seen.userId
      · obtain rfl := Collection.eq_of_key User.userId (by simp) hv hseen hsame
        have hnot : ¬ req.Takes w v.userId r' := hvid ▸ hs sid d₀ r' hne hd₀ hr
        obtain ⟨hactive', hkept⟩ := keeps_of_leaves hleaves htarget hnot hstored
        exact ⟨left, (hrows left).mpr (.inr rfl), hid.trans hvid, hactive', r', hr', hkept⟩
      · exact ⟨v, (hrows v).mpr (.inl ⟨hv, hsame⟩), hvid, hactive, r', hr', hstored⟩
  · exact ⟨u, hu, huid, hactive, r, List.mem_singleton.mpr rfl, hroles ▸ hr⟩

/-! ### What an answered request takes away -/

theorem target_of_takes {userId : String} (h : req.Takes w userId r) :
    req.target w = some userId ∧ req.route.writes = true ∧ req.route ≠ .changePassword := by
  unfold Request.Takes at h
  unfold Request.target
  cases hroute : req.route with
  | updateProfile | update id | assignRoles id | removeRoles id =>
    rw [hroute] at h
    exact ⟨by simpa using h.1, rfl, nofun⟩
  | delete id =>
    rw [hroute] at h
    exact ⟨congrArg some h, rfl, nofun⟩
  | _ =>
    rw [hroute] at h
    exact h.elim

theorem not_saves_of_target {userId : String} (htarget : req.target w = some userId)
    (hsaves : req.Saves u) : False := by
  obtain ⟨-, hroles⟩ := hsaves
  unfold Request.target at htarget
  cases hroute : req.route with
  | signup | create =>
    rw [hroute] at htarget
    cases htarget
  | _ =>
    rw [hroute] at hroles
    exact hroles.elim

/-- What a request takes away is not left in the row. -/
theorem lost_of_takes {userId : String} {seen left : User} (hleaves : req.Leaves seen left)
    (htakes : req.Takes w userId r) (hactive : left.isActive = true) : r.json ∉ left.roles := by
  unfold Request.Leaves at hleaves
  unfold Request.Takes at htakes
  cases hroute : req.route with
  | updateProfile | update id =>
    rw [hroute] at hleaves htakes
    obtain ⟨-, roles, hbody, hlost⟩ := htakes
    rw [hleaves.2, Option.mem_def.mp hbody]
    exact hlost
  | delete id =>
    rw [hroute] at hleaves
    rw [hleaves] at hactive
    cases hactive
  | assignRoles id =>
    rw [hroute] at hleaves htakes
    rw [hleaves.2.2]
    exact htakes.2
  | removeRoles id =>
    rw [hroute] at hleaves htakes
    rw [hleaves.2.2]
    exact fun hmem => (mem_withoutRoles.mp hmem).2 htakes.2
  | _ =>
    rw [hroute] at htakes
    exact htakes.elim

/-- After a request that has been answered and has not spared the live sessions, some session is
admitted where its user is not entitled any more. -/
theorem not_backed_of_answered {reply : Reply} (hok : ((dispatch fmt b req).exec w).1 = .ok reply)
    (hnot : ¬ Spares w req) : ¬ Backed ((dispatch fmt b req).exec w).2 := by
  simp only [Spares, not_forall, not_not] at hnot
  obtain ⟨sid, d₀, r, hne, hd₀, hr, htakes⟩ := hnot
  obtain ⟨htarget', hwrites, hroute⟩ := target_of_takes htakes
  intro h
  cases (handled_dispatch fmt b w req).effect with
  | same _ hanswered =>
    rw [hanswered reply hok] at hwrites
    cases hwrites
  | saved u hsaves _ _ => exact not_saves_of_target htarget' hsaves
  | rewritten seen left htarget _ _ hleaves _ hrows hkept =>
    obtain ⟨d, hd, hid, hroles⟩ := hkept hroute sid d₀ hd₀
    obtain ⟨v, hv, hvid, hactive, r', hr', hmem⟩ := h sid d r hne hd (hroles ▸ hr)
    obtain rfl := List.mem_singleton.mp hr'
    have hsame : seen.userId = d₀.userId := Option.some.inj (htarget.symm.trans htarget')
    obtain ⟨-, hother⟩ | rfl := (hrows v).mp hv
    · exact hother ((hvid.trans hid).trans hsame.symm)
    · exact lost_of_takes hleaves htakes hactive hmem

/-! ### Runs -/

/-- While every request spares the live sessions, the guards go by what is stored; and an
answered request keeps it so exactly when it spares them. -/
theorem reflected_of_sparing (fmt : Formats) (b : Bcrypt) :
    (∀ tr w, Run (fun w e w' => w' = w.handle fmt b e ∧ ∀ req, e = .request req → Spares w req)
      .initial tr w → Reflected w) ∧
    ∀ w req reply, Reflected w → ((dispatch fmt b req).exec w).1 = .ok reply →
      (Reflected (w.handle fmt b (.request req)) ↔ Spares w req) := by
  refine ⟨fun tr w hrun => reflected_iff.mpr (hrun.invariant ?_ ?_), fun w req reply hw hok => ?_⟩
  · intro sid d r _ hd
    cases hd
  · rintro w₁ e _ hw ⟨rfl, hspares⟩
    cases e with
    | request req => exact backed_dispatch hw (hspares req rfl)
    | lapse live => exact hw.fewer rfl fun _ _ hd => (Option.filter_eq_some_iff.mp hd).1
  · rw [reflected_iff]
    exact ⟨fun h => by_contra fun hnot => not_backed_of_answered hok hnot h,
      backed_dispatch (reflected_iff.mp hw)⟩

theorem reflected_of_sparing_update :
    let w := World.initial.handle atSign markedText (.request johnRegisters)
    let w' := w.handle atSign markedText (.request johnTakesARole)
    Reflected w ∧ Reflected w' ∧ (Reflected w' ↔ Spares w johnTakesARole) := by
  intro w w'
  have hsignup : Spares .initial johnRegisters := by
    intro sid d r _ hd
    cases hd
  -- the one live session is that of the signup, and carries the role that is kept
  have hupdate : Spares w johnTakesARole := by
    rintro sid d r - hd hr ⟨-, roles, hbody, hlost⟩
    cases hbody
    have hroles : d.roles = [Role.viewer.json] := by
      by_cases hsid : sid = "s"
      · subst hsid
        cases hd
        rfl
      · change (if sid = "s" then some _ else none) = some d at hd
        rw [if_neg hsid] at hd
        cases hd
    rw [hroles] at hr
    exact hlost (List.mem_cons.mpr (.inl (List.mem_singleton.mp hr)))
  have hrun : Run (fun w e w' => w' = w.handle atSign markedText e ∧
      ∀ req, e = .request req → Spares w req) .initial [.request johnRegisters] w := by
    refine .single ⟨rfl, ?_⟩
    rintro _ ⟨⟩
    exact hsignup
  have hw : Reflected w := (reflected_of_sparing atSign markedText).1 _ _ hrun
  refine ⟨hw, (reflected_of_sparing atSign markedText).1 _ _ (hrun.snoc ⟨rfl, ?_⟩),
    (reflected_of_sparing atSign markedText).2 _ _ (.user _) hw rfl⟩
  rintro _ ⟨⟩
  exact hupdate

/-- John logs in again. -/
def johnReturns : Request :=
  { route := .login, sessionId := none, env := { visit with sessionId := "t" }, guardFails := false,
    body := .obj [("email", .str "john@wick.com"), ("password", .str "123456789")] }

/-- John, who has made himself a super admin, deletes himself. -/
def johnLeaves : Request :=
  { route := .delete "u", sessionId := some "t", env := visit, guardFails := false, body := .obj [] }

def afterJohn : World :=
  [johnRegisters, johnPromotesHimself, johnReturns, johnLeaves].foldl
    (fun w req => w.handle atSign markedText (.request req)) .initial

/-- The session of the deleted user is still a super admin's. -/
theorem not_reflected_of_delete :
    ¬ ∀ (fmt : Formats) (b : Bcrypt) (tr : List Event) (w : World),
      Run (fun w e w' => w' = w.handle fmt b e) .initial tr w → Reflected w := by
  intro h
  have hrun : Run (fun w e w' => w' = World.handle atSign markedText w e) .initial
      [.request johnLeaves, .request johnReturns, .request johnPromotesHimself,
        .request johnRegisters] afterJohn :=
    .snoc (.snoc (.snoc (.snoc .refl rfl) rfl) rfl) rfl
  obtain ⟨d, hd, hroles⟩ : ∃ d, afterJohn.sessions "t" = some d ∧ Role.superAdmin.json ∈ d.roles :=
    ⟨_, rfl, List.mem_singleton.mpr rfl⟩
  obtain ⟨u, hu, -, hactive, -⟩ :=
    reflected_iff.mp (h atSign markedText _ _ hrun) "t" d .superAdmin (by decide) hd hroles
  have hone : afterJohn.users.rows.all (fun u => !u.isActive) = true := by decide +kernel
  simpa [hactive] using List.all_eq_true.mp hone u hu

end IotPanel.Users
