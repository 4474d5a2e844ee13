import IotPanel.Users.Http

/-!
# What a request does

A request that gets past the guards saves one row of the users at most, or rewrites the row of
one user. The sessions that it opens are of active users, and have the roles that these have.
-/

namespace IotPanel.Users

open UsersService AuthService
open ClassValidator (validate Property)
open Session (SessionData)

/-- The user whose row the request rewrites. -/
def Request.target (w : World) (req : Request) : Option String :=
  match req.route with
  | .changePassword | .updateProfile => (sessionOf w req).map fun d => d.userId
  | .update id | .delete id | .assignRoles id | .addRoles id | .removeRoles id => some id
  | .signup | .login | .logout | .resetPassword | .create => none

/-- A request to the route is not answered before it has written a row. -/
def Route.writes : Route → Bool
  | .login | .logout | .resetPassword => false
  | _ => true

/-- What is known of a row that the request saves. -/
def Request.Saves (req : Request) (u : User) : Prop :=
  u.isActive = true ∧
    match req.route with
    | .signup => u.roles = defaultRoles
    | .create => u.roles = (listOf req.body "roles").getD []
    | _ => False

/-- What is known of the row that the request makes of the row `seen`. -/
def Request.Leaves (req : Request) (seen left : User) : Prop :=
  match req.route with
  | .changePassword => left.isActive = true ∧ left.roles = seen.roles
  | .updateProfile | .update _ =>
    left.isActive = true ∧ left.roles = (listOf req.body "roles").getD seen.roles
  | .delete _ => left.isActive = false
  | .assignRoles _ =>
    left.isActive = true ∧ validate assignRolesDto req.body = true ∧
      left.roles = (listOf req.body "roles").getD []
  | .addRoles _ =>
    left.isActive = true ∧ validate assignRolesDto req.body = true ∧
      left.roles = mergeRoles seen.roles ((listOf req.body "roles").getD [])
  | .removeRoles _ =>
    left.isActive = true ∧ left.roles ≠ [] ∧
      left.roles = withoutRoles seen.roles ((listOf req.body "roles").getD [])
  | _ => False

/-- The live sessions were there before, with their users and roles. -/
def SessionsFrom (w w' : World) : Prop :=
  ∀ sid d, w'.sessions sid = some d →
    ∃ d₀, w.sessions sid = some d₀ ∧ d₀.userId = d.userId ∧ d₀.roles = d.roles

/-- What a request does to the stored users. -/
inductive Effect (req : Request) (w : World) (o : Except Exception Reply × World) : Prop
  | same (husers : o.2.users = w.users) (hanswered : ∀ a, o.1 = .ok a → req.route.writes = false)
  | saved (u : User) (hsaves : req.Saves u) (hnew : ∀ v ∈ w.users.rows, v.userId ≠ u.userId)
      (hrows : ∀ v, v ∈ o.2.users.rows ↔ v ∈ w.users.rows ∨ v = u)
  | rewritten (seen left : User) (htarget : req.target w = some seen.userId)
      (hseen : seen ∈ w.users.rows) (hactive : seen.isActive = true)
      (hleaves : req.Leaves seen left) (hid : left.userId = seen.userId)
      (hrows : ∀ v, v ∈ o.2.users.rows ↔ (v ∈ w.users.rows ∧ v.userId ≠ seen.userId) ∨ v = left)
      (hkept : req.route ≠ .changePassword → SessionsFrom o.2 w)

/-- What a request does to the stored users and the live sessions. -/
structure Handled (req : Request) (w : World) (o : Except Exception Reply × World) : Prop where
  effect : Effect req w o
  opened : ∀ sid d, o.2.sessions sid = some d →
    (∃ d₀, w.sessions sid = some d₀ ∧ d₀.userId = d.userId ∧ d₀.roles = d.roles) ∨
    ∃ u ∈ o.2.users.rows, u.isActive = true ∧ u.userId = d.userId ∧ u.roles = d.roles

/-- The guards of the route let the request through. -/
def Passed (w : World) (req : Request) : Prop :=
  req.route.roles = [] ∨
    ∃ d, sessionOf w req = some d ∧ ∃ r ∈ req.route.roles, r.json ∈ d.roles

variable {fmt : Formats} {b : Bcrypt} {w w' w'' : World} {req : Request} {u : User}
  {o : Except Exception Reply × World}

namespace SessionsFrom

theorem refl (w : World) : SessionsFrom w w := fun _ d hd => ⟨d, hd, rfl, rfl⟩

theorem trans (h : SessionsFrom w w') (h' : SessionsFrom w' w'') : SessionsFrom w w'' := by
  intro sid d hd
  obtain ⟨d', hd', hid', hroles'⟩ := h' sid d hd
  obtain ⟨d₀, hd₀, hid, hroles⟩ := h sid d' hd'
  exact ⟨d₀, hd₀, hid.trans hid', hroles.trans hroles'⟩

end SessionsFrom

/-! ### Guards -/

/-- The users are the same, and the live sessions have the same users and roles. -/
structure Renews (w w' : World) : Prop where
  users : w'.users = w.users
  session : ∀ sid, (w'.sessions sid).map (fun d => (d.userId, d.roles)) =
    (w.sessions sid).map fun d => (d.userId, d.roles)

theorem Renews.refl (w : World) : Renews w w := ⟨rfl, fun _ => rfl⟩

theorem sessionAuthGuard_cases (w : World) (req : Request) :
    (∃ e, (sessionAuthGuard req).exec w = (.error e, w)) ∨
      ∃ d w', sessionOf w req = some d ∧ Renews w w' ∧
        (sessionAuthGuard req).exec w = (.ok { d with lastActivity := req.env.now }, w') := by
  unfold sessionAuthGuard sessionOf
  split
  · exact .inl ⟨_, rfl⟩
  · exact .inl ⟨_, rfl⟩
  · rename_i sessionId _ hcookie
    rw [hcookie, Option.bind_some]
    simp only [Service.exec_ite, Service.exec_throw, Service.exec_bind, Service.exec_get]
    split
    · exact .inl ⟨_, rfl⟩
    · cases hsession : w.sessions sessionId with
      | none => exact .inl ⟨_, rfl⟩
      | some d =>
        let renewed := { d with lastActivity := req.env.now }
        refine .inr ⟨d, { w with sessions := fun sid =>
          if sid = sessionId then some renewed else w.sessions sid }, rfl, ⟨rfl, fun sid => ?_⟩, rfl⟩
        dsimp only
        split
        · rename_i hsid
          rw [hsid, hsession]
          rfl
        · rfl

theorem rolesGuard_cases (requiredRoles : List Role) (userRoles : List Json) (w : World) :
    (∃ e, (rolesGuard requiredRoles userRoles).exec w = (.error e, w)) ∨
      ((requiredRoles = [] ∨ ∃ r ∈ requiredRoles, r.json ∈ userRoles) ∧
        (rolesGuard requiredRoles userRoles).exec w = (.ok (), w)) := by
  unfold rolesGuard
  split
  · rename_i hnone
    exact .inr ⟨.inl hnone, rfl⟩
  · split
    · exact .inl ⟨_, rfl⟩
    · split
      · rename_i hsome
        obtain ⟨r, hr, hincludes⟩ := List.any_eq_true.mp hsome
        exact .inr ⟨.inr ⟨r, hr, includes_json.mp hincludes⟩, rfl⟩
      · exact .inl ⟨_, rfl⟩

/-- A guarded request is refused, or its handler runs for a session with one of the roles. -/
theorem guarded_cases (w : World) (req : Request) (handler : Session.SessionData → Service Reply) :
    (∃ e w', Renews w w' ∧ (guarded req handler).exec w = (.error e, w')) ∨
      ∃ d w', sessionOf w req = some d ∧
        (req.route.roles = [] ∨ ∃ r ∈ req.route.roles, r.json ∈ d.roles) ∧ Renews w w' ∧
        (guarded req handler).exec w =
          (handler { d with lastActivity := req.env.now }).exec w' := by
  unfold guarded
  rw [Service.exec_bind]
  obtain ⟨e, he⟩ | ⟨d, w', hd, hrenews, hok⟩ := sessionAuthGuard_cases w req
  · exact .inl ⟨e, w, .refl w, by rw [he]⟩
  · rw [hok]
    simp only [Service.exec_bind]
    obtain ⟨e, he⟩ | ⟨hroles, hpassed⟩ := rolesGuard_cases req.route.roles d.roles w'
    · exact .inl ⟨e, w', hrenews, by rw [he]⟩
    · exact .inr ⟨d, w', hd, hroles, hrenews, by rw [hpassed]⟩

/-- A request that writes users has passed the guards. -/
theorem same_or_passed (fmt : Formats) (b : Bcrypt) (w : World) (req : Request) :
    ((dispatch fmt b req).exec w).2.users = w.users ∨ Passed w req := by
  have hguarded : ∀ handler, ((guarded req handler).exec w).2.users = w.users ∨ Passed w req := by
    intro handler
    obtain ⟨e, w', hrenews, he⟩ | ⟨d, w', hd, hroles, -, -⟩ := guarded_cases w req handler
    · exact .inl (by rw [he, hrenews.users])
    · exact .inr (hroles.imp_right fun hroles => ⟨d, hd, hroles⟩)
  unfold dispatch
  cases hroute : req.route with
  | signup | login | resetPassword => exact .inr (.inl (by rw [hroute]; rfl))
  | _ => exact hguarded _

namespace Renews

theorem sessionsFrom (h : Renews w w') : SessionsFrom w w' := by
  intro sid d hd
  have hsame := h.session sid
  rw [hd] at hsame
  obtain ⟨d₀, hd₀, hkey⟩ := Option.map_eq_some_iff.mp hsame.symm
  exact ⟨d₀, hd₀, congrArg Prod.fst hkey, congrArg Prod.snd hkey⟩

theorem symm (h : Renews w w') : Renews w' w := ⟨h.users.symm, fun sid => (h.session sid).symm⟩

theorem target (h : Renews w w') (req : Request) : req.target w' = req.target w := by
  have hsession : (sessionOf w' req).map (fun d => d.userId) =
      (sessionOf w req).map fun d => d.userId := by
    unfold sessionOf
    cases req.sessionId with
    | none => rfl
    | some sid =>
      have hsame := congrArg (Option.map Prod.fst) (h.session sid)
      rwa [Option.map_map, Option.map_map] at hsame
  unfold Request.target
  rw [hsession]

end Renews

/-! ### Handlers -/

namespace Handled

theorem refused (e : Exception) : Handled req w (.error e, w) :=
  ⟨.same rfl nofun, fun _ d hd => .inl ⟨d, hd, rfl, rfl⟩⟩

/-- A handler runs after the guard has renewed the session. -/
theorem of_renews (h : Handled req w' o) (hrenews : Renews w w') : Handled req w o := by
  have husers := hrenews.users
  refine ⟨?_, fun sid d hd => ?_⟩
  · cases h.effect with
    | same hsame hanswered => exact .same (hsame.trans husers) hanswered
    | saved u hsaves hnew hrows =>
      rw [husers] at hnew hrows
      exact .saved u hsaves hnew hrows
    | rewritten seen left htarget hseen hactive hleaves hid hrows hkept =>
      rw [husers] at hseen hrows
      rw [hrenews.target] at htarget
      exact .rewritten seen left htarget hseen hactive hleaves hid hrows fun hroute =>
        (hkept hroute).trans hrenews.symm.sessionsFrom
  · obtain ⟨d', hd', hid', hroles'⟩ | hopened := h.opened sid d hd
    · obtain ⟨d₀, hd₀, hid, hroles⟩ := hrenews.sessionsFrom sid d' hd'
      exact .inl ⟨d₀, hd₀, hid.trans hid', hroles.trans hroles'⟩
    · exact .inr hopened

theorem guarded {handler : SessionData → Service Reply}
    (h : ∀ d w', sessionOf w req = some d → Renews w w' →
      Handled req w' ((handler { d with lastActivity := req.env.now }).exec w')) :
    Handled req w ((guarded req handler).exec w) := by
  obtain ⟨e, w', hrenews, he⟩ | ⟨d, w', hd, -, hrenews, hrun⟩ := guarded_cases w req handler
  · rw [he]
    exact (refused e).of_renews hrenews
  · rw [hrun]
    exact (h d w' hd hrenews).of_renews hrenews

theorem pipe {props : List Property} {body : Json} {x : Service Reply}
    (h : validate props body = true → Handled req w (x.exec w)) :
    Handled req w ((do validationPipe props body; x : Service Reply).exec w) := by
  rw [Service.exec_bind]
  cases hvalid : validate props body && whitelisted props body with
  | true =>
    rw [validationPipe, hvalid]
    exact h (Bool.and_eq_true_iff.mp hvalid).1
  | false =>
    rw [validationPipe, hvalid]
    exact refused _

/-- The users stay as they are, and no session is opened. -/
theorem fewer (husers : o.2.users = w.users)
    (hsessions : ∀ sid d, o.2.sessions sid = some d → w.sessions sid = some d)
    (hroute : req.route.writes = false) : Handled req w o :=
  ⟨.same husers fun _ _ => hroute, fun sid d hd => .inl ⟨d, hsessions sid d hd, rfl, rfl⟩⟩

/-- An active user is saved or is there, and sessions of that user are opened. -/
theorem opens (heffect : Effect req w o) (hopens : SessionService.OpensFor u w o.2)
    (hu : u ∈ o.2.users.rows) (hactive : u.isActive = true) : Handled req w o := by
  refine ⟨heffect, fun sid d hd => ?_⟩
  obtain hold | ⟨hid, hroles⟩ := hopens sid d hd
  · exact .inl ⟨d, hold, rfl, rfl⟩
  · exact .inr ⟨u, hu, hactive, hid.symm, hroles.symm⟩

/-- The row of an active user is rewritten. -/
theorem rewrites {userId : String} {f : User → User} {r : Except Exception Reply} {seen : User}
    (htarget : req.target w = some userId)
    (hseen : w.users.find? (fun u => u.userId = userId && u.isActive) = some seen)
    (hupdate : w.users.update? (fun u => u.userId = userId) f = some w'.users)
    (hid : (f seen).userId = seen.userId)
    (hleaves : seen.isActive = true → req.Leaves seen (f seen)) (hfrom : SessionsFrom w w')
    (hkept : req.route ≠ .changePassword → SessionsFrom w' w) : Handled req w (r, w') := by
  obtain ⟨hmem, hfound⟩ := Collection.mem_of_find? hseen
  obtain ⟨huser, hactive⟩ : seen.userId = userId ∧ seen.isActive = true := by simpa using hfound
  subst huser
  refine ⟨.rewritten seen (f seen) htarget hmem hactive (hleaves hactive) hid (fun v => ?_) hkept,
    fun sid d hd => .inl (hfrom sid d hd)⟩
  exact Collection.mem_update?_of_key User.userId (by simp) hupdate hmem fun v => by simp

end Handled

theorem user_of_authenticate {dto : LoginDto}
    (h : ((authenticate b dto).exec w).1 = .ok u) : u ∈ w.users.rows ∧ u.isActive = true := by
  unfold authenticate at h
  rw [Service.exec_bind, exec_findUserByEmail] at h
  cases hfind : w.users.find? fun u => u.email = dto.email && u.isActive with
  | none =>
    simp only [hfind, Service.exec_throw] at h
    cases h
  | some user =>
    obtain ⟨hmem, hfound⟩ := Collection.mem_of_find? hfind
    have hactive : user.isActive = true := (Bool.and_eq_true_iff.mp hfound).2
    have huser : user = u := by
      cases hpassword : user.password with
      | none =>
        simp only [hfind, hpassword, EncryptService.compareHash, Service.exec_bind,
          Service.exec_throw] at h
        cases h
      | some hashed =>
        simp only [hfind, hpassword, EncryptService.compareHash, Service.exec_bind,
          Service.exec_pure, Service.exec_ite, Service.exec_throw] at h
        split at h
        · cases h
          rfl
        · cases h
    exact huser ▸ ⟨hmem, hactive⟩

theorem handled_signup (hroute : req.route = .signup) (env : Env) (dto : SignupDto) :
    Handled req w ((.user <$> signup b env dto : Service Reply).exec w) := by
  obtain ⟨-, e, he⟩ | ⟨-, w', hinsert, hopens, hexec⟩ := exec_signup b w env dto
  · rw [Service.exec_map_of_eq he]
    exact .refused e
  · rw [Service.exec_map_of_eq hexec]
    have hsaves : req.Saves (signupRecord b env dto) := by
      unfold Request.Saves
      rw [hroute]
      exact ⟨rfl, rfl⟩
    refine .opens (.saved _ hsaves ?_ fun v => Collection.mem_insert? hinsert) hopens
      ((Collection.mem_insert? hinsert).mpr (.inr rfl)) rfl
    exact fun v hv => Collection.key_ne_of_insert? User.userId hinsert (by simp) hv

theorem handled_login (hroute : req.route = .login) (env : Env) (dto : LoginDto) :
    Handled req w ((.user <$> login b env dto : Service Reply).exec w) := by
  obtain ⟨e, he⟩ | ⟨user, r, hauth, hr⟩ := exec_login b w env dto
  · rw [Service.exec_map_of_eq he]
    exact .refused e
  · rw [Service.exec_map_of_eq hr]
    obtain ⟨hmem, hactive⟩ := user_of_authenticate hauth
    refine .opens (.same (SessionService.store_users _ _ _) fun _ _ => by rw [hroute]; rfl)
      (SessionService.opensFor_store w rfl rfl) ?_ hactive
    rwa [SessionService.store_users]

theorem handled_logout (hroute : req.route = .logout) (env : Env) (sessionId : String) :
    Handled req w ((.message <$> logout env sessionId : Service Reply).exec w) := by
  obtain ⟨e, he⟩ | hok := exec_logout w env sessionId
  · rw [Service.exec_map_of_eq he]
    exact .refused e
  · rw [Service.exec_map_of_eq hok]
    refine .fewer rfl (fun sid d hd => ?_) (by rw [hroute]; rfl)
    dsimp only at hd
    split at hd
    · cases hd
    · exact hd

theorem handled_resetPassword (dto : ResetPasswordDto) :
    Handled req w ((.message <$> resetPassword dto : Service Reply).exec w) := by
  obtain ⟨e, he⟩ := exec_resetPassword w dto
  rw [Service.exec_map_of_eq he]
  exact .refused e

theorem handled_changePassword {userId : String} (hroute : req.route = .changePassword)
    (htarget : req.target w = some userId) (env : Env) (dto : ChangePasswordDto) :
    Handled req w ((.message <$> changePassword b env userId dto : Service Reply).exec w) := by
  obtain ⟨-, e, he⟩ | ⟨hadmitted, w', hupdate, hfewer, hexec⟩ :=
    exec_changePassword b w env userId dto
  · rw [Service.exec_map_of_eq he]
    exact .refused e
  · rw [Service.exec_map_of_eq hexec]
    obtain ⟨seen, hseen, -⟩ := (Option.any_eq_true _ _).mp hadmitted.2.2.1
    refine .rewrites htarget hseen hupdate rfl (fun hactive => ?_)
      (fun sid d hd => ⟨d, hfewer sid d hd, rfl, rfl⟩) fun hne => absurd hroute hne
    unfold Request.Leaves
    rw [hroute]
    exact ⟨hactive, rfl⟩

theorem handled_createUserManually (hroute : req.route = .create) (userId : String) :
    Handled req w
      ((.user <$> createUserManually b userId (.ofBody req.body) : Service Reply).exec w) := by
  obtain ⟨e, he⟩ | ⟨users, hinsert, hok⟩ := insertUser_cases w
    ((CreateUserDto.ofBody req.body).record userId
      (EncryptService.hash b (CreateUserDto.ofBody req.body).password))
  · rw [createUserManually, Service.exec_map_of_eq he]
    exact .refused e
  · rw [createUserManually, Service.exec_map_of_eq hok]
    refine ⟨.saved _ ?_ ?_ fun v => Collection.mem_insert? hinsert,
      fun sid d hd => .inl ⟨d, hd, rfl, rfl⟩⟩
    · unfold Request.Saves
      rw [hroute]
      exact ⟨rfl, rfl⟩
    · exact fun v hv => Collection.key_ne_of_insert? User.userId hinsert (by simp) hv

/-- A rewrite leaves the sessions alone. -/
theorem handled_rewrite {missing failed userId : String} {activeOnly : Bool}
    {change : User → Except Exception (User → User)} (htarget : req.target w = some userId)
    (hchange : ∀ user f, change user = .ok f →
      ∀ u, (f u).userId = u.userId ∧ (f u).isActive = u.isActive)
    (hleaves : ∀ seen f, change seen = .ok f → (f seen).isActive = true →
      req.Leaves seen (f seen)) :
    Handled req w
      ((.user <$> rewrite missing failed activeOnly userId change : Service Reply).exec w) := by
  obtain ⟨e, he⟩ | ⟨seen, f, users, hseen, hf, hupdate, hok⟩ :=
    rewrite_cases missing failed activeOnly userId w hchange
  · rw [Service.exec_map_of_eq he]
    exact .refused e
  · rw [Service.exec_map_of_eq hok]
    obtain ⟨hid, hsame⟩ := hchange seen f hf seen
    exact .rewrites htarget hseen hupdate hid
      (fun hactive => hleaves seen f hf (hsame.trans hactive)) (.refl w) fun _ => .refl w

theorem handled_updateUser {userId : String} (htarget : req.target w = some userId)
    (hroute : req.route = .updateProfile ∨ ∃ id, req.route = .update id) :
    Handled req w ((.user <$> updateUser b userId (.ofBody req.body) : Service Reply).exec w) := by
  refine handled_rewrite htarget ?_ ?_
  · rintro _ _ ⟨⟩ u
    exact ⟨rfl, rfl⟩
  · rintro seen _ ⟨⟩ hactive
    unfold Request.Leaves
    obtain hroute | ⟨id, hroute⟩ := hroute
    · rw [hroute]
      exact ⟨hactive, rfl⟩
    · rw [hroute]
      exact ⟨hactive, rfl⟩

theorem handled_deleteUser {id : String} (hroute : req.route = .delete id) :
    Handled req w ((.message <$> deleteUser id : Service Reply).exec w) := by
  obtain ⟨e, he⟩ | ⟨seen, users, m, hseen, hupdate, hok⟩ := deleteUser_cases w id
  · rw [Service.exec_map_of_eq he]
    exact .refused e
  · rw [Service.exec_map_of_eq hok]
    refine .rewrites ?_ hseen hupdate rfl (fun _ => ?_) (.refl w) fun _ => .refl w
    · rw [Request.target, hroute]
    · rw [Request.Leaves, hroute]

theorem handled_dispatch (fmt : Formats) (b : Bcrypt) (w : World) (req : Request) :
    Handled req w ((dispatch fmt b req).exec w) := by
  unfold dispatch
  cases hroute : req.route with
  | signup => exact .pipe fun _ => handled_signup hroute _ _
  | login => exact .pipe fun _ => handled_login hroute _ _
  | logout => exact .guarded fun _ _ _ _ => handled_logout hroute _ _
  | changePassword =>
    refine .guarded fun d w' hd hrenews => .pipe fun _ => handled_changePassword hroute ?_ _ _
    rw [hrenews.target, Request.target, hroute, hd]
    rfl
  | resetPassword => exact .pipe fun _ => handled_resetPassword _
  | create => exact .guarded fun _ _ _ _ => .pipe fun _ => handled_createUserManually hroute _
  | updateProfile =>
    refine .guarded fun d w' hd hrenews => .pipe fun _ => handled_updateUser ?_ (.inl hroute)
    rw [hrenews.target, Request.target, hroute, hd]
    rfl
  | update id =>
    refine .guarded fun _ _ _ _ => .pipe fun _ => handled_updateUser ?_ (.inr ⟨id, hroute⟩)
    rw [Request.target, hroute]
  | delete id => exact .guarded fun _ _ _ _ => handled_deleteUser hroute
  | assignRoles id | addRoles id =>
    refine .guarded fun _ w' _ _ => .pipe fun hvalid => handled_rewrite ?_ ?_ ?_
    · rw [Request.target, hroute]
    · rintro _ _ ⟨⟩ u
      exact ⟨rfl, rfl⟩
    · rintro seen _ ⟨⟩ hactive
      rw [Request.Leaves, hroute]
      exact ⟨hactive, hvalid, rfl⟩
  | removeRoles id =>
    refine .guarded fun _ w' _ _ => .pipe fun _ => handled_rewrite ?_ ?_ ?_
    · rw [Request.target, hroute]
    · intro seen f hf u
      obtain ⟨-, rfl⟩ := of_removal hf
      exact ⟨rfl, rfl⟩
    · intro seen f hf hactive
      obtain ⟨hne, rfl⟩ := of_removal hf
      rw [Request.Leaves, hroute]
      exact ⟨hactive, hne, rfl⟩

end IotPanel.Users
