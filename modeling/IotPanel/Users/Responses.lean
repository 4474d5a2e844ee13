import IotPanel.Lib.Twin
import IotPanel.Users.Http

/-!
# What the routes answer

The routes of the users and authentication controllers with the answers that the clients get: the
interceptor of a route copies the properties that its class exposes. Two tables of users that differ
in the stored passwords only are told apart by nothing but the comparison of a password.
-/

namespace IotPanel.Users

open UsersService AuthService
open ClassValidator (Property)
open Session (SessionData)

/-! ### The interceptor -/

/-- The columns of a row as properties. -/
def User.property (u : User) : String → JsVal
  | "userId" => some (.str u.userId)
  | "email" => some (.str u.email)
  | "username" => some (.str u.username)
  | "password" => u.password.map .str
  | "firstName" => u.firstName.map .str
  | "lastName" => u.lastName.map .str
  | "photoUrl" => u.photoUrl.map .str
  | "isActive" => some (.bool u.isActive)
  | "roles" => some (.arr u.roles)
  | _ => none

/-- `plainToInstance` with `excludeExtraneousValues`, for a class with the exposed properties. -/
def plainToInstance (exposed : List String) (property : String → JsVal) : Json :=
  .obj (exposed.filterMap fun name => (property name).map fun v => (name, v))

def authResponseDto : List String := ["userId", "username", "roles"]

def userResponseDto : List String :=
  ["userId", "email", "username", "firstName", "lastName", "photoUrl", "isActive", "roles",
    "createdAt", "updatedAt"]

def rolesResponseDto : List String := ["userId", "roles"]

/-- The handlers of the roles make an instance themselves, of which the interceptor makes another
one. -/
def rolesResponse (u : User) : Json :=
  plainToInstance rolesResponseDto (plainToInstance rolesResponseDto u.property).get

/-- The answer of a route to what its handler returns. -/
def Route.respond (route : Route) : Reply → Json
  | .user u =>
    match route with
    | .signup | .login => plainToInstance authResponseDto u.property
    | .assignRoles _ | .addRoles _ | .removeRoles _ => rolesResponse u
    | _ => plainToInstance userResponseDto u.property
  | .message s =>
    match route with
    | .delete _ => .str s
    | _ => .obj [("message", .str s)]

/-! ### The routes that only read -/

inductive Reading
  | all
  | find (id : String)
  | profile
  | rolesOf (id : String)
  | forgetPassword

/-- A request to a route that only reads; `resetToken` is the id that `uuidv4` draws. -/
structure Enquiry where
  route : Reading
  sessionId : Option String
  body : Json
  env : Env
  guardFails : Bool
  resetToken : String

def Reading.roles : Reading → List Role
  | .all | .find _ | .rolesOf _ => [.admin, .superAdmin]
  | .profile | .forgetPassword => []

/-- What the guard looks at. -/
def Enquiry.guarded (q : Enquiry) (handler : SessionData → Service Json) : Service Json := do
  let session ← sessionAuthGuard
    { route := .logout, sessionId := q.sessionId, body := q.body, env := q.env,
      guardFails := q.guardFails }
  rolesGuard q.route.roles session.roles
  handler session

def getUserRoles (userId : String) : Service User := do
  match ← findUserById userId with
  | some user => return user
  | none => throw (.notFound "User not found")

def requestPasswordReset (resetToken email : String) : Service Json := do
  match ← findUserByEmail email with
  | none => throw (.app "USER_NOT_FOUND" 404)
  | some _ => return .obj [("resetToken", .str resetToken)]

def forgetPasswordDto (fmt : Formats) : List Property := [.required "email" [ofString fmt.isEmail]]

/-- A user that is not found is answered with `null`. -/
def userResponse (user : Option User) : Json :=
  user.elim .null fun u => plainToInstance userResponseDto u.property

def Enquiry.serve (fmt : Formats) (q : Enquiry) : Service Json :=
  match q.route with
  | .all => q.guarded fun _ => do
    let users ← UserRepo.find
    return .arr (users.map fun u => plainToInstance userResponseDto u.property)
  | .find id => q.guarded fun _ => userResponse <$> findUserById id
  | .profile => q.guarded fun session => userResponse <$> findUserById session.userId
  | .rolesOf id => q.guarded fun _ => rolesResponse <$> getUserRoles id
  | .forgetPassword => do
    validationPipe (forgetPasswordDto fmt) q.body
    requestPasswordReset q.resetToken ((textOf q.body "email").getD "")

/-- A request to any of the routes. -/
inductive Visit
  | request (req : Request)
  | enquiry (q : Enquiry)

def Visit.serve (fmt : Formats) (b : Bcrypt) : Visit → Service Json
  | request req => req.route.respond <$> dispatch fmt b req
  | enquiry q => q.serve fmt

/-- The answers to the visits, one after the other. -/
def responses (fmt : Formats) (b : Bcrypt) : World → List Visit → List (Except Exception Json)
  | _, [] => []
  | w, v :: vs => ((v.serve fmt b).exec w).1 :: responses fmt b ((v.serve fmt b).exec w).2 vs

/-! ### Worlds that differ in the passwords -/

/-- The user without the password. -/
def User.bare (u : User) : User := { u with password := none }

/-- The same users but for their passwords, and the same sessions. -/
structure Alike (w w' : World) : Prop where
  users : w.users.rows.map User.bare = w'.users.rows.map User.bare
  sessions : w.sessions = w'.sessions

/-- The comparison of the text with the password, where there is one. -/
def answerOf (b : Bcrypt) (text : String) (u : User) : Option Bool := u.password.map (b.compare text)

/-- The users that pass the test are answered alike when they offer the text as their password. -/
def ComparesAlike (b : Bcrypt) (text : String) (test : User → Bool) (w w' : World) : Prop :=
  ∀ u ∈ w.users.rows, ∀ u' ∈ w'.users.rows, u.bare = u'.bare → test u = true →
    answerOf b text u = answerOf b text u'

/-- A login and a change of password are answered alike when it comes to the comparison. -/
def Request.TestsAlike (b : Bcrypt) (w w' : World) (req : Request) : Prop :=
  match req.route with
  | .login => ComparesAlike b ((textOf req.body "password").getD "")
      (fun u => u.email = (textOf req.body "email").getD "") w w'
  | .changePassword => ∀ d, sessionOf w req = some d →
      ComparesAlike b ((textOf req.body "oldPassword").getD "") (fun u => u.userId = d.userId) w w'
  | _ => True

def Visit.TestsAlike (b : Bcrypt) (w w' : World) : Visit → Prop
  | request req => req.TestsAlike b w w'
  | enquiry _ => True

/-- Each visit is answered alike when it comes to a comparison. -/
def TestedAlike (fmt : Formats) (b : Bcrypt) : World → World → List Visit → Prop
  | _, _, [] => True
  | w, w', v :: vs => v.TestsAlike b w w' ∧
      TestedAlike fmt b ((v.serve fmt b).exec w).2 ((v.serve fmt b).exec w').2 vs

/-! ### What is exposed of a user -/

section Exposed

variable {u u' : User} {exposed : List String}

theorem property_bare {name : String} (h : name ≠ "password") (u : User) :
    u.bare.property name = u.property name := by
  unfold User.property
  split
  all_goals first
    | rfl
    | exact absurd rfl h

theorem plainToInstance_congr {property property' : String → JsVal}
    (h : ∀ name ∈ exposed, property name = property' name) :
    plainToInstance exposed property = plainToInstance exposed property' := by
  unfold plainToInstance
  refine congrArg Json.obj (List.filterMap_congr fun name hname => ?_)
  rw [h name hname]

/-- A class that does not expose the password makes the same of users without one. -/
theorem plainToInstance_bare (hexposed : "password" ∉ exposed) (h : u.bare = u'.bare) :
    plainToInstance exposed u.property = plainToInstance exposed u'.property := by
  refine plainToInstance_congr fun name hname => ?_
  have hne : name ≠ "password" := by
    rintro rfl
    exact hexposed hname
  rw [← property_bare hne u, ← property_bare hne u', h]

theorem userResponse_bare {found found' : Option User}
    (h : found.map User.bare = found'.map User.bare) :
    userResponse found = userResponse found' := by
  cases found with
  | none =>
    cases found' with
    | none => rfl
    | some u' => cases h
  | some u =>
    cases found' with
    | none => cases h
    | some u' => exact plainToInstance_bare (by decide) (Option.some.inj h)

theorem rolesResponse_bare (h : u.bare = u'.bare) : rolesResponse u = rolesResponse u' := by
  have hsame : plainToInstance rolesResponseDto u.property =
      plainToInstance rolesResponseDto u'.property := plainToInstance_bare (by decide) h
  unfold rolesResponse
  rw [hsame]

/-- Replies that differ in the password of a user at most. -/
inductive AlikeReply : Reply → Reply → Prop
  | user {u u' : User} (h : u.bare = u'.bare) : AlikeReply (.user u) (.user u')
  | message (s : String) : AlikeReply (.message s) (.message s)

theorem respond_alike (route : Route) {r r' : Reply} (h : AlikeReply r r') :
    route.respond r = route.respond r' := by
  cases h with
  | message s => rfl
  | user h =>
    unfold Route.respond
    cases route with
    | signup | login => exact plainToInstance_bare (by decide) h
    | assignRoles | addRoles | removeRoles => exact rolesResponse_bare h
    | _ => exact plainToInstance_bare (by decide) h

end Exposed

/-! ### The repository -/

section Repository

variable {c c' : UserTable} {w w' : World} {u u' : User}

/-- The same users but for their passwords. -/
def AlikeRows (c c' : UserTable) : Prop := c.rows.map User.bare = c'.rows.map User.bare

/-- A test that does not look at the password. -/
def Blind (p : User → Bool) : Prop := ∀ u, p u.bare = p u

theorem find?_alike {p : User → Bool} (hp : Blind p) (h : AlikeRows c c') :
    (c.find? p).map User.bare = (c'.find? p).map User.bare := by
  have hfind : ∀ d : UserTable, (d.find? p).map User.bare = (d.rows.map User.bare).find? p := by
    intro d
    have hblind : p ∘ User.bare = p := funext hp
    rw [List.find?_map, hblind]
    rfl
  rw [hfind c, hfind c', h]

/-- The indexes do not look at the password. -/
theorem ofRows?_alike {rows rows' : List User} (h : rows.map User.bare = rows'.map User.bare) :
    Option.Rel AlikeRows (Collection.ofRows? rows : Option UserTable)
      (Collection.ofRows? rows') := by
  have hix : ∀ ix ∈ [User.userId, User.email], rows.map ix = rows'.map ix := by
    intro ix hix
    have hbare : ix = ix ∘ User.bare := by
      simp only [List.mem_cons, List.not_mem_nil, or_false] at hix
      obtain rfl | rfl := hix <;> rfl
    rw [hbare, ← List.map_map, ← List.map_map, h]
  unfold Collection.ofRows?
  by_cases hunique : ∀ ix ∈ [User.userId, User.email], (rows.map ix).Nodup
  · have hunique' : ∀ ix ∈ [User.userId, User.email], (rows'.map ix).Nodup :=
      fun ix hmem => hix ix hmem ▸ hunique ix hmem
    rw [dif_pos hunique, dif_pos hunique']
    exact .some h
  · have hunique' : ¬ ∀ ix ∈ [User.userId, User.email], (rows'.map ix).Nodup :=
      fun h' => hunique fun ix hmem => (hix ix hmem).symm ▸ h' ix hmem
    rw [dif_neg hunique, dif_neg hunique']
    exact .none

theorem insert?_alike (h : AlikeRows c c') (hu : u.bare = u'.bare) :
    Option.Rel AlikeRows (c.insert? u) (c'.insert? u') := by
  refine ofRows?_alike ?_
  rw [List.map_append, List.map_append, h, List.map_singleton, List.map_singleton, hu]

theorem update?_alike {p : User → Bool} {f f' : User → User} (hp : Blind p)
    (hf : ∀ u u', u.bare = u'.bare → (f u).bare = (f' u').bare) (h : AlikeRows c c') :
    Option.Rel AlikeRows (c.update? p f) (c'.update? p f') := by
  have hbare : ∀ (g : User → User), (∀ u u', u.bare = u'.bare → (f u).bare = (g u').bare) →
      ∀ rows : List User, (rows.map fun r => if p r then g r else r).map User.bare =
        (rows.map User.bare).map fun r => if p r then (f r).bare else r := by
    intro g hg rows
    rw [List.map_map, List.map_map]
    refine List.map_congr_left fun r _ => ?_
    show (if p r then g r else r).bare = if p r.bare then (f r.bare).bare else r.bare
    rw [hp r]
    split
    · exact (hg r.bare r rfl).symm
    · rfl
  refine ofRows?_alike ?_
  rw [hbare f (fun u u' huu' => (hf u u' huu').trans (hf u' u' rfl).symm), hbare f' hf, h]

theorem alike_write (h : Alike w w') (hrows : AlikeRows c c') :
    Alike { w with users := c } { w' with users := c' } := ⟨hrows, h.sessions⟩

theorem twin_find (h : Alike w w') :
    Twin Alike (fun us us' => us.map User.bare = us'.map User.bare) UserRepo.find UserRepo.find
      w w' :=
  .ok h.users h

theorem twin_findOne {p : User → Bool} (hp : Blind p) (h : Alike w w') :
    Twin Alike (fun found found' => found.map User.bare = found'.map User.bare)
      (UserRepo.findOne p) (UserRepo.findOne p) w w' :=
  .ok (find?_alike hp h.users) h

theorem twin_save (hu : u.bare = u'.bare) (h : Alike w w') :
    Twin Alike (fun _ _ => True) (UserRepo.save u) (UserRepo.save u') w w' := by
  show Agree _ _ ((UserRepo.save u).exec w) ((UserRepo.save u').exec w')
  rw [UserRepo.exec_save, UserRepo.exec_save]
  have hinsert := insert?_alike h.users hu
  generalize w.users.insert? u = x at hinsert ⊢
  generalize w'.users.insert? u' = y at hinsert ⊢
  cases hinsert with
  | some hrows => exact .ok trivial (alike_write h hrows)
  | none => exact .error _ h

theorem twin_update {userId : String} {f f' : User → User}
    (hf : ∀ u u', u.bare = u'.bare → (f u).bare = (f' u').bare) (h : Alike w w') :
    Twin Alike (fun _ _ => True) (UserRepo.update userId f) (UserRepo.update userId f') w w' := by
  show Agree _ _ ((UserRepo.update userId f).exec w) ((UserRepo.update userId f').exec w')
  rw [UserRepo.exec_update, UserRepo.exec_update]
  have hupdate := update?_alike (p := fun u => u.userId = userId) (fun _ => rfl) hf h.users
  generalize w.users.update? (fun u => u.userId = userId) f = x at hupdate ⊢
  generalize w'.users.update? (fun u => u.userId = userId) f' = y at hupdate ⊢
  cases hupdate with
  | some hrows => exact .ok trivial (alike_write h hrows)
  | none => exact .error _ h

/-- A lookup and what is done with its answer. -/
theorem twin_lookup {α : Type} {R : α → α → Prop} {p : User → Bool} {f f' : Option User → Service α}
    (hp : Blind p) (h : Alike w w') (hnone : Twin Alike R (f none) (f' none) w w')
    (hsome : ∀ u ∈ w.users.rows, ∀ u' ∈ w'.users.rows, p u = true → u.bare = u'.bare →
      Twin Alike R (f (some u)) (f' (some u')) w w') :
    Twin Alike R (UserRepo.findOne p >>= f) (UserRepo.findOne p >>= f') w w' := by
  show Agree _ _ ((UserRepo.findOne p >>= f).exec w) ((UserRepo.findOne p >>= f').exec w')
  rw [Service.exec_bind, Service.exec_bind, UserRepo.exec_findOne, UserRepo.exec_findOne]
  have hfind := find?_alike hp h.users
  cases hu : w.users.find? p with
  | none =>
    cases hu' : w'.users.find? p with
    | none => exact hnone
    | some u' =>
      rw [hu, hu'] at hfind
      cases hfind
  | some u =>
    cases hu' : w'.users.find? p with
    | none =>
      rw [hu, hu'] at hfind
      cases hfind
    | some u' =>
      rw [hu, hu'] at hfind
      obtain ⟨hmem, hpassed⟩ := Collection.mem_of_find? hu
      exact hsome u hmem u' (Collection.mem_of_find? hu').1 hpassed (Option.some.inj hfind)

end Repository

/-! ### The services -/

section Services

variable {α : Type} {fmt : Formats} {b : Bcrypt} {w w' : World} {req : Request} {u u' : User}

/-- The same user but for the password. -/
abbrev AlikeUser (u u' : User) : Prop := u.bare = u'.bare

theorem twin_insertUser (hu : u.bare = u'.bare) (h : Alike w w') :
    Twin Alike AlikeUser (insertUser u) (insertUser u') w w' := by
  have hemail : u.email = u'.email := show u.bare.email = u'.bare.email from congrArg _ hu
  have hid : u.userId = u'.userId := show u.bare.userId = u'.bare.userId from congrArg _ hu
  have hcreate : ∀ {v v'}, Alike v v' → Twin Alike AlikeUser
      (do
        UserRepo.save u
        match ← UserRepo.findOne fun x => x.userId = u.userId with
        | some created => return created
        | none => throw (.forbidden "Create user failed"))
      (do
        UserRepo.save u'
        match ← UserRepo.findOne fun x => x.userId = u'.userId with
        | some created => return created
        | none => throw (.forbidden "Create user failed")) v v' := by
    intro v v' hv
    refine Twin.bind (twin_save hu hv) fun _ _ v v' _ hv => ?_
    rw [hid]
    refine twin_lookup (fun _ => rfl) hv (Twin.throw _ hv) fun x _ x' _ _ hx => ?_
    exact Twin.pure hx hv
  unfold insertUser findUserByEmail
  rw [hemail]
  refine twin_lookup (fun _ => rfl) h ?_ fun x _ x' _ _ _ => ?_
  · exact Twin.ite Iff.rfl (fun _ => Twin.throw _ h) fun _ => hcreate h
  · exact Twin.ite Iff.rfl (fun _ => Twin.throw _ h) fun _ => hcreate h

/-- A change that does not depend on the password of the user that was found. -/
def BlindChange (change : User → Except Exception (User → User)) : Prop :=
  ∀ u u', u.bare = u'.bare →
    (∃ e, change u = .error e ∧ change u' = .error e) ∨
    ∃ f f', change u = .ok f ∧ change u' = .ok f' ∧
      ∀ v v', v.bare = v'.bare → (f v).bare = (f' v').bare

theorem twin_rewrite {missing failed userId : String} {activeOnly : Bool}
    {change : User → Except Exception (User → User)} (hchange : BlindChange change)
    (h : Alike w w') :
    Twin Alike AlikeUser (rewrite missing failed activeOnly userId change)
      (rewrite missing failed activeOnly userId change) w w' := by
  unfold rewrite
  refine twin_lookup (fun _ => rfl) h (Twin.throw _ h) fun u _ u' _ _ hu => ?_
  obtain ⟨e, he, he'⟩ | ⟨f, f', hf, hf', hblind⟩ := hchange u u' hu
  · simp only [he, he']
    exact Twin.throw e h
  · simp only [hf, hf']
    refine Twin.bind (twin_update hblind h) fun _ _ v v' _ hv => ?_
    refine twin_lookup (fun _ => rfl) hv (Twin.throw _ hv) fun x _ x' _ _ hx => ?_
    exact Twin.pure hx hv

theorem bare_roles (roles : List Json) (hu : u.bare = u'.bare) :
    ({ u with roles := roles } : User).bare = ({ u' with roles := roles } : User).bare := by
  show ({ u.bare with roles := roles } : User) = { u'.bare with roles := roles }
  rw [hu]

theorem roles_eq (hu : u.bare = u'.bare) : u.roles = u'.roles :=
  show u.bare.roles = u'.bare.roles from congrArg _ hu

theorem twin_assignRoles {userId : String} {roles : List Json} (h : Alike w w') :
    Twin Alike AlikeUser (assignRoles userId roles) (assignRoles userId roles) w w' :=
  twin_rewrite (fun _ _ _ => .inr ⟨_, _, rfl, rfl, fun _ _ hv => bare_roles _ hv⟩) h

theorem twin_addRoles {userId : String} {roles : List Json} (h : Alike w w') :
    Twin Alike AlikeUser (addRoles userId roles) (addRoles userId roles) w w' := by
  refine twin_rewrite (fun u u' hu => .inr ⟨_, _, rfl, rfl, fun v v' hv => ?_⟩) h
  rw [roles_eq hu]
  exact bare_roles _ hv

theorem twin_removeRoles {userId : String} {roles : List Json} (h : Alike w w') :
    Twin Alike AlikeUser (removeRoles userId roles) (removeRoles userId roles) w w' := by
  refine twin_rewrite (fun u u' hu => ?_) h
  dsimp only
  rw [roles_eq hu]
  by_cases hempty : withoutRoles u'.roles roles = []
  · rw [if_pos hempty]
    exact .inl ⟨_, rfl, rfl⟩
  · rw [if_neg hempty]
    exact .inr ⟨_, _, rfl, rfl, fun v v' hv => bare_roles _ hv⟩

theorem twin_updateUser {userId : String} {dto : UpdateUserDto} (h : Alike w w') :
    Twin Alike AlikeUser (updateUser b userId dto) (updateUser b userId dto) w w' := by
  refine twin_rewrite (fun u u' _ => .inr ⟨_, _, rfl, rfl, fun v v' hv => ?_⟩) h
  show dto.assign none v.bare = dto.assign none v'.bare
  rw [hv]

theorem twin_deleteUser {userId : String} (h : Alike w w') :
    Twin Alike (fun m m' => m = m') (deleteUser userId) (deleteUser userId) w w' := by
  unfold deleteUser
  refine twin_lookup (fun _ => rfl) h (Twin.throw _ h) fun u _ u' _ _ _ => ?_
  refine Twin.bind (twin_update ?_ h) fun _ _ v v' _ hv => Twin.pure rfl hv
  intro v v' hv
  show ({ v.bare with isActive := false } : User) = { v'.bare with isActive := false }
  rw [hv]

/-! ### Sessions -/

theorem twin_createSession {env : Env} (hu : u.bare = u'.bare) (h : Alike w w') :
    Twin Alike (fun sid sid' => sid = sid') (createSession env u) (createSession env u') w w' := by
  have hid : u.userId = u'.userId := show u.bare.userId = u'.bare.userId from congrArg _ hu
  have hname : u.username = u'.username := show u.bare.username = u'.bare.username from congrArg _ hu
  show Agree _ _ ((createSession env u).exec w) ((createSession env u').exec w')
  rw [exec_createSession, exec_createSession, hid, hname, roles_eq hu]
  have hstore : ∀ dto, Alike (SessionService.store env dto w) (SessionService.store env dto w') := by
    intro dto
    refine ⟨?_, ?_⟩
    · rw [SessionService.store_users, SessionService.store_users]
      exact h.users
    · unfold SessionService.store
      rw [h.sessions]
      split
      · rfl
      · exact h.sessions
  cases env.sessionFails with
  | true => exact .error _ (hstore _)
  | false => exact .ok rfl (hstore _)

theorem twin_destroySession {env : Env} {sessionId : String} (h : Alike w w') :
    Twin Alike (fun _ _ => True) (SessionService.destroySession env sessionId)
      (SessionService.destroySession env sessionId) w w' := by
  show Agree _ _ ((SessionService.destroySession env sessionId).exec w)
    ((SessionService.destroySession env sessionId).exec w')
  rw [SessionService.exec_destroySession, SessionService.exec_destroySession]
  cases env.sessionFails with
  | true => exact .error _ h
  | false =>
    refine .ok trivial ⟨h.users, ?_⟩
    show (fun sid => if sid = sessionId then none else w.sessions sid) = _
    rw [h.sessions]

theorem twin_invalidateUserSessions {env : Env} {userId : String} (h : Alike w w') :
    Twin Alike (fun _ _ => True) (SessionService.invalidateUserSessions env userId)
      (SessionService.invalidateUserSessions env userId) w w' := by
  show Agree _ _ ((SessionService.invalidateUserSessions env userId).exec w)
    ((SessionService.invalidateUserSessions env userId).exec w')
  rw [SessionService.exec_invalidateUserSessions, SessionService.exec_invalidateUserSessions]
  cases env.sessionFails with
  | true => exact .error _ h
  | false =>
    refine .ok trivial ⟨h.users, ?_⟩
    unfold SessionService.dropUser
    rw [h.sessions]

/-- The comparison of a password, where it is answered alike. -/
theorem twin_compareHash {text : String} (hanswer : answerOf b text u = answerOf b text u')
    (h : Alike w w') :
    Twin Alike (fun r r' => r = r') (EncryptService.compareHash b u.password text)
      (EncryptService.compareHash b u'.password text) w w' := by
  unfold answerOf at hanswer
  unfold EncryptService.compareHash
  cases hp : u.password with
  | none =>
    cases hp' : u'.password with
    | none => exact Twin.throw _ h
    | some hashed =>
      rw [hp, hp'] at hanswer
      cases hanswer
  | some hashed =>
    cases hp' : u'.password with
    | none =>
      rw [hp, hp'] at hanswer
      cases hanswer
    | some hashed' =>
      rw [hp, hp'] at hanswer
      exact Twin.pure (Option.some.inj hanswer) h

theorem twin_signup {env : Env} {dto : SignupDto} (h : Alike w w') :
    Twin Alike AlikeUser (signup b env dto) (signup b env dto) w w' := by
  have hcreate : ∀ password {v v'}, Alike v v' → Twin Alike AlikeUser
      (do
        let createdUser ← createUser env.userId (SignupDto.toCreate dto password)
        let _ ← createSession env createdUser
        return createdUser)
      (do
        let createdUser ← createUser env.userId (SignupDto.toCreate dto password)
        let _ ← createSession env createdUser
        return createdUser) v v' := by
    intro password v v' hv
    refine Twin.bind (twin_insertUser rfl hv) fun x x' v v' hx hv => ?_
    exact Twin.bind (twin_createSession hx hv) fun _ _ v v' _ hv => Twin.pure hx hv
  unfold signup findUserByEmail
  refine Twin.ite Iff.rfl (fun _ => Twin.throw _ h) fun _ => ?_
  refine twin_lookup (fun _ => rfl) h ?_ fun u _ u' _ _ _ => ?_
  · exact Twin.ite Iff.rfl (fun _ => Twin.throw _ h) fun _ =>
      Twin.ite Iff.rfl (fun _ => Twin.throw _ h) fun _ => hcreate _ h
  · exact Twin.ite Iff.rfl (fun _ => Twin.throw _ h) fun _ =>
      Twin.ite Iff.rfl (fun _ => Twin.throw _ h) fun _ => hcreate _ h

theorem twin_login {env : Env} {dto : LoginDto}
    (htests : ComparesAlike b dto.password (fun u => u.email = dto.email) w w')
    (h : Alike w w') : Twin Alike AlikeUser (login b env dto) (login b env dto) w w' := by
  have hauth : Twin Alike AlikeUser (authenticate b dto) (authenticate b dto) w w' := by
    unfold authenticate findUserByEmail
    refine twin_lookup (fun _ => rfl) h (Twin.throw _ h) fun u hu u' hu' hp hbare => ?_
    have hanswer := htests u hu u' hu' hbare (Bool.and_eq_true_iff.mp hp).1
    refine Twin.bind (twin_compareHash hanswer h) ?_
    rintro valid _ v v' rfl hv
    exact Twin.ite Iff.rfl (fun _ => Twin.pure hbare hv) fun _ => Twin.throw _ hv
  refine Twin.bind hauth fun x x' v v' hx hv => ?_
  exact Twin.bind (twin_createSession hx hv) fun _ _ v v' _ hv => Twin.pure hx hv

theorem twin_logout {env : Env} {sessionId : String} (h : Alike w w') :
    Twin Alike (fun m m' => m = m') (logout env sessionId) (logout env sessionId) w w' := by
  unfold logout
  refine Twin.ite Iff.rfl (fun _ => Twin.throw _ h) fun _ => ?_
  exact Twin.bind (twin_destroySession h) fun _ _ v v' _ hv => Twin.pure rfl hv

theorem twin_changePassword {env : Env} {userId : String} {dto : ChangePasswordDto}
    (htests : ComparesAlike b dto.oldPassword (fun u => u.userId = userId) w w')
    (h : Alike w w') :
    Twin Alike (fun m m' => m = m') (changePassword b env userId dto)
      (changePassword b env userId dto) w w' := by
  unfold changePassword findUserById
  refine Twin.ite Iff.rfl (fun _ => Twin.throw _ h) fun _ => ?_
  refine Twin.ite Iff.rfl (fun _ => Twin.throw _ h) fun _ => ?_
  refine twin_lookup (fun _ => rfl) h (Twin.throw _ h) fun u hu u' hu' hp hbare => ?_
  have hanswer := htests u hu u' hu' hbare (Bool.and_eq_true_iff.mp hp).1
  refine Twin.bind (twin_compareHash hanswer h) ?_
  rintro valid _ v v' rfl hv
  refine Twin.ite Iff.rfl (fun _ => ?_) fun _ => Twin.throw _ hv
  refine Twin.ite Iff.rfl (fun _ => Twin.throw _ hv) fun _ => ?_
  refine Twin.bind (twin_updateUser hv) fun _ _ v v' _ hv => ?_
  exact Twin.bind (twin_invalidateUserSessions hv) fun _ _ v v' _ hv => Twin.pure rfl hv

theorem twin_resetPassword {dto : ResetPasswordDto} (h : Alike w w') :
    Twin Alike (fun m m' => m = m') (resetPassword dto) (resetPassword dto) w w' := by
  unfold resetPassword
  refine Twin.ite Iff.rfl (fun _ => Twin.throw _ h) fun _ => ?_
  exact Twin.ite Iff.rfl (fun _ => Twin.throw _ h) fun _ => Twin.throw _ h

/-! ### Guards and routes -/

/-- Alike worlds with the users that were there before the guard. -/
def Guarded (w w' v v' : World) : Prop := Alike v v' ∧ v.users = w.users ∧ v'.users = w'.users

theorem twin_sessionAuthGuard (h : Alike w w') :
    Twin (Guarded w w')
      (fun d d' => d = d' ∧ ∃ d₀, sessionOf w req = some d₀ ∧ d.userId = d₀.userId)
      (sessionAuthGuard req) (sessionAuthGuard req) w w' := by
  have hguarded : Guarded w w' w w' := ⟨h, rfl, rfl⟩
  show Agree _ _ ((sessionAuthGuard req).exec w) ((sessionAuthGuard req).exec w')
  unfold sessionAuthGuard sessionOf
  split
  · exact .error _ hguarded
  · exact .error _ hguarded
  · rename_i sid _ hcookie
    rw [hcookie, Option.bind_some]
    simp only [Service.exec_ite, Service.exec_throw, Service.exec_bind, Service.exec_get]
    split
    · exact .error _ hguarded
    · rw [← h.sessions]
      cases w.sessions sid with
      | none => exact .error _ hguarded
      | some d => exact .ok ⟨rfl, d, rfl, rfl⟩ ⟨⟨h.users, rfl⟩, rfl, rfl⟩

theorem twin_rolesGuard {S : World → World → Prop} {required : List Role} {roles : List Json}
    (hS : S w w') :
    Twin S (fun _ _ => True) (rolesGuard required roles) (rolesGuard required roles) w w' := by
  unfold rolesGuard
  refine Twin.ite Iff.rfl (fun _ => Twin.pure trivial hS) fun _ => ?_
  refine Twin.ite Iff.rfl (fun _ => Twin.throw _ hS) fun _ => ?_
  exact Twin.ite Iff.rfl (fun _ => Twin.pure trivial hS) fun _ => Twin.throw _ hS

/-- A handler behind the guards. -/
theorem twin_guards {R : α → α → Prop} {required : List Role} {handler : SessionData → Service α}
    (h : Alike w w')
    (hhandler : ∀ d d₀ v v', sessionOf w req = some d₀ → d.userId = d₀.userId →
      Guarded w w' v v' → Twin Alike R (handler d) (handler d) v v') :
    Twin Alike R
      (do
        let session ← sessionAuthGuard req
        rolesGuard required session.roles
        handler session)
      (do
        let session ← sessionAuthGuard req
        rolesGuard required session.roles
        handler session) w w' := by
  refine Twin.bind_of (twin_sessionAuthGuard h) (fun _ _ hv => hv.1) ?_
  rintro d _ v v' ⟨rfl, d₀, hd₀, hid⟩ hv
  refine Twin.bind_of (twin_rolesGuard hv) (fun _ _ hv => hv.1) fun _ _ v v' _ hv => ?_
  exact hhandler d d₀ v v' hd₀ hid hv

/-- What comes behind the validation of the body. -/
theorem twin_pipe {R : α → α → Prop} {props : List Property} {body : Json} {x : Service α}
    (h : Alike w w') (hx : ∀ {v v'}, w = v → w' = v' → Twin Alike R x x v v') :
    Twin Alike R (do validationPipe props body; x) (do validationPipe props body; x) w w' := by
  have hpipe : Twin (fun v v' => Alike v v' ∧ w = v ∧ w' = v') (fun _ _ => True)
      (validationPipe props body) (validationPipe props body) w w' := by
    unfold validationPipe
    exact Twin.ite Iff.rfl (fun _ => Twin.pure trivial ⟨h, rfl, rfl⟩) fun _ =>
      Twin.throw _ ⟨h, rfl, rfl⟩
  refine Twin.bind_of hpipe (fun _ _ hv => hv.1) ?_
  rintro _ _ v v' - ⟨-, rfl, rfl⟩
  exact hx rfl rfl

theorem twin_user {x : Service User} (hx : Twin Alike AlikeUser x x w w') :
    Twin Alike AlikeReply (.user <$> x) (.user <$> x) w w' :=
  Twin.map hx fun _ _ hu => .user hu

theorem twin_message {x : Service String} (hx : Twin Alike (fun m m' => m = m') x x w w') :
    Twin Alike AlikeReply (.message <$> x) (.message <$> x) w w' := by
  refine Twin.map hx ?_
  rintro m _ rfl
  exact .message m

/-- The users that a handler sees are those of the worlds before the guard. -/
theorem comparesAlike_of_guarded {v v' : World} {text : String} {test : User → Bool}
    (h : ComparesAlike b text test w w') (hv : Guarded w w' v v') :
    ComparesAlike b text test v v' := by
  unfold ComparesAlike
  rw [hv.2.1, hv.2.2]
  exact h

theorem twin_dispatch (h : Alike w w') (htests : req.TestsAlike b w w') :
    Twin Alike AlikeReply (dispatch fmt b req) (dispatch fmt b req) w w' := by
  unfold Request.TestsAlike at htests
  unfold dispatch guarded
  cases hroute : req.route with
  | signup =>
    refine twin_pipe h ?_
    rintro _ _ rfl rfl
    exact twin_user (twin_signup h)
  | login =>
    rw [hroute] at htests
    refine twin_pipe h ?_
    rintro _ _ rfl rfl
    exact twin_user (twin_login htests h)
  | logout => exact twin_guards h fun d d₀ v v' _ _ hv => twin_message (twin_logout hv.1)
  | changePassword =>
    rw [hroute] at htests
    refine twin_guards h fun d d₀ v v' hd₀ hid hv => twin_pipe hv.1 ?_
    rintro _ _ rfl rfl
    refine twin_message (twin_changePassword ?_ hv.1)
    rw [hid]
    exact comparesAlike_of_guarded (htests d₀ hd₀) hv
  | resetPassword =>
    refine twin_pipe h ?_
    rintro _ _ rfl rfl
    exact twin_message (twin_resetPassword h)
  | create =>
    refine twin_guards h fun d d₀ v v' _ _ hv => twin_pipe hv.1 ?_
    rintro _ _ rfl rfl
    exact twin_user (twin_insertUser rfl hv.1)
  | updateProfile | update id =>
    refine twin_guards h fun d d₀ v v' _ _ hv => twin_pipe hv.1 ?_
    rintro _ _ rfl rfl
    exact twin_user (twin_updateUser hv.1)
  | delete id => exact twin_guards h fun d d₀ v v' _ _ hv => twin_message (twin_deleteUser hv.1)
  | assignRoles id =>
    refine twin_guards h fun d d₀ v v' _ _ hv => twin_pipe hv.1 ?_
    rintro _ _ rfl rfl
    exact twin_user (twin_assignRoles hv.1)
  | addRoles id =>
    refine twin_guards h fun d d₀ v v' _ _ hv => twin_pipe hv.1 ?_
    rintro _ _ rfl rfl
    exact twin_user (twin_addRoles hv.1)
  | removeRoles id =>
    refine twin_guards h fun d d₀ v v' _ _ hv => twin_pipe hv.1 ?_
    rintro _ _ rfl rfl
    exact twin_user (twin_removeRoles hv.1)

theorem twin_findUserById {userId : String} (h : Alike w w') :
    Twin Alike (fun j j' => j = j') (userResponse <$> findUserById userId)
      (userResponse <$> findUserById userId) w w' :=
  Twin.map (twin_findOne (fun _ => rfl) h) fun _ _ hfound => userResponse_bare hfound

theorem twin_enquiry {q : Enquiry} (h : Alike w w') :
    Twin Alike (fun j j' => j = j') (q.serve fmt) (q.serve fmt) w w' := by
  unfold Enquiry.serve Enquiry.guarded
  cases q.route with
  | all =>
    refine twin_guards h fun d d₀ v v' _ _ hv => ?_
    refine Twin.bind (twin_find hv.1) fun us us' v v' hus hv => Twin.pure ?_ hv
    have hmap : ∀ us : List User, us.map (fun u => plainToInstance userResponseDto u.property) =
        (us.map User.bare).map fun u => plainToInstance userResponseDto u.property := by
      intro us
      rw [List.map_map]
      exact List.map_congr_left fun u _ => plainToInstance_bare (by decide) rfl
    rw [hmap us, hmap us', hus]
  | find id => exact twin_guards h fun d d₀ v v' _ _ hv => twin_findUserById hv.1
  | profile => exact twin_guards h fun d d₀ v v' _ _ hv => twin_findUserById hv.1
  | rolesOf id =>
    refine twin_guards h fun d d₀ v v' _ _ hv => ?_
    unfold getUserRoles findUserById
    refine Twin.map (R := AlikeUser) ?_ fun _ _ hu => rolesResponse_bare hu
    refine twin_lookup (fun _ => rfl) hv.1 (Twin.throw _ hv.1) fun u _ u' _ _ hu => ?_
    exact Twin.pure hu hv.1
  | forgetPassword =>
    refine twin_pipe h ?_
    rintro _ _ rfl rfl
    unfold requestPasswordReset findUserByEmail
    refine twin_lookup (fun _ => rfl) h (Twin.throw _ h) fun u _ u' _ _ hu => ?_
    exact Twin.pure rfl h

/-- The step lemma. -/
theorem twin_serve (v : Visit) (h : Alike w w') (htests : v.TestsAlike b w w') :
    Twin Alike (fun j j' => j = j') (v.serve fmt b) (v.serve fmt b) w w' := by
  cases v with
  | request req => exact Twin.map (twin_dispatch h htests) fun _ _ hr => respond_alike _ hr
  | enquiry q => exact twin_enquiry h

end Services

/-- No sequence of visits tells two worlds apart that differ in the stored passwords only, as long
as the passwords that are offered come out right in both or wrong in both. -/
theorem responses_eq_of_alike (fmt : Formats) (b : Bcrypt) {w w' : World} (vs : List Visit)
    (h : Alike w w') (htested : TestedAlike fmt b w w' vs) :
    responses fmt b w vs = responses fmt b w' vs := by
  induction vs generalizing w w' with
  | nil => rfl
  | cons v vs ih =>
    have hserve : Agree Alike (fun j j' => j = j') ((v.serve fmt b).exec w)
        ((v.serve fmt b).exec w') := twin_serve v h htested.1
    unfold responses
    rw [hserve.fst_eq, ih hserve.state htested.2]

/-- A world with one user, who has the password and a session. -/
def inhabited (password : String) : World where
  users := ⟨[{ userId := "u", email := "bo@iot.org", username := "bo",
               password := some (markedText.hash password), firstName := none, lastName := none,
               photoUrl := none, isActive := true, roles := [Role.viewer.json] }], by simp⟩
  sessions sid :=
    if sid = "s" then
      some { userId := "u", username := "bo", roles := [Role.viewer.json], loginTime := 0,
             lastActivity := 0, ipAddress := "10.0.0.7", userAgent := "curl" }
    else none

/-- A login with a password that is wrong in both worlds, and a look at the profile. -/
def wrongLogin : List Visit :=
  [.request { route := .login, sessionId := none, env := visit, guardFails := false,
              body := .obj [("email", .str "bo@iot.org"), ("password", .str "letmein!")] },
    .enquiry { route := .profile, sessionId := some "s", body := .obj [], env := visit,
               guardFails := false, resetToken := "t" }]

theorem responses_eq_of_alike_wrongLogin :
    responses ⟨fun _ => true, fun _ => true⟩ markedText (inhabited "12345678") wrongLogin =
      responses ⟨fun _ => true, fun _ => true⟩ markedText (inhabited "87654321") wrongLogin := by
  refine responses_eq_of_alike _ _ wrongLogin ⟨rfl, rfl⟩ ⟨?_, trivial, trivial⟩
  intro u hu u' hu' _ _
  obtain rfl := List.mem_singleton.mp hu
  obtain rfl := List.mem_singleton.mp hu'
  decide

end IotPanel.Users
