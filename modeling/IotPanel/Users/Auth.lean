import IotPanel.Users.Service

/-!
# Authentication

`AuthService` over the users and a table of the live sessions. A session call may fail; a
`createSession` that fails may have stored the session before.
-/

namespace IotPanel.Users

open Session (SessionData CreateSessionDto)

/-- What a call finds in its surroundings: the ids that `uuidv4` draws for a new user and a new
session, the time, the client, and how a call of the session service ends. -/
structure Env where
  userId : String
  sessionId : String
  now : ℕ
  ipAddress : String
  userAgent : String
  sessionFails : Bool
  sessionStored : Bool

/-- A visit during which the session service works. -/
def visit : Env :=
  { userId := "u", sessionId := "s", now := 0, ipAddress := "10.0.0.7", userAgent := "curl",
    sessionFails := false, sessionStored := true }

namespace SessionService

def store (env : Env) (dto : CreateSessionDto) (w : World) : World :=
  if !env.sessionFails || env.sessionStored then
    { w with
      sessions := fun sid =>
        if sid = env.sessionId then
          some { userId := dto.userId, username := dto.username, roles := dto.roles,
                 loginTime := env.now, lastActivity := env.now, ipAddress := dto.ipAddress,
                 userAgent := dto.userAgent }
        else w.sessions sid }
  else w

def createSession (env : Env) (dto : CreateSessionDto) : Service String := do
  set (store env dto (← get))
  if env.sessionFails then throw (.app "SESSION_ESTABLISH_FAILED" 500)
  return env.sessionId

def dropUser (userId : String) (w : World) : World :=
  { w with sessions := fun sid => (w.sessions sid).filter fun d => d.userId ≠ userId }

def invalidateUserSessions (env : Env) (userId : String) : Service Unit := do
  if env.sessionFails then throw (.app "SESSION_INVALIDATION_FAILED" 500)
  set (dropUser userId (← get))

def destroySession (env : Env) (sessionId : String) : Service Unit := do
  if env.sessionFails then throw (.app "SESSION_DESTROY_FAILED" 500)
  let w ← get
  set { w with sessions := fun sid => if sid = sessionId then none else w.sessions sid }

/-- The sessions are the same, or sessions of the user with the roles that the user has. -/
def OpensFor (user : User) (w w' : World) : Prop :=
  ∀ sid d, w'.sessions sid = some d →
    w.sessions sid = some d ∨ (d.userId = user.userId ∧ d.roles = user.roles)

theorem opensFor_store {env : Env} {dto : CreateSessionDto} {user : User} (w : World)
    (hid : dto.userId = user.userId) (hroles : dto.roles = user.roles) :
    OpensFor user w (store env dto w) := by
  intro sid d hd
  unfold store at hd
  split at hd
  · dsimp only at hd
    split at hd
    · cases hd
      exact .inr ⟨hid, hroles⟩
    · exact .inl hd
  · exact .inl hd

theorem of_dropUser {userId sid : String} {w : World} {d : SessionData}
    (h : (dropUser userId w).sessions sid = some d) : w.sessions sid = some d :=
  (Option.filter_eq_some_iff.mp h).1

@[simp] theorem store_users (env : Env) (dto : CreateSessionDto) (w : World) :
    (store env dto w).users = w.users := by
  unfold store
  split <;> rfl

theorem exec_createSession (env : Env) (dto : CreateSessionDto) (w : World) :
    (createSession env dto).exec w =
      (if env.sessionFails then .error (.app "SESSION_ESTABLISH_FAILED" 500)
        else .ok env.sessionId, store env dto w) := by
  unfold createSession
  cases env.sessionFails <;> simp

theorem exec_invalidateUserSessions (env : Env) (userId : String) (w : World) :
    (invalidateUserSessions env userId).exec w =
      if env.sessionFails then (.error (.app "SESSION_INVALIDATION_FAILED" 500), w)
      else (.ok (), dropUser userId w) := by
  unfold invalidateUserSessions
  cases env.sessionFails <;> simp

theorem exec_destroySession (env : Env) (sessionId : String) (w : World) :
    (destroySession env sessionId).exec w =
      if env.sessionFails then (.error (.app "SESSION_DESTROY_FAILED" 500), w)
      else (.ok (), { w with sessions := fun sid =>
        if sid = sessionId then none else w.sessions sid }) := by
  unfold destroySession
  cases env.sessionFails <;> simp

end SessionService

structure SignupDto where
  username : String
  email : String
  password : String

structure LoginDto where
  email : String
  password : String

structure ChangePasswordDto where
  oldPassword : String
  newPassword : String
  retypePassword : String

structure ResetPasswordDto where
  token : String
  newPassword : String
  retypePassword : String

namespace AuthService

open UsersService

def createSession (env : Env) (user : User) : Service String :=
  SessionService.createSession env
    { userId := user.userId, username := user.username, roles := user.roles,
      ipAddress := env.ipAddress, userAgent := env.userAgent }

def defaultRoles : List Json := [Role.viewer.json]

/-- The data that `signup` hands to `createUser`. -/
def SignupDto.toCreate (dto : SignupDto) (hashedPassword : String) : CreateUserDto :=
  { username := dto.username, email := dto.email, password := hashedPassword,
    roles := defaultRoles, firstName := none, lastName := none }

def signup (b : Bcrypt) (env : Env) (dto : SignupDto) : Service User := do
  if dto.email = "" || dto.username = "" || dto.password = "" then
    throw (.app "INVALID_REQUEST" 400)
  if (← findUserByEmail dto.email).isSome then
    throw (.app "EMAIL_ALREADY_EXISTS" 409)
  let hashedPassword := (EncryptService.hash b dto.password).getD ""
  if hashedPassword = "" then
    throw (.app "INVALID_CREDENTIALS" 401)
  let createdUser ← createUser env.userId (SignupDto.toCreate dto hashedPassword)
  let _ ← createSession env createdUser
  return createdUser

/-- The first part of `login`: the user of the email, if the password is the user's. -/
def authenticate (b : Bcrypt) (dto : LoginDto) : Service User := do
  match ← findUserByEmail dto.email with
  | none => throw (.app "INVALID_CREDENTIALS" 401)
  | some user =>
    if ← EncryptService.compareHash b user.password dto.password then
      return user
    else throw (.app "INVALID_CREDENTIALS" 401)

def login (b : Bcrypt) (env : Env) (dto : LoginDto) : Service User := do
  let user ← authenticate b dto
  let _ ← createSession env user
  return user

/-- `logout` of the session in the request, which is missing when the id is empty. -/
def logout (env : Env) (sessionId : String) : Service String := do
  if sessionId = "" then throw (.unauthorized "Session not found")
  SessionService.destroySession env sessionId
  return "Logged out successfully"

/-- The data that `changePassword` hands to `updateUser`. -/
def onlyPassword (password : String) : UpdateUserDto :=
  { username := none, email := none, password := some password, firstName := none,
    lastName := none, photoUrl := none, roles := none }

/-- `changePassword` of the user in the request. The password goes to `updateUser` as a hash. -/
def changePassword (b : Bcrypt) (env : Env) (userId : String) (dto : ChangePasswordDto) :
    Service String := do
  if dto.newPassword ≠ dto.retypePassword then
    throw (.app "PASSWORDS_DO_NOT_MATCH" 400)
  if userId = "" then throw (.app "USER_NOT_FOUND" 404)
  match ← findUserById userId with
  | none => throw (.app "USER_NOT_FOUND" 404)
  | some user =>
    if ← EncryptService.compareHash b user.password dto.oldPassword then
      let hashedPassword := (EncryptService.hash b dto.newPassword).getD ""
      if hashedPassword = "" then
        throw (.app "ENCRYPTION_FAILED" 500)
      let _ ← updateUser b userId (onlyPassword hashedPassword)
      SessionService.invalidateUserSessions env userId
      return "Password changed successfully. Please login again."
    else throw (.app "INVALID_CREDENTIALS" 401)

/-- `resetPassword` has only a placeholder for the user of a token, and refuses it. -/
def resetPassword (dto : ResetPasswordDto) : Service String := do
  if dto.token = "" then throw (.app "INVALID_REQUEST" 400)
  if dto.newPassword ≠ dto.retypePassword then
    throw (.app "PASSWORDS_DO_NOT_MATCH" 400)
  throw (.app "INVALID_REQUEST" 400)

variable {b : Bcrypt} {w : World} {env : Env}

@[simp] theorem exec_createSession (user : User) :
    (createSession env user).exec w =
      (if env.sessionFails then .error (.app "SESSION_ESTABLISH_FAILED" 500)
        else .ok env.sessionId,
        SessionService.store env
          { userId := user.userId, username := user.username, roles := user.roles,
            ipAddress := env.ipAddress, userAgent := env.userAgent } w) :=
  SessionService.exec_createSession _ _ _

/-- The user that a signup saves. -/
def signupRecord (b : Bcrypt) (env : Env) (dto : SignupDto) : User :=
  (SignupDto.toCreate dto (b.hash dto.password)).record env.userId (some (b.hash dto.password))

/-- A signup saves its user. -/
def SignupAdmitted (b : Bcrypt) (w : World) (env : Env) (dto : SignupDto) : Prop :=
  dto.email ≠ "" ∧ dto.username ≠ "" ∧ dto.password ≠ "" ∧ b.hash dto.password ≠ "" ∧
    (w.users.insert? (signupRecord b env dto)).isSome

/-- The text compares with the password of the user. -/
def Knows (b : Bcrypt) (plainText : String) (user : User) : Bool :=
  user.password.any fun hashed => b.compare plainText hashed

/-- A change of password gets to its update. -/
def ChangeAdmitted (b : Bcrypt) (w : World) (userId : String) (dto : ChangePasswordDto) : Prop :=
  dto.newPassword = dto.retypePassword ∧ userId ≠ "" ∧
    (w.users.find? fun u => u.userId = userId && u.isActive).any (Knows b dto.oldPassword) ∧
    dto.newPassword ≠ "" ∧ b.hash dto.newPassword ≠ ""

/-- The comparison of passwords writes nothing. -/
theorem authenticate_world (b : Bcrypt) (dto : LoginDto) (w : World) :
    ((authenticate b dto).exec w).2 = w := by
  unfold authenticate
  simp only [Service.exec_bind, exec_findUserByEmail]
  cases w.users.find? fun u => u.email = dto.email && u.isActive with
  | none => rfl
  | some user =>
    cases hpassword : user.password with
    | none =>
      simp only [hpassword, EncryptService.compareHash, Service.exec_bind, Service.exec_throw]
    | some hashed =>
      simp only [hpassword, EncryptService.compareHash, Service.exec_bind, Service.exec_pure,
        Service.exec_ite, Service.exec_throw]
      split <;> rfl

/-- A login that gets past the comparison makes a session of the user; it leaves the users
alone. -/
theorem exec_login (b : Bcrypt) (w : World) (env : Env) (dto : LoginDto) :
    (∃ e, (login b env dto).exec w = (.error e, w)) ∨
      ∃ user r, ((authenticate b dto).exec w).1 = .ok user ∧
        (login b env dto).exec w = (r, SessionService.store env
          { userId := user.userId, username := user.username, roles := user.roles,
            ipAddress := env.ipAddress, userAgent := env.userAgent } w) := by
  have hworld := authenticate_world b dto w
  unfold login
  simp only [Service.exec_bind, Service.exec_pure, exec_createSession]
  rcases hauth : (authenticate b dto).exec w with ⟨e | user, w'⟩
  · rw [hauth] at hworld
    exact .inl ⟨e, by rw [← hworld]⟩
  · rw [hauth] at hworld
    subst hworld
    refine .inr ⟨user, ?_⟩
    cases env.sessionFails
    · exact ⟨_, rfl, rfl⟩
    · exact ⟨_, rfl, rfl⟩

/-- A logout throws and leaves all as it was, or ends the session. -/
theorem exec_logout (w : World) (env : Env) (sessionId : String) :
    (∃ e, (logout env sessionId).exec w = (.error e, w)) ∨
      (logout env sessionId).exec w = (.ok "Logged out successfully", { w with
        sessions := fun sid => if sid = sessionId then none else w.sessions sid }) := by
  unfold logout
  simp only [Service.exec_bind, Service.exec_ite, Service.exec_throw, Service.exec_pure,
    SessionService.exec_destroySession]
  split
  · exact .inl ⟨_, rfl⟩
  · cases env.sessionFails with
    | true => exact .inl ⟨_, rfl⟩
    | false => exact .inr rfl

theorem exec_resetPassword (w : World) (dto : ResetPasswordDto) :
    ∃ e, (resetPassword dto).exec w = (.error e, w) := by
  unfold resetPassword
  simp only [Service.exec_bind, Service.exec_ite, Service.exec_throw]
  split
  · exact ⟨_, rfl⟩
  · split <;> exact ⟨_, rfl⟩

/-- An email in use by an active user is refused by the index as well. -/
theorem insert?_eq_none_of_email {record : User}
    (h : (w.users.find? fun u => u.email = record.email && u.isActive).isSome) :
    w.users.insert? record = none := by
  obtain ⟨user, huser⟩ := Option.isSome_iff_exists.mp h
  obtain ⟨hmem, hactive⟩ := Collection.mem_of_find? huser
  have hactive' : user.email = record.email ∧ user.isActive = true := by simpa using hactive
  cases hinsert : w.users.insert? record with
  | none => rfl
  | some users =>
    exact absurd hactive'.1 (Collection.key_ne_of_insert? User.email hinsert (by simp) hmem)

/-- The data of a signup is complete. -/
theorem signup_complete (dto : SignupDto) :
    ¬ (decide (dto.email = "") || decide (dto.username = "") || decide (dto.password = "")) = true ↔
      dto.email ≠ "" ∧ dto.username ≠ "" ∧ dto.password ≠ "" := by
  simp [and_assoc]

/-- A signup saves its user and then makes a session, or it throws and leaves all as it was. -/
theorem exec_signup (b : Bcrypt) (w : World) (env : Env) (dto : SignupDto) :
    (¬ SignupAdmitted b w env dto ∧ ∃ e, (signup b env dto).exec w = (.error e, w)) ∨
      (SignupAdmitted b w env dto ∧ ∃ w',
        w.users.insert? (signupRecord b env dto) = some w'.users ∧
        SessionService.OpensFor (signupRecord b env dto) w w' ∧
        (signup b env dto).exec w =
          (if env.sessionFails then .error (.app "SESSION_ESTABLISH_FAILED" 500)
            else .ok (signupRecord b env dto), w')) := by
  unfold signup
  simp only [Service.exec_bind, Service.exec_ite, Service.exec_throw, Service.exec_pure,
    exec_findUserByEmail]
  by_cases hmissing :
      (decide (dto.email = "") || decide (dto.username = "") || decide (dto.password = "")) = true
  · rw [if_pos hmissing]
    refine .inl ⟨fun hadm => ?_, _, rfl⟩
    exact (signup_complete dto).mpr ⟨hadm.1, hadm.2.1, hadm.2.2.1⟩ hmissing
  rw [if_neg hmissing]
  obtain ⟨hemail, husername, hpassword⟩ := (signup_complete dto).mp hmissing
  by_cases hused : (w.users.find? fun u => u.email = dto.email && u.isActive).isSome
  · rw [if_pos hused]
    refine .inl ⟨fun hadm => ?_, _, rfl⟩
    -- the index would refuse the row as well
    have hnone : w.users.insert? (signupRecord b env dto) = none := insert?_eq_none_of_email hused
    exact absurd hadm.2.2.2.2 (by rw [hnone]; simp)
  rw [if_neg hused, EncryptService.hash, if_neg hpassword, Option.getD_some]
  by_cases hhash : b.hash dto.password = ""
  · rw [if_pos hhash]
    exact .inl ⟨fun hadm => hadm.2.2.2.1 hhash, _, rfl⟩
  rw [if_neg hhash]
  have hcreate : createUser env.userId (SignupDto.toCreate dto (b.hash dto.password)) =
      insertUser (signupRecord b env dto) := rfl
  have hemailUsed : ¬ (w.users.find? fun u =>
      u.email = (signupRecord b env dto).email && u.isActive).isSome := hused
  rw [hcreate, exec_insertUser, if_neg hemailUsed]
  cases hinsert : w.users.insert? (signupRecord b env dto) with
  | none =>
    refine .inl ⟨fun hadm => ?_, _, rfl⟩
    exact absurd hadm.2.2.2.2 (by rw [hinsert]; simp)
  | some users =>
    refine .inr ⟨⟨hemail, husername, hpassword, hhash, by rw [hinsert]; rfl⟩, ?_⟩
    simp only [exec_createSession]
    let user := signupRecord b env dto
    let session : CreateSessionDto :=
      ⟨user.userId, user.username, user.roles, env.ipAddress, env.userAgent⟩
    have hopens : SessionService.OpensFor user { w with users := users }
        (SessionService.store env session { w with users := users }) :=
      SessionService.opensFor_store _ rfl rfl
    cases env.sessionFails <;> exact ⟨_, by rw [SessionService.store_users], hopens, rfl⟩

/-- An update of the password alone is never refused. -/
theorem exec_updateUser_onlyPassword {userId password : String} {user : User}
    (huser : w.users.find? (fun u => u.userId = userId && u.isActive) = some user)
    (hpassword : password ≠ "") :
    ∃ users, w.users.update? (fun u => u.userId = userId)
        (fun u => { u with password := some (b.hash password) }) = some users ∧
      (updateUser b userId (onlyPassword password)).exec w =
        (.ok { user with password := some (b.hash password) }, { w with users := users }) := by
  have hassign : (onlyPassword password).assign ((onlyPassword password).storedPassword b) =
      fun u => { u with password := some (b.hash password) } := by
    funext u
    simp [UpdateUserDto.assign, UpdateUserDto.storedPassword, onlyPassword, EncryptService.hash,
      hpassword]
  obtain ⟨users, husers⟩ := Option.isSome_iff_exists.mp
    (Collection.update?_isSome (c := w.users) (p := fun u => u.userId = userId)
      (f := fun u : User => { u with password := some (b.hash password) }) (by simp))
  refine ⟨users, husers, ?_⟩
  rw [updateUser, hassign, exec_rewrite]
  · simp only [huser, husers]
  · rintro _ _ ⟨⟩ u
    exact ⟨rfl, rfl⟩

/-- A change of password that is admitted writes the hash of the hash. -/
theorem exec_changePassword (b : Bcrypt) (w : World) (env : Env) (userId : String)
    (dto : ChangePasswordDto) :
    (¬ ChangeAdmitted b w userId dto ∧
      ∃ e, (changePassword b env userId dto).exec w = (.error e, w)) ∨
    (ChangeAdmitted b w userId dto ∧ ∃ w',
      w.users.update? (fun u => u.userId = userId)
        (fun u => { u with password := some (b.hash (b.hash dto.newPassword)) }) =
          some w'.users ∧
      (∀ sid d, w'.sessions sid = some d → w.sessions sid = some d) ∧
      (changePassword b env userId dto).exec w =
        (if env.sessionFails then .error (.app "SESSION_INVALIDATION_FAILED" 500)
          else .ok "Password changed successfully. Please login again.", w')) := by
  unfold changePassword
  simp only [Service.exec_bind, Service.exec_ite, Service.exec_throw, exec_findUserById]
  by_cases hretype : dto.newPassword ≠ dto.retypePassword
  · rw [if_pos hretype]
    exact .inl ⟨fun hadm => hretype hadm.1, _, rfl⟩
  -- each test refuses in turn, with nothing changed
  rw [if_neg hretype]
  by_cases hid : userId = ""
  · rw [if_pos hid]
    exact .inl ⟨fun hadm => hadm.2.1 hid, _, rfl⟩
  rw [if_neg hid]
  cases huser : w.users.find? fun u => u.userId = userId && u.isActive with
  | none => exact .inl ⟨by simp [ChangeAdmitted, huser], .app "USER_NOT_FOUND" 404, rfl⟩
  | some user =>
    cases hpassword : user.password with
    | none =>
      refine .inl ⟨by simp [ChangeAdmitted, huser, Knows, hpassword],
        .error "data and hash arguments required", ?_⟩
      simp [EncryptService.compareHash, hpassword]
    | some hashed =>
      have hcompared : (EncryptService.compareHash b user.password dto.oldPassword).exec w =
          (.ok (b.compare dto.oldPassword hashed), w) := by
        rw [hpassword]
        rfl
      simp only [Service.exec_bind, hcompared, Service.exec_ite, Service.exec_throw]
      by_cases hcompare : b.compare dto.oldPassword hashed = true
      · rw [if_pos hcompare]
        by_cases hnew : dto.newPassword = ""
        · rw [EncryptService.hash, if_pos hnew]
          exact .inl ⟨by simp [ChangeAdmitted, hnew], _, rfl⟩
        rw [EncryptService.hash, if_neg hnew, Option.getD_some]
        by_cases hhash : b.hash dto.newPassword = ""
        · rw [if_pos hhash]
          exact .inl ⟨by simp [ChangeAdmitted, hhash], _, rfl⟩
        rw [if_neg hhash]
        -- the hash goes through the update of a user, which hashes it again
        obtain ⟨users, husers, hrun⟩ := exec_updateUser_onlyPassword (b := b) huser hhash
        refine .inr ⟨⟨not_not.mp hretype, hid, ?_, hnew, hhash⟩, ?_⟩
        · simp [huser, Knows, hpassword, hcompare]
        · simp only [hrun, SessionService.exec_invalidateUserSessions]
          cases env.sessionFails
          · exact ⟨SessionService.dropUser userId { w with users := users }, husers,
              fun _ _ hd => SessionService.of_dropUser hd, rfl⟩
          · exact ⟨{ w with users := users }, husers, fun _ _ hd => hd, rfl⟩
      · rw [if_neg hcompare]
        exact .inl ⟨by simp [ChangeAdmitted, huser, Knows, hpassword, hcompare], _, rfl⟩

end AuthService

end IotPanel.Users
