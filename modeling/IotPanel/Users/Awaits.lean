import IotPanel.Lib.Program
import IotPanel.Users.Http

/-!
# The services one await at a time

The routes once more, as programs that stop wherever the code awaits the database or Redis: at a
statement of the repository, and at a call of the session service, which is begun first and
awaited then. A program that is carried out at once does what the service of the same name does.
-/

namespace IotPanel.Users

open Session (SessionData CreateSessionDto)

/-- The calls of the session service that the guard and the services make. -/
inductive Ask
  | createSession (dto : CreateSessionDto)
  | canActivate (sessionId : String)
  | destroySession (sessionId : String)
  | invalidateUserSessions (userId : String)

abbrev Ask.Reply : Ask → Type
  | .createSession _ => String
  | .canActivate _ => SessionData
  | .destroySession _ | .invalidateUserSessions _ => Unit

/-- A statement of the repository of users, or one half of a call: a call that is begun answers
with the number of its promise. -/
inductive Command
  | findOne (p : User → Bool)
  | save (record : User)
  | update (userId : String) (f : User → User)
  | call (a : Ask)
  | result (a : Ask) (promise : ℕ)

abbrev Command.Reply : Command → Type
  | .findOne _ => Option User
  | .save _ | .update _ _ => Unit
  | .call _ => ℕ
  | .result a _ => a.Reply

abbrev Awaiting := Program Command Command.Reply Exception

namespace Awaits

def findOne (p : User → Bool) : Awaiting (Option User) := Program.perform (Command.findOne p)

def save (record : User) : Awaiting Unit := Program.perform (Command.save record)

def update (userId : String) (f : User → User) : Awaiting Unit :=
  Program.perform (Command.update userId f)

def ask (a : Ask) : Awaiting a.Reply := do
  let promise ← Program.perform (Command.call a)
  Program.perform (Command.result a promise)

/-- A service that looks at nothing stored. -/
def check {α : Type} (x : Service α) : Awaiting α := .ret (x.exec .initial).1

/-! ### `UsersService` -/

def findUserById (userId : String) : Awaiting (Option User) :=
  findOne fun u => u.userId = userId && u.isActive

def findUserByEmail (email : String) : Awaiting (Option User) :=
  findOne fun u => u.email = email && u.isActive

def insertUser (record : User) : Awaiting User := do
  if (← findUserByEmail record.email).isSome then
    throw (.unauthorized "Email in Use")
  save record
  match ← findOne fun u => u.userId = record.userId with
  | some created => return created
  | none => throw (.forbidden "Create user failed")

def createUser (userId : String) (dto : CreateUserDto) : Awaiting User :=
  insertUser (dto.record userId (some dto.password))

def createUserManually (b : Bcrypt) (userId : String) (dto : CreateUserDto) : Awaiting User :=
  insertUser (dto.record userId (EncryptService.hash b dto.password))

def rewrite (missing failed : String) (activeOnly : Bool) (userId : String)
    (change : User → Except Exception (User → User)) : Awaiting User := do
  match ← findUserById userId with
  | none => throw (.notFound missing)
  | some user =>
    match change user with
    | .error e => throw e
    | .ok f =>
      update userId f
      match ← findOne fun u => u.userId = userId && (!activeOnly || u.isActive) with
      | some updated => return updated
      | none => throw (.forbidden failed)

def updateUser (b : Bcrypt) (userId : String) (dto : UpdateUserDto) : Awaiting User :=
  rewrite "User not Found" "Update user failed" false userId fun _ =>
    .ok (dto.assign (dto.storedPassword b))

def deleteUser (userId : String) : Awaiting String := do
  match ← findUserById userId with
  | none => throw (.notFound "User not found")
  | some _ =>
    update userId fun u => { u with isActive := false }
    return "User with id " ++ userId ++ " was successfully deleted"

def assignRoles (userId : String) (roles : List Json) : Awaiting User :=
  rewrite "User not found" "Role Assign Failed" true userId fun _ =>
    .ok fun u => { u with roles := roles }

def addRoles (userId : String) (rolesToAdd : List Json) : Awaiting User :=
  rewrite "User not found" "Add role to user failed" true userId fun user =>
    .ok fun u => { u with roles := mergeRoles user.roles rolesToAdd }

def removeRoles (userId : String) (rolesToRemove : List Json) : Awaiting User :=
  rewrite "User not found" "Remove user role failed" true userId fun user =>
    let updatedRoles := withoutRoles user.roles rolesToRemove
    if updatedRoles = [] then
      .error (.unauthorized
        ("User must have at least one role. Current roles: " ++ Json.joinText ", " user.roles))
    else .ok fun u => { u with roles := updatedRoles }

/-! ### `AuthService` -/

def createSession (env : Env) (user : User) : Awaiting String :=
  ask (.createSession
    { userId := user.userId, username := user.username, roles := user.roles,
      ipAddress := env.ipAddress, userAgent := env.userAgent })

def signup (b : Bcrypt) (env : Env) (dto : SignupDto) : Awaiting User := do
  if dto.email = "" || dto.username = "" || dto.password = "" then
    throw (.app "INVALID_REQUEST" 400)
  if (← findUserByEmail dto.email).isSome then
    throw (.app "EMAIL_ALREADY_EXISTS" 409)
  let hashedPassword := (EncryptService.hash b dto.password).getD ""
  if hashedPassword = "" then
    throw (.app "INVALID_CREDENTIALS" 401)
  let createdUser ← createUser env.userId (AuthService.SignupDto.toCreate dto hashedPassword)
  let _ ← createSession env createdUser
  return createdUser

def authenticate (b : Bcrypt) (dto : LoginDto) : Awaiting User := do
  match ← findUserByEmail dto.email with
  | none => throw (.app "INVALID_CREDENTIALS" 401)
  | some user =>
    if ← check (EncryptService.compareHash b user.password dto.password) then
      return user
    else throw (.app "INVALID_CREDENTIALS" 401)

def login (b : Bcrypt) (env : Env) (dto : LoginDto) : Awaiting User := do
  let user ← authenticate b dto
  let _ ← createSession env user
  return user

def logout (sessionId : String) : Awaiting String := do
  if sessionId = "" then throw (.unauthorized "Session not found")
  ask (.destroySession sessionId)
  return "Logged out successfully"

def changePassword (b : Bcrypt) (userId : String) (dto : ChangePasswordDto) : Awaiting String := do
  if dto.newPassword ≠ dto.retypePassword then
    throw (.app "PASSWORDS_DO_NOT_MATCH" 400)
  if userId = "" then throw (.app "USER_NOT_FOUND" 404)
  match ← findUserById userId with
  | none => throw (.app "USER_NOT_FOUND" 404)
  | some user =>
    if ← check (EncryptService.compareHash b user.password dto.oldPassword) then
      let hashedPassword := (EncryptService.hash b dto.newPassword).getD ""
      if hashedPassword = "" then
        throw (.app "ENCRYPTION_FAILED" 500)
      let _ ← updateUser b userId (AuthService.onlyPassword hashedPassword)
      ask (.invalidateUserSessions userId)
      return "Password changed successfully. Please login again."
    else throw (.app "INVALID_CREDENTIALS" 401)

/-! ### Guards and controllers -/

def sessionAuthGuard (req : Request) : Awaiting SessionData :=
  if req.sessionId.getD "" = "" then throw (.unauthorized "Session not found. Please login.")
  else ask (.canActivate (req.sessionId.getD ""))

def guarded (req : Request) (handler : SessionData → Awaiting Reply) : Awaiting Reply := do
  let session ← sessionAuthGuard req
  check (rolesGuard req.route.roles session.roles)
  handler session

def dispatch (fmt : Formats) (b : Bcrypt) (req : Request) : Awaiting Reply :=
  match req.route with
  | .signup => do
    check (validationPipe (signupDto fmt) req.body)
    .user <$> signup b req.env (.ofBody req.body)
  | .login => do
    check (validationPipe (loginDto fmt) req.body)
    .user <$> login b req.env (.ofBody req.body)
  | .logout => guarded req fun _ =>
    .message <$> logout (req.sessionId.getD "")
  | .changePassword => guarded req fun session => do
    check (validationPipe changePasswordDto req.body)
    .message <$> changePassword b session.userId (.ofBody req.body)
  | .resetPassword => do
    check (validationPipe resetPasswordDto req.body)
    .message <$> check (AuthService.resetPassword (.ofBody req.body))
  | .create => guarded req fun _ => do
    check (validationPipe (createUserDto fmt) req.body)
    .user <$> createUserManually b req.env.userId (.ofBody req.body)
  | .updateProfile => guarded req fun session => do
    check (validationPipe (updateUserDto fmt) req.body)
    .user <$> updateUser b session.userId (.ofBody req.body)
  | .update id => guarded req fun _ => do
    check (validationPipe (updateUserDto fmt) req.body)
    .user <$> updateUser b id (.ofBody req.body)
  | .delete id => guarded req fun _ =>
    .message <$> deleteUser id
  | .assignRoles id => guarded req fun _ => do
    check (validationPipe assignRolesDto req.body)
    .user <$> assignRoles id ((listOf req.body "roles").getD [])
  | .addRoles id => guarded req fun _ => do
    check (validationPipe assignRolesDto req.body)
    .user <$> addRoles id ((listOf req.body "roles").getD [])
  | .removeRoles id => guarded req fun _ => do
    check (validationPipe assignRolesDto req.body)
    .user <$> removeRoles id ((listOf req.body "roles").getD [])

/-! ### Carried out at once -/

/-- The call of the session service in the surroundings of the request. -/
def serve (req : Request) : (a : Ask) → Service a.Reply
  | .createSession dto => SessionService.createSession req.env dto
  | .canActivate sessionId => do
    if req.guardFails then throw (.unauthorized "Authentication failed. Please login again.")
    let w ← get
    match w.sessions sessionId with
    | none => throw (.unauthorized "Session expired or invalid. Please login again.")
    | some d =>
      let d := { d with lastActivity := req.env.now }
      set { w with sessions := fun sid => if sid = sessionId then some d else w.sessions sid }
      return d
  | .destroySession sessionId => SessionService.destroySession req.env sessionId
  | .invalidateUserSessions userId => SessionService.invalidateUserSessions req.env userId

/-- What a command does at once. A call takes effect where it is awaited. -/
def act (req : Request) : (c : Command) → Service c.Reply
  | .findOne p => UserRepo.findOne p
  | .save record => UserRepo.save record
  | .update userId f => UserRepo.update userId f
  | .call _ => return (0 : ℕ)
  | .result a _ => serve req a

/-- Carried out at once, the program does what the service does. -/
def Agrees {α : Type} (req : Request) (x : Awaiting α) (y : Service α) : Prop :=
  ∀ w, x.exec (fun c => (act req c).exec) w = y.exec w

section Agreement

variable {α β : Type} {req : Request} {x x' : Awaiting α} {y y' : Service α}

theorem agrees_pure (a : α) : Agrees req (pure a) (pure a) := fun _ => rfl

theorem agrees_throw (e : Exception) : Agrees req (throw e : Awaiting α) (throw e) := fun _ => rfl

theorem agrees_perform (c : Command) : Agrees req (Program.perform c) (act req c) := fun _ => rfl

theorem agrees_bind {f : α → Awaiting β} {g : α → Service β} (hx : Agrees req x y)
    (hf : ∀ a, Agrees req (f a) (g a)) : Agrees req (x >>= f) (y >>= g) := by
  intro w
  rw [Program.exec_bind, Service.exec_bind, hx w]
  rcases y.exec w with ⟨a | a, w'⟩
  · rfl
  · exact hf a w'

theorem agrees_map (f : α → β) (hx : Agrees req x y) : Agrees req (f <$> x) (f <$> y) := by
  rw [map_eq_pure_bind, map_eq_pure_bind]
  exact agrees_bind hx fun a => agrees_pure (f a)

theorem agrees_ite {c : Prop} [Decidable c] (hx : Agrees req x y) (hx' : Agrees req x' y') :
    Agrees req (if c then x else x') (if c then y else y') := by
  split
  · exact hx
  · exact hx'

/-- A service whose outcome does not depend on what is stored. -/
theorem agrees_check (h : ∀ w, y.exec w = ((y.exec .initial).1, w)) :
    Agrees req (check y) y := fun w => (h w).symm

theorem agrees_ask (a : Ask) : Agrees req (ask a) (serve req a) := fun _ => rfl

theorem agrees_validationPipe (props : List ClassValidator.Property) (body : Json) :
    Agrees req (check (validationPipe props body)) (validationPipe props body) := by
  refine agrees_check fun w => ?_
  unfold validationPipe
  split <;> rfl

theorem agrees_rolesGuard (required : List Role) (roles : List Json) :
    Agrees req (check (rolesGuard required roles)) (rolesGuard required roles) := by
  refine agrees_check fun w => ?_
  unfold rolesGuard
  simp only [Service.exec_ite, Service.exec_pure, Service.exec_throw]
  split
  · rfl
  split
  · rfl
  split <;> rfl

theorem agrees_compareHash (b : Bcrypt) (hashed : Option String) (text : String) :
    Agrees req (check (EncryptService.compareHash b hashed text))
      (EncryptService.compareHash b hashed text) := by
  refine agrees_check fun w => ?_
  cases hashed <;> rfl

theorem agrees_resetPassword (dto : ResetPasswordDto) :
    Agrees req (check (AuthService.resetPassword dto)) (AuthService.resetPassword dto) := by
  refine agrees_check fun w => ?_
  unfold AuthService.resetPassword
  simp only [Service.exec_bind, Service.exec_ite, Service.exec_throw]
  split
  · rfl
  split <;> rfl

/-- A check before the rest of a method. -/
theorem agrees_guard {c : Prop} [Decidable c] {e : Exception} {f : PUnit → Awaiting β}
    {g : PUnit → Service β} (h : Agrees req (f ⟨⟩) (g ⟨⟩)) :
    Agrees req (if c then throw e >>= f else f ⟨⟩) (if c then throw e >>= g else g ⟨⟩) :=
  agrees_ite (fun _ => rfl) h

theorem agrees_insertUser (record : User) :
    Agrees req (insertUser record) (UsersService.insertUser record) := by
  refine agrees_bind (agrees_perform _) fun user => agrees_guard ?_
  refine agrees_bind (agrees_perform _) fun _ => ?_
  refine agrees_bind (agrees_perform _) fun created => ?_
  cases created with
  | some created => exact agrees_pure _
  | none => exact agrees_throw _

theorem agrees_rewrite (missing failed : String) (activeOnly : Bool) (userId : String)
    (change : User → Except Exception (User → User)) :
    Agrees req (rewrite missing failed activeOnly userId change)
      (UsersService.rewrite missing failed activeOnly userId change) := by
  refine agrees_bind (agrees_perform _) fun user => ?_
  cases user with
  | none => exact agrees_throw _
  | some user =>
    show Agrees req (match change user with | .error e => _ | .ok f => _)
      (match change user with | .error e => _ | .ok f => _)
    cases change user with
    | error e => exact agrees_throw _
    | ok f =>
      refine agrees_bind (agrees_perform _) fun _ => ?_
      refine agrees_bind (agrees_perform _) fun updated => ?_
      cases updated with
      | some updated => exact agrees_pure _
      | none => exact agrees_throw _

theorem agrees_deleteUser (userId : String) :
    Agrees req (deleteUser userId) (UsersService.deleteUser userId) := by
  refine agrees_bind (agrees_perform _) fun user => ?_
  cases user with
  | none => exact agrees_throw _
  | some user => exact agrees_bind (agrees_perform _) fun _ => agrees_pure _

theorem agrees_createSession (user : User) :
    Agrees req (createSession req.env user) (AuthService.createSession req.env user) :=
  agrees_ask _

theorem agrees_signup (b : Bcrypt) (dto : SignupDto) :
    Agrees req (signup b req.env dto) (AuthService.signup b req.env dto) := by
  unfold signup AuthService.signup
  refine agrees_guard ?_
  refine agrees_bind (agrees_perform _) fun user => agrees_guard ?_
  refine agrees_guard ?_
  refine agrees_bind (agrees_insertUser _) fun created => ?_
  exact agrees_bind (agrees_createSession _) fun _ => agrees_pure _

theorem agrees_login (b : Bcrypt) (dto : LoginDto) :
    Agrees req (login b req.env dto) (AuthService.login b req.env dto) := by
  refine agrees_bind (agrees_bind (agrees_perform _) fun user => ?_) fun user => ?_
  · cases user with
    | none => exact agrees_throw _
    | some user =>
      exact agrees_bind (agrees_compareHash _ _ _) fun valid =>
        agrees_ite (agrees_pure _) (agrees_throw _)
  · exact agrees_bind (agrees_createSession _) fun _ => agrees_pure _

theorem agrees_logout (sessionId : String) :
    Agrees req (logout sessionId) (AuthService.logout req.env sessionId) := by
  unfold logout AuthService.logout
  refine agrees_guard ?_
  exact agrees_bind (agrees_ask _) fun _ => agrees_pure _

theorem agrees_changePassword (b : Bcrypt) (userId : String) (dto : ChangePasswordDto) :
    Agrees req (changePassword b userId dto) (AuthService.changePassword b req.env userId dto) := by
  unfold changePassword AuthService.changePassword
  refine agrees_guard ?_
  refine agrees_guard ?_
  refine agrees_bind (agrees_perform _) fun user => ?_
  cases user with
  | none => exact agrees_throw _
  | some user =>
    refine agrees_bind (agrees_compareHash _ _ _) fun valid => ?_
    refine agrees_ite (agrees_guard ?_) (agrees_throw _)
    refine agrees_bind (agrees_rewrite _ _ _ _ _) fun _ => ?_
    exact agrees_bind (agrees_ask _) fun _ => agrees_pure _

theorem agrees_sessionAuthGuard :
    Agrees req (sessionAuthGuard req) (Users.sessionAuthGuard req) := by
  unfold sessionAuthGuard Users.sessionAuthGuard
  split
  · rename_i hempty
    split
    · exact agrees_throw _
    · exact agrees_throw _
    · rename_i hne hcookie
      rw [hcookie] at hempty
      exact absurd hempty hne
  · rename_i hne
    split
    · rename_i hcookie
      rw [hcookie] at hne
      exact absurd rfl hne
    · rename_i hcookie
      rw [hcookie] at hne
      exact absurd rfl hne
    · rename_i hcookie
      rw [hcookie]
      exact agrees_ask (.canActivate _)

theorem agrees_guarded {handler : SessionData → Awaiting Reply}
    {handler' : SessionData → Service Reply} (h : ∀ d, Agrees req (handler d) (handler' d)) :
    Agrees req (guarded req handler) (Users.guarded req handler') :=
  agrees_bind agrees_sessionAuthGuard fun d =>
    agrees_bind (agrees_rolesGuard _ _) fun _ => h d

/-- Behind the validation of the body. -/
theorem agrees_validated {f : α → Reply} (props : List ClassValidator.Property)
    (h : Agrees req x y) :
    Agrees req (do check (validationPipe props req.body); f <$> x)
      (do validationPipe props req.body; f <$> y) :=
  agrees_bind (agrees_validationPipe _ _) fun _ => agrees_map f h

/-- A request that nobody interferes with is served as the services say. -/
theorem agrees_dispatch (fmt : Formats) (b : Bcrypt) (req : Request) :
    Agrees req (dispatch fmt b req) (Users.dispatch fmt b req) := by
  unfold dispatch Users.dispatch
  cases req.route with
  | signup => exact agrees_validated _ (agrees_signup _ _)
  | login => exact agrees_validated _ (agrees_login _ _)
  | logout => exact agrees_guarded fun _ => agrees_map _ (agrees_logout _)
  | changePassword => exact agrees_guarded fun d => agrees_validated _ (agrees_changePassword _ _ _)
  | resetPassword => exact agrees_validated _ (agrees_resetPassword _)
  | create => exact agrees_guarded fun _ => agrees_validated _ (agrees_insertUser _)
  | updateProfile => exact agrees_guarded fun _ => agrees_validated _ (agrees_rewrite _ _ _ _ _)
  | update id => exact agrees_guarded fun _ => agrees_validated _ (agrees_rewrite _ _ _ _ _)
  | delete id => exact agrees_guarded fun _ => agrees_map _ (agrees_deleteUser _)
  | assignRoles id => exact agrees_guarded fun _ => agrees_validated _ (agrees_rewrite _ _ _ _ _)
  | addRoles id => exact agrees_guarded fun _ => agrees_validated _ (agrees_rewrite _ _ _ _ _)
  | removeRoles id => exact agrees_guarded fun _ => agrees_validated _ (agrees_rewrite _ _ _ _ _)

end Agreement

end Awaits

end IotPanel.Users
