import IotPanel.Js.ClassValidator
import IotPanel.Users.Auth

/-!
# The routes of the users and authentication controllers

A request passes the guards of its route, the validation of its body against the class of the
route, and then the handler.
-/

namespace IotPanel.Users

open ClassValidator
open Session (SessionData CreateSessionDto)

/-- The tests of the validation package that depend on formats. -/
structure Formats where
  isEmail : String → Bool
  isURL : String → Bool

/-! ### The classes of the bodies -/

def ofString (test : String → Bool) : JsVal → Bool
  | some (.str s) => test s
  | _ => false

/-- The length of a text: its characters, without variation selectors. -/
def textLength (s : String) : ℕ := s.toList.countP fun c => c.toNat ≠ 0xFE0E && c.toNat ≠ 0xFE0F

def minLength (n : ℕ) : JsVal → Bool := ofString fun s => n ≤ textLength s

def maxLength (n : ℕ) : JsVal → Bool := ofString fun s => textLength s ≤ n

/-- `/^[a-zA-Z0-9_]+$/` -/
def matchesUsername : JsVal → Bool :=
  ofString fun s => s ≠ "" && s.toList.all fun c => c.isAlphanum || c = '_'

def ofArray (test : List Json → Bool) : JsVal → Bool
  | some (.arr xs) => test xs
  | _ => false

def createUserDto (fmt : Formats) : List Property :=
  [.required "username" [isString, isNotEmpty],
    .required "email" [ofString fmt.isEmail, isNotEmpty],
    .required "password" [isString, isNotEmpty],
    .required "roles" [isArray, isNotEmpty],
    .isOptional "firstName" [isString],
    .isOptional "lastName" [isString]]

def updateUserDto (fmt : Formats) : List Property :=
  [.isOptional "username" [isString, minLength 3, maxLength 20, matchesUsername],
    .isOptional "email" [ofString fmt.isEmail],
    .isOptional "password" [isString, minLength 8],
    .isOptional "firstName" [isString, minLength 2, maxLength 50],
    .isOptional "lastName" [isString, minLength 2, maxLength 50],
    .isOptional "photoUrl" [ofString fmt.isURL],
    .isOptional "roles" [isArray]]

def assignRolesDto : List Property :=
  [.required "roles"
    [isArray, ofArray fun xs => xs.all fun x => isEnum (Role.all.map Role.value) (some x),
      ofArray fun xs => 1 ≤ xs.length, ofArray fun xs => xs.length ≤ Role.all.length]]

def signupDto (fmt : Formats) : List Property :=
  [.required "username" [isString, isNotEmpty],
    .required "email" [ofString fmt.isEmail, isNotEmpty],
    .required "password" [isString, isNotEmpty]]

def loginDto (fmt : Formats) : List Property :=
  [.required "email" [ofString fmt.isEmail, isNotEmpty],
    .required "password" [isString, isNotEmpty]]

def changePasswordDto : List Property :=
  [.required "oldPassword" [isString, isNotEmpty], .required "newPassword" [isString, isNotEmpty],
    .required "retypePassword" [isString, isNotEmpty]]

def resetPasswordDto : List Property :=
  [.required "token" [isString], .required "newPassword" [isString, minLength 6],
    .required "retypePassword" [isString, minLength 6]]

/-- `forbidNonWhitelisted`: the body has no property that the class does not declare. -/
def whitelisted (props : List Property) : Json → Bool
  | .obj fields => fields.all fun f => props.any fun p => p.name = f.1
  | _ => false

/-- The global `ValidationPipe`. -/
def validationPipe (props : List Property) (body : Json) : Service Unit :=
  if validate props body && whitelisted props body then return ()
  else throw (.badRequest "Bad Request Exception")

/-! ### What the handlers read of a validated body -/

def textOf (body : Json) (name : String) : Option String :=
  match body.get name with
  | some (.str s) => some s
  | _ => none

def listOf (body : Json) (name : String) : Option (List Json) :=
  match body.get name with
  | some (.arr xs) => some xs
  | _ => none

def SignupDto.ofBody (body : Json) : SignupDto :=
  { username := (textOf body "username").getD "", email := (textOf body "email").getD "",
    password := (textOf body "password").getD "" }

def LoginDto.ofBody (body : Json) : LoginDto :=
  { email := (textOf body "email").getD "", password := (textOf body "password").getD "" }

def ChangePasswordDto.ofBody (body : Json) : ChangePasswordDto :=
  { oldPassword := (textOf body "oldPassword").getD "",
    newPassword := (textOf body "newPassword").getD "",
    retypePassword := (textOf body "retypePassword").getD "" }

def ResetPasswordDto.ofBody (body : Json) : ResetPasswordDto :=
  { token := (textOf body "token").getD "", newPassword := (textOf body "newPassword").getD "",
    retypePassword := (textOf body "retypePassword").getD "" }

def CreateUserDto.ofBody (body : Json) : CreateUserDto :=
  { username := (textOf body "username").getD "", email := (textOf body "email").getD "",
    password := (textOf body "password").getD "", roles := (listOf body "roles").getD [],
    firstName := textOf body "firstName", lastName := textOf body "lastName" }

def UpdateUserDto.ofBody (body : Json) : UpdateUserDto :=
  { username := textOf body "username", email := textOf body "email",
    password := textOf body "password", firstName := textOf body "firstName",
    lastName := textOf body "lastName", photoUrl := textOf body "photoUrl",
    roles := listOf body "roles" }

/-! ### Guards -/

inductive Route
  | signup
  | login
  | logout
  | changePassword
  | resetPassword
  | create
  | updateProfile
  | update (id : String)
  | delete (id : String)
  | assignRoles (id : String)
  | addRoles (id : String)
  | removeRoles (id : String)

/-- A request to a route. `sessionId` is its cookie; the guard may find the session store out of
order. -/
structure Request where
  route : Route
  sessionId : Option String
  body : Json
  env : Env
  guardFails : Bool

/-- The session that the cookie of a request is the id of. -/
def sessionOf (w : World) (req : Request) : Option SessionData :=
  req.sessionId.bind w.sessions

/-- `SessionAuthGuard.canActivate`: the session for the handlers, renewed. -/
def sessionAuthGuard (req : Request) : Service SessionData := do
  match req.sessionId with
  | none | some "" => throw (.unauthorized "Session not found. Please login.")
  | some sessionId =>
    if req.guardFails then throw (.unauthorized "Authentication failed. Please login again.")
    let w ← get
    match w.sessions sessionId with
    | none => throw (.unauthorized "Session expired or invalid. Please login again.")
    | some d =>
      let d := { d with lastActivity := req.env.now }
      set { w with sessions := fun sid => if sid = sessionId then some d else w.sessions sid }
      return d

/-- `RolesGuard.canActivate`: one of the required roles is among the user's. -/
def rolesGuard (requiredRoles : List Role) (userRoles : List Json) : Service Unit :=
  if requiredRoles = [] then return ()
  else if userRoles = [] then throw (.forbidden "Access denied - no user roles found")
  else if requiredRoles.any fun r => includes userRoles r.json then return ()
  else throw (.forbidden
    ("Access denied. Required roles: " ++ ", ".intercalate (requiredRoles.map Role.value) ++
      ". Your roles: " ++ Json.joinText ", " userRoles))

/-- The roles that `@Roles` demands on a route; none where there is no `RolesGuard`. -/
def Route.roles : Route → List Role
  | .create | .update _ => [.admin, .superAdmin]
  | .updateProfile => [.admin, .superAdmin, .engineer, .test, .viewer]
  | .delete _ | .assignRoles _ | .addRoles _ | .removeRoles _ => [.superAdmin]
  | .signup | .login | .logout | .changePassword | .resetPassword => []

/-! ### Controllers -/

/-- The handler behind the guards of the route. -/
def guarded (req : Request) (handler : SessionData → Service Reply) : Service Reply := do
  let session ← sessionAuthGuard req
  rolesGuard req.route.roles session.roles
  handler session

def dispatch (fmt : Formats) (b : Bcrypt) (req : Request) : Service Reply :=
  match req.route with
  | .signup => do
    validationPipe (signupDto fmt) req.body
    .user <$> AuthService.signup b req.env (.ofBody req.body)
  | .login => do
    validationPipe (loginDto fmt) req.body
    .user <$> AuthService.login b req.env (.ofBody req.body)
  | .logout => guarded req fun _ =>
    .message <$> AuthService.logout req.env (req.sessionId.getD "")
  | .changePassword => guarded req fun session => do
    validationPipe changePasswordDto req.body
    .message <$> AuthService.changePassword b req.env session.userId (.ofBody req.body)
  | .resetPassword => do
    validationPipe resetPasswordDto req.body
    .message <$> AuthService.resetPassword (.ofBody req.body)
  | .create => guarded req fun _ => do
    validationPipe (createUserDto fmt) req.body
    .user <$> UsersService.createUserManually b req.env.userId (.ofBody req.body)
  | .updateProfile => guarded req fun session => do
    validationPipe (updateUserDto fmt) req.body
    .user <$> UsersService.updateUser b session.userId (.ofBody req.body)
  | .update id => guarded req fun _ => do
    validationPipe (updateUserDto fmt) req.body
    .user <$> UsersService.updateUser b id (.ofBody req.body)
  | .delete id => guarded req fun _ =>
    .message <$> UsersService.deleteUser id
  | .assignRoles id => guarded req fun _ => do
    validationPipe assignRolesDto req.body
    .user <$> UsersService.assignRoles id ((listOf req.body "roles").getD [])
  | .addRoles id => guarded req fun _ => do
    validationPipe assignRolesDto req.body
    .user <$> UsersService.addRoles id ((listOf req.body "roles").getD [])
  | .removeRoles id => guarded req fun _ => do
    validationPipe assignRolesDto req.body
    .user <$> UsersService.removeRoles id ((listOf req.body "roles").getD [])

end IotPanel.Users
