import IotPanel.Session.Keys
import IotPanel.Users.Awaits

/-!
# Signing up while the stores may fail

`AuthService.signup` once more, with all that it waits for: the database, bcrypt, the two writes of
a new session to Redis and the cookie. It undoes nothing, so that a failure after the user has been
stored leaves the user behind.
-/

namespace IotPanel.Users

open Program
open Session (CreateSessionDto SessionData Redis Record sessionKey trackingKey)

/-- What a signup waits for. -/
inductive SignupCommand
  | findOne (p : User → Bool)
  | save (record : User)
  | hash (password : String)
  | setex (key : String) (value : Record)
  | setCookie (sessionId : String)

abbrev SignupCommand.Reply : SignupCommand → Type
  | .findOne _ => Option User
  | .hash _ => Option String
  | _ => Unit

abbrev Signing := Program SignupCommand SignupCommand.Reply Exception

namespace Signing

def hash (password : String) : Signing (Option String) := .perform (SignupCommand.hash password)

def setex (key : String) (value : Record) : Signing Unit := .perform (SignupCommand.setex key value)

def setCookie (sessionId : String) : Signing Unit := .perform (SignupCommand.setCookie sessionId)

/-- `ISessionData` of a session that begins. -/
def sessionData (env : Env) (dto : CreateSessionDto) : SessionData :=
  { userId := dto.userId, username := dto.username, roles := dto.roles, loginTime := env.now,
    lastActivity := env.now, ipAddress := dto.ipAddress, userAgent := dto.userAgent }

/-- `SessionService.createSession` -/
def storeSession (env : Env) (dto : CreateSessionDto) : Signing String := do
  try
    setex (sessionKey env.sessionId) (.data (sessionData env dto))
    setex (trackingKey dto.userId env.sessionId) .tracked
    pure env.sessionId
  catch _ => throw (.app "SESSION_ESTABLISH_FAILED" 500)

/-- The commands of the services as what they wait for. The only call of a signup is
`createSession`. -/
def detail (env : Env) : (c : Command) → Signing c.Reply
  | .findOne p => .perform (SignupCommand.findOne p)
  | .save record => .perform (SignupCommand.save record)
  | .call _ => pure (0 : ℕ)
  | .result (.createSession dto) _ => storeSession env dto
  | _ => throw (.error "no part of a signup")

/-- What a service does, in detail. -/
def lift {α : Type} (env : Env) (x : Awaiting α) : Signing α := x.interpret (detail env)

def sessionDto (env : Env) (user : User) : CreateSessionDto :=
  { userId := user.userId, username := user.username, roles := user.roles,
    ipAddress := env.ipAddress, userAgent := env.userAgent }

/-- `AuthService.createSession` -/
def createSession (env : Env) (user : User) : Signing Unit := do
  let sessionId ← storeSession env (sessionDto env user)
  setCookie sessionId

def signup (env : Env) (dto : SignupDto) : Signing User := do
  if dto.email = "" || dto.username = "" || dto.password = "" then
    throw (.app "INVALID_REQUEST" 400)
  if (← lift env (Awaits.findUserByEmail dto.email)).isSome then
    throw (.app "EMAIL_ALREADY_EXISTS" 409)
  let hashedPassword := (← hash dto.password).getD ""
  if hashedPassword = "" then
    throw (.app "INVALID_CREDENTIALS" 401)
  let createdUser ← lift env
    (Awaits.createUser env.userId (AuthService.SignupDto.toCreate dto hashedPassword))
  createSession env createdUser
  return createdUser

end Signing

/-- The database and Redis. -/
structure Stores where
  users : UserTable
  redis : Redis

/-- Which commands may fail: without having been executed, or with the reply lost. -/
structure Faults where
  fails : SignupCommand → Prop
  loses : SignupCommand → Prop

namespace Faults

def none : Faults := ⟨fun _ => False, fun _ => False⟩

def Hits (F : Faults) (c : SignupCommand) : Prop := F.fails c ∨ F.loses c

end Faults

namespace Stores

def tick (s : Stores) (d : ℕ) : Stores := { s with redis := s.redis.tick d }

/-- What a command does and how it is answered. Redis refuses an expiry of 0 seconds. -/
def execute (T : ℕ) (b : Bcrypt) (s : Stores) :
    (c : SignupCommand) → Except Exception c.Reply × Stores
  | .findOne p => (.ok (s.users.find? p), s)
  | .save record =>
    match s.users.insert? record with
    | some users => (.ok (), { s with users := users })
    | none => (.error duplicateKey, s)
  | .hash password => (.ok (EncryptService.hash b password), s)
  | .setex key value =>
    if T = 0 then (.error (.error "ERR invalid expire time in 'setex' command"), s)
    else (.ok (), { s with redis := s.redis.setex key value T })
  | .setCookie _ => (.ok (), s)

end Stores

/-- Time passes, and the command is executed or fails. -/
inductive Signs (T : ℕ) (b : Bcrypt) (F : Faults) (s : Stores) :
    (c : SignupCommand) → Except Exception c.Reply → Stores → Prop
  | executed (d : ℕ) (c : SignupCommand) :
      Signs T b F s c ((s.tick d).execute T b c).1 ((s.tick d).execute T b c).2
  | failed (d : ℕ) {c : SignupCommand} (e : Exception) (hF : F.fails c) :
      Signs T b F s c (.error e) (s.tick d)
  | lost (d : ℕ) {c : SignupCommand} (e : Exception) (hF : F.loses c) :
      Signs T b F s c (.error e) ((s.tick d).execute T b c).2

/-! ### Without faults -/

namespace Signing

/-- The user that has been saved is read back. -/
def readBack (record : User) : Signing User := do
  match ← perform (SignupCommand.findOne fun u => u.userId = record.userId) with
  | some created => return created
  | none => throw (.forbidden "Create user failed")

theorem lift_insertUser (env : Env) (record : User) :
    lift env (Awaits.insertUser record) = (do
      if (← lift env (Awaits.findUserByEmail record.email)).isSome then
        throw (.unauthorized "Email in Use")
      perform (SignupCommand.save record)
      readBack record) := by
  unfold lift Awaits.insertUser readBack
  simp only [interpret_bind, interpret_ite, interpret_throw, throw_bind]
  refine bind_congr fun user => ?_
  split
  · rfl
  · refine bind_congr fun _ => bind_congr fun created => ?_
    cases created <;> rfl

end Signing

/-- The stores as the services see them. -/
def Stores.world (s : Stores) : World := ⟨s.users, s.redis.getSession⟩

/-- The program carried out at once, without faults. -/
def Stores.carryOut {α : Type} (T : ℕ) (b : Bcrypt) (s : Stores) (x : Signing α) :
    Except Exception α × Stores :=
  x.exec (fun c t => t.execute T b c) s

/-- Carried out at once, the program does what the service does. -/
def Mirrors {α : Type} (T : ℕ) (b : Bcrypt) (x : Signing α) (y : Service α) : Prop :=
  ∀ s : Stores, y.exec s.world = ((s.carryOut T b x).1, (s.carryOut T b x).2.world)

section Mirroring

variable {α β : Type} {T : ℕ} {b : Bcrypt} {env : Env} {x x' : Signing α} {y y' : Service α}

theorem carryOut_bind (x : Signing α) (f : α → Signing β) (s : Stores) :
    s.carryOut T b (x >>= f) =
      match s.carryOut T b x with
      | (.ok a, t) => t.carryOut T b (f a)
      | (.error e, t) => (.error e, t) := by
  unfold Stores.carryOut
  rw [exec_bind]
  rcases exec (fun c t => Stores.execute T b t c) x s with ⟨_ | _, _⟩ <;> rfl

theorem mirrors_pure (a : α) : Mirrors T b (pure a) (pure a) := fun _ => rfl

theorem mirrors_throw (e : Exception) : Mirrors T b (throw e : Signing α) (throw e) := fun _ => rfl

theorem mirrors_bind {f : α → Signing β} {g : α → Service β} (hx : Mirrors T b x y)
    (hf : ∀ a, Mirrors T b (f a) (g a)) : Mirrors T b (x >>= f) (y >>= g) := by
  intro s
  rw [carryOut_bind, Service.exec_bind, hx s]
  rcases s.carryOut T b x with ⟨e | a, s'⟩
  · rfl
  · exact hf a s'

theorem mirrors_guard {p : Prop} [Decidable p] {e : Exception} {f : PUnit → Signing β}
    {g : PUnit → Service β} (h : Mirrors T b (f ⟨⟩) (g ⟨⟩)) :
    Mirrors T b (if p then throw e >>= f else f ⟨⟩) (if p then throw e >>= g else g ⟨⟩) := by
  split
  · exact mirrors_throw e
  · exact h

theorem mirrors_findOne (p : User → Bool) :
    Mirrors T b (.perform (SignupCommand.findOne p)) (UserRepo.findOne p) := fun _ => rfl

theorem mirrors_save (record : User) :
    Mirrors T b (.perform (SignupCommand.save record)) (UserRepo.save record) := by
  intro s
  rw [UserRepo.exec_save]
  simp only [Stores.carryOut, perform, exec, Stores.execute, Stores.world]
  cases s.users.insert? record <;> rfl

theorem mirrors_insertUser (record : User) :
    Mirrors T b (Signing.lift env (Awaits.insertUser record))
      (UsersService.insertUser record) := by
  rw [Signing.lift_insertUser]
  refine mirrors_bind (mirrors_findOne _) fun user => mirrors_guard ?_
  refine mirrors_bind (mirrors_save record) fun _ => ?_
  refine mirrors_bind (mirrors_findOne _) fun created => ?_
  cases created with
  | some created => exact mirrors_pure created
  | none => exact mirrors_throw _

/-- What the session service writes. -/
def Stores.createSession (T : ℕ) (env : Env) (s : Stores) (user : User) : Stores :=
  let redis := s.redis.setex (sessionKey env.sessionId)
    (.data (Signing.sessionData env (Signing.sessionDto env user))) T
  { s with redis := redis.setex (trackingKey user.userId env.sessionId) .tracked T }

theorem carryOut_createSession (hT : 0 < T) (s : Stores) (user : User) :
    s.carryOut T b (Signing.createSession env user) = (.ok (), s.createSession T env user) := by
  have hsetex : ∀ (s : Stores) (key : String) (value : Record),
      s.carryOut T b (Signing.setex key value) =
        (.ok (), { s with redis := s.redis.setex key value T }) :=
    fun s key value => if_neg (by omega)
  have hbody : s.carryOut T b (do
      Signing.setex (sessionKey env.sessionId)
        (.data (Signing.sessionData env (Signing.sessionDto env user)))
      Signing.setex (trackingKey user.userId env.sessionId) .tracked
      pure env.sessionId) = (.ok env.sessionId, s.createSession T env user) := by
    simp only [carryOut_bind, hsetex]
    rfl
  have hstore : s.carryOut T b (Signing.storeSession env (Signing.sessionDto env user)) =
      (.ok env.sessionId, s.createSession T env user) := by
    unfold Stores.carryOut at hbody ⊢
    rw [Signing.storeSession, exec_tryCatch, Signing.sessionDto] at *
    rw [hbody]
  rw [Signing.createSession, carryOut_bind, hstore]
  rfl

theorem getSession_createSession (hT : 0 < T) (s : Stores) (user : User) (sid : String) :
    (s.createSession T env user).redis.getSession sid =
      if sid = env.sessionId then
        some (Signing.sessionData env (Signing.sessionDto env user))
      else s.redis.getSession sid := by
  have hkey := Session.sessionKey_ne_trackingKey sid user.userId env.sessionId
  by_cases hsid : sid = env.sessionId
  · subst hsid
    simp [Redis.getSession, Redis.sessionAt, Store.get, Stores.createSession, hkey, Redis.setex,
      Store.setex, hT]
  · rw [if_neg hsid]
    refine Redis.getSession_congr rfl ?_
    simp [Stores.createSession, hkey, hsid]

/-- A session that is created is one in the table of the sessions. -/
theorem mirrors_createSession (hT : 0 < T) (hok : env.sessionFails = false) (user : User) :
    Mirrors T b (Signing.createSession env user >>= fun _ => pure user)
      (do let _ ← AuthService.createSession env user; return user) := by
  intro s
  rw [carryOut_bind, carryOut_createSession hT, Service.exec_bind, AuthService.exec_createSession,
    hok]
  refine Prod.ext rfl ?_
  show SessionService.store env _ s.world = (s.createSession T env user).world
  unfold SessionService.store Stores.world
  rw [if_pos (by simp [hok])]
  refine congrArg (World.mk s.users) (funext fun sid => ?_)
  exact (getSession_createSession hT s user sid).symm

theorem mirrors_signup (hT : 0 < T) (hok : env.sessionFails = false) (dto : SignupDto) :
    Mirrors T b (Signing.signup env dto) (AuthService.signup b env dto) := by
  unfold Signing.signup AuthService.signup
  refine mirrors_guard ?_
  refine mirrors_bind (mirrors_findOne _) fun user => mirrors_guard ?_
  have hhash : ∀ {f : Option String → Signing User} {y : Service User},
      Mirrors T b (f (EncryptService.hash b dto.password)) y →
        Mirrors T b (Signing.hash dto.password >>= f) y := fun h => h
  refine hhash (mirrors_guard ?_)
  refine mirrors_bind (mirrors_insertUser _) fun created => ?_
  exact mirrors_createSession hT hok created

end Mirroring

end IotPanel.Users
