import IotPanel.Session.Alone
import IotPanel.Users.Database

/-!
# The users' requests over the database and Redis

A request that is served while no other is: its statements go to the database, and each call of
the session service is carried to its end where the request awaits it. The database and Redis may
fail at every step.
-/

namespace IotPanel.Users

open Session (CreateSessionDto IsUuid Sound)

/-- What the requests share. `outdated` are the sessions that a user had when its stored password
was replaced. -/
structure Panel where
  users : UserTable
  sessions : Session.State
  outdated : String → Bool

def Panel.initial (users : UserTable) : Panel :=
  { users := users, sessions := .initial, outdated := fun _ => false }

/-- The stored password of the user is not the same in the two tables. -/
def Replaced (users users' : UserTable) (userId : String) : Prop :=
  ∃ u ∈ users.rows, ∃ u' ∈ users'.rows,
    u.userId = userId ∧ u'.userId = userId ∧ u.password ≠ u'.password

instance (users users' : UserTable) (userId : String) : Decidable (Replaced users users' userId) :=
  inferInstanceAs (Decidable (∃ u ∈ users.rows, ∃ u' ∈ users'.rows, _))

/-- The panel after a statement of the database. -/
def Panel.write (s : Panel) (users : UserTable) : Panel :=
  { s with
    users := users
    outdated := fun v =>
      s.outdated v || (s.sessions.owner v).any fun u => decide (Replaced s.users users u) }

def Panel.tick (s : Panel) (d : ℕ) : Panel := { s with sessions := s.sessions.tick d }

/-- What a call throws when a command of it fails. -/
def Ask.failure : Ask → Exception
  | .createSession _ => .app "SESSION_ESTABLISH_FAILED" 500
  | .canActivate _ => .unauthorized "Authentication failed. Please login again."
  | .destroySession _ => .app "SESSION_DESTROY_FAILED" 500
  | .invalidateUserSessions _ => .app "SESSION_INVALIDATION_FAILED" 500

/-- What the caller gets to see of a call that has ended at the await `last`, with a result if it
has returned. -/
def Ask.answer : (a : Ask) → Session.Call → Option Session.Result → Except Exception a.Reply
  | .createSession _, _, some (.sessionId sid) => .ok sid
  | .canActivate _, _, some (.session (some d)) => .ok d
  | .canActivate _, .guardGet _, some _ =>
    .error (.unauthorized "Session expired or invalid. Please login again.")
  | .canActivate _, _, some _ =>
    .error (.unauthorized "Failed to extend session. Please login again.")
  | .destroySession _, _, some _ => .ok ()
  | .invalidateUserSessions _, _, some _ => .ok ()
  | a, _, _ => .error a.failure

/-- The call that begins; `uuidv4` draws a new id for a new session. -/
inductive Begins (s : Session.State) : Ask → Session.Call → Prop
  | create {sid : String} (dto : CreateSessionDto) (hsid : IsUuid sid) (hnew : sid ∉ s.drawn) :
      Begins s (.createSession dto) (Session.createSession sid dto s.redis.now)
  | activate (sid : String) : Begins s (.canActivate sid) (Session.canActivate sid)
  | destroy (sid : String) : Begins s (.destroySession sid) (Session.destroySession sid)
  | invalidate (u : String) :
      Begins s (.invalidateUserSessions u) (Session.invalidateUserSessions u)

/-- Where the database fails, or the command of a call. -/
abbrev Failures := Panel → Option Session.Call → Prop

/-- Redis fails where `F` says, while a call of the session service runs. -/
def Failures.during (F : Failures) (s : Panel) (x : Session.State) (c : Session.Call) : Prop :=
  F { s with sessions := x } (some c)

/-- What a command does and how it is answered. -/
inductive Executes (T : ℕ) (F : Failures) (s : Panel) :
    (c : Command) → Except Exception c.Reply → Panel → Prop
  | statement {c : Command} {r : Except Exception c.Reply} {users : UserTable} (d : ℕ)
      (hc : c.isStatement = true) (h : Database s.users c r users)
      (hF : (∃ e, r = .error e) → F s none) : Executes T F s c r ((s.write users).tick d)
  | call (a : Ask) (i : ℕ) : Executes T F s (.call a) (.ok i) s
  | result {a : Ask} (i : ℕ) {c last : Session.Call} {o : Option Session.Result}
      {x : Session.State} (hbegins : Begins s.sessions a c)
      (h : Session.Carried T (F.during s) s.sessions c last o x) :
      Executes T F s (.result a i) (a.answer last o) { s with sessions := x }

/-- `SessionAuthGuard` lets a request with the session pass. -/
def Accepts (T : ℕ) (s : Panel) (v : String) : Prop :=
  ∃ last o x d, Session.Carried T (fun _ _ => True) s.sessions (Session.canActivate v) last o x ∧
    (Ask.canActivate v).answer last o = .ok d

/-! ### How far a request has come -/

/-- The routes whose handlers end the user's sessions once they have written the password. -/
def Route.invalidates : Route → Bool
  | .changePassword => true
  | _ => false

/-- `reading` knows the id of the user that was found last. A change of password is `written`
until the sessions have been ended. In `absurd` a request has got a reply that no database
gives. -/
inductive Phase
  | reading (found : Option String)
  | written (userId : String)
  | settled
  | failed
  | absurd

namespace Phase

def next (req : Request) : Phase → (c : Command) → Except Exception c.Reply → Phase
  | reading _, .findOne p, .ok (some user) =>
    if p user then reading (some user.userId) else absurd
  | reading found, .update userId _, .ok _ =>
    if req.route.invalidates then written userId else reading found
  | written _, .findOne _, .ok none => absurd
  | written _, .findOne _, .error _ => failed
  | written _, .call _, .error _ => absurd
  | written _, .result _ _, .ok _ => settled
  | written _, .result _ _, .error _ => failed
  | φ, _, _ => φ

def allows (req : Request) : Phase → Command → Prop
  | absurd, _ => True
  | reading _, .findOne _ => True
  | reading _, .save record => record.userId = req.env.userId
  | reading found, .update userId f =>
    (∀ u, (f u).userId = u.userId) ∧ (req.route.invalidates = true → found = some userId)
  | reading found, .call (.createSession dto) | reading found, .result (.createSession dto) _ =>
    found = some dto.userId
  | reading _, .call (.canActivate _) | reading _, .result (.canActivate _) _ => True
  | reading _, .call (.destroySession _) | reading _, .result (.destroySession _) _ => True
  | written userId, .findOne p => ∀ u, u.userId = userId → p u = true
  | written _, .call _ => True
  | written userId, .result a _ => a = .invalidateUserSessions userId
  | _, _ => False

end Phase

def protocol (req : Request) : Protocol Phase Command Command.Reply Exception where
  allowed := Phase.allows req
  next := Phase.next req

/-- A change of password that has written the password does not end before it has tried to end the
sessions. -/
def Ended {α : Type} (_ : Except Exception α) (φ : Phase) : Prop := ∀ userId, φ ≠ .written userId

section Protocol

variable {α β : Type} {req : Request} {x : Awaiting α} {found : Option String}
  {Q : Except Exception α → Phase → Prop}

theorem wp_absurd (hQ : ∀ a, Q a .absurd) : x.wp (protocol req) Q .absurd := by
  induction x with
  | ret a => exact hQ a
  | await c k ih => exact ⟨trivial, fun r => ih r⟩

theorem ended_reading {a : Except Exception α} : Ended a (.reading found) := by
  rintro userId ⟨⟩

theorem ended_absurd {a : Except Exception α} : Ended a .absurd := by
  rintro userId ⟨⟩

/-- A request goes on reading, whatever it has found, or has got an impossible reply. -/
def Reads (req : Request) (x : Awaiting α) : Prop :=
  ∀ found, x.wp (protocol req) (fun _ φ => (∃ found, φ = .reading found) ∨ φ = .absurd)
    (.reading found)

theorem Reads.ended (h : Reads req x) : x.wp (protocol req) Ended (.reading found) := by
  refine Program.wp_mono ?_ (h found)
  rintro a _ (⟨found, rfl⟩ | rfl)
  · exact ended_reading
  · exact ended_absurd

theorem reads_ret (a : Except Exception α) : Reads req (.ret a : Awaiting α) :=
  fun _ => .inl ⟨_, rfl⟩

theorem reads_check (y : Service α) : Reads req (Awaits.check y) := reads_ret _

theorem reads_bind {f : α → Awaiting β} (hx : Reads req x) (hf : ∀ a, Reads req (f a)) :
    Reads req (x >>= f) := by
  intro found
  refine Program.wp_bind (Program.wp_mono ?_ (hx found))
  rintro (e | a) _ (⟨found, rfl⟩ | rfl)
  · exact .inl ⟨found, rfl⟩
  · exact .inr rfl
  · exact hf a found
  · exact wp_absurd fun _ => .inr rfl

theorem reads_map (f : α → β) (hx : Reads req x) : Reads req (f <$> x) := by
  rw [map_eq_pure_bind]
  exact reads_bind hx fun a => reads_ret _

theorem reads_ite {c : Prop} [Decidable c] {y : Awaiting α} (hx : Reads req x)
    (hy : Reads req y) : Reads req (if c then x else y) := by
  split
  · exact hx
  · exact hy

theorem reads_perform {c : Command} (h : ∀ found, (protocol req).allowed (.reading found) c ∧
    ∀ r, (∃ found', (protocol req).next (.reading found) c r = .reading found') ∨
      (protocol req).next (.reading found) c r = .absurd) : Reads req (Program.perform c) :=
  fun found => ⟨(h found).1, (h found).2⟩

theorem reads_findOne (p : User → Bool) : Reads req (Awaits.findOne p) := by
  refine reads_perform fun found => ⟨trivial, fun r => ?_⟩
  rcases r with e | (_ | user)
  · exact .inl ⟨found, rfl⟩
  · exact .inl ⟨found, rfl⟩
  · show (∃ found', (if p user then Phase.reading _ else Phase.absurd) = _) ∨
      (if p user then Phase.reading _ else Phase.absurd) = _
    by_cases hp : p user = true
    · exact .inl ⟨_, if_pos hp⟩
    · exact .inr (if_neg hp)

theorem reads_save {record : User} (h : record.userId = req.env.userId) :
    Reads req (Awaits.save record) :=
  reads_perform fun found => ⟨h, fun _ => .inl ⟨found, rfl⟩⟩

theorem reads_update {userId : String} {f : User → User} (hroute : req.route.invalidates = false)
    (hf : ∀ u, (f u).userId = u.userId) : Reads req (Awaits.update userId f) := by
  refine reads_perform fun found => ⟨⟨hf, fun h => ?_⟩, fun r => ?_⟩
  · rw [hroute] at h
    cases h
  · cases r with
    | error e => exact .inl ⟨found, rfl⟩
    | ok _ =>
      refine .inl ⟨found, ?_⟩
      show (if req.route.invalidates then Phase.written userId else .reading found) = _
      simp [hroute]

theorem reads_guard {c : Prop} [Decidable c] {e : Exception} {f : PUnit → Awaiting β}
    (h : Reads req (f ⟨⟩)) : Reads req (if c then throw e >>= f else f ⟨⟩) :=
  reads_ite (reads_ret (.error e)) h

/-! ### The services -/

/-- What is returned is the user that was found last. -/
def Finds (req : Request) (x : Awaiting User) : Prop :=
  ∀ found, x.wp (protocol req) (fun a φ => φ = .absurd ∨
    ∃ found, φ = .reading found ∧ ∀ user, a = .ok user → found = some user.userId) (.reading found)

theorem finds_match {p : User → Bool} {f : Option User → Awaiting User}
    (hnone : ∃ e, f none = .ret (.error e))
    (hsome : ∀ user, f (some user) = .ret (.ok user) ∨ ∃ e, f (some user) = .ret (.error e)) :
    Finds req (Awaits.findOne p >>= f) := by
  refine fun found => ⟨trivial, fun r => ?_⟩
  rcases r with e | (_ | user)
  · exact .inr ⟨found, rfl, by rintro user ⟨⟩⟩
  · obtain ⟨e, he⟩ := hnone
    show (f none).wp _ _ (Phase.reading found)
    rw [he]
    exact .inr ⟨found, rfl, by rintro user ⟨⟩⟩
  · show (f (some user)).wp _ _ (if p user then Phase.reading (some user.userId) else .absurd)
    by_cases hp : p user = true
    · rw [if_pos hp]
      obtain hf | ⟨e, hf⟩ := hsome user
      · rw [hf]
        refine .inr ⟨_, rfl, ?_⟩
        rintro _ ⟨⟩
        rfl
      · rw [hf]
        exact .inr ⟨_, rfl, by rintro user ⟨⟩⟩
    · rw [if_neg hp]
      exact wp_absurd fun _ => .inl rfl

theorem finds_bind {f : α → Awaiting User} (hx : Reads req x) (hf : ∀ a, Finds req (f a)) :
    Finds req (x >>= f) := by
  intro found
  refine Program.wp_bind (Program.wp_mono ?_ (hx found))
  rintro (e | a) _ (⟨found, rfl⟩ | rfl)
  · exact .inr ⟨found, rfl, by rintro user ⟨⟩⟩
  · exact .inl rfl
  · exact hf a found
  · exact wp_absurd fun _ => .inl rfl

theorem finds_guard {c : Prop} [Decidable c] {e : Exception} {f : PUnit → Awaiting User}
    (h : Finds req (f ⟨⟩)) : Finds req (if c then throw e >>= f else f ⟨⟩) := by
  split
  · exact fun found => .inr ⟨found, rfl, by rintro user ⟨⟩⟩
  · exact h

theorem finds_insertUser {record : User} (h : record.userId = req.env.userId) :
    Finds req (Awaits.insertUser record) := by
  refine finds_bind (reads_findOne _) fun user => finds_guard ?_
  refine finds_bind (reads_save h) fun _ => ?_
  exact finds_match ⟨_, rfl⟩ fun user => .inl rfl

theorem Finds.reads {y : Awaiting User} (h : Finds req y) : Reads req y := by
  refine fun found => Program.wp_mono ?_ (h found)
  rintro a _ (rfl | ⟨found, rfl, -⟩)
  · exact .inr rfl
  · exact .inl ⟨found, rfl⟩

/-- A session is made for the user that was found. -/
theorem reads_createSession {y : Awaiting User} (h : Finds req y) :
    Reads req (do
      let user ← y
      let _ ← Awaits.createSession req.env user
      return user) := by
  intro found
  refine Program.wp_bind (Program.wp_mono ?_ (h found))
  rintro (e | user) _ (rfl | ⟨found, rfl, hfound⟩)
  · exact .inr rfl
  · exact .inl ⟨found, rfl⟩
  · exact wp_absurd fun _ => .inr rfl
  · refine ⟨hfound user rfl, fun i => ?_⟩
    cases i with
    | error e => exact .inl ⟨found, rfl⟩
    | ok i =>
      refine ⟨hfound user rfl, fun sid => ?_⟩
      cases sid <;> exact .inl ⟨found, rfl⟩

theorem reads_rewrite {missing failed : String} {activeOnly : Bool} {userId : String}
    {change : User → Except Exception (User → User)} (hroute : req.route.invalidates = false)
    (hchange : ∀ user f, change user = .ok f → ∀ u, (f u).userId = u.userId) :
    Reads req (Awaits.rewrite missing failed activeOnly userId change) := by
  refine reads_bind (reads_findOne _) fun user => ?_
  cases user with
  | none => exact reads_ret _
  | some user =>
    dsimp only
    cases hf : change user with
    | error e => exact reads_ret _
    | ok f =>
      refine reads_bind (reads_update hroute (hchange user f hf)) fun _ => ?_
      refine reads_bind (reads_findOne _) fun updated => ?_
      cases updated <;> exact reads_ret _

theorem reads_updateUser {b : Bcrypt} {userId : String} {dto : UpdateUserDto}
    (hroute : req.route.invalidates = false) : Reads req (Awaits.updateUser b userId dto) := by
  refine reads_rewrite hroute ?_
  rintro user _ ⟨⟩ u
  rfl

theorem reads_roles {missing failed : String} {userId : String}
    {change : User → Except Exception (User → User)} (hroute : req.route.invalidates = false)
    (hchange : ∀ user f, change user = .ok f → ∃ roles, f = fun u => { u with roles := roles }) :
    Reads req (Awaits.rewrite missing failed true userId change) := by
  refine reads_rewrite hroute fun user f hf u => ?_
  obtain ⟨roles, rfl⟩ := hchange user f hf
  rfl

theorem reads_removeRoles {userId : String} {roles : List Json}
    (hroute : req.route.invalidates = false) : Reads req (Awaits.removeRoles userId roles) := by
  exact reads_roles hroute fun user f hf => ⟨_, (of_removal hf).2⟩

theorem reads_deleteUser {userId : String} (hroute : req.route.invalidates = false) :
    Reads req (Awaits.deleteUser userId) := by
  refine reads_bind (reads_findOne _) fun user => ?_
  cases user with
  | none => exact reads_ret _
  | some user => exact reads_bind (reads_update hroute fun u => rfl) fun _ => reads_ret _

theorem reads_signup (b : Bcrypt) (dto : SignupDto) : Reads req (Awaits.signup b req.env dto) := by
  unfold Awaits.signup
  refine reads_guard ?_
  refine reads_bind (reads_findOne _) fun user => reads_guard ?_
  refine reads_guard ?_
  exact reads_createSession (finds_insertUser rfl)

theorem reads_login (b : Bcrypt) (dto : LoginDto) : Reads req (Awaits.login b req.env dto) := by
  refine reads_createSession (finds_match ⟨_, rfl⟩ fun user => ?_)
  dsimp only
  unfold Awaits.check
  rcases ((EncryptService.compareHash b user.password dto.password).exec .initial).1 with e | valid
  · exact .inr ⟨e, rfl⟩
  · cases valid
    · exact .inr ⟨_, rfl⟩
    · exact .inl rfl

theorem reads_ask {a : Ask} (h : ∀ found i, Phase.allows req (.reading found) (.call a) ∧
    Phase.allows req (.reading found) (.result a i)) : Reads req (Awaits.ask a) := by
  refine reads_bind (reads_perform fun found => ⟨(h found 0).1, fun r => .inl ⟨found, ?_⟩⟩)
    fun i => reads_perform fun found => ⟨(h found i).2, fun r => .inl ⟨found, ?_⟩⟩
  · cases r <;> rfl
  · cases r <;> rfl

theorem reads_logout (sessionId : String) : Reads req (Awaits.logout sessionId) := by
  unfold Awaits.logout
  refine reads_guard ?_
  exact reads_bind (reads_ask fun _ _ => ⟨trivial, trivial⟩) fun _ => reads_ret _

theorem reads_sessionAuthGuard : Reads req (Awaits.sessionAuthGuard req) :=
  reads_ite (reads_ret _) (reads_ask fun _ _ => ⟨trivial, trivial⟩)

theorem reads_guarded {handler : Session.SessionData → Awaiting Reply}
    (h : ∀ d, Reads req (handler d)) : Reads req (Awaits.guarded req handler) :=
  reads_bind reads_sessionAuthGuard fun d => reads_bind (reads_check _) fun _ => h d

theorem reads_validated {f : α → Reply} (props : List ClassValidator.Property)
    (h : Reads req x) :
    Reads req (do Awaits.check (validationPipe props req.body); f <$> x) :=
  reads_bind (reads_check _) fun _ => reads_map f h

/-- What follows when a request has read. -/
theorem ended_bind {f : α → Awaiting β} (hx : Reads req x)
    (hf : ∀ a found, (f a).wp (protocol req) Ended (.reading found)) :
    (x >>= f).wp (protocol req) Ended (.reading found) := by
  refine Program.wp_bind (Program.wp_mono ?_ (hx found))
  rintro (e | a) _ (⟨found, rfl⟩ | rfl)
  · exact ended_reading
  · exact ended_absurd
  · exact hf a found
  · exact wp_absurd fun _ => ended_absurd

/-- What a request does with the user that it finds. -/
theorem ended_findOne {p : User → Bool} {f : Option User → Awaiting α}
    (hnone : (f none).wp (protocol req) Ended (.reading found))
    (hsome : ∀ user, p user = true →
      (f (some user)).wp (protocol req) Ended (.reading (some user.userId))) :
    (Awaits.findOne p >>= f).wp (protocol req) Ended (.reading found) := by
  refine ⟨trivial, fun r => ?_⟩
  rcases r with e | (_ | user)
  · exact ended_reading
  · exact hnone
  · show (f (some user)).wp _ _ (if p user then Phase.reading (some user.userId) else .absurd)
    by_cases hp : p user = true
    · rw [if_pos hp]
      exact hsome user hp
    · rw [if_neg hp]
      exact wp_absurd fun _ => ended_absurd

theorem ended_guard {c : Prop} [Decidable c] {e : Exception} {f : PUnit → Awaiting α}
    (h : (f ⟨⟩).wp (protocol req) Ended (.reading found)) :
    (if c then throw e >>= f else f ⟨⟩).wp (protocol req) Ended (.reading found) := by
  by_cases hc : c
  · rw [if_pos hc]
    exact ended_reading
  · rw [if_neg hc]
    exact h

/-- A user that has been written is found again, so that a change of password goes on to the
sessions unless the database fails. -/
theorem ended_written {userId : String} {p : User → Bool} {f : Option User → Awaiting α}
    (hp : ∀ u, u.userId = userId → p u = true)
    (hsome : ∀ user, ∃ i, f (some user) = Awaits.ask (.invalidateUserSessions userId) >>= i ∧
      ∀ a, ∃ b, i a = .ret b) :
    (Awaits.findOne p >>= f).wp (protocol req) Ended (.written userId) := by
  refine ⟨hp, fun r => ?_⟩
  rcases r with e | (_ | user)
  · rintro u ⟨⟩
  · exact wp_absurd fun _ => ended_absurd
  · obtain ⟨g, hg, hret⟩ := hsome user
    show (f (some user)).wp _ _ (Phase.written userId)
    rw [hg]
    refine ⟨trivial, fun i => ?_⟩
    cases i with
    | error e => exact ended_absurd
    | ok i =>
      refine ⟨rfl, fun a => ?_⟩
      cases a with
      | error e => rintro u ⟨⟩
      | ok a =>
        obtain ⟨b, hb⟩ := hret a
        show (g a).wp _ _ Phase.settled
        rw [hb]
        rintro u ⟨⟩

/-- The update of a change of password, and the end of the sessions after it. -/
theorem ended_updateUser {b : Bcrypt} {userId : String} {dto : UpdateUserDto} {m : String}
    (hroute : req.route.invalidates = true) :
    (do
      let _ ← Awaits.updateUser b userId dto
      Awaits.ask (.invalidateUserSessions userId)
      return m : Awaiting String).wp (protocol req) Ended (.reading found) := by
  unfold Awaits.updateUser Awaits.rewrite
  rw [bind_assoc]
  refine ended_findOne ended_reading fun user hp => ?_
  have hid : user.userId = userId := of_decide_eq_true (Bool.and_eq_true_iff.mp hp).1
  refine ⟨⟨fun u => rfl, fun _ => congrArg some hid⟩, fun r => ?_⟩
  cases r with
  | error e => exact ended_reading
  | ok _ =>
    show ((Awaits.findOne _ >>= _) >>= _ : Awaiting String).wp _ _
      (if req.route.invalidates then Phase.written userId else _)
    rw [if_pos hroute, bind_assoc]
    refine ended_written (fun u hu => ?_) fun user => ⟨fun _ => .ret (.ok m), rfl, fun _ => ⟨_, rfl⟩⟩
    simp [hu]

theorem ended_changePassword {b : Bcrypt} {userId : String} {dto : ChangePasswordDto}
    (hroute : req.route.invalidates = true) :
    (Awaits.changePassword b userId dto).wp (protocol req) Ended (.reading found) := by
  unfold Awaits.changePassword
  refine ended_guard ?_
  refine ended_guard ?_
  refine ended_findOne ended_reading fun user _ => ?_
  dsimp only
  unfold Awaits.check
  rcases ((EncryptService.compareHash b user.password dto.oldPassword).exec .initial).1 with e | valid
  · exact ended_reading
  · cases valid
    · exact ended_reading
    · show (if (EncryptService.hash b dto.newPassword).getD "" = "" then _ else _ :
        Awaiting String).wp _ _ _
      refine ended_guard ?_
      exact ended_updateUser hroute

/-- Whatever it is answered, a request goes through its phases. -/
theorem ended_dispatch (fmt : Formats) (b : Bcrypt) :
    (Awaits.dispatch fmt b req).wp (protocol req) Ended (.reading none) := by
  unfold Awaits.dispatch
  cases hroute : req.route with
  | signup => exact (reads_validated _ (reads_signup _ _)).ended
  | login => exact (reads_validated _ (reads_login _ _)).ended
  | logout => exact (reads_guarded fun _ => reads_map _ (reads_logout _)).ended
  | changePassword =>
    refine ended_bind reads_sessionAuthGuard fun d _ => ?_
    refine ended_bind (reads_check _) fun _ _ => ?_
    refine ended_bind (reads_check _) fun _ found => ?_
    rw [map_eq_pure_bind]
    refine Program.wp_bind (Program.wp_mono ?_ (ended_changePassword (by rw [hroute]; rfl)))
    rintro (e | m) φ hended
    · exact hended
    · exact hended
  | resetPassword => exact (reads_validated _ (reads_check _)).ended
  | create => exact (reads_guarded fun _ => reads_validated _ (finds_insertUser rfl).reads).ended
  | updateProfile =>
    exact (reads_guarded fun _ => reads_validated _ (reads_updateUser (by rw [hroute]; rfl))).ended
  | update id =>
    exact (reads_guarded fun _ => reads_validated _ (reads_updateUser (by rw [hroute]; rfl))).ended
  | delete id => exact (reads_guarded fun _ => reads_map _ (reads_deleteUser (by rw [hroute]; rfl))).ended
  | assignRoles id | addRoles id =>
    refine (reads_guarded fun _ => reads_validated _ (reads_roles (by rw [hroute]; rfl) ?_)).ended
    rintro user _ ⟨⟩
    exact ⟨_, rfl⟩
  | removeRoles id =>
    exact (reads_guarded fun _ => reads_validated _ (reads_removeRoles (by rw [hroute]; rfl))).ended

end Protocol

end IotPanel.Users
