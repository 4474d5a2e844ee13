import IotPanel.Lib.Dialogue
import IotPanel.Users.Changes

/-!
# Who is let in

A session is only begun for somebody who has shown who it is: a login has been told of an active row
with the email and a hash of the password that it offers, a signup has saved the row itself. However
the statements of other requests come in between, each of these rows was stored at a moment of the
run.
-/

namespace IotPanel.Users

open AuthService
open Session (CreateSessionDto SessionData)

variable {fmt : Formats} {b : Bcrypt}

abbrev Told := Exchange Command Command.Reply Exception

/-- The session that the command begins. -/
def Command.begins : Command → Option CreateSessionDto
  | .call (.createSession dto) => some dto
  | _ => none

/-- What a session is begun with for the user. -/
def openingOf (env : Env) (user : User) : CreateSessionDto :=
  { userId := user.userId, username := user.username, roles := user.roles,
    ipAddress := env.ipAddress, userAgent := env.userAgent }

/-- The row that a signup saves. -/
def Request.newcomer (b : Bcrypt) (req : Request) : User :=
  let dto := SignupDto.ofBody req.body
  (SignupDto.toCreate dto (b.hash dto.password)).record req.env.userId (some (b.hash dto.password))

/-- The request has been told that the user is the one of its email and password, or has saved the
user that it has been told of since. -/
inductive Request.Shown (b : Bcrypt) (req : Request) (log : List Told) : User → Prop
  | login {user : User} {hash : String} (hroute : req.route = .login)
      (hfound : ⟨.findOne fun u => u.email = (LoginDto.ofBody req.body).email && u.isActive,
        .ok (some user)⟩ ∈ log)
      (hstored : user.password = some hash)
      (hpassword : b.compare (LoginDto.ofBody req.body).password hash = true) : Shown b req log user
  | signup {user : User} (hroute : req.route = .signup)
      (hsaved : ⟨.save (req.newcomer b), .ok ()⟩ ∈ log)
      (hfound : ⟨.findOne fun u => u.userId = (req.newcomer b).userId, .ok (some user)⟩ ∈ log) :
      Shown b req log user

def Request.mayIssue (b : Bcrypt) (req : Request) (log : List Told) (c : Command) : Prop :=
  ∀ dto, c.begins = some dto → ∃ user, dto = openingOf req.env user ∧ req.Shown b log user

/-! ### The routes that begin no session -/

section Mute

variable {α : Type} {req : Request}

/-- The part of a request begins no session. -/
abbrev Mute (x : Awaiting α) : Prop := x.Issues fun c => c.begins = none

theorem mute_findOne (p : User → Bool) : Mute (Awaits.findOne p) := Program.issues_perform rfl

theorem mute_ask {a : Ask} (h : ∀ dto, a ≠ .createSession dto) : Mute (Awaits.ask a) := by
  refine Program.stays_bind (Program.issues_perform ?_) fun _ => Program.issues_perform ?_
  · cases a with
    | createSession dto => exact absurd rfl (h dto)
    | canActivate | destroySession | invalidateUserSessions => rfl
  · rfl

theorem mute_check (y : Service α) : Mute (Awaits.check y) := rfl

theorem mute_map {β : Type} {f : α → β} {x : Awaiting α} (h : Mute x) : Mute (f <$> x) := by
  rw [map_eq_pure_bind]
  exact Program.stays_bind h fun _ => Program.stays_pure

theorem mute_guard {c : Prop} [Decidable c] {e : Exception} {f : PUnit → Awaiting α}
    (h : Mute (f ⟨⟩)) : Mute (if c then throw e >>= f else f ⟨⟩) :=
  Program.stays_ite (fun _ => Program.stays_throw) fun _ => h

/-- A lookup and what is done with its answer. -/
theorem mute_lookup {p : User → Bool} {f : Option User → Awaiting α} (hnone : Mute (f none))
    (hsome : ∀ user, Mute (f (some user))) : Mute (Awaits.findOne p >>= f) := by
  refine Program.stays_bind (mute_findOne p) fun found => ?_
  cases found with
  | none => exact hnone
  | some user => exact hsome user

theorem mute_insertUser (record : User) : Mute (Awaits.insertUser record) := by
  have hsave : Mute (Awaits.save record) := Program.issues_perform rfl
  refine mute_lookup (mute_guard ?_) fun user => mute_guard ?_
  all_goals
    refine Program.stays_bind hsave fun _ => mute_lookup Program.stays_throw fun created => ?_
    exact Program.stays_pure

theorem mute_rewrite {missing failed userId : String} {activeOnly : Bool}
    {change : User → Except Exception (User → User)} :
    Mute (Awaits.rewrite missing failed activeOnly userId change) := by
  refine mute_lookup Program.stays_throw fun user => ?_
  dsimp only
  cases change user with
  | error e => exact Program.stays_throw
  | ok f =>
    refine Program.stays_bind (Program.issues_perform rfl) fun _ => ?_
    exact mute_lookup Program.stays_throw fun _ => Program.stays_pure

theorem mute_deleteUser (userId : String) : Mute (Awaits.deleteUser userId) := by
  refine mute_lookup Program.stays_throw fun user => ?_
  exact Program.stays_bind (Program.issues_perform rfl) fun _ => Program.stays_pure

theorem mute_logout (sessionId : String) : Mute (Awaits.logout sessionId) := by
  unfold Awaits.logout
  refine mute_guard (Program.stays_bind (mute_ask ?_) fun _ => Program.stays_pure)
  exact fun dto h => by cases h

theorem mute_changePassword (userId : String) (dto : ChangePasswordDto) :
    Mute (Awaits.changePassword b userId dto) := by
  unfold Awaits.changePassword
  refine mute_guard (mute_guard (mute_lookup Program.stays_throw fun user => ?_))
  refine Program.stays_bind (mute_check _) fun valid => ?_
  cases valid
  · exact Program.stays_throw
  · show Mute (if (EncryptService.hash b dto.newPassword).getD "" = "" then _ else _ :
      Awaiting String)
    refine mute_guard (Program.stays_bind mute_rewrite fun _ => ?_)
    refine Program.stays_bind (mute_ask ?_) fun _ => Program.stays_pure
    exact fun dto h => by cases h

theorem mute_guarded {handler : SessionData → Awaiting Reply} (h : ∀ d, Mute (handler d)) :
    Mute (Awaits.guarded req handler) := by
  have hguard : Mute (Awaits.sessionAuthGuard req) :=
    Program.stays_ite (fun _ => Program.stays_throw) fun _ => mute_ask fun dto h => by cases h
  exact Program.stays_bind hguard fun d => Program.stays_bind (mute_check _) fun _ => h d

theorem mute_validated {props : List ClassValidator.Property} {f : α → Reply} {x : Awaiting α}
    (h : Mute x) : Mute (do
      Awaits.check (validationPipe props req.body)
      f <$> x) :=
  Program.stays_bind (mute_check _) fun _ => mute_map h

theorem mute_dispatch (hlogin : req.route ≠ .login) (hsignup : req.route ≠ .signup) :
    Mute (Awaits.dispatch fmt b req) := by
  unfold Awaits.dispatch
  cases hroute : req.route with
  | signup => exact absurd hroute hsignup
  | login => exact absurd hroute hlogin
  | logout => exact mute_guarded fun _ => mute_map (mute_logout _)
  | changePassword => exact mute_guarded fun _ => mute_validated (mute_changePassword _ _)
  | resetPassword => exact mute_validated (mute_check _)
  | create => exact mute_guarded fun _ => mute_validated (mute_insertUser _)
  | updateProfile | update | assignRoles | addRoles | removeRoles =>
    exact mute_guarded fun _ => mute_validated mute_rewrite
  | delete => exact mute_guarded fun _ => mute_map (mute_deleteUser _)

end Mute

/-! ### The routes that begin a session -/

section Opening

variable {req : Request} {log : List Told}

/-- The commands of a request, after what it has been told. -/
abbrev Request.telling (b : Bcrypt) (req : Request) :
    Protocol (List Told) Command Command.Reply Exception := dialogue (req.mayIssue b)

theorem mayIssue_of_begins_none {c : Command} (h : c.begins = none) : req.mayIssue b log c := by
  intro dto hbegins
  rw [h] at hbegins
  cases hbegins

theorem returns_findOne (p : User → Bool) :
    (Awaits.findOne p).Returns (req.telling b)
      (fun found log' => log' = ⟨.findOne p, .ok found⟩ :: log) log :=
  Program.returns_perform (mayIssue_of_begins_none rfl) fun _ => rfl

/-- A lookup, and what is done with its answer when it has been told. -/
theorem returns_lookup {α : Type} {p : User → Bool} {f : Option User → Awaiting α}
    {Q : α → List Told → Prop}
    (hnone : (f none).Returns (req.telling b) Q (⟨.findOne p, .ok none⟩ :: log))
    (hsome : ∀ user, (f (some user)).Returns (req.telling b) Q
      (⟨.findOne p, .ok (some user)⟩ :: log)) :
    (Awaits.findOne p >>= f).Returns (req.telling b) Q log := by
  refine Program.returns_bind (returns_findOne p) ?_
  rintro found _ rfl
  cases found with
  | none => exact hnone
  | some user => exact hsome user

theorem returns_check {α : Type} (y : Service α) :
    (Awaits.check y).Returns (req.telling b)
      (fun a log' => log' = log ∧ (y.exec .initial).1 = .ok a) log :=
  fun _ hv => ⟨rfl, hv⟩

theorem returns_save {record : User} :
    (Awaits.save record).Returns (req.telling b)
      (fun _ log' => log' = ⟨.save record, .ok ()⟩ :: log) log :=
  Program.returns_perform (mayIssue_of_begins_none rfl) fun _ => rfl

/-- The user that is returned has been read after the row has been saved. -/
theorem returns_insertUser {record : User} :
    (Awaits.insertUser record).Returns (req.telling b)
      (fun user log' => ⟨.save record, .ok ()⟩ ∈ log' ∧
        ⟨.findOne fun u => u.userId = record.userId, .ok (some user)⟩ ∈ log') log := by
  have hsave : ∀ {log : List Told} {f : Option User → Awaiting User} {e : Exception},
      f none = throw e → (∀ user, f (some user) = pure user) →
      (Awaits.save record >>= fun _ =>
        Awaits.findOne (fun u => u.userId = record.userId) >>= f).Returns (req.telling b)
        (fun user log' => ⟨.save record, .ok ()⟩ ∈ log' ∧
          ⟨.findOne fun u => u.userId = record.userId, .ok (some user)⟩ ∈ log') log := by
    intro log f e hnone hsome
    refine Program.returns_bind returns_save ?_
    rintro _ _ rfl
    refine returns_lookup (hnone ▸ Program.returns_throw) fun user => ?_
    rw [hsome user]
    exact Program.returns_pure ⟨List.mem_cons_of_mem _ List.mem_cons_self, List.mem_cons_self⟩
  refine returns_lookup (Program.returns_guard fun _ => ?_) fun user =>
    Program.returns_guard fun _ => ?_
  · exact hsave rfl fun _ => rfl
  · exact hsave rfl fun _ => rfl

/-- A session is begun for a user that has been shown. -/
theorem returns_opening {x : Awaiting User}
    (hx : x.Returns (req.telling b) (fun user log' => req.Shown b log' user) log) :
    (do
      let user ← x
      let _ ← Awaits.createSession req.env user
      return user : Awaiting User).Returns (req.telling b) (fun _ _ => True) log := by
  refine Program.returns_bind hx fun user log' hshown => ?_
  have hcall : (Program.perform (Command.call (.createSession (openingOf req.env user))) :
      Awaiting ℕ).Returns (req.telling b) (fun _ _ => True) log' := by
    refine Program.returns_perform (fun dto hbegins => ?_) fun _ => trivial
    cases hbegins
    exact ⟨user, rfl, hshown⟩
  have hask : (Awaits.createSession req.env user).Returns (req.telling b) (fun _ _ => True) log' :=
    Program.returns_bind hcall fun i _ _ =>
      Program.returns_perform (mayIssue_of_begins_none rfl) fun _ => trivial
  exact Program.returns_bind hask fun _ _ _ => Program.returns_pure trivial

theorem returns_login (hroute : req.route = .login) :
    (Awaits.login b req.env (.ofBody req.body)).Returns (req.telling b) (fun _ _ => True) log := by
  refine returns_opening (returns_lookup Program.returns_throw fun user => ?_)
  refine Program.returns_bind (returns_check _) ?_
  rintro valid _ ⟨rfl, hvalid⟩
  cases valid
  · exact Program.returns_throw
  · refine Program.returns_pure ?_
    unfold EncryptService.compareHash at hvalid
    cases hstored : user.password with
    | none =>
      rw [hstored] at hvalid
      cases hvalid
    | some hash =>
      rw [hstored] at hvalid
      exact .login hroute List.mem_cons_self hstored (Except.ok.inj hvalid)

theorem returns_signup (hroute : req.route = .signup) :
    (Awaits.signup b req.env (.ofBody req.body)).Returns (req.telling b) (fun _ _ => True) log := by
  unfold Awaits.signup
  refine Program.returns_guard fun hgiven => ?_
  have hpassword : (SignupDto.ofBody req.body).password ≠ "" := by
    intro hempty
    simp [hempty] at hgiven
  have hhash : (EncryptService.hash b (SignupDto.ofBody req.body).password).getD "" =
      b.hash (SignupDto.ofBody req.body).password := by
    simp [EncryptService.hash, hpassword]
  rw [hhash]
  have hcreate : ∀ log, (do
      let createdUser ← Awaits.createUser req.env.userId
        (SignupDto.toCreate (.ofBody req.body) (b.hash (SignupDto.ofBody req.body).password))
      let _ ← Awaits.createSession req.env createdUser
      return createdUser : Awaiting User).Returns (req.telling b) (fun _ _ => True) log := by
    intro log
    refine returns_opening (Program.returns_mono ?_ returns_insertUser)
    exact fun user log' h => .signup hroute h.1 h.2
  refine returns_lookup ?_ fun user => ?_
  · exact Program.returns_guard fun _ => Program.returns_guard fun _ => hcreate _
  · exact Program.returns_guard fun _ => Program.returns_guard fun _ => hcreate _

theorem returns_validated {props : List ClassValidator.Property} {f : User → Reply}
    {x : Awaiting User} (h : ∀ log, x.Returns (req.telling b) (fun _ _ => True) log) :
    (do
      Awaits.check (validationPipe props req.body)
      f <$> x : Awaiting Reply).Returns (req.telling b) (fun _ _ => True) log := by
  refine Program.returns_bind (returns_check _) fun _ log' _ => ?_
  rw [map_eq_pure_bind]
  exact Program.returns_bind (h log') fun _ _ _ => Program.returns_pure trivial

theorem returns_dispatch (fmt : Formats) (b : Bcrypt) (req : Request) :
    (Awaits.dispatch fmt b req).Returns (req.telling b) (fun _ _ => True) [] := by
  by_cases hlogin : req.route = .login
  · unfold Awaits.dispatch
    rw [hlogin]
    exact returns_validated fun _ => returns_login hlogin
  by_cases hsignup : req.route = .signup
  · unfold Awaits.dispatch
    rw [hsignup]
    exact returns_validated fun _ => returns_signup hsignup
  · exact Program.returns_dialogue_of_issues (mute_dispatch hlogin hsignup) fun _ _ =>
      mayIssue_of_begins_none

end Opening

/-! ### Side by side -/

/-- The requests, with what each of them has been told. -/
def visits (fmt : Formats) (b : Bcrypt) :
    System UserTable Request (List Told) Empty Command Command.Reply Exception :=
  dialogues
    (fun req => do
      let _ ← Awaits.dispatch fmt b req
      return ())
    (Request.mayIssue b)
    (fun req => Program.returns_bind (returns_dispatch fmt b req) fun _ _ _ =>
      Program.returns_pure trivial)
    (fun _ => Empty.elim) Serves

abbrev VisitEvent := CallEvent Request (List Told) Empty Command Command.Reply Exception

/-- A step of one of the requests. -/
abbrev Visiting (fmt : Formats) (b : Bcrypt) := (visits fmt b).Step fun _ _ => True

/-- The row was stored at a moment of the run. -/
def WasStored (fmt : Formats) (b : Bcrypt) (users : UserTable) (tr : List VisitEvent) (user : User) :
    Prop :=
  ∃ after before p, tr = after ++ before ∧
    Run (Visiting fmt b) (Pool.start users) before p ∧ user ∈ p.shared.rows

/-- Who the session that the request begins is for. -/
inductive Authentic (fmt : Formats) (b : Bcrypt) (users : UserTable) (tr : List VisitEvent)
    (req : Request) : CreateSessionDto → Prop
  | login {user : User} {hash : String} (hroute : req.route = .login)
      (hstored : WasStored fmt b users tr user) (hactive : user.isActive = true)
      (hemail : user.email = (LoginDto.ofBody req.body).email) (hhash : user.password = some hash)
      (hpassword : b.compare (LoginDto.ofBody req.body).password hash = true) :
      Authentic fmt b users tr req (openingOf req.env user)
  | signup {user : User} {log : List Told} (hroute : req.route = .signup)
      (hsaved : .did req log (.save (req.newcomer b)) (.ok ()) ∈ tr)
      (hstored : WasStored fmt b users tr user) (hid : user.userId = req.env.userId) :
      Authentic fmt b users tr req (openingOf req.env user)

theorem wasStored_of_heard {users : UserTable} {tr : List VisitEvent} {req : Request}
    {p : User → Bool} {user : User}
    (h : (visits fmt b).Heard (fun _ _ => True) users tr req ⟨.findOne p, .ok (some user)⟩) :
    p user = true ∧ WasStored fmt b users tr user := by
  obtain ⟨after, before, q, log, s, rfl, hrun, hexec⟩ := h
  cases hexec with
  | session hc => cases hc
  | statement hc hexec =>
    obtain ⟨-, hr | ⟨e, ⟨⟩⟩⟩ := Database.findOne_cases hexec
    obtain ⟨hmem, hp⟩ := Collection.mem_of_find? (Except.ok.inj hr).symm
    refine ⟨hp, after ++ [.did req log (.findOne p) (.ok (some user))], before, q, ?_, hrun, hmem⟩
    rw [List.append_assoc]
    rfl

/-- Whatever the order in which the requests go on, a session only begins for the active user whose
email and password a login has offered, as the row was stored at a moment of the run, or for the
user that the signup itself has saved. -/
theorem authentic_of_run {users : UserTable} {tr : List VisitEvent}
    {q : Pool UserTable (Process (visits fmt b))}
    (hrun : Run (Visiting fmt b) (Pool.start users) tr q) {req : Request} {log : List Told}
    {dto : CreateSessionDto} {r : Except Exception ℕ}
    (h : .did req log (.call (.createSession dto)) r ∈ tr) : Authentic fmt b users tr req dto := by
  obtain ⟨hissue, hheard⟩ := (System.informed_of_run hrun).event h
  obtain ⟨user, rfl, hshown⟩ := hissue dto rfl
  cases hshown with
  | login hroute hfound hstored hpassword =>
    obtain ⟨htest, hwas⟩ := wasStored_of_heard (hheard _ hfound)
    obtain ⟨hemail, hactive⟩ := Bool.and_eq_true_iff.mp htest
    exact .login hroute hwas hactive (of_decide_eq_true hemail) hstored hpassword
  | signup hroute hsaved hfound =>
    obtain ⟨after, before, p, log', s, rfl, -, -⟩ := hheard _ hsaved
    obtain ⟨htest, hwas⟩ := wasStored_of_heard (hheard _ hfound)
    have hmem : .did req log' (.save (req.newcomer b)) (.ok ()) ∈
        after ++ .did req log' (.save (req.newcomer b)) (.ok ()) :: before :=
      List.mem_append_right _ List.mem_cons_self
    exact .signup hroute hmem hwas (of_decide_eq_true htest)

theorem eq_of_begins {c : Command} {dto : CreateSessionDto} (h : c.begins = some dto) :
    c = .call (.createSession dto) := by
  cases c with
  | call a =>
    cases a with
    | createSession dto' =>
      cases h
      rfl
    | canActivate | destroySession | invalidateUserSessions => cases h
  | findOne | save | update | result => cases h

/-- Nothing fails. -/
def serving : System.Oracle (visits fmt b) SessionData where
  answer := (@answering fmt b).answer
  sound := (@answering fmt b).sound

/-- Ana with a password. -/
def registered : UserTable :=
  ⟨[{ ana with password := some (markedText.hash "12345678") }], by simp⟩

theorem authentic_of_run_anaLogsIn :
    ∃ tr q req log dto r, Run (Visiting anyText markedText) (Pool.start registered) tr q ∧
      .did req log (.call (.createSession dto)) r ∈ tr ∧
      Authentic anyText markedText registered tr req dto := by
  have hscript : (System.play serving 1 (fun _ _ => true) (Pool.start registered)
      [.start 0 anaLogsIn, .step 0 rootsSession, .step 0 rootsSession]).any
      (fun p : Pool UserTable (Process (visits anyText markedText)) =>
        (p.threads 0).any fun t => t.phase.any fun x => x.command.begins.isSome) = true := by
    decide +kernel
  obtain ⟨tr, q, hrun, -, htest⟩ :=
    System.exists_run (fun _ _ _ _ => trivial) (System.below_start _) hscript
  obtain ⟨t, ht, hphase⟩ := (Option.any_eq_true _ _).mp htest
  obtain ⟨⟨c, r⟩, hx, hbegins⟩ := List.any_eq_true.mp hphase
  obtain ⟨dto, hdto⟩ := Option.isSome_iff_exists.mp hbegins
  cases eq_of_begins hdto
  obtain ⟨after, before, p, log, s, htr, -, -⟩ := (System.informed_of_run hrun).call ht hx
  have hmem : .did t.call log (.call (.createSession dto)) r ∈ tr :=
    htr ▸ List.mem_append_right _ List.mem_cons_self
  exact ⟨tr, q, t.call, log, dto, r, hrun, hmem, authentic_of_run hrun hmem⟩

end IotPanel.Users
