import IotPanel.Lib.Process
import IotPanel.Users.Database
import IotPanel.Users.Requests

/-!
# What the requests are granted

All routes side by side, one statement of the database or one call of the session service at a
time. What a request may write depends on the session that the guard has answered with, and on the
users that the request has found; the session service may answer anything.
-/

namespace IotPanel.Users

open UsersService AuthService
open Session (SessionData)

/-- What a request has learnt: the session that the guard has answered with, and the ids of the
users that it has found active or has saved. A reply that no database gives makes it impossible. -/
structure Grant where
  session : Option SessionData
  known : List String
  possible : Bool

namespace Grant

def fresh : Grant := ⟨none, [], true⟩

/-- The request has found the user. -/
def find (g : Grant) (user : User) : Grant :=
  if user.isActive then { g with known := user.userId :: g.known } else g

def next (g : Grant) : (c : Command) → Except Exception c.Reply → Grant
  | .findOne p, .ok (some user) => if p user then g.find user else { g with possible := false }
  | .save record, .ok _ => { g with known := record.userId :: g.known }
  | .result (.canActivate _) _, .ok d => { g with session := some d }
  | _, _ => g

/-- The session has one of the roles. -/
def HasRole (g : Grant) (R : List Role) : Prop :=
  ∃ d, g.session = some d ∧ ∃ r ∈ R, r.json ∈ d.roles

/-- The session is one of the user. -/
def IsOf (g : Grant) (userId : String) : Prop := ∃ d, g.session = some d ∧ d.userId = userId

end Grant

/-- The request may rewrite the row of the user with `f`. -/
def Request.Permits (b : Bcrypt) (req : Request) (g : Grant) (userId : String) (f : User → User) :
    Prop :=
  match req.route with
  | .changePassword => g.IsOf userId ∧ ∃ h, f = fun u => { u with password := some h }
  | .updateProfile => g.IsOf userId ∧
      f = (UpdateUserDto.ofBody req.body).assign ((UpdateUserDto.ofBody req.body).storedPassword b)
  | .update id => userId = id ∧ g.HasRole [.admin, .superAdmin] ∧
      f = (UpdateUserDto.ofBody req.body).assign ((UpdateUserDto.ofBody req.body).storedPassword b)
  | .delete id => userId = id ∧ g.HasRole [.superAdmin] ∧ f = fun u => { u with isActive := false }
  | .assignRoles id | .addRoles id | .removeRoles id =>
    userId = id ∧ g.HasRole [.superAdmin] ∧ ∃ roles, f = fun u => { u with roles := roles }
  | .signup | .login | .logout | .resetPassword | .create => False

/-- The request may save the row. -/
def Request.MaySave (req : Request) (g : Grant) (record : User) : Prop :=
  record.isActive = true ∧ record.userId = req.env.userId ∧
    (req.route = .signup ∨ req.route = .create ∧ g.HasRole [.admin, .superAdmin])

def Request.grants (b : Bcrypt) (req : Request) (g : Grant) : Command → Prop
  | .findOne _ => True
  | .save record => req.MaySave g record
  | .update userId f => userId ∈ g.known ∧ req.Permits b g userId f
  | .call (.createSession dto) | .result (.createSession dto) _ => dto.userId ∈ g.known
  | .call (.canActivate sid) | .result (.canActivate sid) _ => req.sessionId = some sid
  | .call (.destroySession sid) | .result (.destroySession sid) _ =>
    req.sessionId = some sid ∧ g.session.isSome
  | .call (.invalidateUserSessions userId) | .result (.invalidateUserSessions userId) _ =>
    g.IsOf userId

def Request.granting (b : Bcrypt) (req : Request) :
    Protocol Grant Command Command.Reply Exception where
  allowed g c := g.possible = true → req.grants b g c
  next := Grant.next

/-! ### What a part of a request comes to -/

/-- From `g` on the request issues granted commands only; where it returns, `Q` holds of the result
and of what it has learnt. -/
def Grants {α : Type} (b : Bcrypt) (req : Request) (Q : α → Grant → Prop) (x : Awaiting α)
    (g : Grant) : Prop :=
  x.wp (req.granting b) (fun a g' => g'.possible = true → ∀ v, a = .ok v → Q v g') g

namespace Grant

theorem possible_next {g : Grant} (h : g.possible = false) (c : Command)
    (r : Except Exception c.Reply) : (g.next c r).possible = false := by
  unfold next
  split
  · split
    · unfold find
      split
      · exact h
      · exact h
    · rfl
  · exact h
  · exact h
  · exact h

@[simp] theorem find_session (g : Grant) (user : User) : (g.find user).session = g.session := by
  unfold find
  split <;> rfl

theorem known_find {g : Grant} {user : User} {id : String} (h : id ∈ g.known) :
    id ∈ (g.find user).known := by
  unfold find
  split
  · exact List.mem_cons_of_mem _ h
  · exact h

theorem mem_known_find {g : Grant} {user : User} (h : user.isActive = true) :
    user.userId ∈ (g.find user).known := by
  unfold find
  rw [if_pos h]
  exact List.mem_cons_self

/-- Only what is learnt about the session counts for a role. -/
theorem HasRole.congr {g g' : Grant} {R : List Role} (h : g.HasRole R)
    (hsession : g'.session = g.session) : g'.HasRole R := by
  unfold HasRole
  rw [hsession]
  exact h

theorem IsOf.congr {g g' : Grant} {userId : String} (h : g.IsOf userId)
    (hsession : g'.session = g.session) : g'.IsOf userId := by
  unfold IsOf
  rw [hsession]
  exact h

end Grant

section Rules

variable {α β : Type} {b : Bcrypt} {req : Request} {g : Grant} {x : Awaiting α}
  {Q Q' : α → Grant → Prop}

theorem grants_impossible (h : g.possible = false) : Grants b req Q x g := by
  unfold Grants
  induction x generalizing g with
  | ret a =>
    intro hpossible
    rw [h] at hpossible
    cases hpossible
  | await c k ih =>
    refine ⟨fun hpossible => ?_, fun r => ih r (Grant.possible_next h c r)⟩
    rw [h] at hpossible
    cases hpossible

theorem grants_throw (e : Exception) : Grants b req Q (throw e : Awaiting α) g := by
  rintro - v ⟨⟩

theorem grants_pure {a : α} (h : Q a g) : Grants b req Q (pure a : Awaiting α) g := by
  rintro - v ⟨⟩
  exact h

theorem grants_mono (hQ : ∀ a g', Q a g' → Q' a g') (h : Grants b req Q x g) :
    Grants b req Q' x g :=
  Program.wp_mono (fun _ g' ha hpossible v hv => hQ v g' (ha hpossible v hv)) h

theorem grants_bind {f : α → Awaiting β} {R : β → Grant → Prop} (hx : Grants b req Q x g)
    (hf : ∀ a g', Q a g' → Grants b req R (f a) g') : Grants b req R (x >>= f) g := by
  refine Program.wp_bind (Program.wp_mono ?_ hx)
  rintro (e | a) g' ha
  · rintro - v ⟨⟩
  · cases hpossible : g'.possible with
    | true => exact hf a g' (ha hpossible a rfl)
    | false => exact grants_impossible hpossible

theorem grants_map {f : α → β} {R : β → Grant → Prop} (hx : Grants b req Q x g)
    (hf : ∀ a g', Q a g' → R (f a) g') : Grants b req R (f <$> x) g := by
  rw [map_eq_pure_bind]
  exact grants_bind hx fun a g' ha => grants_pure (hf a g' ha)

/-- A test before the rest of a method. -/
theorem grants_guard {c : Prop} [Decidable c] {e : Exception} {f : PUnit → Awaiting α}
    (h : ¬ c → Grants b req Q (f ⟨⟩) g) :
    Grants b req Q (if c then throw e >>= f else f ⟨⟩) g := by
  split
  · exact grants_throw e
  · exact h ‹¬ c›

theorem grants_check (y : Service α) :
    Grants b req (fun a g' => g' = g ∧ (y.exec .initial).1 = .ok a) (Awaits.check y) g :=
  fun _ _ hv => ⟨rfl, hv⟩

/-- A command that is granted. -/
theorem grants_perform {c : Command} {Q : c.Reply → Grant → Prop}
    (hgranted : g.possible = true → req.grants b g c)
    (hQ : ∀ v, (g.next c (.ok v)).possible = true → Q v (g.next c (.ok v))) :
    Grants b req Q (Program.perform c) g := by
  refine ⟨hgranted, fun r hpossible v hv => ?_⟩
  subst hv
  exact hQ v hpossible

/-- What a lookup finds passes its test. -/
theorem grants_findOne (p : User → Bool) :
    Grants b req (fun found g' => (found = none ∧ g' = g) ∨
      ∃ user, found = some user ∧ p user = true ∧ g' = g.find user) (Awaits.findOne p) g := by
  refine grants_perform (fun _ => trivial) fun found hpossible => ?_
  cases found with
  | none => exact .inl ⟨rfl, rfl⟩
  | some user =>
    by_cases hp : p user = true
    · exact .inr ⟨user, rfl, hp, if_pos hp⟩
    · change (if p user then g.find user else _).possible = true at hpossible
      rw [if_neg hp] at hpossible
      cases hpossible

/-- The session is the same, and no user has been forgotten. -/
structure Grant.Extends (g g' : Grant) : Prop where
  session : g'.session = g.session
  known : ∀ id ∈ g.known, id ∈ g'.known

theorem Grant.extends_find (g : Grant) (user : User) : g.Extends (g.find user) :=
  ⟨Grant.find_session g user, fun _ h => Grant.known_find h⟩

theorem grants_ask {a : Ask} (hcall : req.grants b g (.call a))
    (hresult : ∀ i, req.grants b g (.result a i)) :
    Grants b req (fun v g' => ∃ i, g' = g.next (.result a i) (.ok v)) (Awaits.ask a) g := by
  have hcalled : Grants b req (fun _ g' => g' = g)
      (Program.perform (Command.call a) : Awaiting ℕ) g :=
    grants_perform (fun _ => hcall) fun _ _ => rfl
  refine grants_bind hcalled ?_
  rintro i _ rfl
  exact grants_perform (fun _ => hresult i) fun v _ => ⟨i, rfl⟩

end Rules

/-! ### The services -/

section Services

variable {α β : Type} {b : Bcrypt} {req : Request} {g g' g'' : Grant}

theorem Grant.Extends.trans (h : g.Extends g') (h' : g'.Extends g'') : g.Extends g'' :=
  ⟨h'.session.trans h.session, fun id hid => h'.known id (h.known id hid)⟩

/-- Only what is learnt about the session counts for the permission to rewrite. -/
theorem permits_congr {userId : String} {f : User → User} (h : req.Permits b g userId f)
    (hsession : g'.session = g.session) : req.Permits b g' userId f := by
  unfold Request.Permits at h ⊢
  cases hroute : req.route with
  | changePassword | updateProfile =>
    rw [hroute] at h
    exact ⟨h.1.congr hsession, h.2⟩
  | update id | delete id | assignRoles id | addRoles id | removeRoles id =>
    rw [hroute] at h
    exact ⟨h.1, h.2.1.congr hsession, h.2.2⟩
  | signup | login | logout | resetPassword | create =>
    rw [hroute] at h
    exact h

theorem maySave_congr {record : User} (h : req.MaySave g record)
    (hsession : g'.session = g.session) : req.MaySave g' record :=
  ⟨h.1, h.2.1, h.2.2.imp_right fun hcreate => ⟨hcreate.1, hcreate.2.congr hsession⟩⟩

/-- A lookup and what is done with its answer. -/
theorem grants_lookup {p : User → Bool} {f : Option User → Awaiting α} {Q : α → Grant → Prop}
    (hnone : Grants b req Q (f none) g)
    (hsome : ∀ user, p user = true → Grants b req Q (f (some user)) (g.find user)) :
    Grants b req Q (Awaits.findOne p >>= f) g := by
  refine grants_bind (grants_findOne p) ?_
  rintro _ _ (⟨rfl, rfl⟩ | ⟨user, rfl, hp, rfl⟩)
  · exact hnone
  · exact hsome user hp

/-- The lookup of an active user. -/
theorem known_of_active {passed : Bool} {user : User}
    (h : (passed && user.isActive) = true) : user.userId ∈ (g.find user).known :=
  Grant.mem_known_find (Bool.and_eq_true_iff.mp h).2

theorem grants_update {userId : String} {f : User → User} (hknown : userId ∈ g.known)
    (hpermits : req.Permits b g userId f) :
    Grants b req (fun _ g' => g' = g) (Awaits.update userId f) g :=
  grants_perform (fun _ => ⟨hknown, hpermits⟩) fun _ _ => rfl

theorem grants_rewrite {missing failed userId : String} {activeOnly : Bool}
    {change : User → Except Exception (User → User)}
    (hpermits : ∀ user f, change user = .ok f → req.Permits b g userId f) :
    Grants b req (fun _ g' => g.Extends g')
      (Awaits.rewrite missing failed activeOnly userId change) g := by
  refine grants_lookup (grants_throw _) fun user hp => ?_
  have hid : user.userId = userId := of_decide_eq_true (Bool.and_eq_true_iff.mp hp).1
  have hknown : userId ∈ (g.find user).known := hid ▸ known_of_active hp
  dsimp only
  cases hf : change user with
  | error e => exact grants_throw e
  | ok f =>
    refine grants_bind (grants_update hknown (permits_congr (hpermits user f hf)
      (Grant.find_session g user))) ?_
    rintro _ _ rfl
    refine grants_lookup (grants_throw _) fun updated _ => grants_pure ?_
    exact (Grant.extends_find g user).trans (Grant.extends_find _ updated)

theorem grants_deleteUser {userId : String}
    (hpermits : req.Permits b g userId fun u => { u with isActive := false }) :
    Grants b req (fun _ g' => g.Extends g') (Awaits.deleteUser userId) g := by
  refine grants_lookup (grants_throw _) fun user hp => ?_
  have hid : user.userId = userId := of_decide_eq_true (Bool.and_eq_true_iff.mp hp).1
  refine grants_bind (grants_update (hid ▸ known_of_active hp)
    (permits_congr hpermits (Grant.find_session g user))) ?_
  rintro _ _ rfl
  exact grants_pure (Grant.extends_find g user)

/-- What has been saved is known, also to the part of the request that reads it back. -/
theorem grants_readBack {record : User} {f : Option User → Awaiting User} {e : Exception}
    (hsaved : Grants b req (fun _ g' => g' = { g with known := record.userId :: g.known })
      (Awaits.save record) g)
    (hnone : f none = throw e) (hsome : ∀ user, f (some user) = pure user) :
    Grants b req (fun user g' => user.userId ∈ g'.known)
      (Awaits.save record >>= fun _ =>
        Awaits.findOne (fun u => u.userId = record.userId) >>= f) g := by
  refine grants_bind hsaved ?_
  rintro _ _ rfl
  refine grants_lookup (hnone ▸ grants_throw e) fun created hp => ?_
  rw [hsome created]
  have hid : created.userId = record.userId := of_decide_eq_true hp
  exact grants_pure (Grant.known_find (hid ▸ List.mem_cons_self))

/-- The user that is returned has been saved under its id. -/
theorem grants_insertUser {record : User} (h : req.MaySave g record) :
    Grants b req (fun user g' => user.userId ∈ g'.known) (Awaits.insertUser record) g := by
  have hsaved : ∀ g', g'.session = g.session →
      Grants b req (fun _ g'' => g'' = { g' with known := record.userId :: g'.known })
        (Awaits.save record) g' := fun g' hsession =>
    grants_perform (fun _ => maySave_congr h hsession) fun _ _ => rfl
  refine grants_lookup (grants_guard fun _ => ?_) fun user _ => ?_
  · exact grants_readBack (hsaved g rfl) rfl fun _ => rfl
  · exact grants_guard fun _ => grants_readBack (hsaved _ (Grant.find_session g user)) rfl fun _ => rfl

theorem grants_createSession {user : User} (h : user.userId ∈ g.known) :
    Grants b req (fun _ g' => g' = g) (Awaits.createSession req.env user) g := by
  refine grants_mono ?_ (grants_ask h fun _ => h)
  rintro v _ ⟨i, rfl⟩
  rfl

/-- A session is made for the user that a part of the request returns. -/
theorem grants_opening {x : Awaiting User}
    (hx : Grants b req (fun user g' => user.userId ∈ g'.known) x g) :
    Grants b req (fun _ _ => True) (do
      let user ← x
      let _ ← Awaits.createSession req.env user
      return user) g := by
  refine grants_bind hx fun user g' hknown => ?_
  exact grants_bind (grants_createSession hknown) fun _ _ _ => grants_pure trivial

theorem grants_signup {dto : SignupDto} (hroute : req.route = .signup) :
    Grants b req (fun _ _ => True) (Awaits.signup b req.env dto) g := by
  have hcreate : ∀ g' password, Grants b req (fun _ _ => True) (do
      let createdUser ← Awaits.createUser req.env.userId (SignupDto.toCreate dto password)
      let _ ← Awaits.createSession req.env createdUser
      return createdUser) g' := fun g' password =>
    grants_opening (grants_insertUser ⟨rfl, rfl, .inl hroute⟩)
  unfold Awaits.signup
  refine grants_guard fun _ => ?_
  refine grants_lookup ?_ fun user _ => ?_
  · exact grants_guard fun _ => grants_guard fun _ => hcreate _ _
  · exact grants_guard fun _ => grants_guard fun _ => hcreate _ _

theorem grants_login {dto : LoginDto} :
    Grants b req (fun _ _ => True) (Awaits.login b req.env dto) g := by
  refine grants_opening (grants_lookup (grants_throw _) fun user hp => ?_)
  refine grants_bind (grants_check _) ?_
  rintro valid _ ⟨rfl, -⟩
  cases valid
  · exact grants_throw _
  · exact grants_pure (known_of_active hp)

theorem grants_logout (hsession : g.session.isSome)
    (hcookie : req.sessionId.getD "" ≠ "" → req.sessionId = some (req.sessionId.getD "")) :
    Grants b req (fun _ _ => True) (Awaits.logout (req.sessionId.getD "")) g := by
  unfold Awaits.logout
  refine grants_guard fun hne => ?_
  have hgranted := And.intro (hcookie hne) hsession
  exact grants_bind (grants_ask hgranted fun _ => hgranted) fun _ _ _ => grants_pure trivial

/-- What an update of the password alone writes. -/
theorem assign_onlyPassword {password : String} (h : password ≠ "") :
    (onlyPassword password).assign ((onlyPassword password).storedPassword b) =
      fun u => { u with password := some (b.hash password) } := by
  funext u
  simp [UpdateUserDto.assign, UpdateUserDto.storedPassword, onlyPassword, EncryptService.hash, h]

theorem grants_changePassword {userId : String} {dto : ChangePasswordDto}
    (hroute : req.route = .changePassword) (hof : g.IsOf userId) :
    Grants b req (fun _ _ => True) (Awaits.changePassword b userId dto) g := by
  unfold Awaits.changePassword
  refine grants_guard fun _ => grants_guard fun _ => ?_
  refine grants_lookup (grants_throw _) fun user _ => ?_
  refine grants_bind (grants_check _) ?_
  rintro valid _ ⟨rfl, -⟩
  cases valid
  · exact grants_throw _
  · show Grants b req _
      (if (EncryptService.hash b dto.newPassword).getD "" = "" then _ else _ : Awaiting String) _
    refine grants_guard fun hne => ?_
    have hfound : (g.find user).IsOf userId := hof.congr (Grant.find_session g user)
    refine grants_bind (grants_rewrite ?_) fun _ g' hext => ?_
    · rintro _ _ ⟨⟩
      unfold Request.Permits
      rw [hroute]
      exact ⟨hfound, b.hash _, assign_onlyPassword hne⟩
    · have hof' := hfound.congr hext.session
      exact grants_bind (grants_ask hof' fun _ => hof') fun _ _ _ => grants_pure trivial

/-! ### The routes -/

/-- What the guard answers with is the session of the cookie. -/
theorem grants_sessionAuthGuard :
    Grants b req (fun d g' => g'.session = some d ∧ req.sessionId = some (req.sessionId.getD ""))
      (Awaits.sessionAuthGuard req) g := by
  unfold Awaits.sessionAuthGuard
  by_cases hempty : req.sessionId.getD "" = ""
  · rw [if_pos hempty]
    exact grants_throw _
  · rw [if_neg hempty]
    have hcookie : req.sessionId = some (req.sessionId.getD "") := by
      cases hid : req.sessionId with
      | none =>
        rw [hid] at hempty
        exact absurd rfl hempty
      | some sid => rfl
    refine grants_mono ?_ (grants_ask hcookie fun _ => hcookie)
    rintro d _ ⟨i, rfl⟩
    exact ⟨rfl, hcookie⟩

/-- A guarded handler knows the session, which has one of the roles that the route demands. -/
theorem grants_guarded {handler : SessionData → Awaiting Reply}
    (h : ∀ d g', g'.session = some d → req.sessionId = some (req.sessionId.getD "") →
      (req.route.roles = [] ∨ g'.HasRole req.route.roles) →
        Grants b req (fun _ _ => True) (handler d) g') :
    Grants b req (fun _ _ => True) (Awaits.guarded req handler) g := by
  refine grants_bind grants_sessionAuthGuard fun d g' hd => ?_
  refine grants_bind (grants_check _) ?_
  rintro ⟨⟩ _ ⟨rfl, hpassed⟩
  refine h d _ hd.1 hd.2 ?_
  obtain ⟨e, he⟩ | ⟨hroles, -⟩ := rolesGuard_cases req.route.roles d.roles .initial
  · rw [he] at hpassed
    cases hpassed
  · exact hroles.imp_right fun hroles => ⟨d, hd.1, hroles⟩

/-- A handler that is reached through the validation of the body. -/
theorem grants_validated {props : List ClassValidator.Property} {f : α → Reply}
    {x : Awaiting α} {Q : α → Grant → Prop} (hx : Grants b req Q x g) :
    Grants b req (fun _ _ => True) (do
      Awaits.check (validationPipe props req.body)
      f <$> x) g := by
  refine grants_bind (grants_check _) ?_
  rintro _ _ ⟨rfl, -⟩
  exact grants_map hx fun _ _ _ => trivial

/-- Whatever it is answered, a request does what it is granted only. -/
theorem grants_dispatch (fmt : Formats) (b : Bcrypt) (req : Request) :
    Grants b req (fun _ _ => True) (Awaits.dispatch fmt b req) .fresh := by
  have hroles : ∀ {g' : Grant} {R}, req.route.roles = R → R ≠ [] →
      (req.route.roles = [] ∨ g'.HasRole req.route.roles) → g'.HasRole R := by
    rintro g' R rfl hne (hnone | hsome)
    · exact absurd hnone hne
    · exact hsome
  unfold Awaits.dispatch
  cases hroute : req.route with
  | signup => exact grants_validated (grants_signup hroute)
  | login => exact grants_validated grants_login
  | logout =>
    refine grants_guarded fun d g' hd hcookie _ => ?_
    exact grants_map (grants_logout (by rw [hd]; rfl) fun _ => hcookie) fun _ _ _ => trivial
  | changePassword =>
    refine grants_guarded fun d g' hd _ _ => ?_
    exact grants_validated (grants_changePassword hroute ⟨d, hd, rfl⟩)
  | resetPassword => exact grants_validated (grants_check _)
  | create =>
    refine grants_guarded fun d g' _ _ hpassed => grants_validated (grants_insertUser ?_)
    exact ⟨rfl, rfl, .inr ⟨hroute, hroles (by rw [hroute]; rfl) (by simp) hpassed⟩⟩
  | updateProfile =>
    refine grants_guarded fun d g' hd _ _ => grants_validated (grants_rewrite ?_)
    rintro _ _ ⟨⟩
    unfold Request.Permits
    rw [hroute]
    exact ⟨⟨d, hd, rfl⟩, rfl⟩
  | update id =>
    refine grants_guarded fun d g' _ _ hpassed => grants_validated (grants_rewrite ?_)
    rintro _ _ ⟨⟩
    unfold Request.Permits
    rw [hroute]
    exact ⟨rfl, hroles (by rw [hroute]; rfl) (by simp) hpassed, rfl⟩
  | delete id =>
    refine grants_guarded fun d g' _ _ hpassed => ?_
    refine grants_map (grants_deleteUser ?_) fun _ _ _ => trivial
    unfold Request.Permits
    rw [hroute]
    exact ⟨rfl, hroles (by rw [hroute]; rfl) (by simp) hpassed, rfl⟩
  | assignRoles id | addRoles id =>
    refine grants_guarded fun d g' _ _ hpassed => grants_validated (grants_rewrite ?_)
    rintro user _ ⟨⟩
    unfold Request.Permits
    rw [hroute]
    exact ⟨rfl, hroles (by rw [hroute]; rfl) (by simp) hpassed, _, rfl⟩
  | removeRoles id =>
    refine grants_guarded fun d g' _ _ hpassed => grants_validated (grants_rewrite ?_)
    intro user f hf
    unfold Request.Permits
    rw [hroute]
    exact ⟨rfl, hroles (by rw [hroute]; rfl) (by simp) hpassed, _, (of_removal hf).2⟩

end Services

/-! ### The requests side by side -/

/-- What a command does to the users, and how it is answered: the session service answers
anything. -/
inductive Serves (s : UserTable) : (c : Command) → Except Exception c.Reply → UserTable → Prop
  | statement {c : Command} {r : Except Exception c.Reply} {s' : UserTable}
      (hc : c.isStatement = true) (h : Database s c r s') : Serves s c r s'
  | session {c : Command} (hc : c.isStatement = false) (r : Except Exception c.Reply) :
      Serves s c r s

def requests (fmt : Formats) (b : Bcrypt) :
    System UserTable Request Grant Empty Command Command.Reply Exception where
  program req := do
    let _ ← Awaits.dispatch fmt b req
    return ()
  protocol := Request.granting b
  fresh := .fresh
  ends _ _ _ := True
  follows req := by
    refine Program.wp_mono (fun _ _ _ => trivial)
      (grants_bind (Q := fun _ _ => True) (R := fun _ _ => True) (grants_dispatch fmt b req) ?_)
    exact fun _ _ _ => grants_pure trivial
  env _ := Empty.elim
  execute := Serves

end IotPanel.Users
