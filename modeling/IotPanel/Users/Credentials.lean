import IotPanel.Lib.Run
import IotPanel.Users.Auth

/-!
# The password that a user logs in with

Over runs of the calls that write users, a user should log in with the text that the last
successful one of them has set. `changePassword` hashes the new password and hands the hash to
`updateUser`, which hashes once more.
-/

namespace IotPanel.Users

open UsersService AuthService

inductive Call
  | signup (env : Env) (dto : SignupDto)
  | createUserManually (userId : String) (dto : CreateUserDto)
  | updateUser (userId : String) (dto : UpdateUserDto)
  | changePassword (env : Env) (userId : String) (dto : ChangePasswordDto)
  | deleteUser (userId : String)
  | assignRoles (userId : String) (roles : List Json)
  | addRoles (userId : String) (roles : List Json)
  | removeRoles (userId : String) (roles : List Json)
  | login (env : Env) (dto : LoginDto)

namespace Call

def run (b : Bcrypt) : Call → Service Reply
  | signup env dto => .user <$> AuthService.signup b env dto
  | createUserManually userId dto => .user <$> UsersService.createUserManually b userId dto
  | updateUser userId dto => .user <$> UsersService.updateUser b userId dto
  | changePassword env userId dto => .message <$> AuthService.changePassword b env userId dto
  | deleteUser userId => .message <$> UsersService.deleteUser userId
  | assignRoles userId roles => .user <$> UsersService.assignRoles userId roles
  | addRoles userId roles => .user <$> UsersService.addRoles userId roles
  | removeRoles userId roles => .user <$> UsersService.removeRoles userId roles
  | login env dto => .user <$> AuthService.login b env dto

/-- The passwords that the call carries are not empty. -/
def NonEmpty : Call → Prop
  | signup _ dto => dto.password ≠ ""
  | createUserManually _ dto => dto.password ≠ ""
  | updateUser _ dto => dto.password ≠ some ""
  | changePassword _ _ dto => dto.newPassword ≠ ""
  | _ => True

/-- The user and the password that the call has set when it returns. -/
def sets : Call → Reply → Option (String × String)
  | signup _ dto, .user u => some (u.userId, dto.password)
  | createUserManually _ dto, .user u => some (u.userId, dto.password)
  | updateUser userId dto, _ => dto.password.map fun p => (userId, p)
  | changePassword _ userId dto, _ => some (userId, dto.newPassword)
  | _, _ => none

end Call

/-- The store, and beside it the password that was last set for each user by a call that
returned. -/
structure State where
  world : World
  lastSet : String → Option String

def State.initial : State := ⟨.initial, fun _ => none⟩

def record (lastSet : String → Option String) : Option (String × String) → String → Option String
  | some (userId, p) => fun u => if u = userId then some p else lastSet u
  | none => lastSet

def State.after (b : Bcrypt) (s : State) (c : Call) : State :=
  match (c.run b).exec s.world with
  | (.ok reply, w) => ⟨w, record s.lastSet (c.sets reply)⟩
  | (.error _, w) => ⟨w, s.lastSet⟩

def Step (b : Bcrypt) (s : State) (c : Call) (s' : State) : Prop :=
  c.NonEmpty ∧ s' = s.after b c

/-- The login of `email` with password `q` gets past the comparison of passwords. -/
def Passes (b : Bcrypt) (w : World) (email q : String) : Prop :=
  ∃ u, ((authenticate b ⟨email, q⟩).exec w).1 = .ok u

/-- Each active user logs in with the password last set, and with no other. -/
def Lawful (b : Bcrypt) (s : State) : Prop :=
  ∀ u ∈ s.world.users.rows, u.isActive = true →
    ∀ q, Passes b s.world u.email q ↔ s.lastSet u.userId = some q

/-- The calls that write the password they are given, hashed once, or do not return. A signup
must not fail after it has saved the user; a change of password that gets to its update must
store what it was given (or what was there, if it fails afterwards) in spite of the second
hash. -/
def HashesOnce (b : Bcrypt) (w : World) : Call → Prop
  | .signup env dto => SignupAdmitted b w env dto → env.sessionFails = false
  | .changePassword env userId dto => ChangeAdmitted b w userId dto →
    b.hash dto.newPassword = if env.sessionFails then dto.oldPassword else dto.newPassword
  | _ => True

/-- Each active user has the hash of the password last set, and passwords are set for users
there are. -/
structure Hashed (b : Bcrypt) (s : State) : Prop where
  stored : ∀ u ∈ s.world.users.rows, u.isActive = true →
    ∃ p, u.password = some (b.hash p) ∧ s.lastSet u.userId = some p
  known : ∀ userId p, s.lastSet userId = some p →
    ∃ u ∈ s.world.users.rows, u.userId = userId

variable {b : Bcrypt} {s : State} {w : World} {u : User}

/-- A user with a hashed password passes with that password alone. -/
theorem passes_iff {p q : String} (hu : u ∈ w.users.rows) (hactive : u.isActive = true)
    (hpassword : u.password = some (b.hash p)) : Passes b w u.email q ↔ q = p := by
  have hfind : w.users.find? (fun v => v.email = u.email && v.isActive) = some u :=
    Collection.find?_of_mem User.email (by simp) hu (by simp [hactive])
      (fun v hv => by simpa using (Bool.and_elim_left hv))
  have hrun : (authenticate b ⟨u.email, q⟩).exec w =
      if q = p then (.ok u, w) else (.error (.app "INVALID_CREDENTIALS" 401), w) := by
    unfold authenticate
    simp only [Service.exec_bind, exec_findUserByEmail, hfind, hpassword,
      EncryptService.compareHash, Service.exec_pure, b.compare_hash, decide_eq_true_eq,
      Service.exec_ite, Service.exec_throw]
  rw [Passes, hrun]
  by_cases hq : q = p
  · simp [hq]
  · simp [hq]

theorem Hashed.lawful (h : Hashed b s) : Lawful b s := by
  intro u hu hactive q
  obtain ⟨p, hpassword, hset⟩ := h.stored u hu hactive
  rw [passes_iff hu hactive hpassword, hset, Option.some_inj]
  exact eq_comm

/-- A lawful user with a hashed password has the hash of the password last set. -/
theorem lastSet_of_lawful (h : Lawful b s) (hu : u ∈ s.world.users.rows)
    (hactive : u.isActive = true) {p : String} (hpassword : u.password = some (b.hash p)) :
    s.lastSet u.userId = some p :=
  (h u hu hactive p).mp ((passes_iff hu hactive hpassword).mpr rfl)

/-! ### What a write of the table does to the invariant -/

/-- Whatever happens to the sessions. -/
theorem Hashed.congr {s' : State} (h : Hashed b s) (husers : s'.world.users = s.world.users)
    (hset : s'.lastSet = s.lastSet) : Hashed b s' := by
  constructor
  · rw [husers, hset]
    exact h.stored
  · rw [husers, hset]
    exact h.known

/-- A new user whose password is recorded. -/
theorem Hashed.insert {s' : State} {p : String} (h : Hashed b s)
    (hinsert : s.world.users.insert? u = some s'.world.users)
    (hpassword : u.password = some (b.hash p))
    (hset : s'.lastSet = record s.lastSet (some (u.userId, p))) : Hashed b s' := by
  constructor
  · intro v hv hactive
    rw [hset]
    obtain hv | rfl := (Collection.mem_insert? hinsert).mp hv
    · have hne : v.userId ≠ u.userId :=
        Collection.key_ne_of_insert? User.userId hinsert (by simp) hv
      simpa [record, hne] using h.stored v hv hactive
    · exact ⟨p, hpassword, by simp [record]⟩
  · intro userId q hq
    rw [hset] at hq
    by_cases hid : userId = u.userId
    · exact ⟨u, (Collection.mem_insert? hinsert).mpr (.inr rfl), hid.symm⟩
    · obtain ⟨v, hv, hvid⟩ := h.known userId q (by simpa [record, hid] using hq)
      exact ⟨v, (Collection.mem_insert? hinsert).mpr (.inl hv), hvid⟩

/-- An update of one user that keeps the id, wakes nobody up, and writes the password that it
records, if any. -/
theorem Hashed.update {s' : State} {userId : String} {f : User → User} (h : Hashed b s)
    (set : Option String)
    (hupdate : s.world.users.update? (fun u => u.userId = userId) f = some s'.world.users)
    (hid : ∀ u, (f u).userId = u.userId) (hactive : ∀ u, (f u).isActive = true → u.isActive = true)
    (hpassword : ∀ u, (f u).password = (set.map b.hash <|> u.password))
    (hfound : set ≠ none → ∃ u ∈ s.world.users.rows, u.userId = userId)
    (hset : s'.lastSet = record s.lastSet (set.map fun p => (userId, p))) : Hashed b s' := by
  constructor
  · intro v hv hv'
    obtain ⟨u, hu, rfl⟩ := (Collection.mem_update? hupdate).mp hv
    rw [hset]
    -- the row that is written, and the others
    by_cases huid : u.userId = userId
    · simp only [huid, decide_true, if_true] at hv' ⊢
      obtain ⟨p, hp, hpset⟩ := h.stored u hu (hactive u hv')
      rw [hpassword, hid, huid]
      cases set with
      | none => exact ⟨p, by simpa using hp, by rw [← huid]; exact hpset⟩
      | some q => exact ⟨q, by simp, by simp [record]⟩
    · simp only [huid, decide_false, Bool.false_eq_true, if_false] at hv' ⊢
      obtain ⟨p, hp, hpset⟩ := h.stored u hu hv'
      refine ⟨p, hp, ?_⟩
      cases set with
      | none => exact hpset
      | some q => simpa [record, huid] using hpset
  · intro userId' p hp
    have hkeep : ∀ u ∈ s.world.users.rows, u.userId = userId' →
        ∃ v ∈ s'.world.users.rows, v.userId = userId' := by
      intro u hu huid
      refine ⟨_, (Collection.mem_update? hupdate).mpr ⟨u, hu, rfl⟩, ?_⟩
      split
      · rw [hid, huid]
      · exact huid
    rw [hset] at hp
    cases set with
    | none =>
      obtain ⟨u, hu, huid⟩ := h.known userId' p hp
      exact hkeep u hu huid
    | some q =>
      by_cases hid' : userId' = userId
      · obtain ⟨u, hu, huid⟩ := hfound (by simp)
        exact hkeep u hu (huid.trans hid'.symm)
      · obtain ⟨u, hu, huid⟩ := h.known userId' p (by simpa [record, hid'] using hp)
        exact hkeep u hu huid

/-! ### One call -/

theorem after_of_ok {c : Call} {r : Reply} {w : World}
    (h : (c.run b).exec s.world = (.ok r, w)) : s.after b c = ⟨w, record s.lastSet (c.sets r)⟩ := by
  rw [State.after, h]

theorem after_of_error {c : Call} {e : Exception} {w : World}
    (h : (c.run b).exec s.world = (.error e, w)) : s.after b c = ⟨w, s.lastSet⟩ := by
  rw [State.after, h]

/-- A call that throws before it writes changes nothing. -/
theorem Hashed.refused {c : Call} {e : Exception} (h : Hashed b s)
    (hrun : (c.run b).exec s.world = (.error e, s.world)) : Hashed b (s.after b c) := by
  rw [after_of_error hrun]
  exact h

theorem Hashed.rewrite {c : Call} {missing failed userId : String} {activeOnly : Bool}
    {change : User → Except Exception (User → User)} (h : Hashed b s) (set : Option String)
    (hrun : c.run b = .user <$> UsersService.rewrite missing failed activeOnly userId change)
    (hkeeps : ∀ user f, change user = .ok f →
      ∀ u, (f u).userId = u.userId ∧ (f u).isActive = u.isActive)
    (hpassword : ∀ user f, change user = .ok f →
      ∀ u, (f u).password = (set.map b.hash <|> u.password))
    (hset : ∀ u, c.sets (.user u) = set.map fun p => (userId, p)) : Hashed b (s.after b c) := by
  obtain ⟨e, he⟩ | ⟨user, f, users, huser, hf, hupdate, hok⟩ :=
    rewrite_cases missing failed activeOnly userId s.world hkeeps
  · exact h.refused (e := e) (by rw [hrun, Service.exec_map, he])
  · rw [after_of_ok (by rw [hrun, Service.exec_map, hok]), hset]
    obtain ⟨hmem, hfound⟩ := Collection.mem_of_find? huser
    have hid : user.userId = userId := by simpa using (Bool.and_elim_left hfound)
    exact h.update set hupdate (fun u => (hkeeps user f hf u).1)
      (fun u hu => by rwa [(hkeeps user f hf u).2] at hu) (hpassword user f hf)
      (fun _ => ⟨user, hmem, hid⟩) rfl

theorem Hashed.createUserManually {userId : String} {dto : CreateUserDto} (h : Hashed b s)
    (hne : dto.password ≠ "") : Hashed b (s.after b (.createUserManually userId dto)) := by
  have hrun : (Call.createUserManually userId dto).run b =
      .user <$> insertUser (dto.record userId (EncryptService.hash b dto.password)) := rfl
  obtain ⟨e, he⟩ | ⟨users, hinsert, hok⟩ :=
    insertUser_cases s.world (dto.record userId (EncryptService.hash b dto.password))
  · exact h.refused (e := e) (by rw [hrun, Service.exec_map, he])
  · rw [after_of_ok (by rw [hrun, Service.exec_map, hok])]
    exact h.insert hinsert (if_neg hne) rfl

theorem Hashed.deleteUser {userId : String} (h : Hashed b s) :
    Hashed b (s.after b (.deleteUser userId)) := by
  have hrun : (Call.deleteUser userId).run b = .message <$> UsersService.deleteUser userId := rfl
  obtain ⟨e, he⟩ | ⟨-, users, m, -, hupdate, hok⟩ := deleteUser_cases s.world userId
  · exact h.refused (e := e) (by rw [hrun, Service.exec_map, he])
  · rw [after_of_ok (by rw [hrun, Service.exec_map, hok])]
    exact h.update none hupdate (fun _ => rfl) (fun _ hu => by cases hu) (fun _ => rfl)
      (fun hne => absurd rfl hne) rfl

theorem Hashed.login {env : Env} {dto : LoginDto} (h : Hashed b s) :
    Hashed b (s.after b (.login env dto)) := by
  have hrun : (Call.login env dto).run b = .user <$> AuthService.login b env dto := rfl
  obtain ⟨e, he⟩ | ⟨user, r, -, hr⟩ := exec_login b s.world env dto
  · exact h.refused (e := e) (by rw [hrun, Service.exec_map, he])
  · refine h.congr ?_ ?_
    · cases r <;> simp [State.after, hrun, hr]
    · cases r <;> simp [State.after, hrun, hr, record, Call.sets]

/-- A signup that does not fail after it has saved its user. -/
theorem Hashed.signup {env : Env} {dto : SignupDto} (h : Hashed b s)
    (honce : HashesOnce b s.world (.signup env dto)) :
    Hashed b (s.after b (.signup env dto)) := by
  have hrun : (Call.signup env dto).run b = .user <$> AuthService.signup b env dto := rfl
  obtain ⟨_, e, he⟩ | ⟨hadm, w', hinsert, _, hexec⟩ := exec_signup b s.world env dto
  · exact h.refused (e := e) (by rw [hrun, Service.exec_map, he])
  · rw [honce hadm] at hexec
    rw [after_of_ok (r := .user (signupRecord b env dto)) (w := w')
      (by rw [hrun, Service.exec_map, hexec]; rfl)]
    exact h.insert hinsert rfl rfl

/-- The user of an admitted change, whose password the old one is. -/
theorem Hashed.exists_of_admitted {userId : String} {dto : ChangePasswordDto} (h : Hashed b s)
    (hadm : ChangeAdmitted b s.world userId dto) :
    ∃ u ∈ s.world.users.rows, u.userId = userId ∧ u.isActive = true ∧
      s.lastSet userId = some dto.oldPassword := by
  obtain ⟨user, huser, hknows⟩ := (Option.any_eq_true _ _).mp hadm.2.2.1
  obtain ⟨hmem, hfound⟩ := Collection.mem_of_find? huser
  obtain ⟨hid, hactive⟩ : user.userId = userId ∧ user.isActive = true := by simpa using hfound
  obtain ⟨p, hpassword, hset⟩ := h.stored user hmem hactive
  have hold : dto.oldPassword = p := by
    simpa [Knows, hpassword, b.compare_hash] using hknows
  exact ⟨user, hmem, hid, hactive, by rw [← hid, hset, hold]⟩

/-- Recording what is recorded already changes nothing. -/
theorem record_of_eq {lastSet : String → Option String} {userId p : String}
    (h : lastSet userId = some p) : record lastSet (some (userId, p)) = lastSet := by
  funext v
  by_cases hv : v = userId
  · simp [record, hv, h]
  · simp [record, hv]

/-- What an admitted change leads to. -/
theorem after_changePassword (env : Env) {userId : String} {dto : ChangePasswordDto}
    (h : Hashed b s) (hadm : ChangeAdmitted b s.world userId dto) :
    ∃ w', s.world.users.update? (fun u => u.userId = userId)
        (fun u => { u with password := some (b.hash (b.hash dto.newPassword)) }) =
          some w'.users ∧
      s.after b (.changePassword env userId dto) = ⟨w', record s.lastSet
        (some (userId, if env.sessionFails then dto.oldPassword else dto.newPassword))⟩ := by
  have hrun : (Call.changePassword env userId dto).run b =
      .message <$> AuthService.changePassword b env userId dto := rfl
  obtain ⟨hnot, _⟩ | ⟨_, w', hupdate, _, hexec⟩ := exec_changePassword b s.world env userId dto
  · exact absurd hadm hnot
  refine ⟨w', hupdate, ?_⟩
  cases hfails : env.sessionFails with
  | true =>
    obtain ⟨u, -, -, -, hold⟩ := h.exists_of_admitted hadm
    rw [after_of_error (by rw [hrun, Service.exec_map, hexec, hfails]; rfl)]
    rw [if_pos rfl, record_of_eq hold]
  | false =>
    rw [after_of_ok (by rw [hrun, Service.exec_map, hexec, hfails]; rfl)]
    rfl

/-- A change that stores the hash of what is recorded afterwards. -/
theorem Hashed.changePassword {env : Env} {userId : String} {dto : ChangePasswordDto}
    (h : Hashed b s) (honce : HashesOnce b s.world (.changePassword env userId dto)) :
    Hashed b (s.after b (.changePassword env userId dto)) := by
  have hrun : (Call.changePassword env userId dto).run b =
      .message <$> AuthService.changePassword b env userId dto := rfl
  obtain ⟨_, e, he⟩ | ⟨hadm, _⟩ := exec_changePassword b s.world env userId dto
  · exact h.refused (e := e) (by rw [hrun, Service.exec_map, he])
  · obtain ⟨w', hupdate, hafter⟩ := after_changePassword env h hadm
    obtain ⟨user, hmem, hid, -⟩ := h.exists_of_admitted hadm
    rw [hafter, ← honce hadm]
    exact h.update (some (b.hash dto.newPassword)) hupdate (fun _ => rfl)
      (fun _ hu => hu) (fun _ => rfl) (fun _ => ⟨user, hmem, hid⟩) rfl

/-! ### Runs -/

theorem Hashed.initial (b : Bcrypt) : Hashed b .initial := by
  constructor
  · intro u hu
    cases hu
  · intro userId p hp
    cases hp

theorem Hashed.step {c : Call} {s' : State} (h : Hashed b s) (hs : Step b s c s')
    (honce : HashesOnce b s.world c) : Hashed b s' := by
  obtain ⟨hne, rfl⟩ := hs
  cases c with
  | signup env dto => exact h.signup honce
  | createUserManually userId dto => exact h.createUserManually hne
  | updateUser userId dto =>
    refine h.rewrite dto.password rfl ?_ ?_ fun _ => rfl
    · rintro _ _ ⟨⟩ u
      exact ⟨rfl, rfl⟩
    · rintro _ _ ⟨⟩ u
      cases hp : dto.password with
      | none => simp [UpdateUserDto.assign, UpdateUserDto.storedPassword, hp]
      | some p =>
        -- An empty password would be stored as it is, without a hash; no call here gives one.
        have hne' : p ≠ "" := fun hempty => hne (by rw [hp, hempty])
        simp [UpdateUserDto.assign, UpdateUserDto.storedPassword, hp, hne', EncryptService.hash]
  | changePassword env userId dto => exact h.changePassword honce
  | deleteUser userId => exact h.deleteUser
  | assignRoles userId roles =>
    refine h.rewrite none rfl ?_ ?_ fun _ => rfl <;> rintro _ _ ⟨⟩ u
    · exact ⟨rfl, rfl⟩
    · rfl
  | addRoles userId roles =>
    refine h.rewrite none rfl ?_ ?_ fun _ => rfl <;> rintro _ _ ⟨⟩ u
    · exact ⟨rfl, rfl⟩
    · rfl
  | removeRoles userId roles =>
    refine h.rewrite none rfl ?_ ?_ fun _ => rfl <;> intro user f hf u <;>
      rw [(of_removal hf).2]
    · exact ⟨rfl, rfl⟩
    · rfl
  | login env dto => exact h.login

/-- A step after which the law holds hashes once. -/
theorem hashesOnce_of_lawful {c : Call} {s' : State} (h : Hashed b s) (hs : Step b s c s')
    (hlaw : Lawful b s') : HashesOnce b s.world c := by
  obtain ⟨-, rfl⟩ := hs
  cases c with
  | signup env dto =>
    intro hadm
    by_contra hfails
    have hrun : (Call.signup env dto).run b = .user <$> AuthService.signup b env dto := rfl
    obtain ⟨hnot, _⟩ | ⟨_, w', hinsert, _, hexec⟩ := exec_signup b s.world env dto
    · exact hnot hadm
    rw [after_of_error (w := w') (by rw [hrun, Service.exec_map, hexec, if_pos (by simpa using hfails)])]
      at hlaw
    -- The new user is active, but no call that returned has set its password.
    have hset : s.lastSet env.userId = some dto.password :=
      lastSet_of_lawful (u := signupRecord b env dto) hlaw
        ((Collection.mem_insert? hinsert).mpr (.inr rfl)) rfl rfl
    obtain ⟨v, hv, hvid⟩ := h.known _ _ hset
    exact Collection.key_ne_of_insert? User.userId hinsert (by simp) hv hvid
  | changePassword env userId dto =>
    intro hadm
    obtain ⟨w', hupdate, hafter⟩ := after_changePassword env h hadm
    obtain ⟨user, hmem, hid, hactive, -⟩ := h.exists_of_admitted hadm
    rw [hafter] at hlaw
    have hset := lastSet_of_lawful (p := b.hash dto.newPassword) hlaw
      ((Collection.mem_update? hupdate).mpr ⟨user, hmem, if_pos (by simpa using hid)⟩) hactive rfl
    rw [hid] at hset
    simpa [record] using hset.symm
  | _ => trivial

/-- While each call so far hashes once, the law holds; and the next call keeps it exactly when
it hashes once. -/
theorem lawful_iff_hashesOnce {tr : List Call}
    (h : Run (fun s c s' => Step b s c s' ∧ HashesOnce b s.world c) .initial tr s) :
    Lawful b s ∧ ∀ c s', Step b s c s' → (Lawful b s' ↔ HashesOnce b s.world c) := by
  have hhashed : Hashed b s := h.invariant (Hashed.initial b) fun hI hs => hI.step hs.1 hs.2
  refine ⟨hhashed.lawful, fun c s' hs => ⟨hashesOnce_of_lawful hhashed hs, fun honce => ?_⟩⟩
  exact (hhashed.step hs honce).lawful

/-- John signs up. -/
def johnSignsUp : Call :=
  .signup visit { username := "John Wick", email := "john@wick.com", password := "123456789" }

theorem lawful_iff_hashesOnce_signup :
    let s := State.initial.after markedText johnSignsUp
    Lawful markedText s ∧ ∀ c s', Step markedText s c s' →
      (Lawful markedText s' ↔ HashesOnce markedText s.world c) :=
  lawful_iff_hashesOnce (.single ⟨⟨by simp [johnSignsUp, Call.NonEmpty], rfl⟩, fun _ => rfl⟩)

/-- After a change of password the new one is refused. -/
theorem not_lawful_of_changePassword :
    ¬ ∀ (b : Bcrypt) (tr : List Call) (s : State), Run (Step b) .initial tr s → Lawful b s := by
  intro h
  let s := State.initial.after markedText johnSignsUp
  let change : Call := .changePassword visit "u" ⟨"123456789", "a123456789s", "a123456789s"⟩
  have hsignup : Step markedText .initial johnSignsUp s :=
    ⟨by simp [johnSignsUp, Call.NonEmpty], rfl⟩
  have hchange : Step markedText s change (s.after markedText change) :=
    ⟨by simp [change, Call.NonEmpty], rfl⟩
  have hhashed : Hashed markedText s := (Hashed.initial _).step hsignup fun _ => rfl
  have honce := hashesOnce_of_lawful hhashed hchange (h _ _ _ ((Run.single hsignup).snoc hchange))
  have hadm : ChangeAdmitted markedText s.world "u" ⟨"123456789", "a123456789s", "a123456789s"⟩ :=
    ⟨rfl, by decide, by decide, by decide, by decide⟩
  exact absurd (honce hadm) (by decide)

end IotPanel.Users
