import IotPanel.Users.Http
import IotPanel.Users.RoleLists
import IotPanel.Users.RoleUpdates

/-!
# What a user operation leaves behind

An operation that writes one user either throws and leaves all as it was, or returns and has
changed no row but that user's.
-/

namespace IotPanel.Users

open ClassValidator
open UsersService

/-- A call of a service method that writes the user with an id, with the body of its request. -/
inductive UserOperation
  | createUserManually (userId : String) (body : Json)
  | updateUser (userId : String) (body : Json)
  | deleteUser (userId : String)
  | assignRoles (userId : String) (body : Json)
  | addRoles (userId : String) (body : Json)
  | removeRoles (userId : String) (body : Json)

/-- The exceptions of a row that is not found again after it was written. -/
def failedExceptions : List Exception :=
  [.forbidden "Create user failed", .forbidden "Update user failed",
    .forbidden "Role Assign Failed", .forbidden "Add role to user failed",
    .forbidden "Remove user role failed"]

/-- A column of texts takes the value of its property, unless that is missing or null. -/
def WritesText (stored : String → String) (v : JsVal) (before after : Option String) : Prop :=
  v.isNullish = true ∧ after = before ∨ ∃ s, v = some (.str s) ∧ after = some (stored s)

/-- The row `after` is `before` with the properties of the body that are not null. -/
structure UpdatedBy (b : Bcrypt) (body : Json) (before after : User) : Prop where
  userId : after.userId = before.userId
  isActive : after.isActive = before.isActive
  username : WritesText id (body.get "username") (some before.username) (some after.username)
  email : WritesText id (body.get "email") (some before.email) (some after.email)
  password : WritesText b.hash (body.get "password") before.password after.password
  firstName : WritesText id (body.get "firstName") before.firstName after.firstName
  lastName : WritesText id (body.get "lastName") before.lastName after.lastName
  photoUrl : WritesText id (body.get "photoUrl") before.photoUrl after.photoUrl
  roles : (body.get "roles").isNullish = true ∧ after.roles = before.roles ∨
    body.get "roles" = some (.arr after.roles)

namespace UserOperation

def userId : UserOperation → String
  | createUserManually userId _ | updateUser userId _ | deleteUser userId | assignRoles userId _
  | addRoles userId _ | removeRoles userId _ => userId

/-- The body passes the validation of the route. -/
def accepted (fmt : Formats) : UserOperation → Bool
  | createUserManually _ body =>
    validate (createUserDto fmt) body && whitelisted (createUserDto fmt) body
  | updateUser _ body => validate (updateUserDto fmt) body && whitelisted (updateUserDto fmt) body
  | deleteUser _ => true
  | assignRoles _ body | addRoles _ body | removeRoles _ body =>
    validate assignRolesDto body && whitelisted assignRolesDto body

def run (b : Bcrypt) : UserOperation → Service Reply
  | createUserManually userId body =>
    .user <$> UsersService.createUserManually b userId (.ofBody body)
  | updateUser userId body => .user <$> UsersService.updateUser b userId (.ofBody body)
  | deleteUser userId => .message <$> UsersService.deleteUser userId
  | assignRoles userId body =>
    .user <$> UsersService.assignRoles userId ((listOf body "roles").getD [])
  | addRoles userId body => .user <$> UsersService.addRoles userId ((listOf body "roles").getD [])
  | removeRoles userId body =>
    .user <$> UsersService.removeRoles userId ((listOf body "roles").getD [])

/-- What the operation makes of the row of its user, if there is one. -/
def Makes (b : Bcrypt) : UserOperation → Option User → User → Prop
  | createUserManually userId body, none, after =>
    after = (CreateUserDto.ofBody body).record userId (some (b.hash (CreateUserDto.ofBody body).password))
  | updateUser _ body, some before, after => UpdatedBy b body before after
  | deleteUser _, some before, after => after = { before with isActive := false }
  | assignRoles _ body, some before, after =>
    ∃ roles, body.get "roles" = some (.arr roles) ∧ after = { before with roles := roles }
  | addRoles _ body, some before, after =>
    ∃ added roles, body.get "roles" = some (.arr added) ∧ after = { before with roles := roles } ∧
      ∀ v, v ∈ roles ↔ v ∈ before.roles ∨ v ∈ added
  | removeRoles _ body, some before, after =>
    ∃ removed roles, body.get "roles" = some (.arr removed) ∧
      after = { before with roles := roles } ∧ ∀ v, v ∈ roles ↔ v ∈ before.roles ∧ v ∉ removed
  | _, _, _ => False

end UserOperation

/-- Between two tables only the row of the operation's user differs, as the operation says. -/
structure Framed (b : Bcrypt) (op : UserOperation) (before after : UserTable) : Prop where
  others : ∀ v : User, v.userId ≠ op.userId → (v ∈ after.rows ↔ v ∈ before.rows)
  own : ∃ u, after.find? (fun v => v.userId = op.userId) = some u ∧
    op.Makes b (before.find? fun v => v.userId = op.userId) u

variable {fmt : Formats} {b : Bcrypt} {w w' : World} {body : Json} {userId : String}
  {user : User} {users : UserTable} {f : User → User}

/-! ### Bodies -/

/-- An optional property is missing, null, or what its first decorator says. -/
theorem nullish_or_of_validate {props : List Property} {name : String} {test : JsVal → Bool}
    {tests : List (JsVal → Bool)} (h : validate props body = true)
    (hp : .isOptional name (test :: tests) ∈ props) :
    (body.get name).isNullish = true ∨ (test :: tests).all (fun t => t (body.get name)) = true := by
  have hcheck := check_of_validate h hp
  simpa [Property.isOptional, Property.check] using hcheck

theorem exists_str_of_ofString {test : String → Bool} {v : JsVal} (h : ofString test v = true) :
    ∃ s, v = some (.str s) ∧ test s = true := by
  unfold ofString at h
  split at h
  · exact ⟨_, rfl, h⟩
  · cases h

@[simp] theorem textOf_of_nullish {name : String} (h : (body.get name).isNullish = true) :
    textOf body name = none := by
  unfold textOf
  split
  · next s hs => simp [hs, JsVal.isNullish] at h
  · rfl

theorem textOf_of_str {name s : String} (h : body.get name = some (.str s)) :
    textOf body name = some s := by
  simp [textOf, h]

/-- A column that falls back on the stored value takes a text or nothing. -/
theorem writesText_orElse {name : String} {before : Option String}
    (h : (body.get name).isNullish = true ∨ ∃ s, body.get name = some (.str s)) :
    WritesText id (body.get name) before (textOf body name <|> before) := by
  obtain hnull | ⟨s, hs⟩ := h
  · exact .inl ⟨hnull, by simp [hnull]⟩
  · exact .inr ⟨s, hs, by simp [textOf_of_str hs]⟩

theorem writesText_getD {name : String} {before : String}
    (h : (body.get name).isNullish = true ∨ ∃ s, body.get name = some (.str s)) :
    WritesText id (body.get name) (some before) (some ((textOf body name).getD before)) := by
  obtain hnull | ⟨s, hs⟩ := h
  · exact .inl ⟨hnull, by simp [hnull]⟩
  · exact .inr ⟨s, hs, by simp [textOf_of_str hs]⟩

section UpdateBody

variable (h : validate (updateUserDto fmt) body = true)

include h

theorem isString_or_nullish {name : String} {tests : List (JsVal → Bool)}
    (hp : .isOptional name (isString :: tests) ∈ updateUserDto fmt) :
    (body.get name).isNullish = true ∨ ∃ s, body.get name = some (.str s) := by
  obtain hnull | htests := nullish_or_of_validate h hp
  · exact .inl hnull
  · exact .inr (exists_str_of_isString (List.all_eq_true.mp htests _ (by simp)))

theorem ofString_or_nullish {name : String} {test : String → Bool}
    (hp : .isOptional name [ofString test] ∈ updateUserDto fmt) :
    (body.get name).isNullish = true ∨ ∃ s, body.get name = some (.str s) := by
  obtain hnull | htests := nullish_or_of_validate h hp
  · exact .inl hnull
  · obtain ⟨s, hs, -⟩ := exists_str_of_ofString
      (List.all_eq_true.mp htests (ofString test) (by simp))
    exact .inr ⟨s, hs⟩

/-- A password that is accepted is not empty, so that its hash is stored. -/
theorem writesText_storedPassword (before : Option String) :
    WritesText b.hash (body.get "password") before
      ((UpdateUserDto.ofBody body).storedPassword b <|> before) := by
  obtain hnull | htests := nullish_or_of_validate h
    (show .isOptional "password" [isString, minLength 8] ∈ updateUserDto fmt by simp [updateUserDto])
  · exact .inl ⟨hnull, by simp [UpdateUserDto.storedPassword, UpdateUserDto.ofBody, hnull]⟩
  · obtain ⟨s, hs, hlength⟩ := exists_str_of_ofString
      (List.all_eq_true.mp htests (minLength 8) (by simp))
    have hne : s ≠ "" := by
      rintro rfl
      simp [textLength] at hlength
    refine .inr ⟨s, hs, ?_⟩
    simp [UpdateUserDto.storedPassword, UpdateUserDto.ofBody, textOf_of_str hs, EncryptService.hash,
      hne]

theorem updatedBy_assign (before : User) :
    UpdatedBy b body before
      ((UpdateUserDto.ofBody body).assign ((UpdateUserDto.ofBody body).storedPassword b) before) where
  userId := rfl
  isActive := rfl
  username := writesText_getD (isString_or_nullish h (.head _))
  email := writesText_getD (ofString_or_nullish h (.tail _ (.head _)))
  password := writesText_storedPassword h before.password
  firstName := writesText_orElse (isString_or_nullish h (.tail _ (.tail _ (.tail _ (.head _)))))
  lastName := writesText_orElse
    (isString_or_nullish h (.tail _ (.tail _ (.tail _ (.tail _ (.head _))))))
  photoUrl := writesText_orElse
    (ofString_or_nullish h (.tail _ (.tail _ (.tail _ (.tail _ (.tail _ (.head _)))))))
  roles := by
    obtain hnull | htests := nullish_or_of_validate h
      (show .isOptional "roles" [isArray] ∈ updateUserDto fmt by simp [updateUserDto])
    · refine .inl ⟨hnull, ?_⟩
      have hlist : listOf body "roles" = none := by
        unfold listOf
        split
        · next xs hxs => simp [hxs, JsVal.isNullish] at hnull
        · rfl
      simp [UpdateUserDto.assign, UpdateUserDto.ofBody, hlist]
    · right
      have harray := List.all_eq_true.mp htests isArray (by simp)
      unfold isArray at harray
      split at harray
      · next xs hxs => simp [UpdateUserDto.assign, UpdateUserDto.ofBody, listOf, hxs]
      · cases harray

end UpdateBody

/-- The password of an accepted new user is hashed. -/
theorem hash_of_validate (h : validate (createUserDto fmt) body = true) :
    EncryptService.hash b (CreateUserDto.ofBody body).password =
      some (b.hash (CreateUserDto.ofBody body).password) := by
  have hmem : .required "password" [isString, isNotEmpty] ∈ createUserDto fmt := by
    simp [createUserDto]
  obtain ⟨s, hs⟩ := exists_str_of_isString (test_of_validate h hmem (.head _))
  have hne := test_of_validate h hmem (.tail _ (.head _))
  rw [hs] at hne
  have hs' : s ≠ "" := by simpa [isNotEmpty] using hne
  simp [EncryptService.hash, CreateUserDto.ofBody, textOf_of_str hs, hs']

/-- A list of roles that is accepted holds roles. -/
theorem roles_of_validate (h : validate assignRolesDto body = true) :
    ∃ roles : List Role, body.get "roles" = some (.arr (roles.map Role.json)) ∧
      (listOf body "roles").getD [] = roles.map Role.json := by
  have hmem : .required "roles" _ ∈ assignRolesDto := List.mem_singleton.mpr rfl
  obtain ⟨xs, hxs, hall⟩ := exists_arr_of_ofArray (test_of_validate h hmem (.tail _ (.head _)))
  have hroles : ∃ roles : List Role, xs = roles.map Role.json := by
    clear hxs
    induction xs with
    | nil => exact ⟨[], rfl⟩
    | cons x xs ih =>
      obtain ⟨hx, hrest⟩ := (List.all_cons.symm.trans hall |> Bool.and_eq_true_iff.mp)
      obtain ⟨r, rfl⟩ := isRole_of_isEnum hx
      obtain ⟨rs, rfl⟩ := ih hrest
      exact ⟨r :: rs, rfl⟩
  obtain ⟨roles, rfl⟩ := hroles
  exact ⟨roles, hxs, by simp [listOf, hxs]⟩

/-! ### Rows -/

/-- The active user with an id is the user with that id. -/
theorem find?_of_active (h : w.users.find? (fun u => u.userId = userId && u.isActive) = some user) :
    w.users.find? (fun u => u.userId = userId) = some user ∧ user.userId = userId := by
  obtain ⟨hmem, hactive⟩ := Collection.mem_of_find? h
  have hid : user.userId = userId := (by simpa using hactive : user.userId = userId ∧ _).1
  exact ⟨Collection.find?_of_mem User.userId (by simp) hmem (by simpa using hid)
    fun y hy => by simpa [hid] using hy, hid⟩

/-- An update of other columns than the id leaves the other users alone. -/
theorem framed_update {op : UserOperation}
    (hfind : w.users.find? (fun u => u.userId = op.userId && u.isActive) = some user)
    (hupdate : w.users.update? (fun u => u.userId = op.userId) f = some users)
    (hf : (f user).userId = user.userId) (hmakes : op.Makes b (some user) (f user)) :
    Framed b op w.users users := by
  obtain ⟨hbefore, hid⟩ := find?_of_active hfind
  have hmem := (Collection.mem_of_find? hfind).1
  constructor
  · intro v hv
    rw [Collection.mem_update?_of_key User.userId (by simp) hupdate hmem (by simp [hid])]
    constructor
    · rintro (⟨hin, -⟩ | rfl)
      · exact hin
      · -- the row that is written has the id of the operation
        exact absurd (hf.trans hid) hv
    · exact fun hin => .inl ⟨hin, fun hsame => hv (hsame.trans hid)⟩
  · have hafter := find?_of_update? (q := fun _ => true) hupdate hmem hid hf rfl
    exact ⟨f user, by simpa using hafter, hbefore ▸ hmakes⟩

/-- An insertion leaves all stored users alone, and none of them has the new id. -/
theorem framed_insert {op : UserOperation} {record : User}
    (hinsert : w.users.insert? record = some users) (hid : record.userId = op.userId)
    (hmakes : op.Makes b none record) : Framed b op w.users users := by
  constructor
  · intro v hv
    rw [Collection.mem_insert? hinsert]
    constructor
    · rintro (hin | rfl)
      · exact hin
      · exact absurd hid hv
    · exact .inl
  · have hnone : w.users.find? (fun v => v.userId = op.userId) = none := by
      refine Collection.find?_eq_none.mpr fun v hv => ?_
      have hne := Collection.key_ne_of_insert? User.userId hinsert (by simp) hv
      simpa [← hid] using hne
    refine ⟨record, ?_, hnone ▸ hmakes⟩
    rw [← hid]
    exact find?_of_insert? hinsert

/-! ### Operations -/

/-- What a method may do that writes the user of an operation: throw, and then nothing is
written and the exception is not one of a row that is lost, or return. -/
def Does {α : Type} (b : Bcrypt) (op : UserOperation) (w : World)
    (o : Except Exception α × World) : Prop :=
  (∀ e, o.1 = .error e → o.2 = w ∧ e ∉ failedExceptions) ∧
    ∀ a, o.1 = .ok a → o.2.sessions = w.sessions ∧ Framed b op w.users o.2.users

variable {op : UserOperation}

theorem does_error {α : Type} {e : Exception} (he : e ∉ failedExceptions) :
    Does b op w ((.error e, w) : Except Exception α × World) :=
  ⟨fun _ h => ⟨rfl, Except.error.inj h ▸ he⟩, fun _ h => (nomatch h)⟩

theorem does_ok {α : Type} {a : α} (hframed : Framed b op w.users users) :
    Does b op w ((.ok a, { w with users := users }) : Except Exception α × World) :=
  ⟨fun _ h => (nomatch h), fun _ _ => ⟨rfl, hframed⟩⟩

theorem does_map {α β : Type} {g : α → β} {x : Service α} (h : Does b op w (x.exec w)) :
    Does b op w ((g <$> x).exec w) := by
  obtain ⟨r, w', hx⟩ : ∃ r w', x.exec w = (r, w') := ⟨_, _, rfl⟩
  rw [Service.exec_map_of_eq hx]
  rw [hx] at h
  cases r with
  | error e =>
    exact ⟨fun e' he' => h.1 e' (by simpa [Except.map] using he'), fun _ ha => (nomatch ha)⟩
  | ok a => exact ⟨fun _ he => (nomatch he), fun _ _ => h.2 a rfl⟩

theorem does_insertUser {record : User} (hid : record.userId = op.userId)
    (hmakes : op.Makes b none record) : Does b op w ((insertUser record).exec w) := by
  rw [exec_insertUser]
  split
  · exact does_error (by simp [failedExceptions])
  · cases hinsert : w.users.insert? record with
    | none => exact does_error (by simp [failedExceptions, duplicateKey])
    | some users => exact does_ok (framed_insert hinsert hid hmakes)

theorem does_rewrite (op : UserOperation) {missing failed : String} {activeOnly : Bool}
    {change : User → Except Exception (User → User)}
    (hchange : ∀ user f, change user = .ok f →
      ∀ u, (f u).userId = u.userId ∧ (f u).isActive = u.isActive)
    (hrefused : ∀ user e, change user = .error e → e ∉ failedExceptions)
    (hmakes : ∀ user f, change user = .ok f → op.Makes b (some user) (f user)) :
    Does b op w ((rewrite missing failed activeOnly op.userId change).exec w) := by
  rw [exec_rewrite hchange]
  cases hfind : w.users.find? fun u => u.userId = op.userId && u.isActive with
  | none => exact does_error (by simp [failedExceptions])
  | some user =>
    cases hf : change user with
    | error e => simpa only [hf] using does_error (hrefused user e hf)
    | ok f =>
      cases hupdate : w.users.update? (fun u => u.userId = op.userId) f with
      | none =>
        simpa only [hf, hupdate] using does_error (by simp [failedExceptions, duplicateKey])
      | some users =>
        simpa only [hf, hupdate] using
          does_ok (framed_update hfind hupdate (hchange user f hf user).1 (hmakes user f hf))

theorem does_deleteUser (op : UserOperation)
    (hmakes : ∀ user, op.Makes b (some user) { user with isActive := false }) :
    Does b op w ((deleteUser op.userId).exec w) := by
  rw [exec_deleteUser]
  cases hfind : w.users.find? fun u => u.userId = op.userId && u.isActive with
  | none => exact does_error (by simp [failedExceptions])
  | some user =>
    cases hupdate : w.users.update? (fun u => u.userId = op.userId)
        fun u => { u with isActive := false } with
    | none => exact does_error (by simp [failedExceptions, duplicateKey])
    | some users => exact does_ok (framed_update hfind hupdate rfl (hmakes user))

theorem does_run (b : Bcrypt) (w : World) (hop : op.accepted fmt = true) :
    Does b op w ((op.run b).exec w) := by
  cases op with
  | createUserManually userId body =>
    have hbody := (Bool.and_eq_true_iff.mp hop).1
    refine does_map (does_insertUser rfl ?_)
    rw [hash_of_validate hbody]
    rfl
  | updateUser userId body =>
    have hbody := (Bool.and_eq_true_iff.mp hop).1
    refine does_map (does_rewrite (.updateUser userId body) ?_ ?_ ?_)
    · rintro user f ⟨⟩ u
      exact ⟨rfl, rfl⟩
    · rintro user e ⟨⟩
    · rintro user f ⟨⟩
      exact updatedBy_assign hbody user
  | deleteUser userId => exact does_map (does_deleteUser (.deleteUser userId) fun _ => rfl)
  | assignRoles userId body =>
    obtain ⟨roles, hroles, hlist⟩ := roles_of_validate (Bool.and_eq_true_iff.mp hop).1
    refine does_map (does_rewrite (.assignRoles userId body) ?_ ?_ ?_)
    · rintro user f ⟨⟩ u
      exact ⟨rfl, rfl⟩
    · rintro user e ⟨⟩
    · rintro user f ⟨⟩
      exact ⟨_, hroles, by rw [hlist]⟩
  | addRoles userId body =>
    obtain ⟨roles, hroles, hlist⟩ := roles_of_validate (Bool.and_eq_true_iff.mp hop).1
    refine does_map (does_rewrite (.addRoles userId body) ?_ ?_ ?_)
    · rintro user f ⟨⟩ u
      exact ⟨rfl, rfl⟩
    · rintro user e ⟨⟩
    · rintro user f ⟨⟩
      exact ⟨_, _, hroles, rfl, fun v => by rw [hlist, mem_mergeRoles]⟩
  -- the only change that may be refused after the user has been read
  | removeRoles userId body =>
    obtain ⟨roles, hroles, hlist⟩ := roles_of_validate (Bool.and_eq_true_iff.mp hop).1
    refine does_map (does_rewrite (.removeRoles userId body) ?_ ?_ ?_)
    · intro user f hf u
      obtain ⟨-, rfl⟩ := of_removal hf
      exact ⟨rfl, rfl⟩
    · intro user e he
      dsimp only at he
      split at he
      · cases he
        simp [failedExceptions]
      · cases he
    · intro user f hf
      obtain ⟨-, rfl⟩ := of_removal hf
      exact ⟨_, _, hroles, rfl, fun v => by rw [hlist, mem_withoutRoles_map]⟩

/-- An accepted operation that throws has written nothing, and it is never the row it has just
written that it misses; one that returns has changed its user's row as it should and no other. -/
theorem atomic_and_framed (fmt : Formats) (b : Bcrypt) (w : World) (op : UserOperation)
    (hop : op.accepted fmt = true) :
    (∀ e w', (op.run b).exec w = (.error e, w') → w' = w ∧ e ∉ failedExceptions) ∧
      ∀ a w', (op.run b).exec w = (.ok a, w') →
        w'.sessions = w.sessions ∧ Framed b op w.users w'.users := by
  have hdoes := does_run b w hop
  constructor
  · intro e w' h
    rw [h] at hdoes
    exact hdoes.1 e rfl
  · intro a w' h
    rw [h] at hdoes
    exact hdoes.2 a rfl

theorem atomic_and_framed_firstName :
    let w := World.initial.handle atSign markedText (.request johnRegisters)
    let op := UserOperation.updateUser visit.userId (.obj [("firstName", .str "John")])
    (∀ e w', (op.run markedText).exec w = (.error e, w') → w' = w ∧ e ∉ failedExceptions) ∧
      ∀ a w', (op.run markedText).exec w = (.ok a, w') →
        w'.sessions = w.sessions ∧ Framed markedText op w.users w'.users :=
  atomic_and_framed atSign markedText _ _ rfl

end IotPanel.Users
