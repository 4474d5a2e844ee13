import IotPanel.Users.Entity

/-!
# The services that write users

`UsersService` and what `AuthService` needs of `EncryptService`. bcrypt is taken to be ideal:
a hash compares with the text it was made from and with no other.
-/

namespace IotPanel.Users

/-- bcrypt under the salt of the process. -/
structure Bcrypt where
  hash : String → String
  compare : String → String → Bool
  compare_hash : ∀ p q, compare q (hash p) = decide (q = p)

/-- A hash that shows its text. -/
def markedText : Bcrypt where
  hash p := "$2b$" ++ p
  compare q h := h == "$2b$" ++ q
  compare_hash p q := by
    have happend : ("$2b$" ++ p = "$2b$" ++ q) ↔ q = p := by
      rw [← String.toList_inj, String.toList_append, String.toList_append, List.append_cancel_left_eq,
        String.toList_inj]
      exact eq_comm
    by_cases hq : q = p
    · simp [hq]
    · simp [hq, happend]

namespace EncryptService

/-- The `password` of `hash({ password })`, which is left out when it is empty. -/
def hash (b : Bcrypt) (password : String) : Option String :=
  if password = "" then none else some (b.hash password)

def compareHash (b : Bcrypt) (hashedData : Option String) (plainText : String) : Service Bool :=
  match hashedData with
  | some h => return b.compare plainText h
  | none => throw (.error "data and hash arguments required")

end EncryptService

structure CreateUserDto where
  username : String
  email : String
  password : String
  roles : List Json
  firstName : Option String
  lastName : Option String

/-- `UpdateUserDto` without its missing and null properties. -/
structure UpdateUserDto where
  username : Option String
  email : Option String
  password : Option String
  firstName : Option String
  lastName : Option String
  photoUrl : Option String
  roles : Option (List Json)

/-- The user that `userRepo.create` makes of the data, with the id of `generateId`. -/
def CreateUserDto.record (dto : CreateUserDto) (userId : String) (password : Option String) :
    User :=
  { userId := userId, email := dto.email, username := dto.username, password := password,
    firstName := dto.firstName, lastName := dto.lastName, photoUrl := none, isActive := true,
    roles := dto.roles }

/-- The password column that an update writes: the hash, if the password is not empty. -/
def UpdateUserDto.storedPassword (dto : UpdateUserDto) (b : Bcrypt) : Option String :=
  match dto.password with
  | some p => if p = "" then some "" else EncryptService.hash b p
  | none => none

/-- The columns that the data has are written, the others stay. -/
def UpdateUserDto.assign (dto : UpdateUserDto) (password : Option String) (u : User) : User :=
  { u with
    username := dto.username.getD u.username
    email := dto.email.getD u.email
    password := password <|> u.password
    firstName := dto.firstName <|> u.firstName
    lastName := dto.lastName <|> u.lastName
    photoUrl := dto.photoUrl <|> u.photoUrl
    roles := dto.roles.getD u.roles }

/-- `Array.from(new Set([...roles, ...rolesToAdd]))` -/
def mergeRoles (roles rolesToAdd : List Json) : List Json :=
  (roles ++ rolesToAdd).foldl (fun acc r => if includes acc r then acc else acc ++ [r]) []

def withoutRoles (roles rolesToRemove : List Json) : List Json :=
  roles.filter fun r => !includes rolesToRemove r

/-- A removal that goes through leaves a role, and keeps what is not removed. -/
theorem of_removal {user : User} {rolesToRemove : List Json} {e : Exception} {f : User → User}
    (h : (if withoutRoles user.roles rolesToRemove = [] then .error e
      else .ok fun u => { u with roles := withoutRoles user.roles rolesToRemove } :
        Except Exception (User → User)) = .ok f) :
    withoutRoles user.roles rolesToRemove ≠ [] ∧
      f = fun u => { u with roles := withoutRoles user.roles rolesToRemove } := by
  split at h
  · cases h
  · rename_i hne
    exact ⟨hne, (Except.ok.inj h).symm⟩

/-- Merging is the union, whatever is repeated in the lists. -/
theorem mem_mergeRoles {roles rolesToAdd : List Json} {v : Json} :
    v ∈ mergeRoles roles rolesToAdd ↔ v ∈ roles ∨ v ∈ rolesToAdd := by
  have hfold : ∀ l acc : List Json,
      v ∈ l.foldl (fun acc r => if includes acc r then acc else acc ++ [r]) acc ↔
        v ∈ acc ∨ v ∈ l := by
    intro l
    induction l with
    | nil => simp
    | cons r rs ih =>
      intro acc
      rw [List.foldl_cons, ih]
      by_cases hin : includes acc r
      · -- what is not added again is there already
        have hold : v = r → v ∈ acc := by
          rintro rfl
          exact mem_of_includes hin
        rw [if_pos hin, List.mem_cons]
        tauto
      · rw [if_neg hin, List.mem_append, List.mem_singleton, List.mem_cons, or_assoc]
  rw [mergeRoles, hfold, List.mem_append]
  simp

/-- What a method of the services answers. -/
inductive Reply
  | user (u : User)
  | message (s : String)

namespace UsersService

def findUserById (userId : String) : Service (Option User) :=
  UserRepo.findOne fun u => u.userId = userId && u.isActive

def findUserByEmail (email : String) : Service (Option User) :=
  UserRepo.findOne fun u => u.email = email && u.isActive

/-- Save the new user, then read it back. -/
def insertUser (record : User) : Service User := do
  if (← findUserByEmail record.email).isSome then
    throw (.unauthorized "Email in Use")
  UserRepo.save record
  match ← UserRepo.findOne fun u => u.userId = record.userId with
  | some created => return created
  | none => throw (.forbidden "Create user failed")

/-- `createUser` stores the password as it gets it. -/
def createUser (userId : String) (dto : CreateUserDto) : Service User :=
  insertUser (dto.record userId (some dto.password))

/-- `createUserManually` stores its hash. -/
def createUserManually (b : Bcrypt) (userId : String) (dto : CreateUserDto) : Service User :=
  insertUser (dto.record userId (EncryptService.hash b dto.password))

/-- Look up the active user, write the columns of the change, read the user back. -/
def rewrite (missing failed : String) (activeOnly : Bool) (userId : String)
    (change : User → Except Exception (User → User)) : Service User := do
  match ← findUserById userId with
  | none => throw (.notFound missing)
  | some user =>
    match change user with
    | .error e => throw e
    | .ok f =>
      UserRepo.update userId f
      match ← UserRepo.findOne fun u => u.userId = userId && (!activeOnly || u.isActive) with
      | some updated => return updated
      | none => throw (.forbidden failed)

def updateUser (b : Bcrypt) (userId : String) (dto : UpdateUserDto) : Service User :=
  rewrite "User not Found" "Update user failed" false userId fun _ =>
    .ok (dto.assign (dto.storedPassword b))

def deleteUser (userId : String) : Service String := do
  match ← findUserById userId with
  | none => throw (.notFound "User not found")
  | some _ =>
    UserRepo.update userId fun u => { u with isActive := false }
    return "User with id " ++ userId ++ " was successfully deleted"

def assignRoles (userId : String) (roles : List Json) : Service User :=
  rewrite "User not found" "Role Assign Failed" true userId fun _ =>
    .ok fun u => { u with roles := roles }

def addRoles (userId : String) (rolesToAdd : List Json) : Service User :=
  rewrite "User not found" "Add role to user failed" true userId fun user =>
    .ok fun u => { u with roles := mergeRoles user.roles rolesToAdd }

def removeRoles (userId : String) (rolesToRemove : List Json) : Service User :=
  rewrite "User not found" "Remove user role failed" true userId fun user =>
    let updatedRoles := withoutRoles user.roles rolesToRemove
    if updatedRoles = [] then
      .error (.unauthorized
        ("User must have at least one role. Current roles: " ++ Json.joinText ", " user.roles))
    else .ok fun u => { u with roles := updatedRoles }

variable {w : World} {b : Bcrypt}

@[simp] theorem exec_findUserById (userId : String) :
    (findUserById userId).exec w =
      (.ok (w.users.find? fun u => u.userId = userId && u.isActive), w) := rfl

@[simp] theorem exec_findUserByEmail (email : String) :
    (findUserByEmail email).exec w =
      (.ok (w.users.find? fun u => u.email = email && u.isActive), w) := rfl

/-- What has just been saved is found by its id. -/
theorem find?_of_insert? {users : UserTable} {record : User}
    (h : w.users.insert? record = some users) :
    users.find? (fun u => u.userId = record.userId) = some record :=
  Collection.find?_of_mem User.userId (by simp) ((Collection.mem_insert? h).mpr (.inr rfl))
    (by simp) (by simp)

/-- An update of other columns than the id is found under the id. -/
theorem find?_of_update? {users : UserTable} {userId : String} {f : User → User} {user : User}
    {q : User → Bool} (h : w.users.update? (fun u => u.userId = userId) f = some users)
    (huser : user ∈ w.users.rows) (hid : user.userId = userId) (hf : (f user).userId = user.userId)
    (hq : q (f user) = true) :
    users.find? (fun u => u.userId = userId && q u) = some (f user) := by
  refine Collection.find?_of_mem User.userId (by simp) ?_ ?_ ?_
  · exact (Collection.mem_update? h).mpr ⟨user, huser, by simp [hid]⟩
  · simp [hf, hid, hq]
  · intro y hy
    have hy' : y.userId = userId ∧ q y = true := by simpa using hy
    rw [hy'.1, hf, hid]

theorem exec_insertUser (record : User) :
    (insertUser record).exec w =
      if (w.users.find? fun u => u.email = record.email && u.isActive).isSome then
        (.error (.unauthorized "Email in Use"), w)
      else
        match w.users.insert? record with
        | some users => (.ok record, { w with users := users })
        | none => (.error duplicateKey, w) := by
  unfold insertUser
  simp only [Service.exec_bind, exec_findUserByEmail]
  by_cases hused : (w.users.find? fun u => u.email = record.email && u.isActive).isSome
  · rw [if_pos hused, if_pos hused]
    rfl
  · rw [if_neg hused, if_neg hused]
    simp only [Service.exec_bind, UserRepo.exec_save]
    cases h : w.users.insert? record with
    | none => rfl
    | some users => simp [find?_of_insert? h]

theorem exec_rewrite {missing failed : String} {activeOnly : Bool} {userId : String}
    {change : User → Except Exception (User → User)}
    (hchange : ∀ user f, change user = .ok f →
      ∀ u, (f u).userId = u.userId ∧ (f u).isActive = u.isActive) :
    (rewrite missing failed activeOnly userId change).exec w =
      match w.users.find? fun u => u.userId = userId && u.isActive with
      | none => (.error (.notFound missing), w)
      | some user =>
        match change user with
        | .error e => (.error e, w)
        | .ok f =>
          match w.users.update? (fun u => u.userId = userId) f with
          | some users => (.ok (f user), { w with users := users })
          | none => (.error duplicateKey, w) := by
  unfold rewrite
  simp only [Service.exec_bind, exec_findUserById]
  cases huser : w.users.find? fun u => u.userId = userId && u.isActive with
  | none => rfl
  | some user =>
    obtain ⟨hmem, hactive⟩ := Collection.mem_of_find? huser
    have hactive' : user.userId = userId ∧ user.isActive = true := by simpa using hactive
    cases hf : change user with
    | error e => simp [hf]
    | ok f =>
      simp only [Service.exec_bind, UserRepo.exec_update, UserRepo.exec_findOne, hf]
      cases hupdate : w.users.update? (fun u => u.userId = userId) f with
      | none => rfl
      | some users =>
        -- The change keeps the id and the flag, so the row is found again by both.
        obtain ⟨hid, hkept⟩ := hchange user f hf user
        simp only [find?_of_update? (q := fun u => !activeOnly || u.isActive) hupdate hmem
          hactive'.1 hid (by simp [hkept, hactive'.2])]
        rfl

/-- Inserting a user throws and leaves all as it was, or does it. -/
theorem insertUser_cases (w : World) (record : User) :
    (∃ e, (insertUser record).exec w = (.error e, w)) ∨
      ∃ users, w.users.insert? record = some users ∧
        (insertUser record).exec w = (.ok record, { w with users := users }) := by
  rw [exec_insertUser]
  split
  · exact .inl ⟨_, rfl⟩
  · cases w.users.insert? record with
    | none => exact .inl ⟨_, rfl⟩
    | some users => exact .inr ⟨users, rfl, rfl⟩

/-- A rewrite throws and leaves all as it was, or changes an active user. -/
theorem rewrite_cases (missing failed : String) (activeOnly : Bool) (userId : String)
    {change : User → Except Exception (User → User)} (w : World)
    (hchange : ∀ user f, change user = .ok f →
      ∀ u, (f u).userId = u.userId ∧ (f u).isActive = u.isActive) :
    (∃ e, (rewrite missing failed activeOnly userId change).exec w = (.error e, w)) ∨
      ∃ user f users, w.users.find? (fun u => u.userId = userId && u.isActive) = some user ∧
        change user = .ok f ∧ w.users.update? (fun u => u.userId = userId) f = some users ∧
        (rewrite missing failed activeOnly userId change).exec w =
          (.ok (f user), { w with users := users }) := by
  rw [exec_rewrite hchange]
  cases w.users.find? fun u => u.userId = userId && u.isActive with
  | none => exact .inl ⟨_, rfl⟩
  | some user =>
    cases hf : change user with
    | error e => exact .inl ⟨e, by simp [hf]⟩
    | ok f =>
      cases hupdate : w.users.update? (fun u => u.userId = userId) f with
      | none => exact .inl ⟨duplicateKey, by simp only [hf, hupdate]⟩
      | some users => exact .inr ⟨user, f, users, rfl, hf, hupdate, by simp only [hf, hupdate]⟩

theorem exec_deleteUser (userId : String) :
    (deleteUser userId).exec w =
      match w.users.find? fun u => u.userId = userId && u.isActive with
      | none => (.error (.notFound "User not found"), w)
      | some _ =>
        match w.users.update? (fun u => u.userId = userId) fun u => { u with isActive := false } with
        | some users =>
          (.ok ("User with id " ++ userId ++ " was successfully deleted"), { w with users := users })
        | none => (.error duplicateKey, w) := by
  unfold deleteUser
  simp only [Service.exec_bind, exec_findUserById]
  cases w.users.find? fun u => u.userId = userId && u.isActive with
  | none => rfl
  | some user =>
    simp only [Service.exec_bind, UserRepo.exec_update]
    cases w.users.update? (fun u => u.userId = userId) fun u => { u with isActive := false } with
    | none => rfl
    | some users => rfl

/-- A deletion throws and leaves all as it was, or puts an active user out of action. -/
theorem deleteUser_cases (w : World) (userId : String) :
    (∃ e, (deleteUser userId).exec w = (.error e, w)) ∨
      ∃ user users m, w.users.find? (fun u => u.userId = userId && u.isActive) = some user ∧
        w.users.update? (fun u => u.userId = userId) (fun u => { u with isActive := false }) =
          some users ∧
        (deleteUser userId).exec w = (.ok m, { w with users := users }) := by
  rw [exec_deleteUser]
  cases w.users.find? fun u => u.userId = userId && u.isActive with
  | none => exact .inl ⟨_, rfl⟩
  | some user =>
    cases w.users.update? (fun u => u.userId = userId) fun u => { u with isActive := false } with
    | none => exact .inl ⟨_, rfl⟩
    | some users => exact .inr ⟨user, users, _, rfl, rfl, rfl⟩

end UsersService

end IotPanel.Users
