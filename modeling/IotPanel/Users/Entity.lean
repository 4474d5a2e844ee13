import IotPanel.Js.Exception
import IotPanel.Lib.Collection
import IotPanel.Session.Service

/-!
# Users and the repository of users

The `User` collection has unique indexes on `userId` and `email`. A service method is a
computation that may throw; what it has written before it throws stays written.
-/

namespace IotPanel.Users

open Session (SessionData CreateSessionDto)

inductive Role
  | viewer
  | test
  | engineer
  | admin
  | superAdmin
  deriving DecidableEq, Repr

namespace Role

def value : Role → String
  | viewer => "viewer"
  | test => "test"
  | engineer => "engineer"
  | admin => "admin"
  | superAdmin => "super-admin"

def all : List Role := [viewer, test, engineer, admin, superAdmin]

/-- A role as it stands in a stored list of roles. -/
def json (r : Role) : Json := .str r.value

end Role

/-- `roles.includes(role)` -/
def includes (roles : List Json) (v : Json) : Bool :=
  roles.any fun r => JsVal.strictEq (some r) (some v)

theorem includes_json {roles : List Json} {r : Role} :
    includes roles r.json = true ↔ r.json ∈ roles := by
  simp only [includes, List.any_eq_true]
  constructor
  · rintro ⟨v, hv, heq⟩
    have : v = r.json := by
      cases v <;> simp [Role.json, JsVal.strictEq] at heq ⊢
      exact heq
    exact this ▸ hv
  · exact fun h => ⟨r.json, h, by simp [Role.json, JsVal.strictEq]⟩

theorem mem_of_includes {roles : List Json} {v : Json} (h : includes roles v = true) :
    v ∈ roles := by
  obtain ⟨w, hw, heq⟩ := List.any_eq_true.mp h
  have hsame : w = v := by
    cases w <;> cases v <;> simp [JsVal.strictEq] at heq ⊢ <;> exact heq
  exact hsame ▸ hw

/-- The columns of a user. Nothing that is validated says what the elements of `roles` are; a
missing password is one that `hash` has left out. -/
structure User where
  userId : String
  email : String
  username : String
  password : Option String
  firstName : Option String
  lastName : Option String
  photoUrl : Option String
  isActive : Bool
  roles : List Json

abbrev UserTable := Collection [User.userId, User.email]

/-- What the users' requests share: the users and the live sessions. -/
structure World where
  users : UserTable
  sessions : String → Option SessionData

def World.initial : World := ⟨Collection.empty, fun _ => none⟩

/-- A method of a service. -/
abbrev Service := ExceptT Exception (StateM World)

namespace Service

variable {α β : Type} {w : World}

/-- What the method returns or throws, and what is stored then. -/
def exec (x : Service α) (w : World) : Except Exception α × World := x.run.run w

@[simp] theorem exec_pure (a : α) : (pure a : Service α).exec w = (.ok a, w) := rfl

@[simp] theorem exec_throw (e : Exception) : (throw e : Service α).exec w = (.error e, w) := rfl

@[simp] theorem exec_get : (get : Service World).exec w = (.ok w, w) := rfl

@[simp] theorem exec_set (w' : World) : (set w' : Service PUnit).exec w = (.ok ⟨⟩, w') := rfl

@[simp] theorem exec_bind (x : Service α) (f : α → Service β) :
    (x >>= f).exec w =
      match x.exec w with
      | (.ok a, w') => (f a).exec w'
      | (.error e, w') => (.error e, w') := by
  simp only [exec, ExceptT.run_bind, StateT.run_bind]
  rcases hx : (StateT.run (ExceptT.run x) w) with ⟨_ | _, _⟩ <;> rfl

@[simp] theorem exec_ite (c : Prop) [Decidable c] (x y : Service α) :
    (if c then x else y).exec w = if c then x.exec w else y.exec w := by
  split <;> rfl

@[simp] theorem exec_map (f : α → β) (x : Service α) :
    (f <$> x).exec w =
      match x.exec w with
      | (.ok a, w') => (.ok (f a), w')
      | (.error e, w') => (.error e, w') := by
  rw [map_eq_pure_bind, exec_bind]
  rfl

theorem exec_map_of_eq {f : α → β} {x : Service α} {r : Except Exception α} {w' : World}
    (h : x.exec w = (r, w')) : (f <$> x).exec w = (r.map f, w') := by
  rw [exec_map, h]
  cases r <;> rfl

end Service

/-! ### The repository -/

/-- The error of a write that a unique index refuses. -/
def duplicateKey : Exception := .error "E11000 duplicate key error collection"

namespace UserRepo

def find : Service (List User) := do return (← get).users.rows

def findOne (p : User → Bool) : Service (Option User) := do return (← get).users.find? p

/-- `save` of a new record. -/
def save (u : User) : Service Unit := do
  let w ← get
  match w.users.insert? u with
  | some users => set { w with users := users }
  | none => throw duplicateKey

def update (userId : String) (f : User → User) : Service Unit := do
  let w ← get
  match w.users.update? (fun u => u.userId = userId) f with
  | some users => set { w with users := users }
  | none => throw duplicateKey

variable {w : World}

@[simp] theorem exec_findOne (p : User → Bool) :
    (findOne p).exec w = (.ok (w.users.find? p), w) := rfl

theorem exec_save (u : User) :
    (save u).exec w =
      match w.users.insert? u with
      | some users => (.ok (), { w with users := users })
      | none => (.error duplicateKey, w) := by
  unfold save
  rw [Service.exec_bind, Service.exec_get]
  cases h : w.users.insert? u <;> simp [h]

theorem exec_update (userId : String) (f : User → User) :
    (update userId f).exec w =
      match w.users.update? (fun u => u.userId = userId) f with
      | some users => (.ok (), { w with users := users })
      | none => (.error duplicateKey, w) := by
  unfold update
  rw [Service.exec_bind, Service.exec_get]
  cases h : w.users.update? (fun u => u.userId = userId) f <;> simp [h]

end UserRepo

end IotPanel.Users
