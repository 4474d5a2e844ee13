import IotPanel.Users.Awaits

/-!
# The statements of the repository of users

What the database does with each statement that the services await, and how it answers.
-/

namespace IotPanel.Users

/-- The commands that the database executes. -/
def Command.isStatement : Command → Bool
  | .findOne _ | .save _ | .update _ _ => true
  | .call _ | .result _ _ => false

/-- What a statement of the repository does and how it is answered: a unique index refuses a write,
or the database fails. -/
inductive Database (s : UserTable) : (c : Command) → Except Exception c.Reply → UserTable → Prop
  | find (p : User → Bool) : Database s (.findOne p) (.ok (s.find? p)) s
  | save {record : User} {users : UserTable} (h : s.insert? record = some users) :
      Database s (.save record) (.ok ()) users
  | refuseSave {record : User} (h : s.insert? record = none) :
      Database s (.save record) (.error duplicateKey) s
  | update {userId : String} {f : User → User} {users : UserTable}
      (h : s.update? (fun u => u.userId = userId) f = some users) :
      Database s (.update userId f) (.ok ()) users
  | refuseUpdate {userId : String} {f : User → User}
      (h : s.update? (fun u => u.userId = userId) f = none) :
      Database s (.update userId f) (.error duplicateKey) s
  | fail (c : Command) (e : Exception) : Database s c (.error e) s

namespace Database

variable {s s' : UserTable}

theorem findOne_cases {p : User → Bool} {r : Except Exception (Option User)}
    (h : Database s (.findOne p) r s') : s' = s ∧ (r = .ok (s.find? p) ∨ ∃ e, r = .error e) := by
  cases h with
  | find => exact ⟨rfl, .inl rfl⟩
  | fail e => exact ⟨rfl, .inr ⟨_, rfl⟩⟩

theorem update_cases {userId : String} {f : User → User} {r : Except Exception Unit}
    (h : Database s (.update userId f) r s') :
    (r = .ok () ∧ s.update? (fun u => u.userId = userId) f = some s') ∨
      s' = s ∧ ∃ e, r = .error e := by
  cases h with
  | update h => exact .inl ⟨rfl, h⟩
  | refuseUpdate h => exact .inr ⟨rfl, _, rfl⟩
  | fail e => exact .inr ⟨rfl, _, rfl⟩

theorem save_cases {record : User} {r : Except Exception Unit}
    (h : Database s (.save record) r s') :
    (r = .ok () ∧ s.insert? record = some s') ∨ s' = s ∧ ∃ e, r = .error e := by
  cases h with
  | save h => exact .inl ⟨rfl, h⟩
  | refuseSave h => exact .inr ⟨rfl, _, rfl⟩
  | fail e => exact .inr ⟨rfl, _, rfl⟩

end Database

end IotPanel.Users
