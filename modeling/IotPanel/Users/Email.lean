import IotPanel.Users.Auth
import Mathlib.Data.Fintype.EquivFin

/-!
# Emails of users

The services look for an email among the active users, the unique index looks at all of them. A
deletion keeps the row of the user, and with it the email.
-/

namespace IotPanel.Users

open UsersService

/-- The stores that signups, creations, updates and deletions lead to, whether they return or
throw. -/
inductive Reachable (b : Bcrypt) : World → Prop
  | initial : Reachable b .initial
  | signup {w : World} (env : Env) (dto : SignupDto) (h : Reachable b w) :
      Reachable b ((AuthService.signup b env dto).exec w).2
  | createUserManually {w : World} (userId : String) (dto : CreateUserDto) (h : Reachable b w) :
      Reachable b ((createUserManually b userId dto).exec w).2
  | updateUser {w : World} (userId : String) (dto : UpdateUserDto) (h : Reachable b w) :
      Reachable b ((updateUser b userId dto).exec w).2
  | deleteUser {w : World} (userId : String) (h : Reachable b w) :
      Reachable b ((deleteUser userId).exec w).2

/-- The email is in use by an active user. -/
def InUse (w : World) (email : String) : Prop :=
  ∃ u ∈ w.users.rows, u.email = email ∧ u.isActive = true

/-- The method returns. -/
def Succeeds {α : Type} (x : Service α) (w : World) : Prop := ∃ a w', x.exec w = (.ok a, w')

/-- A user of a new id can be created with the email if and only if no active user has it, and
after no successful update do two active users share it. -/
structure EffectiveEmail (b : Bcrypt) (w : World) (email : String) : Prop where
  create : ∀ userId dto, (∀ u ∈ w.users.rows, u.userId ≠ userId) → dto.email = email →
    (Succeeds (createUser userId dto) w ↔ ¬ InUse w email)
  createManually : ∀ userId dto, (∀ u ∈ w.users.rows, u.userId ≠ userId) → dto.email = email →
    (Succeeds (createUserManually b userId dto) w ↔ ¬ InUse w email)
  update : ∀ userId dto user w', (updateUser b userId dto).exec w = (.ok user, w') →
    ∀ x ∈ w'.users.rows, ∀ y ∈ w'.users.rows, x.email = email → y.email = email →
      x.isActive = true → y.isActive = true → x = y

variable {b : Bcrypt} {w : World} {email : String} {record : User}

theorem inUse_iff :
    InUse w email ↔ (w.users.find? fun u => u.email = email && u.isActive).isSome = true := by
  simp only [Collection.find?, List.find?_isSome, Bool.and_eq_true, decide_eq_true_eq]
  rfl

/-- An insertion succeeds if the lookup finds no one and the index has no row with the email. -/
theorem succeeds_insertUser_iff (hid : ∀ u ∈ w.users.rows, u.userId ≠ record.userId) :
    Succeeds (insertUser record) w ↔
      ¬ InUse w record.email ∧ ∀ u ∈ w.users.rows, u.email ≠ record.email := by
  unfold Succeeds
  rw [exec_insertUser, inUse_iff]
  constructor
  · rintro ⟨a, w', h⟩
    split at h
    · cases h
    · rename_i hfree
      refine ⟨hfree, fun u hu => ?_⟩
      cases hinsert : w.users.insert? record with
      | none =>
        rw [hinsert] at h
        cases h
      | some users => exact Collection.key_ne_of_insert? User.email hinsert (by simp) hu
  · rintro ⟨hfree, hemail⟩
    have hinsert : (w.users.insert? record).isSome := by
      refine Collection.insert?_isSome fun ix hix u hu => ?_
      rcases List.mem_cons.mp hix with rfl | hix
      · exact hid u hu
      · rw [List.mem_singleton.mp hix]
        exact hemail u hu
    obtain ⟨users, husers⟩ := Option.isSome_iff_exists.mp hinsert
    refine ⟨record, { w with users := users }, ?_⟩
    rw [if_neg hfree, husers]

/-- Where every user of the email is active, the lookup says what the index says. -/
theorem succeeds_insertUser_iff_not_inUse (hid : ∀ u ∈ w.users.rows, u.userId ≠ record.userId)
    (hactive : ∀ u ∈ w.users.rows, u.email = record.email → u.isActive = true) :
    Succeeds (insertUser record) w ↔ ¬ InUse w record.email := by
  rw [succeeds_insertUser_iff hid, and_iff_left_of_imp]
  intro hfree u hu hemail
  exact hfree ⟨u, hu, hemail, hactive u hu hemail⟩

theorem exists_new_userId (w : World) : ∃ userId, ∀ u ∈ w.users.rows, u.userId ≠ userId := by
  obtain ⟨userId, hnew⟩ := Infinite.exists_notMem_finset (w.users.rows.map User.userId).toFinset
  refine ⟨userId, fun u hu heq => hnew ?_⟩
  rw [List.mem_toFinset, ← heq]
  exact List.mem_map_of_mem hu

/-- The two notions of a used email agree where no deleted user has it. -/
theorem effectiveEmail_iff (b : Bcrypt) (w : World) (email : String) :
    EffectiveEmail b w email ↔ ∀ u ∈ w.users.rows, u.email = email → u.isActive = true := by
  constructor
  · intro h u hu hemail
    obtain ⟨userId, hnew⟩ := exists_new_userId w
    let dto : CreateUserDto := ⟨"ana", email, "secret", [], none, none⟩
    have hiff : Succeeds (createUser userId dto) w ↔ _ := succeeds_insertUser_iff hnew
    by_contra hinactive
    have hfree : ¬ InUse w email := by
      rintro ⟨x, hx, hxemail, hxactive⟩
      have hxu : x = u :=
        Collection.eq_of_key User.email (by simp) hx hu (hxemail.trans hemail.symm)
      exact hinactive (hxu ▸ hxactive)
    exact (hiff.mp ((h.create userId dto hnew rfl).mpr hfree)).2 u hu hemail
  · intro h
    refine ⟨fun userId dto hnew hdto => ?_, fun userId dto hnew hdto => ?_, ?_⟩
    · subst hdto
      exact succeeds_insertUser_iff_not_inUse hnew h
    · subst hdto
      exact succeeds_insertUser_iff_not_inUse hnew h
    · intro _ _ _ w' _ x hx y hy hxe hye _ _
      exact Collection.eq_of_key User.email (by simp) hx hy (hxe.trans hye.symm)

/-- A user who signs up, is deleted and signs up again is refused by the index. -/
theorem not_effectiveEmail_of_deleteUser :
    ¬ ∀ (b : Bcrypt) (w : World) (email : String), Reachable b w → EffectiveEmail b w email := by
  intro h
  let dto : SignupDto := ⟨"ana", "ana@iot.org", "123456789"⟩
  let w := ((deleteUser "u").exec ((AuthService.signup markedText visit dto).exec .initial).2).2
  have hreach : Reachable markedText w := .deleteUser _ (.signup _ _ .initial)
  have hall := (effectiveEmail_iff _ _ _).mp (h markedText w "ana@iot.org" hreach)
  have hdeleted : (w.users.rows.any fun u => u.email = "ana@iot.org" && !u.isActive) = true := by
    decide +kernel
  obtain ⟨u, hu, htest⟩ := List.any_eq_true.mp hdeleted
  rw [Bool.and_eq_true, decide_eq_true_eq] at htest
  rw [hall u hu htest.1] at htest
  cases htest.2

end IotPanel.Users
