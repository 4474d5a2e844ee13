import IotPanel.Users.Signup

/-!
# Is a signup atomic?

A signup that throws should have left nothing behind, and one that returns a user with a session.
It keeps the second of these always, and the first only if nothing can fail once the user has been
stored: what has been written until then is not taken back.
-/

namespace IotPanel.Users

open Program
open Session (CreateSessionDto SessionData Redis Record sessionKey trackingKey)

/-- The signup can be answered with a user when nothing fails. -/
def CanSignUp (T : ℕ) (b : Bcrypt) (env : Env) (s : Stores) (dto : SignupDto) : Prop :=
  ∃ user t, (Signing.signup env dto).Runs (Signs T b .none) s (.ok user) t

/-- Nothing has been left in the stores, and the signup can be repeated. -/
structure Undone (T : ℕ) (b : Bcrypt) (dto : SignupDto) (s t : Stores) : Prop where
  users : t.users = s.users
  sessions : t.redis.store = s.redis.store
  repeatable : ∀ env, CanSignUp T b env s dto → CanSignUp T b env t dto

/-- The user is new and active, with the email of the signup, and has one session, unless the call
has taken longer than a session lives. -/
structure SignedUp (T : ℕ) (dto : SignupDto) (s t : Stores) (user : User) : Prop where
  users : t.users.rows = s.users.rows ++ [user]
  email : user.email = dto.email
  isActive : user.isActive = true
  session : t.redis.now < s.redis.now + 1000 * T →
    ∃! sid, ∃ d, t.redis.getSession sid = some d ∧ d.userId = user.userId

/-- The signup does all or nothing, whatever fails. -/
structure Atomic (T : ℕ) (b : Bcrypt) (F : Faults) (env : Env) (s : Stores) (dto : SignupDto) :
    Prop where
  thrown : ∀ e t, (Signing.signup env dto).Runs (Signs T b F) s (.error e) t →
    Undone T b dto s t
  returned : ∀ user t, (Signing.signup env dto).Runs (Signs T b F) s (.ok user) t →
    SignedUp T dto s t user

/-- The signup gets to its save, and the save is not refused. -/
def Stores.Admits (b : Bcrypt) (env : Env) (s : Stores) (dto : SignupDto) : Prop :=
  AuthService.SignupAdmitted b ⟨s.users, fun _ => none⟩ env dto

/-- What a signup waits for when its user has been stored. -/
def laterCommands (env : Env) (record : User) : List SignupCommand :=
  [.findOne fun u => u.userId = record.userId,
    .setex (sessionKey env.sessionId)
      (.data (Signing.sessionData env (Signing.sessionDto env record))),
    .setex (trackingKey record.userId env.sessionId) .tracked, .setCookie env.sessionId]

/-- Nothing goes wrong once the user has been stored. -/
structure Faults.SparesStored (F : Faults) (T : ℕ) (env : Env) (record : User) : Prop where
  timeout : 0 < T
  save : ¬ F.loses (.save record)
  later : ∀ c ∈ laterCommands env record, ¬ F.Hits c

/-! ### One command -/

/-- Time has passed, and nothing else. -/
structure Stores.Waits (s t : Stores) : Prop where
  users : t.users = s.users
  store : t.redis.store = s.redis.store
  now : s.redis.now ≤ t.redis.now

section Commands

variable {T : ℕ} {b : Bcrypt} {F : Faults} {env : Env} {s s' t : Stores} {c : SignupCommand}
  {r : Except Exception c.Reply} {dto : SignupDto} {record user : User}

theorem Stores.Waits.trans (h : s.Waits s') (h' : s'.Waits t) : s.Waits t :=
  ⟨h'.users.trans h.users, h'.store.trans h.store, h.now.trans h'.now⟩

theorem waits_tick (s : Stores) (d : ℕ) : s.Waits (s.tick d) := ⟨rfl, rfl, Nat.le_add_right _ _⟩

/-- A command that is not hit by a fault is executed. -/
theorem signs_cases (h : Signs T b F s c r t) :
    (∃ d, ((s.tick d).execute T b c) = (r, t)) ∨
      (F.Hits c ∧ (∃ e, r = .error e) ∧ ∃ d, t = s.tick d ∨ t = ((s.tick d).execute T b c).2) := by
  cases h with
  | executed d => exact .inl ⟨d, rfl⟩
  | failed d e hF => exact .inr ⟨.inl hF, ⟨e, rfl⟩, d, .inl rfl⟩
  | lost d e hF => exact .inr ⟨.inr hF, ⟨e, rfl⟩, d, .inr rfl⟩

/-- The command writes nothing. -/
def SignupCommand.Reads : SignupCommand → Prop
  | .findOne _ | .hash _ | .setCookie _ => True
  | _ => False

theorem waits_of_signs (hc : c.Reads) (h : Signs T b F s c r t) : s.Waits t := by
  have hexecute : ∀ s : Stores, (s.execute T b c).2 = s := by
    intro s
    cases c with
    | findOne p | hash password | setCookie sid => rfl
    | save record | setex key value => exact hc.elim
  obtain ⟨d, h⟩ | ⟨-, -, d, rfl | rfl⟩ := signs_cases h
  · have ht : ((s.tick d).execute T b c).2 = t := congrArg Prod.snd h
    rw [hexecute] at ht
    exact ht ▸ waits_tick s d
  · exact waits_tick s d
  · rw [hexecute]
    exact waits_tick s d

/-- The user has been stored, and nothing else. -/
structure Stores.Stored (s : Stores) (record : User) (t : Stores) : Prop where
  users : s.users.insert? record = some t.users
  store : t.redis.store = s.redis.store
  now : s.redis.now ≤ t.redis.now

theorem Stores.Waits.stored (h : s.Waits s') (h' : s'.Stored record t) : s.Stored record t where
  users := h.users ▸ h'.users
  store := h'.store.trans h.store
  now := h.now.trans h'.now

theorem execute_save (h : s.users.insert? record = none) :
    s.execute T b (.save record) = (.error duplicateKey, s) := by
  simp only [Stores.execute, h]

theorem execute_save_of_insert? {users : UserTable} (h : s.users.insert? record = some users) :
    s.execute T b (.save record) = (.ok (), { s with users := users }) := by
  simp only [Stores.execute, h]

/-- The user is stored, though the reply may be lost, or all is as it was. -/
theorem save_cases {r : Except Exception Unit} (h : Signs T b F s (.save record) r t) :
    (s.Waits t ∧ ∃ e, r = .error e) ∨
      s.Stored record t ∧ (r = .ok () ∨ F.loses (.save record) ∧ ∃ e, r = .error e) := by
  cases hinsert : s.users.insert? record with
  | none =>
    have hexecute : ∀ d, (s.tick d).execute T b (.save record) = (.error duplicateKey, s.tick d) :=
      fun d => execute_save hinsert
    cases h with
    | executed d =>
      rw [hexecute]
      exact .inl ⟨waits_tick s d, _, rfl⟩
    | failed d e hF => exact .inl ⟨waits_tick s d, e, rfl⟩
    | lost d e hF =>
      rw [hexecute]
      exact .inl ⟨waits_tick s d, e, rfl⟩
  | some users =>
    have hexecute : ∀ d, (s.tick d).execute T b (.save record) =
        (.ok (), { s.tick d with users := users }) := fun d => execute_save_of_insert? hinsert
    cases h with
    | executed d =>
      rw [hexecute]
      exact .inr ⟨⟨hinsert, rfl, Nat.le_add_right _ _⟩, .inl rfl⟩
    | failed d e hF => exact .inl ⟨waits_tick s d, e, rfl⟩
    | lost d e hF =>
      rw [hexecute]
      exact .inr ⟨⟨hinsert, rfl, Nat.le_add_right _ _⟩, .inr ⟨hF, e, rfl⟩⟩

/-- A write to Redis is made, and it is answered unless something may go wrong. -/
theorem setex_cases {key : String} {value : Record} {r : Except Exception Unit}
    (h : Signs T b F s (.setex key value) r t) :
    (t.users = s.users ∧ s.redis.now ≤ t.redis.now) ∧
      ((r = .ok () ∧ 0 < T ∧
          t.redis.store = s.redis.store.setex t.redis.now key value (1000 * T)) ∨
        (∃ e, r = .error e) ∧ (T = 0 ∨ F.Hits (.setex key value))) := by
  have hexecute : ∀ d, ((s.tick d).execute T b (.setex key value)).2.users = s.users ∧
      s.redis.now ≤ ((s.tick d).execute T b (.setex key value)).2.redis.now := by
    intro d
    by_cases hT : T = 0
    · simp [Stores.execute, hT, Stores.tick, Redis.tick]
    · simp [Stores.execute, hT, Stores.tick, Redis.tick, Redis.setex]
  cases h with
  | executed d =>
    refine ⟨hexecute d, ?_⟩
    by_cases hT : T = 0
    · simp only [Stores.execute, if_pos hT]
      exact .inr ⟨⟨_, rfl⟩, .inl hT⟩
    · rw [Stores.execute, if_neg hT]
      exact .inl ⟨rfl, Nat.pos_of_ne_zero hT, rfl⟩
  | failed d e hF => exact ⟨⟨rfl, Nat.le_add_right _ _⟩, .inr ⟨⟨e, rfl⟩, .inr (.inl hF)⟩⟩
  | lost d e hF => exact ⟨hexecute d, .inr ⟨⟨e, rfl⟩, .inr (.inr hF)⟩⟩

end Commands

/-! ### What can fail -/

section Failures

variable {T : ℕ} {b : Bcrypt} {F : Faults} {env : Env} {s : Stores}

theorem signs_total (s : Stores) (c : SignupCommand) : ∃ r t, Signs T b F s c r t :=
  ⟨_, _, .executed 0 c⟩

theorem fails_of_hits {c : SignupCommand} (h : F.Hits c) :
    (perform c : Signing c.Reply).Fails (Signs T b F) s := by
  rw [fails_perform]
  rcases h with hfails | hloses
  · exact ⟨duplicateKey, _, .failed 0 duplicateKey hfails⟩
  · exact ⟨duplicateKey, _, .lost 0 duplicateKey hloses⟩

/-- What only reads fails if it is hit. -/
theorem fails_of_reads {c : SignupCommand} (hc : c.Reads) :
    (perform c : Signing c.Reply).Fails (Signs T b F) s ↔ F.Hits c := by
  refine ⟨fun h => ?_, fails_of_hits⟩
  obtain ⟨e, t, h⟩ := fails_perform.mp h
  obtain ⟨d, h⟩ | ⟨hF, -, -⟩ := signs_cases h
  · cases c with
    | findOne p | hash password | setCookie sid => cases congrArg Prod.fst h
    | save record | setex key value => exact hc.elim
  · exact hF

theorem fails_setex {key : String} {value : Record} :
    (Signing.setex key value).Fails (Signs T b F) s ↔ T = 0 ∨ F.Hits (.setex key value) := by
  constructor
  · intro h
    obtain ⟨e, t, h⟩ := fails_perform.mp h
    obtain ⟨-, ⟨hok, -, -⟩ | ⟨-, hF⟩⟩ := setex_cases h
    · cases hok
    · exact hF
  · rintro (rfl | hF)
    · exact fails_perform.mpr ⟨_, _, .executed 0 (.setex key value)⟩
    · exact fails_of_hits hF

theorem fails_storeSession {dto : CreateSessionDto} :
    (Signing.storeSession env dto).Fails (Signs T b F) s ↔
      T = 0 ∨ F.Hits (.setex (sessionKey env.sessionId) (.data (Signing.sessionData env dto))) ∨
        F.Hits (.setex (trackingKey dto.userId env.sessionId) .tracked) := by
  have htracking : ∀ t, (do
      Signing.setex (trackingKey dto.userId env.sessionId) .tracked
      pure env.sessionId).Fails (Signs T b F) t ↔
        T = 0 ∨ F.Hits (.setex (trackingKey dto.userId env.sessionId) .tracked) :=
    fun _ => fails_bind_pure.trans fails_setex
  rw [Signing.storeSession, fails_tryCatch_throw,
    fails_bind signs_total fun _ t _ => htracking t, fails_setex]
  tauto

end Failures

/-! ### Before the save and after it -/

namespace Signing

/-- A signup up to its save: the user that is to be saved. -/
def beforeSave (env : Env) (dto : SignupDto) : Signing User := do
  if dto.email = "" || dto.username = "" || dto.password = "" then
    throw (.app "INVALID_REQUEST" 400)
  if (← lift env (Awaits.findUserByEmail dto.email)).isSome then
    throw (.app "EMAIL_ALREADY_EXISTS" 409)
  let hashedPassword := (← hash dto.password).getD ""
  if hashedPassword = "" then
    throw (.app "INVALID_CREDENTIALS" 401)
  if (← lift env (Awaits.findUserByEmail dto.email)).isSome then
    throw (.unauthorized "Email in Use")
  return (AuthService.SignupDto.toCreate dto hashedPassword).record env.userId (some hashedPassword)

def afterSave (env : Env) (record : User) : Signing User := do
  let createdUser ← readBack record
  createSession env createdUser
  return createdUser

theorem signup_eq (env : Env) (dto : SignupDto) :
    signup env dto = (do
      let record ← beforeSave env dto
      perform (SignupCommand.save record)
      afterSave env record) := by
  unfold signup beforeSave afterSave Awaits.createUser
  simp only [lift_insertUser, throw_bind, Program.ite_bind, LawfulMonad.bind_assoc, pure_bind]
  rfl

end Signing

section Parts

variable {T : ℕ} {b : Bcrypt} {F : Faults} {env : Env} {s s' t : Stores} {dto : SignupDto}
  {record user : User} {α : Type}

/-- Programs of reads. -/
def reading : Protocol Unit SignupCommand SignupCommand.Reply Exception where
  allowed _ c := c.Reads
  next _ _ _ := ()

/-- Programs that do not write users. -/
def saveless : Protocol Unit SignupCommand SignupCommand.Reply Exception where
  allowed _ c := ∀ record, c ≠ .save record
  next _ _ _ := ()

theorem waits_of_stays {x : Signing α} {a : Except Exception α} (hx : x.Stays reading ())
    (h : x.Runs (Signs T b F) s a t) : s.Waits t :=
  (h.of_wp (A := fun s' _ => s.Waits s') hx ⟨rfl, rfl, le_rfl⟩
    fun _ _ _ _ _ hA hc hE => hA.trans (waits_of_signs hc hE)).choose_spec.2

theorem users_of_stays {x : Signing α} {a : Except Exception α} (hx : x.Stays saveless ())
    (h : x.Runs (Signs T b F) s a t) : t.users = s.users := by
  refine (h.of_wp (A := fun s' _ => s'.users = s.users) hx rfl ?_).choose_spec.2
  intro s' _ c r s'' hA hc hE
  cases c with
  | findOne p | hash password | setCookie sid => exact (waits_of_signs (by trivial) hE).users.trans hA
  | save record => exact absurd rfl (hc record)
  | setex key value => exact (setex_cases hE).1.1.trans hA

theorem stays_findOne (p : User → Bool) :
    (perform (SignupCommand.findOne p) : Signing _).Stays reading () :=
  stays_perform trivial fun _ => rfl

theorem stays_beforeSave : (Signing.beforeSave env dto).Stays reading () := by
  have hguard : ∀ {p : Prop} [Decidable p] {e : Exception} {f : PUnit → Signing User},
      (f ⟨⟩).Stays reading () → (if p then throw e >>= f else f ⟨⟩).Stays reading () :=
    fun hf => stays_ite (fun _ => stays_throw) fun _ => hf
  unfold Signing.beforeSave
  refine hguard (stays_bind (stays_findOne _) fun _ => hguard ?_)
  refine stays_bind (stays_perform trivial fun _ => rfl) fun _ => hguard ?_
  exact stays_bind (stays_findOne _) fun _ => hguard stays_pure

/-- What is to be saved once all checks have been passed. -/
theorem runs_beforeSave (h : (Signing.beforeSave env dto).Runs (Signs T b F) s (.ok record) t) :
    record = AuthService.signupRecord b env dto ∧
      dto.email ≠ "" ∧ dto.username ≠ "" ∧ dto.password ≠ "" ∧ b.hash dto.password ≠ "" := by
  rw [Signing.beforeSave, runs_guard_ok] at h
  obtain ⟨hmissing, h⟩ := h
  obtain ⟨hemail, husername, hpassword⟩ := (AuthService.signup_complete dto).mp hmissing
  obtain ⟨user, s₁, -, h⟩ := runs_bind_ok.mp h
  obtain ⟨-, h⟩ := runs_guard_ok.mp h
  obtain ⟨hashed, s₂, hhash, h⟩ := runs_bind_ok.mp h
  obtain ⟨hne, h⟩ := runs_guard_ok.mp h
  obtain ⟨user', s₃, -, h⟩ := runs_bind_ok.mp h
  obtain ⟨-, h⟩ := runs_guard_ok.mp h
  have hrecord := Except.ok.inj (runs_pure.mp h).1
  have hhashed : hashed = some (b.hash dto.password) := by
    obtain ⟨d, hexecute⟩ | ⟨-, ⟨e, he⟩, -⟩ := signs_cases (runs_perform.mp hhash)
    · have := Except.ok.inj (congrArg Prod.fst hexecute)
      rw [← this, EncryptService.hash, if_neg hpassword]
    · cases he
  subst hhashed
  exact ⟨hrecord, hemail, husername, hpassword, hne⟩

theorem runs_beforeSave_of_admits (h : s.Admits b env dto) :
    (Signing.beforeSave env dto).Runs (Signs T b F) s
      (.ok (AuthService.signupRecord b env dto)) s := by
  obtain ⟨hemail, husername, hpassword, hhash, hinsert⟩ := h
  have hfree : s.users.find? (fun u => u.email = dto.email && u.isActive) = none := by
    by_contra hfound
    have hnone : s.users.insert? (AuthService.signupRecord b env dto) = none :=
      AuthService.insert?_eq_none_of_email (w := ⟨s.users, fun _ => none⟩)
        (Option.isSome_iff_ne_none.mpr hfound)
    rw [hnone] at hinsert
    cases hinsert
  have hlookup : (Signing.lift env (Awaits.findUserByEmail dto.email)).Runs (Signs T b F) s
      (.ok none) s := by
    have hexecuted : Signs T b F s (.findOne fun u => u.email = dto.email && u.isActive)
        (.ok (s.users.find? fun u => u.email = dto.email && u.isActive)) s := .executed 0 _
    rw [hfree] at hexecuted
    exact runs_perform.mpr hexecuted
  have hhashed : (Signing.hash dto.password).Runs (Signs T b F) s
      (.ok (some (b.hash dto.password))) s := by
    have hexecuted : Signs T b F s (.hash dto.password)
        (.ok (EncryptService.hash b dto.password)) s := .executed 0 _
    rw [EncryptService.hash, if_neg hpassword] at hexecuted
    exact runs_perform.mpr hexecuted
  have hcomplete := (AuthService.signup_complete dto).mpr ⟨hemail, husername, hpassword⟩
  rw [Signing.beforeSave]
  refine runs_guard_ok.mpr ⟨hcomplete, ?_⟩
  refine runs_bind_ok.mpr ⟨none, s, hlookup, runs_guard_ok.mpr ⟨by simp, ?_⟩⟩
  refine runs_bind_ok.mpr ⟨_, s, hhashed, runs_guard_ok.mpr ⟨hhash, ?_⟩⟩
  refine runs_bind_ok.mpr ⟨none, s, hlookup, runs_guard_ok.mpr ⟨by simp, ?_⟩⟩
  exact runs_pure.mpr ⟨rfl, rfl⟩

/-! The part after the save -/

theorem stays_storeSession (dto : CreateSessionDto) :
    (Signing.storeSession env dto).Stays saveless () := by
  have hsetex : ∀ key value, (Signing.setex key value).Stays saveless () :=
    fun key value => stays_perform (fun record => by rintro ⟨⟩) fun _ => rfl
  refine stays_tryCatch ?_ fun _ => stays_throw
  exact stays_bind (hsetex _ _) fun _ => stays_bind (hsetex _ _) fun _ => stays_pure

theorem stays_readBack : (Signing.readBack record).Stays saveless () := by
  refine stays_bind (stays_perform (fun record => by rintro ⟨⟩) fun _ => rfl) ?_
  rintro (_ | created)
  · exact stays_throw
  · exact stays_pure

theorem stays_afterSave : (Signing.afterSave env record).Stays saveless () := by
  refine stays_bind stays_readBack fun user => ?_
  refine stays_bind (stays_bind (stays_storeSession _) fun sid => ?_) fun _ => stays_pure
  exact stays_perform (fun record => by rintro ⟨⟩) fun _ => rfl

/-- The user is found under its id. -/
def Stores.Has (s : Stores) (record : User) : Prop :=
  s.users.find? (fun u => u.userId = record.userId) = some record

theorem Stores.Stored.has (h : s.Stored record t) : t.Has record :=
  UsersService.find?_of_insert? (w := ⟨s.users, fun _ => none⟩) h.users

/-- A read that is answered. -/
theorem runs_findOne {p : User → Bool} {found : Option User}
    (h : (perform (SignupCommand.findOne p) : Signing _).Runs (Signs T b F) s (.ok found) t) :
    found = s.users.find? p ∧ s.Waits t := by
  have h := runs_perform.mp h
  refine ⟨?_, waits_of_signs (by trivial) h⟩
  obtain ⟨d, hexecute⟩ | ⟨-, ⟨e, he⟩, -⟩ := signs_cases h
  · exact (Except.ok.inj (congrArg Prod.fst hexecute)).symm
  · cases he

theorem runs_readBack (hrecord : s.Has record)
    (h : (Signing.readBack record).Runs (Signs T b F) s (.ok user) t) :
    user = record ∧ s.Waits t := by
  obtain ⟨found, s', hfind, h⟩ := runs_bind_ok.mp h
  obtain ⟨hfound, hwaits⟩ := runs_findOne hfind
  rw [hfound, hrecord] at h
  obtain ⟨huser, rfl⟩ := runs_pure.mp h
  exact ⟨Except.ok.inj huser, hwaits⟩

theorem fails_readBack (hrecord : s.Has record) :
    (Signing.readBack record).Fails (Signs T b F) s ↔
      F.Hits (.findOne fun u => u.userId = record.userId) := by
  rw [Signing.readBack, fails_bind signs_total (p := False), or_false]
  · exact fails_of_reads trivial
  · intro found s' hfind
    rw [(runs_findOne hfind).1, hrecord]
    exact iff_false_intro not_fails_pure

/-- What a session that begins leaves in Redis. -/
structure Stores.Opens (T : ℕ) (env : Env) (dto : CreateSessionDto) (s t : Stores) : Prop where
  timeout : 0 < T
  now : s.redis.now ≤ t.redis.now
  store : ∃ n n', s.redis.now ≤ n ∧
    t.redis.store = (s.redis.store.setex n (sessionKey env.sessionId)
      (.data (Signing.sessionData env dto)) (1000 * T)).setex n'
        (trackingKey dto.userId env.sessionId) .tracked (1000 * T)

theorem runs_setex {key : String} {value : Record}
    (h : (Signing.setex key value).Runs (Signs T b F) s (.ok ()) t) :
    0 < T ∧ s.redis.now ≤ t.redis.now ∧
      t.redis.store = s.redis.store.setex t.redis.now key value (1000 * T) := by
  obtain ⟨⟨-, hnow⟩, ⟨-, hT, hstore⟩ | ⟨⟨e, he⟩, -⟩⟩ := setex_cases (runs_perform.mp h)
  · exact ⟨hT, hnow, hstore⟩
  · cases he

theorem runs_storeSession {dto : CreateSessionDto} {sid : String}
    (h : (Signing.storeSession env dto).Runs (Signs T b F) s (.ok sid) t) :
    sid = env.sessionId ∧ s.Opens T env dto t := by
  obtain ⟨_, ⟨⟩, h⟩ | ⟨e, s', -, h⟩ := runs_tryCatch.mp h
  · obtain ⟨_, s₁, hsession, h⟩ := runs_bind_ok.mp h
    obtain ⟨_, s₂, htracking, h⟩ := runs_bind_ok.mp h
    obtain ⟨hsid, rfl⟩ := runs_pure.mp h
    obtain ⟨hT, hnow₁, hstore₁⟩ := runs_setex hsession
    obtain ⟨-, hnow₂, hstore₂⟩ := runs_setex htracking
    refine ⟨Except.ok.inj hsid, hT, hnow₁.trans hnow₂, s₁.redis.now, t.redis.now, hnow₁, ?_⟩
    rw [hstore₂, hstore₁]
  · cases (runs_throw.mp h).1

theorem runs_createSession (h : (Signing.createSession env user).Runs (Signs T b F) s (.ok ()) t) :
    s.Opens T env (Signing.sessionDto env user) t := by
  obtain ⟨sid, s', hstore, h⟩ := runs_bind_ok.mp h
  obtain ⟨rfl, hT, hnow, n, n', hn, hstore⟩ := runs_storeSession hstore
  have hwaits : s'.Waits t := waits_of_signs (by trivial) (runs_perform.mp h)
  exact ⟨hT, hnow.trans hwaits.now, n, n', hn, hwaits.store.trans hstore⟩

theorem runs_afterSave (hrecord : s.Has record)
    (h : (Signing.afterSave env record).Runs (Signs T b F) s (.ok user) t) :
    user = record ∧ s.Opens T env (Signing.sessionDto env record) t := by
  rw [Signing.afterSave, runs_bind_ok] at h
  obtain ⟨created, s', hread, h⟩ := h
  obtain ⟨rfl, hwaits⟩ := runs_readBack hrecord hread
  obtain ⟨_, s'', hsession, h⟩ := runs_bind_ok.mp h
  obtain ⟨huser, rfl⟩ := runs_pure.mp h
  obtain ⟨hT, hnow, n, n', hn, hstore⟩ := runs_createSession hsession
  refine ⟨Except.ok.inj huser, hT, hwaits.now.trans hnow, n, n', hwaits.now.trans hn, ?_⟩
  rw [hstore, hwaits.store]

theorem fails_createSession :
    (Signing.createSession env user).Fails (Signs T b F) s ↔
      (T = 0 ∨ F.Hits (.setex (sessionKey env.sessionId)
          (.data (Signing.sessionData env (Signing.sessionDto env user)))) ∨
        F.Hits (.setex (trackingKey user.userId env.sessionId) .tracked)) ∨
        F.Hits (.setCookie env.sessionId) := by
  rw [Signing.createSession, fails_bind signs_total (p := F.Hits (.setCookie env.sessionId)),
    fails_storeSession]
  · rfl
  · intro sid s' hstore
    rw [(runs_storeSession hstore).1]
    exact fails_of_reads trivial

/-- The rest of a signup fails if anything goes wrong in it. -/
theorem fails_afterSave (hrecord : s.Has record) :
    (Signing.afterSave env record).Fails (Signs T b F) s ↔
      T = 0 ∨ ∃ c ∈ laterCommands env record, F.Hits c := by
  have hsession : ∀ created s', (Signing.readBack record).Runs (Signs T b F) s (.ok created) s' →
      ((Signing.createSession env created >>= fun _ => pure created).Fails (Signs T b F) s' ↔
        (T = 0 ∨ F.Hits (.setex (sessionKey env.sessionId)
            (.data (Signing.sessionData env (Signing.sessionDto env record)))) ∨
          F.Hits (.setex (trackingKey record.userId env.sessionId) .tracked)) ∨
          F.Hits (.setCookie env.sessionId)) := by
    intro created s' hread
    obtain ⟨rfl, -⟩ := runs_readBack hrecord hread
    exact fails_bind_pure.trans fails_createSession
  rw [Signing.afterSave, fails_bind signs_total hsession, fails_readBack hrecord]
  simp only [laterCommands, List.mem_cons, List.not_mem_nil, or_false, exists_eq_or_imp,
    exists_eq_left]
  tauto

end Parts

/-! ### The whole signup -/

section Signup

open AuthService (signupRecord)

variable {T : ℕ} {b : Bcrypt} {F : Faults} {env : Env} {s s' t : Stores} {dto : SignupDto}
  {record user : User} {a : Except Exception User}

/-- A signup throws and writes nothing, or it stores its user and goes on, unless the reply to the
save is lost. -/
theorem runs_signup (h : (Signing.signup env dto).Runs (Signs T b F) s a t) :
    (s.Waits t ∧ ∃ e, a = .error e) ∨
      s.Admits b env dto ∧ ∃ s', s.Stored (signupRecord b env dto) s' ∧
        (((∃ e, a = .error e) ∧ F.loses (.save (signupRecord b env dto))) ∨
          (Signing.afterSave env (signupRecord b env dto)).Runs (Signs T b F) s' a t) := by
  rw [Signing.signup_eq, runs_bind] at h
  obtain ⟨record, s₁, hbefore, h⟩ | ⟨e, rfl, hbefore⟩ := h
  · have hwaits := waits_of_stays stays_beforeSave hbefore
    obtain ⟨rfl, hcomplete⟩ := runs_beforeSave hbefore
    have hadmits : ∀ {s₂ : Stores}, s₁.Stored (signupRecord b env dto) s₂ →
        s.Admits b env dto := by
      intro s₂ hstored
      refine ⟨hcomplete.1, hcomplete.2.1, hcomplete.2.2.1, hcomplete.2.2.2, ?_⟩
      show (s.users.insert? (signupRecord b env dto)).isSome
      rw [(hwaits.stored hstored).users]
      rfl
    -- the save is the only command that writes users: it decides on which side the run is
    obtain ⟨_, s₂, hsave, h⟩ | ⟨e, rfl, hsave⟩ := runs_bind.mp h
    · obtain ⟨-, e, he⟩ | ⟨hstored, -⟩ := save_cases (runs_perform.mp hsave)
      · cases he
      · exact .inr ⟨hadmits hstored, s₂, hwaits.stored hstored, .inr h⟩
    · obtain ⟨hwaits', -⟩ | ⟨hstored, hok | ⟨hF, -⟩⟩ := save_cases (runs_perform.mp hsave)
      · exact .inl ⟨hwaits.trans hwaits', e, rfl⟩
      · cases hok
      · exact .inr ⟨hadmits hstored, t, hwaits.stored hstored, .inl ⟨⟨e, rfl⟩, hF⟩⟩
  · exact .inl ⟨waits_of_stays stays_beforeSave hbefore, e, rfl⟩

/-- A signup that is admitted gets to its save, and goes on from there. -/
theorem runs_signup_of_admits (h : s.Admits b env dto) :
    ∃ s', s.Stored (signupRecord b env dto) s' ∧
      (F.loses (.save (signupRecord b env dto)) →
        ∃ e, (Signing.signup env dto).Runs (Signs T b F) s (.error e) s') ∧
      ∀ a t, (Signing.afterSave env (signupRecord b env dto)).Runs (Signs T b F) s' a t →
        (Signing.signup env dto).Runs (Signs T b F) s a t := by
  have hbefore := runs_beforeSave_of_admits (T := T) (F := F) h
  obtain ⟨users, hinsert⟩ := Option.isSome_iff_exists.mp h.2.2.2.2
  have hexecute : s.execute T b (.save (signupRecord b env dto)) =
      (.ok (), { s with users := users }) := execute_save_of_insert? hinsert
  refine ⟨{ s with users := users }, ⟨hinsert, rfl, le_rfl⟩, fun hF => ⟨duplicateKey, ?_⟩,
    fun a t hafter => ?_⟩
  · have hlost : Signs T b F s (.save (signupRecord b env dto)) (.error duplicateKey)
        (s.execute T b (.save (signupRecord b env dto))).2 := .lost 0 duplicateKey hF
    rw [hexecute] at hlost
    rw [Signing.signup_eq, runs_bind]
    exact .inl ⟨_, s, hbefore, runs_bind.mpr (.inr ⟨_, rfl, runs_perform.mpr hlost⟩)⟩
  · have hsaved : Signs T b F s (.save (signupRecord b env dto))
        (s.execute T b (.save (signupRecord b env dto))).1
        (s.execute T b (.save (signupRecord b env dto))).2 := .executed 0 _
    rw [hexecute] at hsaved
    rw [Signing.signup_eq, runs_bind]
    exact .inl ⟨_, s, hbefore, runs_bind.mpr (.inl ⟨(), _, runs_perform.mpr hsaved, hafter⟩)⟩

/-- Without faults a signup succeeds if it is admitted and sessions live at all. -/
theorem canSignUp_iff : CanSignUp T b env s dto ↔ s.Admits b env dto ∧ 0 < T := by
  constructor
  · rintro ⟨user, t, h⟩
    obtain ⟨-, e, he⟩ | ⟨hadmits, s', hstored, ⟨⟨e, he⟩, -⟩ | hafter⟩ := runs_signup h
    · cases he
    · cases he
    · exact ⟨hadmits, (runs_afterSave hstored.has hafter).2.timeout⟩
  · rintro ⟨hadmits, hT⟩
    obtain ⟨s', hstored, -, hgo⟩ := runs_signup_of_admits (T := T) (F := .none) hadmits
    have hok : ¬ (Signing.afterSave env (signupRecord b env dto)).Fails (Signs T b .none) s' := by
      rw [fails_afterSave hstored.has]
      rintro (hzero | ⟨c, -, hF | hF⟩)
      · omega
      · exact hF
      · exact hF
    obtain ⟨user, t, hafter⟩ := exists_ok_of_not_fails signs_total hok
    exact ⟨user, t, hgo _ _ hafter⟩

/-- While the user of a signup is stored, nobody can sign up with its email. -/
theorem not_canSignUp_of_stored (h : s.Stored (signupRecord b env dto) s') (env' : Env) :
    ¬ CanSignUp T b env' s' dto := by
  rw [canSignUp_iff]
  rintro ⟨hadmits, -⟩
  obtain ⟨users, hinsert⟩ := Option.isSome_iff_exists.mp hadmits.2.2.2.2
  have hmem : signupRecord b env dto ∈ s'.users.rows :=
    (Collection.mem_insert? h.users).mpr (.inr rfl)
  exact Collection.key_ne_of_insert? User.email hinsert (by simp) hmem rfl

/-- A signup that has thrown without storing its user can be repeated. -/
theorem undone_of_waits (h : s.Waits t) : Undone T b dto s t where
  users := h.users
  sessions := h.store
  repeatable env := by
    rw [canSignUp_iff, canSignUp_iff, Stores.Admits, Stores.Admits, h.users]
    exact id

theorem not_undone_of_stored (h : s.Stored record s') (hkept : t.users = s'.users) :
    ¬ Undone T b dto s t := by
  intro hundone
  have hmem : record ∈ s'.users.rows := (Collection.mem_insert? h.users).mpr (.inr rfl)
  rw [← hkept, hundone.users] at hmem
  exact Collection.key_ne_of_insert? User.userId h.users (by simp) hmem rfl

/-- The session that has been opened for a user without sessions is the user's only one. -/
theorem existsUnique_session {dto : CreateSessionDto} (h : s.Opens T env dto t)
    (hnew : ∀ sid d, s.redis.getSession sid = some d → d.userId ≠ dto.userId)
    (hlive : t.redis.now < s.redis.now + 1000 * T) :
    ∃! sid, ∃ d, t.redis.getSession sid = some d ∧ d.userId = dto.userId := by
  obtain ⟨n, n', hn, hstore⟩ := h.store
  refine ⟨env.sessionId, ⟨Signing.sessionData env dto, ?_, rfl⟩, ?_⟩
  · have hentry : t.redis.store (sessionKey env.sessionId) =
        some ⟨.data (Signing.sessionData env dto), n + 1000 * T⟩ := by
      rw [hstore]
      simp [Store.setex, Session.sessionKey_ne_trackingKey]
    have hget : t.redis.store.get t.redis.now (sessionKey env.sessionId) =
        some (.data (Signing.sessionData env dto)) :=
      Store.get_eq_some.mpr ⟨_, hentry, show t.redis.now < n + 1000 * T by omega, rfl⟩
    rw [Redis.getSession, Redis.sessionAt, hget]
  · rintro sid ⟨d, hd, hid⟩
    by_contra hne
    -- another session of the user has been there before
    have hkept : t.redis.store (sessionKey sid) = s.redis.store (sessionKey sid) := by
      rw [hstore]
      simp [Store.setex, Session.sessionKey_ne_trackingKey, hne]
    exact hnew sid d (Redis.getSession_of_later hkept h.now hd) hid

theorem signedUp_of_runs (hnew : ∀ sid d, s.redis.getSession sid = some d → d.userId ≠ env.userId)
    (h : (Signing.signup env dto).Runs (Signs T b F) s (.ok user) t) :
    SignedUp T dto s t user := by
  obtain ⟨-, e, he⟩ | ⟨hadmits, s', hstored, ⟨⟨e, he⟩, -⟩ | hafter⟩ := runs_signup h
  · cases he
  · cases he
  · obtain ⟨rfl, hopens⟩ := runs_afterSave hstored.has hafter
    have husers : t.users = s'.users := users_of_stays stays_afterSave hafter
    refine ⟨?_, rfl, rfl, fun hlive => existsUnique_session hopens ?_ ?_⟩
    · rw [husers]
      exact Collection.rows_of_ofRows? hstored.users
    · intro sid d hd
      exact hnew sid d (Redis.getSession_of_later (congrFun hstored.store _) hstored.now hd)
    · have := hstored.now
      omega

/-- A signup does all or nothing if and only if nothing can go wrong from the storing of its user
on. The ids that are drawn for new users are not those of sessions. -/
theorem atomic_iff (hnew : ∀ sid d, s.redis.getSession sid = some d → d.userId ≠ env.userId) :
    Atomic T b F env s dto ↔
      (s.Admits b env dto → F.SparesStored T env (signupRecord b env dto)) := by
  constructor
  -- a fault behind the save ends a run in which the user stays
  · intro h hadmits
    obtain ⟨s', hstored, hlost, hgo⟩ := runs_signup_of_admits (T := T) (F := F) hadmits
    have hok : ¬ (Signing.afterSave env (signupRecord b env dto)).Fails (Signs T b F) s' := by
      rintro ⟨e, t, hafter⟩
      exact not_undone_of_stored hstored (users_of_stays stays_afterSave hafter)
        (h.thrown e t (hgo _ _ hafter))
    rw [fails_afterSave hstored.has, not_or] at hok
    refine ⟨Nat.pos_of_ne_zero hok.1, fun hF => ?_, fun c hc hF => hok.2 ⟨c, hc, hF⟩⟩
    obtain ⟨e, hrun⟩ := hlost hF
    exact not_undone_of_stored hstored rfl (h.thrown e s' hrun)
  · intro h
    refine ⟨fun e t hrun => ?_, fun user t hrun => signedUp_of_runs hnew hrun⟩
    obtain ⟨hwaits, -⟩ | ⟨hadmits, s', hstored, ⟨-, hF⟩ | hafter⟩ := runs_signup hrun
    · exact undone_of_waits hwaits
    -- an error behind the save needs a fault that there is not
    · exact absurd hF (h hadmits).save
    · have hfails : (Signing.afterSave env (signupRecord b env dto)).Fails (Signs T b F) s' :=
        ⟨e, t, hafter⟩
      rw [fails_afterSave hstored.has] at hfails
      rcases hfails with hzero | ⟨c, hc, hF⟩
      · exact absurd (h hadmits).timeout (by omega)
      · exact absurd hF ((h hadmits).later c hc)

/-- Before anybody has signed up. -/
def Stores.initial : Stores := ⟨Collection.empty, ⟨Store.empty, 0⟩⟩

theorem initial_admits :
    Stores.initial.Admits markedText visit ⟨"ann", "ann@home.org", "correct horse"⟩ :=
  ⟨by decide, by decide, by decide, by decide,
    Collection.insert?_isSome fun _ _ _ hx => absurd hx (by simp [Stores.initial, Collection.empty])⟩

theorem atomic_iff_first :
    Atomic 3600 markedText .none visit .initial ⟨"ann", "ann@home.org", "correct horse"⟩ :=
  (atomic_iff fun _ _ h => by cases h).mpr fun _ =>
    ⟨by decide, id, fun _ _ hF => hF.elim id id⟩

/-- If the cookie cannot be set, the user and the session have been stored all the same. -/
theorem not_atomic_of_cookie :
    ¬ Atomic 3600 markedText ⟨(· = .setCookie "s"), fun _ => False⟩ visit .initial
      ⟨"ann", "ann@home.org", "correct horse"⟩ := by
  intro h
  let F : Faults := ⟨(· = .setCookie "s"), fun _ => False⟩
  obtain ⟨s', hstored, -, hgo⟩ := runs_signup_of_admits (T := 3600) (F := F) initial_admits
  have hcookie : SignupCommand.setCookie "s" ∈ laterCommands visit
      (signupRecord markedText visit ⟨"ann", "ann@home.org", "correct horse"⟩) := by
    simp [laterCommands, visit]
  have hF : F.Hits (.setCookie "s") := .inl rfl
  obtain ⟨e, t, hafter⟩ := (fails_afterSave hstored.has).mpr (.inr ⟨_, hcookie, hF⟩)
  exact not_undone_of_stored hstored (users_of_stays stays_afterSave hafter)
    (h.thrown e t (hgo _ _ hafter))

end Signup

end IotPanel.Users
