import IotPanel.Users.Grants
import IotPanel.Users.RoleUpdates

/-!
# Who changes the stored users

The users' requests run side by side on a database that may fail. A column of a stored user is only
changed by a request that may change it; and a user that has been deleted is out of the reach of
every request that has not found the user before.
-/

namespace IotPanel.Users

open Session (SessionData)

variable {fmt : Formats} {b : Bcrypt}

abbrev RequestPool (fmt : Formats) (b : Bcrypt) := Pool UserTable (Process (requests fmt b))

abbrev RequestEvent := CallEvent Request Grant Empty Command Command.Reply Exception

/-- A step of one of the requests. -/
abbrev Serving (fmt : Formats) (b : Bcrypt) :=
  (requests fmt b).Step fun _ _ => True

/-- The session that the request goes by is one that the session service has answered with for its
cookie. -/
def Answered (tr : List RequestEvent) (req : Request) (g : Grant) : Prop :=
  ∀ d, g.session = some d → ∃ g' sid i, req.sessionId = some sid ∧
    .did req g' (.result (.canActivate sid) i) (.ok d) ∈ tr

/-- The request has rewritten the row of the user with `f`. -/
structure Rewrote (b : Bcrypt) (tr : List RequestEvent) (req : Request) (g : Grant) (userId : String)
    (f : User → User) : Prop where
  written : .did req g (.update userId f) (.ok ()) ∈ tr
  permitted : req.Permits b g userId f
  answered : Answered tr req g

/-- The user, or an administrator. -/
def Grant.IsOfOrAdmin (g : Grant) (req : Request) (userId : String) : Prop :=
  req.route = .updateProfile ∧ g.IsOf userId ∨
    req.route = .update userId ∧ g.HasRole [.admin, .superAdmin]

abbrev ProfileColumns := String × String × Option String × Option String × Option String

/-- The columns that only an update of the user writes. -/
def User.profile (u : User) : ProfileColumns :=
  (u.email, u.username, u.firstName, u.lastName, u.photoUrl)

/-- A request with `P` has rewritten the row of the user, and has given the column this value, which
it had not before. -/
def SetBy (b : Bcrypt) (tr : List RequestEvent) (userId : String) {α : Type} (column : User → α)
    (value : α) (P : Request → Grant → Prop) : Prop :=
  ∃ req g f v, Rewrote b tr req g userId f ∧ column (f v) = value ∧ column v ≠ value ∧ P req g

/-- Which requests have made the row `u'` of the row `u`, column by column; a `column` is read off
the profile. -/
structure Authorised (b : Bcrypt) (tr : List RequestEvent) (u u' : User) : Prop where
  userId : u'.userId = u.userId
  profile : ∀ (α : Type) (column : ProfileColumns → α), column u'.profile ≠ column u.profile →
    SetBy b tr u.userId (fun v => column v.profile) (column u'.profile)
      fun req g => g.IsOfOrAdmin req u.userId
  password : u'.password ≠ u.password → SetBy b tr u.userId User.password u'.password
    fun req g => req.route = .changePassword ∧ g.IsOf u.userId ∨ g.IsOfOrAdmin req u.userId
  roles : u'.roles ≠ u.roles → SetBy b tr u.userId User.roles u'.roles
    fun req g => g.HasRole [.superAdmin] ∨ g.IsOfOrAdmin req u.userId
  isActive : u'.isActive ≠ u.isActive → u.isActive = true ∧
    SetBy b tr u.userId User.isActive u'.isActive
      fun req g => req.route = .delete u.userId ∧ g.HasRole [.superAdmin]

/-! ### One step -/

section Step

variable {p q : RequestPool fmt b} {e : RequestEvent} {u : User}

/-- What a command makes of a row. -/
inductive Makes (u : User) : (c : Command) → Except Exception c.Reply → User → Prop
  | kept {c : Command} {r : Except Exception c.Reply} : Makes u c r u
  | rewritten (f : User → User) : Makes u (.update u.userId f) (.ok ()) (f u)

theorem makes_of_serves {s s' : UserTable} {c : Command} {r : Except Exception c.Reply}
    (h : Serves s c r s') (hu : u ∈ s.rows) : ∃ u' ∈ s'.rows, Makes u c r u' := by
  cases h with
  | session => exact ⟨u, hu, .kept⟩
  | statement hc h =>
    cases h with
    | find | refuseSave | refuseUpdate | fail => exact ⟨u, hu, .kept⟩
    | save h => exact ⟨u, (Collection.mem_insert? h).mpr (.inl hu), .kept⟩
    | @update userId f _ h =>
      have hmem := (Collection.mem_update? h).mpr ⟨u, hu, rfl⟩
      by_cases hid : u.userId = userId
      · subst hid
        rw [if_pos (by simp)] at hmem
        exact ⟨f u, hmem, .rewritten f⟩
      · rw [if_neg (by simpa using hid)] at hmem
        exact ⟨u, hmem, .kept⟩

/-- A database gives no impossible replies. -/
theorem possible_of_serves {s s' : UserTable} {c : Command} {r : Except Exception c.Reply}
    {g : Grant} (hg : g.possible = true) (h : Serves s c r s') : (g.next c r).possible = true := by
  have hfind : ∀ user, (g.find user).possible = true := by
    intro user
    unfold Grant.find
    split
    · exact hg
    · exact hg
  unfold Grant.next
  split
  · rename_i p user
    cases h with
    | session hc => cases hc
    | statement hc h =>
      obtain ⟨-, hr | ⟨e, ⟨⟩⟩⟩ := Database.findOne_cases h
      rw [if_pos (Collection.mem_of_find? (Except.ok.inj hr).symm).2]
      exact hfind user
  · exact hg
  · exact hg
  · exact hg

theorem possibleOutline : System.Outline (requests fmt b) (fun _ _ => True) (fun _ => True)
    (fun _ t => t.phase.possible = true) where
  env {_ x} _ _ _ := x.elim
  start _ _ := rfl
  did _ _ hcall _ _ hexec := ⟨trivial, possible_of_serves hcall hexec, fun _ _ _ _ h => h⟩

/-- The replies have been possible, and the guard has answered with the sessions that the requests
go by. -/
structure Sane (tr : List RequestEvent) (p : RequestPool fmt b) : Prop where
  possible : System.Holds (fun _ => True) (fun _ t => t.phase.possible = true) p
  answered : ∀ i t, p.threads i = some t → Answered tr t.call t.phase

theorem sane_start (users : UserTable) : Sane [] (Pool.start users : RequestPool fmt b) :=
  ⟨System.holds_start trivial, fun _ _ h => by cases h⟩

theorem Answered.mono {tr : List RequestEvent} {req : Request} {g : Grant}
    (h : Answered tr req g) (e : RequestEvent) : Answered (e :: tr) req g := by
  intro d hd
  obtain ⟨g', sid, i, hsid, hmem⟩ := h d hd
  exact ⟨g', sid, i, hsid, List.mem_cons_of_mem _ hmem⟩

/-- A command that is answered leaves the session of a request as it is, or answers with it. -/
theorem Answered.next {tr : List RequestEvent} {req : Request} {g : Grant} {c : Command}
    {r : Except Exception c.Reply} (h : Answered tr req g) (hgranted : req.grants b g c) :
    Answered (.did req g c r :: tr) req (g.next c r) := by
  intro d hd
  unfold Grant.next at hd
  split at hd
  · split at hd
    · rw [Grant.find_session] at hd
      exact h.mono _ d hd
    · exact h.mono _ d hd
  · exact h.mono _ d hd
  · rename_i sid i d'
    obtain rfl : d' = d := Option.some.inj hd
    exact ⟨g, sid, i, hgranted, List.mem_cons_self⟩
  · exact h.mono _ d hd

theorem Sane.step {tr : List RequestEvent} (h : Sane tr p) (hs : Serving fmt b p e q) :
    Sane (e :: tr) q := by
  refine ⟨h.possible.step possibleOutline hs, fun i t ht => ?_⟩
  obtain ⟨x, -⟩ | ⟨j, req, rfl, -, -, hthreads⟩ | ⟨j, v, c, k, r, hprog, hv, rfl, -, hthreads⟩ :=
    System.step_cases hs
  · exact x.elim
  · rw [hthreads] at ht
    by_cases hi : i = j
    · subst hi
      rw [Function.update_self] at ht
      cases ht
      rintro d ⟨⟩
    · rw [Function.update_of_ne hi] at ht
      exact (h.answered i t ht).mono _
  · rw [hthreads] at ht
    by_cases hi : i = j
    · subst hi
      rw [Function.update_self] at ht
      cases ht
      exact (h.answered i v hv).next (v.allowed_of_await hprog (h.possible.call hv))
    · rw [Function.update_of_ne hi] at ht
      exact (h.answered i t ht).mono _

/-- The step lemma: a row is kept, or rewritten by a request that may do so. -/
theorem Sane.row {tr : List RequestEvent} (h : Sane tr p) (hs : Serving fmt b p e q)
    (hu : u ∈ p.shared.rows) : ∃ u' ∈ q.shared.rows, u' = u ∨
      ∃ req g f, u' = f u ∧ u.userId ∈ g.known ∧ Rewrote b (e :: tr) req g u.userId f := by
  obtain ⟨x, -⟩ | ⟨j, req, rfl, -, hshared, -⟩ | ⟨j, v, c, k, r, hprog, hv, rfl, hexec, -⟩ :=
    System.step_cases hs
  · exact x.elim
  · exact ⟨u, hshared ▸ hu, .inl rfl⟩
  · obtain ⟨u', hu', hmakes⟩ := makes_of_serves hexec hu
    refine ⟨u', hu', ?_⟩
    cases hmakes with
    | kept => exact .inl rfl
    | rewritten f =>
      obtain ⟨hknown, hpermits⟩ := v.allowed_of_await hprog (h.possible.call hv)
      exact .inr ⟨v.call, v.phase, f, rfl, hknown, List.mem_cons_self, hpermits,
        (h.answered j v hv).mono _⟩

end Step

/-! ### What a run makes of a row -/

section Rows

variable {tr : List RequestEvent} {req : Request} {g : Grant} {userId : String} {f : User → User}
  {u u' u'' : User} {e : RequestEvent}

theorem Rewrote.mono (h : Rewrote b tr req g userId f) (e : RequestEvent) :
    Rewrote b (e :: tr) req g userId f :=
  ⟨List.mem_cons_of_mem _ h.written, h.permitted, h.answered.mono e⟩

section Columns

variable {α : Type} (column : User → α) {value : α} {P : Request → Grant → Prop}

theorem SetBy.mono {column : User → α} (h : SetBy b tr userId column value P) (e : RequestEvent) :
    SetBy b (e :: tr) userId column value P := by
  obtain ⟨req, g, f, v, hw, hset⟩ := h
  exact ⟨req, g, f, v, hw.mono e, hset⟩

/-- What is different in the end has got its value in the later part, unless it had it before. -/
theorem setBy_trans (h : column u' ≠ column u → SetBy b tr userId column (column u') P)
    (h' : column u'' ≠ column u' → SetBy b tr userId column (column u'') P)
    (hne : column u'' ≠ column u) : SetBy b tr userId column (column u'') P := by
  by_cases heq : column u'' = column u'
  · rw [heq] at hne ⊢
    exact h hne
  · exact h' heq

theorem Rewrote.setBy (h : Rewrote b tr req g userId f) (hP : P req g)
    (hne : column (f u) ≠ column u) : SetBy b tr userId column (column (f u)) P :=
  ⟨req, g, f, u, h, rfl, hne.symm, hP⟩

end Columns

namespace Authorised

theorem refl (tr : List RequestEvent) (u : User) : Authorised b tr u u :=
  ⟨rfl, fun _ _ h => absurd rfl h, fun h => absurd rfl h, fun h => absurd rfl h,
    fun h => absurd rfl h⟩

theorem mono (h : Authorised b tr u u') (e : RequestEvent) : Authorised b (e :: tr) u u' where
  userId := h.userId
  profile α column hne := (h.profile α column hne).mono e
  password hne := (h.password hne).mono e
  roles hne := (h.roles hne).mono e
  isActive hne := ⟨(h.isActive hne).1, (h.isActive hne).2.mono e⟩

theorem trans (h : Authorised b tr u u') (h' : Authorised b tr u' u'') :
    Authorised b tr u u'' := by
  obtain ⟨hid, hprofile, hpassword, hroles, hactive⟩ := h'
  rw [h.userId] at hid hprofile hpassword hroles hactive
  refine ⟨hid, fun α column => setBy_trans (fun v => column v.profile) (h.profile α column)
    (hprofile α column), setBy_trans User.password h.password hpassword,
    setBy_trans User.roles h.roles hroles, fun hne => ⟨?_, ?_⟩⟩
  · by_cases heq : u'.isActive = u.isActive
    · rw [← heq]
      exact (hactive (heq ▸ hne)).1
    · exact (h.isActive heq).1
  · exact setBy_trans User.isActive (fun hne => (h.isActive hne).2) (fun hne => (hactive hne).2) hne

end Authorised

/-- What one request may change of the row. -/
theorem authorised_of_rewrote (h : Rewrote b tr req g u.userId f) :
    Authorised b tr u (f u) := by
  have hpermits := h.permitted
  unfold Request.Permits at hpermits
  cases hroute : req.route with
  | signup | login | logout | resetPassword | create =>
    rw [hroute] at hpermits
    exact hpermits.elim
  | changePassword =>
    rw [hroute] at hpermits
    obtain ⟨hof, password, rfl⟩ := hpermits
    exact ⟨rfl, fun _ _ hne => absurd rfl hne, h.setBy User.password (.inl ⟨hroute, hof⟩),
      fun hne => absurd rfl hne, fun hne => absurd rfl hne⟩
  | updateProfile =>
    rw [hroute] at hpermits
    obtain ⟨hof, rfl⟩ := hpermits
    have hauth : g.IsOfOrAdmin req u.userId := .inl ⟨hroute, hof⟩
    exact ⟨rfl, fun α column => h.setBy (fun v => column v.profile) hauth,
      h.setBy User.password (.inr hauth), h.setBy User.roles (.inr hauth),
      fun hne => absurd rfl hne⟩
  | update id =>
    rw [hroute] at hpermits
    obtain ⟨hid, hrole, rfl⟩ := hpermits
    have hauth : g.IsOfOrAdmin req u.userId := .inr ⟨hid ▸ hroute, hrole⟩
    exact ⟨rfl, fun α column => h.setBy (fun v => column v.profile) hauth,
      h.setBy User.password (.inr hauth), h.setBy User.roles (.inr hauth),
      fun hne => absurd rfl hne⟩
  | delete id =>
    rw [hroute] at hpermits
    obtain ⟨hid, hrole, rfl⟩ := hpermits
    refine ⟨rfl, fun _ _ hne => absurd rfl hne, fun hne => absurd rfl hne,
      fun hne => absurd rfl hne, fun hne => ⟨?_, h.setBy User.isActive ⟨hid ▸ hroute, hrole⟩ hne⟩⟩
    exact Bool.eq_true_of_not_eq_false (Ne.symm hne)
  | assignRoles id | addRoles id | removeRoles id =>
    rw [hroute] at hpermits
    obtain ⟨-, hrole, roles, rfl⟩ := hpermits
    exact ⟨rfl, fun _ _ hne => absurd rfl hne, fun hne => absurd rfl hne,
      h.setBy User.roles (.inl hrole), fun hne => absurd rfl hne⟩

/-- The run lemma. -/
theorem sane_of_run {users : UserTable} {q : RequestPool fmt b}
    (hrun : Run (Serving fmt b) (Pool.start users) tr q) : Sane tr q :=
  hrun.induct (I := Sane) (sane_start users) fun _ h hs => h.step hs

/-- Whatever the order in which the requests go on, every stored user is kept, and each column that
is different in the end has got its value from a request that may write it: one of the user, or one
of an administrator. -/
theorem authorised_of_run {users : UserTable} {q : RequestPool fmt b}
    (hrun : Run (Serving fmt b) (Pool.start users) tr q) (hu : u ∈ users.rows) :
    ∃ u' ∈ q.shared.rows, Authorised b tr u u' := by
  induction hrun with
  | refl => exact ⟨u, hu, .refl [] u⟩
  | snoc hrun hs ih =>
    obtain ⟨v, hv, hauth⟩ := ih
    obtain ⟨w, hw, rfl | ⟨req, g, f, rfl, -, hrewrote⟩⟩ := (sane_of_run hrun).row hs hv
    · exact ⟨w, hw, hauth.mono _⟩
    · exact ⟨f v, hw, (hauth.mono _).trans (authorised_of_rewrote hrewrote)⟩

end Rows

/-! ### Users that have been deleted -/

section Deleted

variable {p q : RequestPool fmt b} {tr tr' : List RequestEvent} {u : User} {e : RequestEvent}

/-- The deleted user is stored, and every request that has found it is over. -/
structure Deleted (u : User) (p : RequestPool fmt b) : Prop where
  stored : u ∈ p.shared.rows
  inactive : u.isActive = false
  unknown : ∀ i t, p.threads i = some t → t.Over ∨ u.userId ∉ t.phase.known

/-- The event is the beginning of a session of the user. -/
def OpensSession (userId : String) : RequestEvent → Prop
  | .did _ _ (.call (.createSession dto)) _ => dto.userId = userId
  | _ => False

/-- A request does not come to know a user that is inactive. -/
theorem unknown_next {s s' : UserTable} {c : Command} {r : Except Exception c.Reply} {g : Grant}
    (hu : u ∈ s.rows) (hinactive : u.isActive = false) (h : Serves s c r s')
    (hunknown : u.userId ∉ g.known) : u.userId ∉ (g.next c r).known := by
  unfold Grant.next
  split
  · rename_i p user
    cases h with
    | session hc => cases hc
    | statement hc h =>
      obtain ⟨-, hr | ⟨e, ⟨⟩⟩⟩ := Database.findOne_cases h
      obtain ⟨hmem, hp⟩ := Collection.mem_of_find? (Except.ok.inj hr).symm
      rw [if_pos hp]
      unfold Grant.find
      split
      · rename_i hactive
        intro hknown
        obtain hid | hknown := List.mem_cons.mp hknown
        · have hsame := Collection.eq_of_key User.userId List.mem_cons_self hu hmem hid
          rw [← hsame, hinactive] at hactive
          cases hactive
        · exact hunknown hknown
      · exact hunknown
  · rename_i record v
    cases h with
    | session hc => cases hc
    | statement hc h =>
      obtain ⟨-, hinsert⟩ | ⟨-, e, ⟨⟩⟩ := Database.save_cases h
      intro hknown
      obtain hid | hknown := List.mem_cons.mp hknown
      · exact Collection.key_ne_of_insert? User.userId hinsert List.mem_cons_self hu hid
      · exact hunknown hknown
  · exact hunknown
  · exact hunknown

/-- The step lemma. -/
theorem Deleted.step (h : Deleted u p) (hsane : Sane tr p) (hs : Serving fmt b p e q) :
    Deleted u q ∧ ¬ OpensSession u.userId e := by
  obtain ⟨x, -⟩ | ⟨j, req, rfl, -, hshared, hthreads⟩ |
    ⟨j, v, c, k, r, hprog, hv, rfl, hexec, hthreads⟩ := System.step_cases hs
  · exact x.elim
  · refine ⟨⟨hshared ▸ h.stored, h.inactive, fun i t ht => ?_⟩, id⟩
    rw [hthreads] at ht
    by_cases hi : i = j
    · subst hi
      rw [Function.update_self] at ht
      cases ht
      exact .inr List.not_mem_nil
    · rw [Function.update_of_ne hi] at ht
      exact h.unknown i t ht
  · -- the request that goes on is not over, so it does not know the user
    have hunknown : u.userId ∉ v.phase.known := by
      obtain ⟨a, ha⟩ | hunknown := h.unknown j v hv
      · rw [ha] at hprog
        cases hprog
      · exact hunknown
    have hgranted : v.call.grants b v.phase c :=
      v.allowed_of_await hprog (hsane.possible.call hv)
    refine ⟨⟨?_, h.inactive, fun i t ht => ?_⟩, ?_⟩
    · obtain ⟨u', hu', hmakes⟩ := makes_of_serves hexec h.stored
      cases hmakes with
      | kept => exact hu'
      | rewritten f => exact absurd hgranted.1 hunknown
    · rw [hthreads] at ht
      by_cases hi : i = j
      · subst hi
        rw [Function.update_self] at ht
        cases ht
        exact .inr (unknown_next h.stored h.inactive hexec hunknown)
      · rw [Function.update_of_ne hi] at ht
        exact h.unknown i t ht
    · intro hopens
      unfold OpensSession at hopens
      split at hopens
      · rename_i heq
        cases heq
        exact hunknown (hopens ▸ hgranted)
      · exact hopens

/-- A deletion is final: once the requests that had found the user are over, its row is never
written again, whatever the order in which requests go on, and no session of the user begins. -/
theorem final_of_deleted {users : UserTable}
    (hreached : Run (Serving fmt b) (Pool.start users) tr' p) (h : Deleted u p)
    (hrun : Run (Serving fmt b) p tr q) :
    u ∈ q.shared.rows ∧ ∀ e ∈ tr, ¬ OpensSession u.userId e := by
  have hdeleted : Deleted u q ∧ ∀ e ∈ tr, ¬ OpensSession u.userId e := by
    induction hrun with
    | refl => exact ⟨h, fun e he => absurd he List.not_mem_nil⟩
    | snoc hrun hs ih =>
      obtain ⟨hdeleted, hsilent⟩ := ih
      obtain ⟨hnext, hopens⟩ := hdeleted.step (sane_of_run (hreached.trans hrun)) hs
      refine ⟨hnext, fun e he => ?_⟩
      obtain rfl | he := List.mem_cons.mp he
      · exact hopens
      · exact hsilent e he
  exact ⟨hdeleted.1.stored, hdeleted.2⟩

end Deleted

/-! ### Scripts -/

/-- Nothing fails unless an index refuses it, and the guard answers with the session `d`. -/
def answering : System.Oracle (requests fmt b) SessionData where
  answer d s c :=
    match c with
    | .findOne p => some (.ok (s.find? p), s)
    | .save record => (s.insert? record).map fun users => (.ok (), users)
    | .update userId f =>
      (s.update? (fun u => u.userId = userId) f).map fun users => (.ok (), users)
    | .call _ => some (.ok (0 : ℕ), s)
    | .result (.canActivate _) _ => some (.ok d, s)
    | .result _ _ => none
  sound {d s c r s'} h := by
    cases c with
    | findOne p =>
      cases h
      exact .statement rfl (.find p)
    | save record =>
      obtain ⟨users, hinsert, heq⟩ := Option.map_eq_some_iff.mp h
      cases heq
      exact .statement rfl (.save hinsert)
    | update userId f =>
      obtain ⟨users, hupdate, heq⟩ := Option.map_eq_some_iff.mp h
      cases heq
      exact .statement rfl (.update hupdate)
    | call a =>
      cases h
      exact .session rfl _
    | result a i =>
      cases a with
      | canActivate sid =>
        cases h
        exact .session rfl _
      | createSession | destroySession | invalidateUserSessions => cases h

/-- The session of a super administrator. -/
def rootsSession : SessionData :=
  { userId := "root", username := "root", roles := [Role.superAdmin.json], loginTime := 0,
    lastActivity := 0, ipAddress := "10.0.0.7", userAgent := "curl" }

def rootDeletesAna : Request :=
  { route := .delete "ana", sessionId := some "s", body := .obj [], env := visit,
    guardFails := false }

def anyText : Formats := ⟨fun _ => true, fun _ => true⟩

def anaLogsIn : Request :=
  { route := .login, sessionId := none, env := visit, guardFails := false,
    body := .obj [("email", .str "ana@iot.org"), ("password", .str "12345678")] }

def deletion : List (System.Move Request Empty SessionData) :=
  .start 0 rootDeletesAna :: List.replicate 4 (.step 0 rootsSession)

/-- A test for a deleted user when all requests are over. -/
def gone (userId : String) (p : RequestPool fmt b) : Bool :=
  (p.shared.rows.any fun u => u.userId = userId && !u.isActive) &&
    (List.range 2).all fun i => (p.threads i).all System.isOver

theorem deleted_of_gone {userId : String} {p : RequestPool fmt b} (hbelow : System.Below 2 p)
    (h : gone userId p = true) : ∃ u, u.userId = userId ∧ Deleted u p := by
  obtain ⟨hrow, hover⟩ := Bool.and_eq_true_iff.mp h
  obtain ⟨u, hu, htest⟩ := List.any_eq_true.mp hrow
  obtain ⟨hid, hinactive⟩ := Bool.and_eq_true_iff.mp htest
  refine ⟨u, of_decide_eq_true hid, hu, by simpa using hinactive, fun i t ht => .inl ?_⟩
  exact System.over_of_below hbelow hover i t ht

/-- The script of the deletion, with a login of the deleted user after it. -/
theorem exists_deletion : ∃ tr p tr' q,
    Run (Serving anyText markedText) (Pool.start onlyAna) tr p ∧ System.Below 2 p ∧
      gone "ana" p = true ∧ Run (Serving anyText markedText) p tr' q ∧
      (q.threads 1).any System.isOver = true := by
  have hscript : (System.play answering 2 (fun _ _ => true) (Pool.start onlyAna) deletion).any
      (fun p : RequestPool anyText markedText => gone "ana" p &&
        (System.play answering 2 (fun _ _ => true) p
          [.start 1 anaLogsIn, .step 1 rootsSession]).any fun q =>
            (q.threads 1).any System.isOver) = true := by
    decide +kernel
  obtain ⟨p, hp, htest⟩ := (Option.any_eq_true _ _).mp hscript
  obtain ⟨hgone, hlogin⟩ := Bool.and_eq_true_iff.mp htest
  obtain ⟨q, hq, hover⟩ := (Option.any_eq_true _ _).mp hlogin
  obtain ⟨⟨tr, hrun⟩, hbelow⟩ := System.run_of_play (fun _ _ _ _ => trivial) (System.below_start _) hp
  obtain ⟨⟨tr', hrun'⟩, -⟩ := System.run_of_play (fun _ _ _ _ => trivial) hbelow hq
  exact ⟨tr, p, tr', q, hrun, hbelow, hgone, hrun', hover⟩

/-- Ana's row is kept when it is deleted. -/
theorem authorised_of_run_deletion :
    ∃ tr p, Run (Serving anyText markedText) (Pool.start onlyAna) tr p ∧ gone "ana" p = true ∧
      ∃ u' ∈ p.shared.rows, Authorised markedText tr ana u' := by
  obtain ⟨tr, p, -, -, hrun, -, hgone, -⟩ := exists_deletion
  exact ⟨tr, p, hrun, hgone, authorised_of_run hrun List.mem_cons_self⟩

/-- Ana tries to log in when the deletion is over. -/
theorem final_of_deleted_login :
    ∃ u p tr q, u.userId = "ana" ∧ Deleted u p ∧ Run (Serving anyText markedText) p tr q ∧
      (q.threads 1).any System.isOver = true ∧ u ∈ q.shared.rows ∧
      ∀ e ∈ tr, ¬ OpensSession u.userId e := by
  obtain ⟨tr, p, tr', q, hrun, hbelow, hgone, hrun', hover⟩ := exists_deletion
  obtain ⟨u, hid, hdeleted⟩ := deleted_of_gone hbelow hgone
  exact ⟨u, p, tr', q, hid, hdeleted, hrun', hover, final_of_deleted hrun hdeleted hrun'⟩

end IotPanel.Users
