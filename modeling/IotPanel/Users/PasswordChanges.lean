import IotPanel.Lib.Run
import IotPanel.Users.Panel
import IotPanel.Users.Roles

/-!
# Old sessions after a change of password

`changePassword` writes the password and then ends the user's sessions; an update of a profile
writes it, too, and leaves the sessions alone.
-/

namespace IotPanel.Users

open Session (IsUuid Sound)

/-- Time passes, or a request is served. -/
inductive Operation
  | tick (d : ℕ)
  | request (req : Request)

/-- An operation from its beginning to its end, in which the database and Redis fail where `F`
says and every command meets `D`. A request returns or throws. -/
inductive Operates (T : ℕ) (fmt : Formats) (b : Bcrypt) (F : Failures)
    (D : Request → Panel → Command → Prop) : Panel → Operation → Panel → Prop
  | tick {s : Panel} (d : ℕ) : Operates T fmt b F D s (.tick d) (s.tick d)
  | request {s s' : Panel} {req : Request} {a : Except Exception Reply}
      (hid : IsUuid req.env.userId)
      (h : (Awaits.dispatch fmt b req).Runs (fun s c r s' => Executes T F s c r s' ∧ D req s c)
        s a s') : Operates T fmt b F D s (.request req) s'

/-- The user has no session that the guard would accept. -/
def Sessionless (s : Panel) (userId : String) : Prop :=
  ∀ v, s.sessions.owner v = some userId → s.sessions.redis.getSession v = none

/-- A password is replaced by `changePassword`, or where the user has no session; and when
`changePassword` comes to end the sessions, those that it has made outdated have tracking keys
that last as long as they do. -/
def Ending (req : Request) (s : Panel) : Command → Prop
  | .update userId f => req.route.invalidates = true ∨
      ∀ u ∈ s.users.rows, u.userId = userId → (f u).password ≠ u.password → Sessionless s userId
  | .result (.invalidateUserSessions userId) _ => ∀ v, s.outdated v = true →
      s.sessions.owner v = some userId → Session.Covered s.sessions.redis userId v
  | _ => True

/-- Nothing fails while an outdated session is left. -/
def Harmless : Failures := fun s _ => ∀ v, s.outdated v = true → s.sessions.redis.getSession v = none

section Steps

variable {T : ℕ} {s s' : Panel} {φ φ' : Phase} {req : Request} {users : UserTable} {v : String}

/-- What a request keeps: an outdated session is only left while the change of password that made
it so is on its way. -/
structure Kept (T : ℕ) (s : Panel) (φ : Phase) : Prop where
  ids : ∀ u ∈ s.users.rows, IsUuid u.userId
  sound : Sound T s.sessions none
  owned : ∀ v, s.outdated v = true → ∃ u, s.sessions.owner v = some u
  gone : ∀ v, s.outdated v = true → (s.sessions.redis.getSession v).isSome →
    ∃ u, φ = .written u ∧ s.sessions.owner v = some u
  known : ∀ userId, φ = .reading (some userId) ∨ φ = .written userId →
    ∃ u ∈ s.users.rows, u.userId = userId
  possible : φ ≠ .absurd

theorem not_replaced (users : UserTable) (userId : String) : ¬ Replaced users users userId := by
  rintro ⟨u, hu, u', hu', rfl, hid, hne⟩
  have hsame := Collection.eq_of_key User.userId List.mem_cons_self hu' hu hid
  exact hne (congrArg User.password hsame.symm)

theorem not_replaced_of_insert? {record : User} {userId : String}
    (h : s.users.insert? record = some users) : ¬ Replaced s.users users userId := by
  rintro ⟨u, hu, u', hu', rfl, hid, hne⟩
  obtain hu' | rfl := (Collection.mem_insert? h).mp hu'
  · exact not_replaced s.users u.userId ⟨u, hu, u', hu', rfl, hid, hne⟩
  · exact Collection.key_ne_of_insert? User.userId h List.mem_cons_self hu hid.symm

/-- An update replaces the password of the user that it is for. -/
theorem replaced_of_update? {userId id : String} {f : User → User}
    (hf : ∀ u, (f u).userId = u.userId)
    (h : s.users.update? (fun u => u.userId = id) f = some users)
    (hreplaced : Replaced s.users users userId) :
    userId = id ∧ ∃ u ∈ s.users.rows, u.userId = id ∧ (f u).password ≠ u.password := by
  obtain ⟨u, hu, u', hu', rfl, hid, hne⟩ := hreplaced
  obtain ⟨w, hw, rfl⟩ := (Collection.mem_update? h).mp hu'
  by_cases hw' : w.userId = id
  · rw [if_pos (decide_eq_true hw')] at hid hne
    have hsame := Collection.eq_of_key User.userId List.mem_cons_self hu hw ((hf w) ▸ hid.symm)
    subst hsame
    exact ⟨hw', u, hu, hw', Ne.symm hne⟩
  · rw [if_neg (by simpa using hw')] at hid hne
    have hsame := Collection.eq_of_key User.userId List.mem_cons_self hu hw hid.symm
    exact absurd (congrArg User.password hsame) hne

theorem outdated_write : (s.write users).outdated v = true ↔
    s.outdated v = true ∨ ∃ u, s.sessions.owner v = some u ∧ Replaced s.users users u := by
  unfold Panel.write
  simp [Option.any_eq_true]

/-- A session that is left when a statement has been executed was there before it. -/
theorem isSome_of_tick_write {d : ℕ}
    (h : (((s.write users).tick d).sessions.redis.getSession v).isSome) :
    (s.sessions.redis.getSession v).isSome := Session.isSome_of_tick h

theorem Kept.statement (h : Kept T s φ) (d : ℕ) (hids : ∀ u ∈ users.rows, IsUuid u.userId)
    (hgone : ∀ v u, s.sessions.owner v = some u → (s.sessions.redis.getSession v).isSome →
      s.outdated v = true ∨ Replaced s.users users u → φ' = .written u)
    (hknown : ∀ userId, φ' = .reading (some userId) ∨ φ' = .written userId →
      ∃ u ∈ users.rows, u.userId = userId)
    (hpossible : φ' ≠ .absurd) : Kept T ((s.write users).tick d) φ' := by
  refine ⟨hids, h.sound.tick d, fun v hv => ?_, fun v hv hlive => ?_, hknown, hpossible⟩
  · obtain hv | ⟨u, hown, -⟩ := outdated_write.mp hv
    · exact h.owned v hv
    · exact ⟨u, hown⟩
  · have hbefore := isSome_of_tick_write hlive
    obtain hv | ⟨u, hown, hreplaced⟩ := outdated_write.mp hv
    · obtain ⟨u, hown⟩ := h.owned v hv
      exact ⟨u, hgone v u hown hbefore (.inl hv), hown⟩
    · exact ⟨u, hgone v u hown hbefore (.inr hreplaced), hown⟩

/-- A call of the session service. -/
theorem Kept.call {c last : Session.Call} {o : Option Session.Result} {x : Session.State}
    (h : Kept T s φ) (hopens : Session.Opens s.sessions c)
    (hcarried : Session.Carried T (Harmless.during s) s.sessions c last o x)
    (hgone : ∀ v u, s.outdated v = true → s.sessions.owner v = some u →
      (s.sessions.redis.getSession v).isSome → (x.redis.getSession v).isSome → φ' = .written u)
    (hknown : ∀ userId, φ' = .reading (some userId) ∨ φ' = .written userId →
      ∃ u ∈ s.users.rows, u.userId = userId)
    (hpossible : φ' ≠ .absurd) : Kept T { s with sessions := x } φ' := by
  have howner : ∀ {v u}, s.sessions.owner v = some u → x.owner v = some u :=
    hcarried.owner hopens h.sound
  refine ⟨h.ids, hcarried.sound hopens h.sound, fun v hv => ?_, fun v hv hlive => ?_, hknown,
    hpossible⟩
  · obtain ⟨u, hown⟩ := h.owned v hv
    exact ⟨u, howner hown⟩
  · obtain ⟨u, hown⟩ := h.owned v hv
    refine ⟨u, hgone v u hv hown ?_ hlive, howner hown⟩
    by_contra hdead
    have hnone := hcarried.gone hopens h.sound hown (Option.not_isSome_iff_eq_none.mp hdead)
    change (x.redis.getSession v).isSome at hlive
    rw [hnone] at hlive
    cases hlive

theorem opens_of_begins {a : Ask} {c : Session.Call} {x : Session.State} (h : Begins x a c)
    (hcreate : ∀ dto, a = .createSession dto → IsUuid dto.userId)
    (hinvalidate : ∀ u, a = .invalidateUserSessions u → IsUuid u) : Session.Opens x c := by
  cases h with
  | create dto hsid hnew => exact .create hsid (hcreate dto rfl) hnew
  | activate sid => exact .activate sid
  | destroy sid => exact .destroy sid
  | invalidate u => exact .invalidate (hinvalidate u rfl)

/-- A statement that leaves the table as it is. -/
theorem Kept.unwritten (h : Kept T s φ) (d : ℕ) (hwritten : ∀ u, φ = .written u → φ' = .written u)
    (hknown : ∀ userId, φ' = .reading (some userId) ∨ φ' = .written userId →
      ∃ u ∈ s.users.rows, u.userId = userId)
    (hpossible : φ' ≠ .absurd) : Kept T ((s.write s.users).tick d) φ' := by
  refine h.statement d h.ids (fun v u hown hlive hv => ?_) hknown hpossible
  obtain hv | hreplaced := hv
  · obtain ⟨u', hφ, hown'⟩ := h.gone v hv hlive
    rw [hown] at hown'
    cases hown'
    exact hwritten u hφ
  · exact absurd hreplaced (not_replaced _ _)

/-- A request that only reads has left no outdated session live. -/
theorem Kept.dead_of_reading {found : Option String} (h : Kept T s (.reading found))
    (hv : s.outdated v = true) : ¬ (s.sessions.redis.getSession v).isSome := by
  intro hlive
  obtain ⟨u, ⟨⟩, -⟩ := h.gone v hv hlive

theorem Kept.findOne {p : User → Bool} {r : Except Exception (Option User)} (h : Kept T s φ)
    (hallowed : φ.allows req (.findOne p)) (hr : r = .ok (s.users.find? p) ∨ ∃ e, r = .error e)
    (hF : (∃ e, r = .error e) → Harmless s none) (d : ℕ) :
    Kept T ((s.write s.users).tick d) (φ.next req (.findOne p) r) := by
  cases φ with
  | reading found =>
    rcases hr with rfl | ⟨e, rfl⟩
    · cases hfind : s.users.find? p with
      | none => exact h.unwritten d (fun u hu => hu) h.known h.possible
      | some user =>
        obtain ⟨hmem, hp⟩ := Collection.mem_of_find? hfind
        have hnext : Phase.next req (.reading found) (.findOne p) (.ok (some user)) =
            .reading (some user.userId) := if_pos hp
        rw [hnext]
        refine h.unwritten d (by rintro u ⟨⟩) ?_ (by rintro ⟨⟩)
        rintro userId (⟨⟨⟩⟩ | ⟨⟨⟩⟩)
        exact ⟨user, hmem, rfl⟩
    · exact h.unwritten d (fun u hu => hu) h.known h.possible
  | written userId =>
    rcases hr with rfl | ⟨e, rfl⟩
    · cases hfind : s.users.find? p with
      | none =>
        -- the user that has been written is still there
        obtain ⟨u, hu, hid⟩ := h.known userId (.inr rfl)
        have hpassed : p u = true := hallowed u hid
        rw [Collection.find?_eq_none.mp hfind u hu] at hpassed
        cases hpassed
      | some user => exact h.unwritten d (fun u hu => hu) h.known h.possible
    · refine h.statement d h.ids (fun v u hown hlive hv => ?_) (by rintro _ (⟨⟨⟩⟩ | ⟨⟨⟩⟩))
        (by rintro ⟨⟩)
      obtain hv | hreplaced := hv
      · rw [hF ⟨e, rfl⟩ v hv] at hlive
        cases hlive
      · exact absurd hreplaced (not_replaced _ _)
  | settled | failed => exact hallowed.elim
  | absurd => exact absurd rfl h.possible

/-- A write in a request that reads. -/
theorem Kept.save {record : User} {r : Except Exception Unit} (h : Kept T s φ)
    (hid : IsUuid req.env.userId) (hallowed : φ.allows req (.save record))
    (hr : r = .ok () ∧ s.users.insert? record = some users ∨ users = s.users ∧ ∃ e, r = .error e)
    (d : ℕ) : Kept T ((s.write users).tick d) (φ.next req (.save record) r) := by
  cases φ with
  | reading found =>
    have hnext : Phase.next req (.reading found) (.save record) r = .reading found := rfl
    rw [hnext]
    obtain ⟨rfl, hinsert⟩ | ⟨rfl, e, rfl⟩ := hr
    · refine h.statement d (fun u hu => ?_) (fun v u _ hlive hv => ?_) (fun userId hφ => ?_)
        h.possible
      · obtain hu | rfl := (Collection.mem_insert? hinsert).mp hu
        · exact h.ids u hu
        · exact (show u.userId = _ from hallowed) ▸ hid
      · obtain hv | hreplaced := hv
        · exact absurd hlive (h.dead_of_reading hv)
        · exact absurd hreplaced (not_replaced_of_insert? hinsert)
      · obtain ⟨u, hu, huid⟩ := h.known userId hφ
        exact ⟨u, (Collection.mem_insert? hinsert).mpr (.inl hu), huid⟩
    · exact h.unwritten d (fun _ hu => hu) h.known h.possible
  | written | settled | failed => exact hallowed.elim
  | absurd => exact absurd rfl h.possible

theorem Kept.update {userId : String} {f : User → User} {r : Except Exception Unit}
    (h : Kept T s φ) (hallowed : φ.allows req (.update userId f))
    (hending : Ending req s (.update userId f))
    (hr : r = .ok () ∧ s.users.update? (fun u => u.userId = userId) f = some users ∨
      users = s.users ∧ ∃ e, r = .error e) (d : ℕ) :
    Kept T ((s.write users).tick d) (φ.next req (.update userId f) r) := by
  cases φ with
  | reading found =>
    obtain ⟨hf, hfound⟩ := hallowed
    obtain ⟨rfl, hupdate⟩ | ⟨rfl, e, rfl⟩ := hr
    · have hids : ∀ u ∈ users.rows, IsUuid u.userId := by
        intro u hu
        obtain ⟨w, hw, rfl⟩ := (Collection.mem_update? hupdate).mp hu
        split
        · exact (hf w).symm ▸ h.ids w hw
        · exact h.ids w hw
      have hrows : ∀ id, (∃ u ∈ s.users.rows, u.userId = id) → ∃ u ∈ users.rows, u.userId = id := by
        rintro id ⟨u, hu, rfl⟩
        refine ⟨_, (Collection.mem_update? hupdate).mpr ⟨u, hu, rfl⟩, ?_⟩
        split
        · exact hf u
        · rfl
      -- the sessions go after the write, or there are none whose password it replaces
      by_cases hroute : req.route.invalidates = true
      · have hnext : Phase.next req (.reading found) (.update userId f) (.ok ()) = .written userId :=
          if_pos hroute
        rw [hnext]
        refine h.statement d hids (fun v u hown hlive hv => ?_) (fun id hφ => ?_) (by rintro ⟨⟩)
        · obtain hv | hreplaced := hv
          · exact absurd hlive (h.dead_of_reading hv)
          · rw [(replaced_of_update? hf hupdate hreplaced).1]
        · obtain ⟨⟨⟩⟩ | ⟨⟨⟩⟩ := hφ
          exact hrows userId (h.known userId (.inl (congrArg _ (hfound hroute))))
      · have hnext : Phase.next req (.reading found) (.update userId f) (.ok ()) = .reading found :=
          if_neg hroute
        rw [hnext]
        refine h.statement d hids (fun v u hown hlive hv => ?_) (fun id hφ => hrows id (h.known id hφ))
          h.possible
        obtain hv | hreplaced := hv
        · exact absurd hlive (h.dead_of_reading hv)
        · obtain ⟨rfl, w, hw, hwid, hne⟩ := replaced_of_update? hf hupdate hreplaced
          obtain hroute' | hsessionless := hending
          · exact absurd hroute' hroute
          · rw [hsessionless w hw hwid hne v hown] at hlive
            cases hlive
    · exact h.unwritten d (fun _ hu => hu) h.known h.possible
  | written | settled | failed => exact hallowed.elim
  | absurd => exact absurd rfl h.possible

theorem Kept.result {a : Ask} {i : ℕ} {c last : Session.Call} {o : Option Session.Result}
    {x : Session.State} (h : Kept T s φ) (hallowed : φ.allows req (.result a i))
    (hending : Ending req s (.result a i)) (hbegins : Begins s.sessions a c)
    (hcarried : Session.Carried T (Harmless.during s) s.sessions c last o x) :
    Kept T { s with sessions := x } (φ.next req (.result a i) (a.answer last o)) := by
  cases φ with
  | reading found =>
    have hopens : Session.Opens s.sessions c := by
      refine opens_of_begins hbegins ?_ ?_
      · rintro dto rfl
        obtain ⟨u, hu, hid⟩ := h.known dto.userId (.inl (congrArg _ hallowed))
        exact hid ▸ h.ids u hu
      · rintro u rfl
        exact hallowed.elim
    refine h.call hopens hcarried (fun v u hv _ hlive => ?_) h.known h.possible
    obtain ⟨u, ⟨⟩, -⟩ := h.gone v hv hlive
  | written userId =>
    obtain rfl : a = .invalidateUserSessions userId := hallowed
    obtain ⟨user, huser, hid⟩ := h.known userId (.inr rfl)
    have huuid : IsUuid userId := hid ▸ h.ids user huser
    cases hbegins
    refine h.call (.invalidate huuid) hcarried (fun v u hv hown hlive hafter => ?_) ?_ ?_
    · obtain ⟨u', hφ, hown'⟩ := h.gone v hv hlive
      cases hφ
      cases o with
      | none =>
        rw [hcarried.failed v hv] at hafter
        cases hafter
      -- The call has come to its end, and ends every session of the user that it could.
      | some r =>
        rw [hcarried.invalidated huuid h.sound hown' (hending v hv hown')] at hafter
        cases hafter
    · cases o with
      | none => rintro _ (⟨⟨⟩⟩ | ⟨⟨⟩⟩)
      | some r => rintro _ (⟨⟨⟩⟩ | ⟨⟨⟩⟩)
    · cases o with
      | none => rintro ⟨⟩
      | some r => rintro ⟨⟩
  | settled | failed => exact hallowed.elim
  | absurd => exact absurd rfl h.possible

/-- The step lemma: what a request keeps at each of its commands. -/
theorem Kept.step {c : Command} {r : Except Exception c.Reply} (h : Kept T s φ)
    (hid : IsUuid req.env.userId) (hallowed : φ.allows req c)
    (hexec : Executes T Harmless s c r s') (hending : Ending req s c) :
    Kept T s' (φ.next req c r) := by
  cases hexec with
  | statement d hc hdb hF =>
    cases c with
    | findOne p =>
      obtain ⟨rfl, hr⟩ := Database.findOne_cases hdb
      exact h.findOne hallowed hr hF d
    | save record => exact h.save hid hallowed (Database.save_cases hdb) d
    | update userId f => exact h.update hallowed hending (Database.update_cases hdb) d
    | call | result => cases hc
  | call a i =>
    cases φ with
    | reading | written => exact h
    | settled | failed => exact hallowed.elim
    | absurd => exact absurd rfl h.possible
  | result i hbegins hcarried => exact h.result hallowed hending hbegins hcarried

/-- A request that has ended has left no outdated session, and the next one begins to read. -/
theorem Kept.restart (h : Kept T s φ) (hended : ∀ u, φ ≠ .written u) : Kept T s (.reading none) := by
  refine ⟨h.ids, h.sound, h.owned, fun v hv hlive => ?_, ?_, by rintro ⟨⟩⟩
  · obtain ⟨u, hφ, -⟩ := h.gone v hv hlive
    exact absurd hφ (hended u)
  · rintro userId (⟨⟨⟩⟩ | ⟨⟨⟩⟩)

theorem kept_initial (hids : ∀ u ∈ users.rows, IsUuid u.userId) :
    Kept T (.initial users) (.reading none) := by
  refine ⟨hids, Session.sound_initial T, ?_, ?_, ?_, by rintro ⟨⟩⟩
  · rintro v ⟨⟩
  · rintro v ⟨⟩
  · rintro userId (⟨⟨⟩⟩ | ⟨⟨⟩⟩)

theorem Kept.operation {fmt : Formats} {b : Bcrypt} {op : Operation}
    (h : Kept T s (.reading none)) (hop : Operates T fmt b Harmless Ending s op s') :
    Kept T s' (.reading none) := by
  cases hop with
  | tick d =>
    refine ⟨h.ids, h.sound.tick d, h.owned, fun v hv hlive => ?_, h.known, h.possible⟩
    exact h.gone v hv (Session.isSome_of_tick hlive)
  | request hid hruns =>
    obtain ⟨φ, hended, hkept⟩ := hruns.of_wp (A := Kept T) (ended_dispatch fmt b) h
      fun s q c r s' hkept hallowed hexec => hkept.step hid hallowed hexec.1 hexec.2
    exact hkept.restart hended

/-- What the guard is asked about a session that is gone. -/
theorem answer_of_gone {F : Session.State → Session.Call → Prop} {x y : Session.State}
    {t : Session.Task} {last : Session.Call} {o : Option Session.Result} {d : Session.SessionData}
    (h : Session.Completes T F x t last o y) (hcall : t.call = .guardGet v)
    (hdead : x.redis.getSession v = none) : (Ask.canActivate v).answer last o ≠ .ok d := by
  have hnext : ∀ {x : Session.State} {reply}, x.redis.getSession v = none →
      ((Session.Call.guardGet v).next T x.redis reply).2 = .inr (.session none) := by
    intro x reply hdead
    simp [Session.Call.next, hdead]
  induction h with
  | @tick x y t c o n hrest ih =>
    refine ih hcall ?_
    by_contra hlive
    have hbefore := Session.isSome_of_tick (Option.isSome_iff_ne_none.mpr hlive)
    rw [hdead] at hbefore
    cases hbefore
  | command reply hreply hw hrest ih =>
    rw [hcall, hnext hdead] at hw
    cases hw
  | finish reply hreply hr =>
    rw [hcall, hnext hdead] at hr
    cases hr
    rw [hcall]
    rintro ⟨⟩
  | fault hF =>
    rw [hcall]
    rintro ⟨⟩

theorem not_accepts_of_gone (h : s.sessions.redis.getSession v = none) : ¬ Accepts T s v := by
  rintro ⟨last, o, x, d, hcarried, hanswer⟩
  refine answer_of_gone hcarried rfl ?_ hanswer
  rw [Session.draw_redis, h]

end Steps

/-! ### Scripts -/

/-- The call that begins where the sessions with their users are `known`. -/
def begun (known : List (String × String)) (x : Session.State) : Ask → Option Session.Call
  | .createSession dto =>
    (known.find? fun p => p.2 = dto.userId && (x.owner p.1).isNone).map fun p =>
      Session.createSession p.1 dto x.redis.now
  | .canActivate sid => some (Session.canActivate sid)
  | .destroySession sid => some (Session.destroySession sid)
  | .invalidateUserSessions u =>
    if IsUuid u then some (Session.invalidateUserSessions u) else none

def carried (T : ℕ) (known : List (String × String)) (x : Session.State) (c : Session.Call) :
    Option (Session.Call × Session.Result × Session.State) :=
  Session.carry T known 10 (x.draw c) ((Session.machine T).observe (x.draw c) (x.task c))

/-- What a command does where nothing fails; passwords are only written with `updates`. -/
def execute (T : ℕ) (known : List (String × String)) (updates : Bool) :
    (c : Command) → Panel → Option (Except Exception c.Reply × Panel)
  | .findOne p, s => some (.ok (s.users.find? p), (s.write s.users).tick 0)
  | .save record, s =>
    match s.users.insert? record with
    | some users => some (.ok (), (s.write users).tick 0)
    | none => none
  | .update userId f, s =>
    match updates, s.users.update? (fun u => u.userId = userId) f with
    | true, some users => some (.ok (), (s.write users).tick 0)
    | _, _ => none
  | .call _, s => some (.ok 0, s)
  | .result a _, s =>
    match (begun known s.sessions a).bind (carried T known s.sessions) with
    | some (last, r, x) => some (a.answer last (some r), { s with sessions := x })
    | none => none

/-- The requests one after the other. -/
def serve (T : ℕ) (fmt : Formats) (b : Bcrypt) (known : List (String × String))
    (updates : Request → Bool) : Panel → List Request → Option Panel
  | s, [] => some s
  | s, req :: reqs =>
    if IsUuid req.env.userId then
      match (Awaits.dispatch fmt b req).play (execute T known (updates req)) s with
      | some (_, s') => serve T fmt b known updates s' reqs
      | none => none
    else none

/-- Sessions with their tracking keys, all of them `known`. -/
structure Scripted (T : ℕ) (known : List (String × String)) (s : Panel) : Prop where
  sound : Sound T s.sessions none
  listed : Session.Listed known s.sessions none
  covered : Session.CoveredBut s.sessions none

section Scripts

variable {T : ℕ} {known : List (String × String)} {updates : Bool} {s s' : Panel} {F : Failures}

theorem scripted_initial (T : ℕ) (known : List (String × String)) (users : UserTable) :
    Scripted T known (.initial users) :=
  ⟨Session.sound_initial T, Session.listed_initial known, Session.coveredBut_initial⟩

theorem Scripted.statement (h : Scripted T known s) (users : UserTable) (d : ℕ) :
    Scripted T known ((s.write users).tick d) :=
  ⟨h.sound.tick d, h.listed.tick d,
    (Session.coveredBut_sequential T).env [] h.sound.wellFormed h.sound.task h.covered ⟨d, rfl, rfl⟩⟩

theorem begins_begun (hknown : ∀ p ∈ known, IsUuid p.1 ∧ IsUuid p.2) (h : Scripted T known s)
    {a : Ask} {c : Session.Call} (hc : begun known s.sessions a = some c) :
    Begins s.sessions a c ∧ Session.Opens s.sessions c ∧
      ∀ v d, c = .createSetSession v d → (v, d.userId) ∈ known := by
  cases a with
  | createSession dto =>
    obtain ⟨p, hp, rfl⟩ := Option.map_eq_some_iff.mp hc
    have hmem := List.mem_of_find?_eq_some hp
    have htest := List.find?_some hp
    obtain ⟨huser, hfree⟩ := Bool.and_eq_true_iff.mp htest
    have hdto : p.2 = dto.userId := of_decide_eq_true huser
    have hnew : p.1 ∉ s.sessions.drawn := by
      intro hdrawn
      obtain hown | ⟨w, ⟨⟩, -⟩ := h.listed.drawn hdrawn
      rw [Option.isNone_iff_eq_none.mp hfree] at hown
      cases hown
    refine ⟨.create dto (hknown p hmem).1 hnew, .create (hknown p hmem).1 ?_ hnew, ?_⟩
    · exact hdto ▸ (hknown p hmem).2
    · rintro v d ⟨⟩
      exact hdto ▸ hmem
  | canActivate sid =>
    cases hc
    exact ⟨.activate sid, .activate sid, by rintro v d ⟨⟩⟩
  | destroySession sid =>
    cases hc
    exact ⟨.destroy sid, .destroy sid, by rintro v d ⟨⟩⟩
  | invalidateUserSessions u =>
    dsimp only [begun] at hc
    by_cases hu : IsUuid u
    · rw [if_pos hu] at hc
      cases hc
      exact ⟨.invalidate u, .invalidate hu, by rintro v d ⟨⟩⟩
    · rw [if_neg hu] at hc
      cases hc

/-- A scripted command is one that the panel can execute, and after a change of password it finds
the tracking keys. -/
theorem executes_execute {req : Request} {c : Command} {r : Except Exception c.Reply}
    (hknown : ∀ p ∈ known, IsUuid p.1 ∧ IsUuid p.2) (h : Scripted T known s)
    (hr : execute T known updates c s = some (r, s')) :
    (Executes T F s c r s' ∧ (updates = req.route.invalidates → Ending req s c)) ∧
      Scripted T known s' := by
  cases c with
  | findOne p =>
    cases hr
    exact ⟨⟨.statement 0 rfl (.find p) (by rintro ⟨e, ⟨⟩⟩), fun _ => trivial⟩, h.statement _ _⟩
  | save record =>
    dsimp only [execute] at hr
    split at hr
    · cases hr
      exact ⟨⟨.statement 0 rfl (.save ‹_›) (by rintro ⟨e, ⟨⟩⟩), fun _ => trivial⟩, h.statement _ _⟩
    · cases hr
  | update userId f =>
    dsimp only [execute] at hr
    split at hr
    · cases hr
      exact ⟨⟨.statement 0 rfl (.update ‹_›) (by rintro ⟨e, ⟨⟩⟩), fun hroute => .inl hroute.symm⟩,
        h.statement _ _⟩
    · cases hr
  | call a =>
    cases hr
    exact ⟨⟨.call a 0, fun _ => trivial⟩, h⟩
  | result a i =>
    dsimp only [execute] at hr
    split at hr
    · rename_i last res x hcarried
      cases hr
      -- the script carries the call out on its own, and so does the panel
      obtain ⟨c, hc, hx⟩ := Option.bind_eq_some_iff.mp hcarried
      obtain ⟨hbegins, hopens, hcreates⟩ := begins_begun hknown h hc
      have hrun : ∀ G, Session.Carried T G s.sessions c last (some res) x :=
        fun G => (Session.carried_carry h.sound h.listed hopens hcreates hx).1
      have hlisted := (Session.carried_carry (F := F.during s) h.sound h.listed hopens hcreates hx).2
      refine ⟨⟨.result i hbegins (hrun _), fun _ => ?_⟩, (hrun fun _ _ => True).sound hopens h.sound,
        hlisted, (hrun fun _ _ => True).covered hopens h.sound h.covered⟩
      cases a with
      | invalidateUserSessions u => exact fun v _ hown => h.covered.between hown
      | _ => trivial
    · cases hr

theorem run_of_serve {fmt : Formats} {b : Bcrypt} {updates : Request → Bool}
    {D : Request → Panel → Command → Prop} {reqs : List Request}
    (hD : ∀ req s c, (updates req = req.route.invalidates → Ending req s c) → D req s c)
    (hknown : ∀ p ∈ known, IsUuid p.1 ∧ IsUuid p.2) (h : Scripted T known s)
    (hserve : serve T fmt b known updates s reqs = some s') :
    (∃ tr, Run (Operates T fmt b F D) s tr s') ∧ Scripted T known s' := by
  induction reqs generalizing s with
  | nil =>
    cases hserve
    exact ⟨⟨[], .refl⟩, h⟩
  | cons req reqs ih =>
    unfold serve at hserve
    split at hserve
    · rename_i hid
      split at hserve
      · rename_i a s₁ hplay
        obtain ⟨hruns, hscripted⟩ := Program.runs_play (I := Scripted T known)
          (E := fun s c r s' => Executes T F s c r s' ∧ D req s c)
          (fun c s r s' hI hact => by
            obtain ⟨⟨hexec, hending⟩, hnext⟩ := executes_execute hknown hI hact
            exact ⟨⟨hexec, hD req s c hending⟩, hnext⟩) h hplay
        obtain ⟨⟨tr, hrun⟩, hend⟩ := ih hscripted hserve
        exact ⟨⟨_, (Run.single (.request hid hruns)).trans hrun⟩, hend⟩
      · cases hserve
    · cases hserve

/-- A session that a scripted request with it would be let pass by. -/
def acceptedBy (T : ℕ) (known : List (String × String)) (v : String) (s : Panel) : Bool :=
  (carried T known s.sessions (Session.canActivate v)).any fun ending =>
    match (Ask.canActivate v).answer ending.1 (some ending.2.1) with
    | .ok _ => true
    | .error _ => false

theorem accepts_of_acceptedBy {v : String} (h : Scripted T known s)
    (htest : acceptedBy T known v s = true) : Accepts T s v := by
  obtain ⟨⟨last, r, x⟩, hcarried, hanswer⟩ := (Option.any_eq_true _ _).mp htest
  have hrun := (Session.carried_carry (F := fun _ _ => True) h.sound h.listed (.activate v)
    (by rintro w d ⟨⟩) hcarried).1
  dsimp only at hanswer
  split at hanswer
  · exact ⟨last, some r, x, _, hrun, ‹_›⟩
  · cases hanswer

end Scripts

section Main

variable {T : ℕ} {fmt : Formats} {b : Bcrypt} {users : UserTable} {s : Panel} {tr : List Operation}

/-- No session that is older than its user's password is accepted, if passwords are replaced by
`changePassword` and nothing fails before it has ended the sessions. -/
theorem not_accepts_of_ending (hids : ∀ u ∈ users.rows, IsUuid u.userId)
    (hrun : Run (Operates T fmt b Harmless Ending) (.initial users) tr s) :
    ∀ v, s.outdated v = true → ¬ Accepts T s v := by
  have hkept : Kept T s (.reading none) :=
    hrun.invariant (I := fun s => Kept T s (.reading none)) (kept_initial hids)
      fun h hop => h.operation hop
  intro v hv
  refine not_accepts_of_gone ?_
  by_contra hlive
  obtain ⟨u, ⟨⟩, -⟩ := hkept.gone v hv (Option.isSome_iff_ne_none.mpr hlive)

end Main

/-- Ana, and the only session that there is. -/
def anasSession : List (String × String) := [(Session.visitorSession, Session.visitor.userId)]

theorem isUuid_anasSession : ∀ p ∈ anasSession, IsUuid p.1 ∧ IsUuid p.2 := by decide

def anaSignsUp : Request :=
  { route := .signup, sessionId := none, env := { visit with userId := Session.visitor.userId },
    guardFails := false,
    body := .obj [("username", .str "ana"), ("email", .str "ana@iot.org"),
      ("password", .str "12345678")] }

def anaChangesHerPassword : Request :=
  { anaSignsUp with
    route := .changePassword
    sessionId := some Session.visitorSession
    body := .obj [("oldPassword", .str "12345678"), ("newPassword", .str "87654321"),
      ("retypePassword", .str "87654321")] }

/-- Ana writes a new password into her profile. -/
def anaUpdatesHerProfile : Request :=
  { anaSignsUp with
    route := .updateProfile
    sessionId := some Session.visitorSession
    body := .obj [("password", .str "87654321")] }

theorem not_accepts_of_ending_ana :
    ∃ tr s, Run (Operates 60 atSign markedText Harmless Ending) (.initial Collection.empty) tr s ∧
      s.outdated Session.visitorSession = true ∧ ∀ v, s.outdated v = true → ¬ Accepts 60 s v := by
  have hscript : (serve 60 atSign markedText anasSession (fun req => req.route.invalidates)
      (.initial Collection.empty) [anaSignsUp, anaChangesHerPassword]).any
        (fun s => s.outdated Session.visitorSession) = true := by
    decide +kernel
  obtain ⟨s, hserve, houtdated⟩ := (Option.any_eq_true _ _).mp hscript
  obtain ⟨⟨tr, hrun⟩, -⟩ := run_of_serve (F := Harmless) (D := Ending)
    (fun req s c h => h rfl) isUuid_anasSession (scripted_initial 60 anasSession _) hserve
  refine ⟨tr, s, hrun, houtdated, not_accepts_of_ending ?_ hrun⟩
  rintro u ⟨⟩

/-- An update of the profile writes the password, and the session is accepted as before. -/
theorem accepts_of_updateProfile :
    ¬ ∀ (T : ℕ) (fmt : Formats) (b : Bcrypt) (users : UserTable) (tr : List Operation) (s : Panel),
      (∀ u ∈ users.rows, IsUuid u.userId) →
        Run (Operates T fmt b (fun _ _ => True) fun _ _ _ => True) (.initial users) tr s →
          ∀ v, s.outdated v = true → ¬ Accepts T s v := by
  intro h
  have hscript : (serve 60 atSign markedText anasSession (fun _ => true)
      (.initial Collection.empty) [anaSignsUp, anaUpdatesHerProfile]).any
        (fun s => s.outdated Session.visitorSession &&
          acceptedBy 60 anasSession Session.visitorSession s) = true := by
    decide +kernel
  obtain ⟨s, hserve, htest⟩ := (Option.any_eq_true _ _).mp hscript
  obtain ⟨houtdated, haccepted⟩ := Bool.and_eq_true_iff.mp htest
  obtain ⟨⟨tr, hrun⟩, hscripted⟩ := run_of_serve (F := fun _ _ => True) (D := fun _ _ _ => True)
    (fun _ _ _ _ => trivial) isUuid_anasSession (scripted_initial 60 anasSession _) hserve
  refine h 60 atSign markedText Collection.empty tr s ?_ hrun _ houtdated
    (accepts_of_acceptedBy hscripted haccepted)
  rintro u ⟨⟩

end IotPanel.Users
