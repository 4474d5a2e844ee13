import IotPanel.Session.WellFormed

/-!
# Sessions and their tracking keys when commands fail

A live session must have a tracking key that expires no earlier, or a later
`invalidateUserSessions` cannot find it. The service writes the session first and the mark
second, so a command that fails between the two leaves the session unmarked.
-/

namespace IotPanel.Session

/-- If the session is live, its tracking key is there and expires no earlier. -/
def Covered (r : Redis) (u sid : String) : Prop :=
  ∀ x, r.store (sessionKey sid) = some x → r.now < x.expiresAt →
    ∃ y, r.store (trackingKey u sid) = some y ∧ x.expiresAt ≤ y.expiresAt

/-- Each live session has a live tracking key of its user that expires no earlier. -/
def Tracked (r : Redis) : Prop :=
  ∀ sid x d, r.store (sessionKey sid) = some x → x.value = .data d → r.now < x.expiresAt →
    ∃ y, r.store (trackingKey d.userId sid) = some y ∧ r.now < y.expiresAt ∧
      x.expiresAt ≤ y.expiresAt

/-- A write of a tracking key fails only where the key that is there already covers the
session. -/
def FaultCovered (s : State) : Event → Prop
  | .failed (.createSetTracking sid d) | .failed (.extendSetTracking sid d) =>
    Covered s.redis d.userId sid
  | _ => True

/-- Between two calls every session is covered. A running call has at most one session left
to mark, and has deleted the data of a session before it removes the mark. -/
structure CoveredBut (s : State) (t : Option Task) : Prop where
  covered : ∀ {sid u}, s.owner sid = some u →
    Covered s.redis u sid ∨ ∃ w ∈ t, w.call.tracks = some sid
  deleted : ∀ {w sid}, w ∈ t → w.call.untracks = some sid →
    s.redis.store (sessionKey sid) = none

variable {T : ℕ} {s : State} {t : Task} {r : Redis} {u sid : String} {reply : Batch}

theorem Covered.of_none (h : r.store (sessionKey sid) = none) : Covered r u sid := by
  intro x hx
  rw [h] at hx
  cases hx

theorem Covered.tick (h : Covered r u sid) (d : ℕ) : Covered (r.tick d) u sid := by
  intro x hx hlive
  exact h x hx (by simp only [Redis.tick] at hlive; omega)

/-- The tracking key of a covered session stays readable for as long as the session. -/
theorem Covered.outlives (h : Covered r u sid) :
    r.store.Outlives r.now (sessionKey sid) (trackingKey u sid) := by
  intro t ht hlive
  obtain ⟨v, hget⟩ := Option.isSome_iff_exists.mp hlive
  obtain ⟨x, hx, hlt, -⟩ := Store.get_eq_some.mp hget
  obtain ⟨y, hy, hle⟩ := h x hx (by omega)
  exact Option.isSome_iff_exists.mpr ⟨y.value, Store.get_eq_some.mpr ⟨y, hy, by omega, rfl⟩⟩

/-- While no call runs every session is covered. -/
theorem CoveredBut.between (h : CoveredBut s none) (hown : s.owner sid = some u) :
    Covered s.redis u sid := by
  obtain hcov | ⟨w, hw, -⟩ := h.covered hown
  · exact hcov
  · cases hw

/-- A tracking key written now covers the session. -/
theorem covered_of_mark (hwf : WellFormed T s)
    (hkept : r.store (sessionKey sid) = s.redis.store (sessionKey sid))
    (hmark : r.store (trackingKey u sid) = some ⟨.tracked, s.redis.now + 1000 * T⟩) :
    Covered r u sid := by
  intro x hx _
  rw [hkept] at hx
  exact ⟨_, hmark, hwf.expiry hx⟩

/-- Whatever a command does to its own session, the others stay covered. -/
theorem covered_command (hwf : WellFormed T s) (hcall : s.CallOk t.call)
    (h : CoveredBut s (some t)) (hown : s.owner sid = some u)
    (hkept : (t.call.next T s.redis reply).1.store (sessionKey sid) =
      s.redis.store (sessionKey sid)) :
    Covered (t.call.next T s.redis reply).1 u sid := by
  obtain ⟨_, hmark⟩ | ⟨hun, _⟩ | ⟨hne, _, hsame⟩ := tracking_next reply hwf hcall hown
  · exact covered_of_mark hwf hkept hmark
  · exact .of_none (hkept.trans (h.deleted rfl hun))
  · obtain hcov | ⟨w, hw, htracks⟩ := h.covered hown
    · intro x hx hlive
      rw [hkept] at hx
      rw [hsame]
      exact hcov x hx (by simpa using hlive)
    · cases hw
      exact absurd htracks hne

theorem coveredBut_sequential (T : ℕ) :
    Pool.Sequential ((machine T).restrict fun s _ e => FaultCovered s e) (WellFormed T)
      State.TaskOk (fun _ => CoveredBut) where
  env := by
    rintro tr s t e s' - - h ⟨d, rfl, rfl⟩
    constructor
    · intro sid u hown
      refine (h.covered hown).imp (fun hcov => hcov.tick d) ?_
      rintro ⟨w, rfl, htracks⟩
      exact ⟨_, rfl, htracks⟩
    · intro w sid hw hun
      obtain ⟨v, rfl, rfl⟩ := Option.map_eq_some_iff.mp hw
      exact h.deleted rfl hun
  spawn := by
    rintro tr s t e s' hwf h ⟨c, hopens, rfl, rfl, rfl⟩
    have huntracks : c.untracks = none := by cases hopens <;> rfl
    constructor
    · intro sid u hown
      rw [draw_owner] at hown
      rw [draw_redis]
      exact .inl (h.between hown)
    · intro w sid hw hun
      cases hw
      change c.untracks = some sid at hun
      rw [huntracks] at hun
      cases hun
  exec := by
    rintro tr s t e s' t' hwf ⟨hcall, _⟩ h ⟨hexec, hfault⟩
    cases hexec with
    | fault =>
      constructor
      · intro sid u hown
        obtain hcov | ⟨w, hw, htracks⟩ := h.covered hown
        · exact .inl hcov
        cases hw
        obtain ⟨call, owed, victims⟩ := t
        cases call with
        | createSetTracking v d | extendSetTracking v d =>
          cases htracks
          change s.owner sid = some d.userId at hcall
          rw [hown] at hcall
          cases hcall
          exact .inl hfault
        | _ => cases htracks
      · intro w sid hw
        cases hw
    | command reply hreply =>
      constructor
      · intro sid u hown
        obtain ⟨d, hsave, _⟩ | ⟨_, hnone⟩ | ⟨hne, _, hkept⟩ :=
          session_next (T := T) reply hcall sid
        · -- the session is the one whose mark comes next
          right
          cases hn : (t.call.next T s.redis reply).2 with
          | inl c =>
            have hmark : c.tracks = some sid := by simpa [hsave] using (tracks_next hn).1
            exact ⟨_, rfl, hmark⟩
          | inr res =>
            rw [(saves_deletes_of_return hn).1] at hsave
            cases hsave
        · exact .inl (.of_none hnone)
        · exact .inl (covered_command hwf hcall h (owner_of_record hne hown) hkept)
      · intro w sid hw hun
        obtain ⟨x, hx, rfl⟩ := Option.map_eq_some_iff.mp hw
        have hdel : t.call.deletes = some sid := (tracks_next (Task.resume_eq hx).1).2 ▸ hun
        exact session_deleted hcall hdel

/-- Sequential runs in which a tracking write fails only where the session stays covered. -/
abbrev CoveredRun (T : ℕ) (tr : List Event) (p : Pool State Task) : Prop :=
  Run (Pool.Step ((machine T).restrict fun s _ e => FaultCovered s e) Pool.Idle)
    (Pool.start .initial) tr p

theorem wellFormed_initial (T : ℕ) : WellFormed T .initial where
  ids h := by cases h
  created h := absurd h (Set.notMem_empty _)
  placed h := by cases h
  expiry h := by cases h

theorem coveredBut_initial : CoveredBut .initial none where
  covered h := by cases h
  deleted h := by cases h

variable {tr : List Event} {p q : Pool State Task} {e : Event}

theorem CoveredRun.holds (h : CoveredRun T tr p) :
    Pool.Holds (WellFormed T) State.TaskOk Apart p :=
  (Pool.holds_start (wellFormed_initial T)).run ((outline T).restrict _) h

theorem CoveredRun.covered (h : CoveredRun T tr p) (hidle : p.Idle)
    (hown : p.shared.owner sid = some u) : Covered p.shared.redis u sid := by
  have hinit : Pool.Solo CoveredBut (Pool.start .initial : Pool State Task) :=
    .idle (Pool.idle_start _) coveredBut_initial
  have hsolo : Pool.Solo CoveredBut p :=
    hinit.run (I := fun _ => CoveredBut) ((outline T).restrict _) (coveredBut_sequential T)
      (Pool.holds_start (wellFormed_initial T)) h
  exact (hsolo.of_idle hidle).between hown

/-- Redis holds a session's data only under the session's owner. -/
theorem tracked_iff (hwf : WellFormed T s) :
    Tracked s.redis ↔ ∀ sid u, s.owner sid = some u → Covered s.redis u sid := by
  constructor
  · intro h sid u hown x hx hlive
    have hplaced := hwf.placed hx
    cases hxv : x.value with
    | tracked =>
      rw [hxv] at hplaced
      generalize hk : sessionKey sid = k at hplaced
      cases hplaced
      exact absurd hk (sessionKey_ne_trackingKey _ _ _)
    | data d =>
      rw [hxv] at hplaced
      have hd := hplaced.tracked
      rw [hown] at hd
      cases hd
      obtain ⟨y, hy, _, hle⟩ := h sid x d hx hxv hlive
      exact ⟨y, hy, hle⟩
  · intro h sid x d hx hxv hlive
    have hplaced := hwf.placed hx
    rw [hxv] at hplaced
    obtain ⟨y, hy, hle⟩ := h sid d.userId hplaced.tracked x hx hlive
    exact ⟨y, hy, by omega, hle⟩

/-- While every fault so far left its session covered, every state between two calls is tracked;
and the next step that ends a call keeps it so exactly when it is no uncovered fault. -/
theorem tracked_iff_faultCovered (h : CoveredRun T tr p) :
    (p.Idle → Tracked p.shared.redis) ∧
      ∀ e q, Pool.Step (machine T) Pool.Idle p e q → q.Idle →
        (Tracked q.shared.redis ↔ FaultCovered p.shared e) := by
  have htracked : ∀ {tr p}, CoveredRun T tr p → p.Idle → Tracked p.shared.redis :=
    fun h hidle => (tracked_iff h.holds.shared).mpr fun _ _ => h.covered hidle
  refine ⟨htracked h, fun e q hs hidle => ⟨fun htr => ?_, fun hcov => ?_⟩⟩
  · cases hs with
    | env henv =>
      obtain ⟨d, rfl, _⟩ := henv
      trivial
    | spawn i _ _ hspawn =>
      obtain ⟨c, _, rfl, _⟩ := hspawn
      trivial
    | @exec s' t t' i ht hexec =>
      cases hexec with
      | command => trivial
      | fault =>
        have hcall := (h.holds.thread ht).call
        obtain ⟨call, owed, victims⟩ := t
        cases call with
        | createSetTracking sid d | extendSetTracking sid d =>
          exact (tracked_iff h.holds.shared).mp htr sid d.userId hcall
        | _ => trivial
  · exact htracked (.snoc h (hs.restrict fun _ => hcov)) hidle

theorem tracked_iff_faultCovered_login :
    let p := login.foldl (move 60) (Pool.start .initial)
    (p.Idle → Tracked p.shared.redis) ∧
      ∀ e q, Pool.Step (machine 60) Pool.Idle p e q → q.Idle →
        (Tracked q.shared.redis ↔ FaultCovered p.shared e) := by
  have hlegal : LegalScript 60 (fun s _ e => FaultCovered s e) Pool.Idle (fun _ => True)
      (Pool.start .initial) login :=
    ⟨⟨rfl, Pool.idle_start _, opens_visitor⟩, trivial, ⟨_, rfl, trivial, trivial⟩, trivial,
      ⟨_, rfl, trivial, trivial⟩, trivial, trivial⟩
  obtain ⟨tr, hrun⟩ := run_of_script hlegal
  exact tracked_iff_faultCovered (hrun.mono fun hs => hs.1)

/-- The tracking write of a login fails: the session stays, unmarked, for its whole lifetime. -/
theorem not_tracked_of_fault :
    ¬ ∀ (T : ℕ) (tr : List Event) (p : Pool State Task),
      Run (Pool.Step (machine T) Pool.Idle) (Pool.start .initial) tr p → p.Idle →
        Tracked p.shared.redis := by
  intro h
  have hlegal : LegalScript 60 (fun _ _ _ => True) Pool.Idle (fun _ => True)
      (Pool.start .initial) (halfLogin ++ [Move.fault 0]) :=
    ⟨⟨rfl, Pool.idle_start _, opens_visitor⟩, trivial, ⟨_, rfl, trivial, trivial⟩, trivial,
      ⟨_, rfl, trivial⟩, trivial, trivial⟩
  obtain ⟨tr, hrun⟩ := run_of_script hlegal
  have hidle : ((halfLogin ++ [Move.fault 0]).foldl (move 60) (Pool.start .initial)).Idle := by
    intro i
    rcases i with _ | i <;> rfl
  have htracked := h 60 tr _ (hrun.mono fun hs => hs.1.of_restrict) hidle
  obtain ⟨y, hy, _⟩ := htracked visitorSession _ _ rfl rfl (by decide)
  cases hy

end IotPanel.Session
