import IotPanel.Session.Termination

/-!
# The refinement, and what an invalidation removes

Every sequential run over a reliable Redis keeps the simulation, so between two calls the store
answers as the table. An invalidation only touches keys of its own user, and every call returns.
-/

namespace IotPanel.Session

variable {T : ℕ} {s : State} {t : Task} {u sid : String} {reply : Batch} {c : Call}
  {e : Event} {tr : List Event} {p q : Pool State Task}

theorem sim_sequential (T : ℕ) :
    Pool.Sequential (reliable T) (WellFormed T) State.TaskOk
      (fun tr s t => CoveredBut s t ∧ Sim T tr s t) where
  env := by
    rintro tr s t e s' hwf hok ⟨hcov, hsim⟩ henv
    have hcov' := (coveredBut_sequential T).env tr hwf hok hcov henv
    obtain ⟨d, rfl, hs'⟩ := henv
    exact ⟨hcov', hsim.tick hs' hcov'⟩
  spawn := by
    rintro tr s t e s' hwf ⟨hcov, hsim⟩ hspawn
    have hcov' := (coveredBut_sequential T).spawn tr hwf hcov hspawn
    obtain ⟨c, hopens, rfl, rfl, rfl⟩ := hspawn
    exact ⟨hcov', hsim.start hopens hcov⟩
  exec := by
    rintro tr s t e s' t' hwf hok ⟨hcov, hsim⟩ ⟨hexec, hreliable⟩
    cases hexec with
    | fault => exact absurd rfl (hreliable t.call)
    | command reply hreply =>
      have hcov' := (coveredBut_sequential T).exec tr hwf hok hcov
        ⟨.command reply hreply, trivial⟩
      exact ⟨hcov', hsim.command hwf hok hreply rfl hcov'⟩

theorem sim_initial (T : ℕ) : Sim T [] .initial none where
  agree sid := .inl fun n _ => rfl
  rows h := by cases h
  destroyed h := by cases h
  invalidated h := by cases h
  extending h := by cases h

/-- Runs over a reliable Redis in which a call starts only when no call runs. -/
abbrev ReliableRun (T : ℕ) (tr : List Event) (p : Pool State Task) : Prop :=
  Run (Pool.Step (reliable T) Pool.Idle) (Pool.start .initial) tr p

theorem ReliableRun.holds (h : ReliableRun T tr p) :
    Pool.Holds (WellFormed T) State.TaskOk Apart p :=
  (Pool.holds_start (wellFormed_initial T)).run ((outline T).restrict _) h

theorem ReliableRun.solo (h : ReliableRun T tr p) :
    Pool.Solo (fun s t => CoveredBut s t ∧ Sim T tr s t) p := by
  have hinit : Pool.Solo (fun s t => CoveredBut s t ∧ Sim T [] s t)
      (Pool.start .initial : Pool State Task) :=
    .idle (Pool.idle_start _) ⟨coveredBut_initial, sim_initial T⟩
  exact hinit.run ((outline T).restrict _) (sim_sequential T)
    (Pool.holds_start (wellFormed_initial T)) h

theorem ReliableRun.sim (h : ReliableRun T tr p) (hidle : p.Idle) : Sim T tr p.shared none :=
  (h.solo.of_idle hidle).2

/-- Between two calls the store answers as the table. -/
theorem ReliableRun.getSession (h : ReliableRun T tr p) (hidle : p.Idle) (sid : String) :
    (p.shared.redis.getSession sid).map SessionData.userId =
      (tableOf tr).userAt T p.shared.redis.now sid := by
  obtain hagree | ⟨_, w, hw, _⟩ := (h.sim hidle).agree sid
  · exact hagree _ le_rfl
  · cases hw

/-! ### What an invalidation removes and what it leaves -/

theorem owner_of_invalidated (hwf : WellFormed T s) (hcall : s.CallOk c)
    (hinv : c.invalidates = some u) (h : c.deletes = some sid ∨ c.untracks = some sid) :
    s.owner sid = some u := by
  cases c with
  | invalidateDelSession v key keys next | invalidateDelTracking v key keys next =>
    cases hinv
    obtain ⟨w, hw, hown, _⟩ := sessionIdOf_tracks hwf hcall.2.1
    have hsid : w = sid := by simpa [Call.deletes, Call.untracks, hw] using h
    exact hsid ▸ hown
  | _ => simp [Call.deletes, Call.untracks, Call.invalidates] at h hinv

/-- An invalidation leaves the keys of the sessions of other users alone. -/
theorem store_kept (reply : Batch) {v : String} (hwf : WellFormed T s) (hcall : s.CallOk c)
    (hinv : c.invalidates = some u) (hown : s.owner sid = some v) (hne : v ≠ u) :
    (c.next T s.redis reply).1.store (sessionKey sid) = s.redis.store (sessionKey sid) ∧
      (c.next T s.redis reply).1.store (trackingKey v sid) =
        s.redis.store (trackingKey v sid) := by
  have hforeign : ¬ (c.deletes = some sid ∨ c.untracks = some sid) := fun h => by
    have hu := owner_of_invalidated hwf hcall hinv h
    rw [hown] at hu
    exact hne (Option.some.inj hu)
  constructor
  · obtain ⟨d, hsave, _⟩ | ⟨hdel, _⟩ | ⟨_, _, hkept⟩ :=
      session_next (T := T) reply hcall sid
    · rw [saves_of_invalidates hinv] at hsave
      cases hsave
    · exact absurd (.inl hdel) hforeign
    · exact hkept
  · obtain ⟨htracks, _⟩ | ⟨hun, _⟩ | ⟨_, _, hkept⟩ :=
      tracking_next reply hwf hcall hown
    · rw [tracks_of_invalidates hinv] at htracks
      cases htracks
    · exact absurd (.inr hun) hforeign
    · exact hkept

/-- From `p` on only an invalidation of `u` has run: the keys of others are as they were, and
the table has no session of `u`. -/
structure Invalidated (u : String) (s₀ : State) (tr : List Event) (q : Pool State Task) :
    Prop where
  only : ∀ {i t}, q.threads i = some t → t.call.invalidates = some u
  owner : q.shared.owner = s₀.owner
  kept : ∀ {sid v}, s₀.owner sid = some v → v ≠ u →
    q.shared.redis.store (sessionKey sid) = s₀.redis.store (sessionKey sid) ∧
      q.shared.redis.store (trackingKey v sid) = s₀.redis.store (trackingKey v sid)
  gone : ∀ {sid}, s₀.owner sid = some u → tableOf tr sid = none

theorem Invalidated.start (h : ReliableRun T tr p) (hidle : p.Idle)
    (hs : Pool.Step (reliable T) Pool.Idle p (.start (invalidateUserSessions u)) q) :
    Invalidated u p.shared (.start (invalidateUserSessions u) :: tr) q := by
  have hgone : ∀ {sid}, p.shared.owner sid = some u →
      tableOf (.start (invalidateUserSessions u) :: tr) sid = none := fun hown =>
    apply_start_invalidate "0" fun row hrow => by
      have hrow := (h.sim hidle).rows hrow
      rw [hown] at hrow
      exact (Option.some.inj hrow).symm
  cases hs with
  | env henv =>
    obtain ⟨d, he, _⟩ := henv
    cases he
  | exec i ht hexec =>
    rw [hidle i] at ht
    cases ht
  | spawn i _ _ hspawn =>
    obtain ⟨c, _, he, rfl, rfl⟩ := hspawn
    cases he
    refine ⟨fun {j t} ht => ?_, rfl, fun _ _ => ⟨rfl, rfl⟩, hgone⟩
    by_cases hj : j = i
    · subst hj
      rw [Pool.put_threads_self] at ht
      cases ht
      rfl
    · rw [Pool.put_threads_of_ne hj, hidle j] at ht
      cases ht

theorem Invalidated.step {s₀ : State} {p q : Pool State Task} (h : Invalidated u s₀ tr p)
    (hp : Pool.Holds (WellFormed T) State.TaskOk Apart p)
    (hs : Pool.Step (reliable T) NoStart p e q) : Invalidated u s₀ (e :: tr) q := by
  cases hs with
  | env henv =>
    obtain ⟨d, rfl, rfl⟩ := henv
    refine ⟨fun {i t} ht => ?_, h.owner, h.kept, h.gone⟩
    obtain ⟨w, hw, rfl⟩ := Option.map_eq_some_iff.mp ht
    have hinv := h.only hw
    exact hinv
  | spawn _ _ hno _ => exact hno.elim
  | @exec s' t t' i ht hexec =>
    obtain ⟨hexec, hreliable⟩ := hexec
    cases hexec with
    | fault => exact absurd rfl (hreliable t.call)
    | command reply hreply =>
      have hinv := h.only ht
      have hcall := (hp.thread ht).call
      have hsaves : ∀ sid d, t.call.saves ≠ some (sid, d) := by
        simp [saves_of_invalidates hinv]
      refine ⟨fun {j w} hw => ?_, ?_, fun {sid v} hown hne => ?_, fun {sid} hown => ?_⟩
      · by_cases hj : j = i
        · subst hj
          rw [Pool.put_threads_self, Option.map_eq_some_iff] at hw
          obtain ⟨w', hw', rfl⟩ := hw
          exact (invalidates_next (Task.resume_eq hw').1).trans hinv
        · rw [Pool.put_threads_of_ne hj, Option.map_eq_some_iff] at hw
          obtain ⟨w', hw', rfl⟩ := hw
          have hinv' := h.only hw'
          exact hinv'
      -- an invalidation creates no session, so that the owners stay
      · rw [← h.owner]
        funext sid
        cases hcase : p.shared.owner sid with
        | some v => exact owner_record hcall hcase
        | none =>
          by_contra hsome
          obtain ⟨v, hv⟩ := Option.ne_none_iff_exists'.mp hsome
          rw [owner_of_record (hsaves sid) hv] at hcase
          cases hcase
      · have hown' : p.shared.owner sid = some v := by rw [h.owner, hown]
        have hkept := store_kept reply hp.shared hcall hinv hown' hne
        exact ⟨hkept.1.trans (h.kept hown hne).1, hkept.2.trans (h.kept hown hne).2⟩
      · exact (apply_executed_of_ne (hsaves sid)).trans (h.gone hown)

theorem Invalidated.run {s₀ : State} {ev : List Event} (h : Invalidated u s₀ tr p)
    (hp : Pool.Holds (WellFormed T) State.TaskOk Apart p)
    (hrun : Run (Pool.Step (reliable T) NoStart) p ev q) : Invalidated u s₀ (ev ++ tr) q :=
  hrun.induct (I := fun ev q => Invalidated u s₀ (ev ++ tr) q) h fun hrun' hq hs =>
    hq.step (hp.run ((outline T).restrict _) hrun') hs

def guest : CreateSessionDto :=
  { userId := "c3b8a1d2-64f0-4e97-8b35-2d9e7f0a6c41", username := "bob",
    roles := [.str "viewer"], ipAddress := "::1", userAgent := "curl" }

def guestSession : String := "9a2e4c6f-1d3b-4b58-a7c0-8e5f6d2b4a19"

/-- Two logins, and a request of the first user after a while. -/
def logins : List Move :=
  login ++ [.start 0 (createSession guestSession guest 0), .command 0 ⟨"0", []⟩,
    .command 0 ⟨"0", []⟩, .tick 30000, .start 0 (extendSession visitorSession),
    .command 0 ⟨"0", []⟩, .command 0 ⟨"0", []⟩, .command 0 ⟨"0", []⟩]

end IotPanel.Session
