import IotPanel.Lib.Chronicle
import IotPanel.Session.Table

/-!
# The history of a session

However calls interleave and whichever of their commands fail, the data of a session is what its
one creation stored, but for the time of the last activity; and a session is only ever renewed
by a call that has read it while it was live. A session that has expired stays away, once no call
is left that has read it before.
-/

namespace IotPanel.Session

/-- The events, newest first, by which the session `sid`, created with the data `d₀`, has come to
hold the data `d`, written last at `n`. Each renewal was read within `T` seconds of the write
before it. -/
inductive History (T : ℕ) (sid : String) (d₀ : SessionData) :
    List Event → SessionData → ℕ → Prop
  | created {tr : List Event} {n : ℕ} (hlogin : d₀.lastActivity = d₀.loginTime)
      (hwrite : d₀.loginTime ≤ n) :
      History T sid d₀ (.executed (.createSetSession sid d₀) n :: tr) d₀ n
  | renewed {tr ev : List Event} {d : SessionData} {m n k : ℕ} (h : History T sid d₀ tr d n)
      (hread : n ≤ m) (hlive : m < n + 1000 * T) (hwrite : m ≤ k) :
      History T sid d₀ (.executed (.extendSetSession sid { d with lastActivity := m }) k ::
        (ev ++ .executed (.extendGet sid) m :: tr)) { d with lastActivity := m } k
  | later {tr : List Event} {d : SessionData} {n : ℕ} (e : Event) (h : History T sid d₀ tr d n) :
      History T sid d₀ (e :: tr) d n

/-- A call has read the session while it was live, and is to write `d`. -/
inductive Reading (T : ℕ) (sid : String) (tr : List Event) (now : ℕ) : SessionData → Prop
  | read {tr' ev : List Event} {d₀ d : SessionData} {m n : ℕ} (h : History T sid d₀ tr' d n)
      (hread : n ≤ m) (hlive : m < n + 1000 * T) (hnow : m ≤ now)
      (htr : tr = ev ++ .executed (.extendGet sid) m :: tr') :
      Reading T sid tr now { d with lastActivity := m }

/-- Only the last activity has moved since the creation, and it lies between the login and the last
write. No other creation has used the id. -/
structure Genuine (T : ℕ) (tr : List Event) (sid : String) (d₀ d : SessionData) (n : ℕ) : Prop where
  history : History T sid d₀ tr d n
  same : d = { d₀ with lastActivity := d.lastActivity }
  login_le : d₀.loginTime ≤ d.lastActivity
  le_write : d.lastActivity ≤ n
  only : ∀ {d₁ k}, .executed (.createSetSession sid d₁) k ∈ tr → d₁ = d₀

/-- What the events so far tell of the store. -/
structure Recorded (T : ℕ) (tr : List Event) (s : State) : Prop where
  stored : ∀ {sid d x}, s.redis.store (sessionKey sid) = some ⟨.data d, x⟩ →
    ∃ d₀ n, History T sid d₀ tr d n ∧ x = n + 1000 * T ∧ n ≤ s.redis.now
  owned : ∀ {sid d n}, .executed (.createSetSession sid d) n ∈ tr → s.owner sid ≠ none
  once : ∀ {sid d d' n n'}, .executed (.createSetSession sid d) n ∈ tr →
    .executed (.createSetSession sid d') n' ∈ tr → d = d'
  admitted : ∀ {sid d k}, .executed (.extendSetTracking sid d) k ∈ tr →
    ∃ d₀ n, History T sid d₀ tr d n ∧ n ≤ k

/-- What the events so far tell of the data that a call holds. -/
def Holding (T : ℕ) (tr : List Event) (s : State) (t : Task) : Prop :=
  match t.call with
  | .createSetSession _ d => d.lastActivity = d.loginTime ∧ d.loginTime ≤ s.redis.now
  | .extendSetSession sid d => Reading T sid tr s.redis.now d
  | .extendSetTracking sid d => ∃ d₀ n, History T sid d₀ tr d n ∧ n ≤ s.redis.now
  | _ => True

variable {T : ℕ} {s s' : State} {t : Task} {sid : String} {d d₀ d₁ : SessionData} {n k : ℕ}
  {reply : Batch} {e : Event} {tr : List Event} {p q : Pool State Task}

theorem History.mem (h : History T sid d₀ tr d n) :
    ∃ k, .executed (.createSetSession sid d₀) k ∈ tr := by
  induction h with
  | @created tr n hlogin hwrite => exact ⟨n, List.mem_cons_self⟩
  | renewed h _ _ _ ih =>
    obtain ⟨k, hk⟩ := ih
    exact ⟨k, List.mem_cons_of_mem _ (List.mem_append_right _ (List.mem_cons_of_mem _ hk))⟩
  | later e h ih =>
    obtain ⟨k, hk⟩ := ih
    exact ⟨k, List.mem_cons_of_mem _ hk⟩

theorem History.same (h : History T sid d₀ tr d n) :
    d = { d₀ with lastActivity := d.lastActivity } := by
  induction h with
  | created => rfl
  | renewed h _ _ _ ih => rw [ih]
  | later e h ih => exact ih

theorem History.bounds (h : History T sid d₀ tr d n) :
    d₀.loginTime ≤ d.lastActivity ∧ d.lastActivity ≤ n := by
  induction h with
  | created hlogin hwrite =>
    rw [hlogin]
    exact ⟨le_rfl, hwrite⟩
  | renewed h hread hlive hwrite ih =>
    refine ⟨?_, hwrite⟩
    have hlogin := ih.1.trans ih.2
    exact hlogin.trans hread
  | later e h ih => exact ih

theorem Recorded.genuine (h : Recorded T tr s) (hist : History T sid d₀ tr d n) :
    Genuine T tr sid d₀ d n where
  history := hist
  same := hist.same
  login_le := hist.bounds.1
  le_write := hist.bounds.2
  only hmem := by
    obtain ⟨k, hk⟩ := hist.mem
    exact h.once hmem hk

/-! ### What one step keeps -/

theorem now_le_of_moves (h : (machine T).Moves s e s') : s.redis.now ≤ s'.redis.now := by
  cases h with
  | env h =>
    obtain ⟨d, -, rfl⟩ := h
    exact Nat.le_add_right _ _
  | spawn h =>
    obtain ⟨c, -, -, rfl, -⟩ := h
    rw [draw_redis]
  | exec h =>
    cases h with
    | command reply _ => simp [State.record]
    | fault => exact le_rfl

theorem Reading.later (h : Reading T sid tr k d) (e : Event) (hle : k ≤ n) :
    Reading T sid (e :: tr) n d := by
  cases h with
  | @read tr' ev d₀ d m n' hist hread hlive hnow htr =>
    have hlonger : e :: tr = (e :: ev) ++ .executed (.extendGet sid) m :: tr' := by rw [htr]; rfl
    exact .read hist hread hlive (hnow.trans hle) hlonger

theorem Holding.keep (hs : (machine T).Moves s e s') (h : Holding T tr s t) :
    Holding T (e :: tr) s' ((machine T).observe s' t) := by
  have hnow := now_le_of_moves hs
  obtain ⟨call, owed, victims⟩ := t
  cases call with
  | createSetSession sid d => exact ⟨h.1, h.2.trans hnow⟩
  | extendSetSession sid d => exact Reading.later h e hnow
  | extendSetTracking sid d =>
    obtain ⟨d₀, n, hist, hn⟩ := h
    exact ⟨d₀, n, hist.later e, hn.trans hnow⟩
  | _ => trivial

/-- What an event that creates nothing and marks nothing as renewed leaves of the records. -/
theorem Recorded.later (h : Recorded T tr s) (hredis : s'.redis.store = s.redis.store)
    (hnow : s.redis.now ≤ s'.redis.now) (howner : s'.owner = s.owner)
    (he : ∀ c n, e ≠ .executed c n) : Recorded T (e :: tr) s' where
  stored hstore := by
    rw [hredis] at hstore
    obtain ⟨d₀, n, hist, hx, hn⟩ := h.stored hstore
    exact ⟨d₀, n, hist.later e, hx, hn.trans hnow⟩
  owned hmem := by
    rw [howner]
    exact h.owned ((List.mem_cons.mp hmem).resolve_left fun heq => he _ _ heq.symm)
  once hmem hmem' :=
    h.once ((List.mem_cons.mp hmem).resolve_left fun heq => he _ _ heq.symm)
      ((List.mem_cons.mp hmem').resolve_left fun heq => he _ _ heq.symm)
  admitted hmem := by
    obtain ⟨d₀, n, hist, hn⟩ :=
      h.admitted ((List.mem_cons.mp hmem).resolve_left fun heq => he _ _ heq.symm)
    exact ⟨d₀, n, hist.later e, hn⟩

/-- The write of a session's data is a creation, or the renewal that a read has led to. -/
theorem history_of_saves (h : Holding T tr s t) (hsave : t.call.saves = some (sid, d)) :
    ∃ d₀, History T sid d₀ (.executed t.call s.redis.now :: tr) d s.redis.now := by
  obtain ⟨call, owed, victims⟩ := t
  cases call with
  | createSetSession v d' =>
    cases hsave
    exact ⟨d, .created h.1 h.2⟩
  | extendSetSession v d' =>
    cases hsave
    change Reading T sid tr s.redis.now d at h
    cases h with
    | @read tr' ev d₀ d m n hist hread hlive hnow htr =>
      subst htr
      exact ⟨d₀, .renewed hist hread hlive hnow⟩
  | _ => cases hsave

/-- What a read finds has a history that is still fresh. -/
theorem Recorded.read (h : Recorded T tr s) (hget : s.redis.getSession sid = some d) :
    ∃ d₀ n, History T sid d₀ tr d n ∧ n ≤ s.redis.now ∧ s.redis.now < n + 1000 * T := by
  unfold Redis.getSession Redis.sessionAt at hget
  cases hentry : s.redis.store.get s.redis.now (sessionKey sid) with
  | none => simp [hentry] at hget
  | some r =>
    obtain ⟨x, hx, hlt, rfl⟩ := Store.get_eq_some.mp hentry
    obtain ⟨v, expiresAt⟩ := x
    cases v with
    | tracked => simp [hentry] at hget
    | data d' =>
      obtain rfl : d' = d := by simpa [hentry] using hget
      obtain ⟨d₀, n, hist, rfl, hn⟩ := h.stored hx
      exact ⟨d₀, n, hist, hn, hlt⟩

theorem Recorded.command (h : Recorded T tr s) (hok : s.TaskOk t) (hheld : Holding T tr s t)
    (reply : Batch) :
    Recorded T (.executed t.call s.redis.now :: tr)
      (s.record t (t.call.next T s.redis reply).1 (t.call.next T s.redis reply).2) where
  stored {sid d x} hstore := by
    change (t.call.next T s.redis reply).1.store (sessionKey sid) = _ at hstore
    have hnow : (t.call.next T s.redis reply).1.now = s.redis.now := next_now _ _ _
    obtain ⟨d', hsave, hwritten⟩ | ⟨_, hnone⟩ | ⟨_, _, hkept⟩ :=
      session_next (T := T) reply hok.call sid
    · rw [hwritten] at hstore
      cases hstore
      obtain ⟨d₀, hist⟩ := history_of_saves hheld hsave
      exact ⟨d₀, _, hist, rfl, hnow.ge⟩
    · rw [hnone] at hstore
      cases hstore
    · obtain ⟨d₀, n, hist, hx, hn⟩ := h.stored (hkept ▸ hstore)
      exact ⟨d₀, n, hist.later _, hx, hn.trans hnow.ge⟩
  owned {sid d n} hmem := by
    obtain heq | hmem := List.mem_cons.mp hmem
    · obtain ⟨call, owed, victims⟩ := t
      cases heq
      simp [State.record]
    · obtain ⟨u, hu⟩ := Option.ne_none_iff_exists'.mp (h.owned hmem)
      rw [owner_record hok.call hu]
      exact Option.some_ne_none u
  once {sid d d' n n'} hmem hmem' := by
    -- the id of a new session has no owner, so that no earlier event has created it
    have hnew : ∀ {d d' n n'}, Event.executed (.createSetSession sid d) n =
        .executed t.call s.redis.now → .executed (.createSetSession sid d') n' ∉ tr := by
      intro d d' n n' heq hold
      have hcall := hok.call
      obtain ⟨call, owed, victims⟩ := t
      cases heq
      exact h.owned hold hcall.1
    obtain heq | hold := List.mem_cons.mp hmem
    · obtain heq' | hold' := List.mem_cons.mp hmem'
      · rw [← heq'] at heq
        cases heq
        rfl
      · exact absurd hold' (hnew heq)
    · obtain heq' | hold' := List.mem_cons.mp hmem'
      · exact absurd hold (hnew heq')
      · exact h.once hold hold'
  admitted {sid d k} hmem := by
    obtain heq | hmem := List.mem_cons.mp hmem
    · obtain ⟨call, owed, victims⟩ := t
      cases heq
      obtain ⟨d₀, n, hist, hn⟩ := hheld
      exact ⟨d₀, n, hist.later _, hn⟩
    · obtain ⟨d₀, n, hist, hn⟩ := h.admitted hmem
      exact ⟨d₀, n, hist.later _, hn⟩

/-- A call that goes on holds what it has just read or written. -/
theorem holding_next {w : Task} (h : Recorded T tr s) (hheld : Holding T tr s t)
    (hnext : (t.call.next T s.redis reply).2 = .inl w.call) (hnow : s'.redis.now = s.redis.now) :
    Holding T (.executed t.call s.redis.now :: tr) s' w := by
  have hkeys : ∀ {u next : String} {keys : List String}, nextKey u next keys = .inl w.call →
      Holding T (.executed t.call s.redis.now :: tr) s' w := by
    intro u next keys hkey
    obtain ⟨call, owed, victims⟩ := w
    obtain ⟨_, _, rfl⟩ | ⟨k, rest, _, rfl⟩ := nextKey_eq hkey <;> trivial
  obtain ⟨wcall, wowed, wvictims⟩ := w
  obtain ⟨call, owed, victims⟩ := t
  cases call with
  | guardGet v | destroyGet v =>
    simp only [Call.next] at hnext
    cases hget : s.redis.getSession v <;> rw [hget] at hnext <;> cases hnext
    trivial
  | extendGet v =>
    simp only [Call.next] at hnext
    cases hget : s.redis.getSession v with
    | none =>
      rw [hget] at hnext
      cases hnext
    | some d =>
      rw [hget] at hnext
      cases hnext
      obtain ⟨d₀, n, hist, hn, hlive⟩ := h.read hget
      exact .read hist hn hlive hnow.ge (List.nil_append _).symm
  | extendSetSession v d =>
    have hsave : (Call.extendSetSession v d).saves = some (v, d) := rfl
    obtain ⟨d₀, hist⟩ := history_of_saves hheld hsave
    cases hnext
    exact ⟨d₀, _, hist, hnow.ge⟩
  | invalidateScan | invalidateDelTracking => exact hkeys hnext
  | createSetTracking | extendSetTracking | destroyDelTracking => cases hnext
  | createSetSession | destroyDelSession | invalidateDelSession =>
    cases hnext
    trivial

theorem chronicle (T : ℕ) :
    Pool.Chronicle (machine T) (WellFormed T) State.TaskOk (Recorded T) (Holding T) where
  keep hs h := h.keep hs
  env := by
    rintro tr s e s' - h ⟨d, rfl, rfl⟩
    exact h.later rfl (Nat.le_add_right _ _) rfl fun c n => Event.noConfusion
  spawn := by
    rintro tr s e s' t - h ⟨c, hopens, rfl, rfl, rfl⟩
    refine ⟨h.later (by rw [draw_redis]) (by rw [draw_redis]) (draw_owner c)
      fun c n => Event.noConfusion, ?_⟩
    cases hopens with
    | create =>
      refine ⟨rfl, ?_⟩
      rw [draw_redis]
    | _ => trivial
  exec := by
    rintro tr s t e s' t' - hok h hheld hexec
    cases hexec with
    | command reply hreply =>
      refine ⟨h.command hok hheld reply, fun w hw => ?_⟩
      exact holding_next h hheld (w := (machine T).observe _ w) (Task.resume_eq hw).1 (next_now _ _ _)
    | fault =>
      exact ⟨h.later rfl le_rfl rfl fun c n => Event.noConfusion, fun w hw => by cases hw⟩

/-- The calls of the service in any order, with any of their commands failing. -/
abbrev Steps (T : ℕ) : Pool State Task → Event → Pool State Task → Prop :=
  Pool.Step (machine T) fun _ => True

theorem holds_of_run (h : Run (Steps T) (Pool.start .initial) tr p) :
    Pool.Holds (WellFormed T) State.TaskOk Apart p :=
  (Pool.holds_start (wellFormed_initial T)).run (outline T) h

theorem recorded_initial (T : ℕ) : Recorded T [] .initial where
  stored h := by cases h
  owned h := by cases h
  once h := by cases h
  admitted h := by cases h

/-- Every session that is found, and every session that a request is let through with, is what one
creation has stored and each use has kept alive. -/
theorem genuine_of_run (h : Run (Steps T) (Pool.start .initial) tr p) :
    (∀ sid d, p.shared.redis.getSession sid = some d →
        ∃ d₀ n, Genuine T tr sid d₀ d n ∧ n ≤ p.shared.redis.now ∧
          p.shared.redis.now < n + 1000 * T) ∧
      ∀ sid d k, .executed (.extendSetTracking sid d) k ∈ tr →
        ∃ d₀ n, Genuine T tr sid d₀ d n ∧ n ≤ k := by
  have htells : Pool.Tells (Recorded T) (Holding T) (tr ++ []) p :=
    (Pool.tells_start (recorded_initial T)).run (chronicle T) (outline T)
      (Pool.holds_start (wellFormed_initial T)) h
  rw [List.append_nil] at htells
  have hrec := htells.shared
  refine ⟨fun sid d hget => ?_, fun sid d k hmem => ?_⟩
  · obtain ⟨d₀, n, hist, hn, hlive⟩ := hrec.read hget
    exact ⟨d₀, n, hrec.genuine hist, hn, hlive⟩
  · obtain ⟨d₀, n, hist, hn⟩ := hrec.admitted hmem
    exact ⟨d₀, n, hrec.genuine hist, hn⟩

/-- The visitor comes back after five seconds; the write takes a while. -/
def visit : List Move :=
  login ++ [.tick 5000, .start 1 (canActivate visitorSession), .command 1 ⟨"0", []⟩,
    .command 1 ⟨"0", []⟩, .tick 20, .command 1 ⟨"0", []⟩, .command 1 ⟨"0", []⟩]

theorem legal_visit :
    LegalScript 60 (fun _ _ _ => True) (fun _ => True) (fun _ => True) (Pool.start .initial)
      visit :=
  ⟨⟨rfl, trivial, opens_visitor⟩, trivial, ⟨_, rfl, trivial, trivial⟩, trivial,
    ⟨_, rfl, trivial, trivial⟩, trivial, trivial, trivial, ⟨rfl, trivial, .activate _⟩, trivial,
    ⟨_, rfl, trivial, trivial⟩, trivial, ⟨_, rfl, trivial, trivial⟩, trivial, trivial, trivial,
    ⟨_, rfl, trivial, trivial⟩, trivial, ⟨_, rfl, trivial, trivial⟩, trivial, trivial⟩

theorem genuine_of_run_visit :
    let p := visit.foldl (move 60) (Pool.start .initial)
    (p.shared.redis.getSession visitorSession).map SessionData.lastActivity = some 5000 ∧
      ∃ tr, (∀ sid d, p.shared.redis.getSession sid = some d →
          ∃ d₀ n, Genuine 60 tr sid d₀ d n ∧ n ≤ p.shared.redis.now ∧
            p.shared.redis.now < n + 1000 * 60) ∧
        ∀ sid d k, .executed (.extendSetTracking sid d) k ∈ tr →
          ∃ d₀ n, Genuine 60 tr sid d₀ d n ∧ n ≤ k := by
  obtain ⟨tr, hrun⟩ := run_of_script legal_visit
  exact ⟨rfl, tr, genuine_of_run (hrun.mono fun hs => hs.1.of_restrict)⟩

/-! ### A session that has expired -/

/-- The last write of a history is an event of it. -/
theorem History.write_mem (h : History T sid d₀ tr d n) :
    ∃ c, .executed c n ∈ tr ∧ c.saves = some (sid, d) := by
  induction h with
  | created => exact ⟨_, List.mem_cons_self, rfl⟩
  | renewed => exact ⟨_, List.mem_cons_self, rfl⟩
  | later e h ih =>
    obtain ⟨c, hc, hsave⟩ := ih
    exact ⟨c, List.mem_cons_of_mem _ hc, hsave⟩

/-- The session has been created and is gone, and nobody has written it since. -/
structure Lapsed (sid : String) (ev : List Event) (s : State) : Prop where
  drawn : sid ∈ s.drawn
  dead : s.redis.getSession sid = none
  unwritten : ∀ {c n d}, .executed c n ∈ ev → c.saves ≠ some (sid, d)

/-- The call is not about to write the session. -/
def Abstains (sid : String) (_ : List Event) (_ : State) (t : Task) : Prop :=
  ∀ d, t.call.saves ≠ some (sid, d)

theorem Lapsed.later (h : Lapsed sid tr s) (hdrawn : s.drawn ⊆ s'.drawn)
    (hstore : s'.redis.store = s.redis.store) (hnow : s.redis.now ≤ s'.redis.now)
    (he : ∀ c n, e ≠ .executed c n) : Lapsed sid (e :: tr) s' where
  drawn := hdrawn h.drawn
  dead := by
    cases hget : s'.redis.getSession sid with
    | none => rfl
    | some d => rw [← h.dead, Redis.getSession_of_later (congrFun hstore _) hnow hget]
  unwritten hmem := h.unwritten ((List.mem_cons.mp hmem).resolve_left fun heq => he _ _ heq.symm)

/-- A write of a session follows a read that has found it. -/
theorem reads_of_saves {r : Redis} {c c' : Call} (h : (c.next T r reply).2 = .inl c')
    (hsave : c'.saves = some (sid, d)) : (r.getSession sid).isSome := by
  have hdrawing := drawing_next h
  cases c' with
  | createSetSession v d' => cases hdrawing
  | extendSetSession v d' =>
    cases hsave
    exact (extends_next h).2
  | _ => cases hsave

theorem lapsed_chronicle (T : ℕ) (sid : String) :
    Pool.Chronicle (machine T) (WellFormed T) State.TaskOk (Lapsed sid) (Abstains sid) where
  keep _ h := h
  env := by
    rintro tr s e s' - h ⟨d, rfl, rfl⟩
    exact h.later subset_rfl rfl (Nat.le_add_right _ _) fun c n => Event.noConfusion
  spawn := by
    rintro tr s e s' t - h ⟨c, hopens, rfl, rfl, rfl⟩
    refine ⟨h.later (drawn_subset_draw c) (by rw [draw_redis]) (by rw [draw_redis])
      fun c n => Event.noConfusion, fun d hsave => ?_⟩
    cases hopens with
    | create _ _ hnew =>
      cases hsave
      exact hnew h.drawn
    | _ => cases hsave
  exec := by
    rintro tr s t e s' t' - hok h habstains hexec
    cases hexec with
    | command reply hreply =>
      refine ⟨⟨h.drawn, ?_, fun hmem hsave => ?_⟩, fun w hw d hsave => ?_⟩
      · obtain ⟨d, hsave, _⟩ | ⟨_, hnone⟩ | ⟨_, _, hkept⟩ :=
          session_next (T := T) reply hok.call sid
        · exact absurd hsave (habstains d)
        · exact sessionAt_of_none hnone
        · exact (Redis.getSession_congr (next_now _ _ _) hkept).trans h.dead
      · obtain heq | hmem := List.mem_cons.mp hmem
        · cases heq
          exact habstains _ hsave
        · exact h.unwritten hmem hsave
      · have hlive := reads_of_saves (Task.resume_eq hw).1 hsave
        rw [h.dead] at hlive
        cases hlive
    | fault =>
      exact ⟨h.later subset_rfl rfl le_rfl fun c n => Event.noConfusion, fun w hw => by cases hw⟩

/-- A session that has been revoked, or not written for its time to live, is gone for good once no
call is about to write it: no run of any calls, whichever of them fail, brings it back. -/
theorem final_of_lapsed {ev : List Event} (h : Run (Steps T) (Pool.start .initial) tr p)
    (hdrawn : sid ∈ p.shared.drawn)
    (hdead : p.shared.redis.getSession sid = none ∨
      ∀ c n d, .executed c n ∈ tr → c.saves = some (sid, d) →
        n + 1000 * T ≤ p.shared.redis.now)
    (hidle : ∀ i t d, p.threads i = some t → t.call.saves ≠ some (sid, d))
    (hrun : Run (Steps T) p ev q) :
    q.shared.redis.getSession sid = none ∧
      ∀ c n d, .executed c n ∈ ev → c.saves ≠ some (sid, d) := by
  have hnone : p.shared.redis.getSession sid = none := by
    obtain hnone | hstale := hdead
    · exact hnone
    cases hget : p.shared.redis.getSession sid with
    | none => rfl
    | some d =>
      obtain ⟨d₀, n, hgen, _, hlive⟩ := (genuine_of_run h).1 sid d hget
      obtain ⟨c, hc, hsave⟩ := hgen.history.write_mem
      have hle := hstale c n d hc hsave
      omega
  have hstart : Pool.Tells (Lapsed sid) (Abstains sid) [] p :=
    ⟨⟨hdrawn, hnone, fun hmem => absurd hmem List.not_mem_nil⟩, fun ht d => hidle _ _ d ht⟩
  have hend := hstart.run (lapsed_chronicle T sid) (outline T) (holds_of_run h) hrun
  rw [List.append_nil] at hend
  exact ⟨hend.shared.dead, fun c n d hmem => hend.shared.unwritten hmem⟩

/-- The session of a login runs out. -/
def absence : List Move := login ++ [.tick 60000]

/-- The visitor comes back too late. -/
def lateVisit : List Move := [.start 1 (canActivate visitorSession), .command 1 ⟨"0", []⟩]

theorem final_of_lapsed_lateVisit :
    let p := absence.foldl (move 60) (Pool.start .initial)
    let q := lateVisit.foldl (move 60) p
    q.shared.redis.getSession visitorSession = none ∧
      ∃ ev, Run (Steps 60) p ev q ∧
        ∀ c n d, .executed c n ∈ ev → c.saves ≠ some (visitorSession, d) := by
  have hlegal : LegalScript 60 (fun _ _ _ => True) (fun _ => True) (fun _ => True)
      (Pool.start .initial) absence :=
    ⟨⟨rfl, trivial, opens_visitor⟩, trivial, ⟨_, rfl, trivial, trivial⟩, trivial,
      ⟨_, rfl, trivial, trivial⟩, trivial, trivial, trivial, trivial⟩
  obtain ⟨tr, hrun⟩ := run_of_script hlegal
  have hlate : LegalScript 60 (fun _ _ _ => True) (fun _ => True) (fun _ => True)
      (absence.foldl (move 60) (Pool.start .initial)) lateVisit :=
    ⟨⟨rfl, trivial, .activate _⟩, trivial, ⟨_, rfl, trivial, trivial⟩, trivial, trivial⟩
  obtain ⟨ev, hrun'⟩ := run_of_script hlate
  have hidle : ∀ i, (absence.foldl (move 60) (Pool.start .initial)).threads i = none := by
    rintro (_ | i) <;> rfl
  have hdrawn : visitorSession ∈
      (absence.foldl (move 60) (Pool.start .initial)).shared.drawn := Or.inl rfl
  have hsteps := hrun'.mono fun hs => hs.1.of_restrict
  have hfinal := final_of_lapsed (hrun.mono fun hs => hs.1.of_restrict) hdrawn (Or.inl rfl)
    (fun i t d ht => by rw [hidle i] at ht; cases ht) hsteps
  exact ⟨hfinal.1, ev, hsteps, hfinal.2⟩

end IotPanel.Session
