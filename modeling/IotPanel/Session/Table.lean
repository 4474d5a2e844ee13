import IotPanel.Session.Invalidation
import IotPanel.Session.Tracking

/-!
# The session store refines a table of sessions

What the session service is for: a table with a row for each session that has been created
and not destroyed or invalidated, holding the session's user and the time of its last write.
When Redis commands do not fail, and calls run one after the other, the store answers as the table does.
-/

namespace IotPanel.Session

structure Row where
  userId : String
  lastWrite : ℕ

def Table := String → Option Row

namespace Table

def empty : Table := fun _ => none

def create (tb : Table) (sid u : String) (now : ℕ) : Table :=
  fun v => if v = sid then some ⟨u, now⟩ else tb v

/-- A write to a session that has a row renews it. -/
def touch (tb : Table) (sid : String) (now : ℕ) : Table :=
  fun v => if v = sid then (tb v).map fun row => { row with lastWrite := now } else tb v

def destroy (tb : Table) (sid : String) : Table := fun v => if v = sid then none else tb v

def invalidate (tb : Table) (u : String) : Table :=
  fun v => (tb v).filter fun row => row.userId ≠ u

/-- The user whose session `sid` is at time `t`. A row counts for `timeout` seconds. -/
def userAt (tb : Table) (timeout t : ℕ) (sid : String) : Option String :=
  match tb sid with
  | some row => if t < row.lastWrite + 1000 * timeout then some row.userId else none
  | none => none

/-- What an event of the service does to the table. A revoking call takes effect at its start. -/
def apply (tb : Table) : Event → Table
  | .executed (.createSetSession sid d) now => tb.create sid d.userId now
  | .executed (.extendSetSession sid _) now => tb.touch sid now
  | .start (.destroyGet sid) => tb.destroy sid
  | .start (.invalidateScan u _) => tb.invalidate u
  | _ => tb

end Table

/-- The table after a trace. -/
def tableOf (tr : List Event) : Table := tr.foldr (fun e tb => tb.apply e) Table.empty

/-- Redis executes every command. -/
def Reliable (_ : State) (_ : Task) (e : Event) : Prop := ∀ c, e ≠ .failed c

/-- The session service over a Redis that does not fail. -/
def reliable (T : ℕ) : Semantics State Task Event := (machine T).restrict Reliable

/-! ### The simulation -/

/-- From now on the store and the table agree on the session, as long as nobody writes. -/
def Agree (T : ℕ) (r : Redis) (tb : Table) (sid : String) : Prop :=
  ∀ t, r.now ≤ t → (r.sessionAt t sid).map SessionData.userId = tb.userAt T t sid

/-- The call that runs is going to delete the session, which has left the table already. A live
session of an invalidated user still has its tracking key among the aims. -/
def Doomed (s : State) (t : Task) (sid : String) : Prop :=
  (t.call = .destroyGet sid ∨ ∃ d, t.call = .destroyDelSession sid d) ∨
    ∃ u, t.call.invalidates = some u ∧ s.owner sid = some u ∧
      ((s.redis.getSession sid).isSome → trackingKey u sid ∈ t.aims)

structure Sim (T : ℕ) (tr : List Event) (s : State) (t : Option Task) : Prop where
  agree : ∀ sid, Agree T s.redis (tableOf tr) sid ∨
    (tableOf tr sid = none ∧ ∃ w ∈ t, Doomed s w sid)
  rows : ∀ {sid row}, tableOf tr sid = some row → s.owner sid = some row.userId
  destroyed : ∀ {w sid d}, w ∈ t →
    w.call = .destroyGet sid ∨ w.call = .destroyDelSession sid d → tableOf tr sid = none
  invalidated : ∀ {w u sid}, w ∈ t → w.call.invalidates = some u → s.owner sid = some u →
    tableOf tr sid = none
  extending : ∀ {w sid d}, w ∈ t → w.call = .extendSetSession sid d → (tableOf tr sid).isSome

variable {T : ℕ} {s : State} {t w : Task} {u k sid : String} {reply : Batch} {c : Call}
  {e : Event} {tr : List Event} {p q : Pool State Task} {r r' : Redis} {tb tb' : Table}

theorem Agree.congr (h : Agree T r tb sid) (hnow : r.now ≤ r'.now)
    (hstore : r'.store (sessionKey sid) = r.store (sessionKey sid)) (htb : tb' sid = tb sid) :
    Agree T r' tb' sid := by
  intro t ht
  have := h t (hnow.trans ht)
  simpa [Redis.sessionAt, Store.get, Table.userAt, hstore, htb] using this

theorem sessionAt_of_none {n : ℕ} (h : r.store (sessionKey sid) = none) :
    r.sessionAt n sid = none := by
  simp [Redis.sessionAt, Store.get, h]

/-- What is not live now is not live later. -/
theorem sessionAt_of_not_live {n : ℕ} (h : r.getSession sid = none) (hn : r.now ≤ n) :
    r.sessionAt n sid = none := by
  unfold Redis.getSession Redis.sessionAt at h
  unfold Redis.sessionAt
  cases hget : r.store.get n (sessionKey sid) with
  | none => rfl
  | some v =>
    rw [Store.get_of_le hn hget] at h
    cases v with
    | data d => simp at h
    | tracked => rfl

theorem agree_of_not_live (h : r.getSession sid = none) (htb : tb sid = none) :
    Agree T r tb sid := by
  intro n hn
  simp [sessionAt_of_not_live h hn, Table.userAt, htb]

/-- After a session's data has been written the table agrees if it has just been renewed. -/
theorem agree_of_written {d : SessionData} (htb : tb sid = some ⟨d.userId, r.now⟩)
    (h : r.store (sessionKey sid) = some ⟨.data d, r.now + 1000 * T⟩) : Agree T r tb sid := by
  intro n _
  by_cases hlt : n < r.now + 1000 * T
  · simp [Redis.sessionAt, Store.get, Table.userAt, h, htb, hlt]
  · simp [Redis.sessionAt, Store.get, Table.userAt, h, htb, hlt]

/-- A live session of which the tracking key covers it has a tracking key that is present. -/
theorem live_of_covered (hcov : Covered r u sid) (h : (r.getSession sid).isSome) :
    trackingKey u sid ∈ r.liveKeys := by
  refine hcov.outlives r.now le_rfl ?_
  unfold Redis.getSession Redis.sessionAt at h
  cases hget : r.store.get r.now (sessionKey sid) with
  | none => simp [hget] at h
  | some v => rfl

/-- A key that is present stays among the aims when the task is refreshed. -/
theorem aims_observe (hk : k ∈ t.aims) (hlive : k ∈ s.redis.liveKeys) :
    k ∈ ((machine T).observe s t).aims := by
  obtain hk | hk := hk
  · exact .inl ⟨hk, hlive⟩
  · exact .inr hk

theorem saves_of_invalidates (h : c.invalidates = some u) : c.saves = none := by
  cases c with
  | createSetSession | extendSetSession => cases h
  | _ => rfl

theorem tracks_of_invalidates (h : c.invalidates = some u) : c.tracks = none := by
  cases c with
  | createSetTracking | extendSetTracking => cases h
  | _ => rfl

/-- Doom outlasts a step that leaves the aims of the call alone or moves them on. -/
theorem Doomed.observe (hcov : CoveredBut s (some ((machine T).observe s t)))
    (h : Doomed s t sid) : Doomed s ((machine T).observe s t) sid := by
  obtain h | ⟨u, hinv, hown, haims⟩ := h
  · exact .inl h
  · refine .inr ⟨u, hinv, hown, fun hlive => ?_⟩
    obtain hcov | ⟨w, hw, htracks⟩ := hcov.covered hown
    · exact aims_observe (haims hlive) (live_of_covered hcov hlive)
    · cases hw
      have hnone : t.call.tracks = none := tracks_of_invalidates hinv
      change t.call.tracks = some sid at htracks
      rw [hnone] at htracks
      cases htracks

theorem isSome_of_tick {d : ℕ} (h : ((r.tick d).getSession sid).isSome) :
    (r.getSession sid).isSome := by
  by_contra hnone
  have := sessionAt_of_not_live (n := r.now + d) (Option.not_isSome_iff_eq_none.mp hnone)
    (Nat.le_add_right _ _)
  change (r.sessionAt (r.now + d) sid).isSome at h
  rw [this] at h
  cases h

theorem Sim.tick {t : Option Task} {d : ℕ} {s' : State}
    (hs' : s' = { s with redis := s.redis.tick d })
    (hcov : CoveredBut s' (t.map ((machine T).observe s'))) (h : Sim T tr s t) :
    Sim T (.tick d :: tr) s' (t.map ((machine T).observe s')) := by
  subst hs'
  constructor
  · intro sid
    obtain hagree | ⟨hnone, w, rfl, hdoom⟩ := h.agree sid
    · exact .inl (hagree.congr (Nat.le_add_right _ _) rfl rfl)
    · refine .inr ⟨hnone, _, rfl, Doomed.observe hcov ?_⟩
      refine hdoom.imp_right ?_
      rintro ⟨u, hinv, hown, haims⟩
      exact ⟨u, hinv, hown, fun hlive => haims (isSome_of_tick hlive)⟩
  · exact h.rows
  · intro w sid d hw hcall
    obtain ⟨v, rfl, rfl⟩ := Option.map_eq_some_iff.mp hw
    exact h.destroyed rfl hcall
  · intro w u sid hw hinv
    obtain ⟨v, rfl, rfl⟩ := Option.map_eq_some_iff.mp hw
    exact h.invalidated rfl hinv
  · intro w sid d hw hcall
    obtain ⟨v, rfl, rfl⟩ := Option.map_eq_some_iff.mp hw
    exact h.extending rfl hcall

/-- A call that opens leaves the table alone unless it revokes. -/
theorem apply_start_of_ne (hd : c ≠ .destroyGet sid)
    (hi : ∀ row, tb sid = some row → c.invalidates ≠ some row.userId) :
    tb.apply (.start c) sid = tb sid := by
  cases c with
  | destroyGet v =>
    have hv : sid ≠ v := by
      rintro rfl
      exact hd rfl
    simp [Table.apply, Table.destroy, hv]
  | invalidateScan u cursor =>
    cases hrow : tb sid with
    | none => simp [Table.apply, Table.invalidate, hrow]
    | some row =>
      have hne : row.userId ≠ u := fun heq => hi row hrow (by rw [heq]; rfl)
      simp [Table.apply, Table.invalidate, hrow, hne]
  | _ => rfl

theorem apply_start_destroy : tb.apply (.start (.destroyGet sid)) sid = none := by
  simp [Table.apply, Table.destroy]

theorem apply_start_some {row : Row} (h : tb.apply (.start c) sid = some row) :
    tb sid = some row := by
  cases c with
  | destroyGet v =>
    by_cases hv : sid = v
    · subst hv
      rw [apply_start_destroy] at h
      cases h
    · simpa [Table.apply, Table.destroy, hv] using h
  | invalidateScan u cursor => exact (Option.filter_eq_some_iff.mp h).1
  | _ => exact h

theorem apply_start_invalidate (cursor : String)
    (h : ∀ row, tb sid = some row → row.userId = u) :
    tb.apply (.start (.invalidateScan u cursor)) sid = none := by
  cases hrow : tb sid with
  | none => simp [Table.apply, Table.invalidate, hrow]
  | some row => simp [Table.apply, Table.invalidate, hrow, h row hrow]

/-- The scan of an invalidation that begins owes it every live session of the user. -/
theorem owed_at_start {cursor : String} (hcov : Covered s.redis u sid) (hids : IsUuid u)
    (hlive : (s.redis.getSession sid).isSome) :
    trackingKey u sid ∈ ((machine T).observe s (s.task (.invalidateScan u cursor))).aims := by
  have hkey := live_of_covered hcov hlive
  exact .inl ⟨⟨hkey, (matches_trackingKey hids.plain hids.plain sid).mpr rfl⟩, hkey⟩

theorem Sim.start (hopens : Opens s c)
    (hcov : CoveredBut s none) (h : Sim T tr s none) :
    Sim T (.start c :: tr) (s.draw c)
      (some ((machine T).observe (s.draw c) (s.task c))) := by
  have hagree : ∀ sid, Agree T s.redis (tableOf tr) sid := fun sid => by
    obtain hagree | ⟨_, w, hw, _⟩ := h.agree sid
    · exact hagree
    · cases hw
  constructor
  · intro sid
    by_cases hd : c = .destroyGet sid
    · subst hd
      exact .inr ⟨apply_start_destroy, _, rfl, .inl (.inl rfl)⟩
    by_cases hi : ∀ row, tableOf tr sid = some row → c.invalidates ≠ some row.userId
    · exact .inl ((hagree sid).congr (by simp) (by simp) (apply_start_of_ne hd hi))
    · simp only [not_forall, not_not] at hi
      obtain ⟨row, hrow, hinv⟩ := hi
      have hown := h.rows hrow
      cases hopens with
      | @invalidate u hu =>
        cases hinv
        -- the rows go at once, the keys one by one: the call owes all of them
        have hnone : (tableOf tr).apply (.start (invalidateUserSessions row.userId)) sid = none :=
          apply_start_invalidate "0" fun row' hrow' => by
            rw [hrow] at hrow'
            cases hrow'
            rfl
        exact .inr ⟨hnone, _, rfl, .inr ⟨_, rfl, hown, owed_at_start (hcov.between hown) hu⟩⟩
      | _ => cases hinv
  · intro sid row hrow
    rw [draw_owner]
    exact h.rows (apply_start_some hrow)
  · intro w sid d hw hcall
    cases hw
    obtain hcall | hcall := hcall
    · change c = _ at hcall
      subst hcall
      exact apply_start_destroy
    · change c = _ at hcall
      subst hcall
      cases hopens
  · intro w u sid hw hinv hown
    cases hw
    rw [draw_owner] at hown
    cases hopens with
    | invalidate hu =>
      cases hinv
      refine apply_start_invalidate "0" fun row hrow => ?_
      have hrow := h.rows hrow
      rw [hown] at hrow
      cases hrow
      rfl
    | _ => cases hinv
  · intro w sid d hw hcall
    cases hw
    change c = _ at hcall
    subst hcall
    cases hopens

theorem apply_executed_of_ne {n : ℕ} (h : ∀ d, c.saves ≠ some (sid, d)) :
    tb.apply (.executed c n) sid = tb sid := by
  cases c with
  | createSetSession v d | extendSetSession v d =>
    have hv : sid ≠ v := by
      rintro rfl
      exact h d rfl
    simp [Table.apply, Table.create, Table.touch, hv]
  | _ => rfl

/-- A write of the session's data inserts or renews the row. -/
theorem apply_executed_saves {n : ℕ} {d : SessionData} (h : c.saves = some (sid, d)) :
    (c = .createSetSession sid d ∧ tb.apply (.executed c n) sid = some ⟨d.userId, n⟩) ∨
      (c = .extendSetSession sid d ∧ tb.apply (.executed c n) sid =
        (tb sid).map fun row => { row with lastWrite := n }) := by
  cases c with
  | createSetSession v d' =>
    cases h
    exact .inl ⟨rfl, by simp [Table.apply, Table.create]⟩
  | extendSetSession v d' =>
    cases h
    exact .inr ⟨rfl, by simp [Table.apply, Table.touch]⟩
  | _ => cases h

theorem Sim.deletes (hwf : WellFormed T s) (hok : s.TaskOk t) (h : Sim T tr s (some t))
    (hdel : t.call.deletes = some sid) : tableOf tr sid = none := by
  obtain ⟨call, owed, victims⟩ := t
  cases call with
  | destroyDelSession v d =>
    cases hdel
    exact h.destroyed rfl (.inr rfl)
  | invalidateDelSession u key keys next =>
    obtain ⟨v, hv, hown, _⟩ := sessionIdOf_tracks hwf hok.call.2.1
    cases hdel
    exact h.invalidated rfl rfl (hv ▸ hown)
  | _ => cases hdel

/-- The session that a command has just written is in the table with the time of the write. -/
theorem Sim.saves (hok : s.TaskOk t) (h : Sim T tr s (some t)) {d : SessionData} {n : ℕ}
    (hsave : t.call.saves = some (sid, d)) :
    (tableOf tr).apply (.executed t.call n) sid = some ⟨d.userId, n⟩ := by
  obtain ⟨_, happly⟩ | ⟨hcall, happly⟩ := apply_executed_saves hsave
  · exact happly
  · obtain ⟨row, hrow⟩ := Option.isSome_iff_exists.mp (h.extending rfl hcall)
    have hown := h.rows hrow
    have hown' : s.owner sid = some d.userId := by
      have := hok.call
      rw [hcall] at this
      exact this
    have huser : row.userId = d.userId := Option.some.inj (hown.symm.trans hown')
    simp [happly, hrow, huser]

/-- A doomed session that a command leaves alone stays doomed or is not live. -/
theorem Doomed.resume (hwf : WellFormed T s) (hok : s.TaskOk t)
    (hreply : ReplyOk s.redis t reply) (h : Doomed s t sid)
    (hlive : (s.redis.getSession sid).isSome) (hdel : t.call.deletes ≠ some sid) :
    ∃ w, t.resume reply (t.call.next T s.redis reply).2 = some w ∧
      ((∃ d, w.call = .destroyDelSession sid d) ∨
        ∃ u, w.call.invalidates = some u ∧ s.owner sid = some u ∧ trackingKey u sid ∈ w.aims) := by
  obtain (hcall | ⟨d, hcall⟩) | ⟨u, hinv, hown, haims⟩ := h
  · obtain ⟨d, hd⟩ := Option.isSome_iff_exists.mp hlive
    have hnext : (t.call.next T s.redis reply).2 = .inl (.destroyDelSession sid d) := by
      rw [hcall]
      simp [Call.next, hd]
    rw [hnext]
    exact ⟨_, rfl, .inl ⟨d, rfl⟩⟩
  · exact absurd (by rw [hcall]; rfl) hdel
  · obtain ⟨w, hw, hk⟩ := aims_kept hwf hok hreply hinv hown (haims hlive) hdel
    exact ⟨w, hw, .inr ⟨u, (invalidates_next (Task.resume_eq hw).1).trans hinv, hown, hk⟩⟩

/-- A session in the store is in the table if the call that runs is not going to delete it. -/
theorem Sim.row_of_live {w : Task} (h : Sim T tr s (some w)) (hlive : (s.redis.getSession sid).isSome)
    (hdoom : ¬ Doomed s w sid) : (tableOf tr sid).isSome := by
  obtain hagree | ⟨_, v, hv, hdoomed⟩ := h.agree sid
  · have hat := hagree s.redis.now le_rfl
    cases hrow : tableOf tr sid with
    | some row => rfl
    | none =>
      obtain ⟨d, hd⟩ := Option.isSome_iff_exists.mp hlive
      change s.redis.sessionAt s.redis.now sid = some d at hd
      simp [hd, Table.userAt, hrow] at hat
  · cases hv
    exact absurd hdoomed hdoom

/-- After a command the store agrees with the table, or the call goes on to delete. -/
theorem Sim.agree_command (hwf : WellFormed T s) (hok : s.TaskOk t)
    (hreply : ReplyOk s.redis t reply) (h : Sim T tr s (some t)) {s' : State}
    (hs' : s' = s.record t (t.call.next T s.redis reply).1 (t.call.next T s.redis reply).2)
    (hcov : CoveredBut s' ((t.resume reply (t.call.next T s.redis reply).2).map
      ((machine T).observe s'))) (sid : String) :
    Agree T s'.redis (tableOf (.executed t.call s.redis.now :: tr)) sid ∨
      (tableOf (.executed t.call s.redis.now :: tr) sid = none ∧
        ∃ w ∈ (t.resume reply (t.call.next T s.redis reply).2).map ((machine T).observe s'),
          Doomed s' w sid) := by
  have hredis : s'.redis = (t.call.next T s.redis reply).1 := by rw [hs']; rfl
  have hnow : s'.redis.now = s.redis.now := by rw [hredis, next_now]
  obtain ⟨d, hsave, hstore⟩ | ⟨hdel, hstore⟩ | ⟨hne, hnd, hstore⟩ :=
    session_next (T := T) reply hok.call sid
  · -- the command writes the session
    left
    refine agree_of_written (d := d) ?_ (by rw [hredis, hstore, next_now])
    rw [hnow]
    exact h.saves hok hsave
  · -- it deletes the session
    left
    refine agree_of_not_live (sessionAt_of_none (by rw [hredis, hstore])) ?_
    exact (apply_executed_of_ne fun d hsave => by
      rw [deletes_of_saves hsave] at hdel
      cases hdel).trans (h.deletes hwf hok hdel)
  · -- it leaves the entry alone
    have htb : tableOf (.executed t.call s.redis.now :: tr) sid = tableOf tr sid :=
      apply_executed_of_ne hne
    have hget : s'.redis.getSession sid = s.redis.getSession sid :=
      Redis.getSession_congr hnow (by rw [hredis, hstore])
    obtain hagree | ⟨hnone, w, hw, hdoom⟩ := h.agree sid
    · exact .inl (hagree.congr hnow.ge (by rw [hredis, hstore]) htb)
    · cases hw
      cases hlive : s'.redis.getSession sid with
      | none => exact .inl (agree_of_not_live hlive (htb.trans hnone))
      | some d =>
        rw [hget] at hlive
        obtain ⟨w, hw, hwdoom⟩ := hdoom.resume hwf hok hreply (by rw [hlive]; rfl) hnd
        refine .inr ⟨htb.trans hnone, _, by rw [hw]; rfl, ?_⟩
        rw [hw] at hcov
        refine Doomed.observe hcov ?_
        obtain ⟨d, hcall⟩ | ⟨u, hinv, hown, haims⟩ := hwdoom
        · exact .inl (.inr ⟨d, hcall⟩)
        · refine .inr ⟨u, hinv, ?_, fun _ => haims⟩
          rw [hs']
          exact owner_record hok.call hown

theorem owner_of_saves {d : SessionData} {next : Call ⊕ Result} (hcall : s.CallOk t.call)
    (h : t.call.saves = some (sid, d)) : (s.record t r next).owner sid = some d.userId := by
  obtain ⟨call, owed, victims⟩ := t
  cases call with
  | createSetSession v d' =>
    cases h
    simp [State.record]
  | extendSetSession v d' =>
    cases h
    exact hcall
  | _ => cases h

theorem destroys_next {d : SessionData} {c c' : Call} (h : (c.next T r reply).2 = .inl c')
    (hc : c' = .destroyGet sid ∨ c' = .destroyDelSession sid d) : c = .destroyGet sid := by
  have hkeys : ∀ {u next keys}, nextKey u next keys ≠ .inl c' := by
    intro u next keys h
    obtain ⟨_, _, rfl⟩ | ⟨k, rest, _, rfl⟩ := nextKey_eq h <;> simp at hc
  cases c with
  | guardGet v | extendGet v =>
    simp only [Call.next] at h
    cases hget : r.getSession v <;> rw [hget] at h <;> cases h
    simp at hc
  | destroyGet v =>
    simp only [Call.next] at h
    cases hget : r.getSession v <;> rw [hget] at h <;> cases h
    obtain ⟨rfl, _⟩ : v = sid ∧ _ = d := by simpa using hc
    rfl
  | invalidateScan | invalidateDelTracking => exact absurd h hkeys
  | createSetTracking | extendSetTracking | destroyDelTracking => cases h
  | createSetSession | extendSetSession | destroyDelSession | invalidateDelSession =>
    cases h
    simp at hc

theorem extends_next {d : SessionData} {c : Call}
    (h : (c.next T r reply).2 = .inl (.extendSetSession sid d)) :
    c = .extendGet sid ∧ (r.getSession sid).isSome := by
  have hkeys : ∀ {u next keys}, nextKey u next keys ≠ .inl (.extendSetSession sid d) := by
    intro u next keys h
    obtain ⟨_, _, h⟩ | ⟨k, rest, _, h⟩ := nextKey_eq h <;> cases h
  cases c with
  | guardGet v | destroyGet v =>
    simp only [Call.next] at h
    cases hget : r.getSession v <;> rw [hget] at h <;> cases h
  | extendGet v =>
    simp only [Call.next] at h
    cases hget : r.getSession v <;> rw [hget] at h <;> cases h
    exact ⟨rfl, by rw [hget]; rfl⟩
  | invalidateScan | invalidateDelTracking => exact absurd h hkeys
  | createSetSession | createSetTracking | extendSetSession | extendSetTracking
  | destroyDelSession | destroyDelTracking | invalidateDelSession => cases h

theorem Sim.command (hwf : WellFormed T s) (hok : s.TaskOk t)
    (hreply : ReplyOk s.redis t reply) (h : Sim T tr s (some t)) {s' : State}
    (hs' : s' = s.record t (t.call.next T s.redis reply).1 (t.call.next T s.redis reply).2)
    (hcov : CoveredBut s' ((t.resume reply (t.call.next T s.redis reply).2).map
      ((machine T).observe s'))) :
    Sim T (.executed t.call s.redis.now :: tr) s'
      ((t.resume reply (t.call.next T s.redis reply).2).map ((machine T).observe s')) := by
  have hgo : ∀ {w}, w ∈ (t.resume reply (t.call.next T s.redis reply).2).map
      ((machine T).observe s') → (t.call.next T s.redis reply).2 = .inl w.call := by
    intro w hw
    obtain ⟨v, hv, rfl⟩ := Option.map_eq_some_iff.mp hw
    have hnext : _ = Sum.inl v.call := (Task.resume_eq hv).1
    exact hnext
  have hkeep : t.call.saves = none → ∀ sid,
      tableOf (.executed t.call s.redis.now :: tr) sid = tableOf tr sid :=
    fun hc sid => apply_executed_of_ne (by simp [hc])
  refine ⟨h.agree_command hwf hok hreply hs' hcov, ?_, ?_, ?_, ?_⟩
  · -- a row of the table has the owner that the machine has recorded
    intro sid row hrow
    rw [hs']
    by_cases hsave : ∃ d, t.call.saves = some (sid, d)
    · obtain ⟨d, hsave⟩ := hsave
      have hrow' : some ⟨d.userId, s.redis.now⟩ = some row := (h.saves hok hsave).symm.trans hrow
      cases hrow'
      exact owner_of_saves hok.call hsave
    · have hsame : tableOf (.executed t.call s.redis.now :: tr) sid = tableOf tr sid :=
        apply_executed_of_ne (not_exists.mp hsave)
      exact owner_record hok.call (h.rows (hsame ▸ hrow))
  -- what the call is about to delete or extend was settled by its last command
  · intro w sid d hw hcall
    have ht := destroys_next (hgo hw) hcall
    rw [hkeep (by rw [ht]; rfl)]
    exact h.destroyed (d := d) rfl (.inl ht)
  · intro w u sid hw hinv hown
    have ht : t.call.invalidates = some u := (invalidates_next (hgo hw)).symm.trans hinv
    have hsaves : t.call.saves = none := by
      cases hcall : t.call with
      | invalidateScan | invalidateDelSession | invalidateDelTracking => rfl
      | _ =>
        rw [hcall] at ht
        cases ht
    rw [hkeep hsaves]
    rw [hs'] at hown
    exact h.invalidated rfl ht (owner_of_record (t := t) (by simp [hsaves]) hown)
  · intro w sid d hw hcall
    obtain ⟨ht, hlive⟩ := extends_next (hcall ▸ hgo hw)
    rw [hkeep (by rw [ht]; rfl)]
    refine h.row_of_live hlive ?_
    rintro ((hc | ⟨d, hc⟩) | ⟨u, hinv, _⟩)
    · rw [ht] at hc
      cases hc
    · rw [ht] at hc
      cases hc
    · rw [ht] at hinv
      cases hinv

end IotPanel.Session
