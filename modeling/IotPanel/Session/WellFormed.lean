import IotPanel.Session.Machine

/-!
# What every run of the session service keeps

Every session has one owner, its keys are where the service put them, and a running call
knows whose session it works on. What one command does to the two keys of a session is
stated once, at the end; the invariants of the later modules use nothing else of it.
-/

namespace IotPanel.Session

/-- Where the service writes what. -/
inductive Placed (owner : String → Option String) : String → Record → Prop
  | session {sid : String} {d : SessionData} (h : owner sid = some d.userId) :
      Placed owner (sessionKey sid) (.data d)
  | tracking {sid u : String} (h : owner sid = some u) : Placed owner (trackingKey u sid) .tracked

/-- Every session has one owner, and Redis holds only keys of sessions under their owner. -/
structure WellFormed (timeout : ℕ) (s : State) : Prop where
  ids : ∀ {sid u}, s.owner sid = some u → IsUuid sid ∧ IsUuid u ∧ sid ∈ s.drawn
  created : ∀ {sid}, sid ∈ s.created → ∃ u, s.owner sid = some u
  placed : ∀ {k e}, s.redis.store k = some e → Placed s.owner k e.value
  expiry : ∀ {k e}, s.redis.store k = some e → e.expiresAt ≤ s.redis.now + 1000 * timeout

/-- A tracking key of a session of `u`. -/
def State.Tracks (s : State) (u k : String) : Prop :=
  ∃ sid, s.owner sid = some u ∧ k = trackingKey u sid

/-- What a call knows about the session or the user it works on. -/
def State.CallOk (s : State) : Call → Prop
  | .createSetSession sid d =>
    s.owner sid = none ∧ sid ∈ s.drawn ∧ IsUuid sid ∧ IsUuid d.userId
  | .createSetTracking sid d | .extendSetSession sid d | .extendSetTracking sid d
  | .destroyDelSession sid d | .destroyDelTracking sid d => s.owner sid = some d.userId
  | .guardGet _ | .extendGet _ | .destroyGet _ => True
  | .invalidateScan u _ => IsUuid u
  | .invalidateDelSession u key keys _ | .invalidateDelTracking u key keys _ =>
    IsUuid u ∧ s.Tracks u key ∧ ∀ k ∈ keys, s.Tracks u k

/-- The cursor with which an invalidation leaves its current batch. -/
def Call.cursor : Call → Option String
  | .invalidateDelSession _ _ _ next | .invalidateDelTracking _ _ _ next => some next
  | _ => none

structure State.TaskOk (s : State) (t : Task) : Prop where
  call : s.CallOk t.call
  /-- In the last batch nothing is owed any more. -/
  settled : t.call.cursor = some "0" → t.owed = ∅

/-- The id that a call is about to write for the first time. -/
def Call.drawing : Call → Option String
  | .createSetSession sid _ => some sid
  | _ => none

/-- No two calls create the same session. -/
def Apart (t u : Task) : Prop := ∀ sid, t.call.drawing = some sid → u.call.drawing ≠ some sid

variable {T : ℕ} {s s' : State} {t u : Task} {e : Event} {k v sid : String}

theorem Placed.mono {o o' : String → Option String} {r : Record}
    (hle : ∀ {sid u}, o sid = some u → o' sid = some u) (h : Placed o k r) : Placed o' k r := by
  cases h with
  | session h => exact .session (hle h)
  | tracking h => exact .tracking (hle h)

theorem Placed.tracked {o : String → Option String} {d : SessionData}
    (h : Placed o (sessionKey sid) (.data d)) : o sid = some d.userId := by
  generalize hk : sessionKey sid = k' at h
  cases h with
  | session h =>
    rw [sessionKey_inj] at hk
    rwa [hk]

/-- The owners that a step knows stay known. -/
theorem owner_record (hcall : s.CallOk t.call) {r : Redis} {next : Call ⊕ Result}
    (h : s.owner v = some k) : (s.record t r next).owner v = some k := by
  obtain ⟨call, owed, victims⟩ := t
  cases call with
  | createSetSession sid d =>
    have hne : v ≠ sid := by
      rintro rfl
      rw [hcall.1] at h
      cases h
    simpa [State.record, hne] using h
  | _ => exact h

/-- What a call knows survives a step that forgets no owner and draws no id again. -/
theorem State.CallOk.mono {c : Call} (hle : ∀ {sid u}, s.owner sid = some u → s'.owner sid = some u)
    (hdrawn : s.drawn ⊆ s'.drawn)
    (hnew : ∀ sid, c.drawing = some sid → s.owner sid = none → s'.owner sid = none)
    (h : s.CallOk c) : s'.CallOk c := by
  have htracks : ∀ {u k}, s.Tracks u k → s'.Tracks u k := by
    rintro u k ⟨sid, hown, rfl⟩
    exact ⟨sid, hle hown, rfl⟩
  cases c with
  | createSetSession sid d => exact ⟨hnew sid rfl h.1, hdrawn h.2.1, h.2.2⟩
  | createSetTracking | extendSetSession | extendSetTracking | destroyDelSession
  | destroyDelTracking => exact hle h
  | guardGet | extendGet | destroyGet => trivial
  | invalidateScan => exact h
  | invalidateDelSession | invalidateDelTracking =>
    exact ⟨h.1, htracks h.2.1, fun k hk => htracks (h.2.2 k hk)⟩

/-- What the command of a call writes, with `SESSION_TIMEOUT` to live. -/
def Call.writes : Call → Option (String × Record)
  | .createSetSession sid d | .extendSetSession sid d => some (sessionKey sid, .data d)
  | .createSetTracking sid d | .extendSetTracking sid d =>
    some (trackingKey d.userId sid, .tracked)
  | _ => none

@[simp] theorem next_now (r : Redis) (reply : Batch) (c : Call) :
    (c.next T r reply).1.now = r.now := by
  cases c with
  | guardGet sid | extendGet sid | destroyGet sid =>
    simp only [Call.next]
    cases r.getSession sid <;> rfl
  | _ => rfl

/-- An entry found after a command was there before or is what the command wrote. -/
theorem store_next {r : Redis} {reply : Batch} {c : Call} {x : Entry Record}
    (h : (c.next T r reply).1.store k = some x) :
    r.store k = some x ∨ c.writes = some (k, x.value) ∧ x.expiresAt = r.now + 1000 * T := by
  have hset : ∀ {k' : String} {v : Record}, (r.setex k' v T).store k = some x →
      r.store k = some x ∨ some (k', v) = some (k, x.value) ∧ x.expiresAt = r.now + 1000 * T := by
    intro k' v h
    by_cases hk : k = k'
    · subst hk
      have hx : x = ⟨v, r.now + 1000 * T⟩ := by simpa using h.symm
      exact .inr ⟨by rw [hx], by rw [hx]⟩
    · exact .inl (by simpa [hk] using h)
  have hdel : ∀ {k' : String}, (r.del k').store k = some x → r.store k = some x := by
    intro k' h
    by_cases hk : k = k'
    · simp [hk] at h
    · simpa [hk] using h
  cases c with
  | createSetSession | createSetTracking | extendSetSession | extendSetTracking => exact hset h
  | guardGet sid | extendGet sid | destroyGet sid =>
    simp only [Call.next] at h
    cases hget : r.getSession sid <;> rw [hget] at h <;> exact .inl h
  | invalidateScan => exact .inl h
  | destroyDelSession | destroyDelTracking | invalidateDelSession | invalidateDelTracking =>
    exact .inl (hdel h)

/-- Calls write session data under the session's key and mark the session as its owner's. -/
theorem placed_writes {x : Record} {r : Redis} {next : Call ⊕ Result} (hcall : s.CallOk t.call)
    (h : t.call.writes = some (k, x)) : Placed (s.record t r next).owner k x := by
  obtain ⟨call, owed, victims⟩ := t
  cases call with
  | createSetSession sid d =>
    obtain ⟨rfl, rfl⟩ : sessionKey sid = k ∧ .data d = x := by simpa [Call.writes] using h
    exact .session (by simp [State.record])
  | extendSetSession sid d =>
    obtain ⟨rfl, rfl⟩ : sessionKey sid = k ∧ .data d = x := by simpa [Call.writes] using h
    exact .session hcall
  | createSetTracking sid d | extendSetTracking sid d =>
    obtain ⟨rfl, rfl⟩ : trackingKey d.userId sid = k ∧ Record.tracked = x := by
      simpa [Call.writes] using h
    exact .tracking hcall
  | _ => simp [Call.writes] at h

theorem ids_record (hwf : WellFormed T s) (hcall : s.CallOk t.call) {r : Redis}
    {next : Call ⊕ Result} (h : (s.record t r next).owner v = some k) :
    IsUuid v ∧ IsUuid k ∧ v ∈ s.drawn := by
  obtain ⟨call, owed, victims⟩ := t
  cases call with
  | createSetSession sid d =>
    by_cases hv : v = sid
    · subst hv
      obtain rfl : d.userId = k := by simpa [State.record] using h
      exact ⟨hcall.2.2.1, hcall.2.2.2, hcall.2.1⟩
    · exact hwf.ids (by simpa [State.record, hv] using h)
  | _ => exact hwf.ids h

theorem created_record (hwf : WellFormed T s) (hcall : s.CallOk t.call) {r : Redis}
    {next : Call ⊕ Result} (h : v ∈ (s.record t r next).created) :
    ∃ k, (s.record t r next).owner v = some k := by
  have hold : v ∈ s.created → ∃ k, (s.record t r next).owner v = some k := fun hv => by
    obtain ⟨k, hk⟩ := hwf.created hv
    exact ⟨k, owner_record hcall hk⟩
  obtain ⟨call, owed, victims⟩ := t
  cases call with
  | createSetTracking sid d =>
    rcases h with rfl | h
    · exact ⟨d.userId, hcall⟩
    · exact hold h
  | _ => exact hold h

/-- Every command keeps Redis well formed. -/
theorem WellFormed.command (hwf : WellFormed T s) (hcall : s.CallOk t.call) (reply : Batch) :
    WellFormed T (s.record t (t.call.next T s.redis reply).1 (t.call.next T s.redis reply).2) where
  ids h := ids_record (s := s) (t := t) hwf hcall h
  created h := created_record (s := s) (t := t) hwf hcall h
  placed h := by
    rcases store_next h with h | ⟨h, _⟩
    · exact (hwf.placed h).mono (owner_record hcall)
    · exact placed_writes hcall h
  expiry h := by
    simp only [State.record, next_now]
    rcases store_next h with h | ⟨_, h⟩
    · exact hwf.expiry h
    · omega

theorem WellFormed.tick (hwf : WellFormed T s) (d : ℕ) :
    WellFormed T { s with redis := s.redis.tick d } where
  ids := hwf.ids
  created := hwf.created
  placed := hwf.placed
  expiry h := (hwf.expiry h).trans (by simp only [Redis.tick]; omega)

@[simp] theorem draw_redis (c : Call) : (s.draw c).redis = s.redis := by cases c <;> rfl

@[simp] theorem draw_owner (c : Call) : (s.draw c).owner = s.owner := by cases c <;> rfl

@[simp] theorem draw_created (c : Call) : (s.draw c).created = s.created := by cases c <;> rfl

@[simp] theorem draw_struck (c : Call) : (s.draw c).struck = s.struck := by cases c <;> rfl

@[simp] theorem draw_revoked (c : Call) : (s.draw c).revoked = s.revoked := by cases c <;> rfl

theorem drawn_subset_draw (c : Call) : s.drawn ⊆ (s.draw c).drawn := by
  cases c with
  | createSetSession sid d => exact Set.subset_insert sid s.drawn
  | _ => exact subset_rfl

theorem WellFormed.draw (hwf : WellFormed T s) (c : Call) : WellFormed T (s.draw c) where
  ids h := by
    rw [draw_owner] at h
    obtain ⟨hv, hk, hdrawn⟩ := hwf.ids h
    exact ⟨hv, hk, drawn_subset_draw c hdrawn⟩
  created h := by
    rw [draw_created] at h
    rw [draw_owner]
    exact hwf.created h
  placed h := by
    rw [draw_redis] at h
    rw [draw_owner]
    exact hwf.placed h
  expiry h := by
    rw [draw_redis] at h ⊢
    exact hwf.expiry h

/-- A new call knows what it needs: its id is new, and nothing else is asked of it. -/
theorem callOk_of_opens {c : Call} (hwf : WellFormed T s) (h : Opens s c) :
    (s.draw c).CallOk c := by
  cases h with
  | @create sid dto hsid hu hnew =>
    refine ⟨?_, Set.mem_insert sid s.drawn, hsid, hu⟩
    cases hown : s.owner sid with
    | none => exact hown
    | some u => exact absurd (hwf.ids hown).2.2 hnew
  | activate | extend | destroy => trivial
  | invalidate hu => exact hu

/-- A key from a reply to `SCAN` tracks a session of the user. -/
theorem tracks_of_reply {u : String} (hwf : WellFormed T s) (hu : IsUuid u)
    (hlive : k ∈ s.redis.liveKeys) (hmatch : Matches u k) : s.Tracks u k := by
  simp only [Redis.liveKeys, Set.mem_ofPred_eq, Option.isSome_iff_exists, Store.get_eq_some] at hlive
  obtain ⟨_, x, hx, _, rfl⟩ := hlive
  have hplaced := hwf.placed hx
  generalize x.value = r at hplaced
  cases hplaced with
  | session h => exact absurd hmatch (not_matches_sessionKey hu.plain)
  | @tracking sid v h =>
    rw [matches_trackingKey hu.plain (hwf.ids h).2.1.plain] at hmatch
    subst hmatch
    exact ⟨sid, h, rfl⟩

/-- The loop goes on with the next key of the batch, or with the next scan. -/
theorem nextKey_eq {u next : String} {keys : List String} {c : Call}
    (h : nextKey u next keys = .inl c) :
    (keys = [] ∧ next ≠ "0" ∧ c = .invalidateScan u next) ∨
      ∃ k rest, keys = k :: rest ∧ c = .invalidateDelSession u k rest next := by
  cases keys with
  | nil =>
    by_cases hn : next = "0"
    · simp [nextKey, hn] at h
    · exact .inl ⟨rfl, hn, by simpa [nextKey, hn] using h.symm⟩
  | cons k rest => exact .inr ⟨k, rest, rfl, by simpa [nextKey] using h.symm⟩

theorem callOk_nextKey {u next : String} {keys : List String} {c : Call} (hu : IsUuid u)
    (hkeys : ∀ k ∈ keys, s.Tracks u k) (h : nextKey u next keys = .inl c) : s.CallOk c := by
  obtain ⟨_, _, rfl⟩ | ⟨k, rest, rfl, rfl⟩ := nextKey_eq h
  · exact hu
  · exact ⟨hu, hkeys k (by simp), fun k' hk' => hkeys k' (by simp [hk'])⟩

/-- A session that can be read is stored under its owner. -/
theorem owner_of_sessionAt {now : ℕ} {d : SessionData} (hwf : WellFormed T s)
    (h : s.redis.sessionAt now sid = some d) : s.owner sid = some d.userId := by
  unfold Redis.sessionAt at h
  cases hget : s.redis.store.get now (sessionKey sid) with
  | none => simp [hget] at h
  | some r =>
    obtain ⟨x, hx, _, hxr⟩ := Store.get_eq_some.mp hget
    have hplaced := hwf.placed hx
    rw [hxr] at hplaced
    cases r with
    | tracked => simp [hget] at h
    | data d' =>
      obtain rfl : d' = d := by simpa [hget] using h
      exact hplaced.tracked

/-- The call that goes on knows what its next step needs. -/
theorem callOk_next {c : Call} {reply : Batch} (hwf : WellFormed T s) (hcall : s.CallOk t.call)
    (hreply : ReplyOk s.redis t reply) {r : Redis}
    (h : (t.call.next T s.redis reply).2 = .inl c) :
    (s.record t r (t.call.next T s.redis reply).2).CallOk c := by
  have hmono : ∀ {c : Call}, c.drawing = none → s.CallOk c →
      (s.record t r (t.call.next T s.redis reply).2).CallOk c := fun hc hok =>
    hok.mono (owner_record hcall) (by exact subset_rfl) (by simp [hc])
  obtain ⟨call, owed, victims⟩ := t
  cases call with
  | createSetSession sid d =>
    obtain rfl : Call.createSetTracking sid d = c := by simpa [Call.next] using h
    simp [State.CallOk, State.record]
  | createSetTracking | extendSetTracking | destroyDelTracking => simp [Call.next] at h
  | guardGet sid =>
    cases hget : s.redis.getSession sid with
    | none => simp [Call.next, hget] at h
    | some d =>
      obtain rfl : Call.extendGet sid = c := by simpa [Call.next, hget] using h
      trivial
  | extendGet sid =>
    cases hget : s.redis.getSession sid with
    | none => simp [Call.next, hget] at h
    | some d =>
      -- the data that is read and written back is that of the owner
      obtain rfl : Call.extendSetSession sid { d with lastActivity := s.redis.now } = c := by
        simpa [Call.next, hget] using h
      have hown : s.owner sid = some d.userId := owner_of_sessionAt hwf hget
      exact hmono rfl hown
  | extendSetSession sid d =>
    obtain rfl : Call.extendSetTracking sid d = c := by simpa [Call.next] using h
    exact hcall
  | destroyGet sid =>
    cases hget : s.redis.getSession sid with
    | none => simp [Call.next, hget] at h
    | some d =>
      obtain rfl : Call.destroyDelSession sid d = c := by simpa [Call.next, hget] using h
      exact hmono rfl (owner_of_sessionAt hwf hget)
  | destroyDelSession sid d =>
    obtain rfl : Call.destroyDelTracking sid d = c := by simpa [Call.next] using h
    exact hcall
  | invalidateScan u cursor =>
    have hkeys : ∀ k ∈ reply.keys, s.Tracks u k := fun k hk =>
      tracks_of_reply hwf hcall (hreply.1 k hk).1 (hreply.1 k hk).2
    exact callOk_nextKey hcall hkeys h
  | invalidateDelSession u key keys next =>
    obtain rfl : Call.invalidateDelTracking u key keys next = c := by simpa [Call.next] using h
    exact hcall
  | invalidateDelTracking u key keys next => exact callOk_nextKey hcall.1 hcall.2.2 h

/-- A call that goes on creates no new session. -/
theorem drawing_next {c : Call} {r : Redis} {reply : Batch} {call : Call}
    (h : (call.next T r reply).2 = .inl c) : c.drawing = none := by
  cases call with
  | guardGet sid | extendGet sid | destroyGet sid =>
    simp only [Call.next] at h
    cases hget : r.getSession sid <;> rw [hget] at h <;> cases h
    rfl
  | invalidateScan | invalidateDelTracking =>
    obtain ⟨_, _, rfl⟩ | ⟨k, rest, _, rfl⟩ := nextKey_eq h <;> rfl
  | _ => cases h <;> rfl

theorem inter_eq_empty {a b : Set String} (h : a = ∅) : a ∩ b = ∅ :=
  Set.subset_empty_iff.mp (h ▸ Set.inter_subset_left)

theorem sdiff_eq_empty {a b : Set String} (h : a = ∅) : a \ b = ∅ :=
  by subst h; exact Set.eq_empty_of_forall_notMem fun _ hx => hx.1

/-- Once the scan is back at its start it has returned every key that it owed. -/
theorem settled_next {c : Call} {reply : Batch} (hreply : ReplyOk s.redis t reply)
    (hsettled : t.call.cursor = some "0" → t.owed = ∅)
    (h : (t.call.next T s.redis reply).2 = .inl c) (hc : c.cursor = some "0") :
    t.owed \ t.call.scanned reply = ∅ := by
  obtain ⟨call, owed, victims⟩ := t
  cases call with
  | invalidateScan u cursor =>
    have hnext : reply.nextCursor = "0" := by
      obtain ⟨_, _, rfl⟩ | ⟨k, rest, _, rfl⟩ := nextKey_eq h
      · simp [Call.cursor] at hc
      · simpa [Call.cursor] using hc
    have hall := hreply.2 hnext
    ext k
    simp only [Set.mem_sdiff, Set.mem_empty_iff_false, iff_false, not_and, not_not]
    exact hall k
  | invalidateDelSession u key keys next =>
    cases h
    have hempty : owed = ∅ := hsettled hc
    exact sdiff_eq_empty hempty
  | invalidateDelTracking u key keys next =>
    have hnext : next = "0" := by
      obtain ⟨_, _, rfl⟩ | ⟨k, rest, _, rfl⟩ := nextKey_eq h
      · simp [Call.cursor] at hc
      · simpa [Call.cursor] using hc
    have hempty : owed = ∅ := hsettled (by rw [hnext]; rfl)
    exact sdiff_eq_empty hempty
  | guardGet sid | extendGet sid | destroyGet sid =>
    simp only [Call.next] at h
    cases hget : s.redis.getSession sid <;> rw [hget] at h <;> cases h
    cases hc
  | _ => cases h <;> cases hc

/-- The outline that every pool of session calls keeps. -/
theorem outline (T : ℕ) : Pool.Outline (machine T) (WellFormed T) State.TaskOk Apart where
  symm h sid hu ht := h sid ht hu
  observe h := h
  env := by
    rintro s e s' hwf ⟨d, rfl, rfl⟩
    refine ⟨hwf.tick d, fun u hu => ⟨hu.call.mono id subset_rfl fun _ _ h => h, fun hc => ?_⟩⟩
    exact inter_eq_empty (hu.settled hc)
  spawn := by
    rintro s e s' t hwf ⟨c, hopens, rfl, rfl, rfl⟩
    refine ⟨hwf.draw c, ⟨callOk_of_opens hwf hopens, fun hc => ?_⟩,
      fun u hu => ⟨⟨?_, fun hc => ?_⟩, fun sid hsid => ?_⟩⟩
    · cases hopens <;> cases hc
    · exact hu.call.mono (by simp) (drawn_subset_draw c) fun _ _ h => by simpa using h
    · exact inter_eq_empty (hu.settled hc)
    · intro hdrawing
      have hcall := hu.call
      -- only a creation draws, and its id is new to every running creation
      cases hopens with
      | create _ _ hnew =>
        obtain ⟨call, owed, victims⟩ := u
        cases call with
        | createSetSession sid' d =>
          cases hdrawing
          cases hsid
          exact hnew hcall.2.1
        | _ => cases hdrawing
      | _ => cases hsid
  exec := by
    rintro s t e s' t' hwf ⟨hcall, hsettled⟩ hexec
    cases hexec with
    | fault =>
      refine ⟨hwf, by simp, fun u hu _ => ⟨⟨hu.call, fun hc => ?_⟩, by simp⟩⟩
      exact inter_eq_empty (hu.settled hc)
    | command reply hreply =>
      have hgo : ∀ w ∈ t.resume reply (t.call.next T s.redis reply).2,
          (t.call.next T s.redis reply).2 = .inl w.call ∧
            w.owed = t.owed \ t.call.scanned reply := fun _ => Task.resume_eq
      refine ⟨hwf.command hcall reply, fun w hw => ⟨callOk_next hwf hcall hreply (hgo w hw).1,
        fun hc => ?_⟩, fun u hu hapart => ⟨⟨?_, fun hc => ?_⟩, fun w hw sid hsid => ?_⟩⟩
      · have hempty := settled_next hreply hsettled (hgo w hw).1 hc
        rw [← (hgo w hw).2] at hempty
        exact inter_eq_empty hempty
      -- another call loses no session that it counts on: the id that is written is not its own
      · refine hu.call.mono (owner_record hcall) subset_rfl fun sid hsid hnone => ?_
        obtain ⟨call, owed, victims⟩ := t
        cases call with
        | createSetSession sid' d =>
          have hne : sid ≠ sid' := by
            rintro rfl
            exact hapart sid rfl hsid
          simpa [State.record, hne] using hnone
        | _ => exact hnone
      · exact inter_eq_empty (hu.settled hc)
      · change w.call.drawing = some sid at hsid
        rw [drawing_next (hgo w hw).1] at hsid
        cases hsid

/-! ### What one command does to the keys of a session -/

theorem sessionIdOf_tracks {u key : String} (hwf : WellFormed T s) (h : s.Tracks u key) :
    ∃ sid, sessionIdOf key = sid ∧ s.owner sid = some u ∧ key = trackingKey u sid := by
  obtain ⟨sid, hown, rfl⟩ := h
  have hids := hwf.ids hown
  exact ⟨sid, sessionIdOf_trackingKey hids.2.1.plain hids.1.plain, hown, rfl⟩

theorem trackingKey_eq_iff {a b : String} (hwf : WellFormed T s) (ha : s.owner sid = some a)
    (hb : s.owner v = some b) : trackingKey a sid = trackingKey b v ↔ sid = v := by
  constructor
  · intro h
    exact ((trackingKey_inj (hwf.ids ha).2.1.plain (hwf.ids hb).2.1.plain).mp h).2
  · rintro rfl
    rw [ha] at hb
    cases hb
    rfl

/-- A command writes a session's data, deletes it or leaves its entry alone. -/
theorem session_next (reply : Batch) {c : Call} (hcall : s.CallOk c) (sid : String) :
    (∃ d, c.saves = some (sid, d) ∧ (c.next T s.redis reply).1.store (sessionKey sid) =
        some ⟨.data d, s.redis.now + 1000 * T⟩) ∨
      (c.deletes = some sid ∧ (c.next T s.redis reply).1.store (sessionKey sid) = none) ∨
      ((∀ d, c.saves ≠ some (sid, d)) ∧ c.deletes ≠ some sid ∧
        (c.next T s.redis reply).1.store (sessionKey sid) = s.redis.store (sessionKey sid)) := by
  cases c with
  | createSetSession v d | extendSetSession v d =>
    by_cases hv : sid = v
    · subst hv
      exact .inl ⟨d, rfl, by simp [Call.next]⟩
    · exact .inr (.inr ⟨by simp [Call.saves, Ne.symm hv], by simp [Call.deletes],
        by simp [Call.next, hv]⟩)
  | createSetTracking v d | extendSetTracking v d | destroyDelTracking v d =>
    exact .inr (.inr ⟨by simp [Call.saves], by simp [Call.deletes],
      by simp [Call.next, sessionKey_ne_trackingKey]⟩)
  | guardGet v | extendGet v | destroyGet v =>
    refine .inr (.inr ⟨by simp [Call.saves], by simp [Call.deletes], ?_⟩)
    simp only [Call.next]
    cases s.redis.getSession v <;> rfl
  | destroyDelSession v d =>
    by_cases hv : sid = v
    · subst hv
      exact .inr (.inl ⟨rfl, by simp [Call.next]⟩)
    · exact .inr (.inr ⟨by simp [Call.saves], by simp [Call.deletes, Ne.symm hv],
        by simp [Call.next, hv]⟩)
  | invalidateScan u cursor => exact .inr (.inr ⟨by simp [Call.saves], by simp [Call.deletes], rfl⟩)
  | invalidateDelSession u key keys next =>
    by_cases hv : sid = sessionIdOf key
    · exact .inr (.inl ⟨by simp [Call.deletes, hv], by simp [Call.next, hv]⟩)
    · exact .inr (.inr ⟨by simp [Call.saves], by simp [Call.deletes, Ne.symm hv],
        by simp [Call.next, hv]⟩)
  | invalidateDelTracking u key keys next =>
    obtain ⟨v, _, rfl⟩ := hcall.2.1
    exact .inr (.inr ⟨by simp [Call.saves], by simp [Call.deletes],
      by simp [Call.next, sessionKey_ne_trackingKey]⟩)

/-- A command marks a session as its owner's, removes the mark or leaves its entry alone. -/
theorem tracking_next (reply : Batch) {c : Call} {u : String} (hwf : WellFormed T s)
    (hcall : s.CallOk c) (hown : s.owner sid = some u) :
    (c.tracks = some sid ∧ (c.next T s.redis reply).1.store (trackingKey u sid) =
        some ⟨.tracked, s.redis.now + 1000 * T⟩) ∨
      (c.untracks = some sid ∧ (c.next T s.redis reply).1.store (trackingKey u sid) = none) ∨
      (c.tracks ≠ some sid ∧ c.untracks ≠ some sid ∧
        (c.next T s.redis reply).1.store (trackingKey u sid) =
          s.redis.store (trackingKey u sid)) := by
  cases c with
  | createSetSession v d | extendSetSession v d | destroyDelSession v d =>
    exact .inr (.inr ⟨by simp [Call.tracks], by simp [Call.untracks],
      by simp [Call.next, Ne.symm (sessionKey_ne_trackingKey v u sid)]⟩)
  | createSetTracking v d | extendSetTracking v d =>
    have hkey := trackingKey_eq_iff hwf hown hcall
    by_cases hv : sid = v
    · exact .inl ⟨by simp [Call.tracks, hv], by simp [Call.next, hkey.mpr hv]⟩
    · exact .inr (.inr ⟨by simp [Call.tracks, Ne.symm hv], by simp [Call.untracks],
        by simp [Call.next, hkey, hv]⟩)
  | destroyDelTracking v d =>
    have hkey := trackingKey_eq_iff hwf hown hcall
    by_cases hv : sid = v
    · exact .inr (.inl ⟨by simp [Call.untracks, hv], by simp [Call.next, hkey.mpr hv]⟩)
    · exact .inr (.inr ⟨by simp [Call.tracks], by simp [Call.untracks, Ne.symm hv],
        by simp [Call.next, hkey, hv]⟩)
  | guardGet v | extendGet v | destroyGet v =>
    refine .inr (.inr ⟨by simp [Call.tracks], by simp [Call.untracks], ?_⟩)
    simp only [Call.next]
    cases s.redis.getSession v <;> rfl
  | invalidateScan w cursor =>
    exact .inr (.inr ⟨by simp [Call.tracks], by simp [Call.untracks], rfl⟩)
  | invalidateDelSession w key keys next =>
    exact .inr (.inr ⟨by simp [Call.tracks], by simp [Call.untracks],
      by simp [Call.next, Ne.symm (sessionKey_ne_trackingKey _ u sid)]⟩)
  | invalidateDelTracking w key keys next =>
    -- A key that the scan returned is the tracking key of one session of the owner.
    obtain ⟨v, hv, hvown, rfl⟩ := sessionIdOf_tracks hwf hcall.2.1
    have hkey := trackingKey_eq_iff hwf hown hvown
    by_cases hsid : sid = v
    · exact .inr (.inl ⟨by simp [Call.untracks, hv, hsid], by simp [Call.next, hkey.mpr hsid]⟩)
    · exact .inr (.inr ⟨by simp [Call.tracks], by simp [Call.untracks, hv, Ne.symm hsid],
        by simp [Call.next, hkey, hsid]⟩)

/-- The tracking key of a session is written right after its data and deleted right after it. -/
theorem tracks_next {r : Redis} {reply : Batch} {c c' : Call} (h : (c.next T r reply).2 = .inl c') :
    c'.tracks = c.saves.map Prod.fst ∧ c'.untracks = c.deletes := by
  cases c with
  | guardGet sid | extendGet sid | destroyGet sid =>
    simp only [Call.next] at h
    cases hget : r.getSession sid <;> rw [hget] at h <;> cases h
    exact ⟨rfl, rfl⟩
  | invalidateScan | invalidateDelTracking =>
    obtain ⟨_, _, rfl⟩ | ⟨k, rest, _, rfl⟩ := nextKey_eq h <;> exact ⟨rfl, rfl⟩
  | _ => cases h <;> exact ⟨rfl, rfl⟩

/-- A call that writes or deletes a session's data goes on. -/
theorem saves_deletes_of_return {r : Redis} {reply : Batch} {c : Call} {res : Result}
    (h : (c.next T r reply).2 = .inr res) : c.saves = none ∧ c.deletes = none := by
  cases c with
  | createSetSession | extendSetSession | destroyDelSession | invalidateDelSession => cases h
  | _ => exact ⟨rfl, rfl⟩

theorem deletes_of_saves {c : Call} {x : String × SessionData} (h : c.saves = some x) :
    c.deletes = none := by
  cases c with
  | createSetSession | extendSetSession => rfl
  | _ => cases h

/-- After a session's data has been deleted the entry is gone. -/
theorem session_deleted {reply : Batch} {c : Call} (hcall : s.CallOk c)
    (h : c.deletes = some sid) : (c.next T s.redis reply).1.store (sessionKey sid) = none := by
  obtain ⟨d, hsave, _⟩ | ⟨_, hnone⟩ | ⟨_, hne, _⟩ := session_next (T := T) reply hcall sid
  · rw [deletes_of_saves hsave] at h
    cases h
  · exact hnone
  · exact absurd h hne

/-- Only the first write of a session's data gives it an owner. -/
theorem owner_of_record {r : Redis} {next : Call ⊕ Result} {u : String}
    (hne : ∀ d, t.call.saves ≠ some (sid, d)) (h : (s.record t r next).owner sid = some u) :
    s.owner sid = some u := by
  obtain ⟨call, owed, victims⟩ := t
  cases call with
  | createSetSession v d =>
    have hv : sid ≠ v := by
      rintro rfl
      exact hne d rfl
    simpa [State.record, hv] using h
  | _ => exact h

end IotPanel.Session
