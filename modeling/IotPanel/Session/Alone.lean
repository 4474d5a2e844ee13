import IotPanel.Session.Table

/-!
# One call at a time

A call that is carried to its end while no other call runs; its commands may fail. A session that
is gone stays gone, and an invalidation that returns leaves no session that had its tracking key.
-/

namespace IotPanel.Session

def State.tick (s : State) (d : ℕ) : State := { s with redis := s.redis.tick d }

/-- The state after the next command of a call. -/
def State.after (s : State) (T : ℕ) (t : Task) (reply : Batch) : State :=
  s.record t (t.call.next T s.redis reply).1 (t.call.next T s.redis reply).2

/-- A call on its way to its end: time passes, its commands are executed, and they may fail where
`F` lets them. The call ends at the await `c`, with a result if it returns. -/
inductive Completes (T : ℕ) (F : State → Call → Prop) :
    State → Task → Call → Option Result → State → Prop
  | tick {s s' : State} {t : Task} {c : Call} {o : Option Result} (d : ℕ)
      (hrest : Completes T F (s.tick d) ((machine T).observe (s.tick d) t) c o s') :
      Completes T F s t c o s'
  | command {s s' : State} {t w : Task} {c : Call} {o : Option Result} (reply : Batch)
      (hreply : ReplyOk s.redis t reply)
      (hw : t.resume reply (t.call.next T s.redis reply).2 = some w)
      (hrest : Completes T F (s.after T t reply) ((machine T).observe (s.after T t reply) w) c o s') :
      Completes T F s t c o s'
  | finish {s : State} {t : Task} {r : Result} (reply : Batch) (hreply : ReplyOk s.redis t reply)
      (hr : (t.call.next T s.redis reply).2 = .inr r) :
      Completes T F s t t.call (some r) (s.after T t reply)
  | fault {s : State} {t : Task} (hF : F s t.call) : Completes T F s t t.call none s

/-- The call from its beginning. -/
def Carried (T : ℕ) (F : State → Call → Prop) (s : State) (c : Call) (last : Call)
    (o : Option Result) (s' : State) : Prop :=
  Completes T F (s.draw c) ((machine T).observe (s.draw c) (s.task c)) last o s'

/-- What every state keeps, and what a running call knows. -/
structure Sound (T : ℕ) (s : State) (t : Option Task) : Prop where
  wellFormed : WellFormed T s
  task : ∀ w ∈ t, s.TaskOk w

variable {T : ℕ} {F : State → Call → Prop} {s s' : State} {t w : Task} {c last : Call}
  {o : Option Result} {u v : String} {reply : Batch}

/-! ### Steps of a call -/

theorem sound_initial (T : ℕ) : Sound T .initial none := ⟨wellFormed_initial T, by rintro w ⟨⟩⟩

theorem Sound.tick {x : Option Task} (h : Sound T s x) (d : ℕ) :
    Sound T (s.tick d) (x.map ((machine T).observe (s.tick d))) := by
  obtain ⟨hwf, htask⟩ := (outline T).env h.wellFormed ⟨d, rfl, rfl⟩
  refine ⟨hwf, fun w hw => ?_⟩
  obtain ⟨w', hw', rfl⟩ := Option.map_eq_some_iff.mp hw
  exact htask w' (h.task w' hw')

theorem Sound.start (h : Sound T s none) (hopens : Opens s c) :
    Sound T (s.draw c) (some ((machine T).observe (s.draw c) (s.task c))) := by
  obtain ⟨hwf, htask, -⟩ := (outline T).spawn h.wellFormed ⟨c, hopens, rfl, rfl, rfl⟩
  refine ⟨hwf, ?_⟩
  rintro w ⟨⟩
  exact htask

theorem Sound.command (h : Sound T s (some t)) (hreply : ReplyOk s.redis t reply) :
    Sound T (s.after T t reply) ((t.resume reply (t.call.next T s.redis reply).2).map
      ((machine T).observe (s.after T t reply))) := by
  obtain ⟨hwf, hself, -⟩ := (outline T).exec h.wellFormed (h.task t rfl) (.command reply hreply)
  refine ⟨hwf, fun w hw => ?_⟩
  obtain ⟨w', hw', rfl⟩ := Option.map_eq_some_iff.mp hw
  exact hself w' hw'

theorem Sound.fault (h : Sound T s (some t)) : Sound T s none := ⟨h.wellFormed, by rintro w ⟨⟩⟩

/-- The invariant rule for a call that is carried to its end. -/
theorem Completes.induct {I : State → Option Task → Prop}
    (htick : ∀ s t d, Sound T s (some t) → I s (some t) →
      I (s.tick d) (some ((machine T).observe (s.tick d) t)))
    (hcommand : ∀ s t reply, Sound T s (some t) → ReplyOk s.redis t reply →
      I s (some t) → I (s.after T t reply) ((t.resume reply (t.call.next T s.redis reply).2).map
        ((machine T).observe (s.after T t reply))))
    (hfault : o = none → ∀ s t, I s (some t) → I s none)
    (h : Completes T F s t c o s') (hsound : Sound T s (some t)) (hI : I s (some t)) :
    Sound T s' none ∧ I s' none := by
  induction h with
  | tick d hrest ih => exact ih hfault (hsound.tick d) (htick _ _ d hsound hI)
  | command reply hreply hw hrest ih =>
    have hnext := hsound.command hreply
    have hafter := hcommand _ _ reply hsound hreply hI
    rw [hw] at hnext hafter
    exact ih hfault hnext hafter
  | @finish s t r reply hreply hr =>
    have hnext := hsound.command hreply
    have hafter := hcommand _ _ reply hsound hreply hI
    have hnone : t.resume reply (t.call.next T s.redis reply).2 = none := by rw [hr]; rfl
    rw [hnone] at hnext hafter
    exact ⟨hnext, hafter⟩
  | fault hcall => exact ⟨hsound.fault, hfault rfl _ _ hI⟩

theorem Carried.sound (h : Carried T F s c last o s') (hopens : Opens s c)
    (hsound : Sound T s none) : Sound T s' none :=
  (h.induct (I := fun _ _ => True) (fun _ _ _ _ _ => trivial) (fun _ _ _ _ _ _ => trivial)
    (fun _ _ _ _ => trivial) (hsound.start hopens) trivial).1

/-- A call that throws ends where a command of it fails. -/
theorem Completes.failed (h : Completes T F s t last none s') : F s' last := by
  generalize ho : (none : Option Result) = o at h
  induction h with
  | tick d hrest ih => exact ih ho
  | command reply hreply hw hrest ih => exact ih ho
  | finish reply hreply hr => cases ho
  | fault hF => exact hF

/-- A call that returns leaves every session with its tracking key. -/
theorem Carried.covered {r : Result} (h : Carried T F s c last (some r) s') (hopens : Opens s c)
    (hsound : Sound T s none) (hcov : CoveredBut s none) : CoveredBut s' none := by
  have hstart : CoveredBut (s.draw c) (some ((machine T).observe (s.draw c) (s.task c))) :=
    (coveredBut_sequential T).spawn [] hsound.wellFormed hcov ⟨c, hopens, rfl, rfl, rfl⟩
  refine (h.induct (I := CoveredBut) ?_ ?_ ?_ (hsound.start hopens) hstart).2
  · exact fun s t d hsound hI =>
      (coveredBut_sequential T).env [] hsound.wellFormed hsound.task hI ⟨d, rfl, rfl⟩
  · exact fun s t reply hsound hreply hI => (coveredBut_sequential T).exec [] hsound.wellFormed
      (hsound.task t rfl) hI ⟨.command reply hreply, trivial⟩
  · rintro ⟨⟩

/-! ### Sessions that are gone -/

/-- The session is gone, and the call that runs does not write it. -/
structure Gone (v : String) (s : State) (t : Option Task) : Prop where
  owned : ∃ u, s.owner v = some u
  dead : s.redis.getSession v = none
  spared : ∀ w ∈ t, ∀ d, w.call.saves ≠ some (v, d)

/-- A call writes back only what it has just read. -/
theorem getSession_of_saves_next {r : Redis} {c' : Call} {d : SessionData}
    (h : (c.next T r reply).2 = .inl c') (hsaves : c'.saves = some (v, d)) :
    (r.getSession v).isSome := by
  cases c' with
  | createSetSession sid d' =>
    have hnone := drawing_next h
    cases hnone
  | extendSetSession sid d' =>
    cases hsaves
    exact (extends_next h).2
  | _ => cases hsaves

theorem Gone.tick (h : Gone v s (some t)) (d : ℕ) :
    Gone v (s.tick d) (some ((machine T).observe (s.tick d) t)) := by
  refine ⟨h.owned, ?_, ?_⟩
  · by_contra hlive
    have hbefore := isSome_of_tick (Option.isSome_iff_ne_none.mpr hlive)
    rw [h.dead] at hbefore
    cases hbefore
  · rintro w ⟨⟩
    exact h.spared t rfl

theorem Gone.command (h : Gone v s (some t)) (hcall : s.CallOk t.call) :
    Gone v (s.after T t reply) ((t.resume reply (t.call.next T s.redis reply).2).map
      ((machine T).observe (s.after T t reply))) := by
  obtain ⟨u, hown⟩ := h.owned
  refine ⟨⟨u, owner_record hcall hown⟩, ?_, fun w hw d hsaves => ?_⟩
  · show (t.call.next T s.redis reply).1.getSession v = none
    obtain ⟨d, hsave, -⟩ | ⟨-, hnone⟩ | ⟨-, -, hkept⟩ := session_next (T := T) reply hcall v
    · exact absurd hsave (h.spared t rfl d)
    · exact sessionAt_of_none hnone
    · rw [Redis.getSession_congr (next_now _ _ _) hkept]
      exact h.dead
  · obtain ⟨x, hx, rfl⟩ := Option.map_eq_some_iff.mp hw
    have hlive := getSession_of_saves_next (Task.resume_eq hx).1 hsaves
    rw [h.dead] at hlive
    cases hlive

theorem saves_of_opens {d : SessionData} (hwf : WellFormed T s) (hopens : Opens s c)
    (hown : s.owner v = some u) : c.saves ≠ some (v, d) := by
  cases hopens with
  | create hsid hu hnew =>
    rintro ⟨⟩
    exact hnew (hwf.ids hown).2.2
  | _ => rintro ⟨⟩

/-- A session that is gone stays gone. -/
theorem Carried.gone (h : Carried T F s c last o s') (hopens : Opens s c)
    (hsound : Sound T s none) (hown : s.owner v = some u) (hdead : s.redis.getSession v = none) :
    s'.redis.getSession v = none := by
  have hgone : Gone v (s.draw c) (some ((machine T).observe (s.draw c) (s.task c))) := by
    refine ⟨⟨u, by rw [draw_owner, hown]⟩, by rw [draw_redis, hdead], ?_⟩
    rintro w ⟨⟩ d
    exact saves_of_opens hsound.wellFormed hopens hown
  refine (h.induct (I := Gone v) ?_ ?_ ?_ (hsound.start hopens) hgone).2.dead
  · exact fun s t d _ hI => hI.tick d
  · exact fun s t reply hsound _ hI => hI.command (hsound.task t rfl).call
  · exact fun _ s t hI => ⟨hI.owned, hI.dead, by rintro w ⟨⟩⟩

/-- The owners of sessions stay. -/
theorem Carried.owner (h : Carried T F s c last o s') (hopens : Opens s c)
    (hsound : Sound T s none) (hown : s.owner v = some u) : s'.owner v = some u := by
  refine (h.induct (I := fun s _ => s.owner v = some u) ?_ ?_ ?_ (hsound.start hopens) ?_).2
  · exact fun s t d _ hI => hI
  · exact fun s t reply hsound _ hI => owner_record (hsound.task t rfl).call hI
  · exact fun _ s t hI => hI
  · rw [draw_owner, hown]

/-! ### Invalidations -/

/-- An invalidation of `u` is going to delete the session, which has its tracking key. -/
structure Hunts (u v : String) (s : State) (t : Task) : Prop where
  invalidates : t.call.invalidates = some u
  owned : s.owner v = some u
  covered : Covered s.redis u v
  deleted : t.call.untracks = some v → s.redis.store (sessionKey v) = none
  aims : (s.redis.getSession v).isSome → trackingKey u v ∈ t.aims

/-- While an invalidation runs it hunts the session, and when it has returned the session is
gone. -/
def Hunted (u v : String) (s : State) : Option Task → Prop
  | some t => Hunts u v s t
  | none => s.redis.getSession v = none

theorem Hunts.tick (h : Hunts u v s t) (d : ℕ) :
    Hunts u v (s.tick d) ((machine T).observe (s.tick d) t) := by
  have hcovered := h.covered.tick d
  refine ⟨h.invalidates, h.owned, hcovered, h.deleted, fun hlive => ?_⟩
  exact aims_observe (h.aims (isSome_of_tick hlive)) (live_of_covered hcovered hlive)

/-- A session that a command of an invalidation leaves was there, and is not deleted by it. -/
theorem Hunts.live (h : Hunts u v s t) (hcall : s.CallOk t.call)
    (hlive : ((s.after T t reply).redis.getSession v).isSome) :
    (s.redis.getSession v).isSome ∧ t.call.deletes ≠ some v := by
  change ((t.call.next T s.redis reply).1.getSession v).isSome at hlive
  obtain ⟨d, hsave, -⟩ | ⟨-, hnone⟩ | ⟨-, hdel, hkept⟩ := session_next (T := T) reply hcall v
  · rw [saves_of_invalidates h.invalidates] at hsave
    cases hsave
  · rw [Redis.getSession, sessionAt_of_none hnone] at hlive
    cases hlive
  · rw [Redis.getSession_congr (next_now _ _ _) hkept] at hlive
    exact ⟨hlive, hdel⟩

/-- The tracking key goes after the session, so that it covers the session all the time. -/
theorem Hunts.covered_after (h : Hunts u v s t) (hwf : WellFormed T s) (hcall : s.CallOk t.call) :
    Covered (s.after T t reply).redis u v := by
  show Covered (t.call.next T s.redis reply).1 u v
  obtain ⟨d, hsave, -⟩ | ⟨-, hnone⟩ | ⟨-, -, hkept⟩ := session_next (T := T) reply hcall v
  · rw [saves_of_invalidates h.invalidates] at hsave
    cases hsave
  · exact .of_none hnone
  · obtain ⟨htracks, -⟩ | ⟨hun, -⟩ | ⟨-, -, hsame⟩ := tracking_next reply hwf hcall h.owned
    · rw [tracks_of_invalidates h.invalidates] at htracks
      cases htracks
    · exact .of_none (hkept.trans (h.deleted hun))
    · intro x hx hlive
      rw [hkept] at hx
      rw [hsame]
      exact h.covered x hx (by simpa using hlive)

/-- A command of an invalidation deletes the session or leaves it among the aims. -/
theorem Hunts.command (h : Hunts u v s t) (hsound : Sound T s (some t))
    (hreply : ReplyOk s.redis t reply) :
    Hunted u v (s.after T t reply) ((t.resume reply (t.call.next T s.redis reply).2).map
      ((machine T).observe (s.after T t reply))) := by
  have hok := hsound.task t rfl
  have hresume : ((s.after T t reply).redis.getSession v).isSome →
      ∃ w, t.resume reply (t.call.next T s.redis reply).2 = some w ∧ trackingKey u v ∈ w.aims := by
    intro hlive
    obtain ⟨hbefore, hdel⟩ := h.live hok.call hlive
    exact aims_kept hsound.wellFormed hok hreply h.invalidates h.owned (h.aims hbefore) hdel
  cases hw : t.resume reply (t.call.next T s.redis reply).2 with
  | none =>
    show (s.after T t reply).redis.getSession v = none
    by_contra hlive
    obtain ⟨w, hw', -⟩ := hresume (Option.isSome_iff_ne_none.mpr hlive)
    rw [hw] at hw'
    cases hw'
  | some w =>
    have hnext := (Task.resume_eq hw).1
    have hcovered : Covered (s.after T t reply).redis u v :=
      h.covered_after hsound.wellFormed hok.call
    refine ⟨(invalidates_next hnext).trans h.invalidates, owner_record hok.call h.owned, hcovered,
      fun hun => ?_, fun hlive => ?_⟩
    · exact session_deleted hok.call ((tracks_next hnext).2 ▸ hun)
    · obtain ⟨w', hw', haims⟩ := hresume hlive
      rw [hw] at hw'
      cases hw'
      exact aims_observe haims (live_of_covered hcovered hlive)

/-- An invalidation that returns leaves no session of its user that had its tracking key. -/
theorem Carried.invalidated {r : Result}
    (h : Carried T F s (invalidateUserSessions u) last (some r) s') (hu : IsUuid u)
    (hsound : Sound T s none) (hown : s.owner v = some u) (hcovered : Covered s.redis u v) :
    s'.redis.getSession v = none := by
  have hhunts : Hunts u v s ((machine T).observe s (s.task (invalidateUserSessions u))) :=
    ⟨rfl, hown, hcovered, by rintro ⟨⟩, owed_at_start hcovered hu⟩
  refine (h.induct (I := Hunted u v) ?_ ?_ ?_ (hsound.start (.invalidate hu)) hhunts).2
  · exact fun s t d _ hI => Hunts.tick hI d
  · exact fun s t reply hsound hreply hI => Hunts.command hI hsound hreply
  · rintro ⟨⟩

/-! ### Scripted calls -/

/-- The reply to a scan, where `known` are all sessions with their users. -/
def replyFor (known : List (String × String)) (s : State) : Call → Batch
  | .invalidateScan u _ =>
    ⟨"0", ((known.filter fun p => p.2 = u).map fun p => trackingKey u p.1).filter fun k =>
      (s.redis.store.get s.redis.now k).isSome⟩
  | _ => ⟨"0", []⟩

/-- The call carried out at once, in at most `n` commands. -/
def carry (T : ℕ) (known : List (String × String)) :
    ℕ → State → Task → Option (Call × Result × State)
  | 0, _, _ => none
  | n + 1, s, t =>
    let reply := replyFor known s t.call
    match (t.call.next T s.redis reply).2 with
    | .inr r => some (t.call, r, s.after T t reply)
    | .inl c => carry T known n (s.after T t reply) ((machine T).observe (s.after T t reply)
        { t with call := c, owed := t.owed \ t.call.scanned reply })

/-- `known` lists the sessions with their users. -/
structure Listed (known : List (String × String)) (s : State) (t : Option Task) : Prop where
  owner : ∀ {v u}, s.owner v = some u → (v, u) ∈ known
  drawn : ∀ {v}, v ∈ s.drawn → (s.owner v).isSome ∨ ∃ w ∈ t, w.call.drawing = some v
  creates : ∀ w ∈ t, ∀ v d, w.call = .createSetSession v d → (v, d.userId) ∈ known
  owed : ∀ w ∈ t, ∀ u, w.call.invalidates = some u → ∀ k ∈ w.owed,
    k ∈ s.redis.liveKeys ∧ Matches u k

section Scripts

variable {known : List (String × String)} {r : Result} {n : ℕ}

theorem listed_initial (known : List (String × String)) : Listed known .initial none where
  owner h := by cases h
  drawn h := by cases h
  creates := by rintro w ⟨⟩
  owed := by rintro w ⟨⟩

theorem Listed.tick (h : Listed known s none) (d : ℕ) : Listed known (s.tick d) none :=
  ⟨h.owner, h.drawn, by rintro w ⟨⟩, by rintro w ⟨⟩⟩

theorem Listed.start (h : Listed known s none)
    (hcreates : ∀ v d, c = .createSetSession v d → (v, d.userId) ∈ known) :
    Listed known (s.draw c) (some ((machine T).observe (s.draw c) (s.task c))) := by
  refine ⟨fun hown => ?_, fun {v} hv => ?_, ?_, ?_⟩
  · rw [draw_owner] at hown
    exact h.owner hown
  · rw [draw_owner]
    have hdrawn : v ∈ s.drawn ∨ c.drawing = some v := by
      cases c with
      | createSetSession sid d =>
        obtain rfl | hv := hv
        · exact .inr rfl
        · exact .inl hv
      | _ => exact .inl hv
    obtain hv | hv := hdrawn
    · obtain hown | ⟨w, ⟨⟩, -⟩ := h.drawn hv
      exact .inl hown
    · exact .inr ⟨_, rfl, hv⟩
  · rintro w ⟨⟩
    exact hcreates
  · rintro w ⟨⟩ u hinv k ⟨hk, hlive⟩
    refine ⟨hlive, ?_⟩
    change c.invalidates = some u at hinv
    change k ∈ s.owed c at hk
    cases c with
    | invalidateScan u' cursor =>
      cases hinv
      exact hk.2
    | _ => exact hk.elim

theorem Listed.command (h : Listed known s (some t)) (hcall : s.CallOk t.call) :
    Listed known (s.after T t reply) ((t.resume reply (t.call.next T s.redis reply).2).map
      ((machine T).observe (s.after T t reply))) := by
  have hcreated : ∀ {v}, t.call.drawing = some v → ∃ d, t.call = .createSetSession v d := by
    intro v hv
    cases hc : t.call with
    | createSetSession sid d =>
      rw [hc] at hv
      cases hv
      exact ⟨d, rfl⟩
    | _ =>
      rw [hc] at hv
      cases hv
  refine ⟨fun {v u} hown => ?_, fun {v} hv => .inl ?_, fun w hw v d hcreate => ?_,
    fun w hw u hinv k hk => ?_⟩
  -- a new owner is the user of the creation, and is listed
  · by_cases hsaves : ∃ d, t.call = .createSetSession v d
    · obtain ⟨d, hd⟩ := hsaves
      have hlisted := h.creates t rfl v d hd
      unfold State.after State.record at hown
      simp only [hd, if_true, Option.some.injEq] at hown
      exact hown ▸ hlisted
    · refine h.owner (Eq.trans ?_ hown)
      unfold State.after State.record
      cases hc : t.call with
      | createSetSession sid d =>
        have hne : v ≠ sid := by
          rintro rfl
          exact hsaves ⟨d, hc⟩
        simp [hne]
      | _ => rfl
  · obtain hown | ⟨w, ⟨⟩, hdrawing⟩ := h.drawn hv
    · obtain ⟨u, hu⟩ := Option.isSome_iff_exists.mp hown
      exact Option.isSome_iff_exists.mpr ⟨u, owner_record hcall hu⟩
    · obtain ⟨d, hd⟩ := hcreated hdrawing
      unfold State.after State.record
      simp [hd]
  · obtain ⟨x, hx, rfl⟩ := Option.map_eq_some_iff.mp hw
    have hnone := drawing_next (Task.resume_eq hx).1
    rw [show x.call = _ from hcreate] at hnone
    cases hnone
  · obtain ⟨x, hx, rfl⟩ := Option.map_eq_some_iff.mp hw
    have hinv' := (invalidates_next (Task.resume_eq hx).1).symm.trans hinv
    have howed : x.owed ⊆ t.owed := by
      rw [(Task.resume_eq hx).2]
      exact Set.sdiff_subset
    exact ⟨hk.2, (h.owed t rfl u hinv' k (howed hk.1)).2⟩

/-- The scripted reply to a scan is one that Redis can give. -/
theorem Listed.replyOk (h : Listed known s (some t)) (hsound : Sound T s (some t)) :
    ReplyOk s.redis t (replyFor known s t.call) := by
  have hcall := (hsound.task t rfl).call
  have howed := h.owed t rfl
  obtain ⟨call, owed, victims⟩ := t
  cases call with
  | invalidateScan u cursor =>
    have hu : IsUuid u := hcall
    refine ⟨fun k hk => ?_, fun _ k hk => ?_⟩
    · obtain ⟨hk, hlive⟩ := List.mem_filter.mp hk
      obtain ⟨p, hp, rfl⟩ := List.mem_map.mp hk
      exact ⟨hlive, (matches_trackingKey hu.plain hu.plain p.1).mpr rfl⟩
    · obtain ⟨hlive, hmatches⟩ := howed u rfl k hk
      refine List.mem_filter.mpr ⟨?_, hlive⟩
      obtain ⟨x, hx⟩ := Option.isSome_iff_exists.mp hlive
      obtain ⟨e, he, -, -⟩ := Store.get_eq_some.mp hx
      have hplaced := hsound.wellFormed.placed he
      generalize e.value = record at hplaced
      cases hplaced with
      | session hown => exact absurd hmatches (not_matches_sessionKey hu.plain)
      | @tracking v u' hown =>
        have hu' := (hsound.wellFormed.ids hown).2.1
        obtain rfl := (matches_trackingKey hu.plain hu'.plain v).mp hmatches
        refine List.mem_map.mpr ⟨(v, u), List.mem_filter.mpr ⟨h.owner hown, ?_⟩, rfl⟩
        simp
  | _ => trivial

theorem completes_carry (hsound : Sound T s (some t)) (hlisted : Listed known s (some t))
    (h : carry T known n s t = some (c, r, s')) :
    Completes T F s t c (some r) s' ∧ Listed known s' none := by
  induction n generalizing s t with
  | zero => cases h
  | succ n ih =>
    have hreply := hlisted.replyOk hsound
    have hnext := hsound.command hreply
    have hafter : Listed known (s.after T t (replyFor known s t.call)) _ :=
      hlisted.command (T := T) (hsound.task t rfl).call
    rw [carry] at h
    split at h
    · rename_i r' hr
      cases h
      have hnone : t.resume (replyFor known s t.call)
          (t.call.next T s.redis (replyFor known s t.call)).2 = none := by rw [hr]; rfl
      rw [hnone] at hafter
      exact ⟨.finish _ hreply hr, hafter⟩
    · rename_i c' hc
      have hsome : t.resume (replyFor known s t.call)
          (t.call.next T s.redis (replyFor known s t.call)).2 =
          some { t with call := c', owed := t.owed \ t.call.scanned (replyFor known s t.call) } := by
        rw [hc]
        rfl
      rw [hsome] at hnext hafter
      obtain ⟨hrest, hend⟩ := ih hnext hafter h
      exact ⟨.command _ hreply hsome hrest, hend⟩

/-- A call that is carried out at once, from its beginning. -/
theorem carried_carry (hsound : Sound T s none) (hlisted : Listed known s none)
    (hopens : Opens s c) (hcreates : ∀ v d, c = .createSetSession v d → (v, d.userId) ∈ known)
    (h : carry T known n (s.draw c) ((machine T).observe (s.draw c) (s.task c)) =
      some (last, r, s')) :
    Carried T F s c last (some r) s' ∧ Listed known s' none :=
  completes_carry (hsound.start hopens) (hlisted.start hcreates) h

end Scripts

end IotPanel.Session
