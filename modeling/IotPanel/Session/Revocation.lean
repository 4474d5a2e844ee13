import IotPanel.Session.Refinement

/-!
# Revoked sessions under concurrency

Requests run through the guard while sessions are destroyed or invalidated. An extension reads
the session and then writes it back without looking again, so it can write after a revoking
call has deleted the session. Where that does not happen, and every session that an
invalidation is after keeps its tracking key, a revoked session stays revoked.
-/

namespace IotPanel.Session

/-- An extension writes a session back only if no revoking call has deleted it or found it
missing. -/
def NoLateWrite (s : State) (_ : Task) : Event → Prop
  | .executed (.extendSetSession sid _) _ => sid ∉ s.struck
  | _ => True

/-- Some request has read the session and is about to write it back. -/
def Extending (p : Pool State Task) (sid : String) : Prop :=
  ∃ i t d, p.threads i = some t ∧ t.call = .extendSetSession sid d

/-- While an invalidation runs, each session that it has still to delete and that is live, or
about to be written back, has a tracking key. -/
def Marked (p : Pool State Task) : Prop :=
  ∀ i t u v, p.threads i = some t → t.call.invalidates = some u → v ∈ t.victims →
    v ∉ p.shared.struck → (p.shared.redis.getSession v).isSome ∨ Extending p v →
      trackingKey u v ∈ p.shared.redis.liveKeys

/-- A step of any calls in any order, where no write comes late and no mark is missing. -/
def Untroubled (T : ℕ) (p : Pool State Task) (e : Event) (q : Pool State Task) : Prop :=
  Pool.Step ((machine T).restrict NoLateWrite) (fun _ => True) p e q ∧ Marked q

/-- The session that a call destroys. -/
def Call.destroys : Call → Option String
  | .destroyGet sid | .destroyDelSession sid _ | .destroyDelTracking sid _ => some sid
  | _ => none

/-- The victims of a call belong to the user or the session it revokes. -/
def State.VictimsOk (s : State) (t : Task) : Prop :=
  ∀ v ∈ t.victims, (∃ u, t.call.invalidates = some u ∧ s.owner v = some u) ∨
    (t.call.destroys = some v ∧ ∃ u, s.owner v = some u)

/-- What an untroubled run keeps. A session that has been struck is dead, and an invalidation
aims at each of its victims that may still live. -/
structure Revoking (p : Pool State Task) : Prop where
  owned : ∀ {sid}, sid ∈ p.shared.struck → ∃ u, p.shared.owner sid = some u
  dead : ∀ {sid}, sid ∈ p.shared.struck → p.shared.redis.getSession sid = none
  struck : p.shared.revoked ⊆ p.shared.struck
  victims : ∀ {i t}, p.threads i = some t → p.shared.VictimsOk t
  untracks : ∀ {i t sid}, p.threads i = some t → t.call.untracks = some sid →
    sid ∈ p.shared.struck
  hunted : ∀ {i t u v}, p.threads i = some t → t.call.invalidates = some u → v ∈ t.victims →
    v ∉ p.shared.struck → (p.shared.redis.getSession v).isSome ∨ Extending p v →
      trackingKey u v ∈ t.aims

variable {T : ℕ} {s s' : State} {t w : Task} {u v sid : String} {reply : Batch} {c : Call}
  {e : Event} {tr : List Event} {p q : Pool State Task} {i : ℕ}

theorem destroys_eq_next {r : Redis} {c c' : Call} (h : (c.next T r reply).2 = .inl c') :
    c'.destroys = c.destroys := by
  have hkeys : ∀ {u next keys}, nextKey u next keys = .inl c' → c'.destroys = none := by
    intro u next keys h
    obtain ⟨_, _, rfl⟩ | ⟨k, rest, _, rfl⟩ := nextKey_eq h <;> rfl
  cases c with
  | guardGet v | extendGet v | destroyGet v =>
    simp only [Call.next] at h
    cases hget : r.getSession v <;> rw [hget] at h <;> cases h
    rfl
  | invalidateScan | invalidateDelTracking => exact hkeys h
  | createSetTracking | extendSetTracking | destroyDelTracking => cases h
  | createSetSession | extendSetSession | destroyDelSession | invalidateDelSession =>
    cases h
    rfl

theorem State.VictimsOk.mono (h : s.VictimsOk t) (hcall : w.call.invalidates = t.call.invalidates)
    (hdestroys : w.call.destroys = t.call.destroys) (hvictims : w.victims = t.victims)
    (hle : ∀ {sid u}, s.owner sid = some u → s'.owner sid = some u) : s'.VictimsOk w := by
  intro v hv
  rw [hvictims] at hv
  rw [hcall, hdestroys]
  obtain ⟨u, hinv, hown⟩ | ⟨hd, u, hown⟩ := h v hv
  · exact .inl ⟨u, hinv, hle hown⟩
  · exact .inr ⟨hd, u, hle hown⟩

theorem victimsOk_of_opens (hwf : WellFormed T s) (h : Opens s c) :
    (s.draw c).VictimsOk (s.task c) := by
  intro v hv
  rw [draw_owner]
  cases h with
  | create | activate | extend => exact absurd hv (Set.notMem_empty v)
  | destroy sid =>
    obtain ⟨rfl, hcreated⟩ := hv
    exact .inr ⟨rfl, hwf.created hcreated⟩
  | invalidate hu => exact .inl ⟨_, rfl, hv.2⟩

theorem Revoking.tick (h : Revoking p) (hs : (machine T).env p.shared e s)
    (hm : Marked ⟨s, fun j => (p.threads j).map ((machine T).observe s)⟩) :
    Revoking ⟨s, fun j => (p.threads j).map ((machine T).observe s)⟩ := by
  obtain ⟨d, rfl, rfl⟩ := hs
  have hthread : ∀ {i t}, ((p.threads i).map ((machine T).observe
      { p.shared with redis := p.shared.redis.tick d })) = some t →
      ∃ w, p.threads i = some w ∧ t = (machine T).observe
        { p.shared with redis := p.shared.redis.tick d } w := by
    intro i t ht
    obtain ⟨w, hw, rfl⟩ := Option.map_eq_some_iff.mp ht
    exact ⟨w, hw, rfl⟩
  constructor
  · exact h.owned
  -- A key that is live after the tick was live before it.
  · intro sid hsid
    by_contra hlive
    have := isSome_of_tick (Option.isSome_iff_ne_none.mpr hlive)
    rw [h.dead hsid] at this
    cases this
  · exact h.struck
  · intro i t ht
    obtain ⟨w, hw, rfl⟩ := hthread ht
    exact (h.victims hw).mono rfl rfl rfl id
  · intro i t sid ht hun
    obtain ⟨w, hw, rfl⟩ := hthread ht
    exact h.untracks hw hun
  · intro i t u v ht hinv hv hstruck hlive
    have hkey := hm i t u v ht hinv hv hstruck hlive
    obtain ⟨w, hw, rfl⟩ := hthread ht
    refine aims_observe (h.hunted hw hinv hv hstruck ?_) hkey
    obtain hlive | ⟨j, x, d', hx, hcall⟩ := hlive
    · exact .inl (isSome_of_tick hlive)
    · obtain ⟨y, hy, rfl⟩ := hthread hx
      exact .inr ⟨j, y, d', hy, hcall⟩

theorem extending_put {t' : Option Task} (h : Extending (p.put (machine T) s i t') v) :
    (∃ w d, t' = some w ∧ w.call = .extendSetSession v d) ∨ Extending p v := by
  obtain ⟨j, x, d, hx, hcall⟩ := h
  obtain ⟨rfl, y, hy, rfl⟩ | ⟨_, y, hy, rfl⟩ := Pool.threads_put hx
  · exact .inl ⟨y, d, hy, hcall⟩
  · exact .inr ⟨j, y, d, hy, hcall⟩

theorem Revoking.start (hwf : WellFormed T p.shared) (h : Revoking p) (hopens : Opens p.shared c)
    (hm : Marked (p.put (machine T) (p.shared.draw c) i (some (p.shared.task c)))) :
    Revoking (p.put (machine T) (p.shared.draw c) i (some (p.shared.task c))) := by
  -- no call starts by writing a session back
  have hextending : ∀ {v}, Extending (p.put (machine T) (p.shared.draw c) i
      (some (p.shared.task c))) v → Extending p v := by
    intro v hv
    obtain ⟨w, d, hw, hcall⟩ | hv := extending_put hv
    · cases hw
      change c = _ at hcall
      subst hcall
      cases hopens
    · exact hv
  constructor
  · intro sid hsid
    rw [Pool.put_shared, draw_struck] at hsid
    rw [Pool.put_shared, draw_owner]
    exact h.owned hsid
  · intro sid hsid
    rw [Pool.put_shared, draw_struck] at hsid
    rw [Pool.put_shared, draw_redis]
    exact h.dead hsid
  · rw [Pool.put_shared, draw_revoked, draw_struck]
    exact h.struck
  · intro j t ht
    obtain ⟨rfl, w, hw, rfl⟩ | ⟨_, w, hw, rfl⟩ := Pool.threads_put ht
    · cases hw
      exact (victimsOk_of_opens hwf hopens).mono rfl rfl rfl id
    · exact (h.victims hw).mono rfl rfl rfl (by simp)
  · intro j t sid ht hun
    rw [Pool.put_shared, draw_struck]
    obtain ⟨rfl, w, hw, rfl⟩ | ⟨_, w, hw, rfl⟩ := Pool.threads_put ht
    · cases hw
      change c.untracks = some sid at hun
      cases hopens <;> cases hun
    · exact h.untracks hw hun
  · intro j t u v ht hinv hv hstruck hlive
    have hkey := hm j t u v ht hinv hv hstruck hlive
    obtain ⟨rfl, w, hw, rfl⟩ | ⟨_, w, hw, rfl⟩ := Pool.threads_put ht
    · cases hw
      change c.invalidates = some u at hinv
      cases hopens with
      | invalidate hu =>
        cases hinv
        exact .inl ⟨⟨hkey, (matches_trackingKey hu.plain hu.plain v).mpr rfl⟩, hkey⟩
      | _ => cases hinv
    · rw [Pool.put_shared, draw_struck] at hstruck
      rw [Pool.put_shared, draw_redis] at hlive
      exact aims_observe (h.hunted hw hinv hv hstruck (hlive.imp_right hextending)) hkey

theorem Revoking.fault (h : Revoking p) (hm : Marked (p.put (machine T) p.shared i none)) :
    Revoking (p.put (machine T) p.shared i none) := by
  have hthread : ∀ {j t}, (p.put (machine T) p.shared i none).threads j = some t →
      ∃ w, p.threads j = some w ∧ t = (machine T).observe p.shared w := by
    intro j t ht
    obtain ⟨_, w, hw, _⟩ | ⟨_, w, hw, rfl⟩ := Pool.threads_put ht
    · cases hw
    · exact ⟨w, hw, rfl⟩
  refine ⟨h.owned, h.dead, h.struck, fun {j t} ht => ?_, fun {j t sid} ht hun => ?_,
    fun {j t u v} ht hinv hv hstruck hlive => ?_⟩
  · obtain ⟨w, hw, rfl⟩ := hthread ht
    exact (h.victims hw).mono rfl rfl rfl id
  · obtain ⟨w, hw, rfl⟩ := hthread ht
    exact h.untracks hw hun
  · have hkey := hm j t u v ht hinv hv hstruck hlive
    obtain ⟨w, hw, rfl⟩ := hthread ht
    refine aims_observe (h.hunted hw hinv hv hstruck (hlive.imp_right fun hext => ?_)) hkey
    obtain ⟨y, d, hy, _⟩ | hext := extending_put hext
    · cases hy
    · exact hext

/-- The data of a session that has an owner is only written by an extension. -/
theorem extends_of_saves {d : SessionData} (hcall : s.CallOk c) (hown : s.owner sid = some u)
    (h : c.saves = some (sid, d)) : c = .extendSetSession sid d := by
  cases c with
  | createSetSession v d' =>
    cases h
    have hnone : s.owner sid = none := hcall.1
    rw [hown] at hnone
    cases hnone
  | extendSetSession v d' =>
    cases h
    rfl
  | _ => cases h

/-- A session that a command leaves live was live, or was about to be written back. -/
theorem live_or_extending (hcall : p.shared.CallOk t.call) (ht : p.threads i = some t)
    (hown : p.shared.owner v = some u)
    (h : ((t.call.next T p.shared.redis reply).1.getSession v).isSome) :
    t.call.deletes ≠ some v ∧ ((p.shared.redis.getSession v).isSome ∨ Extending p v) := by
  obtain ⟨d, hsave, _⟩ | ⟨_, hnone⟩ | ⟨_, hdel, hkept⟩ :=
    session_next (T := T) reply hcall v
  · exact ⟨by simp [deletes_of_saves hsave], .inr ⟨i, t, d, ht, extends_of_saves hcall hown hsave⟩⟩
  · rw [Redis.getSession, sessionAt_of_none hnone] at h
    cases h
  · rw [Redis.getSession_congr (next_now _ _ _) hkept] at h
    exact ⟨hdel, .inl h⟩

/-- A struck session stays dead, since nobody writes it back. -/
theorem Revoking.dead_next (h : Revoking p) (hcall : p.shared.CallOk t.call)
    (hlate : NoLateWrite p.shared t (.executed t.call p.shared.redis.now))
    (hsid : sid ∈ p.shared.struck) :
    (t.call.next T p.shared.redis reply).1.getSession sid = none := by
  obtain ⟨d, hsave, _⟩ | ⟨_, hnone⟩ | ⟨_, _, hkept⟩ :=
    session_next (T := T) reply hcall sid
  · obtain ⟨u, hown⟩ := h.owned hsid
    rw [extends_of_saves hcall hown hsave] at hlate
    exact absurd hsid hlate
  · exact sessionAt_of_none hnone
  · rw [Redis.getSession_congr (next_now _ _ _) hkept]
    exact h.dead hsid

/-- When a revoking call returns, none of its victims is left alive. -/
theorem Revoking.dead_of_return (h : Revoking p) (hok : p.shared.TaskOk t)
    (ht : p.threads i = some t) (hreply : ReplyOk p.shared.redis t reply) {res : Result}
    (hret : (t.call.next T p.shared.redis reply).2 = .inr res) (hv : v ∈ t.victims)
    (hstruck : v ∉ p.shared.struck) : p.shared.redis.getSession v = none := by
  obtain ⟨u, hinv, hown⟩ | ⟨hd, u, hown⟩ := h.victims ht v hv
  · by_contra hlive
    have haims := h.hunted ht hinv hv hstruck (.inl (Option.isSome_iff_ne_none.mpr hlive))
    obtain ⟨rest, next, hcall⟩ | ⟨w, hw, _⟩ := aims_resume (T := T) hok hreply hinv haims
    · rw [hcall] at hret
      cases hret
    · rw [hret] at hw
      cases hw
  · have hun : t.call.untracks = some v → v ∈ p.shared.struck := h.untracks ht
    obtain ⟨call, owed, victims⟩ := t
    cases call with
    | destroyGet sid =>
      cases hd
      cases hget : p.shared.redis.getSession v with
      | none => rfl
      | some d => simp [Call.next, hget] at hret
    | destroyDelSession sid d => cases hret
    | destroyDelTracking sid d =>
      cases hd
      exact absurd (hun rfl) hstruck
    | _ => cases hd

theorem destroys_of_invalidates (h : c.invalidates = some u) : c.destroys = none := by
  cases c with
  | destroyGet | destroyDelSession | destroyDelTracking => cases h
  | _ => rfl

theorem victims_resume {next : Call ⊕ Result} (h : t.resume reply next = some w) :
    w.victims = t.victims := by
  cases next with
  | inl c =>
    cases h
    rfl
  | inr r => cases h

theorem mem_struck_record {r : Redis} {next : Call ⊕ Result} :
    sid ∈ (s.record t r next).struck ↔
      sid ∈ s.struck ∨ t.call.deletes = some sid ∨ (next.isRight = true ∧ sid ∈ t.victims) := by
  cases next <;> simp [State.record, or_assoc]

theorem mem_revoked_record {r : Redis} {next : Call ⊕ Result} :
    sid ∈ (s.record t r next).revoked ↔
      sid ∈ s.revoked ∨ (next.isRight = true ∧ sid ∈ t.victims) := by
  cases next <;> simp [State.record]

theorem owner_of_deletes (hwf : WellFormed T s) (hcall : s.CallOk c)
    (h : c.deletes = some sid) : ∃ u, s.owner sid = some u := by
  cases c with
  | destroyDelSession v d =>
    cases h
    exact ⟨d.userId, hcall⟩
  | invalidateDelSession u key keys next =>
    exact ⟨u, owner_of_invalidated hwf hcall rfl (.inl h)⟩
  | _ => cases h

/-- The victims of an invalidation are sessions of its user. -/
theorem Revoking.owner_of_victim (h : Revoking p) (ht : p.threads i = some t)
    (hinv : t.call.invalidates = some u) (hv : v ∈ t.victims) : p.shared.owner v = some u := by
  obtain ⟨u', hinv', hown⟩ | ⟨hd, _⟩ := h.victims ht v hv
  · rw [hinv] at hinv'
    cases hinv'
    exact hown
  · rw [destroys_of_invalidates hinv] at hd
    cases hd

/-- What a command strikes is dead after it. -/
theorem Revoking.dead_after (h : Revoking p) (hok : p.shared.TaskOk t) (ht : p.threads i = some t)
    (hreply : ReplyOk p.shared.redis t reply)
    (hlate : NoLateWrite p.shared t (.executed t.call p.shared.redis.now))
    (hv : v ∈ p.shared.struck ∨ t.call.deletes = some v ∨
      ((t.call.next T p.shared.redis reply).2.isRight = true ∧ v ∈ t.victims)) :
    (t.call.next T p.shared.redis reply).1.getSession v = none := by
  by_cases hin : v ∈ p.shared.struck
  · exact h.dead_next hok.call hlate hin
  obtain hv | hdel | ⟨hret, hv⟩ := hv
  · exact absurd hv hin
  · exact sessionAt_of_none (session_deleted hok.call hdel)
  · obtain ⟨res, hres⟩ := Sum.isRight_iff.mp hret
    have hdead := h.dead_of_return hok ht hreply hres hv hin
    obtain ⟨d, hsave, _⟩ | ⟨_, hnone⟩ | ⟨_, _, hkept⟩ := session_next (T := T) reply hok.call v
    · rw [(saves_deletes_of_return hres).1] at hsave
      cases hsave
    · exact sessionAt_of_none hnone
    · rw [Redis.getSession_congr (next_now _ _ _) hkept]
      exact hdead

/-- A session that is live after a command, or about to be written back, was so before it. -/
theorem live_before (hcall : p.shared.CallOk t.call) (ht : p.threads i = some t)
    (hown : p.shared.owner v = some u) (hs' : s'.redis = (t.call.next T p.shared.redis reply).1)
    (hlive : (s'.redis.getSession v).isSome ∨ Extending (p.put (machine T) s' i
      (t.resume reply (t.call.next T p.shared.redis reply).2)) v) :
    (p.shared.redis.getSession v).isSome ∨ Extending p v := by
  obtain hlive | hext := hlive
  · rw [hs'] at hlive
    exact (live_or_extending hcall ht hown hlive).2
  · obtain ⟨w, d, hw, hcall⟩ | hext := extending_put hext
    · exact .inl (extends_next (hcall ▸ (Task.resume_eq hw).1)).2
    · exact .inr hext

theorem Revoking.command (hwf : WellFormed T p.shared) (hok : p.shared.TaskOk t)
    (ht : p.threads i = some t) (hreply : ReplyOk p.shared.redis t reply)
    (hlate : NoLateWrite p.shared t (.executed t.call p.shared.redis.now)) (h : Revoking p)
    (hs' : s' = p.shared.record t (t.call.next T p.shared.redis reply).1
      (t.call.next T p.shared.redis reply).2)
    (hm : Marked (p.put (machine T) s' i
      (t.resume reply (t.call.next T p.shared.redis reply).2))) :
    Revoking (p.put (machine T) s' i (t.resume reply (t.call.next T p.shared.redis reply).2)) := by
  have hredis : s'.redis = (t.call.next T p.shared.redis reply).1 := by rw [hs']; rfl
  have howner : ∀ {v u}, p.shared.owner v = some u → s'.owner v = some u := by
    rw [hs']
    exact owner_record hok.call
  have hstruck : ∀ {v}, v ∈ s'.struck ↔ v ∈ p.shared.struck ∨ t.call.deletes = some v ∨
      ((t.call.next T p.shared.redis reply).2.isRight = true ∧ v ∈ t.victims) := by
    rw [hs']
    exact mem_struck_record
  constructor
  · intro v hv
    obtain hv | hdel | ⟨_, hv⟩ := hstruck.mp hv
    · obtain ⟨u, hown⟩ := h.owned hv
      exact ⟨u, howner hown⟩
    · obtain ⟨u, hown⟩ := owner_of_deletes hwf hok.call hdel
      exact ⟨u, howner hown⟩
    · obtain ⟨u, _, hown⟩ | ⟨_, u, hown⟩ := h.victims ht v hv
      · exact ⟨u, howner hown⟩
      · exact ⟨u, howner hown⟩
  · intro v hv
    rw [Pool.put_shared, hredis]
    exact h.dead_after hok ht hreply hlate (hstruck.mp hv)
  · intro v hv
    rw [Pool.put_shared, hs', mem_revoked_record] at hv
    refine hstruck.mpr ?_
    obtain hv | hv := hv
    · exact .inl (h.struck hv)
    · exact .inr (.inr hv)
  · intro j w hw
    obtain ⟨rfl, x, hx, rfl⟩ | ⟨_, x, hx, rfl⟩ := Pool.threads_put hw
    · have hnext := (Task.resume_eq hx).1
      have hvictims : x.victims = t.victims := victims_resume hx
      exact (h.victims ht).mono (invalidates_next hnext) (destroys_eq_next hnext) hvictims howner
    · exact (h.victims hx).mono rfl rfl rfl howner
  · intro j w v hw hun
    obtain ⟨rfl, x, hx, rfl⟩ | ⟨_, x, hx, rfl⟩ := Pool.threads_put hw
    · have hdel : t.call.deletes = some v := (tracks_next (Task.resume_eq hx).1).2 ▸ hun
      exact hstruck.mpr (.inr (.inl hdel))
    · exact hstruck.mpr (.inl (h.untracks hx hun))
  · intro j w u v hw hinv hv hnot hlive
    have hkey := hm j w u v hw hinv hv hnot hlive
    have hnot' := mt hstruck.mpr hnot
    -- what was an aim before the command is one after it, unless the command deletes the session
    have haims : ∀ {j x}, p.threads j = some x → x.call.invalidates = some u → v ∈ x.victims →
        p.shared.owner v = some u ∧ trackingKey u v ∈ x.aims := by
      intro j x hx hinv hv
      have hown := h.owner_of_victim hx hinv hv
      exact ⟨hown, h.hunted hx hinv hv (fun hin => hnot' (.inl hin))
        (live_before hok.call ht hown hredis hlive)⟩
    obtain ⟨rfl, x, hx, rfl⟩ | ⟨_, x, hx, rfl⟩ := Pool.threads_put hw
    · have hinv' : t.call.invalidates = some u := (invalidates_next (Task.resume_eq hx).1).symm.trans hinv
      have hv' : v ∈ t.victims := victims_resume hx ▸ hv
      obtain ⟨hown, haim⟩ := haims ht hinv' hv'
      obtain ⟨y, hy, hk⟩ := aims_kept hwf hok hreply hinv' hown haim fun hdel =>
        hnot' (.inr (.inl hdel))
      rw [hx] at hy
      cases hy
      exact aims_observe hk hkey
    · exact aims_observe (haims hx hinv hv).2 hkey

theorem Revoking.step (h : Revoking p) (hp : Pool.Holds (WellFormed T) State.TaskOk Apart p)
    (hs : Untroubled T p e q) : Revoking q := by
  obtain ⟨hs, hm⟩ := hs
  cases hs with
  | env henv => exact h.tick (T := T) henv hm
  | spawn i _ _ hspawn =>
    obtain ⟨c, hopens, rfl, rfl, rfl⟩ := hspawn
    exact h.start hp.shared hopens hm
  | exec i ht hexec =>
    obtain ⟨hexec, hlate⟩ := hexec
    cases hexec with
    | fault => exact h.fault (T := T) hm
    | command reply hreply =>
      exact h.command hp.shared (hp.thread ht) ht hreply hlate rfl hm

theorem revoking_initial : Revoking (Pool.start .initial) where
  owned h := absurd h (Set.notMem_empty _)
  dead _ := rfl
  struck := subset_rfl
  victims h := by cases h
  untracks h := by cases h
  hunted h := by cases h

theorem Untroubled.holds (h : Run (Untroubled T) (Pool.start .initial) tr p) :
    Pool.Holds (WellFormed T) State.TaskOk Apart p :=
  (Pool.holds_start (wellFormed_initial T)).run ((outline T).restrict _)
    (h.mono fun hs => hs.1)

theorem Untroubled.revoking (h : Run (Untroubled T) (Pool.start .initial) tr p) : Revoking p :=
  h.induct (I := fun _ p => Revoking p) revoking_initial fun hrun hp hs =>
    hp.step (Untroubled.holds hrun) hs

/-- In an untroubled run every session that a finished call has revoked is gone, whatever else is
still running; and a write that comes late brings the session back. -/
theorem revoked_of_untroubled (h : Run (Untroubled T) (Pool.start .initial) tr p) :
    (∀ sid ∈ p.shared.revoked, p.shared.redis.getSession sid = none) ∧
      ∀ sid d q, 0 < T → sid ∈ p.shared.revoked →
        Pool.Step (machine T) (fun _ => True) p
          (.executed (.extendSetSession sid d) p.shared.redis.now) q →
        sid ∈ q.shared.revoked ∧ q.shared.redis.getSession sid = some d := by
  have hrev := Untroubled.revoking h
  refine ⟨fun sid hsid => hrev.dead (hrev.struck hsid), fun sid d q hT hsid hs => ?_⟩
  generalize he : Event.executed (.extendSetSession sid d) p.shared.redis.now = e at hs
  cases hs with
  | env henv =>
    obtain ⟨n, hn, _⟩ := henv
    rw [hn] at he
    cases he
  | spawn i _ _ hspawn =>
    obtain ⟨c, _, hc, _⟩ := hspawn
    rw [hc] at he
    cases he
  | @exec s' t t' i ht hexec =>
    cases hexec with
    | fault => cases he
    | command reply hreply =>
      obtain ⟨call, owed, victims⟩ := t
      cases he
      refine ⟨mem_revoked_record.mpr (.inl hsid), ?_⟩
      simp [Pool.put, State.record, Call.next, Redis.getSession, Redis.sessionAt, Store.get, hT,
        Redis.setex, Store.setex]

/-- A request that overlaps the logout of its session, and writes it back in time. -/
def logout : List Move :=
  login ++ [.start 0 (canActivate visitorSession), .command 0 ⟨"0", []⟩,
    .start 1 (destroySession visitorSession), .command 1 ⟨"0", []⟩, .command 0 ⟨"0", []⟩,
    .command 0 ⟨"0", []⟩, .command 0 ⟨"0", []⟩, .command 1 ⟨"0", []⟩, .command 1 ⟨"0", []⟩]

theorem revoked_of_untroubled_logout :
    let p := logout.foldl (move 60) (Pool.start .initial)
    visitorSession ∈ p.shared.revoked ∧
      (∀ sid ∈ p.shared.revoked, p.shared.redis.getSession sid = none) ∧
      ∀ sid d q, 0 < 60 → sid ∈ p.shared.revoked →
        Pool.Step (machine 60) (fun _ => True) p
          (.executed (.extendSetSession sid d) p.shared.redis.now) q →
        sid ∈ q.shared.revoked ∧ q.shared.redis.getSession sid = some d := by
  -- the session is written back before anything has been deleted
  have hstruck : visitorSession ∉
      ((logout.take 8).foldl (move 60) (Pool.start .initial)).shared.struck := by
    rintro ((((((((((h | h) | h) | h) | h) | h) | h) | h) | h) | h) | h) <;> cases h
  have hlegal : LegalScript 60 NoLateWrite (fun _ => True) Marked (Pool.start .initial) logout := by
    refine ⟨⟨rfl, trivial, opens_visitor⟩, ?_, ⟨_, rfl, trivial, trivial⟩, ?_,
      ⟨_, rfl, trivial, trivial⟩, ?_, ⟨rfl, trivial, .activate _⟩, ?_,
      ⟨_, rfl, trivial, trivial⟩, ?_, ⟨rfl, trivial, .destroy _⟩, ?_,
      ⟨_, rfl, trivial, trivial⟩, ?_, ⟨_, rfl, trivial, trivial⟩, ?_,
      ⟨_, rfl, trivial, hstruck⟩, ?_, ⟨_, rfl, trivial, trivial⟩, ?_,
      ⟨_, rfl, trivial, trivial⟩, ?_, ⟨_, rfl, trivial, trivial⟩, ?_, trivial⟩
    all_goals
      rintro (_ | _ | i) t u v ht hinv <;> cases ht <;> cases hinv
  obtain ⟨tr, hrun⟩ := run_of_script hlegal
  exact ⟨Or.inr ⟨rfl, Or.inl rfl⟩, revoked_of_untroubled hrun⟩

/-- A request that overlaps the logout of its session. -/
def lateWrite : List Move :=
  login ++ [.start 0 (canActivate visitorSession), .command 0 ⟨"0", []⟩, .command 0 ⟨"0", []⟩,
    .start 1 (destroySession visitorSession), .command 1 ⟨"0", []⟩, .command 1 ⟨"0", []⟩,
    .command 1 ⟨"0", []⟩, .command 0 ⟨"0", []⟩, .command 0 ⟨"0", []⟩]

/-- The request has read the session before the logout deletes it, and writes it back after. -/
theorem not_revoked_of_lateWrite :
    ¬ ∀ (T : ℕ) (tr : List Event) (p : Pool State Task),
      Run (Pool.Step (machine T) fun _ => True) (Pool.start .initial) tr p → p.Idle →
        ∀ sid ∈ p.shared.revoked, p.shared.redis.getSession sid = none := by
  intro h
  have hlegal : LegalScript 60 (fun _ _ _ => True) (fun _ => True) (fun _ => True)
      (Pool.start .initial) lateWrite :=
    ⟨⟨rfl, trivial, opens_visitor⟩, trivial, ⟨_, rfl, trivial, trivial⟩, trivial,
      ⟨_, rfl, trivial, trivial⟩, trivial, ⟨rfl, trivial, .activate _⟩, trivial,
      ⟨_, rfl, trivial, trivial⟩, trivial, ⟨_, rfl, trivial, trivial⟩, trivial,
      ⟨rfl, trivial, .destroy _⟩, trivial, ⟨_, rfl, trivial, trivial⟩, trivial,
      ⟨_, rfl, trivial, trivial⟩, trivial, ⟨_, rfl, trivial, trivial⟩, trivial,
      ⟨_, rfl, trivial, trivial⟩, trivial, ⟨_, rfl, trivial, trivial⟩, trivial, trivial⟩
  obtain ⟨tr, hrun⟩ := run_of_script hlegal
  have hidle : (lateWrite.foldl (move 60) (Pool.start .initial)).Idle := by
    intro i
    rcases i with _ | _ | i <;> rfl
  have hrevoked : visitorSession ∈
      (lateWrite.foldl (move 60) (Pool.start .initial)).shared.revoked :=
    Or.inl (Or.inl (Or.inr ⟨rfl, Or.inl rfl⟩))
  have hnone := h 60 tr _ (hrun.mono fun hs => hs.1.of_restrict) hidle visitorSession hrevoked
  cases hnone

end IotPanel.Session
