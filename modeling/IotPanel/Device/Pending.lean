import IotPanel.Device.Effect

/-!
# Pending requests

What holds of the cache along every run. An entry is written at most once for a request id,
under the key of that id and of no other, and it stays there until a delivery deletes it.
-/

namespace IotPanel.Device

open Responser (pendingKey checkCached)
open Session (IsUuid)

variable {cfg : Config} {s s' : State} {i : ℕ} {r : String} {op : RequestOp} {d : Delivery}

theorem pendingKey_str (r : String) : pendingKey (some (.str r)) = "pending:" ++ r := rfl

@[simp] theorem pendingKey_inj {a b : String} :
    pendingKey (some (.str a)) = pendingKey (some (.str b)) ↔ a = b := by
  simp [pendingKey_str]

@[simp] theorem entry_requestId (op : RequestOp) (r : String) :
    (op.entry r).get "requestId" = some (.str r) := rfl

@[simp] theorem entry_userId (op : RequestOp) (r : String) :
    (op.entry r).get "userId" = some (.str op.userId) := rfl

/-- Two writes on their way to the cache are for different requests. -/
def Setex.Apart (f g : Setex) : Prop := f.key = g.key → f.key = undefinedEntry.key

theorem Setex.Apart.symm {f g : Setex} (h : f.Apart g) : g.Apart f :=
  fun hkey => hkey.trans (h hkey.symm)

/-- The payload has the id `r` and the user of the request of `op`. -/
structure Carries (payload : Json) (r : String) (op : RequestOp) : Prop where
  requestId : payload.get "requestId" = some (.str r)
  userId : payload.get "userId" = some (.str op.userId)

/-- The entry of the request that `op` issued under `r` has reached the cache, has not expired
and has not been deleted. -/
structure State.Pending (cfg : Config) (s : State) (r : String) (op : RequestOp) : Prop where
  issued : s.issued r = some op
  live : ∃ tl, s.landed r = some tl ∧ s.world.now < tl + 1000 * cfg.ttl
  kept : ∀ i, (i, pendingKey (some (.str r))) ∉ s.deleted

/-- The delivery `d` was checked at time `ta` against the entry of the request that `op` issued
under `r`, which reached the cache at time `tl` and was still live. -/
structure Matched (cfg : Config) (s : State) (d : Delivery) (ta : ℕ) (r : String)
    (op : RequestOp) (tl : ℕ) : Prop where
  carries : Carries d.payload r op
  issued : s.issued r = some op
  landed : s.landed r = some tl
  after : tl ≤ ta
  before : ta < tl + 1000 * cfg.ttl

/-- The cache holds nothing but entries of requests, each as it was sent. -/
structure WellFormed (cfg : Config) (s : State) : Prop where
  drew : ∀ {r i}, s.drew r = some i → IsUuid r
  issued : ∀ {r op}, s.issued r = some op → (s.drew r).isSome
  landed : ∀ {r tl}, s.landed r = some tl → (s.issued r).isSome ∧ tl ≤ s.world.now
  inFlight : ∀ f ∈ s.world.inFlight, f = undefinedEntry ∨
    ∃ r op, f = ⟨pendingKey (some (.str r)), op.entry r⟩ ∧ s.issued r = some op ∧
      s.landed r = none
  apart : s.world.inFlight.Pairwise Setex.Apart
  cached : ∀ {key e}, s.world.cache key = some e →
    (key = undefinedEntry.key ∧ e.value = undefinedEntry.value) ∨
    ∃ r op tl, key = pendingKey (some (.str r)) ∧ s.issued r = some op ∧
      s.landed r = some tl ∧ e = ⟨op.entry r, tl + 1000 * cfg.ttl⟩
  kept : ∀ {r op tl}, s.issued r = some op → s.landed r = some tl →
    (∀ i, (i, pendingKey (some (.str r))) ∉ s.deleted) →
    s.world.cache (pendingKey (some (.str r))) = some ⟨op.entry r, tl + 1000 * cfg.ttl⟩
  deleted : ∀ {i r}, (i, pendingKey (some (.str r))) ∈ s.deleted →
    (s.issued r).isSome ∧ (s.landed r).isSome ∧ s.world.cache (pendingKey (some (.str r))) = none
  accepted : ∀ {i d ta}, (i, d, ta) ∈ s.accepted →
    ta ≤ s.world.now ∧ ∃ r op tl, Matched cfg s d ta r op tl
  applied : ∀ {i d}, (i, d) ∈ s.applied → ∃ ta, (i, d, ta) ∈ s.accepted

/-- What a job knows of its own request id, or of its own check. -/
def Job.Holds (s : State) (id : ℕ) : Job → Prop
  | .request _ .fresh => True
  | .request _ (.drew r) => s.drew r = some id ∧ s.issued r = none
  | .request op (.cached r) => s.issued r = some op
  | .delivery d .accepted => ∃ ta, (id, d, ta) ∈ s.accepted
  | .delivery _ _ => True

structure Thread.Holds (s : State) (t : Thread) : Prop where
  follows : t.job.Follows t.prog
  started : t.id < s.started
  job : t.job.Holds s t.id

def Thread.Differs (t u : Thread) : Prop := t.id ≠ u.id

theorem wellFormed_initial (cfg : Config) (w : World) : WellFormed cfg (.initial w) where
  drew h := by cases h
  issued h := by cases h
  landed h := by cases h
  inFlight f hf := by cases hf
  apart := .nil
  cached h := by cases h
  kept h := by cases h
  deleted h := by cases h
  accepted h := by cases h
  applied h := by cases h

/-! ### Replies and the cache -/

theorem Delivery.Validated.requestId (h : d.Validated) :
    ∃ r, d.payload.get "requestId" = some (.str r) := by
  obtain ⟨time, hvalid⟩ := h
  have hmem : Responser.requestIdProperty ∈ d.kind.dto time := by
    cases d.kind <;> simp [Responser.ResponseType.dto, Responser.discoveryResponseDto,
      Responser.sensorFunctionalityResponseDto, Responser.ackResponseDto,
      Responser.fwUpgradeResponseDto, Responser.heartbeatDto, Responser.deviceRebootResponseDto,
      Responser.telemetryResponseDto, Responser.hardwareStatusResponseDto]
  exact ClassValidator.exists_str_of_isString
    (ClassValidator.test_of_validate hvalid hmem (by simp))

theorem eq_of_strictEq_str {a : String} {v : JsVal} (h : JsVal.strictEq (some (.str a)) v = true) :
    v = some (.str a) := by
  cases v with
  | none => cases h
  | some j =>
    cases j with
    | str b => rw [eq_of_beq h]
    | _ => cases h

theorem eq_of_get {payload : Json} {a b : String} (ha : payload.get "requestId" = some (.str a))
    (hb : payload.get "requestId" = some (.str b)) : a = b := by
  rw [ha] at hb
  exact Json.str.inj (Option.some.inj hb)

/-- The comparison with a cached request passes for its two ids only. -/
theorem checked_entry (d : Delivery) (op : RequestOp) (r : String) :
    d.checked (some (op.entry r)) = .accepted ↔ Carries d.payload r op := by
  unfold Delivery.checked checkCached
  simp only [entry_requestId, entry_userId, Bool.and_eq_true]
  constructor
  · intro h
    split at h
    · rename_i hok
      split at hok
      · rename_i hids
        exact ⟨eq_of_strictEq_str hids.1, eq_of_strictEq_str hids.2⟩
      · cases hok
    · cases h
  · intro ⟨hid, huser⟩
    rw [hid, huser]
    simp [JsVal.strictEq]

theorem checked_undefinedEntry (h : d.payload.get "requestId" = some (.str r)) :
    d.checked (some undefinedEntry.value) = .refused := by
  have hids : JsVal.strictEq (undefinedEntry.value.get "requestId")
      (d.payload.get "requestId") = false := by
    rw [h]
    rfl
  unfold Delivery.checked checkCached
  simp [hids]

namespace WellFormed

/-- The entry of a pending request is what a read of its key returns. -/
theorem get_of_pending (h : WellFormed cfg s) (hp : s.Pending cfg r op) :
    s.world.cache.get s.world.now (pendingKey (some (.str r))) = some (op.entry r) := by
  obtain ⟨tl, hl, hlive⟩ := hp.live
  exact Store.get_eq_some.mpr ⟨_, h.kept hp.issued hl hp.kept, hlive, rfl⟩

/-- What a read of a pending key returns is the entry of a pending request, or the object without
properties that `getDeviceTelemetry` has sent. -/
theorem pending_of_get {v : Json} (h : WellFormed cfg s)
    (hget : s.world.cache.get s.world.now (pendingKey (some (.str r))) = some v) :
    v = undefinedEntry.value ∨ ∃ op, v = op.entry r ∧ s.Pending cfg r op := by
  obtain ⟨e, he, hlive, rfl⟩ := Store.get_eq_some.mp hget
  obtain ⟨-, hvalue⟩ | ⟨r', op, tl, hkey, hissued, hl, rfl⟩ := h.cached he
  · exact .inl hvalue
  · obtain rfl := pendingKey_inj.mp hkey
    refine .inr ⟨op, rfl, hissued, ⟨tl, hl, hlive⟩, fun i hi => ?_⟩
    rw [(h.deleted hi).2.2] at he
    cases he

/-- A reply that passes the check carries the ids of a pending request. -/
theorem pending_of_checked (h : WellFormed cfg s) (hvalid : d.Validated)
    (hchecked : d.checked (s.lookup d) = .accepted) :
    ∃ r op, Carries d.payload r op ∧ s.Pending cfg r op := by
  obtain ⟨r, hr⟩ := hvalid.requestId
  cases hcached : s.lookup d with
  | none =>
    rw [hcached] at hchecked
    cases hchecked
  | some entry =>
    have hget := hcached
    rw [State.lookup, hr] at hget
    rw [hcached] at hchecked
    obtain rfl | ⟨op, rfl, hp⟩ := h.pending_of_get hget
    · rw [checked_undefinedEntry hr] at hchecked
      cases hchecked
    · exact ⟨r, op, (checked_entry d op r).mp hchecked, hp⟩

/-- A reply with the ids of a pending request passes the check. -/
theorem checked_of_pending (h : WellFormed cfg s) (hp : s.Pending cfg r op)
    (hc : Carries d.payload r op) : d.checked (s.lookup d) = .accepted := by
  rw [State.lookup, hc.requestId, h.get_of_pending hp]
  exact (checked_entry d op r).mpr hc

/-- An id that is not issued yet has been accepted by no delivery. -/
theorem issued_of_accepted {i ta : ℕ} (h : WellFormed cfg s) (hd : (i, d, ta) ∈ s.accepted)
    (hr : d.payload.get "requestId" = some (.str r)) : s.issued r ≠ none := by
  obtain ⟨-, v, op, tl, hm⟩ := h.accepted hd
  rw [eq_of_get hr hm.carries.requestId, hm.issued]
  rintro ⟨⟩

theorem matched (h : WellFormed cfg s) (hp : s.Pending cfg r op) (hc : Carries d.payload r op) :
    ∃ tl, Matched cfg s d s.world.now r op tl := by
  obtain ⟨tl, hl, hlive⟩ := hp.live
  exact ⟨tl, hc, hp.issued, hl, (h.landed hl).2, hlive⟩

end WellFormed

theorem Matched.mono {ta tl : ℕ} (h : Matched cfg s d ta r op tl)
    (hissued : ∀ {r op}, s.issued r = some op → s'.issued r = some op)
    (hlanded : ∀ {r tl}, s.landed r = some tl → s'.landed r = some tl) :
    Matched cfg s' d ta r op tl where
  carries := h.carries
  issued := hissued h.issued
  landed := hlanded h.landed
  after := h.after
  before := h.before

/-- What is known of the accepted deliveries rests on what stays recorded of the requests. -/
theorem WellFormed.accepted_mono {ta : ℕ} (h : WellFormed cfg s) (hnow : s.world.now ≤ s'.world.now)
    (hissued : ∀ {r op}, s.issued r = some op → s'.issued r = some op)
    (hlanded : ∀ {r tl}, s.landed r = some tl → s'.landed r = some tl)
    (hi : (i, d, ta) ∈ s.accepted) :
    ta ≤ s'.world.now ∧ ∃ r op tl, Matched cfg s' d ta r op tl := by
  obtain ⟨hta, r, op, tl, hm⟩ := h.accepted hi
  exact ⟨hta.trans hnow, r, op, tl, hm.mono hissued hlanded⟩

/-! ### Steps -/

namespace WellFormed

/-- The key of an id that has been issued is not the one that `getDeviceTelemetry` writes. -/
theorem key_ne (h : WellFormed cfg s) (hr : (s.issued r).isSome) :
    pendingKey (some (.str r)) ≠ undefinedEntry.key := by
  obtain ⟨op, hop⟩ := Option.isSome_iff_exists.mp hr
  obtain ⟨i, hi⟩ := Option.isSome_iff_exists.mp (h.issued hop)
  have huuid := h.drew hi
  intro hkey
  have hundefined : undefinedEntry.key = pendingKey (some (.str "undefined")) := rfl
  rw [hundefined, pendingKey_inj] at hkey
  rw [hkey] at huuid
  exact absurd huuid (by decide)

theorem sameCache {w : World} (h : WellFormed cfg s) (hw : s.world.SameCache w) :
    WellFormed cfg { s with world := w } where
  drew := h.drew
  issued := h.issued
  landed hr := by
    rw [hw.now]
    exact h.landed hr
  inFlight := by
    rw [hw.inFlight]
    exact h.inFlight
  apart := by
    rw [hw.inFlight]
    exact h.apart
  cached := by
    rw [hw.cache]
    exact h.cached
  kept := by
    rw [hw.cache]
    exact h.kept
  deleted := by
    rw [hw.cache]
    exact h.deleted
  accepted := h.accepted_mono hw.now.ge id id
  applied := h.applied

theorem apply (h : WellFormed cfg s) (hd : ∃ ta, (i, d, ta) ∈ s.accepted) :
    WellFormed cfg { s with applied := (i, d) :: s.applied } where
  drew := h.drew
  issued := h.issued
  landed := h.landed
  inFlight := h.inFlight
  apart := h.apart
  cached := h.cached
  kept := h.kept
  deleted := h.deleted
  accepted := h.accepted_mono le_rfl id id
  applied hi := by
    rcases List.mem_cons.mp hi with heq | hi
    · cases heq
      exact hd
    · exact h.applied hi

theorem draw (h : WellFormed cfg s) (huuid : IsUuid r) :
    WellFormed cfg { s with drew := fun v => if v = r then some i else s.drew v } where
  drew {v i} hi := by
    by_cases hv : v = r
    · rw [hv]
      exact huuid
    · exact h.drew (by simpa [hv] using hi)
  issued {v op} hop := by
    by_cases hv : v = r
    · simp [hv]
    · simpa [hv] using h.issued hop
  landed := h.landed
  inFlight := h.inFlight
  apart := h.apart
  cached := h.cached
  kept := h.kept
  deleted := h.deleted
  accepted := h.accepted_mono le_rfl id id
  applied := h.applied

theorem find {ta : ℕ} (h : WellFormed cfg s) (hta : ta ≤ s.world.now)
    (hd : ∃ r op tl, Matched cfg s d ta r op tl) :
    WellFormed cfg { s with accepted := (i, d, ta) :: s.accepted } where
  drew := h.drew
  issued := h.issued
  landed := h.landed
  inFlight := h.inFlight
  apart := h.apart
  cached := h.cached
  kept := h.kept
  deleted := h.deleted
  accepted hi := by
    rcases List.mem_cons.mp hi with heq | hi
    · cases heq
      obtain ⟨r, op, tl, hm⟩ := hd
      exact ⟨hta, r, op, tl, hm.mono id id⟩
    · exact h.accepted_mono le_rfl id id hi
  applied hi := by
    obtain ⟨ta, hta⟩ := h.applied hi
    exact ⟨ta, List.mem_cons_of_mem _ hta⟩

theorem sendUndefined (h : WellFormed cfg s) : WellFormed cfg (s.send undefinedEntry) where
  drew := h.drew
  issued := h.issued
  landed := h.landed
  inFlight f hf := by
    rcases List.mem_append.mp hf with hf | hf
    · exact h.inFlight f hf
    · exact .inl (List.mem_singleton.mp hf)
  apart := by
    refine List.pairwise_append.mpr ⟨h.apart, List.pairwise_singleton _ _, ?_⟩
    intro f hf g hg hkey
    rw [hkey, List.mem_singleton.mp hg]
  cached := h.cached
  kept := h.kept
  deleted := h.deleted
  accepted := h.accepted_mono le_rfl id id
  applied := h.applied

/-- The id has not been issued before, so nothing has been recorded or sent under it. -/
theorem issue (h : WellFormed cfg s) (hdrew : s.drew r = some i) (hnew : s.issued r = none) :
    WellFormed cfg (s.issue op r) := by
  have hkeep : ∀ {v op'}, s.issued v = some op' → (s.issue op r).issued v = some op' := by
    intro v op' hv
    have hne : v ≠ r := by
      rintro rfl
      rw [hnew] at hv
      cases hv
    simpa [State.issue, hne] using hv
  have hself : (s.issue op r).issued r = some op := by simp [State.issue]
  -- only what has been issued can have landed
  have hlanded : s.landed r = none := by
    cases hl : s.landed r with
    | none => rfl
    | some tl =>
      have := (h.landed hl).1
      rw [hnew] at this
      cases this
  have hsome : ∀ {v}, (s.issued v).isSome → ((s.issue op r).issued v).isSome := by
    intro v hv
    obtain ⟨op', hop'⟩ := Option.isSome_iff_exists.mp hv
    rw [hkeep hop']
    rfl
  refine ⟨h.drew, ?_, ?_, ?_, ?_, ?_, ?_, ?_, ?_, h.applied⟩
  · intro v op' hop'
    by_cases hv : v = r
    · rw [hv]
      exact Option.isSome_iff_exists.mpr ⟨i, hdrew⟩
    · exact h.issued (by simpa [State.issue, hv] using hop')
  · intro v tl hv
    exact ⟨hsome (h.landed hv).1, (h.landed hv).2⟩
  · intro f hf
    rcases List.mem_append.mp hf with hf | hf
    · obtain hu | ⟨v, op', hfv, hissued, hnone⟩ := h.inFlight f hf
      · exact .inl hu
      · exact .inr ⟨v, op', hfv, hkeep hissued, hnone⟩
    · exact .inr ⟨r, op, List.mem_singleton.mp hf, hself, hlanded⟩
  · refine List.pairwise_append.mpr ⟨h.apart, List.pairwise_singleton _ _, ?_⟩
    intro f hf g hg hkey
    obtain rfl := List.mem_singleton.mp hg
    obtain rfl | ⟨v, op', rfl, hissued, -⟩ := h.inFlight f hf
    · rfl
    · obtain rfl : v = r := pendingKey_inj.mp hkey
      rw [hnew] at hissued
      cases hissued
  · intro key e he
    obtain hu | ⟨v, op', tl, hkey, hissued, hl, he⟩ := h.cached he
    · exact .inl hu
    · exact .inr ⟨v, op', tl, hkey, hkeep hissued, hl, he⟩
  · intro v op' tl hissued hl hdel
    obtain ⟨op'', hop''⟩ := Option.isSome_iff_exists.mp (h.landed hl).1
    rw [hkeep hop''] at hissued
    cases hissued
    exact h.kept hop'' hl hdel
  · intro j v hj
    obtain ⟨hissued, hrest⟩ := h.deleted hj
    exact ⟨hsome hissued, hrest⟩
  · exact h.accepted_mono le_rfl hkeep id

/-- A delivery deletes the key of the request that it has been checked against. -/
theorem delete (h : WellFormed cfg s) (hd : ∃ ta, (i, d, ta) ∈ s.accepted) :
    WellFormed cfg (s.delete i (pendingKey (d.payload.get "requestId"))) := by
  obtain ⟨ta, hta⟩ := hd
  obtain ⟨-, v, op', tl, hm⟩ := h.accepted hta
  rw [hm.carries.requestId]
  refine ⟨h.drew, h.issued, h.landed, h.inFlight, h.apart, ?_, ?_, ?_, ?_, h.applied⟩
  · intro key e he
    by_cases hkey : key = pendingKey (some (.str v))
    · simp [State.delete, Store.del, hkey] at he
    · exact h.cached (by simpa [State.delete, Store.del, hkey] using he)
  · intro r op tl hissued hl hdel
    have hne : r ≠ v := by
      rintro rfl
      exact hdel i List.mem_cons_self
    have hkept := h.kept hissued hl fun j hj => hdel j (List.mem_cons_of_mem _ hj)
    simpa [State.delete, Store.del, hne] using hkept
  · intro j r hj
    by_cases hr : r = v
    · subst hr
      refine ⟨?_, ?_, by simp [State.delete, Store.del]⟩
      · exact Option.isSome_iff_exists.mpr ⟨op', hm.issued⟩
      · exact Option.isSome_iff_exists.mpr ⟨tl, hm.landed⟩
    · have hj' : (j, pendingKey (some (.str r))) ∈ s.deleted := by
        simpa [State.delete, hr] using hj
      obtain ⟨hissued, hl, hcache⟩ := h.deleted hj'
      exact ⟨hissued, hl, by simpa [State.delete, Store.del, hr] using hcache⟩
  · exact h.accepted_mono le_rfl id id

theorem tick (h : WellFormed cfg s) (n : ℕ) :
    WellFormed cfg { s with world := { s.world with now := s.world.now + n } } where
  drew := h.drew
  issued := h.issued
  landed hl := ⟨(h.landed hl).1, Nat.le_add_right_of_le (h.landed hl).2⟩
  inFlight := h.inFlight
  apart := h.apart
  cached := h.cached
  kept := h.kept
  deleted := h.deleted
  accepted := h.accepted_mono (Nat.le_add_right _ _) id id
  applied := h.applied

section InFlight

variable {f : Setex} {before after : List Setex}

theorem apart_rest (h : WellFormed cfg s) (hf : s.world.inFlight = before ++ f :: after) :
    (∀ g ∈ before ++ after, f.Apart g) ∧ (before ++ after).Pairwise Setex.Apart := by
  have hpair := h.apart
  rw [hf, List.pairwise_middle Setex.Apart.symm, List.pairwise_cons] at hpair
  exact hpair

theorem mem_inFlight (hf : s.world.inFlight = before ++ f :: after) {g : Setex}
    (hg : g ∈ before ++ after) : g ∈ s.world.inFlight := by
  rw [hf]
  rcases List.mem_append.mp hg with hg | hg
  · exact List.mem_append_left _ hg
  · exact List.mem_append_right _ (List.mem_cons_of_mem _ hg)

theorem lose (h : WellFormed cfg s) (hf : s.world.inFlight = before ++ f :: after) :
    WellFormed cfg { s with world := { s.world with inFlight := before ++ after } } where
  drew := h.drew
  issued := h.issued
  landed := h.landed
  inFlight g hg := h.inFlight g (mem_inFlight hf hg)
  apart := (h.apart_rest hf).2
  cached := h.cached
  kept := h.kept
  deleted := h.deleted
  accepted := h.accepted_mono le_rfl id id
  applied := h.applied

/-- The write of `getDeviceTelemetry` reaches the cache, under a key that no request has. -/
theorem landUndefined (h : WellFormed cfg s)
    (hf : s.world.inFlight = before ++ undefinedEntry :: after) :
    WellFormed cfg (s.land cfg.ttl undefinedEntry (before ++ after)) := by
  have hlanded : (s.land cfg.ttl undefinedEntry (before ++ after)).landed = s.landed := by
    funext r
    refine if_neg ?_
    rintro ⟨hr, hkey⟩
    exact h.key_ne hr hkey.symm
  have hcache : ∀ {r}, (s.issued r).isSome →
      (s.land cfg.ttl undefinedEntry (before ++ after)).world.cache (pendingKey (some (.str r))) =
        s.world.cache (pendingKey (some (.str r))) := fun hr => if_neg (h.key_ne hr)
  refine ⟨h.drew, h.issued, ?_, ?_, (h.apart_rest hf).2, ?_, ?_, ?_, ?_, h.applied⟩
  · rw [hlanded]
    exact h.landed
  · rw [hlanded]
    exact fun g hg => h.inFlight g (mem_inFlight hf hg)
  · intro key e he
    by_cases hkey : key = undefinedEntry.key
    · refine .inl ⟨hkey, ?_⟩
      simp only [State.land, World.land, Store.setex, hkey, if_true, Option.some.injEq] at he
      rw [← he]
    · rw [hlanded]
      exact h.cached (by simpa [State.land, World.land, Store.setex, hkey] using he)
  · intro r op tl hissued hl hdel
    rw [hlanded] at hl
    rw [hcache (Option.isSome_iff_exists.mpr ⟨op, hissued⟩)]
    exact h.kept hissued hl hdel
  · intro j r hj
    obtain ⟨hissued, hl, hnone⟩ := h.deleted hj
    rw [hlanded, hcache hissued]
    exact ⟨hissued, hl, hnone⟩
  · refine h.accepted_mono le_rfl id ?_
    rw [hlanded]
    exact id

/-- The entry of a request reaches the cache, for the first time. -/
theorem landEntry (h : WellFormed cfg s)
    (hf : s.world.inFlight = before ++ ⟨pendingKey (some (.str r)), op.entry r⟩ :: after)
    (hissued : s.issued r = some op) (hnone : s.landed r = none) :
    WellFormed cfg
      (s.land cfg.ttl ⟨pendingKey (some (.str r)), op.entry r⟩ (before ++ after)) := by
  set t := s.land cfg.ttl ⟨pendingKey (some (.str r)), op.entry r⟩ (before ++ after) with ht
  -- the request lands now, the others as they did
  have hself : t.landed r = some s.world.now := if_pos ⟨by simp [hissued], rfl⟩
  have hother : ∀ {v}, v ≠ r → t.landed v = s.landed v := by
    intro v hv
    refine if_neg ?_
    rintro ⟨-, hkey⟩
    exact hv (pendingKey_inj.mp hkey).symm
  -- and so does the cache: one key is written
  have hcache : t.world.cache (pendingKey (some (.str r))) =
      some ⟨op.entry r, s.world.now + 1000 * cfg.ttl⟩ := if_pos rfl
  have hrest : ∀ {key}, key ≠ pendingKey (some (.str r)) → t.world.cache key = s.world.cache key :=
    fun hkey => if_neg hkey
  have hkeep : ∀ {v tl}, s.landed v = some tl → t.landed v = some tl := by
    intro v tl hl
    have hv : v ≠ r := by
      rintro rfl
      rw [hnone] at hl
      cases hl
    rw [hother hv, hl]
  refine ⟨h.drew, h.issued, ?_, ?_, (h.apart_rest hf).2, ?_, ?_, ?_, ?_, h.applied⟩
  · intro v tl hl
    by_cases hv : v = r
    · subst hv
      rw [hself] at hl
      cases hl
      exact ⟨Option.isSome_iff_exists.mpr ⟨op, hissued⟩, le_rfl⟩
    · exact h.landed ((hother hv).symm.trans hl)
  · intro g hg
    obtain hu | ⟨v, op', rfl, hissued', hnone'⟩ := h.inFlight g (mem_inFlight hf hg)
    · exact .inl hu
    · have hv : v ≠ r := by
        rintro rfl
        have hkey := (h.apart_rest hf).1 _ hg rfl
        exact h.key_ne (Option.isSome_iff_exists.mpr ⟨op, hissued⟩) hkey
      exact .inr ⟨v, op', rfl, hissued', (hother hv).trans hnone'⟩
  · intro key e he
    by_cases hkey : key = pendingKey (some (.str r))
    · rw [hkey, hcache] at he
      cases he
      exact .inr ⟨r, op, s.world.now, hkey, hissued, hself, rfl⟩
    · rw [hrest hkey] at he
      obtain hu | ⟨v, op', tl, hkey', hissued', hl, he⟩ := h.cached he
      · exact .inl hu
      · exact .inr ⟨v, op', tl, hkey', hissued', hkeep hl, he⟩
  · intro v op' tl hissued' hl hdel
    by_cases hv : v = r
    · subst hv
      rw [hself] at hl
      cases hl
      rw [hcache, Option.some.inj (hissued.symm.trans hissued')]
    · rw [hrest (fun hkey => hv (pendingKey_inj.mp hkey))]
      exact h.kept hissued' ((hother hv).symm.trans hl) hdel
  · intro j v hj
    obtain ⟨hissued', hl, hcache'⟩ := h.deleted hj
    have hv : v ≠ r := by
      rintro rfl
      rw [hnone] at hl
      cases hl
    rw [hother hv, hrest (fun hkey => hv (pendingKey_inj.mp hkey))]
    exact ⟨hissued', hl, hcache'⟩
  · exact h.accepted_mono le_rfl id hkeep

end InFlight

/-- What the environment does keeps the cache well formed. -/
theorem env {e : Event} (h : WellFormed cfg s) (hs : Env cfg s e s') : WellFormed cfg s' := by
  cases hs with
  | tick n => exact h.tick n
  | @landed f before after hf =>
    have hmem : f ∈ s.world.inFlight := by simp [hf]
    obtain rfl | ⟨r, op, rfl, hissued, hnone⟩ := h.inFlight f hmem
    · exact h.landUndefined hf
    · exact h.landEntry hf hissued hnone
  | lost hf => exact h.lose hf
  | saved _ => exact h.sameCache ⟨rfl, rfl, rfl⟩

/-- So does a step of a job that knows what it has to. -/
theorem does {e : Event} {job job' : Job} (h : WellFormed cfg s) (hjob : job.Holds s i)
    (hs : Does s i job e s' job') : WellFormed cfg s' := by
  cases hs with
  | request hw => exact h.sameCache hw
  | drew huuid _ => exact h.draw huuid
  | issued => exact h.issue hjob.1 hjob.2
  | undefined => exact h.sendUndefined
  | delivery hw _ => exact h.sameCache hw
  | found hvalid hchecked =>
    obtain ⟨r, op, hc, hp⟩ := h.pending_of_checked hvalid hchecked
    obtain ⟨tl, hm⟩ := h.matched hp hc
    exact h.find le_rfl ⟨r, op, tl, hm⟩
  | refused _ => exact h
  | deleted => exact h.delete hjob
  | applied hw _ => exact (h.sameCache hw).apply hjob

end WellFormed

/-! ### Runs -/

namespace Job

variable {job job' other : Job} {e : Event} {j : ℕ}

/-- A job that takes a step knows again what it has to. -/
theorem Holds.does (h : WellFormed cfg s) (hjob : job.Holds s i) (hs : Does s i job e s' job') :
    job'.Holds s' i := by
  cases hs with
  | @request op q c r w hw => cases q <;> exact hjob
  | @drew op r _ hnew =>
    refine ⟨by simp, ?_⟩
    cases hissued : s.issued r with
    | none => rfl
    | some op' =>
      have hdrew := h.issued hissued
      rw [hnew] at hdrew
      cases hdrew
  | issued => simp [Job.Holds, State.issue]
  | undefined => trivial
  | @delivery d q c r w hw _ => cases q <;> exact hjob
  | found _ _ => exact ⟨s.world.now, List.mem_cons_self⟩
  | refused _ => trivial
  | deleted => exact hjob
  | applied _ _ => exact hjob

/-- What a job knows rests on what stays recorded. -/
theorem Holds.mono (h : job.Holds s i)
    (hdrew : ∀ {v}, s.drew v = some i → s.issued v = none →
      s'.drew v = some i ∧ s'.issued v = none)
    (hissued : ∀ {v op}, s.issued v = some op → s'.issued v = some op)
    (haccepted : ∀ {x}, x ∈ s.accepted → x ∈ s'.accepted) : job.Holds s' i := by
  cases job with
  | request op q =>
    cases q with
    | fresh => trivial
    | drew v => exact hdrew h.1 h.2
    | cached v => exact hissued h
  | delivery d q =>
    cases q with
    | checking => trivial
    | accepted =>
      obtain ⟨ta, hta⟩ := h
      exact ⟨ta, haccepted hta⟩
    | refused => trivial

/-- What a job knows is not changed by the steps of the other jobs. -/
theorem Holds.frame (hjob : job.Holds s i) (hs : Does s i job e s' job') (hne : i ≠ j)
    (h : other.Holds s j) : other.Holds s' j := by
  cases hs with
  | @drew op r _ hnew =>
    refine h.mono (fun {v} hdrew hissued => ⟨?_, hissued⟩) id id
    have hv : v ≠ r := by
      rintro rfl
      rw [hnew] at hdrew
      cases hdrew
    simpa [hv] using hdrew
  | @issued op r =>
    refine h.mono (fun {v} hdrew hissued => ⟨hdrew, ?_⟩) (fun {v op'} hissued => ?_) id
    · have hv : v ≠ r := by
        rintro rfl
        exact hne (Option.some.inj (hjob.1.symm.trans hdrew))
      simpa [State.issue, hv] using hissued
    · have hv : v ≠ r := by
        rintro rfl
        rw [hjob.2] at hissued
        cases hissued
      simpa [State.issue, hv] using hissued
  | found _ _ => exact h.mono (fun hdrew hissued => ⟨hdrew, hissued⟩) id (List.mem_cons_of_mem _)
  | _ => exact h.mono (fun hdrew hissued => ⟨hdrew, hissued⟩) id id

theorem Holds.env (hs : Env cfg s e s') (h : job.Holds s i) : job.Holds s' i := by
  cases hs <;> exact h.mono (fun hdrew hissued => ⟨hdrew, hissued⟩) id id

theorem holds_start (x : Start) : x.job.Holds s i := by
  cases x <;> trivial

end Job

/-- Threads keep their ids, and no step changes how many have been started. -/
theorem Does.started {job job' : Job} {e : Event} (hs : Does s i job e s' job') :
    s'.started = s.started := by
  cases hs <;> rfl

theorem Env.started {e : Event} (hs : Env cfg s e s') : s'.started = s.started := by
  cases hs <;> rfl

/-- Along every run of requests and deliveries the cache is well formed, and each thread knows
its own request or check. -/
theorem outline (cfg : Config) :
    Pool.Outline (machine cfg) (WellFormed cfg) Thread.Holds Thread.Differs where
  symm h := h.symm
  observe h := h
  env := by
    intro s e s' h hs
    refine ⟨h.env hs, fun t ht => ⟨ht.follows, ?_, ht.job.env hs⟩⟩
    rw [hs.started]
    exact ht.started
  spawn := by
    intro s e s' t h ⟨x, _, hs', ht⟩
    subst hs' ht
    refine ⟨?_, ⟨x.follows cfg, Nat.lt_succ_self _, Job.holds_start x⟩, fun u hu => ⟨?_, ?_⟩⟩
    · exact ⟨h.drew, h.issued, h.landed, h.inFlight, h.apart, h.cached, h.kept, h.deleted,
        h.accepted_mono le_rfl id id, h.applied⟩
    · exact ⟨hu.follows, Nat.lt_succ_of_lt hu.started,
        hu.job.mono (fun hdrew hissued => ⟨hdrew, hissued⟩) id id⟩
    · exact (Nat.ne_of_lt hu.started).symm
  exec := by
    intro s t e s' t' h ht hs
    -- all that a thread does is in `Does`, which each part of the invariant has its own lemma for
    obtain ⟨u, rfl, hid, hfollows, hdoes⟩ := does_of_exec ht.follows hs
    refine ⟨h.does ht.job hdoes, ?_, fun v hv hne => ⟨⟨hv.follows, ?_, ?_⟩, ?_⟩⟩
    · rintro w ⟨⟩
      refine ⟨hfollows, ?_, ?_⟩
      · show u.id < s'.started
        rw [hid, hdoes.started]
        exact ht.started
      · show u.job.Holds s' u.id
        rw [hid]
        exact ht.job.does h hdoes
    · show v.id < s'.started
      rw [hdoes.started]
      exact hv.started
    · exact Job.Holds.frame ht.job hdoes hne hv.job
    · rintro w ⟨⟩
      show u.id ≠ v.id
      rw [hid]
      exact hne

/-- A law of the requests and their replies joins the outline where the jobs and the environment
keep it. -/
theorem outline_and (cfg : Config) {C : State → Thread → Event → Prop} {J : State → Prop}
    (hstarted : ∀ {s}, J s → J { s with started := s.started + 1 })
    (henv : ∀ {s e s'}, J s → Env cfg s e s' → J s')
    (hdoes : ∀ {s t e s' job'}, WellFormed cfg s → J s → t.job.Holds s t.id →
      Does s t.id t.job e s' job' → C s t e → J s') :
    Pool.Outline ((machine cfg).restrict C) (fun s => WellFormed cfg s ∧ J s) Thread.Holds
      Thread.Differs := by
  refine ((outline cfg).restrict C).strengthen (fun _ => henv) ?_ ?_
  · rintro s e s' t _ h ⟨x, _, rfl, _⟩
    exact hstarted h
  · intro s t e s' t' hwf ht h hs
    obtain ⟨u, -, -, -, hdoes'⟩ := does_of_exec ht.follows hs.1
    exact hdoes hwf h ht.job hdoes' hs.2

end IotPanel.Device
