import IotPanel.Session.WellFormed

/-!
# What an invalidation still has to process

An invalidation aims at a tracking key while the scan owes it the key or the key waits in the
current batch. The key leaves its aims only when the session is deleted, so nothing that was
there from the beginning is missed, in whatever batches the scan returns it.
-/

namespace IotPanel.Session

/-- The keys of the current batch whose sessions an invalidation has still to delete. -/
def Call.remaining : Call → List String
  | .invalidateDelSession _ key keys _ => key :: keys
  | .invalidateDelTracking _ _ keys _ => keys
  | _ => []

/-- The user whose sessions a call invalidates. -/
def Call.invalidates : Call → Option String
  | .invalidateScan u _ | .invalidateDelSession u _ _ _ | .invalidateDelTracking u _ _ _ => some u
  | _ => none

def Task.aims (t : Task) : Set String := t.owed ∪ {k | k ∈ t.call.remaining}

variable {T : ℕ} {s : State} {t w : Task} {u k sid : String} {reply : Batch} {c : Call}

theorem nextKey_returns {next : String} {keys : List String} {res : Result}
    (h : nextKey u next keys = .inr res) : keys = [] ∧ next = "0" := by
  cases keys with
  | nil =>
    by_cases hn : next = "0"
    · exact ⟨rfl, hn⟩
    · simp [nextKey, hn] at h
  | cons k rest => simp [nextKey] at h

theorem nextKey_aims {next : String} {keys : List String} (h : nextKey u next keys = .inl c) :
    c.invalidates = some u ∧ c.remaining = keys := by
  obtain ⟨rfl, _, rfl⟩ | ⟨k, rest, rfl, rfl⟩ := nextKey_eq h <;> exact ⟨rfl, rfl⟩

/-- A call that goes on is an invalidation of `u` if it was one. -/
theorem invalidates_next {r : Redis} {call : Call} (h : (call.next T r reply).2 = .inl c) :
    c.invalidates = call.invalidates := by
  cases call with
  | invalidateScan v cursor | invalidateDelTracking v key keys next => exact (nextKey_aims h).1
  | guardGet sid | extendGet sid | destroyGet sid =>
    simp only [Call.next] at h
    cases hget : r.getSession sid <;> rw [hget] at h <;> cases h
    rfl
  | createSetTracking | extendSetTracking | destroyDelTracking => cases h
  | createSetSession | extendSetSession | destroyDelSession | invalidateDelSession =>
    cases h
    rfl

/-- A key leaves the aims of an invalidation only when its session is deleted. -/
theorem aims_resume (hok : s.TaskOk t) (hreply : ReplyOk s.redis t reply)
    (hinv : t.call.invalidates = some u)
    (hk : k ∈ t.aims) :
    (∃ rest next, t.call = .invalidateDelSession u k rest next) ∨
      ∃ w, t.resume reply (t.call.next T s.redis reply).2 = some w ∧ k ∈ w.aims := by
  -- after a key the call takes the next one, or scans on, or returns; it returns only when the
  -- last scan is over and no key is left
  have hgo : ∀ {next keys}, (t.call.next T s.redis reply).2 = nextKey u next keys →
      k ∈ keys ∨ (k ∈ t.owed \ t.call.scanned reply ∧ next ≠ "0") →
      ∃ w, t.resume reply (t.call.next T s.redis reply).2 = some w ∧ k ∈ w.aims := by
    intro next keys heq hmem
    rw [heq]
    cases hn : nextKey u next keys with
    | inl c =>
      refine ⟨_, rfl, ?_⟩
      obtain hmem | ⟨hmem, _⟩ := hmem
      · exact .inr (by simpa [(nextKey_aims hn).2] using hmem)
      · exact .inl hmem
    | inr res =>
      obtain ⟨rfl, rfl⟩ := nextKey_returns hn
      simp at hmem
  obtain ⟨call, owed, victims⟩ := t
  cases call with
  | invalidateScan v cursor =>
    cases hinv
    obtain hk | hk := hk
    · right
      refine hgo rfl ?_
      by_cases hmem : k ∈ reply.keys
      · exact .inl hmem
      -- a scan that ends has shown every key that it owed
      · exact .inr ⟨⟨hk, hmem⟩, fun h0 => hmem (hreply.2 h0 k hk)⟩
    · simp [Call.remaining] at hk
  | invalidateDelSession v key keys next =>
    cases hinv
    obtain hk | hk := hk
    · exact .inr ⟨_, rfl, .inl ⟨hk, by simp [Call.scanned]⟩⟩
    · obtain rfl | hk := List.mem_cons.mp hk
      · exact .inl ⟨keys, next, rfl⟩
      · exact .inr ⟨_, rfl, .inr hk⟩
  | invalidateDelTracking v key keys next =>
    cases hinv
    right
    refine hgo rfl ?_
    obtain hk | hk := hk
    · refine .inr ⟨⟨hk, by simp [Call.scanned]⟩, fun h0 => ?_⟩
      have hempty : owed = ∅ := hok.settled (by rw [h0]; rfl)
      rw [hempty] at hk
      exact hk
    · exact .inl hk
  | _ => cases hinv

/-- The tracking key of a session that is not deleted stays among the aims. -/
theorem aims_kept (hwf : WellFormed T s) (hok : s.TaskOk t) (hreply : ReplyOk s.redis t reply)
    (hinv : t.call.invalidates = some u) (hown : s.owner sid = some u)
    (hk : trackingKey u sid ∈ t.aims) (hdel : t.call.deletes ≠ some sid) :
    ∃ w, t.resume reply (t.call.next T s.redis reply).2 = some w ∧ trackingKey u sid ∈ w.aims := by
  obtain ⟨rest, next, hcall⟩ | hresume := aims_resume (T := T) hok hreply hinv hk
  · have hids := hwf.ids hown
    refine absurd ?_ hdel
    rw [hcall]
    simp [Call.deletes, sessionIdOf_trackingKey hids.2.1.plain hids.1.plain]
  · exact hresume

end IotPanel.Session
