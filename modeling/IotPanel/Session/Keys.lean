import IotPanel.Session.Service

/-!
# The two families of session keys

User ids and session ids are UUIDs, so none of them holds a separator or a wildcard.
The keys of two sessions are then different, and the pattern of a user matches that
user's tracking keys and no other key of the service.
-/

namespace IotPanel.Session

open Text

def isHexDigit (c : Char) : Bool := "0123456789abcdefABCDEF".toList.contains c

/-- The textual form of a UUID: groups of hexadecimal digits between dashes. -/
def IsUuid (s : String) : Prop :=
  (split s '-').map String.length = [8, 4, 4, 4, 12] ∧
    (s.toList.all fun c => isHexDigit c || c == '-') = true

instance (s : String) : Decidable (IsUuid s) := inferInstanceAs (Decidable (_ ∧ _))

/-- Text that no separator and no wildcard occurs in. -/
def Plain (s : String) : Prop := ∀ c ∈ s.toList, c ≠ ':' ∧ Literal c

theorem IsUuid.plain {s : String} (h : IsUuid s) : Plain s := by
  intro c hc
  have hchar := List.all_eq_true.mp h.2 c hc
  rw [Bool.or_eq_true, beq_iff_eq] at hchar
  rcases hchar with hhex | rfl
  · refine ⟨?_, ?_, ?_⟩ <;> rintro rfl <;> exact absurd hhex (by decide)
  · exact ⟨by decide, by decide, by decide⟩

theorem Plain.colon_not_mem {s : String} (h : Plain s) : ':' ∉ s.toList := fun hc => (h _ hc).1 rfl

@[simp] theorem sessionKey_inj {a b : String} : sessionKey a = sessionKey b ↔ a = b := by
  simp [sessionKey]

theorem sessionKey_ne_trackingKey (a u sid : String) : sessionKey a ≠ trackingKey u sid := by
  intro h
  have := congrArg String.toList h
  simp [sessionKey, trackingKey] at this

theorem split_trackingKey {u : String} (hu : Plain u) (sid : String) :
    split (trackingKey u sid) ':' = "user" :: "sessions" :: u :: split sid ':' := by
  have hparts : trackingKey u sid =
      "user" ++ (String.ofList [':'] ++ ("sessions" ++ (String.ofList [':'] ++
        (u ++ (String.ofList [':'] ++ sid))))) := by
    simp only [trackingKey, ← String.append_assoc]
    rfl
  rw [hparts, split_append (by decide), split_append (by decide), split_append hu.colon_not_mem]

/-- The loop of `invalidateUserSessions` reads the session's id off its tracking key. -/
theorem sessionIdOf_trackingKey {u sid : String} (hu : Plain u) (hs : Plain sid) :
    sessionIdOf (trackingKey u sid) = sid := by
  simp [sessionIdOf, split_trackingKey hu, split_of_not_mem hs.colon_not_mem]

theorem trackingKey_inj {u v sid sid' : String} (hu : Plain u) (hv : Plain v) :
    trackingKey u sid = trackingKey v sid' ↔ u = v ∧ sid = sid' := by
  constructor
  · intro h
    have huv : u = v := by
      have hsplit := congrArg (split · ':') h
      simp only [split_trackingKey hu, split_trackingKey hv, List.cons.injEq] at hsplit
      exact hsplit.2.2.1
    subst huv
    simpa [trackingKey] using h
  · rintro ⟨rfl, rfl⟩
    rfl

/-- `MATCH user:sessions:{userId}:*` -/
def Matches (userId key : String) : Prop :=
  globMatch (trackingPattern userId).toList key.toList = true

theorem matches_iff {u key : String} (hu : Plain u) :
    Matches u key ↔ ∃ rest, key = trackingKey u rest := by
  have hpat : (trackingPattern u).toList = (trackingKey u "").toList ++ ['*'] := by
    simp [trackingPattern, trackingKey]
  have hlit : ∀ c ∈ (trackingKey u "").toList, Literal c := by
    intro c hc
    simp only [trackingKey, String.toList_append, List.mem_append] at hc
    rcases hc with hc | hc | hc | hc
    · exact literal_of_all (by decide) c hc
    · exact (hu c hc).2
    · exact literal_of_all (by decide) c hc
    · exact literal_of_all (by decide) c hc
  rw [Matches, hpat, globMatch_append_star hlit]
  constructor
  · rintro ⟨rest, hrest⟩
    refine ⟨String.ofList rest, String.toList_inj.mp ?_⟩
    rw [← hrest]
    simp [trackingKey]
  · rintro ⟨rest, rfl⟩
    exact ⟨rest.toList, by simp [trackingKey]⟩

theorem matches_trackingKey {u v : String} (hu : Plain u) (hv : Plain v) (sid : String) :
    Matches u (trackingKey v sid) ↔ u = v := by
  rw [matches_iff hu]
  constructor
  · rintro ⟨rest, hrest⟩
    exact ((trackingKey_inj hv hu).mp hrest).1.symm
  · rintro rfl
    exact ⟨sid, rfl⟩

theorem not_matches_sessionKey {u sid : String} (hu : Plain u) : ¬ Matches u (sessionKey sid) := by
  rw [matches_iff hu]
  rintro ⟨rest, h⟩
  exact sessionKey_ne_trackingKey _ _ _ h

end IotPanel.Session
