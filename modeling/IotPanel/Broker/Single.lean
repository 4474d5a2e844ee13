import IotPanel.Broker.Client
import IotPanel.Lib.Run
import Mathlib.Data.List.Nodup

/-!
# One client at a time

Opening a client forgets the one before, whether that has been ended or not; and its callbacks
write the same flag.
-/

namespace IotPanel.Broker

namespace Service

/-- At most one client has not been ended, the flag tells whether the client that is held is
connected, and no message has been emitted twice. -/
structure Single (s : Service) : Prop where
  alone : ∀ (k l : ℕ) (c d : Client), s.clients[k]? = some c → s.clients[l]? = some d →
    c.ended = false → d.ended = false → k = l
  flag : s.isConnectedState = s.client.any Client.isConnected
  emitted : ∀ n ∈ s.emissions, n ≤ 1

/-- Every client that was created has been ended. -/
def AllEnded (s : Service) : Prop := ∀ c ∈ s.clients, c.ended = true

/-- Clients are opened one at a time, and no connected client fails to end after the flag has been
cleared. -/
def Careful (s : Service) : Event → Prop
  | .connect _ | .resumed _ _ => s.AllEnded
  | .reconnect _ => s.isConnectedState = false → s.AllEnded
  | .updateConfiguration _ => (s.mqtt.isSome && s.isConnectedState) = false → s.AllEnded
  | .endReturned call false =>
    ∀ (k : ℕ) (updates : Bool) (c : Client), s.calls[call]? = some (.ending k updates) →
      s.clients[k]? = some c → c.connected = true → s.isConnectedState = true
  | _ => True

/-- What is known after careful events: a client that has not been ended is the one that is held. -/
structure Tidy (s : Service) : Prop where
  held : ∀ (k : ℕ) (c : Client), s.clients[k]? = some c → c.ended = false →
    s.mqtt = some (some k) ∧ c.listening = true
  dead : ∀ c ∈ s.clients, c.ended = true → c.connected = false
  flag : s.isConnectedState = s.client.any Client.isConnected
  emitted : ∀ n ∈ s.emissions, n ≤ 1

variable {env : Environment} {s t : Service} {opened : Bool} {k : ℕ} {f : Client → Client}

theorem tidy_initial : Tidy .initial := by
  refine ⟨fun k c h => ?_, ?_, rfl, ?_⟩
  · cases h
  · rintro c ⟨⟩
  · rintro n ⟨⟩

theorem Tidy.single (h : s.Tidy) : s.Single where
  alone k l c d hk hl hc hd := by
    have hheld := (h.held k c hk hc).1.symm.trans (h.held l d hl hd).1
    exact Option.some.inj (Option.some.inj hheld)
  flag := h.flag
  emitted := h.emitted

theorem countP_le_one {α : Type} {p : α → Bool} {l : List α}
    (h : ∀ (i j : ℕ) (a b : α), l[i]? = some a → l[j]? = some b → p a = true → p b = true → i = j) :
    l.countP p ≤ 1 := by
  induction l with
  | nil => exact Nat.zero_le 1
  | cons a l ih =>
    have hrest : l.countP p ≤ 1 := by
      refine ih fun i j b c hi hj hb hc => ?_
      have hij := h (i + 1) (j + 1) b c (by simpa using hi) (by simpa using hj) hb hc
      omega
    rw [List.countP_cons]
    split
    · -- a second one would stand at two places
      have hnone : l.countP p = 0 := by
        rw [List.countP_eq_zero]
        intro b hb hpb
        obtain ⟨i, hi⟩ := List.getElem?_of_mem hb
        have hzero := h 0 (i + 1) a b rfl (by simpa using hi) ‹_› hpb
        omega
      omega
    · omega

/-- Only the client that is held receives messages. -/
theorem Tidy.receivers_le (h : s.Tidy) : s.receivers ≤ 1 := by
  have hlive : ∀ (i : ℕ) (c : Client), s.clients[i]? = some c → c.receives = true →
      c.ended = false := by
    intro i c hi hreceives
    by_contra hended
    rw [Bool.not_eq_false] at hended
    unfold Client.receives at hreceives
    rw [h.dead c (List.mem_of_getElem? hi) hended] at hreceives
    cases hreceives
  refine countP_le_one fun i j c d hi hj hc hd => ?_
  exact h.single.alone i j c d hi hj (hlive i c hi hc) (hlive j d hj hd)

/-- Nothing but the calls has changed. -/
structure Same (s t : Service) : Prop where
  clients : t.clients = s.clients
  mqtt : t.mqtt = s.mqtt
  isConnectedState : t.isConnectedState = s.isConnectedState
  emissions : t.emissions = s.emissions

theorem Tidy.same (h : s.Tidy) (hsame : s.Same t) : t.Tidy := by
  obtain ⟨hclients, hmqtt, hflag, hemissions⟩ := hsame
  refine ⟨?_, ?_, ?_, ?_⟩
  · rw [hclients, hmqtt]
    exact h.held
  · rw [hclients]
    exact h.dead
  · unfold client
    rw [hclients, hmqtt, hflag]
    exact h.flag
  · rw [hemissions]
    exact h.emitted

theorem same_goOn {call : ℕ} {updates : Bool} : s.Same (s.goOn call updates) := by
  unfold goOn
  split <;> exact ⟨rfl, rfl, rfl, rfl⟩

theorem same_finish {call : ℕ} : s.Same (s.finish call) := ⟨rfl, rfl, rfl, rfl⟩

theorem getElem?_modifyClient {l : ℕ} :
    (s.modifyClient k f).clients[l]? = if k = l then s.clients[l]?.map f else s.clients[l]? := by
  show (s.clients.modify k f)[l]? = _
  rw [List.getElem?_modify]
  split
  · rfl
  · simp

/-- A client after the modification of `k`. -/
theorem modifyClient_cases {l : ℕ} {d : Client} (h : (s.modifyClient k f).clients[l]? = some d) :
    ∃ c, s.clients[l]? = some c ∧ ((l = k ∧ d = f c) ∨ (l ≠ k ∧ d = c)) := by
  rw [getElem?_modifyClient] at h
  split at h
  · obtain ⟨c, hc, rfl⟩ := Option.map_eq_some_iff.mp h
    exact ⟨c, hc, .inl ⟨Eq.symm ‹_›, rfl⟩⟩
  · exact ⟨d, h, .inr ⟨Ne.symm ‹_›, rfl⟩⟩

theorem getElem?_modifyClient_self {c : Client} (h : s.clients[k]? = some c) :
    (s.modifyClient k f).clients[k]? = some (f c) := by
  rw [getElem?_modifyClient, if_pos rfl, h]
  rfl

/-- The client that is held is not the modified one. -/
theorem client_modifyClient (hmqtt : s.mqtt ≠ some (some k)) :
    (s.mqtt.join.bind fun l => (s.modifyClient k f).clients[l]?) = s.client := by
  unfold client
  cases hjoin : s.mqtt.join with
  | none => rfl
  | some l =>
    have hne : k ≠ l := by
      rintro rfl
      exact hmqtt (Option.join_eq_some_iff.mp hjoin)
    show (s.modifyClient k f).clients[l]? = s.clients[l]?
    rw [getElem?_modifyClient, if_neg hne]

/-! ### What events do -/

theorem Tidy.initConnection (h : s.Tidy) (hended : s.AllEnded) :
    (s.initConnection env opened).Tidy := by
  -- where all clients have ended none is connected
  have hclear : s.isConnectedState = false := by
    rw [h.flag, Option.any_eq_false]
    intro c hc
    obtain ⟨k, -, hk⟩ := Option.bind_eq_some_iff.mp hc
    have hmem := List.mem_of_getElem? hk
    rw [Client.isConnected, h.dead c hmem (hended c hmem)]
    rfl
  unfold Service.initConnection
  cases opened with
  | false =>
    rw [if_neg Bool.false_ne_true]
    refine ⟨fun k c hk hlive => ?_, h.dead, hclear, h.emitted⟩
    rw [hended c (List.mem_of_getElem? hk)] at hlive
    cases hlive
  | true =>
    rw [if_pos rfl]
    have hnew : ∀ (k : ℕ) (c : Client), (s.clients ++ [Client.create env.options])[k]? = some c →
        c ∈ s.clients ∨ (k = s.clients.length ∧ c = .create env.options) := by
      intro k c hk
      rw [List.getElem?_append] at hk
      split at hk
      · exact .inl (List.mem_of_getElem? hk)
      · rw [List.getElem?_singleton] at hk
        split at hk
        · exact .inr ⟨by omega, (Option.some.inj hk).symm⟩
        · cases hk
    refine ⟨fun k c hk hlive => ?_, fun c hc hdead => ?_, ?_, h.emitted⟩
    · obtain hold | ⟨rfl, rfl⟩ := hnew k c hk
      · rw [hended c hold] at hlive
        cases hlive
      · exact ⟨rfl, rfl⟩
    · rcases List.mem_append.mp hc with hold | hnew
      · exact h.dead c hold hdead
      · rw [List.mem_singleton.mp hnew]
        rfl
    · show s.isConnectedState = Option.any _ ((s.clients ++ [_])[s.clients.length]?)
      rw [hclear, List.getElem?_append_right (Nat.le_refl _)]
      simp [Client.create, Client.isConnected]

/-- A modification of one client, with the flag that goes with it. -/
theorem Tidy.modify {b : Bool} (h : s.Tidy)
    (hf : ∀ c, s.clients[k]? = some c → (f c).ended = c.ended ∧ (f c).listening = c.listening ∧
      (c.ended = true → (f c).connected = false))
    (hheld : ∀ c, s.mqtt = some (some k) → s.clients[k]? = some c → b = (f c).isConnected)
    (hother : (s.mqtt ≠ some (some k) ∨ s.clients[k]? = none) → b = s.isConnectedState) :
    Tidy { s.modifyClient k f with isConnectedState := b } := by
  refine ⟨fun l d hl hlive => ?_, fun d hd hdead => ?_, ?_, h.emitted⟩
  · obtain ⟨c, hc, ⟨rfl, rfl⟩ | ⟨-, rfl⟩⟩ := modifyClient_cases hl
    · obtain ⟨hended, hlistening, -⟩ := hf c hc
      rw [hlistening]
      exact h.held l c hc (hended ▸ hlive)
    · exact h.held l d hc hlive
  · obtain ⟨l, hl⟩ := List.getElem?_of_mem hd
    obtain ⟨c, hc, ⟨rfl, rfl⟩ | ⟨-, rfl⟩⟩ := modifyClient_cases hl
    · obtain ⟨hended, -, hconnected⟩ := hf c hc
      exact hconnected (hended ▸ hdead)
    · exact h.dead d (List.mem_of_getElem? hc) hdead
  · show b = Option.any _ (s.mqtt.join.bind fun l => (s.modifyClient k f).clients[l]?)
    by_cases hmqtt : s.mqtt = some (some k)
    · cases hc : s.clients[k]? with
      | none =>
        rw [hother (.inr hc), h.flag, client, hmqtt]
        show Option.any _ (s.clients[k]?) = Option.any _ ((s.modifyClient k f).clients[k]?)
        rw [getElem?_modifyClient, if_pos rfl, hc]
        rfl
      | some c =>
        rw [hheld c hmqtt hc, hmqtt]
        show _ = Option.any _ ((s.modifyClient k f).clients[k]?)
        rw [getElem?_modifyClient_self hc]
        rfl
    · rw [hother (.inl hmqtt), h.flag, client_modifyClient hmqtt]

/-- Without a client the flag is clear already. -/
theorem Tidy.clear (h : s.Tidy) (hclient : s.client = none) :
    Tidy { s with isConnectedState := false } := by
  refine h.same ⟨rfl, rfl, ?_, rfl⟩
  show false = s.isConnectedState
  rw [h.flag, hclient]
  rfl

theorem Tidy.beginEnd {call : ℕ} {updates : Bool} (h : s.Tidy) : (s.beginEnd call updates).Tidy := by
  unfold Service.beginEnd
  dsimp only
  split
  · rename_i hmqtt
    refine (h.clear ?_).same same_finish
    rw [client, hmqtt]
    rfl
  · rename_i hmqtt
    refine (h.clear ?_).same same_goOn
    rw [client, hmqtt]
    rfl
  · rename_i k hmqtt
    have hmodify : Tidy { s.modifyClient k fun c => { c with ending := true } with
        isConnectedState := false } := by
      refine h.modify (fun c hc => ⟨rfl, rfl, h.dead c (List.mem_of_getElem? hc)⟩) ?_ ?_
      · intro c _ _
        exact (Bool.and_false c.connected).symm
      · rintro (hother | hnone)
        · exact absurd hmqtt hother
        · rw [h.flag, client, hmqtt]
          show false = Option.any _ (s.clients[k]?)
          rw [hnone]
          rfl
    exact hmodify.same ⟨rfl, rfl, rfl, rfl⟩

theorem Tidy.finishEnd (h : s.Tidy) (hmay : s.mayReturn k = true) : (s.finishEnd k).Tidy := by
  -- The end of a client returns only once the client is closed.
  have hclosed : ∀ c, s.clients[k]? = some c → c.connected = false := by
    intro c hc
    unfold mayReturn at hmay
    rw [hc] at hmay
    simpa using hmay
  refine ⟨fun l d hl hlive => ?_, fun d hd hdead => ?_, ?_, h.emitted⟩
  · obtain ⟨c, hc, ⟨rfl, rfl⟩ | ⟨hne, rfl⟩⟩ := modifyClient_cases hl
    · cases hlive
    · obtain ⟨hmqtt, hlistening⟩ := h.held l d hc hlive
      refine ⟨?_, hlistening⟩
      show (if s.mqtt = some (some k) then some none else s.mqtt) = some (some l)
      rw [hmqtt, if_neg]
      rintro ⟨⟩
      exact hne rfl
  · obtain ⟨l, hl⟩ := List.getElem?_of_mem hd
    obtain ⟨c, hc, ⟨rfl, rfl⟩ | ⟨-, rfl⟩⟩ := modifyClient_cases hl
    · exact hclosed c hc
    · exact h.dead d (List.mem_of_getElem? hc) hdead
  · show s.isConnectedState = Option.any _
      ((if s.mqtt = some (some k) then some none else s.mqtt).join.bind fun l =>
        (s.modifyClient k _).clients[l]?)
    split
    · rename_i hmqtt
      rw [h.flag, client, hmqtt]
      show Option.any _ (s.clients[k]?) = false
      rw [Option.any_eq_false]
      intro c hc
      rw [Client.isConnected, hclosed c hc]
      rfl
    · rename_i hmqtt
      rw [client_modifyClient hmqtt, h.flag]

/-- A client that fails to end goes on. -/
theorem Tidy.failEnd {call : ℕ} {updates : Bool} (h : s.Tidy)
    (hcall : s.calls[call]? = some (.ending k updates)) (hcareful : s.Careful (.endReturned call false)) :
    (s.modifyClient k fun c => { c with ending := false }).Tidy := by
  refine h.modify (b := s.isConnectedState)
    (fun c hc => ⟨rfl, rfl, h.dead c (List.mem_of_getElem? hc)⟩) (fun c hmqtt hc => ?_) fun _ => rfl
  have hflag : s.isConnectedState = c.isConnected := by
    rw [h.flag, client, hmqtt]
    show Option.any _ (s.clients[k]?) = _
    rw [hc]
    rfl
  show s.isConnectedState = (c.connected && true)
  rw [Bool.and_true]
  cases hconnected : c.connected with
  | true => exact hcareful k updates c hcall hc hconnected
  | false => rw [hflag, Client.isConnected, hconnected, Bool.false_and]

section Events

variable {call : ℕ} {ok : Bool}

/-- The topics are read for a call that waits for them. -/
theorem reading_of_step (h : Step env s (.topicsRead call ok) t) :
    ∃ updates, s.calls[call]? = some (.reading updates) ∧
      t = if ok then s.beginEnd call updates else s.finish call := by
  unfold Step happen at h
  dsimp only at h
  split at h
  · exact ⟨_, ‹_›, (Option.some.inj h).symm⟩
  · cases h

/-- The end of a client is reported to the call that waits for it, without an error only once the
connection is closed. -/
theorem ending_of_step (h : Step env s (.endReturned call ok) t) :
    ∃ k updates, s.calls[call]? = some (.ending k updates) ∧
      ((ok = true ∧ s.mayReturn k = true ∧ t = (s.finishEnd k).goOn call updates) ∨
        (ok = false ∧
          t = (s.modifyClient k fun c => { c with ending := false }).finish call)) := by
  unfold Step happen at h
  dsimp only at h
  split at h
  · rename_i k updates hcall
    refine ⟨k, updates, hcall, ?_⟩
    cases ok with
    | true =>
      rw [if_pos rfl] at h
      split at h
      · exact .inl ⟨rfl, ‹_›, (Option.some.inj h).symm⟩
      · cases h
    | false =>
      rw [if_neg Bool.false_ne_true] at h
      exact .inr ⟨rfl, (Option.some.inj h).symm⟩
  · cases h

theorem opening_of_step (h : Step env s (.resumed call opened) t) :
    s.calls[call]? = some .opening ∧ t = (s.finish call).initConnection env opened := by
  unfold Step happen at h
  dsimp only at h
  split at h
  · exact ⟨‹_›, (Option.some.inj h).symm⟩
  · cases h

/-- Nothing connects that is connected, or that is ending or has ended. -/
theorem free_of_step (h : Step env s (.connected k) t) :
    ∃ c, s.clients[k]? = some c ∧ c.ending = false ∧ c.ended = false ∧
      t = { s.modifyClient k fun c => { c with connected := true } with
        isConnectedState := s.isConnectedState || c.listening } := by
  unfold Step happen at h
  dsimp only at h
  split at h
  · rename_i c hc
    split at h
    · cases h
    · rename_i hfree
      simp only [Bool.or_eq_true, not_or, Bool.not_eq_true] at hfree
      exact ⟨c, hc, hfree.1.2, hfree.2, (Option.some.inj h).symm⟩
  · cases h

theorem live_of_step (h : Step env s (.closed k) t) :
    ∃ c, s.clients[k]? = some c ∧ c.ended = false ∧
      t = { s.modifyClient k fun c => { c with connected := false } with
        isConnectedState := s.isConnectedState && !c.listening } := by
  unfold Step happen at h
  dsimp only at h
  split at h
  · split at h
    · cases h
    · exact ⟨_, ‹_›, Bool.eq_false_iff.mpr ‹_›, (Option.some.inj h).symm⟩
  · cases h

theorem eq_of_step_failed (h : Step env s (.failed k) t) : t = s := by
  unfold Step happen at h
  dsimp only at h
  split at h
  · split at h
    · cases h
    · exact (Option.some.inj h).symm
  · cases h

end Events

/-- What an event comes to. A client is opened by a careful event where all clients have ended. -/
inductive Transition (env : Environment) (s : Service) : Event → Service → Prop
  | same {e : Event} {t : Service} (h : s.Same t) : Transition env s e t
  | opens {e : Event} {t : Service} (opened : Bool) (h : s.Same t)
      (hended : s.Careful e → s.AllEnded) : Transition env s e (t.initConnection env opened)
  | beginEnd {e : Event} (call : ℕ) (updates : Bool) : Transition env s e (s.beginEnd call updates)
  | finishEnd {e : Event} {k : ℕ} (call : ℕ) (updates : Bool) (h : s.mayReturn k = true) :
      Transition env s e ((s.finishEnd k).goOn call updates)
  | failEnd {k call : ℕ} {updates : Bool} (h : s.calls[call]? = some (.ending k updates)) :
      Transition env s (.endReturned call false)
        ((s.modifyClient k fun c => { c with ending := false }).finish call)
  | connected {e : Event} {k : ℕ} {c : Client} (h : s.clients[k]? = some c)
      (hending : c.ending = false) (hended : c.ended = false) :
      Transition env s e { s.modifyClient k fun c => { c with connected := true } with
        isConnectedState := s.isConnectedState || c.listening }
  | closed {e : Event} {k : ℕ} {c : Client} (h : s.clients[k]? = some c) (hended : c.ended = false) :
      Transition env s e { s.modifyClient k fun c => { c with connected := false } with
        isConnectedState := s.isConnectedState && !c.listening }
  | published {e : Event} : Transition env s e { s with emissions := s.emissions ++ [s.receivers] }

theorem same_rfl : s.Same s := ⟨rfl, rfl, rfl, rfl⟩

theorem transition_of_step {e : Event} (h : Step env s e t) : Transition env s e t := by
  cases e with
  | connect opened =>
    cases h
    exact .opens opened same_rfl id
  | reconnect opened =>
    cases h
    unfold Service.reconnect
    split
    · exact .same same_rfl
    · exact .opens opened same_rfl fun hcareful => hcareful (Bool.eq_false_iff.mpr ‹_›)
  | disconnect =>
    cases h
    exact .same ⟨rfl, rfl, rfl, rfl⟩
  | updateConfiguration opened =>
    cases h
    split
    · exact .same ⟨rfl, rfl, rfl, rfl⟩
    · exact .opens opened same_rfl fun hcareful => hcareful (Bool.eq_false_iff.mpr ‹_›)
  | topicsRead call ok =>
    obtain ⟨updates, -, rfl⟩ := reading_of_step h
    split
    · exact .beginEnd call updates
    -- the read has failed, and the call with it
    · exact .same same_finish
  | endReturned call ok =>
    obtain ⟨k, updates, hcall, ⟨-, hmay, rfl⟩ | ⟨rfl, rfl⟩⟩ := ending_of_step h
    · exact .finishEnd call updates hmay
    · exact .failEnd hcall
  | resumed call opened =>
    obtain ⟨-, rfl⟩ := opening_of_step h
    exact .opens opened same_finish id
  | connected k =>
    obtain ⟨c, hc, hending, hended, rfl⟩ := free_of_step h
    exact .connected hc hending hended
  | closed k =>
    obtain ⟨c, hc, hended, rfl⟩ := live_of_step h
    exact .closed hc hended
  | failed k =>
    obtain rfl := eq_of_step_failed h
    exact .same same_rfl
  | published =>
    cases h
    exact .published

/-- The client that an open connection belongs to is the one that is held, so that its callbacks
write the flag that is read from it. -/
theorem Tidy.connected {c : Client} (h : s.Tidy) (hc : s.clients[k]? = some c)
    (hending : c.ending = false) (hended : c.ended = false) :
    Tidy { s.modifyClient k fun c => { c with connected := true } with
      isConnectedState := s.isConnectedState || c.listening } := by
  obtain ⟨hmqtt, hlistening⟩ := h.held k c hc hended
  rw [hlistening, Bool.or_true]
  refine h.modify (fun d hd => ⟨rfl, rfl, fun hdead => ?_⟩) (fun d _ hd => ?_) ?_
  · rw [Option.some.inj (hc.symm.trans hd), hdead] at hended
    cases hended
  · obtain rfl := Option.some.inj (hc.symm.trans hd)
    show true = (true && !c.ending)
    rw [hending]
    rfl
  · rintro (hother | hnone)
    · exact absurd hmqtt hother
    · rw [hc] at hnone
      cases hnone

theorem Tidy.closed {c : Client} (h : s.Tidy) (hc : s.clients[k]? = some c)
    (hended : c.ended = false) :
    Tidy { s.modifyClient k fun c => { c with connected := false } with
      isConnectedState := s.isConnectedState && !c.listening } := by
  obtain ⟨hmqtt, hlistening⟩ := h.held k c hc hended
  rw [hlistening, Bool.not_true, Bool.and_false]
  refine h.modify (fun d _ => ⟨rfl, rfl, fun _ => rfl⟩) (fun d _ _ => rfl) ?_
  rintro (hother | hnone)
  · exact absurd hmqtt hother
  · rw [hc] at hnone
    cases hnone

theorem Tidy.step (h : s.Tidy) {e : Event} (hcareful : s.Careful e) (hstep : Step env s e t) :
    t.Tidy := by
  cases transition_of_step hstep with
  | same hsame => exact h.same hsame
  | @opens _ s' opened hsame hended =>
    have hall : s'.AllEnded := by
      unfold AllEnded
      rw [hsame.clients]
      exact hended hcareful
    exact (h.same hsame).initConnection hall
  | beginEnd => exact h.beginEnd
  | finishEnd call updates hmay => exact (h.finishEnd hmay).same same_goOn
  | failEnd hcall => exact (h.failEnd hcall hcareful).same same_finish
  | connected hc hending hended => exact h.connected hc hending hended
  | closed hc hended => exact h.closed hc hended
  | published =>
    refine ⟨h.held, h.dead, h.flag, fun n hn => ?_⟩
    rcases List.mem_append.mp hn with hn | hn
    · exact h.emitted n hn
    · exact List.mem_singleton.mp hn ▸ h.receivers_le

/-- In every run of careful events one client is live, and the flag is its own. -/
theorem single_of_careful (env : Environment) {s : Service} {tr : List Event}
    (h : Run (fun s e t => s.Careful e ∧ Step env s e t) .initial tr s) : s.Single := by
  have htidy : s.Tidy :=
    h.invariant tidy_initial fun hs ⟨hcareful, hstep⟩ => Tidy.step hs hcareful hstep
  exact htidy.single

def localBroker : Environment := ⟨"mqtt://localhost:1883", "panel", "secret"⟩

/-- A test for careful events. -/
def carefulTest (s : Service) : Event → Bool
  | .connect _ | .resumed _ _ | .reconnect _ | .updateConfiguration _ => s.clients.all Client.ended
  | .endReturned _ ok => ok
  | _ => true

theorem careful_of_test {e : Event} (h : s.carefulTest e = true) : s.Careful e := by
  cases e with
  | connect opened => exact List.all_eq_true.mp h
  | resumed call opened => exact List.all_eq_true.mp h
  | reconnect opened => exact fun _ => List.all_eq_true.mp h
  | updateConfiguration opened => exact fun _ => List.all_eq_true.mp h
  | endReturned call ok =>
    obtain rfl : ok = true := h
    exact trivial
  | _ => exact trivial

/-- The state that events lead to from the start, if all of them can happen and pass the test. -/
def replay (env : Environment) (test : Service → Event → Bool) : List Event → Option Service
  | [] => some .initial
  | e :: tr => (replay env test tr).bind fun s => if test s e then s.happen env e else none

theorem run_of_replay {test : Service → Event → Bool} {tr : List Event}
    (h : replay env test tr = some s) :
    Run (fun s e t => test s e = true ∧ Step env s e t) .initial tr s := by
  induction tr generalizing s with
  | nil =>
    cases h
    exact .refl
  | cons e tr ih =>
    obtain ⟨t, ht, hstep⟩ := Option.bind_eq_some_iff.mp h
    split at hstep
    · exact .snoc (ih ht) ⟨‹_›, hstep⟩
    · cases hstep

/-- A client connects, hands on a message, is ended and is followed by another one. -/
def takingTurns : List Event :=
  [.reconnect true, .endReturned 0 true, .closed 0, .topicsRead 0 true, .disconnect, .published,
    .connected 0, .connect true]

theorem single_of_careful_takingTurns :
    ∃ s, replay localBroker carefulTest takingTurns = some s ∧ s.Single := by
  obtain ⟨s, hs⟩ : ∃ s, replay localBroker carefulTest takingTurns = some s := ⟨_, rfl⟩
  exact ⟨s, hs, single_of_careful localBroker
    ((run_of_replay hs).mono fun ⟨htest, hstep⟩ => ⟨careful_of_test htest, hstep⟩)⟩

/-- The module connects when it starts, and `POST mqtt/connect` opens a second client. -/
theorem not_single_of_connect :
    ¬ ∀ (env : Environment) (s : Service) (tr : List Event),
      Run (Step env) .initial tr s → s.Single := by
  intro h
  have hreplay : replay localBroker (fun _ _ => true) [.connect true, .connect true] = some _ := rfl
  have hsingle := h localBroker _ _ ((run_of_replay hreplay).mono And.right)
  exact absurd (hsingle.alone 0 1 _ _ rfl rfl rfl rfl) (by decide)

end Service

end IotPanel.Broker
