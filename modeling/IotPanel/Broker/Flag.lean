import IotPanel.Broker.Single
import IotPanel.Js.Exception

/-!
# What the flag of the service is worth

Several clients may write the flag. It never promises what no client keeps: where it is set, some
client with its callbacks is connected. `updateConfiguration` clears it, and nothing but a client
that connects sets it again, so that the configuration which `PUT mqtt/config` reads afterwards is
refused, unless another client connects meanwhile.
-/

namespace IotPanel.Broker

namespace Service

/-- Where the flag is set, a client with its callbacks is connected. -/
def Sound (s : Service) : Prop :=
  s.isConnectedState = true → ∃ (l : ℕ) (c : Client), s.clients[l]? = some c ∧ c.receives = true

variable {env : Environment} {s t : Service} {e : Event} {tr : List Event} {k : ℕ}
  {f : Client → Client}

theorem Sound.same (h : s.Sound) (hsame : s.Same t) : t.Sound := by
  unfold Sound
  rw [hsame.isConnectedState, hsame.clients]
  exact h

theorem Sound.clear (h : s.isConnectedState = false) : s.Sound := by
  intro hflag
  rw [h] at hflag
  cases hflag

theorem Sound.initConnection (h : s.Sound) (opened : Bool) : (s.initConnection env opened).Sound := by
  intro hflag
  cases opened with
  | false => exact h hflag
  | true =>
    obtain ⟨l, c, hc, hreceives⟩ := h hflag
    have hlt : l < s.clients.length := (List.getElem?_eq_some_iff.mp hc).1
    refine ⟨l, c, ?_, hreceives⟩
    show (s.clients ++ [Client.create env.options])[l]? = some c
    rw [List.getElem?_append_left hlt, hc]

/-- A modification of one client keeps what the others receive. -/
theorem Sound.modify {b : Bool} (h : s.Sound)
    (hother : b = true → s.isConnectedState = true ∨
      ∃ c, s.clients[k]? = some c ∧ (f c).receives = true)
    (hkeep : b = true → ∀ c, s.clients[k]? = some c → c.receives = true →
      (f c).receives = true) :
    Sound { s.modifyClient k f with isConnectedState := b } := by
  intro hflag
  change b = true at hflag
  show ∃ (l : ℕ) (c : Client), (s.modifyClient k f).clients[l]? = some c ∧ c.receives = true
  obtain hset | ⟨c, hc, hreceives⟩ := hother hflag
  · obtain ⟨l, c, hc, hreceives⟩ := h hset
    by_cases hl : k = l
    · subst hl
      exact ⟨k, f c, getElem?_modifyClient_self hc, hkeep hflag c hc hreceives⟩
    · refine ⟨l, c, ?_, hreceives⟩
      rw [getElem?_modifyClient, if_neg hl, hc]
  · exact ⟨k, f c, getElem?_modifyClient_self hc, hreceives⟩

theorem flag_beginEnd {call : ℕ} {updates : Bool} :
    (s.beginEnd call updates).isConnectedState = false := by
  unfold Service.beginEnd
  dsimp only
  split
  · rfl
  · exact same_goOn.isConnectedState
  · rfl

theorem Sound.finishEnd (h : s.Sound) (hmay : s.mayReturn k = true) : (s.finishEnd k).Sound := by
  intro hflag
  obtain ⟨l, c, hc, hreceives⟩ := h hflag
  have hne : k ≠ l := by
    rintro rfl
    unfold mayReturn at hmay
    rw [hc] at hmay
    have hclosed : c.connected = false := by simpa using hmay
    unfold Client.receives at hreceives
    rw [hclosed] at hreceives
    cases hreceives
  refine ⟨l, c, ?_, hreceives⟩
  show (s.modifyClient k _).clients[l]? = some c
  rw [getElem?_modifyClient, if_neg hne, hc]

theorem Sound.step (h : s.Sound) (hstep : Step env s e t) : t.Sound := by
  cases transition_of_step hstep with
  | same hsame => exact h.same hsame
  | opens opened hsame _ => exact (h.same hsame).initConnection opened
  | beginEnd => exact .clear flag_beginEnd
  | finishEnd call updates hmay => exact (h.finishEnd hmay).same same_goOn
  | @failEnd k call updates hcall =>
    refine Sound.same ?_ same_finish
    exact h.modify (b := s.isConnectedState) Or.inl fun _ c _ hreceives => hreceives
  | @connected _ k c hc hending hended =>
    apply h.modify
    · intro hset
      obtain hset | hlistening := Bool.or_eq_true_iff.mp hset
      · exact .inl hset
      · exact .inr ⟨c, hc, hlistening⟩
    · intro _ d _ hreceives
      exact Bool.and_eq_true_iff.mpr ⟨rfl, (Bool.and_eq_true_iff.mp hreceives).2⟩
  | @closed _ k c hc hended =>
    apply h.modify
    · exact fun hset => .inl (Bool.and_eq_true_iff.mp hset).1
    · -- a client that closes without clearing the flag was not heard before
      intro hset d hd hreceives
      obtain rfl := Option.some.inj (hc.symm.trans hd)
      have hlistening := (Bool.and_eq_true_iff.mp hreceives).2
      rw [hlistening] at hset
      simp at hset
  | published => exact h

theorem sound_of_run (h : Run (Step env) .initial tr s) : s.Sound :=
  h.invariant (.clear rfl) fun hs hstep => hs.step hstep

/-- In every run, while the flag is set, what a device publishes reaches the service. -/
theorem receivers_of_flag (env : Environment) (tr : List Event) (s : Service)
    (h : Run (Step env) .initial tr s) (hset : s.isConnectedState = true) : 0 < s.receivers := by
  obtain ⟨l, c, hc, hreceives⟩ := sound_of_run h hset
  exact List.countP_pos_iff.mpr ⟨c, List.mem_of_getElem? hc, hreceives⟩

theorem receivers_of_flag_connected : ∃ s,
    replay localBroker (fun _ _ => true) [.connected 0, .connect true] = some s ∧
      0 < s.receivers := by
  obtain ⟨s, hs⟩ : ∃ s, replay localBroker (fun _ _ => true) [.connected 0, .connect true] =
    some s := ⟨_, rfl⟩
  have hset : s.isConnectedState = true := by
    cases hs
    rfl
  exact ⟨s, hs, receivers_of_flag localBroker _ s ((run_of_replay hs).mono And.right) hset⟩

/-! ### Reading the configuration after an update -/

/-- What `getConfiguration` answers, less the broker, the client's id, the counters of attempts and
the time. -/
structure ConfigurationResult where
  port : ℕ := 1883
  protocol : String := "mqtt"
  keepalive : ℕ := 60
  clean : Bool := true
  autoReconnect : Bool := true
  connected : Bool

def getConfiguration (s : Service) : Except Exception ConfigurationResult :=
  if s.isConnectedState then .ok { connected := s.isConnectedState }
  else .error (.unauthorized "MQTT client not initialized")

/-- The event with which an update opens its client and returns, so that `updateConfig` of the
controller reads the configuration next. -/
def OpensUpdate (s : Service) : Event → Prop
  | .updateConfiguration opened => (s.mqtt.isSome && s.isConnectedState) = false ∧ opened = true
  | .resumed _ opened => opened = true
  | _ => False

/-- The event with which a call of `disconnect` clears the flag. -/
def Clears : Event → Prop
  | .topicsRead _ ok => ok = true
  | _ => False

theorem flag_initConnection (opened : Bool) :
    (s.initConnection env opened).isConnectedState = s.isConnectedState := by
  cases opened <;> rfl

theorem flag_reconnect (opened : Bool) :
    (s.reconnect env opened).isConnectedState = s.isConnectedState := by
  unfold Service.reconnect
  split
  · rfl
  · exact flag_initConnection opened

/-- Nothing but a client that connects sets the flag. -/
theorem flag_cases (hstep : Step env s e t) (hset : t.isConnectedState = true) :
    (∃ k, e = .connected k) ∨ (s.isConnectedState = true ∧ ¬ Clears e) := by
  cases e with
  | connect opened =>
    cases hstep
    exact .inr ⟨flag_initConnection opened ▸ hset, id⟩
  | reconnect opened =>
    cases hstep
    exact .inr ⟨flag_reconnect opened ▸ hset, id⟩
  | disconnect | published =>
    cases hstep
    exact .inr ⟨hset, id⟩
  | updateConfiguration opened =>
    cases hstep
    split at hset
    · exact .inr ⟨hset, id⟩
    · exact .inr ⟨flag_initConnection opened ▸ hset, id⟩
  | topicsRead call ok =>
    obtain ⟨updates, -, rfl⟩ := reading_of_step hstep
    cases ok with
    | true =>
      rw [if_pos rfl, flag_beginEnd] at hset
      cases hset
    | false => exact .inr ⟨hset, Bool.false_ne_true⟩
  | endReturned call ok =>
    obtain ⟨k, updates, -, ⟨-, -, rfl⟩ | ⟨-, rfl⟩⟩ := ending_of_step hstep
    · rw [same_goOn.isConnectedState] at hset
      exact .inr ⟨hset, id⟩
    · exact .inr ⟨hset, id⟩
  | resumed call opened =>
    obtain ⟨-, rfl⟩ := opening_of_step hstep
    rw [flag_initConnection] at hset
    exact .inr ⟨hset, id⟩
  | connected k => exact .inl ⟨k, rfl⟩
  | closed k =>
    obtain ⟨c, -, -, rfl⟩ := live_of_step hstep
    exact .inr ⟨(Bool.and_eq_true_iff.mp hset).1, id⟩
  | failed k =>
    obtain rfl := eq_of_step_failed hstep
    exact .inr ⟨hset, id⟩

/-- Where the flag is set, a client has connected, and it has not been cleared since. -/
theorem connected_of_flag (h : Run (Step env) .initial tr s) (hset : s.isConnectedState = true) :
    ∃ later k earlier, tr = later ++ .connected k :: earlier ∧ ∀ e ∈ later, ¬ Clears e := by
  induction h with
  | refl => cases hset
  | @snoc tr s t e h hstep ih =>
    obtain ⟨k, rfl⟩ | ⟨hbefore, hclear⟩ := flag_cases hstep hset
    · exact ⟨[], k, tr, rfl, nofun⟩
    · obtain ⟨later, k, earlier, rfl, hlater⟩ := ih hbefore
      exact ⟨e :: later, k, earlier, rfl, List.forall_mem_cons.mpr ⟨hclear, hlater⟩⟩

/-- The call has got past the topics. -/
def Past : Stage → Prop
  | .reading _ => False
  | _ => True

/-- Each call that has got past the topics has cleared the flag. -/
def Cleared (tr : List Event) (s : Service) : Prop :=
  ∀ stage ∈ s.calls, Past stage → ∃ e ∈ tr, Clears e

theorem Cleared.of_subset (h : Cleared tr s) (hsub : ∀ stage ∈ t.calls, Past stage →
    ∃ stage' ∈ s.calls, Past stage') : Cleared (e :: tr) t := by
  intro stage hstage hpast
  obtain ⟨stage', hstage', hpast'⟩ := hsub stage hstage hpast
  obtain ⟨e', he', hclears⟩ := h stage' hstage' hpast'
  exact ⟨e', List.mem_cons_of_mem e he', hclears⟩

theorem Cleared.of_clears (h : Clears e) : Cleared (e :: tr) s :=
  fun _ _ _ => ⟨e, List.mem_cons_self, h⟩

theorem Cleared.of_eq (h : Cleared tr s) (hcalls : t.calls = s.calls) : Cleared (e :: tr) t :=
  h.of_subset fun stage hstage hpast => ⟨stage, hcalls ▸ hstage, hpast⟩

theorem Cleared.of_calls (h : Cleared tr s) (hsub : t.calls ⊆ s.calls) : Cleared (e :: tr) t :=
  h.of_subset fun stage hstage hpast => ⟨stage, hsub hstage, hpast⟩

/-- A call that begins is still at the topics. -/
theorem Cleared.of_begun {updates : Bool} (h : Cleared tr s)
    (hcalls : t.calls = s.calls ++ [.reading updates]) : Cleared (e :: tr) t := by
  refine h.of_subset fun stage hstage hpast => ?_
  rw [hcalls] at hstage
  obtain hstage | hstage := List.mem_append.mp hstage
  · exact ⟨stage, hstage, hpast⟩
  · rw [List.mem_singleton.mp hstage] at hpast
    cases hpast

theorem calls_initConnection (opened : Bool) : (s.initConnection env opened).calls = s.calls := by
  cases opened <;> rfl

theorem calls_reconnect (opened : Bool) : (s.reconnect env opened).calls = s.calls := by
  unfold Service.reconnect
  split
  · rfl
  · exact calls_initConnection opened

theorem Cleared.step (h : Cleared tr s) (hstep : Step env s e t) : Cleared (e :: tr) t := by
  cases e with
  | connect opened =>
    cases hstep
    exact h.of_eq (calls_initConnection opened)
  | reconnect opened =>
    cases hstep
    exact h.of_eq (calls_reconnect opened)
  | disconnect =>
    cases hstep
    exact h.of_begun rfl
  | updateConfiguration opened =>
    cases hstep
    split
    · exact h.of_begun rfl
    · exact h.of_eq (calls_initConnection opened)
  | topicsRead call ok =>
    obtain ⟨updates, -, rfl⟩ := reading_of_step hstep
    cases ok with
    | true => exact .of_clears rfl
    | false => exact h.of_calls (List.eraseIdx_subset ..)
  | endReturned call ok =>
    obtain ⟨k, updates, hcall, -⟩ := ending_of_step hstep
    -- the call that returns has been past the topics
    exact h.of_subset fun _ _ _ => ⟨_, List.mem_of_getElem? hcall, trivial⟩
  | resumed call opened =>
    obtain ⟨-, rfl⟩ := opening_of_step hstep
    refine h.of_calls ?_
    rw [calls_initConnection]
    exact List.eraseIdx_subset ..
  | connected k =>
    obtain ⟨c, -, -, -, rfl⟩ := free_of_step hstep
    exact h.of_eq rfl
  | closed k =>
    obtain ⟨c, -, -, rfl⟩ := live_of_step hstep
    exact h.of_eq rfl
  | failed k =>
    obtain rfl := eq_of_step_failed hstep
    exact h.of_eq rfl
  | published =>
    cases hstep
    exact h.of_eq rfl

/-- Where a client has been created there is an adapter. -/
def Adapted (s : Service) : Prop := s.mqtt = none → s.clients = []

theorem Adapted.same (h : s.Adapted) (hsame : s.Same t) : t.Adapted := by
  unfold Adapted
  rw [hsame.mqtt, hsame.clients]
  exact h

theorem Adapted.modify {b : Bool} (h : s.Adapted) :
    Adapted { s.modifyClient k f with isConnectedState := b } := by
  intro hnone
  show s.clients.modify k f = []
  rw [h hnone, List.modify_nil]

theorem Adapted.step (h : s.Adapted) (hstep : Step env s e t) : t.Adapted := by
  cases transition_of_step hstep with
  | same hsame => exact h.same hsame
  | opens opened hsame _ =>
    cases opened <;> exact nofun
  | beginEnd call updates =>
    unfold Service.beginEnd
    dsimp only
    split
    · exact h
    · exact Adapted.same (s := { s with isConnectedState := false }) h same_goOn
    · rename_i hmqtt
      intro hnone
      exact absurd (hmqtt.symm.trans hnone) nofun
  | finishEnd call updates hmay =>
    refine Adapted.same ?_ same_goOn
    intro hnone
    change (if s.mqtt = some (some _) then some none else s.mqtt) = none at hnone
    split at hnone
    · cases hnone
    · exact h.modify (b := s.isConnectedState) hnone
  | failEnd hcall => exact h.modify.same same_finish
  | connected hc hending hended => exact h.modify
  | closed hc hended => exact h.modify
  | published => exact h

/-- An update that has opened its client is refused its configuration, unless another client has
connected since the flag was cleared. -/
theorem connected_of_getConfiguration (env : Environment) (tr : List Event) (s t : Service)
    (e : Event) (r : ConfigurationResult) (h : Run (Step env) .initial tr s)
    (hstep : Step env s e t) (hopens : s.OpensUpdate e) (hread : t.getConfiguration = .ok r) :
    ∃ later k between clear earlier, Clears clear ∧
      tr = later ++ .connected k :: (between ++ clear :: earlier) ∧ ∀ e ∈ later, ¬ Clears e := by
  have hset : t.isConnectedState = true := by
    unfold getConfiguration at hread
    split at hread
    · assumption
    · cases hread
  have hbefore : s.isConnectedState = true := by
    obtain ⟨k, rfl⟩ | ⟨hbefore, -⟩ := flag_cases hstep hset
    · cases hopens
    · exact hbefore
  obtain ⟨later, k, earlier, rfl, hlater⟩ := connected_of_flag h hbefore
  -- what is past the topics has cleared the flag, and no later than this client connected
  have hcleared : ∃ e ∈ later ++ .connected k :: earlier, Clears e := by
    cases e with
    | updateConfiguration opened =>
      have hadapted : s.Adapted := h.invariant (fun _ => rfl) fun hs hstep => hs.step hstep
      obtain ⟨l, c, hc, -⟩ := sound_of_run h hbefore
      have hnone : s.mqtt = none := by
        simpa [hbefore] using hopens.1
      rw [hadapted hnone] at hc
      cases hc
    | resumed call opened =>
      have hinitial : Cleared [] .initial := by
        intro stage hstage
        cases hstage
      have hall : Cleared (later ++ .connected k :: earlier) s :=
        h.induct hinitial fun _ hs hstep => Cleared.step hs hstep
      exact hall .opening (List.mem_of_getElem? (opening_of_step hstep).1) trivial
    | _ => cases hopens
  obtain ⟨clear, hmem, hclears⟩ := hcleared
  obtain hmem | hmem := List.mem_append.mp hmem
  · exact absurd hclears (hlater clear hmem)
  · obtain rfl | hmem := List.mem_cons.mp hmem
    · cases hclears
    · obtain ⟨between, rest, rfl⟩ := List.append_of_mem hmem
      exact ⟨later, k, between, clear, rest, hclears, rfl, hlater⟩

/-- With one client at a time every update that has opened its client is refused. -/
theorem getConfiguration_of_careful
    (h : Run (fun s e t => s.Careful e ∧ Step env s e t) .initial tr s) (hcareful : s.Careful e)
    (hstep : Step env s e t) (hopens : s.OpensUpdate e) :
    t.getConfiguration = .error (.unauthorized "MQTT client not initialized") := by
  have htidy : s.Tidy :=
    h.invariant tidy_initial fun hs ⟨hcareful, hstep⟩ => Tidy.step hs hcareful hstep
  have hended : s.AllEnded := by
    cases e with
    | updateConfiguration opened => exact hcareful hopens.1
    | resumed call opened => exact hcareful
    | _ => cases hopens
  -- what has ended is not connected, and nothing else is held
  have hbefore : s.isConnectedState = false := by
    rw [htidy.flag, Option.any_eq_false]
    intro c hc
    obtain ⟨k, -, hk⟩ := Option.bind_eq_some_iff.mp hc
    have hmem := List.mem_of_getElem? hk
    rw [Client.isConnected, htidy.dead c hmem (hended c hmem)]
    rfl
  have hafter : t.isConnectedState = false := by
    by_contra hset
    obtain ⟨k, rfl⟩ | ⟨hflag, -⟩ := flag_cases hstep (by simpa using hset)
    · cases hopens
    · rw [hbefore] at hflag
      cases hflag
  rw [getConfiguration, hafter]
  rfl

/-- A client that had been forgotten connects while an update ends the other one. -/
def overtaken : List Event :=
  [.endReturned 0 true, .connected 0, .closed 1, .topicsRead 0 true, .updateConfiguration true,
    .connected 1, .connect true, .connect true]

theorem connected_of_getConfiguration_overtaken :
    ∃ later k between clear earlier, Clears clear ∧
      overtaken = later ++ .connected k :: (between ++ clear :: earlier) ∧
        ∀ e ∈ later, ¬ Clears e := by
  obtain ⟨s, hs⟩ : ∃ s, replay localBroker (fun _ _ => true) overtaken = some s := ⟨_, rfl⟩
  obtain ⟨t, ht⟩ : ∃ t, s.happen localBroker (.resumed 0 true) = some t := by
    cases hs
    exact ⟨_, rfl⟩
  have hread : t.getConfiguration = .ok { connected := true } := by
    cases hs
    cases ht
    rfl
  exact connected_of_getConfiguration localBroker overtaken s t (.resumed 0 true) _
    ((run_of_replay hs).mono And.right) ht rfl hread

end Service

end IotPanel.Broker
