import IotPanel.Broker.Configuration

/-!
# Testing a configuration, event by event

A test opens a client of its own and waits for what happens to it first. Its callbacks stay with
the client until an `end` has called back, so that they may be called again when the test is over.
-/

namespace IotPanel.Broker

/-- A test that has begun. `timer` says that the timeout is set, `rejected` is the error that the
library has thrown instead of opening a client and that is yet to be caught, and `held` says that
the adapter has its client, with the callbacks. `ends` counts the calls of `end`, and `waiting`
those that have not called back. -/
structure Trial where
  timer : Bool
  result : Option (Except Exception ConnectionTestResult)
  rejected : Option String
  opened : Bool
  held : Bool
  ends : ℕ
  waiting : ℕ

namespace Trial

inductive Event
  | outcome (e : TestEvent)
  | endReturned (ok : Bool)
  | closed

/-- The call of `testConnection`, up to its promise. `failure` is what the library throws, if it
does not open the client. -/
def start (config : Json) (failure : Option String) : Except Exception Trial :=
  match config with
  | .null => .error (.error "Cannot read properties of null (reading 'protocol')")
  | _ => .ok
      { timer := true, result := none, rejected := failure, opened := failure.isNone,
        held := failure.isNone, ends := 0, waiting := 0 }

/-- `disconnect` of the adapter, whose errors are not looked at. -/
def disconnect (t : Trial) : Trial :=
  if t.held then { t with ends := t.ends + 1, waiting := t.waiting + 1 } else t

/-- The timeout is cleared, and the promise settled if it has not been. -/
def settle (config : Json) (e : TestEvent) (t : Trial) : Trial :=
  { t with timer := false, result := t.result.or (some (testConnection config e)) }

/-- Whether something can happen to the test. Only a client that is held has callbacks, only a
timeout that is set fires, and only what was thrown is caught. -/
def mayHappen (t : Trial) : TestEvent → Bool
  | .connect _ | .error _ => t.held
  | .timeout _ => t.timer
  | .notOpened message => t.rejected = some message

/-- A test that could not open its client has none to disconnect. -/
def handle (config : Json) (t : Trial) : TestEvent → Trial
  | .notOpened message => { t with rejected := none }.settle config (.notOpened message)
  | e => t.disconnect.settle config e

def happen (config : Json) (t : Trial) : Event → Option Trial
  | .outcome e => if t.mayHappen e then some (t.handle config e) else none
  | .endReturned ok =>
    if 0 < t.waiting then some { t with waiting := t.waiting - 1, held := t.held && !ok } else none
  | .closed => if t.opened then some t else none

def Step (config : Json) (t : Trial) (e : Event) (u : Trial) : Prop := t.happen config e = some u

/-- What happens in a trace that settles a promise. -/
def Event.outcome? : Event → Option TestEvent
  | .outcome e => some e
  | _ => none

/-- The first outcome of a trace, which has the newest event first. -/
def firstOutcome (tr : List Event) : Option TestEvent := (tr.filterMap Event.outcome?).getLast?

/-- What is known of a test after a trace. -/
structure Settled (config : Json) (tr : List Event) (t : Trial) : Prop where
  /-- The promise has been settled by the first outcome, and by no later one. -/
  result : t.result = (firstOutcome tr).map (testConnection config)
  /-- As long as it has not been settled, the timeout is set. -/
  timer : t.timer = t.result.isNone
  /-- A client that was opened has been told to end once the promise is settled. -/
  ended : t.opened = true → t.result.isSome = true → 0 < t.ends
  /-- Unless an `end` has failed, a client that is still held then is being ended. -/
  leaving : .endReturned false ∉ tr → t.held = true → t.result.isSome = true → 0 < t.waiting
  /-- Where an `end` has called back without an error, nothing comes after it. -/
  quiet : ∀ later earlier, tr = later ++ .endReturned true :: earlier →
    ∀ e, .outcome e ∉ later

/-- What holds of a test in all its states. -/
structure Sane (t : Trial) : Prop where
  timer : t.timer = t.result.isNone
  pending : t.opened = true → t.result = none → t.held = true
  ended : t.opened = true → t.result.isSome = true → 0 < t.ends
  opened : t.held = true → t.opened = true
  rejected : t.rejected.isSome = true → t.opened = false
  waiting : 0 < t.waiting → t.opened = true ∧ t.result.isSome = true

variable {config : Json} {t u : Trial} {tr : List Event} {e : TestEvent} {failure : Option String}

section Fields

@[simp] theorem settle_timer : (t.settle config e).timer = false := rfl

@[simp] theorem settle_result :
    (t.settle config e).result = t.result.or (some (testConnection config e)) := rfl

@[simp] theorem settle_rejected : (t.settle config e).rejected = t.rejected := rfl

@[simp] theorem settle_opened : (t.settle config e).opened = t.opened := rfl

@[simp] theorem settle_held : (t.settle config e).held = t.held := rfl

@[simp] theorem settle_ends : (t.settle config e).ends = t.ends := rfl

@[simp] theorem settle_waiting : (t.settle config e).waiting = t.waiting := rfl

@[simp] theorem disconnect_result : t.disconnect.result = t.result := by
  unfold disconnect
  split <;> rfl

@[simp] theorem disconnect_rejected : t.disconnect.rejected = t.rejected := by
  unfold disconnect
  split <;> rfl

@[simp] theorem disconnect_opened : t.disconnect.opened = t.opened := by
  unfold disconnect
  split <;> rfl

@[simp] theorem disconnect_held : t.disconnect.held = t.held := by
  unfold disconnect
  split <;> rfl

end Fields

theorem sane_start (h : start config failure = .ok t) : t.Sane ∧ t.result = none := by
  unfold start at h
  split at h
  · cases h
  · cases h
    refine ⟨⟨rfl, fun hopened _ => hopened, nofun, id, ?_, nofun⟩, rfl⟩
    cases failure with
    | none => exact nofun
    | some message => exact fun _ => rfl

theorem isSome_or {α : Type} (o : Option α) (a : α) : (o.or (some a)).isSome = true := by
  cases o <;> rfl

/-- A client that is open, and is no longer held, has been told to end. -/
theorem Sane.ends_disconnect (h : t.Sane) (hopened : t.opened = true) : 0 < t.disconnect.ends := by
  unfold disconnect
  by_cases hheld : t.held = true
  · rw [if_pos hheld]
    exact Nat.succ_pos _
  · rw [if_neg hheld]
    refine h.ended hopened ?_
    by_contra hnone
    exact hheld (h.pending hopened (Option.not_isSome_iff_eq_none.mp hnone))

/-- An `end` is waited for only where the client has been open. -/
theorem Sane.opened_of_waiting (h : t.Sane) (hwaiting : 0 < t.disconnect.waiting) :
    t.opened = true := by
  unfold disconnect at hwaiting
  by_cases hheld : t.held = true
  · exact h.opened hheld
  · rw [if_neg hheld] at hwaiting
    exact (h.waiting hwaiting).1

theorem Sane.settle (h : t.Sane) : (t.disconnect.settle config e).Sane := by
  have hsome := isSome_or t.result (testConnection config e)
  constructor
  · simp
  · intro hopened hnone
    simp only [settle_result, disconnect_result] at hnone
    rw [hnone] at hsome
    cases hsome
  · intro hopened _
    exact h.ends_disconnect (by simpa using hopened)
  · simpa using h.opened
  · simpa using h.rejected
  · intro hwaiting
    simpa [hsome] using h.opened_of_waiting hwaiting

/-- A test without a client has nothing to disconnect. -/
theorem Sane.notOpened {message : String} (h : t.Sane) (hrejected : t.rejected = some message) :
    Sane { t with rejected := none } ∧ Trial.disconnect { t with rejected := none } =
      { t with rejected := none } := by
  have hopened : t.opened = false := h.rejected (by rw [hrejected]; rfl)
  have hheld : ¬ t.held = true := by
    intro hheld
    rw [h.opened hheld] at hopened
    cases hopened
  refine ⟨⟨h.timer, h.pending, h.ended, h.opened, nofun, h.waiting⟩, ?_⟩
  unfold disconnect
  exact if_neg hheld

theorem Sane.handle (h : t.Sane) (hmay : t.mayHappen e = true) : (t.handle config e).Sane := by
  cases e with
  | notOpened message =>
    obtain ⟨hsane, hsame⟩ := h.notOpened (of_decide_eq_true hmay)
    have hsettle : Sane (Trial.settle config (.notOpened message)
        (Trial.disconnect { t with rejected := none })) := hsane.settle
    rwa [hsame] at hsettle
  | _ => exact h.settle

theorem Sane.step (h : t.Sane) {e : Event} (hstep : Step config t e u) : u.Sane := by
  unfold Step happen at hstep
  cases e with
  | outcome e =>
    dsimp only at hstep
    split at hstep
    · cases hstep
      exact h.handle ‹_›
    · cases hstep
  | endReturned ok =>
    dsimp only at hstep
    split at hstep
    · rename_i hwaiting
      cases hstep
      obtain ⟨hopened, hresult⟩ := h.waiting hwaiting
      refine ⟨h.timer, fun _ hnone => ?_, h.ended, fun hheld => hopened, h.rejected,
        fun _ => ⟨hopened, hresult⟩⟩
      change t.result = none at hnone
      rw [hnone] at hresult
      cases hresult
    · cases hstep
  | closed =>
    dsimp only at hstep
    split at hstep
    · cases hstep
      exact h
    · cases hstep

/-! ### What a trace says of the test -/

theorem firstOutcome_cons (e : Event) (tr : List Event) :
    firstOutcome (e :: tr) = (firstOutcome tr).or e.outcome? := by
  unfold firstOutcome
  cases houtcome : e.outcome? with
  | none =>
    rw [List.filterMap_cons_none houtcome, Option.or_none]
  | some o =>
    rw [List.filterMap_cons_some houtcome, List.getLast?_cons]
    cases (tr.filterMap Event.outcome?).getLast? <;> rfl

theorem result_handle (hmay : t.mayHappen e = true) :
    (t.handle config e).result = t.result.or (some (testConnection config e)) := by
  cases e <;> simp [Trial.handle]

theorem result_step {e : Event} (hstep : Step config t e u) :
    u.result = t.result.or (e.outcome?.map (testConnection config)) := by
  unfold Step happen at hstep
  cases e with
  | outcome e =>
    dsimp only at hstep
    split at hstep
    · cases hstep
      exact result_handle ‹_›
    · cases hstep
  | endReturned ok =>
    dsimp only at hstep
    split at hstep <;> cases hstep
    simp [Event.outcome?]
  | closed =>
    dsimp only at hstep
    split at hstep <;> cases hstep
    simp [Event.outcome?]

/-- Nothing more can happen to the promise. -/
structure Quiet (t : Trial) : Prop where
  held : t.held = false
  timer : t.timer = false
  rejected : t.rejected = none

theorem Quiet.not_mayHappen (h : t.Quiet) : t.mayHappen e = false := by
  cases e <;> simp [mayHappen, h.held, h.timer, h.rejected]

theorem Quiet.step (h : t.Quiet) {e : Event} (hstep : Step config t e u) :
    u.Quiet ∧ e.outcome? = none := by
  unfold Step happen at hstep
  cases e with
  | outcome e =>
    simp [h.not_mayHappen] at hstep
  | endReturned ok =>
    dsimp only at hstep
    split at hstep <;> cases hstep
    refine ⟨⟨?_, h.timer, h.rejected⟩, rfl⟩
    rw [h.held, Bool.false_and]
  | closed =>
    dsimp only at hstep
    split at hstep <;> cases hstep
    exact ⟨h, rfl⟩

theorem Sane.quiet (h : t.Sane) (hstep : Step config t (.endReturned true) u) : u.Quiet := by
  unfold Step happen at hstep
  dsimp only at hstep
  split at hstep
  · rename_i hwaiting
    cases hstep
    obtain ⟨hopened, hresult⟩ := h.waiting hwaiting
    refine ⟨Bool.and_false _, ?_, ?_⟩
    · have hnone := Option.not_isSome t.result
      rw [hresult] at hnone
      exact h.timer.trans hnone.symm
    · by_contra hrejected
      have hclosed := h.rejected (Option.isSome_iff_ne_none.mpr hrejected)
      rw [hopened] at hclosed
      cases hclosed
  · cases hstep

/-- The states of a run, with what the end of the client has brought about. -/
structure Known (config : Json) (tr : List Event) (t : Trial) : Prop where
  sane : t.Sane
  result : t.result = (firstOutcome tr).map (testConnection config)
  leaving : .endReturned false ∉ tr → t.held = true → t.result.isSome = true → 0 < t.waiting
  finished : .endReturned true ∈ tr → t.Quiet
  quiet : ∀ later earlier, tr = later ++ .endReturned true :: earlier → ∀ e, .outcome e ∉ later

/-- A test that settles its promise with its client at hand has just called `end`. -/
theorem waiting_handle (hmay : t.mayHappen e = true) (hsane : t.Sane)
    (hheld : (t.handle config e).held = true) : 0 < (t.handle config e).waiting := by
  have hdisconnect : t.held = true → 0 < t.disconnect.waiting := by
    intro hheld
    unfold disconnect
    rw [if_pos hheld]
    exact Nat.succ_pos _
  cases e with
  | notOpened message =>
    have hopened := hsane.rejected (by rw [of_decide_eq_true hmay]; rfl)
    rw [hsane.opened hheld] at hopened
    cases hopened
  | _ => exact hdisconnect (by simpa [Trial.handle] using hheld)

theorem waiting_step (hsane : t.Sane) {e : Event} (hstep : Step config t e u)
    (hfailed : e ≠ .endReturned false) (h : t.held = true → t.result.isSome = true → 0 < t.waiting)
    (hheld : u.held = true) (hresult : u.result.isSome = true) : 0 < u.waiting := by
  unfold Step happen at hstep
  cases e with
  | outcome e =>
    dsimp only at hstep
    split at hstep <;> cases hstep
    exact waiting_handle ‹_› hsane hheld
  | endReturned ok =>
    cases ok with
    | false => exact absurd rfl hfailed
    | true =>
      dsimp only at hstep
      split at hstep <;> cases hstep
      simp at hheld
  | closed =>
    dsimp only at hstep
    split at hstep <;> cases hstep
    exact h hheld hresult

theorem Known.step (h : Known config tr t) {e : Event} (hstep : Step config t e u) :
    Known config (e :: tr) u := by
  refine ⟨h.sane.step hstep, ?_, fun hfailed => ?_, fun hover => ?_,
    fun later earlier htr e' hmem => ?_⟩
  · rw [result_step hstep, h.result, firstOutcome_cons]
    cases firstOutcome tr <;> rfl
  · rw [List.mem_cons, not_or] at hfailed
    exact waiting_step h.sane hstep (Ne.symm hfailed.1) (h.leaving hfailed.2)
  · obtain heq | hover := List.mem_cons.mp hover
    · subst heq
      exact h.sane.quiet hstep
    · exact ((h.finished hover).step hstep).1
  · cases later with
    | nil => cases hmem
    | cons a later =>
      obtain ⟨rfl, rfl⟩ := List.cons.inj htr
      obtain heq | hmem := List.mem_cons.mp hmem
      · -- what comes last comes to a test that is quiet
        have hquiet := h.finished (List.mem_append_right _ List.mem_cons_self)
        have hnone := (hquiet.step hstep).2
        rw [← heq] at hnone
        cases hnone
      · exact h.quiet later earlier rfl e' hmem

/-- In every order of its events, a test settles its promise once, by what comes first. Until then
the timeout is set, so that it is settled at all, and from then on the client is told to end. -/
theorem settled_of_run (config : Json) (failure : Option String) (t₀ t : Trial) (tr : List Event)
    (hstart : start config failure = .ok t₀) (h : Run (Step config) t₀ tr t) :
    t.Settled config tr := by
  obtain ⟨hsane, hnone⟩ := sane_start hstart
  have hknown : Known config tr t := by
    induction h with
    | refl =>
      refine ⟨hsane, hnone, fun _ _ hresult => ?_, nofun, fun later earlier htr => ?_⟩
      · rw [hnone] at hresult
        cases hresult
      · cases later <;> cases htr
    | snoc _ hstep ih => exact ih.step hstep
  exact ⟨hknown.result, hknown.sane.timer, hknown.sane.ended, hknown.leaving, hknown.quiet⟩

/-- The state that events lead to, if all of them can happen. -/
def replay (config : Json) (t : Trial) : List Event → Option Trial
  | [] => some t
  | e :: tr => (replay config t tr).bind fun u => u.happen config e

theorem run_of_replay (h : replay config t tr = some u) : Run (Step config) t tr u := by
  induction tr generalizing u with
  | nil =>
    cases h
    exact .refl
  | cons e tr ih =>
    obtain ⟨v, hv, hstep⟩ := Option.bind_eq_some_iff.mp h
    exact .snoc (ih hv) hstep

def localConfig : Json := .obj [("host", .str "localhost"), ("port", .num 1883)]

/-- The client connects and is told to end; the first `end` fails, so that it connects again. -/
def reconnecting : List Event :=
  [.closed, .endReturned true, .outcome (.connect (some "test-1")), .endReturned false,
    .outcome (.connect (some "test-1"))]

theorem settled_of_run_reconnecting : ∃ t₀ t : Trial, start localConfig none = .ok t₀ ∧
    replay localConfig t₀ reconnecting = some t ∧ t.Settled localConfig reconnecting := by
  let t₀ : Trial := ⟨true, none, none, true, true, 0, 0⟩
  obtain ⟨t, ht⟩ : ∃ t, replay localConfig t₀ reconnecting = some t := ⟨_, rfl⟩
  have hsettled := settled_of_run localConfig none t₀ t reconnecting rfl (run_of_replay ht)
  exact ⟨t₀, t, rfl, ht, hsettled⟩

end Trial

end IotPanel.Broker
