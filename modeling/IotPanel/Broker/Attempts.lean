import Mathlib.Algebra.Order.Field.Rat
import Mathlib.Data.List.Infix
import Mathlib.Tactic.Linarith

/-!
# Counting the attempts to reconnect

The callbacks of a client keep a counter. The library reports a close after every attempt that
failed and not only after a connection, and nothing that the callbacks do keeps it from the next
attempt.
-/

namespace IotPanel.Broker

/-- What the library reports to the callbacks. -/
inductive ClientEvent
  | connect
  | close
  | reconnect
  deriving DecidableEq

/-- Where a client stands. It begins with an attempt to connect. -/
inductive Phase
  | connecting
  | connected
  | closed
  deriving DecidableEq

/-- An attempt ends with `connect` or `close`, a connection with `close`, and after a close the
library tries again. -/
def Phase.next : Phase → ClientEvent → Option Phase
  | connecting, .connect => some connected
  | connecting, .close | connected, .close => some closed
  | closed, .reconnect => some connecting
  | _, _ => none

/-- The phase after the events, which stand with the newest one first. -/
def phaseAfter : List ClientEvent → Option Phase
  | [] => some .connecting
  | e :: earlier => (phaseAfter earlier).bind fun phase => phase.next e

/-- Events that a client can produce, the newest one first. -/
structure ClientRun where
  events : List ClientEvent
  produced : (phaseAfter events).isSome

/-- What the callbacks write. -/
structure Counter where
  isConnectedState : Bool
  connectionAttempts : ℕ
  deriving DecidableEq

namespace Counter

def initial : Counter := ⟨false, 0⟩

def onConnect (c : Counter) : Counter := ⟨true, c.connectionAttempts + 1⟩

def onDisconnect (_ : Counter) : Counter := ⟨false, 0⟩

/-- `MAX_RECONNECTION_ATTEMPTS` is a number of the environment. -/
def onReconnect (max : ℚ) (c : Counter) : Counter :=
  if c.connectionAttempts < max then { c with connectionAttempts := c.connectionAttempts + 1 } else c

def handle (max : ℚ) (c : Counter) : ClientEvent → Counter
  | .connect => c.onConnect
  | .close => c.onDisconnect
  | .reconnect => c.onReconnect max

/-- The counter after the events. -/
def after (max : ℚ) : List ClientEvent → Counter
  | [] => initial
  | e :: earlier => (after max earlier).handle max e

end Counter

/-- The attempts to reconnect since the last `connect`. -/
def reconnectsSince : List ClientEvent → ℕ
  | [] | .connect :: _ => 0
  | .close :: earlier => reconnectsSince earlier
  | .reconnect :: earlier => reconnectsSince earlier + 1

/-- The counter is right after the events, and the last of them is no attempt beyond the
maximum. -/
structure Counted (max : ℚ) (events : List ClientEvent) : Prop where
  bounded : ((Counter.after max events).connectionAttempts : ℚ) ≤ max
  counted : (Counter.after max events).connectionAttempts = reconnectsSince events
  stopped : ∀ earlier, events = .reconnect :: earlier →
    ((Counter.after max earlier).connectionAttempts : ℚ) < max

/-- The event finds a counter that its callback keeps right: it is no `connect`, a `close` finds
zero, and a `reconnect` finds room for one more. -/
def Meets (max : ℚ) (earlier : List ClientEvent) : ClientEvent → Prop
  | .connect => False
  | .close => (Counter.after max earlier).connectionAttempts = 0
  | .reconnect => ((Counter.after max earlier).connectionAttempts : ℚ) + 1 ≤ max

namespace ClientRun

/-- In every state of the run. -/
def Always (run : ClientRun) (P : List ClientEvent → Prop) : Prop :=
  ∀ earlier, earlier <:+ run.events → P earlier

def Each (run : ClientRun) (P : List ClientEvent → ClientEvent → Prop) : Prop :=
  ∀ e earlier, e :: earlier <:+ run.events → P earlier e

end ClientRun

variable {max : ℚ} {events earlier : List ClientEvent} {e : ClientEvent}

theorem counted_nil : Counted max [] ↔ 0 ≤ max := by
  constructor
  · intro h
    simpa [Counter.after, Counter.initial] using h.bounded
  · intro hmax
    exact ⟨by simpa [Counter.after, Counter.initial] using hmax, rfl, nofun⟩

theorem connectionAttempts_reconnect
    (h : ((Counter.after max earlier).connectionAttempts : ℚ) < max) :
    (Counter.after max (.reconnect :: earlier)).connectionAttempts =
      (Counter.after max earlier).connectionAttempts + 1 := by
  simp only [Counter.after, Counter.handle, Counter.onReconnect, if_pos h]

/-- What one event does to a counter that is right. -/
theorem counted_cons_iff (h : Counted max earlier) :
    Counted max (e :: earlier) ↔ Meets max earlier e := by
  obtain ⟨hbounded, hcounted, -⟩ := h
  cases e with
  | connect =>
    -- the successful attempt is counted as well
    simp only [Meets, iff_false]
    rintro ⟨-, hcount, -⟩
    simp [Counter.after, Counter.handle, Counter.onConnect, reconnectsSince] at hcount
  | close =>
    constructor
    · rintro ⟨-, hcount, -⟩
      exact hcounted.trans hcount.symm
    · intro hzero
      refine ⟨?_, hzero.symm.trans hcounted, nofun⟩
      exact (Nat.cast_nonneg _).trans hbounded
  | reconnect =>
    constructor
    · rintro ⟨hbound, -, hstopped⟩
      rw [connectionAttempts_reconnect (hstopped earlier rfl), Nat.cast_add, Nat.cast_one] at hbound
      exact hbound
    · intro hroom
      have hlt : ((Counter.after max earlier).connectionAttempts : ℚ) < max :=
        lt_of_lt_of_le (lt_add_one _) hroom
      refine ⟨?_, ?_, ?_⟩
      · rw [connectionAttempts_reconnect hlt, Nat.cast_add, Nat.cast_one]
        exact hroom
      · rw [connectionAttempts_reconnect hlt, hcounted, reconnectsSince]
      · rintro _ ⟨⟩
        exact hlt

theorem forall_suffix_counted_iff :
    (∀ earlier, earlier <:+ events → Counted max earlier) ↔
      0 ≤ max ∧ ∀ e earlier, e :: earlier <:+ events → Meets max earlier e := by
  induction events with
  | nil => simp [counted_nil]
  | cons a events ih =>
    have hself : events <:+ a :: events := List.suffix_cons a events
    constructor
    · intro h
      obtain ⟨hmax, hearlier⟩ := ih.mp fun earlier hsuffix => h earlier (hsuffix.trans hself)
      refine ⟨hmax, fun e earlier hsuffix => ?_⟩
      rcases List.suffix_cons_iff.mp hsuffix with heq | hsuffix
      · cases heq
        exact (counted_cons_iff (h _ hself)).mp (h _ List.suffix_rfl)
      · exact hearlier e earlier hsuffix
    · rintro ⟨hmax, hmeets⟩
      have hcounted := ih.mpr ⟨hmax, fun e earlier hsuffix => hmeets e earlier (hsuffix.trans hself)⟩
      intro earlier hsuffix
      rcases List.suffix_cons_iff.mp hsuffix with rfl | hsuffix
      · exact (counted_cons_iff (hcounted _ List.suffix_rfl)).mpr (hmeets a events List.suffix_rfl)
      · exact hcounted earlier hsuffix

/-! ### The runs whose events meet the condition -/

theorem meets_close_reconnect : Meets max [.close] .reconnect ↔ 1 ≤ max := by
  simp [Meets, Counter.after, Counter.handle, Counter.onDisconnect]

/-- The second attempt has been counted, and a close would forget it. -/
theorem not_meets_close (hmax : 1 ≤ max) : ¬ Meets max [.reconnect, .close] .close := by
  have hroom : ((Counter.after max [.close]).connectionAttempts : ℚ) < max := by
    simp only [Counter.after, Counter.handle, Counter.onDisconnect, Nat.cast_zero]
    linarith
  have hone : (Counter.after max [.reconnect, .close]).connectionAttempts = 1 :=
    connectionAttempts_reconnect hroom
  intro hzero
  rw [Meets, hone] at hzero
  cases hzero

theorem isSome_phaseAfter (h : (phaseAfter (e :: earlier)).isSome) :
    (phaseAfter earlier).isSome := by
  obtain ⟨phase, hphase, -⟩ := Option.bind_eq_some_iff.mp (Option.some_get h).symm
  rw [hphase]
  rfl

theorem events_of_meets (hproduced : (phaseAfter events).isSome)
    (h : ∀ e earlier, e :: earlier <:+ events → Meets max earlier e) :
    events = [] ∨ events = [.close] ∨ events = [.reconnect, .close] ∧ 1 ≤ max := by
  induction events with
  | nil => exact .inl rfl
  | cons e earlier ih =>
    have hlast := h e earlier List.suffix_rfl
    have hearlier : ∀ e' rest, e' :: rest <:+ earlier → Meets max rest e' :=
      fun e' rest hrest => h e' rest (hrest.trans (List.suffix_cons _ _))
    obtain rfl | rfl | ⟨rfl, hmax⟩ := ih (isSome_phaseAfter hproduced) hearlier
    · cases e with
      | connect => exact hlast.elim
      | close => exact .inr (.inl rfl)
      | reconnect => cases hproduced
    · cases e with
      | connect => exact hlast.elim
      | close => cases hproduced
      | reconnect => exact .inr (.inr ⟨rfl, meets_close_reconnect.mp hlast⟩)
    · cases e with
      | connect => exact hlast.elim
      | close => exact absurd hlast (not_meets_close hmax)
      | reconnect => cases hproduced

/-- The runs whose events all meet the condition: nothing happens, the first attempt fails, or it
fails and there is room for the second one, which is still to end. -/
theorem each_meets_iff (max : ℚ) (run : ClientRun) :
    run.Each (Meets max) ↔ run.events = [] ∨ run.events = [.close] ∨
      run.events = [.reconnect, .close] ∧ 1 ≤ max := by
  obtain ⟨events, hproduced⟩ := run
  constructor
  · exact events_of_meets hproduced
  · have hclose : Meets max [] .close := rfl
    show _ → ∀ e earlier, e :: earlier <:+ events → Meets max earlier e
    rintro (rfl | rfl | ⟨rfl, hmax⟩) e earlier hsuffix
    · cases List.suffix_nil.mp hsuffix
    · obtain heq | hsuffix := List.suffix_cons_iff.mp hsuffix
      · cases heq
        exact hclose
      · cases List.suffix_nil.mp hsuffix
    · obtain heq | hsuffix := List.suffix_cons_iff.mp hsuffix
      · cases heq
        exact meets_close_reconnect.mpr hmax
      obtain heq | hsuffix := List.suffix_cons_iff.mp hsuffix
      · cases heq
        exact hclose
      · cases List.suffix_nil.mp hsuffix

/-- In every state of a run the counter is right if and only if every event of the run meets the
condition. -/
theorem always_counted_iff (max : ℚ) (run : ClientRun) :
    run.Always (Counted max) ↔ 0 ≤ max ∧ run.Each (Meets max) :=
  forall_suffix_counted_iff

/-- A client that connects at once has not tried to reconnect. -/
theorem not_always_counted : ¬ ∀ (max : ℕ) (run : ClientRun), run.Always (Counted max) := by
  intro h
  have hcounted := h 3 ⟨[.connect], rfl⟩ [.connect] List.suffix_rfl
  exact absurd hcounted.counted (by decide)

/-! ### The attempts do not end -/

/-- Rounds of attempts that fail, after a first one that failed. -/
def failing : ℕ → List ClientEvent
  | 0 => [.close]
  | n + 1 => .close :: .reconnect :: failing n

theorem phaseAfter_failing (n : ℕ) : phaseAfter (failing n) = some .closed := by
  induction n with
  | zero => rfl
  | succ n ih => simp [failing, phaseAfter, ih, Phase.next]

theorem reconnectsSince_failing (n : ℕ) : reconnectsSince (failing n) = n := by
  induction n with
  | zero => rfl
  | succ n ih => simp [failing, reconnectsSince, ih]

/-- However many attempts have failed, the counter starts again and the client tries again. -/
theorem retries_beyond (max : ℚ) (n : ℕ) :
    ∃ run : ClientRun, run.events = .reconnect :: failing n ∧ reconnectsSince run.events = n + 1 ∧
      (Counter.after max run.events).connectionAttempts ≤ 1 := by
  have hproduced : (phaseAfter (.reconnect :: failing n)).isSome := by
    simp [phaseAfter, phaseAfter_failing, Phase.next]
  have hzero : Counter.after max (failing n) = ⟨false, 0⟩ := by
    cases n <;> rfl
  refine ⟨⟨_, hproduced⟩, rfl, by simp [reconnectsSince, reconnectsSince_failing], ?_⟩
  simp only [Counter.after, Counter.handle, Counter.onReconnect, hzero]
  split <;> simp

end IotPanel.Broker
