import IotPanel.Lib.Process
import IotPanel.Lib.Returns

/-!
# What a call has been told

Where the phase of a call is the list of its commands and of the replies to them, what allows a
command can speak of everything that the call has learnt. Along a run each of these replies has been
given at a moment of the run, in the state of that moment.
-/

namespace IotPanel

/-- A command and the reply to it. -/
structure Exchange (C : Type) (R : C → Type) (ε : Type) where
  command : C
  reply : Except ε (R command)

variable {C : Type} {R : C → Type} {ε α β : Type}

/-- The commands that `why` allows after the exchanges so far, newest first. -/
def dialogue (why : List (Exchange C R ε) → C → Prop) :
    Protocol (List (Exchange C R ε)) C R ε where
  allowed := why
  next log c r := ⟨c, r⟩ :: log

/-- The protocol that only looks at the command. -/
def only (P : C → Prop) : Protocol Unit C R ε where
  allowed _ c := P c
  next _ _ _ := ()

namespace Program

variable {why : List (Exchange C R ε) → C → Prop} {P : C → Prop} {x : Program C R ε α}
  {log : List (Exchange C R ε)} {Q : α → List (Exchange C R ε) → Prop}

/-- The program issues commands that satisfy `P` only. -/
abbrev Issues (P : C → Prop) (x : Program C R ε α) : Prop := x.Stays (only P) ()

theorem returns_dialogue_of_issues (h : x.Issues P) (hwhy : ∀ log c, P c → why log c) :
    x.Returns (dialogue why) (fun _ _ => True) log := by
  change x.wp _ _ log
  induction x generalizing log with
  | ret a => exact fun _ _ => trivial
  | await c k ih => exact ⟨hwhy log c h.1, fun r => ih r (h.2 r)⟩

theorem issues_perform {c : C} (h : P c) : (perform c : Program C R ε (R c)).Issues P :=
  stays_perform h fun _ => rfl

end Program

/-! ### Along a run -/

/-- Calls that are allowed what `why` allows after what they have been told. -/
def dialogues {σ K η : Type} (program : K → Program C R ε Unit)
    (why : K → List (Exchange C R ε) → C → Prop)
    (follows : ∀ k, (program k).Returns (dialogue (why k)) (fun _ _ => True) [])
    (env : σ → η → Option σ) (execute : σ → (c : C) → Except ε (R c) → σ → Prop) :
    System σ K (List (Exchange C R ε)) η C R ε where
  program := program
  protocol k := dialogue (why k)
  fresh := []
  ends _ _ _ := True
  follows k := Program.wp_mono (fun _ _ _ => trivial) (follows k)
  env := env
  execute := execute

namespace System

variable {σ K η : Type} {program : K → Program C R ε Unit}
  {why : K → List (Exchange C R ε) → C → Prop}
  {follows : ∀ k, (program k).Returns (dialogue (why k)) (fun _ _ => True) []}
  {env : σ → η → Option σ} {execute : σ → (c : C) → Except ε (R c) → σ → Prop}
  {cond : Pool σ (Process (dialogues program why follows env execute)) →
    CallEvent K (List (Exchange C R ε)) η C R ε → Prop}
  {s₀ : σ} {tr : List (CallEvent K (List (Exchange C R ε)) η C R ε)}
  {e : CallEvent K (List (Exchange C R ε)) η C R ε}
  {p q : Pool σ (Process (dialogues program why follows env execute))} {k : K}
  {log : List (Exchange C R ε)} {c : C} {r : Except ε (R c)} {x : Exchange C R ε}

/-- The call has been given the reply at a moment of the run from `s₀`. -/
def Heard (S : System σ K (List (Exchange C R ε)) η C R ε)
    (cond : Pool σ (Process S) → CallEvent K (List (Exchange C R ε)) η C R ε → Prop) (s₀ : σ)
    (tr : List (CallEvent K (List (Exchange C R ε)) η C R ε)) (k : K) (x : Exchange C R ε) :
    Prop :=
  ∃ after before p log s, tr = after ++ .did k log x.command x.reply :: before ∧
    Run (S.Step cond) (Pool.start s₀) before p ∧ S.execute p.shared x.command x.reply s

theorem Heard.later {S : System σ K (List (Exchange C R ε)) η C R ε}
    {cond : Pool σ (Process S) → CallEvent K (List (Exchange C R ε)) η C R ε → Prop}
    (h : Heard S cond s₀ tr k x) (e : CallEvent K (List (Exchange C R ε)) η C R ε) :
    Heard S cond s₀ (e :: tr) k x := by
  obtain ⟨after, before, p, log, s, rfl, hrun, hexec⟩ := h
  exact ⟨e :: after, before, p, log, s, rfl, hrun, hexec⟩

/-- What is known of the replies that the calls go by, and went by at each of their commands. -/
structure Informed
    (cond : Pool σ (Process (dialogues program why follows env execute)) →
      CallEvent K (List (Exchange C R ε)) η C R ε → Prop) (s₀ : σ)
    (tr : List (CallEvent K (List (Exchange C R ε)) η C R ε))
    (p : Pool σ (Process (dialogues program why follows env execute))) : Prop where
  call : ∀ {i t x}, p.threads i = some t → x ∈ t.phase →
    Heard (dialogues program why follows env execute) cond s₀ tr t.call x
  event : ∀ {k log c r}, .did k log c r ∈ tr → why k log c ∧
    ∀ x ∈ log, Heard (dialogues program why follows env execute) cond s₀ tr k x

theorem Informed.step
    (hrun : Run ((dialogues program why follows env execute).Step cond) (Pool.start s₀) tr p)
    (h : Informed cond s₀ tr p) (hs : (dialogues program why follows env execute).Step cond p e q) :
    Informed cond s₀ (e :: tr) q := by
  have hold : ∀ {k log c r}, .did k log c r ∈ tr → why k log c ∧
      ∀ x ∈ log, Heard (dialogues program why follows env execute) cond s₀ (e :: tr) k x :=
    fun hmem => (h.event hmem).imp_right fun hlog x hx => (hlog x hx).later e
  obtain ⟨x, rfl, -, hthreads⟩ | ⟨i, k, rfl, -, -, hthreads⟩ |
    ⟨i, t, c, k, r, hprog, ht, rfl, hexec, hthreads⟩ := step_cases hs
  · refine ⟨fun hu hx => ?_, fun {k log c r} hmem => hold (r := r) ?_⟩
    · rw [hthreads] at hu
      exact (h.call hu hx).later _
    · exact (List.mem_cons.mp hmem).resolve_left fun heq => by cases heq
  · refine ⟨fun {j u x} hu hx => ?_, fun {k' log c r} hmem => hold (r := r) ?_⟩
    · rw [hthreads] at hu
      by_cases hj : j = i
      · subst hj
        rw [Function.update_self] at hu
        cases hu
        exact absurd hx List.not_mem_nil
      · rw [Function.update_of_ne hj] at hu
        exact (h.call hu hx).later _
    · exact (List.mem_cons.mp hmem).resolve_left fun heq => by cases heq
  · have hlog : ∀ x ∈ t.phase, Heard (dialogues program why follows env execute) cond s₀
        (.did t.call t.phase c r :: tr) t.call x := fun x hx => (h.call ht hx).later _
    refine ⟨fun {j u x} hu hx => ?_, fun hmem => ?_⟩
    · rw [hthreads] at hu
      by_cases hj : j = i
      · subst hj
        rw [Function.update_self] at hu
        cases hu
        -- the reply that has just been given, or an older one
        obtain rfl | hx := List.mem_cons.mp hx
        · exact ⟨[], tr, p, t.phase, q.shared, rfl, hrun, hexec⟩
        · exact hlog x hx
      · rw [Function.update_of_ne hj] at hu
        exact (h.call hu hx).later _
    · obtain heq | hmem := List.mem_cons.mp hmem
      · cases heq
        exact ⟨t.allowed_of_await hprog, hlog⟩
      · exact hold hmem

theorem informed_of_run
    (hrun : Run ((dialogues program why follows env execute).Step cond) (Pool.start s₀) tr p) :
    Informed cond s₀ tr p :=
  hrun.induct (I := Informed cond s₀)
    ⟨(fun h => by cases h), fun hmem => absurd hmem List.not_mem_nil⟩
    fun hrun h hs => h.step hrun hs

end System

end IotPanel
