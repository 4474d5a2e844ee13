import Mathlib.Init

/-!
# Programs that wait for replies

A program issues commands one at a time and goes on with the reply, which may be an error. A
protocol says which commands are allowed in which of its states, and where a reply leads;
`wp` is the weakest precondition of a program under a protocol.
-/

namespace IotPanel

universe u

/-- A computation over the commands `C`; command `c` is replied to by an `R c` or an error. -/
inductive Program (C : Type) (R : C → Type) (ε : Type) (α : Type)
  | ret (a : Except ε α)
  | await (c : C) (k : Except ε (R c) → Program C R ε α)

namespace Program

variable {C : Type} {R : C → Type} {ε α β : Type}

def bind (x : Program C R ε α) (f : α → Program C R ε β) : Program C R ε β :=
  match x with
  | ret (.ok a) => f a
  | ret (.error e) => ret (.error e)
  | await c k => await c fun r => (k r).bind f

/-- Go on with `h` where the program ends in an error. -/
def handle (x : Program C R ε α) (h : ε → Program C R ε α) : Program C R ε α :=
  match x with
  | ret (.ok a) => ret (.ok a)
  | ret (.error e) => h e
  | await c k => await c fun r => (k r).handle h

instance : Monad (Program C R ε) where
  pure a := ret (.ok a)
  bind := bind

instance : MonadExcept ε (Program C R ε) where
  throw e := ret (.error e)
  tryCatch := handle

def perform (c : C) : Program C R ε (R c) := await c ret

/-- The result of a program whose commands are all replied to in the same way. -/
def run (reply : (c : C) → Except ε (R c)) : Program C R ε α → Except ε α
  | ret a => a
  | await c k => (k (reply c)).run reply

/-- The program carried out at once on a state that nobody else changes; `act` is what a command
does. -/
def exec {σ : Type u} (act : (c : C) → σ → Except ε (R c) × σ) :
    Program C R ε α → σ → Except ε α × σ
  | ret a, s => (a, s)
  | await c k, s => (k (act c s).1).exec act (act c s).2

/-- Go on with `f`, whether the program returns or ends in an error. -/
def andThen (x : Program C R ε α) (f : Except ε α → Program C R ε β) : Program C R ε β :=
  match x with
  | ret a => f a
  | await c k => await c fun r => (k r).andThen f

/-- The program over other commands, where each command is a program of its own. -/
def interpret {C' : Type} {R' : C' → Type} (g : (c : C) → Program C' R' ε (R c)) :
    Program C R ε α → Program C' R' ε α
  | ret a => ret a
  | await c k => (g c).andThen fun r => (k r).interpret g

/-- The program carried out at once, as far as `act` executes its commands. -/
def play {σ : Type u} (act : (c : C) → σ → Option (Except ε (R c) × σ)) :
    Program C R ε α → σ → Option (Except ε α × σ)
  | ret a, s => some (a, s)
  | await c k, s =>
    match act c s with
    | some (r, s') => (k r).play act s'
    | none => none

theorem bind_ret (x : Program C R ε α) : x.bind (fun a => ret (.ok a)) = x := by
  induction x with
  | ret a => cases a <;> rfl
  | await c k ih => exact congrArg (await c) (funext ih)

theorem bind_assoc {γ : Type} (x : Program C R ε α) (f : α → Program C R ε β)
    (g : β → Program C R ε γ) : (x.bind f).bind g = x.bind fun a => (f a).bind g := by
  induction x with
  | ret a => cases a <;> rfl
  | await c k ih => exact congrArg (await c) (funext ih)

theorem exec_bind {σ : Type u} {act : (c : C) → σ → Except ε (R c) × σ} (x : Program C R ε α)
    (f : α → Program C R ε β) (s : σ) :
    (x >>= f).exec act s =
      match x.exec act s with
      | (.ok a, t) => (f a).exec act t
      | (.error e, t) => (.error e, t) := by
  show (x.bind f).exec act s = _
  induction x generalizing s with
  | ret a => cases a <;> rfl
  | await c k ih => exact ih _ _

theorem exec_tryCatch {σ : Type u} {act : (c : C) → σ → Except ε (R c) × σ}
    (x : Program C R ε α) (g : ε → Program C R ε α) (s : σ) :
    (tryCatch x g).exec act s =
      match x.exec act s with
      | (.ok a, t) => (.ok a, t)
      | (.error e, t) => (g e).exec act t := by
  show (x.handle g).exec act s = _
  induction x generalizing s with
  | ret a => cases a <;> rfl
  | await c k ih => exact ih _ _

instance : LawfulMonad (Program C R ε) := .mk' _
  (fun x => bind_ret x) (fun _ _ => rfl) (fun x f g => bind_assoc x f g)

theorem throw_bind (e : ε) (f : α → Program C R ε β) :
    (throw e : Program C R ε α) >>= f = throw e := rfl

theorem ite_bind (p : Prop) [Decidable p] (x y : Program C R ε α) (f : α → Program C R ε β) :
    (if p then x else y) >>= f = if p then x >>= f else y >>= f := by
  split <;> rfl

theorem andThen_bind {γ : Type} (x : Program C R ε α) (f : Except ε α → Program C R ε β)
    (g : β → Program C R ε γ) : x.andThen f >>= g = x.andThen fun r => f r >>= g := by
  induction x with
  | ret a => rfl
  | await c k ih => exact congrArg (await c) (funext ih)

section Interpret

variable {C' : Type} {R' : C' → Type} {g : (c : C) → Program C' R' ε (R c)}

@[simp] theorem interpret_throw (e : ε) :
    (throw e : Program C R ε α).interpret g = throw e := rfl

@[simp] theorem interpret_bind (x : Program C R ε α) (f : α → Program C R ε β) :
    (x >>= f).interpret g = x.interpret g >>= fun a => (f a).interpret g := by
  show (x.bind f).interpret g = _
  induction x with
  | ret a => cases a <;> rfl
  | await c k ih =>
    show ((g c).andThen fun r => ((k r).bind f).interpret g) = _
    simp only [ih]
    exact (andThen_bind (g c) _ _).symm

@[simp] theorem interpret_ite (p : Prop) [Decidable p] (x y : Program C R ε α) :
    (if p then x else y).interpret g = if p then x.interpret g else y.interpret g := by
  split <;> rfl

end Interpret

end Program

/-- The commands allowed in each state, and the state after the reply to a command. -/
structure Protocol (S : Type u) (C : Type) (R : C → Type) (ε : Type) where
  allowed : S → C → Prop
  next : S → (c : C) → Except ε (R c) → S

namespace Program

variable {S : Type u} {C : Type} {R : C → Type} {ε α β : Type} {P : Protocol S C R ε}
  {Q Q' : Except ε α → S → Prop} {s : S}

/-- From `s` on, whatever the replies are, the program issues only allowed commands, and if it
ends then with a result that `Q` accepts in the state reached. -/
def wp (P : Protocol S C R ε) (Q : Except ε α → S → Prop) : Program C R ε α → S → Prop
  | ret a, s => Q a s
  | await c k, s => P.allowed s c ∧ ∀ r, (k r).wp P Q (P.next s c r)

theorem wp_mono {x : Program C R ε α} (hQ : ∀ a s, Q a s → Q' a s) (h : x.wp P Q s) :
    x.wp P Q' s := by
  induction x generalizing s with
  | ret a => exact hQ a s h
  | await c k ih => exact ⟨h.1, fun r => ih r (h.2 r)⟩

/-- What the first part of a sequence has to end with. -/
theorem wp_bind {x : Program C R ε α} {f : α → Program C R ε β} {Q : Except ε β → S → Prop}
    (h : x.wp P (fun a s => match a with
      | .ok a => (f a).wp P Q s
      | .error e => Q (.error e) s) s) : (x >>= f).wp P Q s := by
  show (x.bind f).wp P Q s
  induction x generalizing s with
  | ret a => cases a <;> exact h
  | await c k ih => exact ⟨h.1, fun r => ih r (h.2 r)⟩

theorem wp_tryCatch {x : Program C R ε α} {g : ε → Program C R ε α}
    (h : x.wp P (fun a s => match a with
      | .ok a => Q (.ok a) s
      | .error e => (g e).wp P Q s) s) : (tryCatch x g).wp P Q s := by
  show (x.handle g).wp P Q s
  induction x generalizing s with
  | ret a => cases a <;> exact h
  | await c k ih => exact ⟨h.1, fun r => ih r (h.2 r)⟩

/-- The program issues only allowed commands, and none of them leads out of `s`. -/
def Stays (P : Protocol S C R ε) (s : S) (x : Program C R ε α) : Prop := x.wp P (fun _ t => t = s) s

theorem wp_of_stays {x : Program C R ε α} (h : x.Stays P s) (hQ : ∀ a, Q a s) : x.wp P Q s := by
  refine wp_mono ?_ h
  rintro a t rfl
  exact hQ a

/-- A sequence whose first part stays where it is. -/
theorem wp_bind_of_stays {x : Program C R ε α} {f : α → Program C R ε β}
    {Q : Except ε β → S → Prop} (hx : x.Stays P s) (hf : ∀ a, (f a).wp P Q s)
    (herror : ∀ e, Q (.error e) s) : (x >>= f).wp P Q s := by
  refine wp_bind (wp_of_stays hx fun a => ?_)
  cases a with
  | ok a => exact hf a
  | error e => exact herror e

theorem stays_pure {a : α} : (pure a : Program C R ε α).Stays P s := rfl

theorem stays_throw {e : ε} : (throw e : Program C R ε α).Stays P s := rfl

theorem stays_perform {c : C} (hc : P.allowed s c) (h : ∀ r, P.next s c r = s) :
    (perform c).Stays P s := ⟨hc, h⟩

theorem stays_bind {x : Program C R ε α} {f : α → Program C R ε β} (hx : x.Stays P s)
    (hf : ∀ a, (f a).Stays P s) : (x >>= f).Stays P s := by
  refine wp_bind (wp_of_stays hx fun a => ?_)
  cases a with
  | ok a => exact hf a
  | error e => rfl

theorem stays_ite {c : Prop} [Decidable c] {x y : Program C R ε α} (hx : c → x.Stays P s)
    (hy : ¬ c → y.Stays P s) : (if c then x else y).Stays P s := by
  split
  · exact hx ‹c›
  · exact hy ‹¬ c›

theorem stays_tryCatch {x : Program C R ε α} {g : ε → Program C R ε α} (hx : x.Stays P s)
    (hg : ∀ e, (g e).Stays P s) : (tryCatch x g).Stays P s := by
  refine wp_tryCatch (wp_of_stays hx fun a => ?_)
  cases a with
  | ok a => rfl
  | error e => exact hg e

theorem stays_mapM {f : α → Program C R ε β} {as : List α} (hf : ∀ a, (f a).Stays P s) :
    (as.mapM f).Stays P s := by
  induction as with
  | nil => exact stays_pure
  | cons a as ih =>
    rw [List.mapM_cons]
    exact stays_bind (hf a) fun b => stays_bind ih fun bs => stays_pure

/-! ### Complete runs -/

/-- From `s` the program runs to its end, with a result and a last state; `E` says what a command
may be replied and where it leads. -/
inductive Runs {σ : Type u} (E : σ → (c : C) → Except ε (R c) → σ → Prop) :
    Program C R ε α → σ → Except ε α → σ → Prop
  | ret {a : Except ε α} {s : σ} : Runs E (ret a) s a s
  | await {c : C} {k : Except ε (R c) → Program C R ε α} {r : Except ε (R c)} {a : Except ε α}
      {s s' t : σ} (h : E s c r s') (hrest : Runs E (k r) s' a t) : Runs E (await c k) s a t

section Runs

variable {σ : Type u} {E : σ → (c : C) → Except ε (R c) → σ → Prop} {s s' t : σ}

theorem runs_ret {a b : Except ε α} :
    (ret a : Program C R ε α).Runs E s b t ↔ b = a ∧ t = s := by
  constructor
  · rintro ⟨⟩
    exact ⟨rfl, rfl⟩
  · rintro ⟨rfl, rfl⟩
    exact .ret

theorem runs_await {c : C} {k : Except ε (R c) → Program C R ε α} {a : Except ε α} :
    (await c k).Runs E s a t ↔ ∃ r s', E s c r s' ∧ (k r).Runs E s' a t := by
  constructor
  · rintro ⟨⟩
    exact ⟨_, _, ‹_›, ‹_›⟩
  · rintro ⟨r, s', h, hrest⟩
    exact .await h hrest

@[simp] theorem runs_pure {a : α} {b : Except ε α} :
    (pure a : Program C R ε α).Runs E s b t ↔ b = .ok a ∧ t = s := runs_ret

@[simp] theorem runs_throw {e : ε} {b : Except ε α} :
    (throw e : Program C R ε α).Runs E s b t ↔ b = .error e ∧ t = s := runs_ret

theorem runs_perform {c : C} {r : Except ε (R c)} : (perform c).Runs E s r t ↔ E s c r t := by
  simp only [perform, runs_await, runs_ret]
  constructor
  · rintro ⟨_, _, h, rfl, rfl⟩
    exact h
  · exact fun h => ⟨r, t, h, rfl, rfl⟩

/-- A sequence ends with its first part in an error, or with its second part. -/
theorem runs_bind {x : Program C R ε α} {f : α → Program C R ε β} {b : Except ε β} :
    (x >>= f).Runs E s b t ↔
      (∃ a s', x.Runs E s (.ok a) s' ∧ (f a).Runs E s' b t) ∨
        ∃ e, b = .error e ∧ x.Runs E s (.error e) t := by
  show (x.bind f).Runs E s b t ↔ _
  induction x generalizing s with
  | ret a =>
    cases a with
    | ok a =>
      simp only [bind, runs_ret, Except.ok.injEq, reduceCtorEq, false_and, and_false, exists_false,
        or_false]
      exact ⟨fun h => ⟨a, s, ⟨rfl, rfl⟩, h⟩, by rintro ⟨_, _, ⟨rfl, rfl⟩, h⟩; exact h⟩
    | error e =>
      simp only [bind, runs_ret, Except.error.injEq, reduceCtorEq, false_and, exists_false,
        false_or]
      exact ⟨fun h => ⟨e, h.1, rfl, h.2⟩, by rintro ⟨_, hb, rfl, ht⟩; exact ⟨hb, ht⟩⟩
  | await c k ih =>
    simp only [bind, runs_await, ih]
    constructor
    · rintro ⟨r, s', h, ⟨a, s'', hx, hf⟩ | ⟨e, hb, hx⟩⟩
      · exact .inl ⟨a, s'', ⟨r, s', h, hx⟩, hf⟩
      · exact .inr ⟨e, hb, r, s', h, hx⟩
    · rintro (⟨a, s'', ⟨r, s', h, hx⟩, hf⟩ | ⟨e, hb, r, s', h, hx⟩)
      · exact ⟨r, s', h, .inl ⟨a, s'', hx, hf⟩⟩
      · exact ⟨r, s', h, .inr ⟨e, hb, hx⟩⟩

theorem runs_bind_ok {x : Program C R ε α} {f : α → Program C R ε β} {b : β} :
    (x >>= f).Runs E s (.ok b) t ↔ ∃ a s', x.Runs E s (.ok a) s' ∧ (f a).Runs E s' (.ok b) t := by
  simp [runs_bind]

/-- A check before the rest of a program. -/
theorem runs_guard_ok {p : Prop} [Decidable p] {e : ε} {f : PUnit → Program C R ε α} {a : α} :
    (if p then throw e >>= f else f ⟨⟩).Runs E s (.ok a) t ↔
      ¬ p ∧ (f ⟨⟩).Runs E s (.ok a) t := by
  by_cases hp : p
  · simp [hp, throw_bind]
  · simp [hp]

/-- An error that is caught leads to the handler. -/
theorem runs_tryCatch {x : Program C R ε α} {g : ε → Program C R ε α} {b : Except ε α} :
    (tryCatch x g).Runs E s b t ↔ (∃ a, b = .ok a ∧ x.Runs E s (.ok a) t) ∨
      ∃ e s', x.Runs E s (.error e) s' ∧ (g e).Runs E s' b t := by
  show (x.handle g).Runs E s b t ↔ _
  induction x generalizing s with
  | ret a =>
    cases a with
    | ok a =>
      simp only [handle, runs_ret, Except.ok.injEq, reduceCtorEq, false_and, exists_false, or_false]
      exact ⟨fun h => ⟨a, h.1, rfl, h.2⟩, by rintro ⟨_, hb, rfl, ht⟩; exact ⟨hb, ht⟩⟩
    | error e =>
      simp only [handle, runs_ret, Except.error.injEq, reduceCtorEq, false_and, and_false,
        exists_false, false_or]
      exact ⟨fun h => ⟨e, s, ⟨rfl, rfl⟩, h⟩, by rintro ⟨_, _, ⟨rfl, rfl⟩, h⟩; exact h⟩
  | await c k ih =>
    simp only [handle, runs_await, ih]
    constructor
    · rintro ⟨r, s', h, ⟨a, hb, hx⟩ | ⟨e, s'', hx, hg⟩⟩
      · exact .inl ⟨a, hb, r, s', h, hx⟩
      · exact .inr ⟨e, s'', ⟨r, s', h, hx⟩, hg⟩
    · rintro (⟨a, hb, r, s', h, hx⟩ | ⟨e, s'', ⟨r, s', h, hx⟩, hg⟩)
      · exact ⟨r, s', h, .inl ⟨a, hb, hx⟩⟩
      · exact ⟨r, s', h, .inr ⟨e, s'', hx, hg⟩⟩

/-- A sequence that answers with a function of what its first part returns. -/
theorem runs_bind_pure {x : Program C R ε α} {f : α → β} {b : β} :
    (x >>= fun a => pure (f a)).Runs E s (.ok b) t ↔ ∃ a, x.Runs E s (.ok a) t ∧ b = f a := by
  rw [runs_bind]
  constructor
  · rintro (⟨a, s', hx, hpure⟩ | ⟨e, he, -⟩)
    · obtain ⟨hb, rfl⟩ := runs_pure.mp hpure
      exact ⟨a, hx, Except.ok.inj hb⟩
    · cases he
  · rintro ⟨a, hx, rfl⟩
    exact .inl ⟨a, t, hx, runs_pure.mpr ⟨rfl, rfl⟩⟩

theorem Runs.mono {E' : σ → (c : C) → Except ε (R c) → σ → Prop} {x : Program C R ε α}
    {a : Except ε α} (h : x.Runs E s a t) (hle : ∀ s c r t, E s c r t → E' s c r t) :
    x.Runs E' s a t := by
  induction h with
  | ret => exact .ret
  | await hE _ ih => exact .await (hle _ _ _ _ hE) ih

/-- What is played is a run, if the commands that are executed do what `E` says. -/
theorem runs_play {act : (c : C) → σ → Option (Except ε (R c) × σ)} {I : σ → Prop}
    (hact : ∀ c s r s', I s → act c s = some (r, s') → E s c r s' ∧ I s') {x : Program C R ε α}
    {a : Except ε α} (hs : I s) (h : x.play act s = some (a, t)) : x.Runs E s a t ∧ I t := by
  induction x generalizing s with
  | ret b =>
    cases h
    exact ⟨.ret, hs⟩
  | await c k ih =>
    rw [play] at h
    cases hreply : act c s with
    | none =>
      rw [hreply] at h
      cases h
    | some reply =>
      obtain ⟨r, s'⟩ := reply
      rw [hreply] at h
      obtain ⟨hE, hs'⟩ := hact c s r s' hs hreply
      obtain ⟨hrest, ht⟩ := ih r hs' h
      exact ⟨.await hE hrest, ht⟩

/-- What is carried out at once is a run, if the commands do what `E` says. -/
theorem runs_exec {act : (c : C) → σ → Except ε (R c) × σ}
    (hact : ∀ c s, E s c (act c s).1 (act c s).2) (x : Program C R ε α) (s : σ) :
    x.Runs E s (x.exec act s).1 (x.exec act s).2 := by
  induction x generalizing s with
  | ret a => exact .ret
  | await c k ih => exact .await (hact c s) (ih _ _)

theorem invariant_of_runs_mapM {f : α → Program C R ε β} {I : σ → Prop} {as : List α} {bs : List β}
    (hkeep : ∀ a b s t, (f a).Runs E s (.ok b) t → I s → I t)
    (h : (as.mapM f).Runs E s (.ok bs) t) (hs : I s) : I t := by
  induction as generalizing s bs with
  | nil =>
    obtain ⟨-, rfl⟩ := runs_pure.mp h
    exact hs
  | cons a as ih =>
    rw [List.mapM_cons, runs_bind] at h
    obtain ⟨b, s', ha, hrest⟩ | ⟨e, he, -⟩ := h
    · obtain ⟨bs', has, -⟩ := runs_bind_pure.mp hrest
      exact ih has (hkeep a b s s' ha hs)
    · cases he

/-- What the run on each element establishes, if the others keep it. -/
theorem runs_mapM_ok {f : α → Program C R ε β} {J : α → σ → Prop} {as : List α} {bs : List β}
    (hmake : ∀ a b s t, (f a).Runs E s (.ok b) t → J a t)
    (hkeep : ∀ a' a b s t, (f a).Runs E s (.ok b) t → J a' s → J a' t)
    (h : (as.mapM f).Runs E s (.ok bs) t) : ∀ a ∈ as, J a t := by
  induction as generalizing s bs with
  | nil => exact fun a ha => absurd ha List.not_mem_nil
  | cons a as ih =>
    rw [List.mapM_cons, runs_bind] at h
    obtain ⟨b, s', ha, hrest⟩ | ⟨e, he, -⟩ := h
    · obtain ⟨bs', has, -⟩ := runs_bind_pure.mp hrest
      intro a' ha'
      rcases List.mem_cons.mp ha' with rfl | ha'
      · exact invariant_of_runs_mapM (hkeep a') has (hmake a' b s s' ha)
      · exact ih has a' ha'
    · cases he

theorem exists_runs_mapM {f : α → Program C R ε β}
    (hf : ∀ a s, ∃ b t, (f a).Runs E s (.ok b) t) (as : List α) (s : σ) :
    ∃ bs t, (as.mapM f).Runs E s (.ok bs) t := by
  induction as generalizing s with
  | nil => exact ⟨[], s, runs_pure.mpr ⟨rfl, rfl⟩⟩
  | cons a as ih =>
    obtain ⟨b, s', ha⟩ := hf a s
    obtain ⟨bs, t, has⟩ := ih s'
    refine ⟨b :: bs, t, ?_⟩
    rw [List.mapM_cons, runs_bind]
    exact .inl ⟨b, s', ha, runs_bind_pure.mpr ⟨bs, has, rfl⟩⟩

/-- The run rule: what the protocol knows in its states stays true of the shared state. -/
theorem Runs.of_wp {A : σ → S → Prop} {x : Program C R ε α} {q : S} {a : Except ε α}
    {Q : Except ε α → S → Prop} (hr : x.Runs E s a t) (hwp : x.wp P Q q) (hA : A s q)
    (hstep : ∀ s q c r s', A s q → P.allowed q c → E s c r s' → A s' (P.next q c r)) :
    ∃ q', Q a q' ∧ A t q' := by
  induction hr generalizing q with
  | ret => exact ⟨q, hwp, hA⟩
  | await h _ ih => exact ih (hwp.2 _) (hstep _ _ _ _ _ hA hwp.1 h)

/-- On its way from `s` the program issues `c` and goes on with the answer `r`. -/
inductive Answers {σ : Type u} (E : σ → (c : C) → Except ε (R c) → σ → Prop) :
    Program C R ε α → σ → (c : C) → Except ε (R c) → Prop
  | here {c : C} {k : Except ε (R c) → Program C R ε α} {r : Except ε (R c)} {s s' : σ}
      (h : E s c r s') : Answers E (await c k) s c r
  | later {c c' : C} {k : Except ε (R c) → Program C R ε α} {r : Except ε (R c)}
      {r' : Except ε (R c')} {s s' : σ} (h : E s c r s') (hrest : Answers E (k r) s' c' r') :
      Answers E (await c k) s c' r'

theorem Answers.bind {x : Program C R ε α} {f : α → Program C R ε β} {c : C} {r : Except ε (R c)}
    (h : x.Answers E s c r) : (x >>= f).Answers E s c r := by
  induction h with
  | here h => exact .here h
  | later h _ ih => exact .later h ih

/-- What the second part of a sequence issues, once the first has run. -/
theorem answers_bind_of_runs {x : Program C R ε α} {f : α → Program C R ε β} {a : α} {c : C}
    {r : Except ε (R c)} (hx : x.Runs E s (.ok a) s') (hf : (f a).Answers E s' c r) :
    (x >>= f).Answers E s c r := by
  generalize hb : (Except.ok a : Except ε α) = b at hx
  induction hx with
  | ret =>
    subst hb
    exact hf
  | await h _ ih => exact .later h (ih hf hb)

/-- What a program issues is allowed by the protocol that it follows. -/
theorem Answers.allowed {P : Protocol S C R ε} {Q : Except ε α → S → Prop} {x : Program C R ε α}
    {q : S} {c : C} {r : Except ε (R c)} (h : x.Answers E s c r) (hwp : x.wp P Q q) :
    ∃ q', P.allowed q' c := by
  induction h generalizing q with
  | here => exact ⟨q, hwp.1⟩
  | later _ _ ih => exact ih (hwp.2 _)

/-! ### Programs that may fail -/

/-- A run of the program ends in an error. -/
def Fails (E : σ → (c : C) → Except ε (R c) → σ → Prop) (x : Program C R ε α) (s : σ) : Prop :=
  ∃ e t, x.Runs E s (.error e) t

section Fails

theorem not_fails_pure {a : α} : ¬ (pure a : Program C R ε α).Fails E s := by
  rintro ⟨e, t, h⟩
  cases (runs_pure.mp h).1

theorem fails_perform {c : C} :
    (perform c : Program C R ε (R c)).Fails E s ↔ ∃ e t, E s c (.error e) t := by
  simp only [Fails, runs_perform]

/-- If every command is answered, a program has a run from every state. -/
theorem exists_run (hE : ∀ s c, ∃ r t, E s c r t) (x : Program C R ε α) (s : σ) :
    ∃ a t, x.Runs E s a t := by
  induction x generalizing s with
  | ret a => exact ⟨a, s, .ret⟩
  | await c k ih =>
    obtain ⟨r, s', h⟩ := hE s c
    obtain ⟨a, t, hrest⟩ := ih r s'
    exact ⟨a, t, .await h hrest⟩

theorem exists_ok_of_not_fails (hE : ∀ s c, ∃ r t, E s c r t) {x : Program C R ε α}
    (h : ¬ x.Fails E s) : ∃ a t, x.Runs E s (.ok a) t := by
  obtain ⟨e | a, t, hrun⟩ := exists_run hE x s
  · exact absurd ⟨e, t, hrun⟩ h
  · exact ⟨a, t, hrun⟩

/-- In a sequence the first part may fail, or the second from wherever the first leads. -/
theorem fails_bind (hE : ∀ s c, ∃ r t, E s c r t) {x : Program C R ε α}
    {f : α → Program C R ε β} {p : Prop}
    (h : ∀ a t, x.Runs E s (.ok a) t → ((f a).Fails E t ↔ p)) :
    (x >>= f).Fails E s ↔ x.Fails E s ∨ p := by
  constructor
  · rintro ⟨e, t, hrun⟩
    obtain ⟨a, s', hx, hf⟩ | ⟨e', -, hx⟩ := runs_bind.mp hrun
    · exact .inr ((h a s' hx).mp ⟨e, t, hf⟩)
    · exact .inl ⟨e', t, hx⟩
  · intro hor
    by_cases hx : x.Fails E s
    · obtain ⟨e, t, hx⟩ := hx
      exact ⟨e, t, runs_bind.mpr (.inr ⟨e, rfl, hx⟩)⟩
    · obtain ⟨a, s', hok⟩ := exists_ok_of_not_fails hE hx
      obtain ⟨e, t, hf⟩ := (h a s' hok).mpr (hor.resolve_left hx)
      exact ⟨e, t, runs_bind.mpr (.inl ⟨a, s', hok, hf⟩)⟩

theorem fails_bind_pure {x : Program C R ε α} {f : α → β} :
    (x >>= fun a => pure (f a)).Fails E s ↔ x.Fails E s := by
  constructor
  · rintro ⟨e, t, h⟩
    obtain ⟨a, s', -, hpure⟩ | ⟨e', -, hx⟩ := runs_bind.mp h
    · cases (runs_pure.mp hpure).1
    · exact ⟨e', t, hx⟩
  · rintro ⟨e, t, hx⟩
    exact ⟨e, t, runs_bind.mpr (.inr ⟨e, rfl, hx⟩)⟩

/-- An error that is caught and turned into another. -/
theorem fails_tryCatch_throw {x : Program C R ε α} {g : ε → ε} :
    (tryCatch x fun e => throw (g e)).Fails E s ↔ x.Fails E s := by
  constructor
  · rintro ⟨e, t, h⟩
    obtain ⟨a, ha, -⟩ | ⟨e', s', hx, -⟩ := runs_tryCatch.mp h
    · cases ha
    · exact ⟨e', s', hx⟩
  · rintro ⟨e, t, h⟩
    exact ⟨g e, t, runs_tryCatch.mpr (.inr ⟨e, t, h, runs_throw.mpr ⟨rfl, rfl⟩⟩)⟩

end Fails

/-- The program does not end in the error `e`, unless a command has been answered by it. -/
def Avoids (e : ε) : Program C R ε α → Prop
  | ret a => a ≠ .error e
  | await _ k => ∀ r, r ≠ .error e → (k r).Avoids e

section Avoids

variable {e : ε}

theorem avoids_pure {a : α} : (pure a : Program C R ε α).Avoids e := by
  rintro ⟨⟩

theorem avoids_throw {e' : ε} (h : e' ≠ e) : (throw e' : Program C R ε α).Avoids e := by
  rintro ⟨⟩
  exact h rfl

theorem avoids_perform {c : C} : (perform c : Program C R ε (R c)).Avoids e := fun _ h => h

theorem avoids_bind {x : Program C R ε α} {f : α → Program C R ε β} (hx : x.Avoids e)
    (hf : ∀ a, (f a).Avoids e) : (x >>= f).Avoids e := by
  show (x.bind f).Avoids e
  induction x with
  | ret a =>
    cases a with
    | ok a => exact hf a
    | error e' =>
      rintro ⟨⟩
      exact hx rfl
  | await c k ih => exact fun r hr => ih r (hx r hr)

/-- Whatever the body ends in, it is the handler that lets an error out. -/
theorem avoids_tryCatch {x : Program C R ε α} {g : ε → Program C R ε α}
    (hg : ∀ e', (g e').Avoids e) : (tryCatch x g).Avoids e := by
  show (x.handle g).Avoids e
  induction x with
  | ret a =>
    cases a with
    | ok a => exact avoids_pure
    | error e' => exact hg e'
  | await c k ih => exact fun r _ => ih r

theorem avoids_ite {c : Prop} [Decidable c] {x y : Program C R ε α} (hx : x.Avoids e)
    (hy : y.Avoids e) : (if c then x else y).Avoids e := by
  split
  · exact hx
  · exact hy

theorem Avoids.ne_error {x : Program C R ε α} {a : Except ε α} (h : x.Avoids e)
    (hE : ∀ s c r s', E s c r s' → r ≠ .error e) (hr : x.Runs E s a t) : a ≠ .error e := by
  induction hr with
  | ret => exact h
  | await hc _ ih => exact ih (h _ (hE _ _ _ _ hc))

end Avoids

end Runs

end Program

end IotPanel
