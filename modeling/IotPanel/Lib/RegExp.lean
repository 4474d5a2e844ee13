import Mathlib.Data.List.Basic
import Mathlib.Logic.Relation
import Mathlib.Order.Nat

/-!
# Regular expressions with anchors

A regular expression reads a stretch of a text from one place to another. What it reads is
defined as a relation; `ends` computes it. Captures are left out: only whether a text is matched
is asked here.
-/

namespace IotPanel

/-- A place in a text: whether it is the beginning, and what is ahead. -/
structure Place where
  atStart : Bool
  ahead : List Char
  deriving DecidableEq

inductive RegExp
  | empty
  | start
  | finish
  | set (accepts : Char → Bool)
  | seq (r s : RegExp)
  | alt (r s : RegExp)
  | star (r : RegExp)

namespace RegExp

/-- The expression reads from the first place to the second. -/
def Reads : RegExp → Place → Place → Prop
  | empty => fun p q => q = p
  | start => fun p q => p.atStart = true ∧ q = p
  | finish => fun p q => p.ahead = [] ∧ q = p
  | set accepts => fun p q => ∃ c, accepts c = true ∧ p.ahead = c :: q.ahead ∧ q.atStart = false
  | seq r s => Relation.Comp r.Reads s.Reads
  | alt r s => fun p q => r.Reads p q ∨ s.Reads p q
  | star r => Relation.ReflTransGen r.Reads

/-- What repeated steps reach when each has to leave less ahead. -/
def closure (step : Place → List Place) : ℕ → Place → List Place
  | 0, p => [p]
  | n + 1, p =>
      p :: ((step p).filter fun q => q.ahead.length < p.ahead.length).flatMap (closure step n)

/-- All places that the expression reads to. -/
def ends : RegExp → Place → List Place
  | empty => fun p => [p]
  | start => fun p => if p.atStart then [p] else []
  | finish => fun p => if p.ahead.isEmpty then [p] else []
  | set accepts => fun p => match p.ahead with
    | c :: t => if accepts c then [⟨false, t⟩] else []
    | [] => []
  | seq r s => fun p => (r.ends p).flatMap s.ends
  | alt r s => fun p => r.ends p ++ s.ends p
  | star r => fun p => closure r.ends p.ahead.length p

/-- Between `least` and `most` times; without end when there is no `most`. -/
def times (r : RegExp) : ℕ → Option ℕ → RegExp
  | 0, none => star r
  | 0, some 0 => empty
  | 0, some (m + 1) => alt (seq r (times r 0 (some m))) empty
  | n + 1, most => seq r (times r n (most.map (· - 1)))

/-! ### Reading moves ahead -/

/-- A reading that leaves its place has used up some of the text. -/
theorem Reads.progress {r : RegExp} {p q : Place} (h : r.Reads p q) :
    q = p ∨ (q.ahead.length < p.ahead.length ∧ q.atStart = false) := by
  induction r generalizing p q with
  | empty => exact .inl h
  | start => exact .inl h.2
  | finish => exact .inl h.2
  | set accepts =>
    obtain ⟨c, -, hp, hq⟩ := h
    exact .inr ⟨by simp [hp], hq⟩
  | seq r s ihr ihs =>
    obtain ⟨m, hr, hs⟩ := h
    obtain rfl | ⟨hlt, hm⟩ := ihr hr
    · exact ihs hs
    · obtain rfl | ⟨hlt', hq⟩ := ihs hs
      · exact .inr ⟨hlt, hm⟩
      · exact .inr ⟨hlt'.trans hlt, hq⟩
  | alt r s ihr ihs => exact h.elim ihr ihs
  | star r ih =>
    induction h with
    | refl => exact .inl rfl
    | tail _ hstep ihrun =>
      obtain rfl | ⟨hlt, hq⟩ := ih hstep
      · exact ihrun
      · obtain rfl | ⟨hlt', -⟩ := ihrun
        · exact .inr ⟨hlt, hq⟩
        · exact .inr ⟨hlt.trans hlt', hq⟩

theorem Reads.length_le {r : RegExp} {p q : Place} (h : r.Reads p q) :
    q.ahead.length ≤ p.ahead.length := by
  obtain rfl | ⟨hlt, -⟩ := h.progress
  · exact le_rfl
  · exact hlt.le

theorem Reads.atStart {r : RegExp} {p q : Place} (h : r.Reads p q) (hq : q.atStart = true) :
    p.atStart = true := by
  obtain rfl | ⟨-, hfalse⟩ := h.progress
  · exact hq
  · rw [hq] at hfalse
    cases hfalse

theorem Reads.suffix {r : RegExp} {p q : Place} (h : r.Reads p q) : q.ahead <:+ p.ahead := by
  induction r generalizing p q with
  | empty => exact congrArg Place.ahead h ▸ List.suffix_refl _
  | start => exact congrArg Place.ahead h.2 ▸ List.suffix_refl _
  | finish => exact congrArg Place.ahead h.2 ▸ List.suffix_refl _
  | set accepts =>
    obtain ⟨c, -, hp, -⟩ := h
    exact hp ▸ List.suffix_cons c q.ahead
  | seq r s ihr ihs =>
    obtain ⟨m, hr, hs⟩ := h
    exact (ihs hs).trans (ihr hr)
  | alt r s ihr ihs => exact h.elim ihr ihs
  | star r ih =>
    induction h with
    | refl => exact List.suffix_refl _
    | tail _ hstep ihrun => exact (ih hstep).trans ihrun

/-! ### The places that are computed -/

/-- `closure` computes the repetition of a step that leaves a place only by moving ahead. -/
theorem mem_closure {step : Place → List Place} {R : Place → Place → Prop}
    (hstep : ∀ p q, q ∈ step p ↔ R p q)
    (hprogress : ∀ p q, R p q → q = p ∨ q.ahead.length < p.ahead.length)
    {p q : Place} {n : ℕ} (hn : p.ahead.length ≤ n) :
    q ∈ closure step n p ↔ Relation.ReflTransGen R p q := by
  constructor
  · intro h
    clear hn
    induction n generalizing p with
    | zero =>
      obtain rfl : q = p := by simpa [closure] using h
      exact .refl
    | succ n ih =>
      simp only [closure, List.mem_cons, List.mem_flatMap, List.mem_filter] at h
      obtain rfl | ⟨m, ⟨hm, -⟩, hq⟩ := h
      · exact .refl
      · exact (ih hq).head ((hstep p m).mp hm)
  · intro h
    induction h using Relation.ReflTransGen.head_induction_on generalizing n with
    | refl => cases n <;> simp [closure]
    | @head p m hfirst _ ih =>
      -- a first step that stays where it is can be left out
      obtain rfl | hlt := hprogress _ _ hfirst
      · exact ih hn
      · cases n with
        | zero => omega
        | succ n =>
          simp only [closure, List.mem_cons, List.mem_flatMap, List.mem_filter,
            decide_eq_true_eq]
          exact .inr ⟨m, ⟨(hstep p m).mpr hfirst, hlt⟩, ih (by omega)⟩

theorem mem_ends {r : RegExp} {p q : Place} : q ∈ r.ends p ↔ r.Reads p q := by
  induction r generalizing p q with
  | empty => simp [ends, Reads]
  | start => cases h : p.atStart <;> simp [ends, Reads, h]
  | finish => cases h : p.ahead <;> simp [ends, Reads, h]
  | set accepts =>
    obtain ⟨b, s⟩ := p
    obtain ⟨b', s'⟩ := q
    cases s with
    | nil => simp [ends, Reads]
    | cons c t =>
      cases h : accepts c
      · simp only [ends, h, Reads]
        grind
      · simp only [ends, h, Reads]
        grind
  | seq r s ihr ihs => simp [ends, Reads, Relation.Comp, ihr, ihs]
  | alt r s ihr ihs => simp [ends, Reads, ihr, ihs]
  | star r ih =>
    exact mem_closure (fun _ _ => ih) (fun _ _ h => h.progress.imp_right And.left) le_rfl

/-! ### Shorter readings -/

/-- An upper bound of what the shortest reading takes. -/
def weight : RegExp → ℕ
  | empty | start | finish => 0
  | set _ => 1
  | seq r s => r.weight + s.weight
  | alt r s => max r.weight s.weight
  | star _ => 0

/-- A reading can be cut down to one of a bounded length, in which nothing is repeated. What was
read at an end of the text is still read there. -/
theorem Reads.shorten {r : RegExp} {p q : Place} (h : r.Reads p q) :
    ∃ u : List Char, u.length ≤ r.weight ∧ q.ahead.length + u.length ≤ p.ahead.length ∧
      ∀ (b : Bool) (t : List Char), (p.atStart = true → b = true) → (q.ahead = [] → t = []) →
        ∃ b' : Bool, (q.atStart = true → b' = true) ∧ r.Reads ⟨b, u ++ t⟩ ⟨b', t⟩ := by
  induction r generalizing p q with
  | empty =>
    obtain rfl : q = p := h
    exact ⟨[], le_rfl, le_rfl, fun b t hb _ => ⟨b, hb, rfl⟩⟩
  | start =>
    obtain ⟨hstart, rfl⟩ := h
    exact ⟨[], le_rfl, le_rfl, fun b t hb _ => ⟨b, hb, hb hstart, rfl⟩⟩
  | finish =>
    obtain ⟨hend, rfl⟩ := h
    exact ⟨[], le_rfl, le_rfl, fun b t hb ht => ⟨b, hb, ht hend, rfl⟩⟩
  | set accepts =>
    obtain ⟨c, hc, hp, hq⟩ := h
    refine ⟨[c], le_rfl, by simp [hp], fun b t _ _ => ⟨false, ?_, c, hc, rfl, rfl⟩⟩
    rw [hq]
    exact id
  | seq r s ihr ihs =>
    obtain ⟨m, hr, hs⟩ := h
    obtain ⟨u, hu, hlen, hread⟩ := ihr hr
    obtain ⟨v, hv, hlen', hread'⟩ := ihs hs
    refine ⟨u ++ v, ?_, ?_, fun b t hb ht => ?_⟩
    · simpa [weight] using Nat.add_le_add hu hv
    · rw [List.length_append]
      omega
    -- at the end of the text nothing is left for the second part to take
    · have hrest : m.ahead = [] → v ++ t = [] := by
        intro hm
        rw [hm, List.length_nil] at hlen'
        have hvnil : v = [] := List.length_eq_zero_iff.mp (by omega)
        have hqnil : q.ahead = [] := List.length_eq_zero_iff.mp (by omega)
        rw [hvnil, ht hqnil]
        rfl
      obtain ⟨b₁, hb₁, h₁⟩ := hread b (v ++ t) hb hrest
      obtain ⟨b₂, hb₂, h₂⟩ := hread' b₁ t hb₁ ht
      refine ⟨b₂, hb₂, ⟨b₁, v ++ t⟩, ?_, h₂⟩
      rwa [List.append_assoc]
  | alt r s ihr ihs =>
    obtain hr | hs := h
    · obtain ⟨u, hu, hlen, hread⟩ := ihr hr
      refine ⟨u, hu.trans (le_max_left _ _), hlen, fun b t hb ht => ?_⟩
      obtain ⟨b', hb', hread'⟩ := hread b t hb ht
      exact ⟨b', hb', .inl hread'⟩
    · obtain ⟨u, hu, hlen, hread⟩ := ihs hs
      refine ⟨u, hu.trans (le_max_right _ _), hlen, fun b t hb ht => ?_⟩
      obtain ⟨b', hb', hread'⟩ := hread b t hb ht
      exact ⟨b', hb', .inr hread'⟩
  | star r =>
    refine ⟨[], le_rfl, Reads.length_le h, fun b t hb _ => ⟨b, fun hq => hb ?_, .refl⟩⟩
    exact Reads.atStart h hq

/-! ### Matching -/

/-- The expression reads something from the place on. -/
def Matches (r : RegExp) (atStart : Bool) (s : List Char) : Prop := ∃ q, r.Reads ⟨atStart, s⟩ q

variable {r s t : RegExp} {b : Bool} {l : List Char} {accepts : Char → Bool}

theorem matches_empty_seq : (seq empty r).Matches b l ↔ r.Matches b l := by
  simp [Matches, Reads, Relation.Comp]

theorem matches_seq_assoc :
    (seq (seq r s) t).Matches b l ↔ (seq r (seq s t)).Matches b l := by
  simp only [Matches, Reads, Relation.comp_assoc]

theorem matches_start_seq : (seq start r).Matches b l ↔ b = true ∧ r.Matches b l := by
  constructor
  · rintro ⟨q, m, ⟨hb, rfl⟩, hr⟩
    exact ⟨hb, q, hr⟩
  · rintro ⟨hb, q, hr⟩
    exact ⟨q, _, ⟨hb, rfl⟩, hr⟩

theorem matches_finish_seq : (seq finish empty).Matches b l ↔ l = [] := by
  constructor
  · rintro ⟨_, _, ⟨hl, rfl⟩, rfl⟩
    exact hl
  · rintro rfl
    exact ⟨_, _, ⟨rfl, rfl⟩, rfl⟩

theorem matches_set_seq :
    (seq (set accepts) r).Matches b l ↔
      ∃ c l', l = c :: l' ∧ accepts c = true ∧ r.Matches false l' := by
  constructor
  · rintro ⟨q, ⟨m, l'⟩, ⟨c, hc, hl, hm⟩, hr⟩
    dsimp only at hl hm
    subst hm
    exact ⟨c, l', hl, hc, q, hr⟩
  · rintro ⟨c, l', rfl, hc, q, hr⟩
    exact ⟨q, ⟨false, l'⟩, ⟨c, hc, rfl, rfl⟩, hr⟩

theorem reads_star_set {p q : Place} (h : (star (set accepts)).Reads p q) :
    ∃ u : List Char, p.ahead = u ++ q.ahead ∧ ∀ c ∈ u, accepts c = true := by
  induction h with
  | refl => exact ⟨[], rfl, by simp⟩
  | tail _ hlast ih =>
    obtain ⟨u, hu, hall⟩ := ih
    obtain ⟨c, hc, hlast, -⟩ := hlast
    refine ⟨u ++ [c], by simp [hu, hlast], fun d hd => ?_⟩
    obtain hd | hd := List.mem_append.mp hd
    · exact hall d hd
    · rwa [List.mem_singleton.mp hd]

/-- `[..]+` takes any number of characters, at least one. -/
theorem matches_many_seq :
    (seq (seq (set accepts) (star (set accepts))) r).Matches b l ↔
      ∃ u l', l = u ++ l' ∧ u ≠ [] ∧ (∀ c ∈ u, accepts c = true) ∧ r.Matches false l' := by
  rw [matches_seq_assoc, matches_set_seq]
  constructor
  · rintro ⟨c, l', rfl, hc, q, m, hstar, hr⟩
    obtain ⟨u, hu, hall⟩ := reads_star_set hstar
    have hfalse : m.atStart = false := by
      rw [← Bool.not_eq_true]
      exact fun hm => nomatch Reads.atStart hstar hm
    refine ⟨c :: u, m.ahead, congrArg (c :: ·) hu, by simp, by simpa using ⟨hc, hall⟩, q, ?_⟩
    rwa [← hfalse]
  · rintro ⟨u, l', rfl, hu, hall, hr⟩
    cases u with
    | nil => exact absurd rfl hu
    | cons c u =>
      refine ⟨c, u ++ l', rfl, hall c (by simp), ?_⟩
      clear hu
      obtain ⟨q, hr⟩ := hr
      refine ⟨q, ⟨false, l'⟩, ?_, hr⟩
      have hrest : ∀ d ∈ u, accepts d = true := fun d hd => hall d (by simp [hd])
      clear hall
      induction u with
      | nil => exact .refl
      | cons d u ih =>
        have hone : (set accepts).Reads ⟨false, d :: (u ++ l')⟩ ⟨false, u ++ l'⟩ :=
          ⟨d, hrest d (by simp), rfl, rfl⟩
        exact .head hone (ih fun e he => hrest e (by simp [he]))

end RegExp

end IotPanel
