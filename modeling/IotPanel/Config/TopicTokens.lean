import IotPanel.Config.TopicBuilder

/-!
# The tokens of a topic pattern

The source of the expression is taken as a list of characters and of groups, one for each
placeholder that was replaced. Without operators the expression matches them one by one.
-/

namespace IotPanel.TopicBuilder

open RegExp

/-! ### The source as tokens -/

/-- A character of the source, or what a placeholder was replaced by. -/
inductive Token
  | char (c : Char)
  | group
  deriving DecidableEq

namespace Token

def source : Token → List Char
  | char c => [c]
  | group => groupSource

/-- `[^/]` -/
def notSlash (c : Char) : Bool := !(c == '/' || false)

def regexp : Token → RegExp
  | char c => if c = '.' then set fun c => !isLineTerminator c else set fun d => d == c
  | group => seq (seq (set notSlash) (star (set notSlash))) empty

end Token

/-- The source behind its first anchor. -/
def sourceOf (ts : List Token) : List Char := ts.flatMap Token.source ++ ['$']

def regexpOf (ts : List Token) : RegExp :=
  ts.foldr (fun t r => seq t.regexp r) (seq finish empty)

theorem regexpOf_nil : regexpOf [] = seq finish empty := rfl

theorem regexpOf_cons (t : Token) (ts : List Token) :
    regexpOf (t :: ts) = seq t.regexp (regexpOf ts) := rfl

@[simp] theorem sourceOf_char (c : Char) (ts : List Token) :
    sourceOf (.char c :: ts) = c :: sourceOf ts := rfl

theorem sourceOf_group (ts : List Token) :
    sourceOf (.group :: ts) = '(' :: '[' :: '^' :: '/' :: ']' :: '+' :: ')' :: sourceOf ts := rfl

/-- What makes an operator of a character: an anchor or a quantifier. -/
def isOperator (c : Char) : Bool := ['^', '$', '*', '+', '?'].contains c

/-- A quantifier is an operator. -/
theorem isOperator_of_mem {c : Char} (h : c ∈ ['*', '+', '?']) : isOperator c = true := by
  have hsub : ['*', '+', '?'] ⊆ ['^', '$', '*', '+', '?'] := by decide
  exact List.contains_iff_mem.mpr (hsub h)

def Token.isOperator : Token → Bool
  | char c => TopicBuilder.isOperator c
  | group => false

/-- A source without brackets, escapes and counts. -/
def Flat : List Token → Prop
  | [] => True
  | .char c :: ts =>
    (isSyntax c = true → c = '.' ∨ isOperator c = true) ∧
      (c = '{' → readBraces (sourceOf ts) = none) ∧ Flat ts
  | .group :: ts => Flat ts

theorem Flat.of_append {a ts : List Token} (h : Flat (a ++ ts)) : Flat ts := by
  induction a with
  | nil => exact h
  | cons t a ih =>
    cases t with
    | char c => exact ih h.2.2
    | group => exact ih h

theorem readTerm_group (n : ℕ) (cs : List Char) :
    readTerm (n + 6) ('(' :: '[' :: '^' :: '/' :: ']' :: '+' :: ')' :: cs) =
      quantify Token.group.regexp cs := rfl

theorem isSyntax_eq_false {c : Char} (h : isSyntax c = true → c = '.' ∨ isOperator c = true)
    (hdot : c ≠ '.') (hop : isOperator c = false) : isSyntax c = false := by
  rw [← Bool.not_eq_true]
  intro hc
  obtain rfl | hc := h hc
  · exact hdot rfl
  · rw [hop] at hc
    cases hc

theorem readTerm_token {t : Token} {ts : List Token} (h : Flat (t :: ts))
    (hop : t.isOperator = false) (n : ℕ) :
    readTerm (n + 6) (sourceOf (t :: ts)) = quantify t.regexp (sourceOf ts) := by
  cases t with
  | group => exact readTerm_group n _
  | char c =>
    obtain ⟨hspecial, hbraces, -⟩ := h
    by_cases hdot : c = '.'
    · subst hdot
      rfl
    · rw [sourceOf_char, readTerm_char (isSyntax_eq_false hspecial hdot hop) hbraces]
      simp [Token.regexp, hdot]

theorem quantify_sourceOf {ts : List Token} (h : Flat ts)
    (hop : ∀ c, ts.head? = some (.char c) → c ∉ ['*', '+', '?']) (r : RegExp) :
    quantify r (sourceOf ts) = .ok (r, sourceOf ts) := by
  cases ts with
  | nil => rfl
  | cons t ts =>
    cases t with
    | group => rfl
    | char c => exact quantify_char r (hop c rfl) h.2.1

theorem readSeq_token {t : Token} {ts : List Token} (h : Flat (t :: ts)) (n : ℕ) :
    readSeq (n + 1) (sourceOf (t :: ts)) = (do
      let (r, rest) ← readTerm n (sourceOf (t :: ts))
      let (s, rest) ← readSeq n rest
      return (seq r s, rest)) := by
  cases t with
  | group => exact readSeq_cons (by decide)
  | char c =>
    refine readSeq_cons ⟨?_, ?_⟩
    · rintro rfl
      exact absurd (h.1 rfl) (by decide)
    · rintro rfl
      exact absurd (h.1 rfl) (by decide)

/-- Without operators the tokens are read one by one. -/
theorem readSeq_sourceOf {ts : List Token} (h : Flat ts) (hop : ∀ t ∈ ts, t.isOperator = false)
    {n : ℕ} (hn : ts.length + 7 ≤ n) : readSeq n (sourceOf ts) = .ok (regexpOf ts, []) := by
  induction ts generalizing n with
  | nil =>
    obtain ⟨n, rfl⟩ := Nat.exists_eq_add_of_le' hn
    rfl
  | cons t ts ih =>
    rw [List.length_cons] at hn
    obtain ⟨n, rfl⟩ : ∃ m, n = m + 6 + 1 := ⟨n - 7, by omega⟩
    have hflat : Flat ts := h.of_append (a := [t])
    have hhead : ∀ c, ts.head? = some (.char c) → c ∉ ['*', '+', '?'] := by
      intro c hc hmem
      have hfalse := hop (.char c) (List.mem_cons_of_mem t (List.mem_of_mem_head? hc))
      rw [Token.isOperator, isOperator_of_mem hmem] at hfalse
      cases hfalse
    rw [readSeq_token h, readTerm_token h (hop t (by simp)), quantify_sourceOf hflat hhead]
    dsimp only [bind, Except.bind]
    rw [ih hflat (fun u hu => hop u (by simp [hu])) (by omega)]
    rfl

/-! ### What the tokens match -/

section Matching

variable {ts : List Token} {b : Bool} {l : List Char} {r : RegExp}

theorem matches_char {c : Char} (hdot : c ≠ '.') :
    (seq (Token.char c).regexp r).Matches b l ↔ ∃ l', l = c :: l' ∧ r.Matches false l' := by
  simp only [Token.regexp, if_neg hdot, matches_set_seq, beq_iff_eq]
  constructor
  · rintro ⟨d, l', rfl, rfl, hr⟩
    exact ⟨l', rfl, hr⟩
  · rintro ⟨l', rfl, hr⟩
    exact ⟨c, l', rfl, rfl, hr⟩

theorem matches_group :
    (seq Token.group.regexp r).Matches b l ↔
      ∃ u l', l = u ++ l' ∧ u ≠ [] ∧ '/' ∉ u ∧ r.Matches false l' := by
  have hall : ∀ u : List Char, (∀ c ∈ u, Token.notSlash c = true) ↔ '/' ∉ u := by
    intro u
    simp only [Token.notSlash, Bool.or_false, Bool.not_eq_true', beq_eq_false_iff_ne]
    exact ⟨fun h hmem => h _ hmem rfl, fun h c hc hslash => h (hslash ▸ hc)⟩
  rw [Token.regexp, matches_seq_assoc, matches_many_seq]
  simp only [matches_empty_seq, hall]

/-- It does not matter whether the tokens stand at the beginning. -/
theorem matches_regexpOf (b' : Bool) :
    (regexpOf ts).Matches b l ↔ (regexpOf ts).Matches b' l := by
  cases ts with
  | nil => rw [regexpOf_nil, matches_finish_seq, matches_finish_seq]
  | cons t ts =>
    rw [regexpOf_cons]
    cases t with
    | char c =>
      rw [Token.regexp]
      split <;> rw [matches_set_seq, matches_set_seq]
    | group => rw [matches_group, matches_group]

/-- What a part matches. -/
def Fits (part u : List Char) : Prop := if part = groupSource then u ≠ [] else u = part

def partTokens (part : List Char) : List Token :=
  if part = groupSource then [.group] else part.map .char

def tokens (parts : List (List Char)) : List Token :=
  [.char '/'].intercalate (parts.map partTokens)

theorem tokens_cons_cons (part next : List Char) (parts : List (List Char)) :
    tokens (part :: next :: parts) =
      partTokens part ++ (.char '/' :: tokens (next :: parts)) := by
  simp [tokens, List.intercalate_cons_cons]

theorem flatMap_partTokens (part : List Char) : (partTokens part).flatMap Token.source = part := by
  unfold partTokens
  split
  · simp_all [Token.source]
  · simp [List.flatMap_map, Token.source]

theorem sourceOf_tokens (parts : List (List Char)) :
    sourceOf (tokens parts) = ['/'].intercalate parts ++ ['$'] := by
  unfold sourceOf
  congr 1
  induction parts with
  | nil => rfl
  | cons part parts ih =>
    cases parts with
    | nil => simp [tokens, flatMap_partTokens]
    | cons next parts =>
      rw [tokens_cons_cons, List.flatMap_append, flatMap_partTokens, List.intercalate_cons_cons,
        List.flatMap_cons, ih, Token.source, List.append_assoc]

theorem matches_part {part : List Char}
    (hpart : part ≠ groupSource → '.' ∉ part ∧ '/' ∉ part) :
    (regexpOf (partTokens part ++ ts)).Matches b l ↔
      ∃ u l', l = u ++ l' ∧ Fits part u ∧ '/' ∉ u ∧ (regexpOf ts).Matches b l' := by
  by_cases hgroup : part = groupSource
  · simp only [partTokens, Fits, if_pos hgroup, List.cons_append, List.nil_append,
      regexpOf_cons, matches_group, matches_regexpOf (b := false) b]
  · obtain ⟨hdot, hslash⟩ := hpart hgroup
    simp only [partTokens, Fits, if_neg hgroup]
    -- a literal is read character by character
    have hchars : (regexpOf (part.map .char ++ ts)).Matches b l ↔
        ∃ l', l = part ++ l' ∧ (regexpOf ts).Matches b l' := by
      clear hgroup hslash hpart
      induction part generalizing b l with
      | nil => simp
      | cons c part ih =>
        have hc : c ≠ '.' := fun h => hdot (h ▸ List.mem_cons_self)
        have hrest : '.' ∉ part := fun h => hdot (List.mem_cons_of_mem c h)
        rw [List.map_cons, List.cons_append, regexpOf_cons, matches_char hc]
        simp only [ih hrest, matches_regexpOf (b := false) b]
        constructor
        · rintro ⟨_, rfl, l', rfl, h⟩
          exact ⟨l', rfl, h⟩
        · rintro ⟨l', rfl, h⟩
          exact ⟨_, rfl, l', rfl, h⟩
    rw [hchars]
    constructor
    · rintro ⟨l', rfl, h⟩
      exact ⟨part, l', rfl, rfl, hslash, h⟩
    · rintro ⟨_, l', rfl, rfl, -, h⟩
      exact ⟨l', rfl, h⟩

/-- The tokens of the parts match part by part. -/
theorem matches_tokens {parts : List (List Char)} (hne : parts ≠ [])
    (hparts : ∀ part ∈ parts, part ≠ groupSource → '.' ∉ part ∧ '/' ∉ part) :
    (regexpOf (tokens parts)).Matches b l ↔ List.Forall₂ Fits parts (l.splitOn '/') := by
  induction parts generalizing b l with
  | nil => exact absurd rfl hne
  | cons part parts ih =>
    have hpart := hparts part (by simp)
    rw [List.forall₂_cons_left_iff]
    cases parts with
    | nil =>
      have hone : tokens [part] = partTokens part ++ [] := by simp [tokens]
      rw [hone, matches_part hpart]
      simp only [regexpOf_nil, matches_finish_seq, Text.splitOn_eq_cons,
        List.forall₂_nil_left_iff]
      constructor
      · rintro ⟨u, _, rfl, hfits, hu, rfl⟩
        exact ⟨u, [], hfits, rfl, hu, .inl ⟨List.append_nil u, rfl⟩⟩
      · rintro ⟨u, _, hfits, rfl, hu, ⟨rfl, -⟩ | ⟨l', -, hl'⟩⟩
        · exact ⟨l, [], (List.append_nil l).symm, hfits, hu, rfl⟩
        · exact absurd hl'.symm (List.splitOn_ne_nil _ _)
    | cons next parts =>
      have hrest := fun p hp => hparts p (List.mem_cons_of_mem part hp)
      rw [tokens_cons_cons, matches_part hpart, regexpOf_cons]
      simp only [matches_char (show '/' ≠ '.' by decide), ih (List.cons_ne_nil _ _) hrest,
        Text.splitOn_eq_cons]
      constructor
      · rintro ⟨u, _, rfl, hfits, hu, l', rfl, h⟩
        exact ⟨u, _, hfits, h, hu, .inr ⟨l', rfl, rfl⟩⟩
      · rintro ⟨u, us, hfits, h, hu, ⟨-, rfl⟩ | ⟨l', rfl, rfl⟩⟩
        · cases h
        · exact ⟨u, _, rfl, hfits, hu, l', rfl, h⟩

end Matching

/-! ### Flat patterns -/

/-- A part whose source is flat. -/
def FlatPart (part : List Char) : Prop :=
  (∀ c ∈ part, isSyntax c = true → c = '.' ∨ isOperator c = true) ∧ Braceless part

theorem flat_part {part : List Char} {ts : List Token}
    (hpart : part ≠ groupSource → FlatPart part) (hts : Flat ts)
    (hstop : ts = [] ∨ ∃ ts', ts = .char '/' :: ts') : Flat (partTokens part ++ ts) := by
  unfold partTokens
  split
  next => exact hts
  next hgroup =>
    obtain ⟨hspecial, hbraces⟩ := hpart hgroup
    -- a count ends before a slash and before the last anchor
    have hcut : ∀ rest, (readBraces (rest ++ sourceOf ts)).isSome = (readBraces rest).isSome := by
      obtain rfl | ⟨ts', rfl⟩ := hstop
      · exact fun rest => readBraces_append (by decide) (by decide) (by decide) rest _
      · exact fun rest => readBraces_append (by decide) (by decide) (by decide) rest _
    clear hgroup hpart hstop
    induction part with
    | nil => exact hts
    | cons c part ih =>
      refine ⟨hspecial c (by simp), ?_, ih (fun d hd => hspecial d (by simp [hd])) ?_⟩
      · rintro rfl
        have hsource : sourceOf (part.map .char ++ ts) = part ++ sourceOf ts := by
          simp [sourceOf, List.flatMap_map, Token.source]
        change readBraces (sourceOf (part.map .char ++ ts)) = none
        have hnone : readBraces part = none :=
          hbraces ('{' :: part) ((List.mem_tails _ _).mpr (List.suffix_refl _)) rfl
        rw [hsource, ← Option.isNone_iff_eq_none, ← Option.not_isSome, hcut, hnone]
        rfl
      · intro rest hrest
        rw [List.mem_tails] at hrest
        exact hbraces rest ((List.mem_tails _ _).mpr (hrest.trans (List.suffix_cons c part)))

theorem flat_tokens {parts : List (List Char)}
    (hparts : ∀ part ∈ parts, part ≠ groupSource → FlatPart part) : Flat (tokens parts) := by
  induction parts with
  | nil => trivial
  | cons part parts ih =>
    have hrest := ih fun p hp => hparts p (by simp [hp])
    cases parts with
    | nil =>
      have hone : tokens [part] = partTokens part ++ [] := by simp [tokens]
      rw [hone]
      exact flat_part (hparts part (by simp)) trivial (.inl rfl)
    | cons next parts =>
      rw [tokens_cons_cons]
      refine flat_part (hparts part (by simp)) ⟨?_, ?_, hrest⟩ (.inr ⟨_, rfl⟩)
      · exact fun h => absurd h (by decide)
      · exact fun h => absurd h (by decide)

theorem mem_tokens {parts : List (List Char)} {t : Token} (h : t ∈ tokens parts) :
    t = .group ∨ t = .char '/' ∨
      ∃ part ∈ parts, part ≠ groupSource ∧ ∃ c ∈ part, t = .char c := by
  have hpart : ∀ part, t ∈ partTokens part →
      t = .group ∨ part ≠ groupSource ∧ ∃ c ∈ part, t = .char c := by
    intro part ht
    unfold partTokens at ht
    split at ht
    next => exact .inl (List.mem_singleton.mp ht)
    next hgroup =>
      obtain ⟨c, hc, rfl⟩ := List.mem_map.mp ht
      exact .inr ⟨hgroup, c, hc, rfl⟩
  induction parts with
  | nil => cases h
  | cons part parts ih =>
    have hmem : t ∈ partTokens part ∨ t = .char '/' ∨ t ∈ tokens parts := by
      cases parts with
      | nil => exact .inl (by simpa [tokens] using h)
      | cons next parts => simpa [tokens_cons_cons] using h
    obtain ht | rfl | ht := hmem
    · exact (hpart part ht).imp_right fun ⟨hg, c, hc⟩ => .inr ⟨part, by simp, hg, c, hc⟩
    · exact .inr (.inl rfl)
    · exact (ih ht).imp_right fun h => h.imp_right fun ⟨p, hp, hg⟩ => ⟨p, by simp [hp], hg⟩

/-! ### Compiling -/

/-- Enough calls for the source behind the anchor. -/
def depthOf (ts : List Token) : ℕ := 4 * (sourceOf ts).length + 6

theorem length_le_depthOf (ts : List Token) : ts.length + 7 ≤ depthOf ts := by
  have hlen : ts.length + 1 ≤ (sourceOf ts).length := by
    induction ts with
    | nil => exact le_rfl
    | cons t ts ih =>
      cases t with
      | char c => exact Nat.succ_le_succ ih
      | group =>
        rw [sourceOf_group]
        simp only [List.length_cons] at ih ⊢
        omega
  unfold depthOf
  omega

theorem readAlt_anchored (ts : List Token) :
    readSeq (depthOf ts + 1) ('^' :: sourceOf ts) = (do
      let (r, rest) ← readSeq (depthOf ts) (sourceOf ts)
      return (seq start r, rest)) :=
  readSeq_cons (by decide)

theorem compile_sourceOf {ts : List Token}
    (hall : ∀ r rest, readSeq (depthOf ts) (sourceOf ts) = .ok (r, rest) → rest = []) :
    compile (String.ofList ('^' :: sourceOf ts)) =
      (readSeq (depthOf ts) (sourceOf ts)).map fun p => seq start p.1 := by
  have hdepth : 4 * ('^' :: sourceOf ts).length + 4 = depthOf ts + 1 + 1 := by
    rw [List.length_cons, depthOf]
    omega
  rw [compile, String.toList_ofList, hdepth, readAlt, readAlt_anchored]
  cases h : readSeq (depthOf ts) (sourceOf ts) with
  | error e => rfl
  | ok p =>
    obtain ⟨r, rest⟩ := p
    obtain rfl : rest = [] := hall r rest h
    rfl

end IotPanel.TopicBuilder
