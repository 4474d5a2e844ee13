import IotPanel.Config.TopicMatching

/-!
# Patterns with operators

Where a literal holds a character that is an operator of regular expressions, or a placeholder
stands twice, some topic is matched that is not meant to be, or the other way round. Literals with
brackets, escapes, alternatives or counts are left out here.
-/

namespace IotPanel.TopicBuilder

open RegExp

/-! ### Reading operators -/

variable {ts : List Token} {r s : RegExp} {rest : List Char} {n : ℕ}

def Operators (ops : List Token) : Prop := ∀ t ∈ ops, t.isOperator = true

theorem skipLazy_sourceOf (ts : List Token) :
    ∃ ops ts', ts = ops ++ ts' ∧ Operators ops ∧ skipLazy (sourceOf ts) = sourceOf ts' := by
  cases ts with
  | nil => exact ⟨[], [], rfl, by simp [Operators], rfl⟩
  | cons t ts =>
    cases t with
    | group => exact ⟨[], .group :: ts, rfl, by simp [Operators], rfl⟩
    | char c =>
      by_cases hc : c = '?'
      · exact ⟨[.char c], ts, rfl, by simp [Operators, hc, Token.isOperator, isOperator],
          by simp [hc, skipLazy]⟩
      · refine ⟨[], .char c :: ts, rfl, by simp [Operators], ?_⟩
        rw [sourceOf_char]
        unfold skipLazy
        split
        next heq => exact absurd (List.cons.inj heq).1 hc
        next => rfl

/-- A quantifier is made of operators, and asks for no more than one round. -/
theorem quantify_flat (h : Flat ts) (hq : quantify r (sourceOf ts) = .ok (s, rest)) :
    ∃ ops ts', ts = ops ++ ts' ∧ Operators ops ∧ rest = sourceOf ts' ∧ s.weight ≤ r.weight := by
  have hnone (hhead : ∀ c, ts.head? = some (.char c) → c ∉ ['*', '+', '?']) :
      ∃ ops ts', ts = ops ++ ts' ∧ Operators ops ∧ rest = sourceOf ts' ∧ s.weight ≤ r.weight := by
    rw [quantify_sourceOf h hhead] at hq
    cases hq
    exact ⟨[], ts, rfl, by simp [Operators], rfl, le_rfl⟩
  match ts, h with
  | [], _ => exact hnone (by simp)
  | .group :: ts, _ => exact hnone (by simp)
  | .char c :: ts, h =>
    by_cases hc : c ∈ ['*', '+', '?']
    · obtain ⟨ops, ts', rfl, hops, hlazy⟩ := skipLazy_sourceOf ts
      refine ⟨.char c :: ops, ts', rfl, ?_, ?_⟩
      · rintro t ht
        obtain rfl | ht := List.mem_cons.mp ht
        · exact isOperator_of_mem hc
        · exact hops t ht
      · rw [← hlazy]
        simp only [List.mem_cons, List.not_mem_nil, or_false] at hc
        obtain rfl | rfl | rfl := hc
        · cases hq
          exact ⟨rfl, Nat.zero_le _⟩
        · cases hq
          exact ⟨rfl, le_rfl⟩
        · cases hq
          exact ⟨rfl, le_of_eq (max_eq_left (Nat.zero_le _))⟩
    · exact hnone fun d hd => by
        cases hd
        exact hc

/-- What one term takes: an anchor or a single character at most. -/
theorem readTerm_flat {t : Token} (h : Flat (t :: ts))
    (hr : readTerm (n + 6) (sourceOf (t :: ts)) = .ok (r, rest)) :
    ∃ ops ts', ts = ops ++ ts' ∧ Operators ops ∧ rest = sourceOf ts' ∧
      r.weight ≤ if t.isOperator then 0 else 1 := by
  cases hop : t.isOperator
  · rw [readTerm_token h hop] at hr
    obtain ⟨ops, ts', hts, hops, hrest, hweight⟩ := quantify_flat (h.of_append (a := [t])) hr
    refine ⟨ops, ts', hts, hops, hrest, hweight.trans ?_⟩
    cases t with
    | group => exact le_rfl
    | char c =>
      rw [Token.regexp]
      split <;> exact le_rfl
  · cases t with
    | group => cases hop
    | char c =>
      have hmem : c ∈ ['^', '$', '*', '+', '?'] := List.contains_iff_mem.mp hop
      simp only [List.mem_cons, List.not_mem_nil, or_false] at hmem
      -- an anchor is a term of its own; in front of a quantifier there is nothing to repeat
      obtain rfl | rfl | rfl | rfl | rfl := hmem
      · cases hr
        exact ⟨[], ts, rfl, by simp [Operators], rfl, le_rfl⟩
      · cases hr
        exact ⟨[], ts, rfl, by simp [Operators], rfl, le_rfl⟩
      · cases hr
      · cases hr
      · cases hr

/-- A flat source is read term by term. -/
theorem readSeq_flat {t : Token} (h : Flat (t :: ts)) (hn : 7 ≤ n)
    (hr : readSeq n (sourceOf (t :: ts)) = .ok (r, rest)) :
    ∃ r₁ r₂ ops ts', r = seq r₁ r₂ ∧ ts = ops ++ ts' ∧ Operators ops ∧
      readTerm (n - 1) (sourceOf (t :: ts)) = .ok (r₁, sourceOf ts') ∧
      (r₁.weight ≤ if t.isOperator then 0 else 1) ∧
      readSeq (n - 1) (sourceOf ts') = .ok (r₂, rest) := by
  obtain ⟨n, rfl⟩ : ∃ m, n = m + 6 + 1 := ⟨n - 7, by omega⟩
  rw [readSeq_token h] at hr
  cases hterm : readTerm (n + 6) (sourceOf (t :: ts)) with
  | error e =>
    rw [hterm] at hr
    cases hr
  | ok p =>
    obtain ⟨r₁, mid⟩ := p
    obtain ⟨ops, ts', hts, hops, rfl, hweight⟩ := readTerm_flat h hterm
    rw [hterm] at hr
    dsimp only [bind, Except.bind] at hr
    cases hseq : readSeq (n + 6) (sourceOf ts') with
    | error e =>
      rw [hseq] at hr
      cases hr
    | ok p =>
      rw [hseq] at hr
      cases hr
      exact ⟨r₁, p.1, ops, ts', rfl, hts, hops, hterm, hweight, hseq⟩

/-- How many tokens can take a character. -/
def plainCount (ts : List Token) : ℕ := ts.countP fun t => !t.isOperator

theorem plainCount_append_le (ops ts : List Token) : plainCount ts ≤ plainCount (ops ++ ts) := by
  rw [plainCount, plainCount, List.countP_append]
  exact Nat.le_add_left _ _

theorem weight_readSeq (h : Flat ts) (hn : ts.length + 7 ≤ n)
    (hr : readSeq n (sourceOf ts) = .ok (r, rest)) : rest = [] ∧ r.weight ≤ plainCount ts := by
  induction n generalizing ts r with
  | zero => omega
  | succ n ih =>
    cases ts with
    | nil =>
      obtain ⟨n, rfl⟩ : ∃ m, n = m + 6 := ⟨n - 6, by simp at hn; omega⟩
      cases hr
      exact ⟨rfl, le_rfl⟩
    | cons t ts =>
      rw [List.length_cons] at hn
      obtain ⟨r₁, r₂, ops, ts', rfl, rfl, -, -, hweight, hseq⟩ := readSeq_flat h (by omega) hr
      rw [List.length_append] at hn
      have hflat : Flat ts' := h.of_append (a := t :: ops)
      obtain ⟨hrest, hle⟩ := ih hflat (by omega) hseq
      refine ⟨hrest, ?_⟩
      have hops := plainCount_append_le ops ts'
      have hcount : plainCount (t :: (ops ++ ts')) =
          plainCount (ops ++ ts') + if t.isOperator then 0 else 1 := by
        rw [plainCount, List.countP_cons]
        cases t.isOperator <;> rfl
      rw [hcount, weight]
      omega

/-- A brace in front of a letter has to be matched. -/
theorem mem_of_reads {a b : List Token} {d : Char} (hd : d ∉ ['*', '+', '?'])
    (hts : ts = a ++ .char '{' :: .char d :: b) (h : Flat ts) (hn : ts.length + 7 ≤ n)
    (hr : readSeq n (sourceOf ts) = .ok (r, rest)) {p q : Place} (hreads : r.Reads p q) :
    '{' ∈ p.ahead := by
  subst hts
  induction n generalizing a r p with
  | zero => omega
  | succ n ih =>
    cases a with
    | nil =>
      obtain ⟨r₁, r₂, ops, ts', rfl, -, -, hterm, -, -⟩ := readSeq_flat h (by omega) hr
      obtain ⟨n, rfl⟩ : ∃ m, n = m + 6 := ⟨n - 6, by simp at hn; omega⟩
      have hbrace : quantify (Token.char '{').regexp (sourceOf (.char d :: b)) =
          .ok ((Token.char '{').regexp, sourceOf (.char d :: b)) :=
        quantify_sourceOf h.2.2 (fun c hc => by cases hc; exact hd) _
      rw [Nat.add_sub_cancel, readTerm_token h rfl, hbrace] at hterm
      obtain ⟨rfl, -⟩ := Prod.mk.inj (Except.ok.inj hterm)
      obtain ⟨m, ⟨c, hc, hahead, -⟩, -⟩ := hreads
      have hc : c = '{' := by simpa using hc
      rw [hahead, hc]
      exact List.mem_cons_self
    | cons t a =>
      obtain ⟨r₁, r₂, ops, ts', rfl, hts, hops, -, -, hseq⟩ := readSeq_flat h (by omega) hr
      -- the operators that were read stop in front of the brace
      obtain ⟨a', rfl, rfl⟩ : ∃ a', a = ops ++ a' ∧ ts' = a' ++ .char '{' :: .char d :: b := by
        obtain ⟨l, rfl, hl⟩ | ⟨a', ha, hts'⟩ := List.append_eq_append_iff.mp hts
        · cases l with
          | nil => exact ⟨[], by simp, by simpa using hl.symm⟩
          | cons u l =>
            obtain ⟨rfl, -⟩ := List.cons.inj hl
            exact absurd (hops (.char '{') (by simp)) (by decide)
        · exact ⟨a', ha, hts'⟩
      have hflat : Flat (a' ++ .char '{' :: .char d :: b) := by
        refine Flat.of_append (a := t :: ops) ?_
        simpa using h
      obtain ⟨m, h₁, h₂⟩ := hreads
      exact h₁.suffix.mem (ih h₂ hflat (by simp at hn ⊢; omega) hseq)

theorem mem_of_matches {a b : List Token} {d : Char} (hd : d ∉ ['*', '+', '?'])
    (hts : ts = a ++ .char '{' :: .char d :: b) (h : Flat ts) (hn : ts.length + 7 ≤ n)
    (hr : readSeq n (sourceOf ts) = .ok (r, rest)) {atStart : Bool} {l : List Char}
    (hmatches : r.Matches atStart l) : '{' ∈ l := by
  obtain ⟨q, hq⟩ := hmatches
  exact mem_of_reads hd hts h hn hr hq

/-! ### Topics that are meant to match -/

/-- What opens or closes a group, opens a class, a count or an escape, or parts alternatives. -/
def brackets : List Char := ['\\', '(', ')', '[', '{', '|']

/-- The literals have no groups, classes, counts, escapes or alternatives. -/
def Unbracketed (pattern : String) : Prop :=
  ∀ part ∈ Text.split pattern '/', part ∉ placeholders → ∀ c ∈ part.toList, c ∉ brackets

variable {pattern : String}

theorem isSyntax_cases {c : Char} (h : isSyntax c = true) :
    c = '.' ∨ isOperator c = true ∨ c ∈ brackets := by
  simp only [isSyntax, isOperator, brackets, List.contains_eq_mem, List.mem_cons, List.not_mem_nil,
    or_false, decide_eq_true_eq] at h ⊢
  obtain h | h | h | h | h | h | h | h | h | h | h := h <;> simp [h]

theorem Unbracketed.loose (h : Unbracketed pattern) : Loose pattern where
  flat part hpart hmem := by
    refine ⟨fun c hc hspecial => ?_, fun rest hrest hhead => ?_⟩
    · obtain hdot | hop | hbracket := isSyntax_cases hspecial
      · exact .inl hdot
      · exact .inr hop
      · exact absurd hbracket (h part hpart hmem c hc)
    · have hin : '{' ∈ part.toList :=
        ((List.mem_tails _ _).mp hrest).mem (List.mem_of_mem_head? hhead)
      exact absurd (by decide) (h part hpart hmem '{' hin)
  noPlaceholder part hpart hmem text htext hoccurs := by
    have hbrace : ∀ text ∈ placeholders, '{' ∈ text.toList := by decide
    exact absurd (by decide) (h part hpart hmem '{' (hoccurs.mem (hbrace text htext)))

/-- A segment that a part is meant to match, if the characters of a literal are kept. -/
def samplePart (f : Char → Char) (part : String) : String :=
  if part ∈ placeholders then "a" else String.ofList (part.toList.map f)

def sample (f : Char → Char) (pattern : String) : String :=
  String.ofList (['/'].intercalate
    ((Text.split pattern '/').map fun part => (samplePart f part).toList))

theorem slash_not_mem_samplePart {f : Char → Char} (hf : ∀ c, c ≠ '/' → f c ≠ '/') {part : String}
    (hpart : part ∈ Text.split pattern '/') : '/' ∉ (samplePart f part).toList := by
  unfold samplePart
  split
  · decide
  · obtain ⟨u, hu, rfl⟩ := List.mem_map.mp hpart
    have hslash := Text.not_mem_of_mem_splitOn hu
    rw [String.toList_ofList, String.toList_ofList, List.mem_map]
    rintro ⟨c, hc, hfc⟩
    exact hf c (fun h => hslash (h ▸ hc)) hfc

theorem split_sample {f : Char → Char} (hf : ∀ c, c ≠ '/' → f c ≠ '/') :
    Text.split (sample f pattern) '/' = (Text.split pattern '/').map (samplePart f) := by
  rw [sample, Text.split, String.toList_ofList, List.splitOn_intercalate]
  · simp [Function.comp_def]
  · intro u hu
    obtain ⟨part, hpart, rfl⟩ := List.mem_map.mp hu
    exact slash_not_mem_samplePart hf hpart
  · simpa using Text.split_ne_nil pattern '/'

theorem segmentsMatch_sample_iff {f : Char → Char} (hf : ∀ c, c ≠ '/' → f c ≠ '/') :
    SegmentsMatch pattern (sample f pattern) ↔
      ∀ part ∈ Text.split pattern '/', part ∉ placeholders → ∀ c ∈ part.toList, f c = c := by
  rw [SegmentsMatch, split_sample hf, List.forall₂_map_right_iff, List.forall₂_same]
  refine forall₂_congr fun part hpart => ?_
  by_cases hmem : part ∈ placeholders
  · simp [SegmentMatches, samplePart, hmem]
  · have hself : part.toList.map f = part.toList ↔ ∀ c ∈ part.toList, f c = c := by
      simpa using List.map_inj_left (f := f) (g := id) (l := part.toList)
    rw [SegmentMatches, samplePart, if_neg hmem, if_neg hmem, ← String.toList_inj,
      String.toList_ofList, hself]
    exact (imp_iff_right hmem).symm

theorem Unbracketed.brace_not_mem_sample (h : Unbracketed pattern) :
    '{' ∉ (sample id pattern).toList := by
  intro hmem
  rw [sample, String.toList_ofList] at hmem
  obtain hslash | ⟨u, hu, hbrace⟩ := Text.mem_intercalate hmem
  · exact absurd hslash (by decide)
  · obtain ⟨part, hpart, rfl⟩ := List.mem_map.mp hu
    unfold samplePart at hbrace
    split at hbrace
    next => exact absurd hbrace (by decide)
    next hplace =>
      rw [List.map_id, String.ofList_toList] at hbrace
      exact absurd (by decide) (h part hpart hplace '{' hbrace)

/-! ### What an expression that agrees cannot hold -/

theorem tokens_of_mem {parts : List (List Char)} {u : List Char} (hu : u ∈ parts) :
    ∃ a b, tokens parts = a ++ partTokens u ++ b := by
  induction parts with
  | nil => cases hu
  | cons part parts ih =>
    obtain ⟨tail, htail⟩ : ∃ tail, tokens (part :: parts) = partTokens part ++ tail := by
      cases parts with
      | nil => exact ⟨[], by simp [tokens]⟩
      | cons next parts => exact ⟨_, tokens_cons_cons part next parts⟩
    obtain rfl | hu := List.mem_cons.mp hu
    · exact ⟨[], tail, htail⟩
    · obtain ⟨a, b, hab⟩ := ih hu
      cases parts with
      | nil => cases hu
      | cons next parts =>
        refine ⟨partTokens part ++ .char '/' :: a, b, ?_⟩
        rw [tokens_cons_cons, hab]
        simp

/-- A placeholder that stands twice is left over. -/
theorem mem_mark_of_twice {parts : List (List Char)} {text : String} (htext : text ∈ placeholders)
    (hcount : 2 ≤ parts.count text.toList) : text.toList ∈ mark parts := by
  have hstep : ∀ (l : List (List Char)) (u v : List Char) (k : ℕ), v ≠ groupSource →
      k ≤ l.count v → (if u = v then k - 1 else k) ≤ (l.replace u groupSource).count v := by
    intro l u v k hv hk
    rw [List.count_replace, beq_eq_false_iff_ne.mpr (Ne.symm hv)]
    by_cases huv : u = v
    · simp only [huv, if_true, beq_self_eq_true, Bool.false_eq_true, if_false]
      split <;> omega
    · simp only [huv, if_false, beq_eq_false_iff_ne.mpr huv, Bool.false_eq_true]
      split <;> omega
  have hplace : ∀ text ∈ placeholders, text.toList ≠ groupSource := by decide
  have hne := hplace text htext
  -- one of the three replacements takes one away
  have hthree := hstep _ "{type}".toList _ _ hne
    (hstep _ "{clientId}".toList _ _ hne (hstep _ "{deviceId}".toList _ _ hne hcount))
  refine List.count_pos_iff.mp (lt_of_lt_of_le ?_ hthree)
  clear hthree hcount hne hplace hstep
  revert text
  decide

/-- The tokens are no longer than what they are meant to match. -/
theorem length_tokens_le {parts us : List (List Char)} (h : List.Forall₂ Fits parts us) :
    (tokens parts).length ≤ (['/'].intercalate us).length := by
  have hpart : ∀ part u, Fits part u → (partTokens part).length ≤ u.length := by
    intro part u hfits
    unfold Fits at hfits
    unfold partTokens
    split at hfits
    next hgroup =>
      rw [if_pos hgroup]
      exact List.length_pos_iff.mpr hfits
    next hgroup =>
      rw [if_neg hgroup, hfits, List.length_map]
  induction h with
  | nil => exact le_rfl
  | @cons part u parts us hfits hrest ih =>
    cases hrest with
    | nil => simpa [tokens] using hpart part u hfits
    | @cons next v parts us _ _ =>
      rw [tokens_cons_cons, List.intercalate_cons_cons]
      have hle := hpart part u hfits
      simp only [List.length_append, List.length_cons, List.length_nil] at ih ⊢
      omega

theorem regexp_of_agrees (hloose : Loose pattern) (h : ∀ topic, Agrees pattern topic) :
    ∃ r, readSeq (depthOf (patternTokens pattern)) (sourceOf (patternTokens pattern)) =
        .ok (r, []) ∧
      ∀ topic, r.Matches true topic.toList ↔ SegmentsMatch pattern topic := by
  have hall : ∀ r rest, readSeq (depthOf (patternTokens pattern))
      (sourceOf (patternTokens pattern)) = .ok (r, rest) → rest = [] :=
    fun r rest hr => (weight_readSeq hloose.flatTokens (length_le_depthOf _) hr).1
  have heq := matchesTopic_eq hloose.separate hall
  cases hread : readSeq (depthOf (patternTokens pattern)) (sourceOf (patternTokens pattern)) with
  | error e =>
    obtain ⟨answer, hanswer, -⟩ := h ""
    rw [heq, hread] at hanswer
    cases hanswer
  | ok p =>
    obtain ⟨r, rest⟩ := p
    obtain rfl : rest = [] := hall r rest hread
    refine ⟨r, rfl, fun topic => ?_⟩
    obtain ⟨answer, hanswer, hiff⟩ := h topic
    rw [heq, hread] at hanswer
    obtain rfl := Except.ok.inj hanswer
    rw [← hiff, test_start_seq]

/-- A placeholder that stands twice would have to be matched as it is written. -/
theorem once_of_agrees (hu : Unbracketed pattern) (h : ∀ topic, Agrees pattern topic) :
    Once pattern := by
  by_contra hnot
  simp only [Once, not_forall, not_le] at hnot
  obtain ⟨text, htext, hcount⟩ := hnot
  obtain ⟨r, hread, hmatches⟩ := regexp_of_agrees hu.loose h
  have hmem : text.toList ∈ mark (pattern.toList.splitOn '/') := by
    refine mem_mark_of_twice htext ?_
    rwa [count_splitOn]
  obtain ⟨a, b, hab⟩ := tokens_of_mem hmem
  obtain ⟨d, l, hd, hpart⟩ : ∃ d l, d ∉ ['*', '+', '?'] ∧
      partTokens text.toList = .char '{' :: .char d :: l := by
    simp only [placeholders, List.mem_cons, List.not_mem_nil, or_false] at htext
    obtain rfl | rfl | rfl := htext
    · exact ⟨'d', _, by decide, rfl⟩
    · exact ⟨'c', _, by decide, rfl⟩
    · exact ⟨'t', _, by decide, rfl⟩
  have htokens : patternTokens pattern = a ++ .char '{' :: .char d :: (l ++ b) := by
    rw [patternTokens, hab, hpart]
    simp
  have hsample := (hmatches (sample id pattern)).mpr
    ((segmentsMatch_sample_iff fun _ => id).mpr fun _ _ _ _ _ => rfl)
  exact hu.brace_not_mem_sample
    (mem_of_matches hd htokens hu.loose.flatTokens (length_le_depthOf _) hread hsample)

/-- A topic can be cut down to the tokens that take a character, so there are no others. -/
theorem isOperator_of_agrees (hloose : Loose pattern) (honce : Once pattern)
    (h : ∀ topic, Agrees pattern topic) : ∀ t ∈ patternTokens pattern, t.isOperator = false := by
  obtain ⟨r, hread, hmatches⟩ := regexp_of_agrees hloose h
  obtain ⟨q, hq⟩ := (hmatches (sample id pattern)).mpr
    ((segmentsMatch_sample_iff fun _ => id).mpr fun _ _ _ _ _ => rfl)
  -- what is read in its shortest form is read to the end as well
  obtain ⟨u, hu, -, hshort⟩ := hq.shorten
  obtain ⟨b, -, hreads⟩ := hshort true [] (fun _ => rfl) (fun _ => rfl)
  rw [List.append_nil] at hreads
  have hmeant : SegmentsMatch pattern (String.ofList u) := by
    rw [← hmatches, String.toList_ofList]
    exact ⟨_, hreads⟩
  rw [← hloose.forall₂_fits_iff honce, String.toList_ofList] at hmeant
  have hlen := length_tokens_le hmeant
  rw [List.intercalate_splitOn] at hlen
  have hweight := (weight_readSeq hloose.flatTokens (length_le_depthOf _) hread).2
  have hcount : plainCount (patternTokens pattern) = (patternTokens pattern).length :=
    le_antisymm List.countP_le_length (hlen.trans (hu.trans hweight))
  intro t ht
  simpa using List.countP_eq_length.mp hcount t ht

/-- Another character in place of the dots. -/
def undot (c : Char) : Char := if c = '.' then 'a' else c

def Token.undot : Token → Char
  | char c => TopicBuilder.undot c
  | group => 'a'

/-- A dot matches another character as well. -/
theorem matches_undot (hop : ∀ t ∈ ts, t.isOperator = false) (b : Bool) :
    (regexpOf ts).Matches b (ts.map Token.undot) := by
  induction ts generalizing b with
  | nil => exact matches_finish_seq.mpr rfl
  | cons t ts ih =>
    have hrest := ih (fun u hu => hop u (List.mem_cons_of_mem t hu)) false
    rw [regexpOf_cons, List.map_cons]
    cases t with
    | group => exact matches_group.mpr ⟨['a'], _, rfl, by simp, by decide, hrest⟩
    | char c =>
      by_cases hdot : c = '.'
      · subst hdot
        exact matches_set_seq.mpr ⟨'a', _, rfl, by decide, hrest⟩
      · refine (matches_char hdot).mpr ⟨_, ?_, hrest⟩
        simp [Token.undot, undot, hdot]

theorem map_undot_tokens (parts : List (List Char)) :
    (tokens parts).map Token.undot =
      ['/'].intercalate (parts.map fun part => (partTokens part).map Token.undot) := by
  induction parts with
  | nil => rfl
  | cons part parts ih =>
    cases parts with
    | nil => simp [tokens]
    | cons next parts =>
      rw [tokens_cons_cons, List.map_append, List.map_cons, ih, List.map_cons, List.map_cons,
        List.map_cons, List.intercalate_cons_cons, Token.undot, undot, if_neg (by decide)]
      simp

theorem toList_sample_undot (hloose : Loose pattern) (honce : Once pattern) :
    (sample undot pattern).toList = (patternTokens pattern).map Token.undot := by
  rw [patternTokens, map_undot_tokens, honce.mark_eq, sample, String.toList_ofList]
  congr 1
  rw [← toList_split, List.map_map, List.map_map]
  refine List.map_congr_left fun part hpart => ?_
  by_cases hmem : part ∈ placeholders
  · simp [samplePart, grouped, mem_map_placeholders, hmem, partTokens, Token.undot]
  · simp only [samplePart, grouped, mem_map_placeholders, hmem, partTokens,
      hloose.ne_groupSource hpart hmem, if_false, Function.comp_apply, String.toList_ofList,
      List.map_map]
    rfl

theorem noDot_of_agrees (hloose : Loose pattern) (honce : Once pattern)
    (h : ∀ topic, Agrees pattern topic) {part : String} (hpart : part ∈ Text.split pattern '/')
    (hmem : part ∉ placeholders) : '.' ∉ part.toList := by
  have hop := isOperator_of_agrees hloose honce h
  obtain ⟨r, hread, hmatches⟩ := regexp_of_agrees hloose h
  rw [readSeq_sourceOf hloose.flatTokens hop (length_le_depthOf _)] at hread
  obtain ⟨rfl, -⟩ := Prod.mk.inj (Except.ok.inj hread)
  have hundot : ∀ c, c ≠ '/' → undot c ≠ '/' := by
    intro c hc
    unfold undot
    split
    · decide
    · exact hc
  have hmeant : SegmentsMatch pattern (sample undot pattern) := by
    rw [← hmatches, toList_sample_undot hloose honce]
    exact matches_undot hop true
  intro hdot
  have hkept := (segmentsMatch_sample_iff hundot).mp hmeant part hpart hmem '.' hdot
  exact absurd hkept (by decide)

/-- A pattern without brackets agrees on all topics only if it is plain. -/
theorem plain_of_agrees (hu : Unbracketed pattern) (h : ∀ topic, Agrees pattern topic) :
    Plain pattern := by
  have hloose := hu.loose
  have honce := once_of_agrees hu h
  have hop := isOperator_of_agrees hloose honce h
  refine ⟨fun part hpart hmem => ⟨fun c hc => ?_, (hloose.flat part hpart hmem).2,
    hloose.noPlaceholder part hpart hmem⟩, honce⟩
  rw [← Bool.not_eq_true]
  intro hspecial
  obtain rfl | hoperator := (hloose.flat part hpart hmem).1 c hc hspecial
  · exact noDot_of_agrees hloose honce h hpart hmem hc
  · have hmark : part.toList ∈ mark (pattern.toList.splitOn '/') := by
      rw [honce.mark_eq, ← toList_split, List.map_map]
      refine List.mem_map.mpr ⟨part, hpart, ?_⟩
      simp [grouped, mem_map_placeholders, hmem]
    obtain ⟨a, b, hab⟩ := tokens_of_mem hmark
    have hin : Token.char c ∈ patternTokens pattern := by
      rw [patternTokens, hab, partTokens, if_neg (hloose.ne_groupSource hpart hmem)]
      simp [hc]
    have hfalse := hop _ hin
    rw [Token.isOperator, hoperator] at hfalse
    cases hfalse

/-- A plain pattern matches segment by segment, and of the patterns without brackets no other does.
Where a plain pattern is that of a built topic, the topic of every device matches it. -/
theorem agrees_iff_plain (pattern : String) :
    (Plain pattern → ∀ topic, Agrees pattern topic) ∧
    (Unbracketed pattern → ((∀ topic, Agrees pattern topic) ↔ Plain pattern)) ∧
    ∀ build ∈ buildTopic.all, ∀ topicPrefix deviceId : String,
      pattern = build topicPrefix "{deviceId}" → Plain pattern →
      '/' ∉ deviceId.toList → deviceId ≠ "" →
        matchesTopic pattern (build topicPrefix deviceId) = .ok true := by
  refine ⟨agrees_of_plain, fun hu => ⟨plain_of_agrees hu, agrees_of_plain⟩, ?_⟩
  intro build hbuild topicPrefix deviceId hpattern hplain hslash hne
  obtain ⟨answer, hanswer, hiff⟩ := agrees_of_plain hplain (build topicPrefix deviceId)
  have hmeant : SegmentsMatch pattern (build topicPrefix deviceId) := by
    rw [hpattern]
    exact segmentsMatch_build hbuild hslash hne topicPrefix
  rw [hanswer, hiff.mpr hmeant]

/-- The telemetry topic of a device matches the pattern of all of them. -/
theorem agrees_iff_plain_telemetry :
    matchesTopic "greenhouse/{deviceId}/telemetry" "greenhouse/esp-1/telemetry" = .ok true :=
  (agrees_iff_plain "greenhouse/{deviceId}/telemetry").2.2 buildTopic.telemetry
    (by simp [buildTopic.all]) "greenhouse" "esp-1" (by decide) (by decide) (by decide) (by decide)

/-- The dot of a version matches any character. -/
theorem not_agrees : ¬ ∀ pattern topic, Agrees pattern topic := by
  intro h
  obtain ⟨answer, hanswer, hiff⟩ := h "v1.2/{type}" "v1x2/a"
  have htrue : matchesTopic "v1.2/{type}" "v1x2/a" = .ok true := by decide +kernel
  have hmeant : SegmentsMatch "v1.2/{type}" "v1x2/a" := by
    rw [← hiff]
    exact Except.ok.inj (hanswer.symm.trans htrue)
  have hpattern : Text.split "v1.2/{type}" '/' = ["v1.2", "{type}"] := by decide
  have htopic : Text.split "v1x2/a" '/' = ["v1x2", "a"] := by decide
  rw [SegmentsMatch, hpattern, htopic] at hmeant
  have hversion : SegmentMatches "v1.2" "v1x2" := (List.forall₂_cons.mp hmeant).1
  revert hversion
  unfold SegmentMatches
  decide

end IotPanel.TopicBuilder
