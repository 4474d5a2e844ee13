import IotPanel.Config.TopicTokens
import Mathlib.Data.List.Count

/-!
# Plain patterns match segment by segment

A pattern is plain if its literals stand for themselves in a regular expression and no placeholder
stands twice.
-/

namespace IotPanel.TopicBuilder

open RegExp

/-! ### The expression of a pattern -/

/-- The tokens of a pattern. -/
def patternTokens (pattern : String) : List Token := tokens (mark (pattern.toList.splitOn '/'))

theorem matchesTopic_eq {pattern : String} (hseparate : Separate (pattern.toList.splitOn '/'))
    (hall : ∀ r rest, readSeq (depthOf (patternTokens pattern))
      (sourceOf (patternTokens pattern)) = .ok (r, rest) → rest = []) (topic : String) :
    matchesTopic pattern topic =
      (readSeq (depthOf (patternTokens pattern)) (sourceOf (patternTokens pattern))).map
        fun p => test (seq start p.1) topic := by
  have hsource : "^" ++ String.ofList (['/'].intercalate (mark (pattern.toList.splitOn '/'))) ++ "$"
      = String.ofList ('^' :: sourceOf (patternTokens pattern)) := by
    rw [patternTokens, sourceOf_tokens, ← String.toList_inj]
    simp
  rw [matchesTopic, replace_pattern hseparate, hsource, compile_sourceOf hall]
  cases readSeq (depthOf (patternTokens pattern)) (sourceOf (patternTokens pattern)) <;> rfl

/-! ### Plain patterns -/

/-- A part after the replacements, when no placeholder stands twice. -/
def grouped (part : List Char) : List Char :=
  if part ∈ placeholders.map String.toList then groupSource else part

/-- Each placeholder is replaced wherever it stands, if it stands at most once. -/
theorem mark_eq_map {parts : List (List Char)}
    (h : ∀ text ∈ placeholders, parts.count text.toList ≤ 1) : mark parts = parts.map grouped := by
  have hgroup : groupSource ∉ placeholders.map String.toList := by decide
  refine Text.foldl_replace_eq_map hgroup fun text htext => ?_
  obtain ⟨placeholder, hmem, rfl⟩ := List.mem_map.mp htext
  exact h placeholder hmem

/-- A pattern whose literals are flat and hold no placeholder. -/
structure Loose (pattern : String) : Prop where
  flat : ∀ part ∈ Text.split pattern '/', part ∉ placeholders → FlatPart part.toList
  noPlaceholder : ∀ part ∈ Text.split pattern '/', part ∉ placeholders →
    ∀ text ∈ placeholders, ¬ text.toList <:+: part.toList

variable {pattern : String}

theorem mem_splitOn {u : List Char} (h : u ∈ pattern.toList.splitOn '/') :
    ∃ part ∈ Text.split pattern '/', part.toList = u :=
  ⟨String.ofList u, List.mem_map_of_mem h, String.toList_ofList⟩

theorem Loose.separate (h : Loose pattern) : Separate (pattern.toList.splitOn '/') := by
  have hapart : ∀ part ∈ placeholders, ∀ text ∈ placeholders,
      part.toList = text.toList ∨ ¬ text.toList <:+: part.toList := by decide
  intro u hu text htext
  obtain ⟨part, hpart, rfl⟩ := mem_splitOn hu
  by_cases hmem : part ∈ placeholders
  · exact hapart part hmem text htext
  · exact .inr (h.noPlaceholder part hpart hmem text htext)

theorem mem_mark {parts : List (List Char)} {u : List Char} (h : u ∈ mark parts)
    (hu : u ≠ groupSource) : u ∈ parts := by
  have hone : ∀ (l : List (List Char)) (text : List Char),
      u ∈ l.replace text groupSource → u ∈ l :=
    fun l text hmem => (Text.mem_replace hmem).resolve_right hu
  exact hone _ _ (hone _ _ (hone _ _ h))

theorem flatPart_placeholder : ∀ text ∈ placeholders, FlatPart text.toList := by
  have hall : ∀ text ∈ placeholders, (text.toList.all fun c => !isSyntax c) = true ∧
      Braceless text.toList := by decide
  intro text htext
  obtain ⟨hspecial, hbraces⟩ := hall text htext
  exact ⟨fun c hc h => absurd h (by simp [(noSyntax_iff _).mp hspecial c hc]), hbraces⟩

theorem Loose.flatTokens (h : Loose pattern) : Flat (patternTokens pattern) := by
  refine flat_tokens fun u hu hgroup => ?_
  obtain ⟨part, hpart, rfl⟩ := mem_splitOn (mem_mark hu hgroup)
  by_cases hmem : part ∈ placeholders
  · exact flatPart_placeholder part hmem
  · exact h.flat part hpart hmem

theorem Plain.loose (h : Plain pattern) : Loose pattern where
  flat part hpart hmem :=
    ⟨fun c hc hspecial => absurd hspecial (by simp [(h.literal part hpart hmem).noSyntax c hc]),
      (h.literal part hpart hmem).braceless⟩
  noPlaceholder part hpart hmem := (h.literal part hpart hmem).noPlaceholder

theorem toList_split (s : String) : (Text.split s '/').map String.toList = s.toList.splitOn '/' := by
  simp [Text.split]

theorem count_splitOn (text : String) :
    (pattern.toList.splitOn '/').count text.toList = (Text.split pattern '/').count text := by
  rw [← List.count_map_of_injective _ String.toList fun _ _ => String.toList_inj.mp, Text.split,
    List.map_map]
  simp [Function.comp_def]

theorem Once.mark_eq (h : Once pattern) :
    mark (pattern.toList.splitOn '/') = (pattern.toList.splitOn '/').map grouped :=
  mark_eq_map fun text htext => (count_splitOn text).trans_le (h text htext)

theorem mem_map_placeholders {part : String} :
    part.toList ∈ placeholders.map String.toList ↔ part ∈ placeholders :=
  List.mem_map_of_injective fun _ _ => String.toList_inj.mp

/-- What is left of a plain pattern besides the groups are its literals. -/
theorem Plain.literal_of_mem_mark (h : Plain pattern) {u : List Char}
    (hu : u ∈ mark (pattern.toList.splitOn '/')) (hgroup : u ≠ groupSource) :
    '/' ∉ u ∧ ∃ part, part.toList = u ∧ Literal part := by
  rw [h.once.mark_eq, List.mem_map] at hu
  obtain ⟨v, hv, rfl⟩ := hu
  have hslash := Text.not_mem_of_mem_splitOn hv
  obtain ⟨part, hpart, rfl⟩ := mem_splitOn hv
  by_cases hmem : part ∈ placeholders
  · exact absurd (if_pos (mem_map_placeholders.mpr hmem)) hgroup
  · rw [grouped, if_neg (mt mem_map_placeholders.mp hmem)]
    exact ⟨hslash, part, rfl, h.literal part hpart hmem⟩

theorem isOperator_eq_false {c : Char} (h : isSyntax c = false) : isOperator c = false := by
  simp only [isSyntax, isOperator, List.contains_eq_mem, List.mem_cons, List.not_mem_nil, or_false,
    decide_eq_false_iff_not, not_or] at h ⊢
  exact ⟨h.1, h.2.1, h.2.2.2.2.1, h.2.2.2.2.2.1, h.2.2.2.2.2.2.1⟩

theorem Plain.isOperator_tokens (h : Plain pattern) :
    ∀ t ∈ patternTokens pattern, t.isOperator = false := by
  intro t ht
  obtain rfl | rfl | ⟨u, hu, hgroup, c, hc, rfl⟩ := mem_tokens ht
  · rfl
  · rfl
  · obtain ⟨-, part, rfl, hliteral⟩ := h.literal_of_mem_mark hu hgroup
    exact isOperator_eq_false (hliteral.noSyntax c hc)

theorem forall₂_congr_left {α β : Type} {R S : α → β → Prop} {l : List α} {m : List β}
    (h : ∀ a ∈ l, ∀ b, R a b ↔ S a b) : List.Forall₂ R l m ↔ List.Forall₂ S l m := by
  have hmem : ∀ T : α → β → Prop, List.Forall₂ T l m ↔
      List.Forall₂ (fun a b => a ∈ l ∧ T a b) l m := by
    intro T
    rw [List.forall₂_and_left]
    exact (and_iff_right fun _ ha => ha).symm
  rw [hmem R, hmem S]
  exact ⟨List.Forall₂.imp fun a b hab => ⟨hab.1, (h a hab.1 b).mp hab.2⟩,
    List.Forall₂.imp fun a b hab => ⟨hab.1, (h a hab.1 b).mpr hab.2⟩⟩

theorem Loose.ne_groupSource (h : Loose pattern) {part : String}
    (hpart : part ∈ Text.split pattern '/') (hmem : part ∉ placeholders) :
    part.toList ≠ groupSource := by
  intro hgroup
  have hparen := (h.flat part hpart hmem).1 '('
  rw [hgroup] at hparen
  exact absurd (hparen (by decide) rfl) (by decide)

/-- What the parts match is what they are meant to match. -/
theorem Loose.forall₂_fits_iff (h : Loose pattern) (honce : Once pattern) (topic : String) :
    List.Forall₂ Fits (mark (pattern.toList.splitOn '/')) (topic.toList.splitOn '/') ↔
      SegmentsMatch pattern topic := by
  rw [honce.mark_eq, List.forall₂_map_left_iff, SegmentsMatch, Text.split, Text.split,
    List.forall₂_map_left_iff, List.forall₂_map_right_iff]
  refine forall₂_congr_left fun u hu v => ?_
  obtain ⟨part, hpart, rfl⟩ := mem_splitOn hu
  rw [String.ofList_toList, Fits, SegmentMatches, grouped]
  by_cases hmem : part ∈ placeholders
  · rw [if_pos (mem_map_placeholders.mpr hmem), if_pos rfl, if_pos hmem]
    simp [← String.toList_inj]
  · rw [if_neg (mt mem_map_placeholders.mp hmem), if_neg (h.ne_groupSource hpart hmem), if_neg hmem]
    simp [← String.toList_inj]

theorem agrees_of_plain (h : Plain pattern) (topic : String) : Agrees pattern topic := by
  have hread : readSeq (depthOf (patternTokens pattern)) (sourceOf (patternTokens pattern)) =
      .ok (regexpOf (patternTokens pattern), []) :=
    readSeq_sourceOf h.loose.flatTokens h.isOperator_tokens (length_le_depthOf _)
  have hmatches := matchesTopic_eq h.loose.separate
    (fun r rest hok => by rw [hread] at hok; cases hok; rfl) topic
  rw [hread] at hmatches
  refine ⟨_, hmatches, ?_⟩
  rw [test_start_seq, ← h.loose.forall₂_fits_iff h.once]
  refine matches_tokens ?_ fun u hu hgroup => ?_
  · rw [h.once.mark_eq]
    simp
  · obtain ⟨hslash, part, rfl, hliteral⟩ := h.literal_of_mem_mark hu hgroup
    exact ⟨fun hdot => absurd (hliteral.noSyntax _ hdot) (by decide), hslash⟩

end IotPanel.TopicBuilder
