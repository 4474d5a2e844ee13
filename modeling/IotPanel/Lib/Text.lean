import Mathlib.Data.List.Basic
import Mathlib.Data.List.Infix

/-!
# String functions of the source language and of Redis

Strings are compared character by character; the suffixes, separators and
patterns that the program uses are all ASCII.
-/

namespace IotPanel.Text

/-- `s.endsWith(suffix)` -/
def endsWith (s suffix : String) : Bool := suffix.toList.isSuffixOf s.toList

/-- `s.split(sep)` for a separator of one character. -/
def split (s : String) (sep : Char) : List String := (s.toList.splitOn sep).map String.ofList

/-- The first occurrence of a text is replaced. -/
def replaceFirst (text replacement : List Char) : List Char → List Char
  | [] => if text = [] then replacement else []
  | c :: cs =>
    if text.isPrefixOf (c :: cs) then replacement ++ (c :: cs).drop text.length
    else c :: replaceFirst text replacement cs

/-- `s.replace(text, replacement)` for a text, and a replacement without a dollar sign. -/
def replace (s text replacement : String) : String :=
  String.ofList (replaceFirst text.toList replacement.toList s.toList)

/-- Redis glob matching: `*` is any run of characters, `?` is any one character and every
other character is itself. A pattern built from a UUID has no bracket or backslash. -/
def globMatch : List Char → List Char → Bool
  | [], s => s.isEmpty
  | '*' :: p, s => s.tails.any fun t => globMatch p t
  | '?' :: p, s => match s with
    | [] => false
    | _ :: t => globMatch p t
  | c :: p, s => match s with
    | [] => false
    | d :: t => c == d && globMatch p t

def Literal (c : Char) : Prop := c ≠ '*' ∧ c ≠ '?'

instance (c : Char) : Decidable (Literal c) := inferInstanceAs (Decidable (_ ∧ _))

theorem literal_of_all {l : List Char} (h : (l.all fun c => decide (Literal c)) = true) :
    ∀ c ∈ l, Literal c := fun c hc => of_decide_eq_true (List.all_eq_true.mp h c hc)

theorem globMatch_literal {c : Char} (hc : Literal c) (p s : List Char) :
    globMatch (c :: p) s = true ↔ ∃ t, s = c :: t ∧ globMatch p t = true := by
  obtain ⟨hstar, hany⟩ := hc
  cases s with
  | nil => simp [globMatch]
  | cons d t =>
    simp only [globMatch, Bool.and_eq_true, beq_iff_eq, List.cons.injEq]
    constructor
    · rintro ⟨rfl, ht⟩
      exact ⟨t, ⟨rfl, rfl⟩, ht⟩
    · rintro ⟨_, ⟨rfl, rfl⟩, ht⟩
      exact ⟨rfl, ht⟩

theorem globMatch_star (s : List Char) : globMatch ['*'] s = true := by
  simp only [globMatch, List.any_eq_true, List.mem_tails]
  exact ⟨[], List.nil_suffix, rfl⟩

/-- A literal text followed by `*` matches the strings that begin with that text. -/
theorem globMatch_append_star {l : List Char} (hl : ∀ c ∈ l, Literal c) (s : List Char) :
    globMatch (l ++ ['*']) s = true ↔ l <+: s := by
  induction l generalizing s with
  | nil => simpa using globMatch_star s
  | cons c l ih =>
    have hc : Literal c := hl c (by simp)
    have hrest : ∀ d ∈ l, Literal d := fun d hd => hl d (by simp [hd])
    rw [List.cons_append, globMatch_literal hc]
    constructor
    · rintro ⟨t, rfl, ht⟩
      exact List.cons_prefix_cons.mpr ⟨rfl, (ih hrest t).mp ht⟩
    · intro h
      obtain ⟨t, rfl⟩ := h
      exact ⟨l ++ t, rfl, (ih hrest _).mpr (List.prefix_append l t)⟩

/-- The parts on both sides of a separator. -/
theorem split_append_split (a b : String) (c : Char) :
    split (a ++ (String.ofList [c] ++ b)) c = split a c ++ split b c := by
  simp [split, List.splitOn_append_cons_self]

theorem split_of_not_mem {c : Char} {a : String} (ha : c ∉ a.toList) : split a c = [a] := by
  simp [split, List.splitOn_eq_singleton ha]

/-- Splitting at the first occurrence of the separator. -/
theorem split_append {c : Char} {a : String} (ha : c ∉ a.toList) (b : String) :
    split (a ++ (String.ofList [c] ++ b)) c = a :: split b c := by
  rw [split_append_split, split_of_not_mem ha]
  rfl

/-- The parts of a text that is made of a part between two texts. -/
theorem split_between {part : String} (h : '/' ∉ part.toList) (a b : String) :
    split (a ++ "/" ++ part ++ "/" ++ b) '/' = split a '/' ++ part :: split b '/' := by
  have hsep : a ++ "/" ++ part ++ "/" ++ b =
      a ++ (String.ofList ['/'] ++ (part ++ (String.ofList ['/'] ++ b))) := by
    simp [String.append_assoc]
  rw [hsep, split_append_split, split_append h]

theorem split_ne_nil (s : String) (c : Char) : split s c ≠ [] := by
  simp [split]

theorem mem_intercalate {sep c : Char} {parts : List (List Char)}
    (h : c ∈ [sep].intercalate parts) : c = sep ∨ ∃ part ∈ parts, c ∈ part := by
  induction parts with
  | nil => cases h
  | cons part parts ih =>
    cases parts with
    | nil => exact .inr ⟨part, by simp, by simpa using h⟩
    | cons next parts =>
      rw [List.intercalate_cons_cons, List.mem_append, List.mem_append] at h
      obtain (hc | hc) | hc := h
      · exact .inr ⟨part, by simp, hc⟩
      · exact .inl (List.mem_singleton.mp hc)
      · exact (ih hc).imp_right fun ⟨p, hp, hcp⟩ => ⟨p, List.mem_cons_of_mem part hp, hcp⟩

/-- The first part of a text ends at the first separator, or with the text. -/
theorem splitOn_eq_cons {sep : Char} {l u : List Char} {us : List (List Char)} :
    l.splitOn sep = u :: us ↔
      sep ∉ u ∧ (l = u ∧ us = [] ∨ ∃ l', l = u ++ sep :: l' ∧ us = l'.splitOn sep) := by
  constructor
  · intro h
    by_cases hmem : sep ∈ l
    · obtain ⟨a, l', rfl, ha⟩ := List.eq_append_cons_of_mem hmem
      rw [List.splitOn_append_cons_self_of_not_mem ha] at h
      obtain ⟨rfl, rfl⟩ := List.cons.inj h
      exact ⟨ha, .inr ⟨l', rfl, rfl⟩⟩
    · rw [List.splitOn_eq_singleton hmem] at h
      obtain ⟨rfl, rfl⟩ := List.cons.inj h
      exact ⟨hmem, .inl ⟨rfl, rfl⟩⟩
  · rintro ⟨hu, ⟨rfl, rfl⟩ | ⟨l', rfl, rfl⟩⟩
    · exact List.splitOn_eq_singleton hu
    · exact List.splitOn_append_cons_self_of_not_mem hu l'

theorem not_mem_of_mem_splitOn {sep : Char} {l u : List Char} (h : u ∈ l.splitOn sep) :
    sep ∉ u := by
  induction l generalizing u with
  | nil =>
    obtain rfl : u = [] := by simpa [List.splitOn_nil] using h
    exact List.not_mem_nil
  | cons c l ih =>
    rw [List.splitOn_cons_eq_if_modifyHead] at h
    split at h
    · obtain rfl | hu := List.mem_cons.mp h
      · exact List.not_mem_nil
      · exact ih hu
    next hc =>
      cases hl : l.splitOn sep with
      | nil => exact absurd hl (List.splitOn_ne_nil _ _)
      | cons v us =>
        rw [hl] at h ih
        obtain rfl | hu := List.mem_cons.mp h
        · intro hmem
          obtain rfl | hv := List.mem_cons.mp hmem
          · exact hc (beq_self_eq_true sep)
          · exact ih List.mem_cons_self hv
        · exact ih (List.mem_cons_of_mem v hu)

theorem endsWith_iff {s suffix : String} :
    endsWith s suffix = true ↔ suffix.toList <:+ s.toList := by
  simp [endsWith]

@[simp] theorem endsWith_append (a suffix : String) : endsWith (a ++ suffix) suffix = true := by
  simp [endsWith_iff]

/-- A text does not end in two suffixes of which neither ends in the other. -/
theorem endsWith_append_eq_false {a s t : String} (hst : endsWith s t = false)
    (hts : endsWith t s = false) : endsWith (a ++ s) t = false := by
  rw [← Bool.not_eq_true, endsWith_iff] at hst hts ⊢
  intro h
  have ha : s.toList <:+ (a ++ s).toList := by simp
  obtain hle | hle := List.suffix_or_suffix_of_suffix ha h
  · exact hts hle
  · exact hst hle

theorem append_ne_append {a b s t : String} (hst : endsWith s t = false)
    (hts : endsWith t s = false) : a ++ s ≠ b ++ t := by
  intro h
  have hends := endsWith_append b t
  rw [← h, endsWith_append_eq_false hst hts] at hends
  cases hends

theorem append_right_cancel {a b s : String} (h : a ++ s = b ++ s) : a = b := by
  rw [← String.toList_inj] at h ⊢
  simpa using h

/-! ### Replacing in the parts of a text -/

section Replace

variable {text replacement : List Char} {sep : Char}

theorem replaceFirst_self (h : text ≠ []) : replaceFirst text replacement text = replacement := by
  cases text with
  | nil => exact absurd rfl h
  | cons c cs => simp [replaceFirst]

theorem replaceFirst_of_absent {s : List Char} (h : ¬ text <:+: s) :
    replaceFirst text replacement s = s := by
  induction s with
  | nil =>
    have hne : text ≠ [] := fun hnil => h (hnil ▸ List.nil_infix)
    simp [replaceFirst, hne]
  | cons c cs ih =>
    have hbegins : ¬ text <+: c :: cs := fun hp => h hp.isInfix
    have hrest : ¬ text <:+: cs := fun hi => h (hi.trans (List.suffix_cons c cs).isInfix)
    simp [replaceFirst, hbegins, ih hrest]

/-- A text without the separator begins in front of it only if it ends there. -/
theorem prefix_append_sep (hsep : sep ∉ text) {a b : List Char} :
    text <+: a ++ sep :: b ↔ text <+: a := by
  constructor
  · intro h
    obtain hle | hle := List.prefix_or_prefix_of_prefix h (List.prefix_append a (sep :: b))
    · exact hle
    · obtain ⟨d, rfl⟩ := hle
      rw [List.prefix_append_right_inj] at h
      cases d with
      | nil => simp
      | cons e d =>
        obtain ⟨rfl, -⟩ := List.cons_prefix_cons.mp h
        simp at hsep
  · intro h
    exact h.trans (List.prefix_append _ _)

/-- A text without the separator is replaced in front of it if it occurs there, and behind it
otherwise. -/
theorem replaceFirst_append_sep (hsep : sep ∉ text) (hne : text ≠ []) (a b : List Char) :
    replaceFirst text replacement (a ++ sep :: b) =
      if text <:+: a then replaceFirst text replacement a ++ sep :: b
      else a ++ sep :: replaceFirst text replacement b := by
  induction a with
  | nil =>
    have hbegins : ¬ text <+: sep :: b := by
      intro h
      exact hne (List.prefix_nil.mp ((prefix_append_sep hsep (a := [])).mp h))
    simp [replaceFirst, hbegins, hne]
  | cons c a ih =>
    by_cases hbegins : text <+: c :: a
    · have hlong : text <+: c :: (a ++ sep :: b) := (prefix_append_sep hsep (a := c :: a)).mpr hbegins
      have hle : text.length ≤ (c :: a).length := hbegins.length_le
      rw [if_pos hbegins.isInfix, List.cons_append, replaceFirst, replaceFirst,
        if_pos (by simpa using hlong), if_pos (by simpa using hbegins), ← List.cons_append,
        List.drop_append_of_le_length hle, List.append_assoc]
    · have hlong : ¬ text <+: c :: (a ++ sep :: b) := fun h =>
        hbegins ((prefix_append_sep hsep (a := c :: a)).mp h)
      have hoccurs : text <:+: c :: a ↔ text <:+: a := by
        rw [List.infix_cons_iff]
        exact or_iff_right hbegins
      simp only [List.cons_append, replaceFirst, List.isPrefixOf_iff_prefix, hlong, hbegins,
        if_false, ih, hoccurs]
      split <;> simp

/-- Among the parts of a text a part is replaced, if no other part contains it. -/
theorem replaceFirst_intercalate (hsep : sep ∉ text) (hne : text ≠ []) {parts : List (List Char)}
    (hparts : ∀ part ∈ parts, part = text ∨ ¬ text <:+: part) :
    replaceFirst text replacement ([sep].intercalate parts) =
      [sep].intercalate (parts.replace text replacement) := by
  induction parts with
  | nil => simp [replaceFirst, hne]
  | cons part parts ih =>
    have hpart := hparts part (by simp)
    have hrest := ih fun p hp => hparts p (by simp [hp])
    cases parts with
    | nil =>
      obtain rfl | hnot := hpart
      · simp [replaceFirst_self hne]
      · have hdiff : text ≠ part := fun h => hnot (h ▸ List.infix_refl _)
        simp [replaceFirst_of_absent hnot, hdiff]
    | cons next parts =>
      rw [List.intercalate_cons_cons, List.append_assoc, List.singleton_append,
        replaceFirst_append_sep hsep hne]
      obtain rfl | hnot := hpart
      · rw [if_pos (List.infix_refl _), replaceFirst_self hne, List.replace_cons_self,
          List.intercalate_cons_cons]
        simp
      · have hdiff : text ≠ part := fun h => hnot (h ▸ List.infix_refl _)
        have hskip : (part :: next :: parts).replace text replacement =
            part :: (next :: parts).replace text replacement := by
          rw [List.replace_cons, beq_eq_false_iff_ne.mpr hdiff]
        have hkeep : (next :: parts).replace text replacement ≠ [] := by
          intro h
          simpa using congrArg List.length h
        rw [if_neg hnot, hrest, hskip, List.intercalate_cons_of_ne_nil hkeep]
        simp

theorem replace_ofList (s : List Char) (a b : String) :
    replace (String.ofList s) a b = String.ofList (replaceFirst a.toList b.toList s) := by
  rw [replace, String.toList_ofList]

theorem mem_replace {α : Type} [BEq α] {l : List α} {a b x : α} (h : x ∈ l.replace a b) :
    x ∈ l ∨ x = b := by
  induction l with
  | nil => cases h
  | cons y l ih =>
    rw [List.replace_cons] at h
    split at h
    · exact (List.mem_cons.mp h).symm.imp_left (List.mem_cons_of_mem y)
    · obtain rfl | hx := List.mem_cons.mp h
      · exact .inl (by simp)
      · exact (ih hx).imp_left (List.mem_cons_of_mem y)

section Once

variable {α : Type} [BEq α] [LawfulBEq α] [DecidableEq α] {l : List α}

/-- What stands at most once is replaced wherever it stands. -/
theorem replace_eq_map {a b : α} (h : l.count a ≤ 1) :
    l.replace a b = l.map fun x => if x = a then b else x := by
  induction l with
  | nil => rfl
  | cons x l ih =>
    by_cases hx : x = a
    · subst hx
      have hnot : x ∉ l := by
        rw [List.count_cons_self] at h
        exact List.count_eq_zero.mp (by omega)
      have hkeep : (l.map fun y => if y = x then b else y) = l.map id := by
        refine List.map_congr_left fun y hy => if_neg ?_
        rintro rfl
        exact hnot hy
      rw [List.replace_cons_self, List.map_cons, if_pos rfl, hkeep, List.map_id]
    · rw [List.count_cons_of_ne hx] at h
      rw [List.replace_cons, beq_eq_false_iff_ne.mpr (Ne.symm hx), List.map_cons, if_neg hx, ih h]

theorem foldl_replace_eq_map {b : α} {as : List α} (hb : b ∉ as)
    (h : ∀ a ∈ as, l.count a ≤ 1) :
    as.foldl (fun l a => l.replace a b) l = l.map fun x => if x ∈ as then b else x := by
  induction as generalizing l with
  | nil => simp
  | cons a as ih =>
    have hbas : b ∉ as := fun hmem => hb (List.mem_cons_of_mem a hmem)
    have hcount : ∀ x ∈ as, (l.replace a b).count x ≤ 1 := by
      intro x hx
      have hbx : b ≠ x := fun he => hbas (he ▸ hx)
      have hle := h x (List.mem_cons_of_mem a hx)
      rw [List.count_replace, beq_eq_false_iff_ne.mpr hbx, if_neg Bool.false_ne_true]
      split <;> omega
    rw [List.foldl_cons, ih hbas hcount, replace_eq_map (h a List.mem_cons_self), List.map_map]
    refine List.map_congr_left fun x _ => ?_
    by_cases hx : x = a
    · simp [hx, hbas]
    · simp [hx]

end Once

end Replace

end IotPanel.Text
