import IotPanel.Js.Number
import IotPanel.Lib.RegExp

/-!
# `RegExp`

`new RegExp(source)` without flags, and `test`, by the grammar of engines that run web code: a
brace that makes no quantifier is a character. Texts are taken character by character, where an
expression without the flag `u` takes UTF-16 units: a character beyond the basic plane counts once
here and twice there, so that `a.b` differs on it. Look-around, named groups, back references,
word boundaries and escapes by code are not read.
-/

namespace IotPanel.RegExp

open JsVal (isSpace leadingDigits)

inductive Fault
  | syntaxError
  /-- The source uses what this model does not read. -/
  | unread
  /-- The bound on the calls is reached, which does not happen (`compile_ne_tooDeep`). -/
  | tooDeep
  deriving DecidableEq

/-- What stands in a class, or after a backslash: one character, or a set of them. -/
inductive Member
  | one (c : Char)
  | many (accepts : Char → Bool)

def Member.accepts : Member → Char → Bool
  | one c => fun d => d == c
  | many accepts => accepts

def isLineTerminator (c : Char) : Bool := [10, 13, 0x2028, 0x2029].contains c.toNat

/-- `\w` -/
def isWord (c : Char) : Bool := c.isAlphanum || c == '_'

/-- What follows a backslash. -/
def readEscape : List Char → Except Fault (Member × List Char)
  | [] => .error .syntaxError
  | 'd' :: cs => .ok (.many Char.isDigit, cs)
  | 'D' :: cs => .ok (.many fun c => !c.isDigit, cs)
  | 's' :: cs => .ok (.many isSpace, cs)
  | 'S' :: cs => .ok (.many fun c => !isSpace c, cs)
  | 'w' :: cs => .ok (.many isWord, cs)
  | 'W' :: cs => .ok (.many fun c => !isWord c, cs)
  | 't' :: cs => .ok (.one '\t', cs)
  | 'n' :: cs => .ok (.one '\n', cs)
  | 'r' :: cs => .ok (.one '\r', cs)
  | 'v' :: cs => .ok (.one (Char.ofNat 11), cs)
  | 'f' :: cs => .ok (.one (Char.ofNat 12), cs)
  | c :: cs =>
    if c.isDigit || ['b', 'B', 'c', 'k', 'u', 'x'].contains c then .error .unread
    else .ok (.one c, cs)

def readMember : List Char → Except Fault (Member × List Char)
  | [] => .error .syntaxError
  | '\\' :: cs => readEscape cs
  | c :: cs => .ok (.one c, cs)

/-- The rest of a class, after its bracket and its negation. The first argument bounds the number
of members. -/
def readClass : ℕ → List Char → Except Fault ((Char → Bool) × List Char)
  | 0, _ => .error .tooDeep
  | n + 1, cs =>
    match cs with
    | ']' :: rest => .ok (fun _ => false, rest)
    | _ => do
      let (a, rest) ← readMember cs
      match rest with
      | '-' :: ']' :: rest => return (fun c => a.accepts c || c == '-', rest)
      | '-' :: rest =>
        let (b, rest) ← readMember rest
        match a, b with
        | .one low, .one high =>
          if high < low then throw .syntaxError
          let (more, rest) ← readClass n rest
          return (fun c => (low ≤ c && c ≤ high) || more c, rest)
        | _, _ =>
          let (more, rest) ← readClass n rest
          return (fun c => a.accepts c || c == '-' || b.accepts c || more c, rest)
      | _ =>
        let (more, rest) ← readClass n rest
        return (fun c => a.accepts c || more c, rest)

/-- What follows an opening brace, if it makes a quantifier: the least and the greatest count. -/
def readBraces (cs : List Char) : Option (ℕ × Option ℕ × List Char) :=
  match leadingDigits cs, cs.dropWhile Char.isDigit with
  | some least, '}' :: rest => some (least, some least, rest)
  | some least, ',' :: most =>
    match most.dropWhile Char.isDigit with
    | '}' :: rest => some (least, leadingDigits most, rest)
    | _ => none
  | _, _ => none

/-- A question mark after a quantifier changes which match is preferred, not whether there is
one. -/
def skipLazy : List Char → List Char
  | '?' :: cs => cs
  | cs => cs

def quantify (r : RegExp) (cs : List Char) : Except Fault (RegExp × List Char) :=
  match cs with
  | '*' :: rest => .ok (star r, skipLazy rest)
  | '+' :: rest => .ok (seq r (star r), skipLazy rest)
  | '?' :: rest => .ok (alt r empty, skipLazy rest)
  | '{' :: rest =>
    match readBraces rest with
    | some (least, most, rest) =>
      if most.any fun m => m < least then .error .syntaxError
      else .ok (r.times least most, skipLazy rest)
    | none => .ok (r, cs)
  | _ => .ok (r, cs)

mutual

/-- Alternatives, up to a closing parenthesis or the end. The first argument bounds the depth of
the calls. -/
def readAlt : ℕ → List Char → Except Fault (RegExp × List Char)
  | 0, _ => .error .tooDeep
  | n + 1, cs => do
    let (r, rest) ← readSeq n cs
    match rest with
    | '|' :: rest =>
      let (s, rest) ← readAlt n rest
      return (alt r s, rest)
    | _ => return (r, rest)

def readSeq : ℕ → List Char → Except Fault (RegExp × List Char)
  | 0, _ => .error .tooDeep
  | n + 1, cs =>
    match cs with
    | [] | '|' :: _ | ')' :: _ => .ok (empty, cs)
    | _ => do
      let (r, rest) ← readTerm n cs
      let (s, rest) ← readSeq n rest
      return (seq r s, rest)

def readTerm : ℕ → List Char → Except Fault (RegExp × List Char)
  | 0, _ => .error .tooDeep
  | n + 1, cs =>
    match cs with
    | '^' :: rest => .ok (start, rest)
    | '$' :: rest => .ok (finish, rest)
    | '(' :: '?' :: ':' :: rest => readGroup n rest
    | '(' :: '?' :: _ => .error .unread
    | '(' :: rest => readGroup n rest
    | '[' :: '^' :: rest => do
      let (accepts, rest) ← readClass (rest.length + 1) rest
      quantify (set fun c => !accepts c) rest
    | '[' :: rest => do
      let (accepts, rest) ← readClass (rest.length + 1) rest
      quantify (set accepts) rest
    | '\\' :: rest => do
      let (a, rest) ← readEscape rest
      quantify (set a.accepts) rest
    | '.' :: rest => quantify (set fun c => !isLineTerminator c) rest
    | '*' :: _ | '+' :: _ | '?' :: _ | [] => .error .syntaxError
    | c :: rest =>
      if c = '{' ∧ (readBraces rest).isSome then .error .syntaxError
      else quantify (set fun d => d == c) rest

def readGroup : ℕ → List Char → Except Fault (RegExp × List Char)
  | 0, _ => .error .tooDeep
  | n + 1, cs => do
    let (r, rest) ← readAlt n cs
    match rest with
    | ')' :: rest => quantify r rest
    | _ => throw .syntaxError

end

/-- `new RegExp(source)`. A closing parenthesis that is left over is an error. -/
def compile (source : String) : Except Fault RegExp := do
  let (r, rest) ← readAlt (4 * source.toList.length + 4) source.toList
  match rest with
  | [] => return r
  | _ => throw .syntaxError

/-- `regex.test(text)`: a match may begin anywhere. -/
def test (r : RegExp) (text : String) : Bool :=
  text.toList.tails.any fun ahead =>
    !(r.ends ⟨ahead.length == text.toList.length, ahead⟩).isEmpty

/-! ### The bound on the calls -/

/-- A reader leaves no more than the given number of characters, and does not reach its bound. -/
def Within {α : Type} (k : ℕ) : Except Fault (α × List Char) → Prop
  | .ok (_, rest) => rest.length ≤ k
  | .error e => e ≠ .tooDeep

section Bound

variable {α β : Type} {k m n : ℕ} {cs : List Char}

theorem Within.bind {x : Except Fault (α × List Char)}
    {f : α × List Char → Except Fault (β × List Char)} (hx : Within k x)
    (hf : ∀ a rest, rest.length ≤ k → Within m (f (a, rest))) : Within m (x >>= f) := by
  match x, hx with
  | .ok (a, rest), hrest => exact hf a rest hrest
  | .error e, he => exact he

theorem Within.mono {x : Except Fault (α × List Char)} (hx : Within k x) (h : k ≤ m) :
    Within m x := by
  match x, hx with
  | .ok _, hrest => exact hrest.trans h
  | .error _, he => exact he

theorem within_readEscape (cs : List Char) : Within (cs.length - 1) (readEscape cs) := by
  unfold readEscape
  split
  all_goals first
    | exact le_rfl
    | exact fun h => nomatch h
    | skip
  split
  · exact fun h => nomatch h
  · exact le_rfl

theorem within_readMember (cs : List Char) : Within (cs.length - 1) (readMember cs) := by
  unfold readMember
  split
  · exact fun h => nomatch h
  next cs => exact (within_readEscape cs).mono (Nat.sub_le _ _)
  · exact le_rfl

theorem within_readClass (hn : cs.length < n) : Within (cs.length - 1) (readClass n cs) := by
  induction n generalizing cs with
  | zero => omega
  | succ n ih =>
    unfold readClass
    split
    next rest => exact le_rfl
    next hclose =>
      cases cs with
      | nil => exact fun h => nomatch h
      | cons c cs =>
        rw [List.length_cons] at hn
        refine (within_readMember (c :: cs)).bind fun a rest hrest => ?_
        simp only [List.length_cons, Nat.add_sub_cancel] at hrest ⊢
        split
        next rest =>
          simp only [List.length_cons] at hrest
          exact Nat.le_of_lt (by omega)
        next rest _ =>
          simp only [List.length_cons] at hrest
          refine (within_readMember rest).bind fun b rest' hrest' => ?_
          have hmore : Within cs.length (readClass n rest') := (ih (by omega)).mono (by omega)
          split
          · split
            · exact fun h => nomatch h
            · exact hmore.bind fun _ _ h => h
          · exact hmore.bind fun _ _ h => h
        next =>
          have hmore : Within cs.length (readClass n rest) := (ih (by omega)).mono (by omega)
          exact hmore.bind fun _ _ h => h

theorem length_dropWhile_le (p : Char → Bool) (l : List Char) :
    (l.dropWhile p).length ≤ l.length := (List.dropWhile_suffix p).length_le

theorem length_readBraces {least : ℕ} {most : Option ℕ} {rest : List Char}
    (h : readBraces cs = some (least, most, rest)) : rest.length ≤ cs.length := by
  have hdigits := length_dropWhile_le Char.isDigit cs
  unfold readBraces at h
  split at h
  next hcs =>
    cases h
    rw [hcs, List.length_cons] at hdigits
    omega
  next more _ hcs =>
    rw [hcs, List.length_cons] at hdigits
    have hmore := length_dropWhile_le Char.isDigit more
    split at h
    next hrest =>
      cases h
      rw [hrest, List.length_cons] at hmore
      omega
    next => cases h
  next => cases h

theorem length_skipLazy_le (cs : List Char) : (skipLazy cs).length ≤ cs.length := by
  unfold skipLazy
  split
  · exact Nat.le_succ _
  · exact le_rfl

theorem within_quantify (r : RegExp) (cs : List Char) : Within cs.length (quantify r cs) := by
  unfold quantify
  split
  next rest => exact (length_skipLazy_le rest).trans (Nat.le_succ _)
  next rest => exact (length_skipLazy_le rest).trans (Nat.le_succ _)
  next rest => exact (length_skipLazy_le rest).trans (Nat.le_succ _)
  next rest =>
    split
    next least most rest' hbraces =>
      split
      · exact fun h => nomatch h
      · have hlen := length_readBraces hbraces
        exact ((length_skipLazy_le rest').trans hlen).trans (Nat.le_succ _)
    next => exact le_rfl
  next => exact le_rfl

/-- Enough calls for all readers: a group takes four for its parenthesis. -/
structure Reader (n : ℕ) : Prop where
  alts : ∀ cs : List Char, 4 * cs.length + 4 ≤ n → Within cs.length (readAlt n cs)
  terms : ∀ cs : List Char, 4 * cs.length + 3 ≤ n → Within cs.length (readSeq n cs)
  term : ∀ cs : List Char, 4 * cs.length + 2 ≤ n → Within (cs.length - 1) (readTerm n cs)
  group : ∀ cs : List Char, 4 * cs.length + 5 ≤ n → Within (cs.length - 1) (readGroup n cs)

theorem within_readAlt (ih : Reader n) (hn : 4 * cs.length + 4 ≤ n + 1) :
    Within cs.length (readAlt (n + 1) cs) := by
  rw [readAlt]
  refine (ih.terms cs (by omega)).bind fun r rest hrest => ?_
  dsimp only
  split
  next rest =>
    rw [List.length_cons] at hrest
    refine (ih.alts rest (by omega)).bind fun s rest' hrest' => ?_
    exact hrest'.trans (by omega)
  next => exact hrest

theorem within_readSeq (ih : Reader n) (hn : 4 * cs.length + 3 ≤ n + 1) :
    Within cs.length (readSeq (n + 1) cs) := by
  unfold readSeq
  split
  next => exact le_rfl
  next => exact le_rfl
  next => exact le_rfl
  next hcs _ _ =>
    have hpos : 0 < cs.length := List.length_pos_iff.mpr hcs
    refine (ih.term cs (by omega)).bind fun r rest hrest => ?_
    refine (ih.terms rest (by omega)).bind fun s rest' hrest' => ?_
    exact hrest'.trans (by omega)

theorem within_readGroup (ih : Reader n) (hn : 4 * cs.length + 5 ≤ n + 1) :
    Within (cs.length - 1) (readGroup (n + 1) cs) := by
  rw [readGroup]
  refine (ih.alts cs (by omega)).bind fun r rest hrest => ?_
  dsimp only
  split
  next rest =>
    rw [List.length_cons] at hrest
    exact (within_quantify r rest).mono (by omega)
  next => exact fun h => nomatch h

theorem within_readTerm (ih : Reader n) (hn : 4 * cs.length + 2 ≤ n + 1) :
    Within (cs.length - 1) (readTerm (n + 1) cs) := by
  unfold readTerm
  split
  next => exact le_rfl
  next => exact le_rfl
  next rest =>
    simp only [List.length_cons] at hn ⊢
    exact (ih.group rest (by omega)).mono (by omega)
  next => exact fun h => nomatch h
  next rest _ _ =>
    simp only [List.length_cons] at hn ⊢
    exact (ih.group rest (by omega)).mono (by omega)
  next rest =>
    refine (within_readClass (Nat.lt_succ_self rest.length)).bind fun accepts rest' hrest => ?_
    exact (within_quantify _ rest').mono (by simp only [List.length_cons]; omega)
  next rest _ =>
    refine (within_readClass (Nat.lt_succ_self rest.length)).bind fun accepts rest' hrest => ?_
    exact (within_quantify _ rest').mono (by simp only [List.length_cons]; omega)
  next rest =>
    refine (within_readEscape rest).bind fun a rest' hrest => ?_
    exact (within_quantify _ rest').mono (by simp only [List.length_cons]; omega)
  next rest => exact within_quantify _ rest
  next => exact fun h => nomatch h
  next => exact fun h => nomatch h
  next => exact fun h => nomatch h
  next => exact fun h => nomatch h
  next =>
    split
    · exact fun h => nomatch h
    · exact within_quantify _ _

theorem reader (n : ℕ) : Reader n := by
  induction n with
  | zero => constructor <;> exact fun cs hn => by omega
  | succ n ih =>
    exact ⟨fun _ => within_readAlt ih, fun _ => within_readSeq ih, fun _ => within_readTerm ih,
      fun _ => within_readGroup ih⟩

/-- The calls are enough for every source. -/
theorem compile_ne_tooDeep (source : String) : compile source ≠ .error .tooDeep := by
  have hread := (reader (4 * source.toList.length + 4)).alts source.toList le_rfl
  rw [compile]
  match readAlt (4 * source.toList.length + 4) source.toList, hread with
  | .error e, he => exact fun h => he (Except.error.inj h)
  | .ok (r, []), _ => exact fun h => nomatch h
  | .ok (r, _ :: _), _ => exact fun h => nomatch h

end Bound

/-! ### Sources that stand for themselves -/

/-- The characters that never stand for themselves. -/
def isSyntax (c : Char) : Bool :=
  ['^', '$', '\\', '.', '*', '+', '?', '(', ')', '[', '|'].contains c

variable {c : Char} {cs : List Char} {n : ℕ}

theorem dropWhile_append_stop {p : Char → Bool} (hc : p c = false) (a b : List Char) :
    (a ++ c :: b).dropWhile p = a.dropWhile p ++ c :: b := by
  induction a with
  | nil => simp [hc]
  | cons d a ih => cases hd : p d <;> simp [hd, ih]

theorem leadingDigits_append_stop (hc : c.isDigit = false) (a b : List Char) :
    leadingDigits (a ++ c :: b) = leadingDigits a := by
  unfold leadingDigits
  congr 1
  induction a with
  | nil => simp [hc]
  | cons d a ih => cases hd : d.isDigit <;> simp [hd, ih]

/-- Whether a brace makes a quantifier is decided in front of a character that is in none. -/
theorem readBraces_append (hdigit : c.isDigit = false) (hcomma : c ≠ ',') (hbrace : c ≠ '}')
    (a b : List Char) : (readBraces (a ++ c :: b)).isSome = (readBraces a).isSome := by
  unfold readBraces
  rw [leadingDigits_append_stop hdigit, dropWhile_append_stop hdigit]
  cases leadingDigits a with
  | none => rfl
  | some least =>
    match a.dropWhile Char.isDigit with
    | [] => simp [hcomma, hbrace]
    | d :: most =>
      by_cases hclose : d = '}'
      · simp [hclose]
      by_cases hsep : d = ','
      · simp only [hsep, List.cons_append, dropWhile_append_stop hdigit]
        match most.dropWhile Char.isDigit with
        | [] => simp [hbrace]
        | e :: rest => by_cases he : e = '}' <;> simp [he]
      · simp [hclose, hsep]

theorem readTerm_char (hc : isSyntax c = false) (hbraces : c = '{' → readBraces cs = none) :
    readTerm (n + 1) (c :: cs) = quantify (set fun d => d == c) cs := by
  simp only [isSyntax, List.contains_eq_mem, List.mem_cons, List.not_mem_nil, or_false,
    decide_eq_false_iff_not, not_or] at hc
  unfold readTerm
  split <;> simp_all

/-- Nothing is repeated in front of a character that makes no quantifier. -/
theorem quantify_char (r : RegExp) (hc : c ∉ ['*', '+', '?'])
    (hbraces : c = '{' → readBraces cs = none) : quantify r (c :: cs) = .ok (r, c :: cs) := by
  simp only [List.mem_cons, List.not_mem_nil, or_false, not_or] at hc
  unfold quantify
  split <;> simp_all

theorem readSeq_cons (hend : c ≠ '|' ∧ c ≠ ')') :
    readSeq (n + 1) (c :: cs) = (do
      let (r, rest) ← readTerm n (c :: cs)
      let (s, rest) ← readSeq n rest
      return (seq r s, rest)) := by
  rw [readSeq]
  · exact fun h => nomatch h
  · exact fun _ h => hend.1 (List.cons.inj h).1
  · exact fun _ h => hend.2 (List.cons.inj h).1

theorem test_iff {r : RegExp} {text : String} :
    test r text = true ↔
      ∃ ahead, ahead <:+ text.toList ∧
        r.Matches (ahead.length == text.toList.length) ahead := by
  have hends : ∀ p : Place, (!(r.ends p).isEmpty) = true ↔ r.Matches p.atStart p.ahead := by
    intro p
    rw [Bool.not_eq_true', List.isEmpty_eq_false_iff_exists_mem]
    exact exists_congr fun q => mem_ends
  simp only [test, List.any_eq_true, List.mem_tails, hends]

/-- An expression that begins with an anchor is tried from the beginning only. -/
theorem test_start_seq {r : RegExp} {text : String} :
    test (seq start r) text = true ↔ r.Matches true text.toList := by
  simp only [test_iff, matches_start_seq, beq_iff_eq]
  constructor
  · rintro ⟨ahead, hsuffix, hlen, h⟩
    rw [hsuffix.eq_of_length hlen] at h
    simpa using h
  · intro h
    exact ⟨text.toList, List.suffix_refl _, rfl, by simpa using h⟩

end IotPanel.RegExp
