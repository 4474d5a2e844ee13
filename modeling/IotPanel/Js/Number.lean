import IotPanel.Js.Value
import Mathlib.Data.List.TakeWhile

/-!
# Conversion to numbers

What the relational operators make of a value that stands beside a number, and the integers
that `parseInt` reads.
-/

namespace IotPanel

namespace JsVal

/-- `Number(v)`. An array or object is converted through its text. -/
def toNumber : JsVal → JsNumber
  | none => .nan
  | some .null => .finite 0
  | some (.bool b) => .finite (if b then 1 else 0)
  | some (.num n) => .finite n
  | some (.str s) => stringToNumber s
  | some (.arr xs) => stringToNumber (Json.arr xs).text
  | some (.obj fields) => stringToNumber (Json.obj fields).text

/-- The digits at the start of a text, as a number. -/
def leadingDigits (s : List Char) : Option ℕ := natOfDigits 10 (s.takeWhile Char.isDigit)

/-- `parseInt(s, 10)`; `none` is `NaN`. What follows the digits is not read, and the zero that
comes of `-0` is no other number. Beyond the integers that a double has, the result is the one
before rounding. -/
def parseInt (s : String) : Option ℤ :=
  match s.toList.dropWhile isSpace with
  | '-' :: ds => (leadingDigits ds).map fun n => -n
  | '+' :: ds => (leadingDigits ds).map fun n => n
  | ds => (leadingDigits ds).map fun n => n

theorem isSpace_of_isDigit {c : Char} (h : c.isDigit = true) : isSpace c = false := by
  simp only [Char.isDigit, Bool.and_eq_true, decide_eq_true_eq, ge_iff_le] at h
  have hlow : 48 ≤ c.toNat := h.1
  have hhigh : c.toNat ≤ 57 := h.2
  have hhere : c.toNat ∉ [9, 10, 11, 12, 13, 32, 0xA0, 0x1680, 0x2028, 0x2029, 0x202F, 0x205F,
      0x3000, 0xFEFF] := by
    simp only [List.mem_cons, List.not_mem_nil, or_false]
    omega
  have hbelow : ¬ 0x2000 ≤ c.toNat := by omega
  simp only [isSpace, List.contains_eq_mem, hhere, hbelow, decide_false, Bool.false_and,
    Bool.or_false]

/-- A text of digits is read as a whole. -/
theorem parseInt_of_digits {s : String} (h : ∀ c ∈ s.toList, c.isDigit = true) :
    parseInt s = (natOfDigits 10 s.toList).map fun n => (n : ℤ) := by
  have hwhole : leadingDigits s.toList = natOfDigits 10 s.toList := by
    rw [leadingDigits, List.takeWhile_eq_self_iff.mpr h]
  unfold parseInt
  cases hs : s.toList with
  | nil => rfl
  | cons c ds =>
    rw [hs] at h hwhole
    have hc := h c List.mem_cons_self
    rw [List.dropWhile_cons_of_neg (by simp [isSpace_of_isDigit hc])]
    split
    · -- neither sign is a digit
      next heq => cases heq; exact absurd hc (by decide)
    · next heq => cases heq; exact absurd hc (by decide)
    · rw [hwhole]

/-- `v || w` -/
def orDefault (v w : JsVal) : JsVal := if v.truthy then v else w

end JsVal

end IotPanel
