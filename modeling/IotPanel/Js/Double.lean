import Mathlib.Data.Rat.Floor
import Mathlib.Data.Int.Log

/-!
# Numbers of the language

A number is a double: a rational of 53 binary digits, an infinity, or `NaN`. A number that is
written out is rounded to the nearest double.
-/

namespace IotPanel

/-- A number of the language. -/
inductive JsNumber
  | nan
  | negativeInfinity
  | infinity
  | finite (q : ℚ)
  deriving DecidableEq

namespace JsNumber

/-- `n < q` -/
def lt : JsNumber → ℚ → Bool
  | negativeInfinity, _ => true
  | finite p, q => p < q
  | nan, _ | infinity, _ => false

/-- `n > q` -/
def gt : JsNumber → ℚ → Bool
  | infinity, _ => true
  | finite p, q => q < p
  | nan, _ | negativeInfinity, _ => false

/-- The nearest integer, of two the even one. -/
def roundEven (q : ℚ) : ℤ :=
  let below := ⌊q⌋
  let rest := q - below
  if rest < 1 / 2 ∨ rest = 1 / 2 ∧ below % 2 = 0 then below else below + 1

/-- The place of the last of the 53 binary digits of a double of the size of `q`. No double has
a digit after place -1074. -/
def lastPlace (q : ℚ) : ℤ := max (Int.log 2 |q| - 52) (-1074)

/-- The double nearest to `q`, of two the one with the even last digit. From 2 ^ 1024 on there
are no more, and the number is an infinity. -/
def ofRational (q : ℚ) : JsNumber :=
  let unit : ℚ := 2 ^ lastPlace q
  let double := roundEven (q / unit) * unit
  if 2 ^ 1024 ≤ double then infinity
  else if double ≤ -2 ^ 1024 then negativeInfinity
  else finite double

-- of two doubles the even one is taken, above and below
example : ofRational (2 ^ 53 + 1) = finite (2 ^ 53) := by decide +kernel

example : ofRational (2 ^ 53 + 3) = finite (2 ^ 53 + 4) := by decide +kernel

-- the least double above zero, and what is rounded to zero
example : ofRational (5 / 10 ^ 324) = finite (1 / 2 ^ 1074) := by decide +kernel

example : ofRational (2 / 10 ^ 324) = finite 0 := by decide +kernel

end JsNumber

end IotPanel
