import IotPanel.Js.Double
import IotPanel.Lib.Text

/-!
# JSON values and the operators the program applies to them

A value read from a request body, an MQTT payload or a cache entry is a
`JsVal`: `none` is `undefined`. The numbers among them are finite.
-/

namespace IotPanel

inductive Json
  | null
  | bool (b : Bool)
  | num (n : ℚ)
  | str (s : String)
  | arr (xs : List Json)
  | obj (fields : List (String × Json))

/-- A value of the language; `none` is `undefined`. -/
abbrev JsVal := Option Json

namespace Json

/-- Property access on a parsed object. A value that is not an object has none of the
properties the program asks for. -/
def get : Json → String → JsVal
  | .obj fields, key => fields.lookup key
  | _, _ => none

/-- No value is a property of itself. -/
theorem get_ne_self (j : Json) (key : String) : j.get key ≠ some j := by
  cases j with
  | obj fields =>
    intro h
    obtain ⟨pre, post, hfields, -⟩ := List.lookup_eq_some_iff.mp h
    have hmem : (key, obj fields) ∈ fields := by
      have hmem : (key, obj fields) ∈ pre ++ (key, obj fields) :: post := by simp
      rwa [← hfields] at hmem
    have hlt := List.sizeOf_lt_of_mem hmem
    simp only [Prod.mk.sizeOf_spec, Json.obj.sizeOf_spec] at hlt
    omega
  | _ => rintro ⟨⟩

/-- The object with property `key` set to `v`, the others unchanged. -/
def set : Json → String → Json → Json
  | .obj fields, key, v => .obj ((key, v) :: fields.filter fun f => f.1 ≠ key)
  | j, _, _ => j

/-- `typeof v === 'object'`, for a value other than `null`. -/
def isObjectType : Json → Bool
  | .arr _ | .obj _ => true
  | _ => false

theorem get_set_self (fields : List (String × Json)) (key : String) (v : Json) :
    ((obj fields).set key v).get key = some v := by
  simp [set, get]

theorem get_set_of_ne {j : Json} {key key' : String} (h : key' ≠ key) (v : Json) :
    (j.set key v).get key' = j.get key' := by
  cases j with
  | obj fields =>
    have hne : (key' == key) = false := by simpa using h
    simp only [set, get, List.lookup_cons, hne]
    induction fields with
    | nil => rfl
    | cons f fs ih =>
      obtain ⟨k, w⟩ := f
      by_cases hk : k = key
      · subst hk
        simpa [List.lookup_cons, hne] using ih
      · by_cases hk' : key' = k
        · subst hk'
          simp [hk]
        · have : (key' == k) = false := by simpa using hk'
          simpa [List.lookup_cons, hk, this] using ih
  | _ => rfl

/-- The decimal digits of the fraction `q < 1`, as long as there are some. -/
def fractionDigits : ℕ → ℚ → List Char
  | 0, _ => []
  | fuel + 1, q =>
    if q = 0 then []
    else (Nat.digitChar ⌊10 * q⌋.toNat) :: fractionDigits fuel (10 * q - ⌊10 * q⌋)

/-- The text of a number, written out without an exponent. -/
def numberText (n : ℚ) : String :=
  let whole := ⌊|n|⌋
  let fraction := fractionDigits 17 (|n| - whole)
  (if n < 0 then "-" else "") ++ toString whole ++
    (if fraction = [] then "" else "." ++ String.ofList fraction)

mutual

/-- `xs.join(separator)`, in which `null` is the empty text. -/
def joinText (separator : String) : List Json → String
  | [] => ""
  | [x] => elementText x
  | x :: y :: xs => elementText x ++ separator ++ joinText separator (y :: xs)

def elementText : Json → String
  | null => ""
  | bool b => if b then "true" else "false"
  | num n => numberText n
  | str s => s
  | arr xs => joinText "," xs
  | obj _ => "[object Object]"

end

/-- `String(v)` -/
def text : Json → String
  | null => "null"
  | v => elementText v

end Json

namespace JsVal

/-- `v === w`. Two parsed objects or arrays are never the same reference. -/
def strictEq : JsVal → JsVal → Bool
  | none, none => true
  | some .null, some .null => true
  | some (.bool a), some (.bool b) => a == b
  | some (.num a), some (.num b) => a == b
  | some (.str a), some (.str b) => a == b
  | _, _ => false

/-- Whether the value counts as true in a condition. -/
def truthy : JsVal → Bool
  | none | some .null => false
  | some (.bool b) => b
  | some (.num n) => n != 0
  | some (.str s) => s != ""
  | some (.arr _) | some (.obj _) => true

def isNullish : JsVal → Bool
  | none | some .null => true
  | _ => false

/-! ### Conversion of strings to numbers -/

/-- White space and line terminators, which the conversion trims. -/
def isSpace (c : Char) : Bool :=
  [9, 10, 11, 12, 13, 32, 0xA0, 0x1680, 0x2028, 0x2029, 0x202F, 0x205F, 0x3000, 0xFEFF].contains
    c.toNat || (0x2000 ≤ c.toNat && c.toNat ≤ 0x200A)

def trim (s : List Char) : List Char :=
  ((s.dropWhile isSpace).reverse.dropWhile isSpace).reverse

def digitValue (c : Char) : ℕ :=
  if c.isDigit then c.toNat - '0'.toNat
  else if 'a' ≤ c && c ≤ 'z' then c.toNat - 'a'.toNat + 10
  else if 'A' ≤ c && c ≤ 'Z' then c.toNat - 'A'.toNat + 10
  else 36

/-- The natural number that a non-empty run of digits of the given base denotes. -/
def natOfDigits (base : ℕ) (ds : List Char) : Option ℕ :=
  if ds ≠ [] ∧ ds.all fun c => digitValue c < base then
    some (ds.foldl (fun n c => n * base + digitValue c) 0)
  else none

/-- The exponent after the mantissa: absent, or `e` with an optionally signed number. -/
def exponentOf : List Char → Option ℤ
  | [] => some 0
  | 'e' :: '-' :: ds | 'E' :: '-' :: ds => (natOfDigits 10 ds).map fun n => -n
  | 'e' :: '+' :: ds | 'E' :: '+' :: ds => (natOfDigits 10 ds).map fun n => n
  | 'e' :: ds | 'E' :: ds => (natOfDigits 10 ds).map fun n => n
  | _ => none

def unsignedDecimal (s : List Char) : Option ℚ :=
  let (whole, rest) := s.span Char.isDigit
  let (frac, rest) := match rest with
    | '.' :: rest => rest.span Char.isDigit
    | _ => ([], rest)
  match natOfDigits 10 (whole ++ frac), exponentOf rest with
  | some n, some e =>
    let shift := e - frac.length
    some (if 0 ≤ shift then n * 10 ^ shift.toNat else n / 10 ^ (-shift).toNat)
  | _, _ => none

def rounded (q : Option ℚ) : JsNumber := q.elim .nan .ofRational

/-- `Number(s)`. What is written out is rounded to a double. -/
def stringToNumber (s : String) : JsNumber :=
  match String.ofList (trim s.toList) with
  | "" => .finite 0
  | "Infinity" | "+Infinity" => .infinity
  | "-Infinity" => .negativeInfinity
  | t => match t.toList with
    | '0' :: 'x' :: ds | '0' :: 'X' :: ds => rounded ((natOfDigits 16 ds).map fun n => n)
    | '0' :: 'o' :: ds | '0' :: 'O' :: ds => rounded ((natOfDigits 8 ds).map fun n => n)
    | '0' :: 'b' :: ds | '0' :: 'B' :: ds => rounded ((natOfDigits 2 ds).map fun n => n)
    | '-' :: ds => rounded ((unsignedDecimal ds).map fun q => -q)
    | '+' :: ds => rounded (unsignedDecimal ds)
    | ds => rounded (unsignedDecimal ds)

/-- `v == n` for a number `n`. An array or object is converted through its text, which the
validators of the program never let through to such a comparison. -/
def looseEqNum : JsVal → ℚ → Bool
  | some (.num m), n => m == n
  | some (.str s), n => stringToNumber s == .finite n
  | some (.bool b), n => (if b then 1 else 0) == n
  | _, _ => false

example : stringToNumber " 2.1e2 " = .finite 210 := by decide +kernel

-- the seventeenth place after the point is beyond the last one of a double of this size
example : stringToNumber "210.00000000000000001" = .finite 210 := by decide +kernel

end JsVal

end IotPanel
