import IotPanel.Js.Value

/-!
# Class validation

A class is validated property by property: each property has the tests of its decorators, and
an optional one is not tested when it is missing. Values are not converted.
-/

namespace IotPanel.ClassValidator

def isString : JsVal → Bool
  | some (.str _) => true
  | _ => false

/-- `IsNotEmpty`: neither the empty string nor missing. -/
def isNotEmpty : JsVal → Bool
  | none | some .null => false
  | some (.str s) => s != ""
  | _ => true

def isNumber : JsVal → Bool
  | some (.num _) => true
  | _ => false

def isBoolean : JsVal → Bool
  | some (.bool _) => true
  | _ => false

def isArray : JsVal → Bool
  | some (.arr _) => true
  | _ => false

def isObject : JsVal → Bool
  | some (.obj _) => true
  | _ => false

/-- `IsEnum`, for an enumeration of strings. -/
def isEnum (values : List String) : JsVal → Bool
  | some (.str s) => values.contains s
  | _ => false

/-- A property with the tests of its decorators. -/
structure Property where
  name : String
  optional : Bool
  tests : List (JsVal → Bool)

namespace Property

def required (name : String) (tests : List (JsVal → Bool)) : Property := ⟨name, false, tests⟩

def isOptional (name : String) (tests : List (JsVal → Bool)) : Property := ⟨name, true, tests⟩

def check (p : Property) (v : JsVal) : Bool :=
  (p.optional && v.isNullish) || p.tests.all fun test => test v

end Property

/-- A class is its decorated properties. A value that is not an object fails as a whole. -/
def validate (props : List Property) : Json → Bool
  | .obj fields => props.all fun p => p.check ((Json.obj fields).get p.name)
  | _ => false

/-- `ValidateNested`: an object is validated against its class, an array element by element,
and what is missing passes, but not as an element of an array. -/
def validateNested (props : List Property) : JsVal → Bool
  | none | some .null => true
  | some v => nested v
where
  nested : Json → Bool
    | .arr xs => nestedAll xs
    | .obj fields => validate props (.obj fields)
    | _ => false
  nestedAll : List Json → Bool
    | [] => true
    | x :: xs => nested x && nestedAll xs

variable {props : List Property} {v : Json}

/-- What passes has an acceptable value for each property. -/
theorem check_of_validate {p : Property} (h : validate props v = true) (hp : p ∈ props) :
    p.check (v.get p.name) = true := by
  cases v with
  | obj fields => exact List.all_eq_true.mp h p hp
  | _ => cases h

theorem test_of_validate {name : String} {tests : List (JsVal → Bool)} {test : JsVal → Bool}
    (h : validate props v = true) (hp : .required name tests ∈ props) (ht : test ∈ tests) :
    test (v.get name) = true := by
  have hcheck := check_of_validate h hp
  simp only [Property.required, Property.check, Bool.false_and, Bool.false_or] at hcheck
  exact List.all_eq_true.mp hcheck test ht

theorem validate_filter {keep : Property → Bool} (h : validate props v = true) :
    validate (props.filter keep) v = true := by
  cases v with
  | obj fields =>
    exact List.all_eq_true.mpr fun p hp => check_of_validate h (List.mem_of_mem_filter hp)
  | _ => cases h

/-- Only the value of the changed property has to be tested again. -/
theorem validate_set {name : String} {w : Json} (h : validate (props.filter (·.name ≠ name)) v = true)
    (hw : ∀ p ∈ props, p.name = name → p.check (some w) = true) :
    validate props (v.set name w) = true := by
  cases v with
  | obj fields =>
    refine List.all_eq_true.mpr fun p hp => ?_
    by_cases hname : p.name = name
    · rw [hname]
      change p.check (((Json.obj fields).set name w).get name) = true
      rw [Json.get_set_self]
      exact hw p hp hname
    · change p.check (((Json.obj fields).set name w).get p.name) = true
      rw [Json.get_set_of_ne hname]
      exact List.all_eq_true.mp h p (List.mem_filter.mpr ⟨hp, by simpa using hname⟩)
  | _ => cases h

theorem exists_str_of_isString {x : JsVal} (h : isString x = true) : ∃ s, x = some (.str s) := by
  cases x with
  | none => cases h
  | some j =>
    cases j with
    | str s => exact ⟨s, rfl⟩
    | _ => cases h

end IotPanel.ClassValidator
