import IotPanel.Js.Value

/-!
# Schemas of JSON objects

The keywords of JSON Schema that describe an object with properties that are not objects
themselves. A keyword constrains only the values that it is about: `minimum` says nothing of a
text, `required` nothing of a number.
-/

namespace IotPanel.JsonSchema

inductive JsonType
  | object
  | number
  | string
  | boolean
  deriving DecidableEq

def JsonType.accepts : JsonType → Json → Bool
  | object, .obj _ | number, .num _ | string, .str _ | boolean, .bool _ => true
  | _, _ => false

/-- The schema of a property. -/
structure ValueSchema where
  type : JsonType
  minimum : Option ℚ
  maximum : Option ℚ
  enum : Option (List String)

namespace ValueSchema

def typed (type : JsonType) : ValueSchema := ⟨type, none, none, none⟩

def between (minimum maximum : ℚ) : ValueSchema := ⟨.number, some minimum, some maximum, none⟩

structure Satisfies (s : ValueSchema) (v : Json) : Prop where
  type : s.type.accepts v = true
  minimum : ∀ m, s.minimum = some m → ∀ q, v = .num q → m ≤ q
  maximum : ∀ m, s.maximum = some m → ∀ q, v = .num q → q ≤ m
  enum : ∀ values, s.enum = some values → ∃ t ∈ values, v = .str t

def inRange (s : ValueSchema) : Json → Bool
  | .num q => s.minimum.all (· ≤ q) && s.maximum.all (q ≤ ·)
  | _ => true

def inEnum (s : ValueSchema) (v : Json) : Bool :=
  s.enum.all fun values => match v with
    | .str t => values.contains t
    | _ => false

def check (s : ValueSchema) (v : Json) : Bool := s.type.accepts v && s.inRange v && s.inEnum v

theorem inRange_iff {s : ValueSchema} {v : Json} :
    s.inRange v = true ↔ (∀ m, s.minimum = some m → ∀ q, v = .num q → m ≤ q) ∧
      ∀ m, s.maximum = some m → ∀ q, v = .num q → q ≤ m := by
  cases v with
  | num q => simp [inRange, Option.all_eq_true]
  | _ => simp [inRange]

theorem inEnum_iff {s : ValueSchema} {v : Json} :
    s.inEnum v = true ↔ ∀ values, s.enum = some values → ∃ t ∈ values, v = .str t := by
  unfold inEnum
  cases s.enum with
  | none => simp
  | some values =>
    cases v with
    | str t => simp
    | _ => simp

theorem check_iff {s : ValueSchema} {v : Json} : s.check v = true ↔ s.Satisfies v := by
  rw [check, Bool.and_eq_true, Bool.and_eq_true, inRange_iff, inEnum_iff]
  constructor
  · rintro ⟨⟨htype, hmin, hmax⟩, henum⟩
    exact ⟨htype, hmin, hmax, henum⟩
  · rintro ⟨htype, hmin, hmax, henum⟩
    exact ⟨⟨htype, hmin, hmax⟩, henum⟩

end ValueSchema

/-- A schema of `type: 'object'`. -/
structure ObjectSchema where
  required : List String
  properties : List (String × ValueSchema)
  additionalProperties : Bool

namespace ObjectSchema

/-- The object has the required properties, each of its properties satisfies its schema, and
unless additional ones are allowed each has one. -/
structure Satisfies (s : ObjectSchema) (d : Json) : Prop where
  type : JsonType.object.accepts d = true
  required : ∀ name ∈ s.required, (d.get name).isSome
  properties : ∀ p ∈ s.properties, ∀ v, d.get p.1 = some v → p.2.Satisfies v
  additional : s.additionalProperties = false →
    ∀ name, (d.get name).isSome → ∃ p ∈ s.properties, p.1 = name

def check (s : ObjectSchema) : Json → Bool
  | .obj fields =>
    s.required.all (fun name => ((Json.obj fields).get name).isSome) &&
      s.properties.all (fun p => ((Json.obj fields).get p.1).all p.2.check) &&
      (s.additionalProperties || fields.all fun f => s.properties.any fun p => p.1 = f.1)
  | _ => false

theorem get_isSome_iff {fields : List (String × Json)} {name : String} :
    ((Json.obj fields).get name).isSome ↔ ∃ f ∈ fields, f.1 = name := by
  unfold Json.get
  rw [List.lookup_isSome_iff]
  simp

theorem check_iff {s : ObjectSchema} {d : Json} : s.check d = true ↔ s.Satisfies d := by
  cases d with
  | obj fields =>
    simp only [check, Bool.and_eq_true, Bool.or_eq_true, List.all_eq_true, List.any_eq_true,
      decide_eq_true_eq]
    constructor
    · rintro ⟨⟨hrequired, hproperties⟩, hadditional⟩
      refine ⟨rfl, hrequired, fun p hp v hv => ?_, fun hnone name hname => ?_⟩
      · have hcheck := hproperties p hp
        rw [hv] at hcheck
        exact ValueSchema.check_iff.mp hcheck
      · obtain ⟨f, hf, rfl⟩ := get_isSome_iff.mp hname
        exact hadditional.resolve_left (by simp [hnone]) f hf
    · rintro ⟨-, hrequired, hproperties, hadditional⟩
      refine ⟨⟨hrequired, fun p hp => ?_⟩, ?_⟩
      · cases hv : (Json.obj fields).get p.1 with
        | none => rfl
        | some v => exact ValueSchema.check_iff.mpr (hproperties p hp v hv)
      · by_cases hallowed : s.additionalProperties = true
        · exact .inl hallowed
        · refine .inr fun f hf => ?_
          exact hadditional (by simpa using hallowed) f.1 (get_isSome_iff.mpr ⟨f, hf, rfl⟩)
  | _ =>
    refine ⟨fun h => (nomatch h), fun h => ?_⟩
    cases h.type

end ObjectSchema

/-- A validator of schemas: what it says of a value, and the errors that it leaves. -/
structure Ajv (ε : Type) where
  validate : ObjectSchema → Json → Bool
  errors : ObjectSchema → Json → Option ε
  validate_iff : ∀ s d, validate s d = true ↔ s.Satisfies d

/-- The validator that checks keyword by keyword and explains nothing. -/
def Ajv.plain : Ajv Empty where
  validate := ObjectSchema.check
  errors _ _ := none
  validate_iff _ _ := ObjectSchema.check_iff

end IotPanel.JsonSchema
