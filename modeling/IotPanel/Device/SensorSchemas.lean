import IotPanel.Js.JsonSchema

/-!
# The schemas of sensor values

Each capability has a schema for the values of its sensors. The validation service looks the
schema up in a registry under the value of the capability.
-/

namespace IotPanel.Device

open JsonSchema

inductive DeviceCapabilities
  | temperature
  | humidity
  | pressure
  | light
  | motion
  | co2
  | relay
  | gps
  | ammonia
  deriving DecidableEq

def DeviceCapabilities.value : DeviceCapabilities → String
  | temperature => "temperature"
  | humidity => "humidity"
  | pressure => "pressure"
  | light => "light"
  | motion => "motion"
  | co2 => "co2"
  | relay => "relay"
  | gps => "gps"
  | ammonia => "ammonia"

/-- An object of these properties and a timestamp, and of nothing else. -/
def stamped (properties : List (String × ValueSchema)) : ObjectSchema :=
  let properties := properties ++ [("timestamp", .typed .number)]
  { required := properties.map Prod.fst, properties := properties, additionalProperties := false }

def temperatureSchema : ObjectSchema := stamped [("value", .between (-50) 100)]

def humiditySchema : ObjectSchema := stamped [("value", .between 0 100)]

def pressureSchema : ObjectSchema := stamped [("value", .between 300 1100)]

def lightSchema : ObjectSchema := stamped [("value", .between 0 100000)]

def motionSchema : ObjectSchema := stamped [("detected", .typed .boolean)]

def co2Schema : ObjectSchema := stamped [("value", .between 0 5000)]

def ammoniaSchema : ObjectSchema := stamped [("value", .between 0 500)]

def gpsSchema : ObjectSchema :=
  stamped [("latitude", .between (-90) 90), ("longitude", .between (-180) 180)]

def relayCommandSchema : ObjectSchema :=
  stamped [("state", { ValueSchema.typed .string with enum := some ["ON", "OFF"] })]

def sensorSchemaRegistry : List (String × ObjectSchema) :=
  [("temperature", temperatureSchema), ("humidity", humiditySchema),
    ("pressure", pressureSchema), ("lux", lightSchema), ("MotionSchema", motionSchema),
    ("gps", gpsSchema), ("co2", co2Schema), ("ammonia", ammoniaSchema),
    ("relay", relayCommandSchema)]

structure ValidationResult (ε : Type) where
  valid : Bool
  errors : Option ε

/-- `ValidationService.validateSensorValue` -/
def validateSensorValue {ε : Type} (ajv : Ajv ε) (type : DeviceCapabilities) (data : Json) :
    ValidationResult ε :=
  match sensorSchemaRegistry.lookup type.value with
  | none => ⟨true, none⟩
  | some schema => ⟨ajv.validate schema data, ajv.errors schema data⟩

/-- The schema that is written for the sensors of a capability. -/
def DeviceCapabilities.schema : DeviceCapabilities → ObjectSchema
  | temperature => temperatureSchema
  | humidity => humiditySchema
  | pressure => pressureSchema
  | light => lightSchema
  | motion => motionSchema
  | co2 => co2Schema
  | relay => relayCommandSchema
  | gps => gpsSchema
  | ammonia => ammoniaSchema

/-- The registry has a name of its own for the schemas of light and motion. -/
def DeviceCapabilities.Registered (c : DeviceCapabilities) : Prop := c ≠ light ∧ c ≠ motion

instance : DecidablePred DeviceCapabilities.Registered :=
  fun _ => inferInstanceAs (Decidable (_ ∧ _))

theorem lookup_registry (c : DeviceCapabilities) :
    sensorSchemaRegistry.lookup c.value = if c.Registered then some c.schema else none := by
  cases c <;> rfl

/-- A sensor value is checked against the schema of its capability if and only if the registry
has that under the value of the capability, or the check would succeed. -/
theorem validateSensorValue_iff {ε : Type} (ajv : Ajv ε) (c : DeviceCapabilities) (d : Json) :
    ((validateSensorValue ajv c d).valid = true ↔ c.schema.Satisfies d) ↔
      c.Registered ∨ c.schema.Satisfies d := by
  unfold validateSensorValue
  rw [lookup_registry]
  by_cases hc : c.Registered
  · simp [hc, ajv.validate_iff]
  · simp [hc]

/-- Any value is accepted from a light sensor. -/
theorem not_validateSensorValue_light :
    ¬ ∀ (ε : Type) (ajv : Ajv ε) (c : DeviceCapabilities) (d : Json),
      (validateSensorValue ajv c d).valid = true ↔ c.schema.Satisfies d := by
  intro h
  have hsatisfies := (h Empty .plain .light (.str "bright")).mp rfl
  cases hsatisfies.type

end IotPanel.Device
