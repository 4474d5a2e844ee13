import IotPanel.Js.Exception
import IotPanel.Responser.Dto

/-!
# Validation of a response and the codes its handler checks

`transformAndValidate` tests a payload against the class of its kind and against the pending
request in the cache. Six of the handlers then compare the response code themselves.
-/

namespace IotPanel.Responser

open ClassValidator JsVal

inductive ResponseType
  | discovery
  | assign
  | ack
  | upgrade
  | heartbeat
  | reboot
  | telemetry
  | hardwareStatus
  deriving DecidableEq, Repr

namespace ResponseType

/-- The class that the listener of each kind validates against. -/
def dto (now : ℕ) : ResponseType → List Property
  | discovery => discoveryResponseDto now
  | assign => sensorFunctionalityResponseDto
  | ack => ackResponseDto
  | upgrade => fwUpgradeResponseDto
  | heartbeat => heartbeatDto now
  | reboot => deviceRebootResponseDto
  | telemetry => telemetryResponseDto
  | hardwareStatus => hardwareStatusResponseDto now

end ResponseType

/-- The comparison with what `redisCache.get` has found under the id of the request. -/
def checkCached (cached : Option Json) (payload : Json) : Except Exception Json :=
  match cached with
  | none => .error (.badRequest "Invalid request id or user id in payload")
  | some entry =>
    if (entry.get "requestId").strictEq (payload.get "requestId") &&
        (entry.get "userId").strictEq (payload.get "userId") then .ok payload
    else .error (.badRequest "Invalid id in response payload")

/-- The text of a value inside a template string. -/
def interpolate : JsVal → String
  | none => "undefined"
  | some v => v.text

def pendingKey (requestId : JsVal) : String := "pending:" ++ interpolate requestId

/-- `ListenerService.transformAndValidate`, given what the cache holds under each key. -/
def transformAndValidate (now : ℕ) (cache : String → Option Json) (t : ResponseType)
    (payload : Json) : Except Exception Json :=
  if validate (t.dto now) payload then
    checkCached (cache (pendingKey (payload.get "requestId"))) payload
  else .error (.badRequest "Invalid payload")

/-! ### Response codes -/

/-- The kinds of response whose handler checks the code. -/
inductive CodedType
  | assign
  | upgrade
  | heartbeat
  | reboot
  | telemetry
  | hardwareStatus
  deriving DecidableEq, Repr

namespace CodedType

def type : CodedType → ResponseType
  | assign => .assign
  | upgrade => .upgrade
  | heartbeat => .heartbeat
  | reboot => .reboot
  | telemetry => .telemetry
  | hardwareStatus => .hardwareStatus

/-- `ResponseMessageCode` -/
def code : CodedType → ℕ
  | assign => 201
  | upgrade => 205
  | heartbeat => 210
  | reboot => 206
  | telemetry => 212
  | hardwareStatus => 211

/-- Whether the handler goes on with a payload of this response code: the heartbeat compares
with `!=`, the others with `!==`. -/
def codeAccepted (t : CodedType) (responseCode : JsVal) : Bool :=
  match t with
  | heartbeat => responseCode.looseEqNum t.code
  | _ => responseCode.strictEq (some (.num t.code))

/-- The value is the code of the kind, as a number or as its decimal text. -/
def Denotes (t : CodedType) (v : JsVal) : Prop :=
  v = some (.num t.code) ∨ v = some (.str (toString t.code))

/-- The payload passes validation, its response code left out of account. -/
def OtherwiseWellFormed (t : CodedType) (now : ℕ) (cache : String → Option Json)
    (payload : Json) : Prop :=
  validate ((t.type.dto now).filter (·.name ≠ "responseCode")) payload = true ∧
    checkCached (cache (pendingKey (payload.get "requestId"))) payload = .ok payload

/-- A validated payload with the code of its kind is not turned away for it, and a payload that
is otherwise well formed can be given the code in a form that both accept. -/
def AgreesOnCode (t : CodedType) (now : ℕ) (cache : String → Option Json) (payload : Json) :
    Prop :=
  (transformAndValidate now cache t.type payload = .ok payload →
    t.Denotes (payload.get "responseCode") → t.codeAccepted (payload.get "responseCode") = true) ∧
  (t.OtherwiseWellFormed now cache payload →
    ∃ v, t.Denotes (some v) ∧
      transformAndValidate now cache t.type (payload.set "responseCode" v) =
        .ok (payload.set "responseCode" v) ∧
      t.codeAccepted ((payload.set "responseCode" v).get "responseCode") = true)

end CodedType

variable {now : ℕ} {cache : String → Option Json} {t : ResponseType} {payload : Json}

theorem validate_of_ok {p : Json} (h : transformAndValidate now cache t payload = .ok p) :
    validate (t.dto now) payload = true := by
  unfold transformAndValidate at h
  split at h
  · assumption
  · cases h

theorem responseCode_mem_dto : responseCodeProperty ∈ t.dto now := by
  cases t <;> simp [ResponseType.dto, discoveryResponseDto, sensorFunctionalityResponseDto,
    ackResponseDto, fwUpgradeResponseDto, heartbeatDto, deviceRebootResponseDto,
    telemetryResponseDto, hardwareStatusResponseDto]

/-- What passes validation carries its response code as text. -/
theorem responseCode_isString {p : Json} (h : transformAndValidate now cache t payload = .ok p) :
    ∃ s, payload.get "responseCode" = some (.str s) :=
  exists_str_of_isString
    (test_of_validate (validate_of_ok h) responseCode_mem_dto (by simp))

/-- The response code is declared once. -/
theorem eq_responseCodeProperty :
    ∀ p ∈ t.dto now, p.name = "responseCode" → p = responseCodeProperty := by
  cases t <;>
    simp [ResponseType.dto, discoveryResponseDto, sensorFunctionalityResponseDto, ackResponseDto,
      fwUpgradeResponseDto, heartbeatDto, deviceRebootResponseDto, telemetryResponseDto,
      hardwareStatusResponseDto, Property.required, Property.isOptional, userIdProperty,
      responseIdProperty, requestIdProperty, deviceIdProperty, timeStampProperty, uptimeProperty,
      requiredStringApiProperty, requiredNumberApiProperty, optionalStringApiProperty]

/-- A payload that passes but for its response code passes with any text as the code. -/
theorem validate_set_responseCode {w : String}
    (h : validate ((t.dto now).filter (·.name ≠ "responseCode")) payload = true) (hw : w ≠ "") :
    validate (t.dto now) (payload.set "responseCode" (.str w)) = true := by
  refine validate_set h fun p hp hname => ?_
  rw [eq_responseCodeProperty p hp hname]
  simp [responseCodeProperty, Property.required, Property.check, isString, isNotEmpty, hw]

/-- The cached request is compared with the two ids of the payload only. -/
theorem checkCached_congr {cached : Option Json} {p p' : Json}
    (h : checkCached cached p = .ok p) (hr : p'.get "requestId" = p.get "requestId")
    (hu : p'.get "userId" = p.get "userId") : checkCached cached p' = .ok p' := by
  cases cached with
  | none => cases h
  | some entry =>
    simp only [checkCached, hr, hu] at *
    split at h
    · rename_i hids
      rw [if_pos hids]
    · cases h

namespace CodedType

/-- A code in the form of a text never equals the number strictly. -/
theorem codeAccepted_str (t : CodedType) (s : String) (h : t ≠ .heartbeat) :
    t.codeAccepted (some (.str s)) = false := by
  cases t with
  | heartbeat => exact absurd rfl h
  | _ => rfl

/-- Whatever passes validation, only the heartbeat handler goes on with its code. -/
theorem codeAccepted_of_ok {t : CodedType} {p : Json} (ht : t ≠ .heartbeat)
    (h : transformAndValidate now cache t.type payload = .ok p) :
    t.codeAccepted (payload.get "responseCode") = false := by
  obtain ⟨s, hs⟩ := responseCode_isString h
  rw [hs]
  exact codeAccepted_str t s ht

theorem codeAccepted_of_denotes {v : JsVal} (h : CodedType.heartbeat.Denotes v) :
    CodedType.heartbeat.codeAccepted v = true := by
  obtain rfl | rfl := h
  · exact beq_self_eq_true (210 : ℚ)
  · show (stringToNumber "210" == .finite 210) = true
    decide +kernel

theorem otherwiseWellFormed_of_ok {t : CodedType}
    (h : transformAndValidate now cache t.type payload = .ok payload) :
    t.OtherwiseWellFormed now cache payload := by
  have hvalid := validate_of_ok h
  refine ⟨validate_filter hvalid, ?_⟩
  rwa [transformAndValidate, if_pos hvalid] at h

/-- The heartbeat handler takes the code in both forms, and validation lets the text pass. -/
theorem agreesOnCode_heartbeat (now : ℕ) (cache : String → Option Json) (payload : Json) :
    CodedType.heartbeat.AgreesOnCode now cache payload := by
  refine ⟨fun _ hcode => codeAccepted_of_denotes hcode, ?_⟩
  intro ⟨hvalid, hcached⟩
  have hdenotes : CodedType.heartbeat.Denotes (some (.str (toString 210))) := .inr rfl
  have hvalid' := validate_set_responseCode hvalid (w := toString 210) (by decide)
  have hrequest : (payload.set "responseCode" (.str (toString 210))).get "requestId" =
      payload.get "requestId" := Json.get_set_of_ne (by decide) _
  have huser : (payload.set "responseCode" (.str (toString 210))).get "userId" =
      payload.get "userId" := Json.get_set_of_ne (by decide) _
  refine ⟨.str (toString 210), hdenotes, ?_, ?_⟩
  · rw [transformAndValidate, if_pos hvalid', hrequest]
    exact checkCached_congr hcached hrequest huser
  · cases payload with
    | obj fields =>
      rw [Json.get_set_self]
      exact codeAccepted_of_denotes hdenotes
    | _ => cases hvalid

/-- Validation and handler agree on the code of the heartbeat alone: of the other kinds each
payload is turned away, by the one or by the other. -/
theorem agreesOnCode_iff (t : CodedType) (now : ℕ) (cache : String → Option Json)
    (payload : Json) :
    t.AgreesOnCode now cache payload ↔
      t = .heartbeat ∨ ¬ t.OtherwiseWellFormed now cache payload := by
  constructor
  · intro hagree
    by_contra hnot
    obtain ⟨ht, hwell⟩ := not_or.mp hnot
    obtain ⟨v, -, hok, haccepted⟩ := hagree.2 (not_not.mp hwell)
    rw [codeAccepted_of_ok ht hok] at haccepted
    cases haccepted
  · rintro (rfl | hnot)
    · exact agreesOnCode_heartbeat now cache payload
    · exact ⟨fun hok => absurd (otherwiseWellFormed_of_ok hok) hnot, fun hwell => absurd hwell hnot⟩

/-- The telemetry handler drops every telemetry response that passes validation. -/
theorem not_agreesOnCode_telemetry :
    ¬ ∀ (t : CodedType) (now : ℕ) (cache : String → Option Json) (payload : Json),
      t.AgreesOnCode now cache payload := by
  intro h
  let request : Json := .obj [("requestId", .str "r"), ("userId", .str "u")]
  let response : Json :=
    .obj [("userId", .str "u"), ("responseId", .str "x"), ("responseCode", .str "212"),
      ("requestId", .str "r"), ("deviceId", .str "esp32-1"), ("timestamp", .num 1),
      ("metric", .str "temperature"), ("value", .num 21)]
  have hok : transformAndValidate 0 (fun _ => some request) .telemetry response =
      .ok response := by
    have hvalid : validate telemetryResponseDto response = true := by decide +kernel
    rw [transformAndValidate, ResponseType.dto, if_pos hvalid]
    rfl
  exact absurd ((h .telemetry 0 (fun _ => some request) response).1 hok (.inr rfl)) (by decide)

end CodedType

end IotPanel.Responser
