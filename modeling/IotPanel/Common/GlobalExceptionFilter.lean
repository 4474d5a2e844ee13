import IotPanel.Js.Number
import IotPanel.Lib.Tree

/-!
# The answer to an exception

`GlobalExceptionFilter` sees every exception that a request ends with. It tests the class of the
exception, one class after another, and each branch sets some of the four variables that the
answer and the log entry are made of.
-/

namespace IotPanel.Common

open JsVal (strictEq truthy)

/-! ### What is thrown -/

structure BaseExceptionDefinition where
  code : String
  message : String
  logMessage : String

/-- `EXCEPTIONS` -/
def exceptions : List BaseExceptionDefinition :=
  [⟨"PASSWORDS_DO_NOT_MATCH", "Passwords do not match",
      "Password confirmation does not match the new password"⟩,
    ⟨"INVALID_REQUEST", "Invalid request", "Invalid request received from client"⟩,
    ⟨"INVALID_CREDENTIALS", "Invalid credentials",
      "Authentication failed due to invalid credentials"⟩,
    ⟨"USER_NOT_FOUND", "User not found", "User lookup failed because the user does not exist"⟩,
    ⟨"EMAIL_ALREADY_EXISTS", "Email already exists",
      "Registration attempted with an existing email"⟩,
    ⟨"ACCESS_DENIED", "Access denied", "User attempted to access a forbidden resource"⟩,
    ⟨"ENCRYPTION_FAILED", "Encryption failed", "The encryption method failed"⟩,
    ⟨"SESSION_ESTABLISH_FAILED", "Session establishment failed",
      "Failed to establish a new session"⟩,
    ⟨"SESSION_VALIDATION_FAILED", "Session validation failed",
      "Failed to validate the session"⟩,
    ⟨"SESSION_DESTROY_FAILED", "Session destruction failed", "Failed to destroy the session"⟩,
    ⟨"SESSION_EXTENSION_FAILED", "Session extension failed", "Failed to extend the session"⟩,
    ⟨"SESSION_INVALIDATION_FAILED", "Session invalidation failed",
      "Failed to invalidate user sessions"⟩,
    ⟨"SESSION_RETRIEVE_FAILED", "Session retrieval failed", "Failed to retrieve session data"⟩]

/-- One of the definitions of the table; the type admits no other. -/
structure ExceptionDefinition extends BaseExceptionDefinition where
  listed : toBaseExceptionDefinition ∈ exceptions

/-- A member of the enumeration of the statuses, all of which have three digits. -/
structure HttpStatus where
  value : ℕ
  threeDigits : 100 ≤ value ∧ value ≤ 999

/-- What `getResponse` and `getStatus` return. -/
structure HttpException where
  response : JsVal
  status : JsNumber

/-- The class of an error, as far as the filter tells it, with the fields of that class.
`httpException` stands for all other classes of HTTP exceptions and `error` for all other
errors. -/
inductive ErrorClass
  | appException (definition : ExceptionDefinition) (status : HttpStatus)
  | badRequestException (response : JsVal)
  | httpException (e : HttpException)
  | queryFailedError (driverError : JsVal)
  | mongoServerError (code : JsVal)
  | error

structure ErrorFields where
  name : String
  message : String
  stack : Option String

/-- Whatever is thrown: an error, or any value at all. -/
inductive Thrown
  | error (fields : ErrorFields) (cls : ErrorClass)
  | value (v : JsVal)

namespace Thrown

/-- `exception instanceof AppException`, with the fields that the class has. -/
def asAppException : Thrown → Option (ExceptionDefinition × HttpStatus)
  | error _ (.appException definition status) => some (definition, status)
  | _ => none

/-- `exception instanceof BadRequestException`, with the response. -/
def asBadRequestException : Thrown → Option JsVal
  | error _ (.badRequestException response) => some response
  | _ => none

/-- `exception instanceof QueryFailedError`, with `driverError`. -/
def asQueryFailedError : Thrown → Option JsVal
  | error _ (.queryFailedError driverError) => some driverError
  | _ => none

/-- `exception instanceof MongoServerError`, with the error as an object. -/
def asMongoServerError : Thrown → Option JsVal
  | error fields (.mongoServerError code) =>
    some (some (.obj (("message", .str fields.message) :: code.elim [] fun c => [("code", c)])))
  | _ => none

/-- `exception instanceof HttpException`, which both an `AppException` and a
`BadRequestException` are. -/
def asHttpException : Thrown → Option HttpException
  | error _ (.appException definition status) =>
    some ⟨some (.obj [("code", .str definition.code), ("message", .str definition.message)]),
      .finite status.value⟩
  | error _ (.badRequestException response) => some ⟨response, .finite 400⟩
  | error _ (.httpException e) => some e
  | _ => none

/-- `exception instanceof Error` -/
def asError : Thrown → Option ErrorFields
  | error fields _ => some fields
  | value _ => none

/-- An HTTP exception that is neither an `AppException` nor a `BadRequestException`. -/
def asOtherHttpException (exception : Thrown) : Option HttpException :=
  if exception.asAppException.isSome || exception.asBadRequestException.isSome then none
  else exception.asHttpException

theorem asOtherHttpException_eq_some_iff {exception : Thrown} {e : HttpException} :
    exception.asOtherHttpException = some e ↔
      ∃ fields, exception = error fields (.httpException e) := by
  constructor
  · intro h
    cases exception with
    | error fields cls =>
      cases cls with
      | httpException e' =>
        obtain rfl : e' = e := Option.some.inj h
        exact ⟨fields, rfl⟩
      | _ => cases h
    | value v => cases h
  · rintro ⟨fields, rfl⟩
    rfl

end Thrown

/-! ### The message -/

mutual

def formatValidationItem : Json → List String
  | .str s => [s]
  | .arr items => formatItems items
  | .obj fields => formatValues fields
  | .null | .bool _ | .num _ => []

/-- `items.flatMap(formatValidationItem)` -/
def formatItems : List Json → List String
  | [] => []
  | item :: items => formatValidationItem item ++ formatItems items

/-- `Object.values(obj).flatMap(formatValidationItem)` -/
def formatValues : List (String × Json) → List String
  | [] => []
  | (_, value) :: fields => formatValidationItem value ++ formatValues fields

end

/-- The text of a message that is an array or a string. -/
def messageText : JsVal → Option String
  | some (.arr items) => some ("; ".intercalate (items.flatMap formatValidationItem))
  | some (.str s) => some s
  | _ => none

def extractValidationMessage (responseBody : JsVal) : Option String :=
  match responseBody with
  | some body => if body.isObjectType then messageText (body.get "message") else none
  | none => none

def extractHttpExceptionMessage (responseBody : JsVal) : Option String :=
  if truthy responseBody then
    match responseBody with
    | some (.str s) => some s
    | some body =>
      if body.isObjectType then
        let message := body.get "message"
        messageText (if message.isNullish then body.get "error" else message)
      else none
    | none => none
  else none

def extractMongoErrorMessage (error : JsVal) : Option String :=
  match error with
  | some body =>
    match body.get "message" with
    | some (.str message) => some message
    | _ => none
  | none => none

/-! ### The filter -/

/-- The four variables that the branches set. -/
structure Description where
  status : JsNumber := .finite 500
  code : String := "INTERNAL_SERVER_ERROR"
  message : String := "Internal server error"
  logMessage : String := "Unhandled exception"

/-- The branch of the database errors. -/
def describeDatabaseError (dbError : JsVal) : Description :=
  if strictEq (dbError.bind (·.get "code")) (some (.num 11000)) then
    { status := .finite 409
      code := "DATABASE_DUPLICATE_KEY"
      message := (extractMongoErrorMessage dbError).getD "Duplicate key error"
      logMessage := "Database duplicate key error" }
  else
    { status := .finite 400
      code := "DATABASE_ERROR"
      message := (extractMongoErrorMessage dbError).getD "Database operation failed"
      logMessage := "Database error" }

/-- `${n}` -/
def numberText : JsNumber → String
  | .nan => "NaN"
  | .negativeInfinity => "-Infinity"
  | .infinity => "Infinity"
  | .finite q => Json.numberText q

/-- The tests of `catch`, in their order. -/
def describe (exception : Thrown) : Description :=
  let unhandled : Description := {}
  if let some (definition, status) := exception.asAppException then
    { status := .finite status.value
      code := definition.code
      message := definition.message
      logMessage := definition.logMessage }
  else if let some response := exception.asBadRequestException then
    { status := .finite 400
      code := "VALIDATION_ERROR"
      message := (extractValidationMessage response).getD "Validation failed"
      logMessage := "Validation failed" }
  else if let some driverError := exception.asQueryFailedError then
    describeDatabaseError driverError
  else if let some dbError := exception.asMongoServerError then
    describeDatabaseError dbError
  else if let some e := exception.asHttpException then
    -- the code is not set
    { unhandled with
      status := e.status
      message := (extractHttpExceptionMessage e.response).getD unhandled.message
      logMessage := "HTTP " ++ numberText e.status ++ " exception" }
  else if let some fields := exception.asError then
    { unhandled with
      message := if fields.message ≠ "" then fields.message else unhandled.message
      logMessage := fields.name }
  else unhandled

section Branches

variable (fields : ErrorFields)

theorem describe_appException (definition : ExceptionDefinition) (status : HttpStatus) :
    describe (.error fields (.appException definition status)) =
      { status := .finite status.value, code := definition.code, message := definition.message,
        logMessage := definition.logMessage } :=
  rfl

theorem describe_badRequestException (response : JsVal) :
    describe (.error fields (.badRequestException response)) =
      { status := .finite 400, code := "VALIDATION_ERROR",
        message := (extractValidationMessage response).getD "Validation failed",
        logMessage := "Validation failed" } :=
  rfl

/-- The other HTTP exceptions keep the code of an internal error, whatever their status is. -/
theorem describe_httpException (e : HttpException) :
    describe (.error fields (.httpException e)) =
      { status := e.status, code := "INTERNAL_SERVER_ERROR",
        message := (extractHttpExceptionMessage e.response).getD "Internal server error",
        logMessage := "HTTP " ++ numberText e.status ++ " exception" } :=
  rfl

/-- Neither answer to a database error has the code or the status of an internal error. -/
theorem describeDatabaseError_cases (dbError : JsVal) :
    (describeDatabaseError dbError).code ≠ "INTERNAL_SERVER_ERROR" ∧
      ((describeDatabaseError dbError).status = .finite 409 ∨
        (describeDatabaseError dbError).status = .finite 400) := by
  rw [describeDatabaseError]
  split
  · exact ⟨by simp, Or.inl rfl⟩
  · exact ⟨by simp, Or.inr rfl⟩

end Branches

structure Request where
  method : String
  url : String

/-- The process: `NODE_ENV`, and the text of the time. -/
structure Environment where
  nodeEnv : Option String
  now : String

/-- Apart from the small letters only the dotless i becomes a letter of `PRODUCTION`. -/
def upperCase (c : Char) : Char := if c = 'ı' then 'I' else c.toUpper

def Environment.isProductionEnvironment (env : Environment) : Bool :=
  env.nodeEnv.any fun s => s.toList.map upperCase = "PRODUCTION".toList

structure LogEntry where
  code : String
  message : String
  statusCode : JsNumber
  method : String
  path : String
  stack : Option String

structure Payload where
  statusCode : JsNumber
  code : String
  message : String
  timestamp : String
  path : String
  stack : Option String

/-- A status line with its body. -/
structure Response where
  status : JsNumber
  payload : Payload

/-- `response.status` of the server: it throws for what it does not accept as a status, and
accepts all numbers with three digits. -/
structure Server where
  accepts : JsNumber → Bool
  accepts_threeDigits : ∀ n : ℕ, 100 ≤ n → n ≤ 999 → accepts (.finite n) = true

/-- A server that accepts nothing but whole numbers with three digits. -/
def Server.strict : Server where
  accepts
    | .finite q => q.den = 1 && 100 ≤ q && q ≤ 999
    | _ => false
  accepts_threeDigits n hlow hhigh := by
    have hlow' : (100 : ℚ) ≤ n := by exact_mod_cast hlow
    have hhigh' : (n : ℚ) ≤ 999 := by exact_mod_cast hhigh
    simp [hlow', hhigh']

structure Outcome where
  log : LogEntry
  sent : List Response

/-- `GlobalExceptionFilter.catch` -/
def catchException (server : Server) (env : Environment) (request : Request)
    (exception : Thrown) : Outcome :=
  let d := describe exception
  let stack := exception.asError.bind (·.stack)
  let log : LogEntry :=
    { code := d.code, message := d.logMessage, statusCode := d.status, method := request.method,
      path := request.url, stack := stack }
  let payload : Payload :=
    { statusCode := d.status, code := d.code, message := d.message, timestamp := env.now,
      path := request.url,
      stack := if env.isProductionEnvironment then none else stack.filter (· ≠ "") }
  { log := log, sent := if server.accepts d.status then [⟨d.status, payload⟩] else [] }

end IotPanel.Common
