import IotPanel.Common.GlobalExceptionFilter

/-!
# Self-consistent error responses

An error response is consistent where its status is that of the exception, its code admits to an
internal error only under the status 500, and its message names every text that the exception
collected. Every branch of the filter but one answers so; the branch of the remaining HTTP
exceptions leaves the code as it was.
-/

namespace IotPanel.Common

/-! ### Listing the texts of a message -/

/-- The elements of an array, or `Object.values`. -/
def nested : Json → List Json
  | .arr items => items
  | .obj fields => fields.map (·.2)
  | _ => []

def stringLeaf : Json → Option String
  | .str s => some s
  | _ => none

theorem formatItems_eq (items : List Json) :
    formatItems items = items.flatMap formatValidationItem := by
  induction items with
  | nil => rfl
  | cons item items ih => rw [formatItems, ih, List.flatMap_cons]

theorem formatValues_eq (fields : List (String × Json)) :
    formatValues fields = (fields.map (·.2)).flatMap formatValidationItem := by
  induction fields with
  | nil => rfl
  | cons field fields ih => rw [formatValues, ih, List.map_cons, List.flatMap_cons]

mutual

/-- The recursion lists the texts of an item, at any depth, from left to right. -/
theorem isListing_formatValidationItem (item : Json) :
    Tree.IsListing nested stringLeaf item (formatValidationItem item) := by
  cases item with
  | str s => exact Tree.IsListing.of_leaf rfl rfl
  | arr items =>
    rw [formatValidationItem, formatItems_eq]
    exact Tree.IsListing.of_children rfl (isListing_of_mem_items items)
  | obj fields =>
    rw [formatValidationItem, formatValues_eq]
    exact Tree.IsListing.of_children rfl (isListing_of_mem_fields fields)
  | null | bool _ | num _ => exact Tree.IsListing.of_childless rfl rfl

theorem isListing_of_mem_items (items : List Json) :
    ∀ item ∈ items, Tree.IsListing nested stringLeaf item (formatValidationItem item) := by
  cases items with
  | nil => exact fun item h => absurd h List.not_mem_nil
  | cons first items =>
    have hfirst := isListing_formatValidationItem first
    have hitems := isListing_of_mem_items items
    exact List.forall_mem_cons.mpr ⟨hfirst, hitems⟩

theorem isListing_of_mem_fields (fields : List (String × Json)) :
    ∀ item ∈ fields.map (·.2),
      Tree.IsListing nested stringLeaf item (formatValidationItem item) := by
  cases fields with
  | nil => exact fun item h => absurd h List.not_mem_nil
  | cons field fields =>
    obtain ⟨name, value⟩ := field
    have hvalue := isListing_formatValidationItem value
    have hfields := isListing_of_mem_fields fields
    exact List.forall_mem_cons.mpr ⟨hvalue, hfields⟩

end

/-- No other list than the one computed is a listing of the texts. -/
theorem isListing_iff (item : Json) (texts : List String) :
    Tree.IsListing nested stringLeaf item texts ↔ texts = formatValidationItem item := by
  constructor
  · intro h
    exact Enumerates.unique h (isListing_formatValidationItem item)
  · rintro rfl
    exact isListing_formatValidationItem item

/-! ### What a response has to say -/

/-- The HTTP status of the exception itself. Only HTTP exceptions have one. -/
def ownStatus (exception : Thrown) : Option JsNumber := exception.asHttpException.map (·.status)

/-- The `message` of the body of an HTTP exception. -/
def bodyMessage (exception : Thrown) : JsVal :=
  exception.asHttpException.bind fun e => e.response.bind (·.get "message")

structure Consistent (exception : Thrown) (r : Response) : Prop where
  statusCode : r.payload.statusCode = r.status
  status : ∀ s, ownStatus exception = some s → r.status = s
  code : r.payload.code = "INTERNAL_SERVER_ERROR" → r.status = .finite 500
  message : ∀ items, bodyMessage exception = some (.arr items) →
    ∃ texts, Tree.IsListing nested stringLeaf (.arr items) texts ∧
      r.payload.message = "; ".intercalate texts

/-- A single response is sent, and it is consistent. -/
def ConsistentlyAnswered (exception : Thrown) (o : Outcome) : Prop :=
  ∃ r, o.sent = [r] ∧ Consistent exception r

/-! ### The variables of the filter -/

variable {exception : Thrown}

/-- No definition takes the code of an internal error. -/
theorem code_ne_of_listed (definition : ExceptionDefinition) :
    definition.code ≠ "INTERNAL_SERVER_ERROR" := by
  have hall : ∀ d ∈ exceptions, d.code ≠ "INTERNAL_SERVER_ERROR" := by decide
  exact hall definition.toBaseExceptionDefinition definition.listed

theorem describe_status {s : JsNumber} (h : ownStatus exception = some s) :
    (describe exception).status = s := by
  cases exception with
  | error fields cls =>
    cases cls with
    | appException _ _ | badRequestException _ | httpException _ => exact Option.some.inj h
    | queryFailedError _ | mongoServerError _ | error => cases h
  | value v => cases h

/-- The code of an internal error comes with the status 500, or from one of the other HTTP
exceptions. -/
theorem status_of_internal_code (h : (describe exception).code = "INTERNAL_SERVER_ERROR") :
    (describe exception).status = .finite 500 ∨
      ∃ e, exception.asOtherHttpException = some e := by
  cases exception with
  | error fields cls =>
    cases cls with
    | appException definition status =>
      rw [describe_appException] at h
      exact absurd h (code_ne_of_listed definition)
    | badRequestException response => simp [describe_badRequestException] at h
    | httpException e => exact Or.inr ⟨e, rfl⟩
    | queryFailedError driverError =>
      exact absurd h (describeDatabaseError_cases driverError).1
    | mongoServerError code => exact absurd h (describeDatabaseError_cases _).1
    | error => exact Or.inl rfl
  | value v => exact Or.inl rfl

theorem messageText_arr (items : List Json) :
    messageText (some (.arr items)) =
      some ("; ".intercalate (formatValidationItem (.arr items))) := by
  rw [messageText, formatValidationItem, formatItems_eq]

/-- A body whose message is an array gives the same text under both kinds of exceptions. -/
theorem extract_of_array {response : JsVal} {items : List Json}
    (h : response.bind (·.get "message") = some (.arr items)) :
    extractValidationMessage response =
        some ("; ".intercalate (formatValidationItem (.arr items))) ∧
      extractHttpExceptionMessage response =
        some ("; ".intercalate (formatValidationItem (.arr items))) := by
  -- only an object has a message
  obtain ⟨body, rfl, hbody⟩ := Option.bind_eq_some_iff.mp h
  cases body with
  | obj fields =>
    constructor
    · simp only [extractValidationMessage, Json.isObjectType, if_true, hbody, messageText_arr]
    · simp only [extractHttpExceptionMessage, JsVal.truthy, Json.isObjectType, if_true, hbody,
        JsVal.isNullish, Bool.false_eq_true, if_false, messageText_arr]
  | _ => cases hbody

theorem describe_message {items : List Json} (h : bodyMessage exception = some (.arr items)) :
    (describe exception).message = "; ".intercalate (formatValidationItem (.arr items)) := by
  cases exception with
  | error fields cls =>
    cases cls with
    | appException definition status => cases h
    | badRequestException response =>
      rw [describe_badRequestException, (extract_of_array h).1, Option.getD_some]
    | httpException e =>
      rw [describe_httpException, (extract_of_array h).2, Option.getD_some]
    | queryFailedError _ | mongoServerError _ | error => cases h
  | value v => cases h

/-- Apart from the other HTTP exceptions the status has three digits. -/
theorem status_threeDigits
    (h : ∀ e, exception.asOtherHttpException = some e → e.status = .finite 500) :
    ∃ n : ℕ, 100 ≤ n ∧ n ≤ 999 ∧ (describe exception).status = .finite n := by
  cases exception with
  | error fields cls =>
    cases cls with
    | appException definition status =>
      exact ⟨status.value, status.threeDigits.1, status.threeDigits.2, rfl⟩
    | badRequestException response => exact ⟨400, by omega, by omega, rfl⟩
    | httpException e => exact ⟨500, by omega, by omega, h e rfl⟩
    | queryFailedError _ | mongoServerError _ =>
      rcases (describeDatabaseError_cases _).2 with h | h
      · exact ⟨409, by omega, by omega, h⟩
      · exact ⟨400, by omega, by omega, h⟩
    | error => exact ⟨500, by omega, by omega, rfl⟩
  | value v => exact ⟨500, by omega, by omega, rfl⟩

/-! ### The answer -/

section Answer

variable (server : Server) (env : Environment) (request : Request)

/-- What is sent is read off the description of the exception. -/
theorem of_sent {r : Response} (h : (catchException server env request exception).sent = [r]) :
    r.status = (describe exception).status ∧
      r.payload.statusCode = (describe exception).status ∧
      r.payload.code = (describe exception).code ∧
      r.payload.message = (describe exception).message := by
  simp only [catchException] at h
  split at h
  · obtain rfl := List.singleton_inj.mp h
    exact ⟨rfl, rfl, rfl, rfl⟩
  · cases h

theorem exists_sent (h : server.accepts (describe exception).status = true) :
    ∃ r, (catchException server env request exception).sent = [r] := by
  simp only [catchException, h, if_true]
  exact ⟨_, rfl⟩

/-- Status and message are right under every exception; no branch fails there. -/
theorem status_and_message_of_sent {r : Response}
    (h : (catchException server env request exception).sent = [r]) :
    r.payload.statusCode = r.status ∧ (∀ s, ownStatus exception = some s → r.status = s) ∧
      ∀ items, bodyMessage exception = some (.arr items) →
        ∃ texts, Tree.IsListing nested stringLeaf (.arr items) texts ∧
          r.payload.message = "; ".intercalate texts := by
  obtain ⟨hstatus, hstatusCode, -, hmessage⟩ := of_sent server env request h
  refine ⟨hstatusCode.trans hstatus.symm, fun s hs => ?_, fun items hitems => ?_⟩
  · rw [hstatus, describe_status hs]
  · refine ⟨formatValidationItem (.arr items), (isListing_iff _ _).mpr rfl, ?_⟩
    rw [hmessage, describe_message hitems]

/-- The other HTTP exceptions are answered with the code of an internal error. -/
theorem status_of_consistentlyAnswered {fields : ErrorFields} {e : HttpException}
    (h : ConsistentlyAnswered (.error fields (.httpException e))
      (catchException server env request (.error fields (.httpException e)))) :
    e.status = .finite 500 := by
  obtain ⟨r, hsent, hr⟩ := h
  obtain ⟨hstatus, -, hcode, -⟩ := of_sent server env request hsent
  calc e.status = r.status := hstatus.symm
    _ = .finite 500 := hr.code hcode

variable (exception)

/-- The filter answers consistently to an exception exactly if it is none of the other HTTP
exceptions, or one with the status 500. -/
theorem consistentlyAnswered_iff :
    ConsistentlyAnswered exception (catchException server env request exception) ↔
      ∀ e, exception.asOtherHttpException = some e → e.status = .finite 500 := by
  constructor
  · intro h e he
    obtain ⟨fields, rfl⟩ := Thrown.asOtherHttpException_eq_some_iff.mp he
    exact status_of_consistentlyAnswered server env request h
  · intro h
    obtain ⟨n, hlow, hhigh, hn⟩ := status_threeDigits h
    have haccepts : server.accepts (describe exception).status = true := by
      rw [hn]
      exact server.accepts_threeDigits n hlow hhigh
    obtain ⟨r, hsent⟩ := exists_sent server env request haccepts
    obtain ⟨hstatusCode, hown, hmessage⟩ :=
      status_and_message_of_sent server env request hsent
    refine ⟨r, hsent, hstatusCode, hown, fun hinternal => ?_, hmessage⟩
    obtain ⟨hstatus, -, hcode, -⟩ := of_sent server env request hsent
    rw [hcode] at hinternal
    rw [hstatus]
    rcases status_of_internal_code hinternal with hs | ⟨e, he⟩
    · exact hs
    · obtain ⟨fields, rfl⟩ := Thrown.asOtherHttpException_eq_some_iff.mp he
      exact h e he

/-- What `deleteUser` throws where there is no such user. -/
def userNotFound : Thrown :=
  .error ⟨"NotFoundException", "User not found", none⟩
    (.httpException
      { response := some (.obj [("message", .str "User not found"), ("error", .str "Not Found"),
          ("statusCode", .num 404)])
        status := .finite 404 })

/-- A user that does not exist is reported under the status 404 as an internal error. -/
theorem not_consistentlyAnswered :
    ¬ ∀ (server : Server) (env : Environment) (request : Request) (exception : Thrown),
      ConsistentlyAnswered exception (catchException server env request exception) := by
  intro h
  have h500 := status_of_consistentlyAnswered .strict ⟨none, "2026-08-10T18:30:00.000Z"⟩
    ⟨"DELETE", "/users/7"⟩ (h _ _ _ userNotFound)
  exact absurd (JsNumber.finite.inj h500) (by norm_num)

end Answer

end IotPanel.Common
