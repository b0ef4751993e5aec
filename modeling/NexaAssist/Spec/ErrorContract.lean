import NexaAssist.Core.Exceptions
import NexaAssist.Frontend.Payloads

/-!
# One shape for every error

A request that fails is answered with an `ErrorResponse`, and the client throws an `ApiError` that
says the same, whatever failed and whatever is in the details. An answer that is none of the
server's is told from it by its code alone.
-/

namespace NexaAssist

open PyJson

namespace Spec.ErrorContract

open Exceptions (ErrorClass ErrorResponse HTTPException FieldError Handled handleAppError
  handleValidationError handleHttpException validationResponse codeForStatus phrase)
open JsonText
open RateLimit (PyError renderBody write floats fieldFloats)
open Frontend
open Frontend.ApiError (fromResponse property stringProperty shown unexpected)

/-! ## The client -/

/-- The client reads of a rendered body what `received` makes of its content. -/
theorem parse_body {content : Json} {body : JsonDoc} (h : renderBody content = .ok body)
    (hprint : Prints print content) :
    parseJson (docText print body) = some (received content) := by
  unfold renderBody at h
  split at h
  · cases h
  · rename_i hfinite
    split at h
    · cases h
    · obtain rfl := Except.ok.inj h
      exact parse_write (by simpa using hfinite) hprint

/-- What an error is at the client. -/
def told (error : ErrorResponse) (status : Nat) : ApiError where
  code := error.code
  message := error.message
  status
  details := error.details.map received

/-- `fromResponse` reads what `modelDump` writes of an error. -/
theorem fromResponse_received (error : ErrorResponse) (status : Nat) :
    fromResponse status (received error.modelDump) = told error status := by
  obtain ⟨code, message, details⟩ := error
  have hnames : lit "code" ≠ lit "message" ∧ lit "details" ≠ lit "code" ∧
      lit "details" ≠ lit "message" ∧ lit "message" ≠ lit "code" ∧ lit "message" ≠ lit "details" ∧
      lit "code" ≠ lit "details" := by decide
  obtain ⟨hcm, hdc, hdm, hmc, hmd, hcd⟩ := hnames
  rw [received, ErrorResponse.modelDump, write, plain, fromResponse]
  cases details with
  | none =>
    simp [stringProperty, property_received, hmc, hmd, hcd, received_str, loadsStr_map_raw, told]
  | some details =>
    simp [stringProperty, property_received, hmc, hdc, hdm, received_str, loadsStr_map_raw, told]

/-! ## What fails -/

/-- What a handler takes. -/
inductive Failure
  | app (exc : Exceptions.AppError)
  | invalid (errors : List FieldError)
  | http (exc : HTTPException)

namespace Failure

/-- What the handler does of a request that failed. -/
def answer : Failure → Except PyError Handled
  | .app exc => handleAppError .http exc
  | .invalid errors => (handleValidationError errors).map .response
  | .http exc => (handleHttpException exc).map .response

/-- The error that the answer is to tell. -/
def error : Failure → ErrorResponse
  | .app exc => exc.toResponse
  | .invalid errors => validationResponse errors
  | .http exc => { code := codeForStatus exc.statusCode, message := exc.detail }

def statusCode : Failure → Nat
  | .app exc => exc.cls.statusCode
  | .invalid _ => 422
  | .http exc => exc.statusCode

end Failure

/-- `render` gives the status and the body of its error. -/
theorem render_ok {error : ErrorResponse} {status : Nat}
    {headers : Option (List (PyStr × PyStr))} {response : RateLimit.Response}
    (h : Exceptions.render error status headers = .ok response) :
    response.statusCode = status ∧ renderBody error.modelDump = .ok response.body := by
  unfold Exceptions.render at h
  split at h
  · cases h
  · rename_i body hbody
    obtain rfl := Except.ok.inj h
    exact ⟨rfl, hbody⟩

/-- What is handled as a response was rendered as one. -/
theorem map_response_ok {rendered : Except PyError RateLimit.Response} {handled : Handled}
    (h : rendered.map Handled.response = .ok handled) :
    ∃ response, handled = .response response ∧ rendered = .ok response := by
  cases rendered with
  | error e => cases h
  | ok response => exact ⟨response, (Except.ok.inj h).symm, rfl⟩

/-- What `answer` gives has the status and the body of its failure. -/
theorem answer_ok {failure : Failure} {handled : Handled} (h : failure.answer = .ok handled) :
    ∃ response, handled = .response response ∧ response.statusCode = failure.statusCode ∧
      renderBody failure.error.modelDump = .ok response.body := by
  cases failure with
  | app exc =>
    simp only [Failure.answer, handleAppError] at h
    split at h
    · cases h
    · obtain ⟨response, rfl, hrender⟩ := map_response_ok h
      exact ⟨response, rfl, render_ok hrender⟩
  | invalid errors =>
    obtain ⟨response, rfl, hrender⟩ := map_response_ok h
    exact ⟨response, rfl, render_ok hrender⟩
  | http exc =>
    obtain ⟨response, rfl, hrender⟩ := map_response_ok h
    exact ⟨response, rfl, render_ok hrender⟩

/-- The details have all the floats there are in a body. -/
theorem prints_modelDump {print : Rat → PyStr} {error : ErrorResponse}
    (h : ∀ details, error.details = some details → Prints print details) :
    Prints print error.modelDump := by
  obtain ⟨code, message, details⟩ := error
  cases details with
  | none =>
    intro x hx
    simp [ErrorResponse.modelDump, floats, fieldFloats] at hx
  | some details =>
    intro x hx
    simp only [ErrorResponse.modelDump, Option.map_some, Option.toList_some, List.cons_append,
      List.nil_append, floats, fieldFloats, List.append_nil] at hx
    exact h details rfl x hx

/-- The client throws the error that `answer` has rendered. -/
theorem arrives {print : Rat → PyStr} {failure : Failure} {handled : Handled}
    (hstatus : isOk failure.statusCode = false)
    (hprint : ∀ details, failure.error.details = some details → Prints print details)
    (h : failure.answer = .ok handled) :
    ∃ response, handled = .response response ∧
      request (.response response.statusCode (some (docText print response.body))) =
        .error (told failure.error failure.statusCode) := by
  obtain ⟨response, rfl, hresponse, hbody⟩ := answer_ok h
  refine ⟨response, rfl, ?_⟩
  have hparse := parse_body hbody (prints_modelDump hprint)
  have hne : (docText print response.body).isEmpty = false := by
    cases htext : docText print response.body with
    | nil =>
      rw [htext] at hparse
      cases hparse
    | cons => rfl
  rw [hresponse, request, hstatus, readJson, hne, hparse]
  simp only [Bool.false_eq_true, if_false, Option.getD_some]
  rw [← fromResponse_received]

/-! ## Answers of others -/

/-- An error body: an object with a code and a message. -/
def IsErrorBody : JsonDoc → Prop
  | .object fields => (∃ code, stringProperty "code" fields = some code) ∧
      ∃ message, stringProperty "message" fields = some message
  | _ => False

/-- A body that is none of an error is unexpected. -/
theorem fromResponse_of_not_errorBody {body : JsonDoc} (h : ¬IsErrorBody body) (status : Nat) :
    fromResponse status body = unexpected status := by
  cases body with
  | object fields =>
    rw [fromResponse]
    split
    · rename_i code message hcode hmessage
      exact absurd ⟨⟨code, hcode⟩, message, hmessage⟩ h
    · rfl
  | _ => rfl

/-- A page that begins with a `<` is no error body. -/
theorem not_isErrorBody_page {text rest : PyStr} (h : skip text = 0x3c :: rest) :
    ¬IsErrorBody (readJson (some text)) := by
  have hparse : parseJson text = none := parse_none h (by decide)
  have hread : readJson (some text) = .null := by
    rw [readJson, hparse]
    split <;> rfl
  rw [hread]
  exact id

/-! ## What the screen says -/

/-- The trouble that a class stands for. -/
def kind (cls : ErrorClass) : FailureKind :=
  if cls.isAuthentication then .unauthenticated
  else if cls ∈ [ErrorClass.rateLimitExceeded, ErrorClass.llmRateLimit] then .rateLimited
  else if 500 ≤ cls.statusCode then .server
  else .request

/-- Whoever waits may try again, but not whoever asks for what is not there or not theirs. -/
def worthRetrying (cls : ErrorClass) : Bool := kind cls = .rateLimited || kind cls = .server

/-- The client shows an error by its class. -/
theorem failure_of_class (cls : ErrorClass) (code message : String) :
    (Caught.api code message cls.statusCode).failure =
      { kind := kind cls, message, retryable := worthRetrying cls } := by
  cases cls <;> rfl

/-- No class has a status that is fine. -/
theorem isOk_statusCode (cls : ErrorClass) : isOk cls.statusCode = false := by
  cases cls <;> rfl

/-- The codes that the client gives to answers of others. -/
def clientCodes : List PyStr := [ApiError.UNREACHABLE_CODE, lit "unexpected_error"]

/-- No class has a code of the client's own. -/
theorem code_of_class (cls : ErrorClass) : cls.code ∉ clientCodes := by
  cases cls <;> decide

/-- No status by itself has a code of the client's own. -/
theorem codeForStatus_foreign (status : Nat) : codeForStatus status ∉ clientCodes := by
  unfold codeForStatus phrase
  split
  · rename_i text htext
    split at htext
    all_goals first
      | cases htext; decide
      | cases htext
  · decide

/-- No failure has a code of the client's own. -/
theorem code_of_failure (failure : Failure) : failure.error.code ∉ clientCodes := by
  cases failure with
  | app exc => exact code_of_class exc.cls
  | invalid errors =>
    show lit "invalid_request" ∉ clientCodes
    decide
  | http exc => exact codeForStatus_foreign exc.statusCode

/-- Where errors are is all that is told of a request that is not valid. -/
theorem validationResponse_eq {errors errors' : List FieldError}
    (h : (errors.map FieldError.path).Perm (errors'.map FieldError.path)) :
    validationResponse errors = validationResponse errors' := by
  have hsorted : (errors.map FieldError.path).insertionSort (· ≤ ·) =
      (errors'.map FieldError.path).insertionSort (· ≤ ·) := by
    refine List.Perm.eq_of_pairwise (fun a b _ _ hab hba => le_antisymm hab hba)
      (List.pairwise_insertionSort _ _) (List.pairwise_insertionSort _ _) ?_
    exact ((List.perm_insertionSort _ _).trans h).trans (List.perm_insertionSort _ _).symm
  rw [validationResponse, validationResponse, hsorted]

/-- What an error of the application is on the screen. -/
def screen (exc : Exceptions.AppError) : Frontend.Failure where
  kind := kind exc.cls
  message := shown exc.message
  retryable := worthRetrying exc.cls

/-- The client throws what the server answered with, and no other error has a code of the
    server's; the screen shows the message of the error and offers another try where one is worth
    it. The values of a request that is not valid do not come back. Nor is a page taken for an
    error of the server's. -/
theorem contract {print : Rat → PyStr} {failure : Failure} {handled : Handled}
    (hstatus : ∀ exc, failure = .http exc → isOk exc.statusCode = false)
    (hprint : ∀ details, failure.error.details = some details → Prints print details)
    (h : failure.answer = .ok handled) :
    (∃ response, handled = .response response ∧ ∃ error : ApiError,
      request (.response response.statusCode (some (docText print response.body))) = .error error ∧
      error = told failure.error failure.statusCode ∧ error.code ∉ clientCodes ∧
      (∀ exc, failure = .app exc → error.caught.failure = screen exc) ∧
      ∀ errors errors', failure = .invalid errors →
        (errors.map FieldError.path).Perm (errors'.map FieldError.path) →
        (Failure.invalid errors').answer = .ok handled) ∧
    (∀ status text, isOk status = false → ¬IsErrorBody (readJson text) →
      request (.response status text) = .error (unexpected status) ∧
        (unexpected status).code ∈ clientCodes) ∧
    ∀ text rest, skip text = 0x3c :: rest → ¬IsErrorBody (readJson (some text)) := by
  refine ⟨?_, ?_, fun text rest => not_isErrorBody_page⟩
  · have hnot : isOk failure.statusCode = false := by
      cases failure with
      | app exc => exact isOk_statusCode exc.cls
      | invalid errors => rfl
      | http exc => exact hstatus exc rfl
    obtain ⟨response, rfl, hthrown⟩ := arrives hnot hprint h
    refine ⟨response, rfl, _, hthrown, rfl, code_of_failure failure, ?_, ?_⟩
    · rintro exc rfl
      exact failure_of_class exc.cls _ _
    · rintro errors errors' rfl hperm
      rw [← h]
      simp only [Failure.answer, handleValidationError, validationResponse_eq hperm]
  · intro status text hbad hforeign
    refine ⟨?_, List.mem_cons_of_mem _ List.mem_cons_self⟩
    rw [request, hbad, fromResponse_of_not_errorBody hforeign]
    rfl

/-- The provider has said to come back in two seconds and a half. -/
def busy : Exceptions.AppError := .llmRateLimit (.init [] (some (.finite (5 / 2))))

/-- A writer of floats, as far as it is needed. -/
def printHalf (x : Rat) : PyStr := if x = 5 / 2 then lit "2.5" else lit "0.0"

/-- `number` reads what `printHalf` prints. -/
theorem number_printHalf : number jsInt (printHalf (5 / 2)) = some (.float (5 / 2)) := by
  have htext : printHalf (5 / 2) = lit "2.5" := if_pos rfl
  have hminus : minus (lit "2.5") = (false, lit "2.5") := by decide
  have hform : (!whole ((lit "2.5").takeWhile Numeral.isDigit) ||
      !pointed ((lit "2.5").dropWhile Numeral.isDigit)) = false := by decide
  have hfraction : ((lit "2.5").dropWhile Numeral.isDigit).isEmpty = false := by decide
  have hvalue : Numeral.magnitude (lit "2.5") = some (5 / 2) := by decide +kernel
  have hnear : Rounding.nearest (5 / 2) = 5 / 2 := by decide +kernel
  have hrange : ¬outOfRange (5 / 2) := by decide +kernel
  simp only [number, htext, hminus, hform, hfraction, hvalue, Bool.false_eq_true, if_false,
    Option.map_some, floatOf, if_neg hrange, hnear]

/-- A busy service is answered as one that is rate limited. -/
theorem contract_busy : ∃ response, handleAppError .http busy = .ok (.response response) ∧
    ∃ error, request (.response response.statusCode (some (docText printHalf response.body))) =
      .error error ∧ error.code = lit "llm_rate_limited" ∧ error.caught.failure = screen busy := by
  -- Two and a half seconds are rounded up in the header
  have hheaders : busy.headers = .ok (some [(lit "Retry-After", lit "3")]) := by
    have hceil : ⌈(5 / 2 : Rat)⌉ = 3 := by decide +kernel
    simp only [busy, Exceptions.AppError.llmRateLimit, RateLimit.LLMRateLimitError.init,
      RateLimit.LLMRateLimitError.headers, RateLimit.LLMRateLimitError.ceil, hceil]
    rfl
  have hbody : renderBody busy.toResponse.modelDump = .ok (write busy.toResponse.modelDump) := by
    have hfinite : (floats busy.toResponse.modelDump).all RateLimit.isFinite = true := rfl
    have hencoded : (RateLimit.texts busy.toResponse.modelDump).all wellFormed = true := by decide
    rw [renderBody, hfinite, hencoded]
    rfl
  have hanswer : (Failure.app busy).answer = .ok (.response
      { statusCode := 429, headers := [(lit "Retry-After", lit "3")]
        body := write busy.toResponse.modelDump }) := by
    simp only [Failure.answer, handleAppError, hheaders, Exceptions.render, hbody]
    rfl
  have hhttp : ∀ exc, Failure.app busy = .http exc → isOk exc.statusCode = false := by
    intro exc h
    cases h
  -- And kept exact in the body
  have hprint : ∀ details, busy.toResponse.details = some details →
      Prints printHalf details := by
    intro details hdetails x hx
    obtain rfl := Option.some.inj hdetails
    have hfloats : floats (.obj [(lit "retry_after_seconds", .float (.finite (5 / 2)))]) =
        [.finite (5 / 2)] := rfl
    have hx' : PyFloat.finite x ∈ [PyFloat.finite (5 / 2)] := hfloats ▸ hx
    obtain rfl := PyFloat.finite.inj (List.mem_singleton.mp hx')
    exact number_printHalf
  obtain ⟨⟨response, hresponse, error, hthrown, herror, -, hscreen, -⟩, -⟩ :=
    @contract printHalf _ _ hhttp hprint hanswer
  refine ⟨response, hanswer.trans (congrArg _ hresponse), error, hthrown, ?_, hscreen busy rfl⟩
  rw [herror]
  rfl

end Spec.ErrorContract

end NexaAssist
