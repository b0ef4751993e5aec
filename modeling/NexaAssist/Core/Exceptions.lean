import Mathlib.Data.List.Lex
import Mathlib.Data.List.Sort
import Mathlib.Order.Fin.Basic
import NexaAssist.Llm.RateLimit

/-!
# Errors as responses

The classes of application errors, and the handlers that `register_exception_handlers` puts
before every endpoint. Whatever they are given they answer with one body, `ErrorResponse`; but
rendering it may raise in its turn.
-/

namespace NexaAssist

open PyJson

namespace Exceptions

open RateLimit (PyError renderBody)

/-! ## The body -/

/-- `ErrorResponse`. -/
structure ErrorResponse where
  code : PyStr
  message : PyStr
  details : Option Json := none

/-- `model_dump(exclude_none=True)`. -/
def ErrorResponse.modelDump (error : ErrorResponse) : Json :=
  .obj ([(lit "code", .str error.code), (lit "message", .str error.message)] ++
    (error.details.map fun details => (lit "details", details)).toList)

/-- `_render`. -/
def render (error : ErrorResponse) (statusCode : Nat)
    (headers : Option (List (PyStr × PyStr)) := none) : Except PyError RateLimit.Response :=
  match renderBody error.modelDump with
  | .error e => .error e
  | .ok body => .ok { statusCode, headers := headers.getD [], body }

/-! ## Classes of errors -/

/-- `AppError` and what is derived from it. -/
inductive ErrorClass
  | appError
  | notFound
  | jobNotFound
  | jobPayload
  | jobDefinition
  | jobQueueUnavailable
  | rateLimitExceeded
  | rateLimitConfiguration
  | evaluationDefinition
  | handlerRegistration
  | authentication
  | authenticationRequired
  | invalidCredentials
  | authenticationConfiguration
  | ticketNotFound
  | documentNotFound
  | reviewItemNotFound
  | conversationNotFound
  | tracingConfiguration
  | pricingConfiguration
  | llm
  | llmConfiguration
  | llmRateLimit
  | llmTimeout
  | llmUnavailable
  | llmRequest
  | llmInvalidOutput
  | workflowNotFound
  | realtimeCapacity
  | realtimeProtocol
  | toolNotFound
  | toolRegistration
  | database
  | databaseNotConfigured
  | databaseUnavailable
  deriving DecidableEq, Repr

namespace ErrorClass

def statusCode : ErrorClass → Nat
  | realtimeProtocol => 400
  | authentication | authenticationRequired | invalidCredentials => 401
  | notFound | jobNotFound | ticketNotFound | documentNotFound | reviewItemNotFound
  | conversationNotFound | workflowNotFound | toolNotFound => 404
  | rateLimitExceeded | llmRateLimit => 429
  | jobQueueUnavailable | llmUnavailable | realtimeCapacity | database | databaseUnavailable => 503
  | llmTimeout => 504
  | _ => 500

def code : ErrorClass → PyStr
  | appError => lit "internal_error"
  | notFound => lit "not_found"
  | jobNotFound => lit "job_not_found"
  | jobPayload => lit "job_payload_error"
  | jobDefinition => lit "job_definition_error"
  | jobQueueUnavailable => lit "job_queue_unavailable"
  | rateLimitExceeded => lit "rate_limit_exceeded"
  | rateLimitConfiguration => lit "rate_limit_configuration_error"
  | evaluationDefinition => lit "evaluation_definition_error"
  | handlerRegistration => lit "handler_registration_error"
  | authentication => lit "unauthenticated"
  | authenticationRequired => lit "authentication_required"
  | invalidCredentials => lit "invalid_credentials"
  | authenticationConfiguration => lit "authentication_configuration_error"
  | ticketNotFound => lit "ticket_not_found"
  | documentNotFound => lit "document_not_found"
  | reviewItemNotFound => lit "review_item_not_found"
  | conversationNotFound => lit "conversation_not_found"
  | tracingConfiguration => lit "tracing_configuration_error"
  | pricingConfiguration => lit "pricing_configuration_error"
  | llm => lit "llm_error"
  | llmConfiguration => lit "llm_configuration_error"
  | llmRateLimit => lit "llm_rate_limited"
  | llmTimeout => lit "llm_timeout"
  | llmUnavailable => lit "llm_unavailable"
  | llmRequest => lit "llm_request_error"
  | llmInvalidOutput => lit "llm_invalid_output"
  | workflowNotFound => lit "workflow_not_found"
  | realtimeCapacity => lit "realtime_at_capacity"
  | realtimeProtocol => lit "realtime_protocol_error"
  | toolNotFound => lit "tool_not_found"
  | toolRegistration => lit "tool_registration_error"
  | database => lit "database_error"
  | databaseNotConfigured => lit "database_not_configured"
  | databaseUnavailable => lit "database_unavailable"

def message : ErrorClass → PyStr
  | appError => lit "An unexpected error occurred."
  | notFound => lit "The requested resource was not found."
  | jobNotFound => lit "The requested job was not found."
  | jobPayload => lit "The job payload could not be serialised."
  | jobDefinition => lit "The job definition is not valid."
  | jobQueueUnavailable => lit "The job queue is currently unavailable."
  | rateLimitExceeded => lit "Too many requests. Please retry shortly."
  | rateLimitConfiguration => lit "The rate limit configuration is not valid."
  | evaluationDefinition => lit "The evaluation is not valid."
  | handlerRegistration => lit "The intent handler could not be registered."
  | authentication | authenticationRequired | invalidCredentials =>
    lit "Authentication is required."
  | authenticationConfiguration => lit "The authentication configuration is not valid."
  | ticketNotFound => lit "The requested ticket was not found."
  | documentNotFound => lit "The requested document was not found."
  | reviewItemNotFound => lit "The requested review item was not found."
  | conversationNotFound => lit "The requested conversation was not found."
  | tracingConfiguration => lit "The tracing configuration is not valid."
  | pricingConfiguration => lit "The model pricing configuration is not valid."
  | llm => lit "The language model request could not be completed."
  | llmConfiguration => lit "The language model provider is not configured correctly."
  | llmRateLimit => lit "The language model provider is rate limiting requests."
  | llmTimeout => lit "The language model request timed out."
  | llmUnavailable => lit "The language model provider is currently unavailable."
  | llmRequest => lit "The language model request was rejected by the provider."
  | llmInvalidOutput => lit "The language model returned an unusable response."
  | workflowNotFound => lit "The requested workflow is not defined."
  | realtimeCapacity => lit "The service is not accepting new realtime connections."
  | realtimeProtocol => lit "The message did not match the expected format."
  | toolNotFound => lit "The requested tool is not registered."
  | toolRegistration => lit "The tool could not be registered."
  | database => lit "The database request could not be completed."
  | databaseNotConfigured => lit "No database is configured for this service."
  | databaseUnavailable => lit "The database is currently unavailable."

/-- `isinstance(exc, AuthenticationError)`. -/
def isAuthentication : ErrorClass → Bool
  | authentication | authenticationRequired | invalidCredentials => true
  | _ => false

end ErrorClass

/-! ## Errors -/

/-- An instance of a class. To compute its `headers` may raise. -/
structure AppError where
  cls : ErrorClass
  message : PyStr
  details : Option Json
  headers : Except PyError (Option (List (PyStr × PyStr)))

namespace AppError

def WWW_AUTHENTICATE : PyStr := lit "X-API-Key"

/-- `AppError.__init__`, of a class without one of its own. -/
def init (cls : ErrorClass) (message : Option PyStr := none) (details : Option Json := none) :
    AppError where
  cls
  message := message.getD cls.message
  details
  headers := .ok (if cls.isAuthentication then some [(lit "WWW-Authenticate", WWW_AUTHENTICATE)]
    else none)

/-- `RateLimitExceededError.__init__`. -/
def rateLimitExceeded (retryAfterSeconds : Int) : AppError :=
  let retryAfterSeconds := max 1 retryAfterSeconds
  { cls := .rateLimitExceeded
    message := ErrorClass.rateLimitExceeded.message
    details := some (.obj [(lit "retry_after_seconds", .int retryAfterSeconds)])
    headers := .ok (some [(lit "Retry-After", .ofString (toString retryAfterSeconds))]) }

/-- An `LLMRateLimitError` with its message left as it is. -/
def llmRateLimit (exc : RateLimit.LLMRateLimitError) : AppError where
  cls := .llmRateLimit
  message := ErrorClass.llmRateLimit.message
  details := some (.obj exc.details)
  headers := exc.headers

/-- `to_response`. -/
def toResponse (exc : AppError) : ErrorResponse where
  code := exc.cls.code
  message := exc.message
  details := exc.details

end AppError

/-! ## Handlers -/

/-- What an exception was raised in. A socket may be disconnected already. -/
inductive Scope
  | http
  | websocket (disconnected : Bool)
  deriving DecidableEq, Repr

/-- What a handler does. A socket that is disconnected is not closed again. -/
inductive Handled
  | response (response : RateLimit.Response)
  | closed (code : Option Nat)

def CLOSE_INTERNAL_ERROR : Nat := 1011

/-- `handle_app_error`. -/
def handleAppError (scope : Scope) (exc : AppError) : Except PyError Handled :=
  match scope with
  | .websocket disconnected => .ok (.closed (if disconnected then none else some CLOSE_INTERNAL_ERROR))
  | .http =>
    match exc.headers with
    | .error e => .error e
    | .ok headers => (render exc.toResponse exc.cls.statusCode headers).map .response

/-- A part of the place of an error: a key or an index. -/
inductive LocPart
  | key (name : PyStr)
  | index (i : Nat)

/-- `str(part)`. -/
def LocPart.text : LocPart → PyStr
  | .key name => name
  | .index i => .ofString (toString i)

/-- One of `exc.errors()`: where it is, and the value that is wrong there. -/
structure FieldError where
  loc : List LocPart
  input : Json

/-- `".".join(str(part) for part in error["loc"][1:]) or "body"`. -/
def FieldError.path (error : FieldError) : PyStr :=
  let path := List.intercalate (lit ".") ((error.loc.drop 1).map LocPart.text)
  if path.isEmpty then lit "body" else path

/-- The body of `handle_validation_error`. -/
def validationResponse (errors : List FieldError) : ErrorResponse where
  code := lit "invalid_request"
  message := lit "The request body is not valid."
  details := some (.obj [(lit "fields",
    .arr (((errors.map FieldError.path).insertionSort (· ≤ ·)).map Json.str))])

/-- `handle_validation_error`. -/
def handleValidationError (errors : List FieldError) : Except PyError RateLimit.Response :=
  render (validationResponse errors) 422

/-- The phrase of a status that `HTTPStatus` knows. -/
def phrase : Nat → Option String
  | 100 => "Continue"
  | 101 => "Switching Protocols"
  | 102 => "Processing"
  | 103 => "Early Hints"
  | 200 => "OK"
  | 201 => "Created"
  | 202 => "Accepted"
  | 203 => "Non-Authoritative Information"
  | 204 => "No Content"
  | 205 => "Reset Content"
  | 206 => "Partial Content"
  | 207 => "Multi-Status"
  | 208 => "Already Reported"
  | 226 => "IM Used"
  | 300 => "Multiple Choices"
  | 301 => "Moved Permanently"
  | 302 => "Found"
  | 303 => "See Other"
  | 304 => "Not Modified"
  | 305 => "Use Proxy"
  | 307 => "Temporary Redirect"
  | 308 => "Permanent Redirect"
  | 400 => "Bad Request"
  | 401 => "Unauthorized"
  | 402 => "Payment Required"
  | 403 => "Forbidden"
  | 404 => "Not Found"
  | 405 => "Method Not Allowed"
  | 406 => "Not Acceptable"
  | 407 => "Proxy Authentication Required"
  | 408 => "Request Timeout"
  | 409 => "Conflict"
  | 410 => "Gone"
  | 411 => "Length Required"
  | 412 => "Precondition Failed"
  | 413 => "Request Entity Too Large"
  | 414 => "Request-URI Too Long"
  | 415 => "Unsupported Media Type"
  | 416 => "Requested Range Not Satisfiable"
  | 417 => "Expectation Failed"
  | 418 => "I'm a Teapot"
  | 421 => "Misdirected Request"
  | 422 => "Unprocessable Entity"
  | 423 => "Locked"
  | 424 => "Failed Dependency"
  | 425 => "Too Early"
  | 426 => "Upgrade Required"
  | 428 => "Precondition Required"
  | 429 => "Too Many Requests"
  | 431 => "Request Header Fields Too Large"
  | 451 => "Unavailable For Legal Reasons"
  | 500 => "Internal Server Error"
  | 501 => "Not Implemented"
  | 502 => "Bad Gateway"
  | 503 => "Service Unavailable"
  | 504 => "Gateway Timeout"
  | 505 => "HTTP Version Not Supported"
  | 506 => "Variant Also Negotiates"
  | 507 => "Insufficient Storage"
  | 508 => "Loop Detected"
  | 510 => "Not Extended"
  | 511 => "Network Authentication Required"
  | _ => none

/-- `_code_for_status`. -/
def codeForStatus (statusCode : Nat) : PyStr :=
  match phrase statusCode with
  | some phrase => (PyStr.ofString phrase).map fun c => if c = 0x20 then 0x5f else lowerAscii c
  | none => lit "http_error"

/-- `StarletteHTTPException`, whose detail is a text. -/
structure HTTPException where
  statusCode : Nat
  detail : PyStr
  headers : Option (List (PyStr × PyStr))

/-- `handle_http_exception`. -/
def handleHttpException (exc : HTTPException) : Except PyError RateLimit.Response :=
  render { code := codeForStatus exc.statusCode, message := exc.detail } exc.statusCode exc.headers

-- a route that nothing matches has the code of what was looked up and is not there
example : codeForStatus 404 = ErrorClass.notFound.code := by decide

end Exceptions

end NexaAssist
