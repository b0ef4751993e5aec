import NexaAssist.ForStd.JsonText
import NexaAssist.Frontend.UseConversation
import NexaAssist.Schemas.Types

/-!
# The typed API client

What `ApiClient.request` makes of an answer, whatever it is: a parsed payload or an `ApiError`.
-/

namespace NexaAssist.Frontend

open PyJson

/-- A number that JavaScript reads of digits alone. Not every whole number is one of its. -/
def jsInt (i : Int) : JsonDoc :=
  if Rounding.nearest i = i then .int i else JsonText.floatOf i

/-- `JSON.parse`. -/
def parseJson (text : PyStr) : Option JsonDoc := JsonText.parse jsInt text

/-! ## Errors -/

/-- `ApiError`. Its details may be `undefined`. -/
structure ApiError where
  code : PyStr
  message : PyStr
  status : Nat
  details : Option JsonDoc

namespace ApiError

def retryable (error : ApiError) : Bool :=
  error.status = 0 || error.status = 429 || 500 ≤ error.status

def unauthenticated (error : ApiError) : Bool := error.status = 401

def rateLimited (error : ApiError) : Bool := error.status = 429

/-- The property of an object. Of two under one name the last is kept. -/
def property (name : String) (fields : List (List StrItem × JsonDoc)) : Option JsonDoc :=
  (fields.reverse.find? fun field => loadsStr field.1 = lit name).map (·.2)

/-- A property that is a `string`. -/
def stringProperty (name : String) (fields : List (List StrItem × JsonDoc)) : Option PyStr :=
  match property name fields with
  | some (.str items) => some (loadsStr items)
  | _ => none

/-- What is thrown for a body that cannot be read. -/
def unexpected (status : Nat) : ApiError where
  code := lit "unexpected_error"
  message := lit "Something went wrong. Please try again."
  status
  details := none

/-- `ApiError.fromResponse`. What is no object has no `code`. -/
def fromResponse (status : Nat) (body : JsonDoc) : ApiError :=
  match body with
  | .object fields =>
    match stringProperty "code" fields, stringProperty "message" fields with
    | some code, some message => { code, message, status, details := property "details" fields }
    | _, _ => unexpected status
  | _ => unexpected status

def UNREACHABLE_CODE : PyStr := lit "network_unreachable"

/-- `ApiError.unreachable`. -/
def unreachable : ApiError where
  code := UNREACHABLE_CODE
  message := lit "Could not reach the server. Check your connection and try again."
  status := 0
  details := none

/-- A text as the screen has it. -/
def shown (text : PyStr) : String := .ofList (text.map fun c => Char.ofNat c.val)

/-- An error as the hooks catch it. -/
def caught (error : ApiError) : Caught := .api (shown error.code) (shown error.message) error.status

end ApiError

/-! ## Answers -/

/-- How `fetch` ends. The body may break off while it is read. -/
inductive Fetched
  | rejected
  | response (status : Nat) (text : Option PyStr)

/-- `readJson`. -/
def readJson : Option PyStr → JsonDoc
  | none => .null
  | some text => if text.isEmpty then .null else (parseJson text).getD .null

/-- `response.ok`. -/
def isOk (status : Nat) : Bool := 200 ≤ status && status < 300

/-- The end of `ApiClient.request`. -/
def request : Fetched → Except ApiError JsonDoc
  | .rejected => .error .unreachable
  | .response status text =>
    let payload := readJson text
    if isOk status then .ok payload else .error (.fromResponse status payload)

end NexaAssist.Frontend
