import NexaAssist.ForStd.JsonTree
import NexaAssist.ForStd.PyFloatText
import NexaAssist.Schemas.Types

/-!
# The provider's rate limit

What becomes of a rate-limit answer of the provider: the delay it announces is read from a
header, goes into an application error with the details, and comes out of the handler of such
errors as a header and in the body of the response.
-/

namespace NexaAssist

open PyJson

namespace RateLimit

/-- What the code raises where it should not. -/
inductive PyError
  | overflowError
  | valueError
  | unicodeEncodeError
  deriving DecidableEq, Repr

/-! ## The body -/

mutual

/-- The texts of a value, its keys among them. -/
def texts : Json → List PyStr
  | .str s => [s]
  | .arr xs => itemTexts xs
  | .obj fields => fieldTexts fields
  | _ => []

def itemTexts : List Json → List PyStr
  | [] => []
  | v :: vs => texts v ++ itemTexts vs

def fieldTexts : List (PyStr × Json) → List PyStr
  | [] => []
  | (key, v) :: fields => key :: (texts v ++ fieldTexts fields)

end

mutual

/-- The floats of a value. -/
def floats : Json → List PyFloat
  | .float f => [f]
  | .arr xs => itemFloats xs
  | .obj fields => fieldFloats fields
  | _ => []

def itemFloats : List Json → List PyFloat
  | [] => []
  | v :: vs => floats v ++ itemFloats vs

def fieldFloats : List (PyStr × Json) → List PyFloat
  | [] => []
  | (_, v) :: fields => floats v ++ fieldFloats fields

end

mutual

/-- `json.dumps(value, ensure_ascii=False)`. -/
def write : Json → JsonDoc
  | .null => .null
  | .bool b => .bool b
  | .int i => .int i
  | .float (.finite value) => .float value
  | .float (.inf negative) => .infinity negative
  | .float (.nan _) => .nan
  | .str s => .str (s.map .raw)
  | .arr xs => .array (writeItems xs)
  | .obj fields => .object (writeFields fields)

def writeItems : List Json → List JsonDoc
  | [] => []
  | v :: vs => write v :: writeItems vs

def writeFields : List (PyStr × Json) → List (List StrItem × JsonDoc)
  | [] => []
  | (key, v) :: fields => (key.map .raw, write v) :: writeFields fields

end

def isFinite : PyFloat → Bool
  | .finite _ => true
  | _ => false

/-- `JSONResponse.render`: `json.dumps` with `allow_nan=False`, and then `encode("utf-8")`. -/
def renderBody (content : Json) : Except PyError JsonDoc :=
  if !(floats content).all isFinite then .error .valueError
  else if !(texts content).all wellFormed then .error .unicodeEncodeError
  else .ok (write content)

/-! ## Responses -/

/-- `ErrorResponse`. -/
structure ErrorResponse where
  code : PyStr
  message : PyStr
  details : List (PyStr × Json)

/-- `model_dump(exclude_none=True)` of one that has details. -/
def ErrorResponse.modelDump (error : ErrorResponse) : Json :=
  .obj [(lit "code", .str error.code), (lit "message", .str error.message),
    (lit "details", .obj error.details)]

structure Response where
  statusCode : Nat
  headers : List (PyStr × PyStr)
  body : JsonDoc

/-- `_render`. -/
def render (error : ErrorResponse) (statusCode : Nat) (headers : Option (List (PyStr × PyStr))) :
    Except PyError Response :=
  match renderBody error.modelDump with
  | .error e => .error e
  | .ok body => .ok { statusCode, headers := headers.getD [], body }

/-! ## The error -/

/-- `LLMRateLimitError`. -/
structure LLMRateLimitError where
  details : List (PyStr × Json)
  retryAfterSeconds : Option PyFloat

namespace LLMRateLimitError

def statusCode : Nat := 429

def code : PyStr := lit "llm_rate_limited"

def message : PyStr := lit "The language model provider is rate limiting requests."

/-- `LLMRateLimitError(details=..., retry_after_seconds=...)`. The delay is one of the
    details too. -/
def init (details : List (PyStr × Json)) (retryAfterSeconds : Option PyFloat) :
    LLMRateLimitError where
  details := match retryAfterSeconds with
    | none => details
    | some seconds => PyDict.set (lit "retry_after_seconds") (.float seconds) details
  retryAfterSeconds := retryAfterSeconds

/-- `math.ceil`. -/
def ceil : PyFloat → Except PyError Int
  | .finite value => .ok ⌈value⌉
  | .inf _ => .error .overflowError
  | .nan _ => .error .valueError

/-- `headers`. -/
def headers (exc : LLMRateLimitError) : Except PyError (Option (List (PyStr × PyStr))) :=
  match exc.retryAfterSeconds with
  | none => .ok none
  | some seconds =>
    (ceil seconds).map fun whole => some [(lit "Retry-After", .ofString (toString (max 0 whole)))]

def toResponse (exc : LLMRateLimitError) : ErrorResponse where
  code := code
  message := message
  details := exc.details

end LLMRateLimitError

/-- `handle_app_error` of a request. -/
def handleAppError (exc : LLMRateLimitError) : Except PyError Response :=
  match exc.headers with
  | .error e => .error e
  | .ok headers => render exc.toResponse LLMRateLimitError.statusCode headers

/-! ## The provider -/

def PROVIDER_NAME : PyStr := lit "groq"

/-- `_retry_after_seconds`, of the header if there is one. -/
def retryAfterSeconds (table : DecimalTable) (header : Option PyStr) : Option PyFloat :=
  header.bind (pyFloat table)

/-- `GroqProvider._rate_limited`. -/
def rateLimited (table : DecimalTable) (model : PyStr) (header : Option PyStr) :
    LLMRateLimitError :=
  .init [(lit "provider", .str PROVIDER_NAME), (lit "model", .str model)]
    (retryAfterSeconds table header)

/-- What a client gets when the provider limits the rate of a model. -/
def rateLimitResponse (table : DecimalTable) (model : PyStr) (header : Option PyStr) :
    Except PyError Response :=
  handleAppError (rateLimited table model header)

/-! ## The body is JSON -/

/-- A character of a string that has an encoding, or an escape. -/
def encodable : StrItem → Bool
  | .raw c => !isSurrogate c
  | .esc _ => true

mutual

/-- A document that JSON has: its numbers are finite, and its strings have an encoding. -/
def isJson : JsonDoc → Bool
  | .infinity _ => false
  | .nan => false
  | .str items => items.all encodable
  | .array xs => areJson xs
  | .object fields => fieldsJson fields
  | _ => true

def areJson : List JsonDoc → Bool
  | [] => true
  | doc :: docs => isJson doc && areJson docs

def fieldsJson : List (List StrItem × JsonDoc) → Bool
  | [] => true
  | (key, doc) :: fields => key.all encodable && isJson doc && fieldsJson fields

end

/-- The items of a well-formed text can be encoded. -/
theorem encodable_of_wellFormed {s : PyStr} (h : wellFormed s = true) :
    (s.map StrItem.raw).all encodable = true := by
  rw [List.all_map]
  exact h

/-- `write` gives JSON for content with finite floats and well-formed texts. -/
theorem isJson_write {content : Json} (hfloats : (floats content).all isFinite = true)
    (htexts : (texts content).all wellFormed = true) : isJson (write content) = true := by
  -- Structural induction: only floats and texts are asked for anything
  induction content with
  | float f =>
    cases f with
    | finite value => rfl
    | inf negative => simp [floats, isFinite] at hfloats
    | nan object => simp [floats, isFinite] at hfloats
  | str s =>
    have hs : wellFormed s = true := by simpa [texts] using htexts
    exact encodable_of_wellFormed hs
  | arr xs ih =>
    rw [floats] at hfloats
    rw [texts] at htexts
    rw [write, isJson]
    induction xs with
    | nil => rfl
    | cons v vs ihvs =>
      rw [itemFloats, List.all_append, Bool.and_eq_true] at hfloats
      rw [itemTexts, List.all_append, Bool.and_eq_true] at htexts
      rw [writeItems, areJson, Bool.and_eq_true]
      exact ⟨ih v List.mem_cons_self hfloats.1 htexts.1,
        ihvs (fun v hv => ih v (List.mem_cons_of_mem _ hv)) hfloats.2 htexts.2⟩
  | obj fields ih =>
    rw [floats] at hfloats
    rw [texts] at htexts
    rw [write, isJson]
    induction fields with
    | nil => rfl
    | cons e fields ihfields =>
      obtain ⟨key, v⟩ := e
      rw [fieldFloats, List.all_append, Bool.and_eq_true] at hfloats
      rw [fieldTexts, List.all_cons, List.all_append, Bool.and_eq_true, Bool.and_eq_true]
        at htexts
      rw [writeFields, fieldsJson, Bool.and_eq_true, Bool.and_eq_true]
      exact ⟨⟨encodable_of_wellFormed htexts.1,
        ih (key, v) List.mem_cons_self hfloats.1 htexts.2.1⟩,
        ihfields (fun e he => ih e (List.mem_cons_of_mem _ he)) hfloats.2 htexts.2.2⟩
  | _ => rfl

/-- A body that `renderBody` gives is JSON. -/
theorem isJson_of_renderBody {content : Json} {body : JsonDoc}
    (h : renderBody content = .ok body) : isJson body = true := by
  unfold renderBody at h
  split at h
  · exact nomatch h
  · split at h
    · exact nomatch h
    · rename_i hfinite htexts
      rw [← Except.ok.inj h]
      exact isJson_write (by simpa using hfinite) (by simpa using htexts)

end RateLimit

end NexaAssist
