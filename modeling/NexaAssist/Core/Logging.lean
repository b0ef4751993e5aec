import NexaAssist.ForStd.PyText
import NexaAssist.ForStd.Substitution

/-!
# Logging configuration

What the handler that `configure_logging` installs writes for a record. Its filters run in
order: the trace id first, then the redaction, which works on the message. The formatter
of the standard library then lays out the line, and puts a traceback and a stack after it.
-/

namespace NexaAssist

open PyJson

def REDACTED : PyStr := .ofString "***REDACTED***"

/-! ## The shapes of credentials -/

namespace SecretPattern

def literal (text : String) : Regex CodePoint :=
  (PyStr.ofString text).foldr (fun c rest => .seq (.one (· = c)) rest) .empty

/-- A literal, in lower case, under `(?i)`. -/
def literalIgnoreCase (text : String) : Regex CodePoint :=
  (PyStr.ofString text).foldr (fun c rest => .seq (.one (ignoreCase c)) rest) .empty

def inOrder (parts : List (Regex CodePoint)) : Regex CodePoint := parts.foldr .seq .empty

/-- `[A-Za-z0-9]`. -/
def isAlnum (c : CodePoint) : Bool := asciiWord c && c.val ≠ 0x5f

/-- What a class that has the letters matches under `(?i)`, past ASCII. -/
def foldsToLetter (c : CodePoint) : Bool :=
  c.val = 0x130 || c.val = 0x131 || c.val = 0x17f || c.val = 0x212a

def isOneOf (chars : String) (c : CodePoint) : Bool := (PyStr.ofString chars).contains c

/-- `gsk_[A-Za-z0-9_\-]{8,}` -/
def groqKey : Regex.Rewrite CodePoint where
  kept := .empty
  dropped := inOrder [literal "gsk_", .atLeast 8 fun c => isAlnum c || isOneOf "_-" c]
  after := .empty
  mark := REDACTED

def bearerMark : PyStr := .ofString "Bearer " ++ REDACTED

/-- `(?i)\bbearer\s+[A-Za-z0-9._\-]{8,}` -/
def bearer : Regex.Rewrite CodePoint where
  kept := .empty
  dropped := inOrder [.boundary, literalIgnoreCase "bearer", .some1 isSpace,
    .atLeast 8 fun c => isAlnum c || foldsToLetter c || isOneOf "._-" c]
  after := .empty
  mark := bearerMark

/-- `(?i)\b([a-z][a-z0-9+.\-]*://[^\s:/@]+):([^\s@/]+)@`, whose second group goes. -/
def url : Regex.Rewrite CodePoint where
  kept := inOrder [.boundary,
    .one fun c => (isAlnum c && !(0x30 ≤ c.val && c.val ≤ 0x39)) || foldsToLetter c,
    .many fun c => isAlnum c || foldsToLetter c || isOneOf "+.-" c,
    literal "://", .some1 fun c => !isSpace c && !isOneOf ":/@" c, literal ":"]
  dropped := .some1 fun c => !isSpace c && !isOneOf "@/" c
  after := literal "@"
  mark := REDACTED

/-- `(?i)([A-Za-z0-9_-]*(?:authorization|api[_-]?key))(\s*[:=]\s*)\S+`, whose groups stay. -/
def apiKey : Regex.Rewrite CodePoint where
  kept := inOrder [.many fun c => isAlnum c || foldsToLetter c || isOneOf "_-" c,
    .alt (literalIgnoreCase "authorization")
      (inOrder [literalIgnoreCase "api", .opt (.one (isOneOf "_-")), literalIgnoreCase "key"]),
    .many isSpace, .one (isOneOf ":="), .many isSpace]
  dropped := .some1 fun c => !isSpace c
  after := .empty
  mark := REDACTED

end SecretPattern

/-- `_SECRET_PATTERNS`. -/
def SECRET_PATTERNS : List (Regex.Rewrite CodePoint) :=
  [SecretPattern.groqKey, SecretPattern.bearer, SecretPattern.url, SecretPattern.apiKey]

/-! ## Records -/

/-- A `LogRecord`. What the standard library renders of it is in it as text. -/
structure LogRecord where
  name : PyStr
  levelname : PyStr
  /-- `formatTime`, by `DATE_FORMAT`. -/
  asctime : PyStr
  /-- `str(msg)`. -/
  msg : PyStr
  /-- What `%` makes of a template and the arguments, if there are any. It may raise. -/
  args : Option (PyStr → Option PyStr)
  /-- The attribute, if something has set it. -/
  traceId : Option PyStr
  /-- `formatException(exc_info)`. -/
  excInfo : Option PyStr
  /-- A traceback that was rendered before, or nothing. -/
  excText : PyStr
  /-- Nothing, if there is none. -/
  stackInfo : PyStr

/-- `getMessage`. -/
def LogRecord.getMessage (record : LogRecord) : Option PyStr :=
  match record.args with
  | none => some record.msg
  | some percent => percent record.msg

/-- `TraceContextFilter.filter`, in a span of that trace or in none. -/
def TraceContextFilter.filter (currentTraceId : Option PyStr) (record : LogRecord) : LogRecord :=
  match record.traceId with
  | some _ => record
  | none =>
    match currentTraceId with
    | none => { record with traceId := some (.ofString "-") }
    | some traceId =>
      { record with traceId := some (if traceId = [] then .ofString "-" else traceId) }

/-! ## Redaction -/

/-- The secrets, and what `\w` is. -/
structure SecretRedactingFilter where
  literals : List PyStr
  word : WordTable

namespace SecretRedactingFilter

/-- `__init__`. -/
def init (secrets : List PyStr) (word : WordTable) : SecretRedactingFilter where
  literals := secrets.filter (· ≠ [])
  word := word

def redact (f : SecretRedactingFilter) (text : PyStr) : PyStr :=
  SECRET_PATTERNS.foldl (fun text pattern => pattern.sub f.word.isWord text)
    (f.literals.foldl (fun text secret => List.replaceAll secret REDACTED text) text)

def filter (f : SecretRedactingFilter) (record : LogRecord) : LogRecord :=
  match record.getMessage with
  | none => record
  | some message =>
    if f.redact message ≠ message then { record with msg := f.redact message, args := none }
    else record

end SecretRedactingFilter

/-! ## The line -/

/-- `%-8s`. -/
def ljust (width : Nat) (text : PyStr) : PyStr :=
  text ++ List.replicate (width - text.length) 0x20

namespace LogRecord

/-- What `LOG_FORMAT` puts before the message. -/
def header (record : LogRecord) : PyStr :=
  record.asctime ++ .ofString " " ++ ljust 8 record.levelname ++ .ofString " [" ++
    record.traceId.getD [] ++ .ofString "] " ++ record.name ++ .ofString ": "

/-- The traceback, rendered now or before. -/
def traceback (record : LogRecord) : PyStr :=
  if record.excText = [] then record.excInfo.getD [] else record.excText

end LogRecord

/-- A text on a line of its own, if it is not empty. -/
def appendLine (line text : PyStr) : PyStr :=
  if text = [] then line
  else (if line.getLast? = some 0x0a then line else line ++ [0x0a]) ++ text

/-- The line of a record whose message is this. -/
def LogRecord.line (record : LogRecord) (message : PyStr) : PyStr :=
  appendLine (appendLine (record.header ++ message) record.traceback) record.stackInfo

/-- `Formatter.format`. -/
def LogRecord.format (record : LogRecord) : Option PyStr :=
  record.getMessage.map record.line

/-- What the handler writes of a record. `handleError` is what the standard library prints
    of one that cannot be formatted. -/
def emit (f : SecretRedactingFilter) (currentTraceId : Option PyStr)
    (handleError : LogRecord → PyStr) (record : LogRecord) : PyStr :=
  let record := f.filter (TraceContextFilter.filter currentTraceId record)
  match record.format with
  | some line => line ++ [0x0a]
  | none => handleError record

end NexaAssist
