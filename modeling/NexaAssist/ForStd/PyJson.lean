import Mathlib.Data.Rat.Defs
import NexaAssist.ForStd.PyStr

/-!
# Python values and the two JSON encoders a Python program meets

A JSON-like Python value, the standard library's `json.dumps` and `json.loads`,
and pydantic's `model_dump_json` on a value typed `Any`. Documents are kept at
the level of tokens: how a string's characters are escaped matters here, how
numbers and blanks are spelled does not.

The encoders differ on two kinds of value. `json.dumps` writes a float that is
not finite as `Infinity` or `NaN` and a surrogate as an escape, and `json.loads`
reads both back. `model_dump_json` writes `null` for the first and refuses the
second.
-/

namespace PyJson

/-! ## Values and documents -/

/-- A Python `float`. Every NaN is unequal to itself, but a container compares
    its elements by identity first, so a NaN keeps the object it is: object `0`
    is the one constant `json.loads` hands out for `NaN`. -/
inductive PyFloat
  | finite (value : Rat)
  | inf (negative : Bool)
  | nan (object : Nat)
  deriving DecidableEq, Repr

/-- A dictionary key. A number is kept with the text JSON writes for it, and
    `other` is a hashable object JSON has no key for. -/
inductive PyKey
  | str (s : PyStr)
  | num (value : PyFloat) (text : PyStr)
  | none
  | other (object : Nat)
  deriving DecidableEq, Repr

/-- A Python value as a JSON encoder sees it. `object` is a value of any class
    the encoders do not know. -/
inductive PyValue
  | none
  | bool (b : Bool)
  | int (i : Int)
  | float (f : PyFloat)
  | str (s : PyStr)
  | list (xs : List PyValue)
  | tuple (xs : List PyValue)
  | dict (entries : List (PyKey × PyValue))
  | object (name : String)

/-- A JSON document, with the three number tokens only Python writes. -/
inductive JsonDoc
  | null
  | bool (b : Bool)
  | int (i : Int)
  | float (value : Rat)
  | infinity (negative : Bool)
  | nan
  | str (items : List StrItem)
  | array (xs : List JsonDoc)
  | object (fields : List (List StrItem × JsonDoc))

namespace PyValue

/-- Induction on a value, with hypotheses for what a container holds. -/
@[elab_as_elim, induction_eliminator]
theorem ind {P : PyValue → Prop} (none : P .none) (bool : ∀ b, P (.bool b))
    (int : ∀ i, P (.int i)) (float : ∀ f, P (.float f)) (str : ∀ s, P (.str s))
    (list : ∀ xs, (∀ v ∈ xs, P v) → P (.list xs))
    (tuple : ∀ xs, (∀ v ∈ xs, P v) → P (.tuple xs))
    (dict : ∀ es, (∀ e ∈ es, P e.2) → P (.dict es))
    (object : ∀ name, P (.object name)) (v : PyValue) : P v :=
  @PyValue.rec P (fun xs => ∀ v ∈ xs, P v) (fun es => ∀ e ∈ es, P e.2) (fun e => P e.2)
    none bool int float str list tuple dict object
    (by simp) (fun _ _ hv hxs => by simpa using ⟨hv, hxs⟩)
    (by simp) (fun _ _ he hes => by simpa using ⟨he, fun a b => hes (a, b)⟩)
    (fun _ _ hv => hv) v

end PyValue

/-- What an encoder raises, by the type of the exception. -/
inductive EncodeError
  | typeError
  | serializationError
  deriving DecidableEq, Repr

/-! ## Encoding -/

/-- What tells one encoder from another: how it writes a string, the text of a key and a float,
    what it writes for the key `None`, and what it raises for a value it cannot write. -/
structure Encoder where
  str : PyStr → Except EncodeError (List StrItem)
  key : PyStr → List StrItem
  float : PyFloat → JsonDoc
  noneKey : PyStr
  refusal : EncodeError

/-- The text of a key: a number's own text, for JSON has only string keys. -/
def encodeKey (E : Encoder) : PyKey → Except EncodeError (List StrItem)
  | .str s => .ok (E.key s)
  | .num _ text => .ok (E.key text)
  | .none => .ok (E.key E.noneKey)
  | .other _ => .error E.refusal

mutual

/-- Write a value, a tuple as a list. The first error met ends it. -/
def encode (E : Encoder) : PyValue → Except EncodeError JsonDoc
  | .none => .ok .null
  | .bool b => .ok (.bool b)
  | .int i => .ok (.int i)
  | .float f => .ok (E.float f)
  | .str s => (E.str s).map .str
  | .list xs => (encodeList E xs).map .array
  | .tuple xs => (encodeList E xs).map .array
  | .dict es => (encodeEntries E es).map .object
  | .object _ => .error E.refusal

def encodeList (E : Encoder) : List PyValue → Except EncodeError (List JsonDoc)
  | [] => .ok []
  | v :: vs =>
    match encode E v, encodeList E vs with
    | .ok d, .ok ds => .ok (d :: ds)
    | .ok _, .error e => .error e
    | .error e, _ => .error e

def encodeEntries (E : Encoder) :
    List (PyKey × PyValue) → Except EncodeError (List (List StrItem × JsonDoc))
  | [] => .ok []
  | (k, v) :: es =>
    match encodeKey E k, encode E v, encodeEntries E es with
    | .ok key, .ok d, .ok ds => .ok ((key, d) :: ds)
    | .ok _, .ok _, .error e => .error e
    | .ok _, .error e, _ => .error e
    | .error e, _, _ => .error e

end

/-- `json`'s encoder: strings in escapes, the three tokens for other floats. -/
def jsonEncoder : Encoder where
  str s := .ok (dumpsStr s)
  key := dumpsStr
  float
    | .finite q => .float q
    | .inf neg => .infinity neg
    | .nan _ => .nan
  noneKey := .ofString "null"
  refusal := .typeError

/-- `json.dumps(value)`. -/
def dumps (v : PyValue) : Except EncodeError JsonDoc := encode jsonEncoder v

/-- pydantic's encoder: strings in UTF-8, which has no surrogates, and `null` for
    a float that is not finite. In the text of a key a surrogate is replaced. -/
def pydanticEncoder : Encoder where
  str s := if wellFormed s then .ok (s.map .raw) else .error .serializationError
  key s := (lossy s).map .raw
  float
    | .finite q => .float q
    | .inf _ => .null
    | .nan _ => .null
  noneKey := .ofString "None"
  refusal := .serializationError

/-- `model_dump_json` of a field typed `Any`. -/
def modelDump (v : PyValue) : Except EncodeError JsonDoc := encode pydanticEncoder v

/-! ## Decoding -/

/-- Store `v` under `k`: an existing entry keeps its place. -/
def dictInsert (es : List (PyKey × PyValue)) (k : PyKey) (v : PyValue) :
    List (PyKey × PyValue) :=
  match es with
  | [] => [(k, v)]
  | (k', v') :: rest => if k' = k then (k', v) :: rest else (k', v') :: dictInsert rest k v

/-- `dict(pairs)`. -/
def dictOf (pairs : List (PyKey × PyValue)) : List (PyKey × PyValue) :=
  pairs.foldl (fun es p => dictInsert es p.1 p.2) []

mutual

/-- `json.loads` of a document. -/
def loads : JsonDoc → PyValue
  | .null => .none
  | .bool b => .bool b
  | .int i => .int i
  | .float q => .float (.finite q)
  | .infinity neg => .float (.inf neg)
  | .nan => .float (.nan 0)
  | .str items => .str (loadsStr items)
  | .array xs => .list (loadsList xs)
  | .object fields => .dict (dictOf (loadsFields fields))

def loadsList : List JsonDoc → List PyValue
  | [] => []
  | d :: ds => loads d :: loadsList ds

def loadsFields : List (List StrItem × JsonDoc) → List (PyKey × PyValue)
  | [] => []
  | (k, d) :: fields => (.str (loadsStr k), loads d) :: loadsFields fields

end

/-! ## Equality -/

/-- The number a value compares as: `True == 1 == 1.0`. -/
def numberOf : PyValue → Option PyFloat
  | .bool b => some (.finite (if b then 1 else 0))
  | .int i => some (.finite i)
  | .float f => some f
  | _ => Option.none

/-- `key in d`, and the value stored there. -/
def dictLookup (es : List (PyKey × PyValue)) (k : PyKey) : Option PyValue :=
  match es with
  | [] => Option.none
  | (k', v) :: rest => if k' = k then some v else dictLookup rest k

mutual

/-- `a == b`, as a container compares its elements: identical objects are equal. -/
def pyEq : PyValue → PyValue → Bool
  | .none, w => match w with
    | .none => true
    | _ => false
  | .str s, w => match w with
    | .str t => s == t
    | _ => false
  | .bool b, w => numberOf (.bool b) == numberOf w
  | .int i, w => numberOf (.int i) == numberOf w
  | .float f, w => numberOf (.float f) == numberOf w
  | .list xs, w => match w with
    | .list ys => pyEqList xs ys
    | _ => false
  | .tuple xs, w => match w with
    | .tuple ys => pyEqList xs ys
    | _ => false
  | .dict es, w => match w with
    | .dict fs => es.length == fs.length && pyEqEntries es fs
    | _ => false
  | .object name, w => match w with
    | .object name' => name == name'
    | _ => false

def pyEqList : List PyValue → List PyValue → Bool
  | [], ys => ys.isEmpty
  | x :: xs, ys => match ys with
    | [] => false
    | y :: ys => pyEq x y && pyEqList xs ys

def pyEqEntries : List (PyKey × PyValue) → List (PyKey × PyValue) → Bool
  | [], _ => true
  | (k, v) :: es, fs =>
    (match dictLookup fs k with
      | some w => pyEq v w
      | Option.none => false) && pyEqEntries es fs

end

end PyJson
