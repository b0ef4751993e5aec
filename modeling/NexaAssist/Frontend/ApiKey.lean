import NexaAssist.ForStd.Machine
import NexaAssist.Frontend.Transport

/-!
# The API key a browser sends

`useApiKey`: the key that is kept in the storage of the browser, and followed across its tabs. A
change of the storage is announced to the other tabs, and a tab that listens reads the key again
when the announcement reaches it.
-/

namespace NexaAssist.Frontend

open PyJson

def STORAGE_KEY : JsString := .ofAscii "nexaassist.api_key"

/-! ## The storage -/

abbrev LocalStorage := JsString → Option JsString

inductive StorageChange
  | setItem (key value : JsString)
  | removeItem (key : JsString)
  | clear

namespace LocalStorage

def apply (storage : LocalStorage) : StorageChange → LocalStorage
  | .setItem key value => fun k => if k = key then some value else storage k
  | .removeItem key => fun k => if k = key then none else storage k
  | .clear => fun _ => none

/-- The `key` of the event that announces a change, if it changes something. That of `clear` is
    null. -/
def announced (storage : LocalStorage) : StorageChange → Option (Option JsString)
  | .setItem key value => if storage key = some value then none else some (some key)
  | .removeItem key => if storage key = none then none else some (some key)
  | .clear => some none

end LocalStorage

/-! ## The hook -/

namespace UseApiKey

/-- What `read` makes of what is stored. Nothing but blanks is no key. -/
def readKey (stored : Option JsString) : Option JsString :=
  stored.filter fun key => trim key ≠ []

/-- `read`, where the storage may throw. -/
def read (works : Bool) (storage : LocalStorage) : Option JsString :=
  if works then readKey (storage STORAGE_KEY) else none

/-- `write`. -/
def write : Option JsString → StorageChange
  | none => .removeItem STORAGE_KEY
  | some key => .setItem STORAGE_KEY key

/-- The events that `onStorage` does not pass over. -/
def concerns (key : Option JsString) : Bool := key = none || key = some STORAGE_KEY

/-- The key in the headers of a request. -/
def header (apiKey : Option JsString) : Option JsString := apiKey.filter fun key => key ≠ []

end UseApiKey

/-! ## The tabs -/

inductive HookStage
  /-- The page is there, and the hook has not been rendered. -/
  | loading
  /-- It has been, and its effect has not run. -/
  | rendered
  | listening
  deriving DecidableEq

/-- A tab, with the events that are on their way to it. -/
structure KeyTab where
  stage : HookStage
  apiKey : Option JsString
  inbox : List (Option JsString)

structure KeyTabs (Tab : Type) where
  storage : LocalStorage
  tabs : Tab → Option KeyTab

/-- What happens in a tab, or to the storage. `works` says whether the storage throws. -/
inductive KeyEvent (Tab : Type)
  | load (tab : Tab)
  | render (tab : Tab) (works : Bool)
  | effect (tab : Tab)
  | save (tab : Tab) (value : JsString) (works : Bool)
  | clear (tab : Tab) (works : Bool)
  /-- The next event reaches a tab. -/
  | deliver (tab : Tab) (works : Bool)
  | close (tab : Tab)
  /-- Another page of the origin changes the storage. -/
  | foreign (change : StorageChange)

namespace KeyTabs

open UseApiKey

variable {Tab : Type} [DecidableEq Tab]

/-- The storage is changed from a page, and all other tabs will hear of it. -/
def change (s : KeyTabs Tab) (source : Option Tab) (change : StorageChange) : KeyTabs Tab where
  storage := s.storage.apply change
  tabs t :=
    if some t = source then s.tabs t
    else (s.tabs t).map fun tab =>
      { tab with inbox := tab.inbox ++ (s.storage.announced change).toList }

/-- What is set of a tab. -/
def put (s : KeyTabs Tab) (t : Tab) (tab : Option KeyTab) : KeyTabs Tab :=
  { s with tabs := fun other => if other = t then tab else s.tabs other }

/-- `write` and `setKey`. -/
def setKey (s : KeyTabs Tab) (t : Tab) (tab : KeyTab) (apiKey : Option JsString) (works : Bool) :
    KeyTabs Tab :=
  (if works then s.change (some t) (write apiKey) else s).put t (some { tab with apiKey })

def step (s : KeyTabs Tab) : KeyEvent Tab → Option (KeyTabs Tab)
  | .load t =>
    if (s.tabs t).isSome then none
    else some (s.put t (some { stage := .loading, apiKey := none, inbox := [] }))
  | .render t works =>
    match s.tabs t with
    | some { stage := .loading, inbox, .. } =>
      some (s.put t (some { stage := .rendered, apiKey := read works s.storage, inbox }))
    | _ => none
  | .effect t =>
    match s.tabs t with
    | some { stage := .rendered, apiKey, inbox } =>
      some (s.put t (some { stage := .listening, apiKey, inbox }))
    | _ => none
  | .save t value works =>
    match s.tabs t with
    | none => none
    | some tab =>
      if tab.stage = .loading then none
      else if trim value = [] then some s
      else some (s.setKey t tab (some (trim value)) works)
  | .clear t works =>
    match s.tabs t with
    | none => none
    | some tab => if tab.stage = .loading then none else some (s.setKey t tab none works)
  | .deliver t works =>
    match s.tabs t with
    | some { stage, apiKey, inbox := key :: inbox } =>
      if stage = .listening ∧ concerns key then
        some (s.put t (some { stage, apiKey := read works s.storage, inbox }))
      else some (s.put t (some { stage, apiKey, inbox }))
    | _ => none
  | .close t => if (s.tabs t).isSome then some (s.put t none) else none
  | .foreign change => some (s.change none change)

end KeyTabs

/-- The tabs of a browser, over what its storage holds at first. -/
def keyTabs {Tab : Type} [DecidableEq Tab] (storage : LocalStorage) :
    Machine (KeyTabs Tab) (KeyEvent Tab) where
  init := { storage, tabs := fun _ => none }
  step := KeyTabs.step

end NexaAssist.Frontend
