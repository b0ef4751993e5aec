import NexaAssist.ForStd.Machine
import NexaAssist.ForStd.PyDict
import NexaAssist.Frontend.Transport

/-!
# The conversations a browser knows about

`useConversationIndex`: the list that the sidebar shows, most recently remembered first, and the
key of the storage it is written to. Every tab has a list of its own, which it read when it was
opened, and all of them write the same key.
-/

namespace NexaAssist.Frontend

open PyJson

/-- Enough to be useful, few enough that the sidebar stays scannable. -/
def MAX_ENTRIES : Nat := 30

def TITLE_LIMIT : Nat := 60

def UNTITLED : JsString := .ofAscii "New conversation"

/-- A conversation, by the first question asked in it. `startedAt` is in milliseconds. -/
structure IndexedConversation where
  id : JsString
  title : JsString
  startedAt : Int
  deriving DecidableEq

/-! ## The storage -/

/-- What is stored under the key, if it is an array: its items, as far as they have the fields
    of an entry. -/
abbrev StoredIndex := Option (List (Option IndexedConversation))

/-- Anything but an array is an empty index, and items of another shape are left out. -/
def readIndex (stored : StoredIndex) : List IndexedConversation :=
  (stored.getD []).filterMap fun item => item

def writeIndex (entries : List IndexedConversation) : StoredIndex := some (entries.map some)

/-- `readIndex` reads back what `writeIndex` writes. -/
@[simp]
theorem readIndex_writeIndex (entries : List IndexedConversation) :
    readIndex (writeIndex entries) = entries := by
  simp [readIndex, writeIndex, List.filterMap_map]

/-! ## Titles -/

/-- `text.replace(/\s+/g, ' ')`. -/
def collapse : JsString → JsString
  | [] => []
  | unit :: text =>
    if isSpaceUnit unit then
      if text.head?.any isSpaceUnit then collapse text else 0x20 :: collapse text
    else unit :: collapse text

/-- `text.trimEnd()`. -/
def trimEnd (text : JsString) : JsString := (text.reverse.dropWhile isSpaceUnit).reverse

def titleFrom (text : JsString) : JsString :=
  let collapsed := collapse (trim text)
  if collapsed.length ≤ TITLE_LIMIT then collapsed
  else trimEnd (collapsed.take (TITLE_LIMIT - 1)) ++ [0x2026]

/-! ## The calls -/

/-- What the functions of the hook are called with. -/
inductive IndexCall
  | remember (id title : JsString)
  | nameIfUnnamed (id question : JsString)
  | forget (id : JsString)
  deriving DecidableEq

/-- `existing.title || title`. -/
def orTitle (existing title : JsString) : JsString := if existing = [] then title else existing

/-- The entry of a conversation that is remembered: the one there is, or a new one. -/
def remembered (current : List IndexedConversation) (id title : JsString) (now : Int) :
    IndexedConversation :=
  match current.find? fun entry => entry.id = id with
  | some existing => { existing with title := orTitle existing.title title }
  | none => { id, title, startedAt := now }

def others (current : List IndexedConversation) (id : JsString) : List IndexedConversation :=
  current.filter fun entry => entry.id ≠ id

def remember (current : List IndexedConversation) (id title : JsString) (now : Int) :
    List IndexedConversation :=
  (remembered current id title now :: others current id).take MAX_ENTRIES

/-- Nothing, if the list stays as it is. -/
def nameIfUnnamed (current : List IndexedConversation) (id question : JsString) :
    Option (List IndexedConversation) :=
  match current.find? fun entry => entry.id = id with
  | none => none
  | some existing =>
    if existing.title ≠ UNTITLED then none
    else some (current.map fun entry =>
      if entry.id = id then { entry with title := titleFrom question } else entry)

def forget (current : List IndexedConversation) (id : JsString) : List IndexedConversation :=
  others current id

/-- The list that a call writes, if it writes one. -/
def written (now : Int) (current : List IndexedConversation) :
    IndexCall → Option (List IndexedConversation)
  | .remember id title => some (remember current id title now)
  | .nameIfUnnamed id question => nameIfUnnamed current id question
  | .forget id => some (forget current id)

/-- And the one it leaves. -/
def after (now : Int) (current : List IndexedConversation) (call : IndexCall) :
    List IndexedConversation :=
  (written now current call).getD current

/-- The ids of some entries. -/
def ids (entries : List IndexedConversation) : List JsString := entries.map (·.id)

section Calls

variable (current : List IndexedConversation) (id title : JsString) (now : Int)

/-- `remembered` keeps the id it is given. -/
@[simp]
theorem remembered_id : (remembered current id title now).id = id := by
  unfold remembered
  split
  · rename_i existing hfind
    simpa using List.find?_some hfind
  · rfl

/-- A conversation that is reopened keeps its time. -/
theorem remembered_startedAt {entry : IndexedConversation} (hentry : entry ∈ current)
    (hunique : (ids current).Nodup) (hid : entry.id = id) :
    (remembered current id title now).startedAt = entry.startedAt := by
  unfold remembered
  split
  · rename_i existing hfind
    have hid' : existing.id = id := by simpa using List.find?_some hfind
    rw [List.inj_on_of_nodup_map hunique (List.mem_of_find?_eq_some hfind) hentry
      (hid'.trans hid.symm)]
  · rename_i hfind
    simpa [hid] using List.find?_eq_none.mp hfind entry hentry

/-- `remembered` starts a new conversation now. -/
theorem remembered_of_new (hid : id ∉ ids current) :
    remembered current id title now = { id, title, startedAt := now } := by
  unfold remembered
  split
  · rename_i existing hfind
    have hid' : existing.id = id := by simpa using List.find?_some hfind
    exact absurd (hid' ▸ List.mem_map_of_mem (List.mem_of_find?_eq_some hfind)) hid
  · rfl

/-- `others` takes out the entry with the id. -/
theorem ids_others : ids (others current id) = (ids current).filter (· ≠ id) := by
  rw [ids, others, ids, List.filter_map]
  rfl

/-- `remember` puts the id in front and keeps at most `MAX_ENTRIES`. -/
theorem ids_remember :
    ids (remember current id title now) = (id :: (ids current).filter (· ≠ id)).take MAX_ENTRIES := by
  rw [← ids_others, remember, ids, List.map_take, List.map_cons, remembered_id]
  rfl

/-- Naming changes titles only. -/
theorem nameIfUnnamed_cases (question : JsString) :
    nameIfUnnamed current id question = none ∨ ∃ rename : IndexedConversation → IndexedConversation,
      nameIfUnnamed current id question = some (current.map rename) ∧
        ∀ entry, (rename entry).id = entry.id ∧ (rename entry).startedAt = entry.startedAt := by
  unfold nameIfUnnamed
  split
  · exact .inl rfl
  · split
    · exact .inl rfl
    · refine .inr ⟨_, rfl, ?_⟩
      intro entry
      split <;> exact ⟨rfl, rfl⟩

end Calls

/-! ## The sidebar -/

/-- The time zone of the browser: when the day began that a time is in. -/
structure LocalTime where
  startOfDay : Int → Int
  mono : ∀ a b, a ≤ b → startOfDay a ≤ startOfDay b

inductive Heading
  | today
  | yesterday
  | previousSevenDays
  | earlier
  deriving DecidableEq, Repr

def MS_PER_DAY : Int := 86400000

/-- Coarse buckets, which is all a sidebar needs. -/
def groupLabel (zone : LocalTime) (startedAt now : Int) : Heading :=
  let today := zone.startOfDay now
  if today ≤ startedAt then .today
  else if today - MS_PER_DAY ≤ startedAt then .yesterday
  else if today - 7 * MS_PER_DAY ≤ startedAt then .previousSevenDays
  else .earlier

/-- `grouped`, of entries with the reading of the clock that each is labelled by. -/
def grouped (zone : LocalTime) (entries : List (IndexedConversation × Int)) :
    PyDict Heading (List IndexedConversation) :=
  entries.foldl (fun groups (entry, now) =>
    let label := groupLabel zone entry.startedAt now
    match PyDict.get label groups with
    | some bucket => PyDict.set label (bucket ++ [entry]) groups
    | none => PyDict.set label [entry] groups) []

/-! ## One tab -/

/-- The list of a tab, and the last time it was changed at. -/
structure IndexState where
  entries : List IndexedConversation
  clock : Int

/-- A call, and how long after the one before it. -/
structure TimedIndexCall where
  elapsed : Nat
  call : IndexCall

/-- A tab that began with an empty list. -/
def conversationIndex (start : Int) : Machine IndexState TimedIndexCall where
  init := { entries := [], clock := start }
  step s e :=
    let now := s.clock + e.elapsed
    some { entries := after now s.entries e.call, clock := now }

/-! ## Any number of tabs -/

/-- The key of the storage, and the lists of the tabs. -/
structure Browser where
  stored : StoredIndex
  tabs : List (List IndexedConversation)

inductive BrowserEvent
  /-- A tab is opened, and reads the list. -/
  | mount
  /-- A tab makes a call, at that time. -/
  | call (tab : Nat) (now : Int) (call : IndexCall)
  deriving DecidableEq

namespace Browser

def init : Browser where
  stored := none
  tabs := []

def step (w : Browser) : BrowserEvent → Option Browser
  | .mount => some { w with tabs := w.tabs ++ [readIndex w.stored] }
  | .call tab now call =>
    w.tabs[tab]?.map fun current =>
      match written now current call with
      | none => w
      | some updated =>
        { stored := writeIndex updated, tabs := w.tabs.set tab updated }

end Browser

end NexaAssist.Frontend
