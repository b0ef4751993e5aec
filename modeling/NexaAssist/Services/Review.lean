import NexaAssist.Db.Appends

/-!
# The review queue, shared by its reviewers

Calls of `ReviewQueue` from the sessions of any number of reviewers, which run at the same
time at READ COMMITTED. An `UPDATE` of a row that another open transaction has written waits
for that one to end, and then meets the row as it was left. A session holds on to the items
it has loaded, across its commits too (`expire_on_commit=False`), so what it reads may be
stale.
-/

namespace NexaAssist

open PyJson

/-- A row of `review_items`. -/
structure ReviewRow extends ReviewItem where
  resolution : Option PyStr
  deriving DecidableEq

/-- Where an item sits in the queue. -/
def ReviewStatus.rank : ReviewStatus → Nat
  | .pending => 0
  | .claimed => 1
  | .resolved => 2

inductive ReviewRequest
  | enqueue (message : PyStr) (intent : IntentCategory) (reason : EscalationReason)
      (proposedReply : Option PyStr) (ticketId : Option Uuid)
  | get (reviewId : Uuid)
  | claim (reviewId : Uuid)
  | resolve (reviewId : Uuid) (resolution : PyStr)
  deriving DecidableEq

/-- How far a call has come. -/
inductive ReviewStage
  | begun
  /-- The row of `enqueue` is inserted, in its own transaction. -/
  | inserted (row : ReviewRow)
  /-- The `UPDATE` of `claim` is done, and what it wrote is not committed. -/
  | updated (row : Option ReviewRow)
  /-- `claim` has committed, and reads the item it took. -/
  | took
  /-- `resolve` has its item. -/
  | got (item : ReviewRow)
  /-- `resolve` has flushed the item, with what the `UPDATE` wrote, if there was one. -/
  | flushed (item : ReviewRow) (row : Option ReviewRow)
  | returned (item : Option ReviewRow)
  | raised (error : Raised)

structure ReviewCall where
  session : Nat
  request : ReviewRequest
  stage : ReviewStage

structure ReviewSession where
  /-- Whose session it is. Nothing in the code reads it. -/
  reviewer : Nat
  /-- The identity map. -/
  loaded : List ReviewRow

/-- What is committed, the sessions and the calls. -/
structure Reviews where
  rows : List ReviewRow
  sessions : List ReviewSession
  calls : List ReviewCall

inductive ReviewEvent
  | connect (reviewer : Nat)
  /-- A call on session `k`, which makes one at a time. -/
  | call (k : Nat) (request : ReviewRequest)
  /-- Call `n` does its next statement. `id` is for a row it inserts. -/
  | advance (n : Nat) (id : Uuid)
  /-- A statement of call `n` fails, and its transaction is rolled back. -/
  | fail (n : Nat)
  /-- The identity map is weak: session `k` loses an item. -/
  | forget (k : Nat) (reviewId : Uuid)

def ReviewStage.over : ReviewStage → Bool
  | .returned _ => true
  | .raised _ => true
  | _ => false

/-- The row a stage has written and not committed. -/
def ReviewStage.open? : ReviewStage → Option ReviewRow
  | .inserted row => some row
  | .updated row => row
  | .flushed _ row => row
  | _ => none

/-- Puts an item in the place of the one with its id. -/
def remember (item : ReviewRow) (items : List ReviewRow) : List ReviewRow :=
  item :: items.filter fun other => other.id ≠ item.id

/-- `UPDATE`, by primary key. -/
def overwrite (row : ReviewRow) (rows : List ReviewRow) : List ReviewRow :=
  rows.map fun other => if other.id = row.id then row else other

/-- What the `UPDATE` of `claim` does to items its session has loaded
    (`synchronize_session`): it looks at them as they were loaded. -/
def synchronize (reviewId : Uuid) (items : List ReviewRow) : List ReviewRow :=
  items.map fun item =>
    if item.id = reviewId ∧ item.status = .pending then { item with status := .claimed } else item

/-- What the flush of `resolve` writes over a row: the attributes that changed since the item
    was loaded, and no `UPDATE` if none did. -/
def ReviewRow.flush (row item : ReviewRow) (resolution : PyStr) : Option ReviewRow :=
  let closes := item.status ≠ .resolved
  let decides := item.resolution ≠ some resolution
  if closes ∨ decides then
    some { row with
      status := if closes then .resolved else row.status
      resolution := if decides then some resolution else row.resolution }
  else none

namespace Reviews

/-- Call `n` comes to a stage. -/
def become (s : Reviews) (n : Nat) (call : ReviewCall) (stage : ReviewStage) : Reviews :=
  { s with calls := s.calls.set n { call with stage } }

/-- Session `k` has other items. -/
def reload (s : Reviews) (k : Nat) (change : List ReviewRow → List ReviewRow) : Reviews :=
  { s with sessions := s.sessions.modify k fun session =>
      { session with loaded := change session.loaded } }

/-- The items session `k` has loaded. -/
def loadedBy (s : Reviews) (k : Nat) : List ReviewRow :=
  (s.sessions[k]?.map (·.loaded)).getD []

/-- Rows in transactions that are open. -/
def openRows (s : Reviews) : List ReviewRow := s.calls.filterMap (·.stage.open?)

def row (s : Reviews) (reviewId : Uuid) : Option ReviewRow :=
  s.rows.find? fun row => row.id = reviewId

/-- Another transaction has written the row and is open. -/
def locked (s : Reviews) (reviewId : Uuid) : Bool := s.openRows.any (·.id = reviewId)

/-- `session.get`: an item the session holds is not read again. -/
def lookup (s : Reviews) (k : Nat) (reviewId : Uuid) : Option ReviewRow :=
  match (s.loadedBy k).find? fun item => item.id = reviewId with
  | some item => some item
  | none => s.row reviewId

/-- The transaction of call `n` is rolled back, which expires what its session holds. -/
def abort (s : Reviews) (n : Nat) (call : ReviewCall) : Reviews :=
  (s.become n call (.raised .sqlalchemy)).reload call.session fun _ => []

/-- `get` comes to its end for call `n`. -/
def getOr (s : Reviews) (n : Nat) (call : ReviewCall) (reviewId : Uuid)
    (stage : ReviewRow → ReviewStage) : Reviews :=
  match s.lookup call.session reviewId with
  | none => s.become n call (.raised (.app (reviewItemNotFoundError
      [("review_id", reviewId.str)])))
  | some item => (s.become n call (stage item)).reload call.session (remember item)

def enqueue (s : Reviews) (n : Nat) (call : ReviewCall) (message : PyStr)
    (intent : IntentCategory) (reason : EscalationReason) (proposedReply : Option PyStr)
    (ticketId : Option Uuid) (id : Uuid) : Option Reviews :=
  match call.stage with
  | .begun =>
    let row : ReviewRow := {
      id, ticketId, message, proposedReply
      intent := intent.value
      reason := reason.value
      status := .pending
      resolution := none }
    -- `gen_random_uuid` does not draw an id twice.
    if (s.rows ++ s.openRows).any (·.id = id) then none
    else if !contentNotBlank message then some (s.abort n call)
    else some ((s.become n call (.inserted row)).reload call.session (remember row))
  | .inserted row =>
    some { s.become n call (.returned (some row)) with rows := s.rows ++ [row] }
  | _ => none

def get (s : Reviews) (n : Nat) (call : ReviewCall) (reviewId : Uuid) : Option Reviews :=
  match call.stage with
  | .begun => some (s.getOr n call reviewId fun item => .returned (some item))
  | _ => none

/-- Take an item, or return `None` if someone else already has. -/
def claim (s : Reviews) (n : Nat) (call : ReviewCall) (reviewId : Uuid) : Option Reviews :=
  match call.stage with
  | .begun =>
    let found := s.rows.find? fun row => row.id = reviewId ∧ row.status = .pending
    match found with
    | none => some ((s.become n call (.updated none)).reload call.session (synchronize reviewId))
    | some row =>
      -- It waits for the other transaction.
      if s.locked reviewId then none
      else
        let taken := { row with status := .claimed }
        some ((s.become n call (.updated (some taken))).reload call.session
          (synchronize reviewId))
  | .updated none => some (s.become n call (.returned none))
  | .updated (some row) =>
    some { s.become n call .took with rows := overwrite row s.rows }
  | .took => some (s.getOr n call reviewId fun item => .returned (some item))
  | _ => none

/-- Close an item with what the reviewer decided. -/
def resolve (s : Reviews) (n : Nat) (call : ReviewCall) (reviewId : Uuid) (resolution : PyStr) :
    Option Reviews :=
  match call.stage with
  | .begun => some (s.getOr n call reviewId .got)
  | .got item =>
    let closed := { item with status := .resolved, resolution := some resolution }
    match s.row reviewId with
    | none => some (s.abort n call)
    | some row =>
      match row.flush item resolution with
      | none =>
        some ((s.become n call (.flushed closed none)).reload call.session (remember closed))
      | some written =>
        -- It waits for the other transaction.
        if s.locked reviewId then none
        else
          some ((s.become n call (.flushed closed (some written))).reload call.session
            (remember closed))
  | .flushed item none => some (s.become n call (.returned (some item)))
  | .flushed item (some row) =>
    some { s.become n call (.returned (some item)) with rows := overwrite row s.rows }
  | _ => none

def advance (s : Reviews) (n : Nat) (id : Uuid) : Option Reviews :=
  match s.calls[n]? with
  | none => none
  | some call =>
    match call.request with
    | .enqueue message intent reason proposedReply ticketId =>
      s.enqueue n call message intent reason proposedReply ticketId id
    | .get reviewId => s.get n call reviewId
    | .claim reviewId => s.claim n call reviewId
    | .resolve reviewId resolution => s.resolve n call reviewId resolution

def fail (s : Reviews) (n : Nat) : Option Reviews :=
  match s.calls[n]? with
  | none => none
  | some call => if call.stage.over then none else some (s.abort n call)

def step (s : Reviews) : ReviewEvent → Option Reviews
  | .connect reviewer => some { s with sessions := s.sessions ++ [{ reviewer, loaded := [] }] }
  | .call k request =>
    if k < s.sessions.length ∧ ∀ call ∈ s.calls, call.session = k → call.stage.over then
      some { s with calls := s.calls ++ [{ session := k, request, stage := .begun }] }
    else none
  | .advance n id => s.advance n id
  | .fail n => s.fail n
  | .forget k reviewId =>
    some (s.reload k fun items => items.filter fun item => item.id ≠ reviewId)

end Reviews

/-- Any number of reviewers' sessions, under every interleaving of their statements. -/
def reviews : Machine Reviews ReviewEvent where
  init := { rows := [], sessions := [], calls := [] }
  step := Reviews.step

end NexaAssist
