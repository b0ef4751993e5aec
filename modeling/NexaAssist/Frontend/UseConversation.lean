import NexaAssist.Frontend.UseRealtime

/-!
# The conversation's state machine

`useConversation`: optimistic turns, replies over HTTP and over the socket, loading a
history, starting a conversation and resetting. Each request is a closure that runs
when its response arrives, in whatever order that is.

Selections, that is loads, starts and resets, are numbered in the order the user makes
them, and every request remembers the last one that had taken effect when it was made.
Turns carry what they were made from. The hook looks at none of this.
-/

namespace NexaAssist.Frontend

/-! ## Turns -/

inductive TurnStatus
  | sent
  | pending
  | failed
  deriving DecidableEq, Repr

inductive Role
  | customer
  | assistant
  deriving DecidableEq, Repr

/-- `server-<position>`, or `<prefix>-<counter>` with one of the three prefixes. -/
inductive TurnId
  | server (position : Nat)
  | localTurn (counter : Nat)
  | stream (counter : Nat)
  | reply (counter : Nat)
  deriving DecidableEq, Repr

/-- The conversation a turn's text was asked for, and the last selection that had taken
    effect when it was. -/
structure Origin where
  conversation : Option String
  basis : Nat
  deriving DecidableEq

/-- What the UI shows for one turn. -/
structure Turn where
  id : TurnId
  role : Role
  text : String
  status : TurnStatus
  citations : List Citation
  traceId : Option String
  escalated : Bool
  streamed : Bool
  grounded : Option Bool
  streaming : Bool
  origins : List Origin

/-- A recorded turn, as the server sends it. -/
structure ConversationMessage where
  position : Nat
  role : Role
  content : String
  citations : Option (List Citation)

/-- A reply over HTTP. -/
structure Reply where
  reply : String
  citations : Option (List Citation)
  conversationId : Option String
  traceId : Option String
  escalated : Bool

/-! ## Failures -/

/-- What a request rejects with: an `ApiError` or anything else. -/
inductive Caught
  | api (code message : String) (status : Nat)
  | other

inductive FailureKind
  | offline
  | unauthenticated
  | rateLimited
  | server
  | request
  deriving DecidableEq, Repr

structure Failure where
  kind : FailureKind
  message : String
  retryable : Bool

def Caught.isUnauthenticated : Caught → Bool
  | .api _ _ status => status = 401
  | .other => false

/-- `failureFrom`. -/
def Caught.failure : Caught → Failure
  | .other =>
    { kind := .server, message := "Something went wrong. Please try again.", retryable := true }
  | .api _ message status =>
    { kind :=
        if status = 0 then .offline
        else if status = 401 then .unauthenticated
        else if status = 429 then .rateLimited
        else if 500 ≤ status then .server
        else .request
      message
      retryable := status = 0 || status = 429 || 500 ≤ status }

/-! ## The hook -/

/-- What JavaScript's `trim` takes off. -/
def isJsSpace (c : Char) : Bool :=
  c.toNat ∈ [0x9, 0xA, 0xB, 0xC, 0xD, 0x20, 0xA0, 0x1680, 0x2028, 0x2029, 0x202F, 0x205F,
    0x3000, 0xFEFF] || (0x2000 ≤ c.toNat && c.toNat ≤ 0x200A)

/-- `text.trim()`. -/
def jsTrim (text : String) : String :=
  .ofList ((text.toList.dropWhile isJsSpace).reverse.dropWhile isJsSpace).reverse

/-- A message sent over HTTP, until its response arrives. -/
structure HttpSend where
  pendingId : TurnId
  conversationId : Option String
  basis : Nat

/-- A question put on the socket. -/
structure StreamAsk where
  replyId : TurnId
  conversationId : Option String
  basis : Nat

/-- A selection whose response has not arrived. -/
structure Selecting where
  number : Nat
  /-- The id of a history that is loaded, or none for a start. -/
  history : Option String

structure Chat where
  conversationId : Option String
  turns : List Turn
  sending : Bool
  loading : Bool
  failure : Option Failure
  authRequired : Bool
  streamingId : Option TurnId
  resumed : Bool
  storedId : Option String
  counter : Nat
  sends : List HttpSend
  asks : List StreamAsk
  selecting : List Selecting
  selections : Nat
  /-- The number of the last selection that took effect. -/
  applied : Nat
  /-- The selections that took effect, with the conversation each selected. -/
  answered : List (Nat × Option String)

namespace Chat

/-- A fresh hook, over a storage that may hold an id. -/
def init (storedId : Option String) : Chat where
  conversationId := none
  turns := []
  sending := false
  loading := false
  failure := none
  authRequired := false
  streamingId := none
  resumed := false
  storedId := storedId
  counter := 0
  sends := []
  asks := []
  selecting := []
  selections := 0
  applied := 0
  answered := []

/-- Selection `number` takes effect. -/
def select (s : Chat) (number : Nat) (conversationId : Option String) (turns : List Turn) : Chat :=
  { s with
    conversationId, turns
    applied := number
    answered := s.answered ++ [(number, conversationId)] }

/-- `catch` of a request whose failure is shown. -/
def showFailure (s : Chat) (caught : Caught) : Chat :=
  { s with authRequired := caught.isUnauthenticated, failure := some caught.failure }

/-! ## Selecting -/

/-- `toTurn`. -/
def toTurn (origin : Origin) (message : ConversationMessage) : Turn where
  id := .server message.position
  role := message.role
  text := message.content
  status := .sent
  citations := message.citations.getD []
  traceId := none
  escalated := false
  streamed := false
  grounded := some true
  streaming := false
  origins := [origin]

/-- `loadHistory`, up to its `await`. -/
def loadHistory (s : Chat) (id : String) : Chat :=
  { s with
    loading := true
    selections := s.selections + 1
    selecting := s.selecting ++ [{ number := s.selections + 1, history := some id }] }

/-- `start`, up to its `await`. -/
def start (s : Chat) : Chat :=
  { s with
    loading := true
    selections := s.selections + 1
    selecting := s.selecting ++ [{ number := s.selections + 1, history := none }] }

/-- The rest of `loadHistory(id)`. -/
def historyArrives (s : Chat) (number : Nat) (id : String) :
    Except Caught (List ConversationMessage) → Chat
  | .ok messages =>
    { s.select number (some id)
        (messages.map (toTurn { conversation := some id, basis := number })) with
      failure := none, authRequired := false, loading := false }
  | .error (.api code message status) =>
    if status = 404 then
      -- The stored id is stale: forget it.
      { s.select number none [] with storedId := none, loading := false }
    else { s.showFailure (.api code message status) with loading := false }
  | .error .other => { s.showFailure .other with loading := false }

/-- The rest of `start`: the server answers with the id it opened. -/
def startArrives (s : Chat) (number : Nat) : Except Caught String → Chat
  | .ok id =>
    { s.select number (some id) [] with
      storedId := some id, failure := none, authRequired := false, loading := false }
  | .error caught => { s.showFailure caught with loading := false }

/-- `reset` takes effect at once. -/
def reset (s : Chat) : Chat :=
  { s.select (s.selections + 1) none [] with
    selections := s.selections + 1
    streamingId := none, storedId := none, failure := none, authRequired := false }

/-- The effect that resumes a stored conversation, once. -/
def resume (s : Chat) : Chat :=
  if s.resumed then s
  else
    let s := { s with resumed := true }
    match s.storedId with
    | none => s
    | some id => if id.isEmpty then s else s.loadHistory id

/-! ## Sending -/

/-- The customer's turn, shown before the server has seen it. -/
def pendingTurn (s : Chat) (text : String) : Turn where
  id := .localTurn (s.counter + 1)
  role := .customer
  text := text
  status := .pending
  citations := []
  traceId := none
  escalated := false
  streamed := false
  grounded := none
  streaming := false
  origins := [{ conversation := s.conversationId, basis := s.applied }]

/-- The empty turn a stream is put into. -/
def placeholder (s : Chat) : Turn where
  id := .stream (s.counter + 1)
  role := .assistant
  text := ""
  status := .pending
  citations := []
  traceId := none
  escalated := false
  streamed := true
  grounded := none
  streaming := true
  origins := [{ conversation := s.conversationId, basis := s.applied }]

/-- `send`, up to its `await`. `streams` is what `options.stream` returns. -/
def send (s : Chat) (text : String) (streams : Bool) : Chat :=
  let trimmed := jsTrim text
  if trimmed.isEmpty || s.sending then s
  else
    let pending := s.pendingTurn trimmed
    let s := { s with
      turns := s.turns ++ [pending], counter := s.counter + 1
      sending := true, failure := none, authRequired := false }
    if streams then
      let reply := s.placeholder
      { s with
        turns := s.turns ++ [reply], counter := s.counter + 1
        streamingId := some reply.id
        asks := s.asks ++ [{
          replyId := reply.id, conversationId := s.conversationId, basis := s.applied }] }
    else
      { s with sends := s.sends ++ [{
          pendingId := pending.id, conversationId := s.conversationId, basis := s.applied }] }

/-- Give the turn `id` another status. -/
def setStatus (turns : List Turn) (id : TurnId) (status : TurnStatus) : List Turn :=
  turns.map fun turn => if turn.id = id then { turn with status } else turn

/-- Select the conversation an answer names, unless it is the one `seen` by the closure
    that handles the answer. -/
def adopt (s : Chat) (named seen : Option String) : Chat :=
  match named with
  | none => s
  | some id =>
    if id.isEmpty || some id = seen then s
    else { s with conversationId := some id, storedId := some id }

/-- The rest of `send` over HTTP. The closure still sees the conversation it was made in. -/
def replyArrives (s : Chat) (request : HttpSend) : Except Caught Reply → Chat
  | .ok reply =>
    { s.adopt reply.conversationId request.conversationId with
      turns := setStatus s.turns request.pendingId .sent ++ [{
        id := .reply (s.counter + 1)
        role := .assistant
        text := reply.reply
        status := .sent
        citations := reply.citations.getD []
        traceId := reply.traceId
        escalated := reply.escalated
        streamed := false
        grounded := none
        streaming := false
        origins := [{ conversation := request.conversationId, basis := request.basis }] }]
      counter := s.counter + 1
      sending := false }
  | .error caught =>
    { s.showFailure caught with
      turns := setStatus s.turns request.pendingId .failed
      sending := false }

/-! ## Streaming -/

/-- `appendDelta`, of text produced for `ask`. -/
def appendDelta (s : Chat) (ask : StreamAsk) (text : String) : Chat :=
  match s.streamingId with
  | none => s
  | some target =>
    { s with turns := s.turns.map fun turn =>
        if turn.id = target then
          { turn with
            text := turn.text ++ text
            origins := turn.origins ++ [{ conversation := ask.conversationId, basis := ask.basis }] }
        else turn }

/-- What `completeStream` makes of one turn. -/
def completeTurn (target : TurnId) (ask : StreamAsk) (text : String) (result : StreamResult)
    (turn : Turn) : Turn :=
  if turn.id = target then
    { turn with
      text
      status := .sent
      streaming := false
      citations := result.citations
      escalated := result.escalated
      grounded := some result.grounded
      origins := [{ conversation := ask.conversationId, basis := ask.basis }] }
  else if turn.status = .pending then { turn with status := .sent }
  else turn

/-- `completeStream`, of the answer to `ask`, whose conversation the server repeats. -/
def completeStream (s : Chat) (ask : StreamAsk) (text : String) (result : StreamResult) : Chat :=
  match s.streamingId with
  | none => { s with sending := false }
  | some target =>
    { s.adopt ask.conversationId s.conversationId with
      streamingId := none, sending := false
      turns := s.turns.map (completeTurn target ask text result) }

/-- `failStream`. -/
def failStream (s : Chat) (message : String) : Chat :=
  { s with
    streamingId := none, sending := false
    failure := some { kind := .server, message, retryable := true }
    -- An assistant bubble with no text is worse than no bubble.
    turns := (s.turns.filter fun turn => !(some turn.id = s.streamingId && turn.text = "")).map
      fun turn => if turn.status = .pending then { turn with status := .failed } else turn }

end Chat

/-! ## The machine -/

inductive ChatEvent
  | resume
  | send (text : String) (streams : Bool)
  | loadHistory (id : String)
  | start
  | reset
  | reply (i : Nat) (response : Except Caught Reply)
  | history (i : Nat) (response : Except Caught (List ConversationMessage))
  | started (i : Nat) (response : Except Caught String)
  | delta (n : Nat) (text : String)
  | complete (n : Nat) (text : String) (result : StreamResult)
  | streamError (message : String)

/-- The server answers a message in the conversation the request named. -/
def HttpSend.answeredBy (request : HttpSend) : Except Caught Reply → Bool
  | .ok reply => reply.conversationId = request.conversationId
  | .error _ => true

def Chat.step (s : Chat) : ChatEvent → Option Chat
  | .resume => some s.resume
  | .send text streams => some (s.send text streams)
  | .loadHistory id => some (s.loadHistory id)
  | .start => some s.start
  | .reset => some s.reset
  | .reply i response =>
    match s.sends[i]? with
    | some request =>
      if request.answeredBy response then
        some ({ s with sends := s.sends.eraseIdx i }.replyArrives request response)
      else none
    | none => none
  | .history i response =>
    match s.selecting[i]? with
    | some { number, history := some id } =>
      some ({ s with selecting := s.selecting.eraseIdx i }.historyArrives number id response)
    | _ => none
  | .started i response =>
    match s.selecting[i]? with
    | some { number, history := none } =>
      some ({ s with selecting := s.selecting.eraseIdx i }.startArrives number response)
    | _ => none
  | .delta n text => (s.asks[n]?).map fun ask => s.appendDelta ask text
  | .complete n text result => (s.asks[n]?).map fun ask => s.completeStream ask text result
  | .streamError message => some (s.failStream message)

/-- The hook under every order of user actions, responses and stream callbacks. -/
def useConversation (storedId : Option String) : Machine Chat ChatEvent where
  init := .init storedId
  step := Chat.step

end NexaAssist.Frontend
