import Mathlib.Algebra.GroupWithZero.Nat
import NexaAssist.ForStd.Machine

/-!
# The realtime connection hook

`useRealtime`, its sockets and the server loop behind each of them. What the hook
keeps in refs is `Hook`; `World` adds what runs beside it: the effect that is
mounted, the sockets, the tickets and timers outstanding, and the calls its handlers
got. Questions and mounts are numbered to say which one a frame or a socket belongs
to; the hook itself never looks at a number.

An event is one turn of the browser's loop, or one move of a server. A socket's
messages reach the hook only while it is open, and its close event comes once.
-/

namespace NexaAssist.Frontend

/-! ## Frames and sockets -/

structure Citation where
  documentId : String
  documentTitle : String
  ordinal : Nat
  excerpt : String
  similarity : Rat
  deriving DecidableEq

/-- What a finished stream turned out to be. -/
structure StreamResult where
  grounded : Bool
  citations : List Citation
  escalated : Bool

/-- A message as `parseServerFrame` reads it. It makes `null` of `unrecognised`. -/
inductive ServerFrame
  | ready (connectionId : String) (protocolVersion : Nat)
  | pong
  | delta (text : String)
  | complete (text : String) (conversationId : Option String) (grounded : Option Bool)
      (citations : Option (List Citation)) (escalated : Option Bool)
  | error (code message : String)
  | unrecognised (raw : String)

/-- A question on its way to, or being answered by, a server loop. -/
structure Ask where
  number : Nat
  question : String
  conversationId : Option String

/-- A frame on its way to the client, with the question it was produced for. -/
structure InFlight where
  source : Option Nat
  frame : ServerFrame

inductive ReadyState
  | connecting
  | opened
  | closing
  | closed
  deriving DecidableEq, Repr

/-- A socket and the server loop at its other end, which answers its `asks` in the
    order it received them. -/
structure Socket where
  readyState : ReadyState
  /-- The run of the mount effect that created it. -/
  mount : Nat
  closeCalled : Bool
  serving : Bool
  asks : List Ask
  inbox : List InFlight

/-- A socket nobody has created. -/
def Socket.absent : Socket :=
  { readyState := .closed, mount := 0, closeCalled := false, serving := false, asks := [], inbox := [] }

/-- A socket just created. -/
def Socket.new (mount : Nat) : Socket :=
  { Socket.absent with readyState := .connecting, mount := mount, serving := true }

/-- Nobody has closed it: `close()` was not called and it has had no close event. -/
def Socket.unclosed (socket : Socket) : Bool :=
  !socket.closeCalled && socket.readyState != .closed

/-- `socket.close()`. -/
def Socket.close (socket : Socket) : Socket :=
  { socket with
    closeCalled := true
    readyState := if socket.readyState = .closed then .closed else .closing }

/-! ## The hook -/

inductive RealtimeState
  | connecting
  | opened
  | reconnecting
  | unavailable
  deriving DecidableEq, Repr

/-- A call of one of the hook's handlers. -/
inductive HandlerCall
  | onDelta (text : String)
  | onComplete (text : String) (conversationId : Option String) (result : StreamResult)
  | onError (code message : String)

/-- A handler call, with the question awaited when it was made and the one its frame
    was produced for. -/
structure Handed where
  call : HandlerCall
  awaited : Option Nat
  source : Option Nat

def maxAttempts : Nat := 5
def baseDelayMs : Nat := 500
def maxDelayMs : Nat := 8000

/-- A timer that will call `connect`. -/
structure Reconnect where
  handle : Nat
  mount : Nat
  delay : Nat

/-- What the hook keeps in its state and refs. `awaiting` holds the number of the
    question while `awaitingRef` is true. -/
structure Hook where
  state : RealtimeState
  answerTimer : Option Nat
  socketRef : Option Nat
  attempts : Nat
  timerRef : Option Nat
  closedByUs : Bool
  awaiting : Option Nat

/-- The hook and what runs beside it. `effect` is the mount effect that is in force,
    with its `enabled`. -/
structure World extends Hook where
  effect : Option Bool
  mounts : Nat
  sockets : Nat → Socket
  created : Nat
  tickets : List Nat
  reconnects : List Reconnect
  answerTimers : List Nat
  handles : Nat
  asked : Nat
  handed : List Handed

namespace World

def init : World where
  state := .connecting
  answerTimer := none
  socketRef := none
  attempts := 0
  timerRef := none
  closedByUs := false
  awaiting := none
  effect := none
  mounts := 0
  sockets := fun _ => .absent
  created := 0
  tickets := []
  reconnects := []
  answerTimers := []
  handles := 0
  asked := 0
  handed := []

def setSocket (w : World) (k : Nat) (socket : Socket) : World :=
  { w with sockets := fun j => if j = k then socket else w.sockets j }

/-- `clearTimeout` of the answer timer a ref holds, if it holds one. -/
def answerTimersWithout (w : World) : Option Nat → List Nat
  | none => w.answerTimers
  | some handle => w.answerTimers.filter (· ≠ handle)

/-- `clearTimeout` of the reconnect timer a ref holds, if it holds one. -/
def reconnectsWithout (w : World) : Option Nat → List Reconnect
  | none => w.reconnects
  | some handle => w.reconnects.filter (·.handle ≠ handle)

/-- `socketRef.current?.close()`. -/
def socketsClosing (w : World) : Option Nat → Nat → Socket
  | none => w.sockets
  | some k => (w.setSocket k (w.sockets k).close).sockets

/-- Call a handler. -/
def hand (w : World) (source : Option Nat) (call : HandlerCall) : World :=
  { w with handed := w.handed ++ [{ call, awaited := w.awaiting, source }] }

/-- Stop waiting for an answer, whatever the reason. -/
def settle (w : World) : World :=
  { w with
    awaiting := none
    answerTimer := none
    answerTimers := w.answerTimersWithout w.answerTimer }

/-! ## Connecting -/

/-- The second half of `connect`, once there is a ticket or none is needed. `creates`
    says whether the socket factory returns. -/
def openSocket (w : World) (mount : Nat) (creates : Bool) : World :=
  -- The component may have unmounted while the ticket was in flight.
  if w.closedByUs then w
  else if !creates then { w with state := .unavailable }
  else { w.setSocket w.created (.new mount) with
    socketRef := some w.created, created := w.created + 1 }

/-- `connect`, up to its `await`. Without a ticket source it never waits. -/
def connect (w : World) (mount : Nat) (hasTicketSource creates : Bool) : World :=
  if hasTicketSource then { w with tickets := w.tickets ++ [mount] }
  else w.openSocket mount creates

/-- The promise of a ticket settles, with one or with null. -/
def ticketArrives (w : World) (i : Nat) (granted creates : Bool) : Option World :=
  match w.tickets[i]? with
  | none => none
  | some mount =>
    let w := { w with tickets := w.tickets.eraseIdx i }
    some (if granted then w.openSocket mount creates else { w with state := .unavailable })

/-- A reconnect timer fires. -/
def reconnectFires (w : World) (handle : Nat) (hasTicketSource creates : Bool) : Option World :=
  match w.reconnects.find? (·.handle = handle) with
  | none => none
  | some timer =>
    let w := { w with reconnects := w.reconnectsWithout (some handle) }
    some (w.connect timer.mount hasTicketSource creates)

/-- The mount effect. -/
def mountEffect (w : World) (enabled hasTicketSource creates : Bool) : Option World :=
  match w.effect with
  | some _ => none
  | none =>
    if !enabled then some { w with effect := some false, state := .unavailable }
    else
      let w := { w with effect := some true, mounts := w.mounts + 1, closedByUs := false }
      some (w.connect w.mounts hasTicketSource creates)

/-- The cleanup of the mount effect: a disabled one has none. -/
def cleanup (w : World) : Option World :=
  match w.effect with
  | none => none
  | some false => some { w with effect := none }
  | some true =>
    some { w with
      effect := none
      closedByUs := true
      reconnects := w.reconnectsWithout w.timerRef
      sockets := w.socketsClosing w.socketRef
      socketRef := none }

/-! ## A socket's events -/

def onopen (w : World) (k : Nat) : Option World :=
  match (w.sockets k).readyState with
  | .connecting => some { w.setSocket k { w.sockets k with readyState := .opened } with
      attempts := 0, state := .opened }
  | _ => none

/-- `onmessage`, of a frame produced for `source`. -/
def onmessage (w : World) (source : Option Nat) : ServerFrame → World
  | .delta text => if w.awaiting.isSome then w.hand source (.onDelta text) else w
  | .complete text conversationId grounded citations escalated =>
    if w.awaiting.isSome then
      { w.hand source (.onComplete text conversationId
          { grounded := grounded.getD false, citations := citations.getD []
            escalated := escalated.getD false }) with awaiting := none }
    else w
  -- Reported whether or not a question is open.
  | .error code message => { w.hand source (.onError code message) with awaiting := none }
  | .ready _ _ => w
  | .pong => w
  | .unrecognised _ => w

/-- The next frame on a socket is delivered, if the socket is open. -/
def deliver (w : World) (k : Nat) : Option World :=
  match (w.sockets k).readyState, (w.sockets k).inbox with
  | .opened, message :: rest =>
    some ((w.setSocket k { w.sockets k with inbox := rest }).onmessage message.source message.frame)
  | _, _ => none

/-- The other side starts closing, or the connection fails. -/
def closingStarts (w : World) (k : Nat) : Option World :=
  match (w.sockets k).readyState with
  | .connecting => some (w.setSocket k { w.sockets k with readyState := .closing })
  | .opened => some (w.setSocket k { w.sockets k with readyState := .closing })
  | _ => none

/-- What `onclose` does before it looks at `closedByUs`. -/
def dropQuestion (w : World) : World :=
  { w.settle with
    socketRef := none
    handed := if w.awaiting.isSome then
        w.handed ++ [{
          call := .onError "realtime_disconnected"
            "The connection dropped before the answer arrived. Please try again."
          awaited := w.awaiting, source := none }]
      else w.handed }

/-- `onclose`, of a socket made by `mount`. -/
def onclose (w : World) (mount : Nat) : World :=
  let w := w.dropQuestion
  if w.closedByUs then w
  else
    let w := { w with attempts := w.attempts + 1 }
    if maxAttempts < w.attempts then { w with state := .unavailable }
    else
      let delay := min (baseDelayMs * 2 ^ (w.attempts - 1)) maxDelayMs
      { w with
        state := .reconnecting
        reconnects := w.reconnects ++ [{ handle := w.handles, mount, delay }]
        timerRef := some w.handles
        handles := w.handles + 1 }

/-- A socket's close event. -/
def closeEvent (w : World) (k : Nat) : Option World :=
  if (w.sockets k).readyState = .closed then none
  else some ((w.setSocket k { w.sockets k with readyState := .closed }).onclose (w.sockets k).mount)

/-! ## Asking -/

/-- The socket `send` would put a frame on. -/
def sendTarget (w : World) : Option Nat :=
  match w.socketRef with
  | none => none
  | some k => if (w.sockets k).readyState = .opened then some k else none

/-- Whether `ask` would accept a question now. -/
def accepts (w : World) : Bool := w.awaiting.isNone && w.sendTarget.isSome

/-- `ask`: what it returns, and the world after it. -/
def ask (w : World) (question : String) (conversationId : Option String) : Bool × World :=
  if w.awaiting.isSome then (false, w)
  else match w.sendTarget with
    | none => (false, w)
    | some k =>
      let socket := w.sockets k
      -- A frame can be accepted by a socket whose server loop has ended.
      let asks := if socket.serving then
          socket.asks ++ [{ number := w.asked, question, conversationId }]
        else socket.asks
      (true, { w.setSocket k { socket with asks } with
        awaiting := some w.asked
        asked := w.asked + 1
        answerTimer := some w.handles
        answerTimers := w.answerTimers ++ [w.handles]
        handles := w.handles + 1 })

/-- An answer timer fires. -/
def answerTimeout (w : World) (handle : Nat) : Option World :=
  if handle ∈ w.answerTimers then
    let w := { w with answerTimers := w.answerTimersWithout (some handle) }
    if w.awaiting.isNone then some w
    else
      some { w.settle with handed := w.handed ++ [{
        call := .onError "realtime_timeout" "The assistant did not answer in time. Please try again."
        awaited := w.awaiting, source := none }] }
  else none

/-! ## The server loops -/

/-- A server loop sends a frame of the question it is answering. -/
def serve (w : World) (k : Nat) (frame : ServerFrame) : Option World :=
  match (w.sockets k).asks with
  | [] => none
  | ask :: _ => some (w.setSocket k { w.sockets k with
      inbox := (w.sockets k).inbox ++ [{ source := some ask.number, frame }] })

/-- A server loop is done with the question it is answering. -/
def serverFinishes (w : World) (k : Nat) : Option World :=
  match (w.sockets k).asks with
  | [] => none
  | _ :: rest => some (w.setSocket k { w.sockets k with asks := rest })

/-- A server loop greets a client whose socket is open. -/
def greet (w : World) (k : Nat) (connectionId : String) : Option World :=
  if (w.sockets k).readyState = .opened then
    some (w.setSocket k { w.sockets k with
      inbox := (w.sockets k).inbox ++ [{ source := none, frame := .ready connectionId 1 }] })
  else none

/-- A server loop ends: it answers nothing more. -/
def serverStops (w : World) (k : Nat) : World :=
  w.setSocket k { w.sockets k with serving := false, asks := [] }

end World

/-! ## The machine -/

inductive RealtimeEvent
  | mountEffect (enabled hasTicketSource creates : Bool)
  | cleanup
  | ticket (i : Nat) (granted creates : Bool)
  | reconnect (handle : Nat) (hasTicketSource creates : Bool)
  | opened (k : Nat)
  | deliver (k : Nat)
  | closing (k : Nat)
  | closed (k : Nat)
  | ask (question : String) (conversationId : Option String)
  | answerTimeout (handle : Nat)
  | serve (k : Nat) (frame : ServerFrame)
  | serverFinishes (k : Nat)
  | greet (k : Nat) (connectionId : String)
  | serverStops (k : Nat)

def World.step (w : World) : RealtimeEvent → Option World
  | .mountEffect enabled hasTicketSource creates => w.mountEffect enabled hasTicketSource creates
  | .cleanup => w.cleanup
  | .ticket i granted creates => w.ticketArrives i granted creates
  | .reconnect handle hasTicketSource creates => w.reconnectFires handle hasTicketSource creates
  | .opened k => w.onopen k
  | .deliver k => w.deliver k
  | .closing k => w.closingStarts k
  | .closed k => w.closeEvent k
  | .ask question conversationId => some (w.ask question conversationId).2
  | .answerTimeout handle => w.answerTimeout handle
  | .serve k frame => w.serve k frame
  | .serverFinishes k => w.serverFinishes k
  | .greet k connectionId => w.greet k connectionId
  | .serverStops k => some (w.serverStops k)

/-- The hook under every order of its events. -/
def useRealtime : Machine World RealtimeEvent where
  init := .init
  step := World.step

end NexaAssist.Frontend
