import NexaAssist.ForStd.Machine
import NexaAssist.Realtime.Connection
import NexaAssist.Realtime.Envelope

/-!
# The WebSocket endpoint

`realtime` and `_serve`, from one await to the next. Every await returns or raises, and between
two of them a handler is alone, so that any number of handlers interleave at their awaits.
-/

namespace NexaAssist.Realtime

open PyJson

/-- What an await of a handler raises, as `realtime` tells it apart. A cancellation is one of the
    others. -/
inductive SocketException
  | disconnect
  | other (name : PyStr)
  deriving DecidableEq

/-- How a handler ends. -/
inductive Ended
  | returned
  | raised (exception : SocketException)
  deriving DecidableEq

/-- `except WebSocketDisconnect: pass`. -/
def Ended.ofTry : Ended → Ended
  | .raised .disconnect => .returned
  | ended => ended

/-- The await that a handler is in. -/
inductive Await
  /-- `websocket.accept()`. -/
  | accepting (ticket : Option PyStr)
  /-- `tickets.redeem(ticket)`. -/
  | redeeming
  /-- `websocket.close(...)` of a client without a ticket, or of one too many. -/
  | refusing
  /-- `connection.send(Ready(...))`. -/
  | greeting (connection : LiveConnection)
  /-- `websocket.receive_text()`. -/
  | receiving (connection : LiveConnection)
  /-- `websocket.close(code=CLOSE_TOO_LARGE, ...)`. -/
  | closingTooLarge (connection : LiveConnection)
  /-- `connection.send(...)` of an error or a pong. -/
  | replying (connection : LiveConnection)
  /-- Somewhere in `streamer.answer(...)`. -/
  | answering (connection : LiveConnection)
  /-- `websocket.close()` of the finally block, with how the try block ended. -/
  | closing (connection : LiveConnection) (ended : Ended)
  /-- No more. The connection is the one that was registered. -/
  | done (connection : Option LiveConnection) (ended : Ended)
  deriving DecidableEq

/-- What an await comes to. -/
inductive Outcome
  | returned
  /-- What `redeem` returns. -/
  | redeemed (subject : Option Text)
  | received (raw : RawFrame)
  /-- One await of many in an answer. -/
  | answered
  | raised (exception : SocketException)

namespace Await

/-- The connection of a handler that is past `add` and before its finally block. -/
def serving : Await → Option LiveConnection
  | .greeting connection => some connection
  | .receiving connection => some connection
  | .closingTooLarge connection => some connection
  | .replying connection => some connection
  | .answering connection => some connection
  | _ => none

/-- And of one that has run the first line of it. -/
def left : Await → Option LiveConnection
  | .closing connection _ => some connection
  | .done connection _ => connection
  | _ => none

end Await

/-- What the endpoint depends on. -/
structure Deployment where
  protects : Bool
  maxMessageBytes : Nat
  uuid : PyStr → Option Uuid

/-- The registry, and where each handler is. -/
structure Endpoint where
  registry : ConnectionRegistry
  handlers : List Await

/-- A handler begins, or is resumed. `raises` is what the code up to its next await raises, and
    `connected` whether `application_state` is `CONNECTED` when it is asked. -/
inductive EndpointEvent
  | connect (ticket : Option PyStr)
  | resume (handler : Nat) (outcome : Outcome) (raises : Option SocketException)
      (connected : Bool)

namespace Endpoint

/-- `registry.add`, and the first await behind it. -/
def register (socket : Nat) (registry : ConnectionRegistry) : Await × ConnectionRegistry :=
  match registry.add socket with
  | .error _ => (.refusing, registry)
  | .ok (connection, registry) => (.greeting connection, registry)

/-- `authenticate_socket`, up to an await or to the end of it. -/
def authenticate (deployment : Deployment) (socket : Nat) (ticket : Option PyStr)
    (registry : ConnectionRegistry) : Await × ConnectionRegistry :=
  if !deployment.protects then register socket registry
  else if ticket.getD [] = [] then (.refusing, registry)
  else (.redeeming, registry)

/-- The finally block, up to its await. -/
def leave (connection : LiveConnection) (ended : Ended) (connected : Bool)
    (registry : ConnectionRegistry) : Await × ConnectionRegistry :=
  let registry := registry.remove connection
  if connected then (.closing connection ended.ofTry, registry)
  else (.done (some connection) ended.ofTry, registry)

/-- One turn of the loop of `_serve`. -/
def dispatch (deployment : Deployment) (connection : LiveConnection) (raw : RawFrame) : Await :=
  match receive deployment.uuid deployment.maxMessageBytes raw with
  | .tooLarge => .closingTooLarge connection
  | .refused _ => .replying connection
  | .handled (.ask ..) => .answering connection
  | .handled .ping => .replying connection

/-- What a handler does from its await to the next. -/
def resume (deployment : Deployment) (socket : Nat) (raises : Option SocketException)
    (connected : Bool) (registry : ConnectionRegistry) :
    Await → Outcome → Option (Await × ConnectionRegistry)
  | .accepting ticket, .returned => some (authenticate deployment socket ticket registry)
  | .redeeming, .redeemed none => some (.refusing, registry)
  | .redeeming, .redeemed (some _) => some (register socket registry)
  | .refusing, .returned => some (.done none .returned, registry)
  | .greeting connection, .returned =>
    -- `scope_for`, both `scope_to` and the streamer.
    match raises with
    | some exception => some (leave connection (.raised exception) connected registry)
    | none => some (.receiving connection, registry)
  | .receiving connection, .received raw =>
    match raises with
    | some exception => some (leave connection (.raised exception) connected registry)
    | none => some (dispatch deployment connection raw, registry)
  | .closingTooLarge connection, .returned => some (leave connection .returned connected registry)
  | .replying connection, .returned => some (.receiving connection, registry)
  | .answering connection, .answered => some (.answering connection, registry)
  | .answering connection, .returned => some (.receiving connection, registry)
  | .closing connection ended, .returned => some (.done (some connection) ended, registry)
  | .closing connection _, .raised exception =>
    some (.done (some connection) (.raised exception), registry)
  | .done .., _ => none
  | await, .raised exception =>
    match await.serving with
    | some connection => some (leave connection (.raised exception) connected registry)
    | none => some (.done none (.raised exception), registry)
  | _, _ => none

def init (maxConnections : { n : Nat // 1 ≤ n }) : Endpoint where
  registry := .init maxConnections
  handlers := []

def step (deployment : Deployment) (s : Endpoint) : EndpointEvent → Option Endpoint
  | .connect ticket => some { s with handlers := s.handlers ++ [.accepting ticket] }
  | .resume handler outcome raises connected => do
    let await ← s.handlers[handler]?
    let (await, registry) ←
      resume deployment handler raises connected s.registry await outcome
    some { registry, handlers := s.handlers.set handler await }

end Endpoint

/-- Any number of handlers over one registry. -/
def endpoint (deployment : Deployment) (maxConnections : { n : Nat // 1 ≤ n }) :
    Machine Endpoint EndpointEvent where
  init := .init maxConnections
  step := Endpoint.step deployment

/-! ## What a step does to the registry -/

/-- A handler goes from one await to the next. -/
inductive Moved (socket : Nat) (registry : ConnectionRegistry) (await : Await) :
    Await → ConnectionRegistry → Prop
  /-- Neither in nor out. -/
  | stays {await' : Await} (hserving : await'.serving = await.serving)
      (hleft : await'.left = await.left) : Moved socket registry await await' registry
  /-- In. -/
  | enters {connection : LiveConnection} {registry' : ConnectionRegistry}
      (hserving : await.serving = none) (hleft : await.left = none)
      (hadd : registry.add socket = .ok (connection, registry')) :
      Moved socket registry await (.greeting connection) registry'
  /-- Out, to the finally block. -/
  | leaves {connection : LiveConnection} {await' : Await}
      (hserving : await.serving = some connection) (hleft : await.left = none)
      (hserving' : await'.serving = none) (hleft' : await'.left = some connection) :
      Moved socket registry await await' (registry.remove connection)

section Moves

variable {deployment : Deployment} {socket : Nat} {raises : Option SocketException}
  {connected : Bool} {registry : ConnectionRegistry} {await : Await} {connection : LiveConnection}

/-- `register` moves a handler as `Moved` allows. -/
theorem moved_register (hserving : await.serving = none) (hleft : await.left = none) :
    Moved socket registry await (Endpoint.register socket registry).1
      (Endpoint.register socket registry).2 := by
  unfold Endpoint.register
  cases hadd : registry.add socket with
  | error error => exact .stays hserving.symm hleft.symm
  | ok added => exact .enters hserving hleft hadd

/-- `authenticate` moves a handler as `Moved` allows. -/
theorem moved_authenticate (ticket : Option PyStr) :
    Moved socket registry (.accepting ticket)
      (Endpoint.authenticate deployment socket ticket registry).1
      (Endpoint.authenticate deployment socket ticket registry).2 := by
  unfold Endpoint.authenticate
  split
  · exact moved_register rfl rfl
  · split
    · exact .stays rfl rfl
    · exact .stays rfl rfl

/-- `leave` moves a handler as `Moved` allows. -/
theorem moved_leave (ended : Ended) (hserving : await.serving = some connection)
    (hleft : await.left = none) :
    Moved socket registry await (Endpoint.leave connection ended connected registry).1
      (Endpoint.leave connection ended connected registry).2 := by
  unfold Endpoint.leave
  cases connected with
  | true => exact .leaves hserving hleft rfl rfl
  | false => exact .leaves hserving hleft rfl rfl

/-- `dispatch` leaves a handler serving its connection. -/
theorem serving_dispatch (raw : RawFrame) :
    (Endpoint.dispatch deployment connection raw).serving = some connection ∧
      (Endpoint.dispatch deployment connection raw).left = none := by
  unfold Endpoint.dispatch
  split <;> exact ⟨rfl, rfl⟩

/-- A handler that raises moves as `Moved` allows. -/
theorem moved_of_raised (exception : SocketException) (hleft : await.left = none)
    {moved : Await × ConnectionRegistry}
    (h : (match await.serving with
      | some connection =>
        some (Endpoint.leave connection (.raised exception) connected registry)
      | none => some (.done none (.raised exception), registry)) = some moved) :
    Moved socket registry await moved.1 moved.2 := by
  split at h
  · rename_i connection hserving
    rw [← Option.some.inj h]
    exact moved_leave _ hserving hleft
  · rename_i hserving
    rw [← Option.some.inj h]
    exact .stays hserving.symm hleft.symm

/-- `resume` moves a handler as `Moved` allows. -/
theorem moved_resume {outcome : Outcome} {moved : Await × ConnectionRegistry}
    (h : Endpoint.resume deployment socket raises connected registry await outcome = some moved) :
    Moved socket registry await moved.1 moved.2 := by
  -- Most awaits leave the handler with the connection it has
  have hstays : ∀ {await' : Await}, some (await', registry) = some moved →
      await'.serving = await.serving → await'.left = await.left →
      Moved socket registry await moved.1 moved.2 := by
    intro await' heq hserving hleft
    rw [← Option.some.inj heq]
    exact .stays hserving hleft
  have hmoves : ∀ p : Await × ConnectionRegistry, Moved socket registry await p.1 p.2 →
      some p = some moved → Moved socket registry await moved.1 moved.2 := by
    intro p hmoved heq
    rw [← Option.some.inj heq]
    exact hmoved
  unfold Endpoint.resume at h
  split at h
  · exact hmoves _ (moved_authenticate _) h
  · exact hstays h rfl rfl
  · exact hmoves _ (moved_register rfl rfl) h
  · exact hstays h rfl rfl
  · split at h
    · exact hmoves _ (moved_leave _ rfl rfl) h
    · exact hstays h rfl rfl
  · split at h
    · exact hmoves _ (moved_leave _ rfl rfl) h
    · obtain ⟨hserving, hleft⟩ := serving_dispatch _
      exact hstays h hserving hleft
  · exact hmoves _ (moved_leave _ rfl rfl) h
  · exact hstays h rfl rfl
  · exact hstays h rfl rfl
  · exact hstays h rfl rfl
  · exact hstays h rfl rfl
  · exact hstays h rfl rfl
  · exact nomatch h
  · rename_i hclosing hdone
    -- A handler that closes or is done is not caught here.
    have hleft : await.left = none := by
      cases await with
      | closing connection ended => exact (hclosing connection ended rfl).elim
      | done connection ended => exact (hdone connection ended rfl).elim
      | _ => rfl
    exact moved_of_raised _ hleft h
  · exact nomatch h

end Moves

end NexaAssist.Realtime
