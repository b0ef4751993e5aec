import NexaAssist.Frontend.UseConversation

/-!
# The conversation screen

`ConversationScreen` hands what the realtime hook reports to the conversation's state
machine, and tries the socket before HTTP when a message is sent.
-/

namespace NexaAssist.Frontend

/-- The two hooks. `delivered` holds the frames that have reached the realtime one. -/
structure Screen where
  realtime : World
  conversation : Chat
  delivered : List InFlight

namespace Screen

/-- What a handler call does to the conversation. Frames of question `n` come from the
    `n`-th message that was put on the socket. -/
def handle (chat : Chat) (handed : Handed) : Chat :=
  match handed.call, handed.source with
  | .onError _ message, _ => chat.failStream message
  | .onDelta text, some n =>
    match chat.asks[n]? with
    | some ask => chat.appendDelta ask text
    | none => chat
  | .onComplete text _ result, some n =>
    match chat.asks[n]? with
    | some ask => chat.completeStream ask text result
    | none => chat
  | _, none => chat

/-- The realtime hook moves to `world`, and calls its handlers on the way. -/
def moveTo (s : Screen) (world : World) : Screen :=
  { s with
    realtime := world
    conversation := (world.handed.drop s.realtime.handed.length).foldl handle s.conversation }

/-- `handleSend`. The socket is tried once `send` has accepted the message. -/
def send (s : Screen) (text : String) : Screen :=
  if (jsTrim text).isEmpty || s.conversation.sending then s
  else if s.realtime.state = .opened then
    let (streams, world) := s.realtime.ask (jsTrim text) s.conversation.conversationId
    { s with realtime := world, conversation := s.conversation.send text streams }
  else { s with conversation := s.conversation.send text false }

/-- The frame that is delivered next on a socket. -/
def nextFrame (s : Screen) (k : Nat) : Option InFlight :=
  match (s.realtime.sockets k).readyState with
  | .opened => (s.realtime.sockets k).inbox.head?
  | _ => none

end Screen

/-! ## The machine -/

inductive ScreenEvent
  | send (text : String)
  | realtime (e : RealtimeEvent)
  | conversation (e : ChatEvent)

/-- What happens in one of the hooks. Questions and what comes of them go through both. -/
def Screen.step (s : Screen) : ScreenEvent → Option Screen
  | .send text => some (s.send text)
  | .realtime (.ask _ _) => none
  | .realtime (.deliver k) =>
    (useRealtime.step s.realtime (.deliver k)).map fun world =>
      { s.moveTo world with delivered := s.delivered ++ (s.nextFrame k).toList }
  | .realtime e => (useRealtime.step s.realtime e).map s.moveTo
  | .conversation (.send _ _) => none
  | .conversation (.delta _ _) => none
  | .conversation (.complete _ _ _) => none
  | .conversation (.streamError _) => none
  | .conversation e => (s.conversation.step e).map fun chat => { s with conversation := chat }

/-- The screen under every order of events. -/
def conversationScreen (storedId : Option String) : Machine Screen ScreenEvent where
  init := { realtime := .init, conversation := .init storedId, delivered := [] }
  step := Screen.step

end NexaAssist.Frontend
