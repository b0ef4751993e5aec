import NexaAssist.ForStd.JsJson
import NexaAssist.Frontend.UseConversation

/-!
# What a message is sent as

What `send` makes of the text in the composer, on the socket and over HTTP.
-/

namespace NexaAssist.Frontend

open PyJson

/-- What `trim` takes off. A surrogate, which is no `Char`, is not white space. -/
def isSpaceUnit (unit : JsUnit) : Bool := isJsSpace (.ofNat unit.val)

/-- `text.trim()`. -/
def trim (text : JsString) : JsString :=
  ((text.dropWhile isSpaceUnit).reverse.dropWhile isSpaceUnit).reverse

/-- The frame `ask` puts on the socket. -/
def askFrame (question : JsString) (conversationId : Option JsString) : JsObject :=
  [("type", some (.ofAscii "ask")), ("question", some question),
    ("conversation_id", conversationId)]

/-- The body `sendMessage` posts. -/
def messageBody (message : JsString) (conversationId : Option JsString) : JsObject :=
  [("message", some message), ("conversation_id", conversationId)]

/-- What `send` puts on the socket for what is in the composer, where the socket takes it. -/
def sentOnSocket (text : JsString) (conversationId : Option JsString) : JsObject :=
  askFrame (trim text) conversationId

/-- What `send` posts, where the socket does not. -/
def sentOverHttp (text : JsString) (conversationId : Option JsString) : JsObject :=
  messageBody (trim text) conversationId

end NexaAssist.Frontend
