import NexaAssist.Services.Assistant

/-!
# Streaming an answer over a live connection

With a database a question runs through the pipeline, and the finished reply is cut into
deltas. Without one the model's prose is passed on as it comes, and marked as ungrounded.
What a question makes the server send is returned, in the order it is sent.
-/

namespace NexaAssist

open PyJson

/-! ## Cutting a finished answer -/

/-- The loop of `chunk`, with the piece collected so far. -/
def chunkLoop (size : Nat) (piece : PyStr) : List PyStr → List PyStr
  | [] => if piece = [] then [] else [piece]
  | word :: words =>
    let piece := piece ++ word
    if size ≤ piece.length && !word.isspace then piece :: chunkLoop size [] words
    else chunkLoop size piece words

/-- Split a finished answer on word boundaries, keeping the whitespace. -/
def chunk (text : PyStr) (size : Nat) : List PyStr :=
  if text = [] then [] else chunkLoop size [] (resplit text)

/-- The pieces make up what was collected and the words to come. -/
theorem chunkLoop_flatten (size : Nat) (piece : PyStr) (words : List PyStr) :
    (chunkLoop size piece words).flatten = piece ++ words.flatten := by
  induction words generalizing piece with
  | nil =>
    unfold chunkLoop
    split
    · rename_i hpiece
      simp [hpiece]
    · simp
  | cons word words ih =>
    unfold chunkLoop
    simp only
    split
    · rw [List.flatten_cons, ih, List.flatten_cons, List.nil_append, List.append_assoc]
    · rw [ih, List.flatten_cons, List.append_assoc]

/-- Joining the pieces reproduces the text. -/
theorem chunk_flatten (text : PyStr) (size : Nat) : (chunk text size).flatten = text := by
  unfold chunk
  split
  · rename_i hnil
    rw [hnil, List.flatten_nil]
  · rw [chunkLoop_flatten, List.nil_append]
    have hjoin := splitSpaces_join text
    have hwords : (resplit text).flatten =
        (splitSpaces text).1 ++ ((splitSpaces text).2.flatMap fun p => p.1 ++ p.2) := by
      rw [resplit, List.flatten_cons, List.append_cancel_left_eq]
      induction (splitSpaces text).2 with
      | nil => rfl
      | cons p pairs ih => simp [List.flatMap_cons, ih]
    rw [hwords, hjoin]

/-! ## The parties -/

/-- Answers one question through the full pipeline, where it is `available`. -/
structure Answerer where
  answer : Text → Option Uuid → App AssistantReply
  available : Bool

/-- Appends a turn to a conversation, or raises. -/
abbrev TurnRecorder := Uuid → MessageRole → PyStr → App Unit

namespace AnswerStreamer

def STREAM_FAILED_MESSAGE : PyStr := lit "The answer could not be completed."

/-- The `Error` frame of an application error. -/
def errorFrame (error : AppError) : ServerMessage := .error (lit error.code) error.message

/-- The frames of a finished reply. -/
def replyFrames (conversationId : Option Uuid) (reply : AssistantReply) : List ServerMessage :=
  let pieces := chunk reply.reply.val 24
  pieces.map .delta ++
    [.complete reply.reply.val pieces.length conversationId true reply.citations reply.escalated]

/-- `_answer_grounded`: run the pipeline, then send the finished answer as deltas. -/
def answerGrounded (answerer : Answerer) (question : Text) (conversationId : Option Uuid) :
    App (List ServerMessage) :=
  tryCatch
    (do
      let reply ← answerer.answer question conversationId
      pure (replyFrames conversationId reply))
    fun
    | .app error => pure [errorFrame error]
    | .llm error => pure [errorFrame error.error]
    | _ => pure [.error (lit "realtime_answer_failed") STREAM_FAILED_MESSAGE]

/-- `_record`: append one turn, reporting a failure as a frame. -/
def record (recorder : Option TurnRecorder) (conversationId : Uuid) (role : MessageRole)
    (content : PyStr) : App (List ServerMessage × Bool) :=
  match recorder with
  | none =>
    pure ([.error (lit "realtime_conversations_unavailable")
      (lit "This connection cannot record conversations.")], false)
  | some recordTurn =>
    tryCatch
      (do
        recordTurn conversationId role content
        pure ([], true))
      fun
      | .app error => pure ([errorFrame error], false)
      | .llm error => pure ([errorFrame error.error], false)
      | _ => pure ([.error (lit "realtime_turn_not_recorded")
        (lit "The exchange could not be recorded.")], false)

/-- Record a turn where a conversation was given. -/
def recordIn (recorder : Option TurnRecorder) (conversationId : Option Uuid)
    (role : MessageRole) (content : PyStr) : App (List ServerMessage × Bool) :=
  match conversationId with
  | none => pure ([], true)
  | some conversationId => record recorder conversationId role content

/-- `_stream_prose`: the fallback, unsourced prose as the model produces it. -/
def streamProse (recorder : Option TurnRecorder) (question : Text) (conversationId : Option Uuid) :
    App (List ServerMessage) := do
  let (refused, recorded) ← recordIn recorder conversationId .customer question.val
  if !recorded then pure refused
  else
    let env ← Effect.ask
    let prompt : LLMPrompt := { system := REALTIME_REPLY_SYSTEM_PROMPT, user := question.val }
    Effect.modify fun w => w.sendPrompt prompt
    match env.provider.streamText prompt with
    | (pieces, some error) =>
      pure (pieces.map .delta ++ [.error (lit error.error.code) STREAM_FAILED_MESSAGE])
    | (pieces, none) =>
      -- A recording failure is reported, and does not retract what was sent.
      let (failed, _) ← recordIn recorder conversationId .assistant pieces.flatten
      pure (pieces.map .delta ++ failed ++
        [.complete pieces.flatten pieces.length conversationId false [] false])

/-- `answer`, of a streamer that is not busy. -/
def answerFrom (recorder : Option TurnRecorder) (answerer : Option Answerer) (question : Text)
    (conversationId : Option Uuid) : App (List ServerMessage) :=
  match answerer with
  | some answerer =>
    if answerer.available then answerGrounded answerer question conversationId
    else streamProse recorder question conversationId
  | none => streamProse recorder question conversationId

/-- What is sent for a question while another is being answered. -/
def busyFrame : ServerMessage :=
  .error (lit "realtime_busy") (lit "A question is already being answered on this connection.")

end AnswerStreamer

/-! ## The streamer of a connection -/

/-- `SessionAnswerer`: the pipeline, in a session of its own. -/
def SessionAnswerer (service : AssistantService) (scope : Option OwnerScope) (available : Bool) :
    Answerer where
  answer question conversationId := App.inNewSession (service.respond question conversationId scope)
  available := available

/-- `SessionTurnRecorder`: a turn, in a session of its own. -/
def SessionTurnRecorder (scope : Option OwnerScope) : TurnRecorder :=
  fun conversationId role content => do
    let _ ← App.inNewSession (ConversationService.append conversationId role content [] scope)
    pure ()

/-- Answers questions on one connection, one at a time. `recorder` and `answerer` say
    whether it was given one. -/
structure AnswerStreamer where
  service : AssistantService
  scope : Option OwnerScope
  recorder : Bool
  answerer : Bool
  busy : Bool

namespace AnswerStreamer

variable (streamer : AnswerStreamer)

def turnRecorder : Option TurnRecorder :=
  if streamer.recorder then some (SessionTurnRecorder streamer.scope) else none

def questionAnswerer (settings : Settings) : Option Answerer :=
  if streamer.answerer then
    some (SessionAnswerer streamer.service streamer.scope settings.databaseConfigured)
  else none

/-- Stream one answer, reporting any failure as a frame. -/
def answer (question : Text) (conversationId : Option Uuid) : App (List ServerMessage) := do
  if streamer.busy then pure [busyFrame]
  else
    let env ← Effect.ask
    answerFrom streamer.turnRecorder (streamer.questionAnswerer env.settings) question conversationId

end AnswerStreamer

end NexaAssist
