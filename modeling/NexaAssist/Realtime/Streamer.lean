import NexaAssist.ForStd.Emits
import NexaAssist.Realtime.Answers

/-!
# The streamer, whatever its parties do

`Realtime.Answers` lists what a question makes the server send when all goes on as the pipeline
has it. Here the answerer, the streaming provider and the recorder may return or raise anything,
and a frame goes out one at a time: it is serialised first, and that may raise as well.
-/

namespace NexaAssist.Realtime

open PyJson
open AnswerStreamer (STREAM_FAILED_MESSAGE errorFrame busyFrame replyFrames)

/-- An exception, by the classes that the handlers tell apart. -/
inductive LiveException
  /-- An `AppError` that is no `LLMError`. -/
  | app (error : AppError)
  | llm (error : LLMError)
  | other (name : String)

/-- What `except AppError` catches. An `LLMError` is one. -/
def LiveException.appError : LiveException → Option AppError
  | .app error => some error
  | .llm error => some error.error
  | .other _ => none

/-- The parties of a streamer, as they behave for one question. -/
structure Parties where
  /-- The answerer with its `available`, where the streamer was given one. -/
  answerer : Option (Bool × (Text → Option Uuid → Except LiveException AssistantReply))
  /-- The deltas, and what ends them early. -/
  streamText : LLMPrompt → List PyStr × Option LiveException
  recorder : Option (Uuid → MessageRole → PyStr → Except LiveException Unit)

/-- The answerer that a question goes to. -/
def Parties.available (parties : Parties) :
    Option (Text → Option Uuid → Except LiveException AssistantReply) :=
  match parties.answerer with
  | some (true, answer) => some answer
  | _ => none

/-- A connection, with what was sent on it, and whether its streamer is busy. -/
structure Connection where
  sent : List ServerMessage
  busy : Bool

def Connection.opened : Connection where
  sent := []
  busy := false

abbrev Live := Effect Parties LiveException Connection

/-- Whether a frame has a UTF-8 encoding. -/
def encodable : ServerMessage → Bool
  | .delta text => wellFormed text
  | .complete text _ _ _ citations _ =>
    wellFormed text && citations.all fun citation =>
      wellFormed citation.documentTitle && wellFormed citation.excerpt
  | .error code message => wellFormed code && wellFormed message

/-- The source's own texts are encodable: a `Char` is no surrogate. -/
theorem wellFormed_lit (text : String) : wellFormed (lit text) = true := by
  simp only [wellFormed, lit, PyStr.ofString, List.all_map, List.all_eq_true,
    Function.comp_apply]
  intro c _
  have hvalid := c.valid
  have hsize : c.toNat < 0x110000 := by
    rcases hvalid with h | h
    · exact Nat.lt_trans h (by decide)
    · exact h.2
  simp only [isSurrogate, isHigh, isLow, Fin.ofNat, Nat.mod_eq_of_lt hsize]
  have hplain : c.toNat < 0xD800 ∨ 0xDFFF < c.toNat := by
    rcases hvalid with h | h
    · exact .inl h
    · exact .inr h.1
  grind

/-- `Connection.send`, on a socket whose `send_text` succeeds. -/
def send (frame : ServerMessage) : Live Unit :=
  if encodable frame then
    Effect.modify fun connection => { connection with sent := connection.sent ++ [frame] }
  else throw (.other "PydanticSerializationError")

/-- The `Error` frame for an exception: its own code travels where it is an `AppError`. -/
def failureFrame (code message : PyStr) (exception : LiveException) : ServerMessage :=
  match exception.appError with
  | some error => errorFrame error
  | none => .error code message

/-- `_answer_grounded`: run the pipeline, then send the finished answer as deltas. -/
def answerGrounded (answer : Text → Option Uuid → Except LiveException AssistantReply)
    (question : Text) (conversationId : Option Uuid) : Live Unit := do
  let reply ← tryCatch
    (do
      let reply ← Effect.ofExcept (answer question conversationId)
      pure (some reply))
    fun exception => do
      send (failureFrame (lit "realtime_answer_failed") STREAM_FAILED_MESSAGE exception)
      pure none
  match reply with
  | none => pure ()
  | some reply => do
    let pieces := chunk reply.reply.val 24
    Effect.emitAll send (pieces.map .delta)
    send (.complete reply.reply.val pieces.length conversationId true reply.citations
      reply.escalated)

/-- `_record`: append one turn, reporting a failure as a frame. -/
def record (conversationId : Uuid) (role : MessageRole) (content : PyStr) : Live Bool := do
  let parties ← Effect.ask
  match parties.recorder with
  | none => do
    send (.error (lit "realtime_conversations_unavailable")
      (lit "This connection cannot record conversations."))
    pure false
  | some recordTurn =>
    tryCatch
      (do
        Effect.ofExcept (recordTurn conversationId role content)
        pure true)
      fun exception => do
        send (failureFrame (lit "realtime_turn_not_recorded")
          (lit "The exchange could not be recorded.") exception)
        pure false

/-- Record a turn where a conversation was given. -/
def recordIn (conversationId : Option Uuid) (role : MessageRole) (content : PyStr) : Live Bool :=
  match conversationId with
  | none => pure true
  | some conversationId => record conversationId role content

/-- The prompt of an unsourced answer. -/
def prompt (question : Text) : LLMPrompt where
  system := REALTIME_REPLY_SYSTEM_PROMPT
  user := question.val

/-- The loop over the provider's stream: the pieces, where it finished. -/
def streamDeltas (question : Text) : Live (Option (List PyStr)) := do
  let parties ← Effect.ask
  let (pieces, raised) := parties.streamText (prompt question)
  tryCatch
    (do
      Effect.emitAll send (pieces.map .delta)
      match raised with
      | some exception => throw exception
      | none => pure (some pieces))
    fun
    | .llm error => do
      send (.error (lit error.error.code) STREAM_FAILED_MESSAGE)
      pure none
    | exception => throw exception

/-- `_stream_prose`: the fallback, unsourced prose as the model produces it. -/
def streamProse (question : Text) (conversationId : Option Uuid) : Live Unit := do
  let recorded ← recordIn conversationId .customer question.val
  if !recorded then pure ()
  else
    let finished ← streamDeltas question
    match finished with
    | none => pure ()
    | some pieces => do
      -- A recording failure is reported, and does not retract what was sent.
      let _ ← recordIn conversationId .assistant pieces.flatten
      send (.complete pieces.flatten pieces.length conversationId false [] false)

/-- What `answer` runs once the connection is its own. -/
def answerTaken (question : Text) (conversationId : Option Uuid) : Live Unit := do
  let parties ← Effect.ask
  match parties.available with
  | some answer => answerGrounded answer question conversationId
  | none => streamProse question conversationId

/-- `answer`: stream one answer, reporting any failure as a frame. -/
def answer (question : Text) (conversationId : Option Uuid) : Live Unit := do
  let connection ← Effect.get
  if connection.busy then send busyFrame
  else do
    Effect.modify fun connection => { connection with busy := true }
    Effect.tryFinally (answerTaken question conversationId)
      (Effect.modify fun connection => { connection with busy := false })

/-! ## What each part emits -/

section Emitted

variable (parties : Parties)

/-- A frame is sent, or cannot be serialised. -/
theorem send_appends :
    Effect.Appends send parties encodable Connection.sent (fun c c' => c'.busy = c.busy) where
  refl _ := rfl
  trans _ _ _ h h' := h'.trans h
  accepted frame c h :=
    ⟨{ c with sent := c.sent ++ [frame] }, by rw [send, if_pos h]; rfl, rfl, rfl⟩
  refused frame c h :=
    ⟨.other "PydanticSerializationError", by rw [send, if_neg (Bool.eq_false_iff.mp h)]; rfl⟩

/-- `send` fails only where pydantic cannot write the frame. -/
theorem send_error {parties : Parties} {frame : ServerMessage} {c c' : Connection} {e : LiveException}
    (h : send frame parties c = (.error e, c')) : e = .other "PydanticSerializationError" := by
  unfold send at h
  split at h
  · exact nomatch (Prod.mk.inj h).1
  · exact (Except.error.inj (Prod.mk.inj h).1).symm

/-- The frames of the answer to a grounded question. -/
def groundedFrames (conversationId : Option Uuid) :
    Except LiveException AssistantReply → List ServerMessage
  | .ok reply => replyFrames conversationId reply
  | .error exception =>
    [failureFrame (lit "realtime_answer_failed") STREAM_FAILED_MESSAGE exception]

/-- `answerGrounded` sends `groundedFrames` and ends as the answer does. -/
theorem answerGrounded_emits
    (answer : Text → Option Uuid → Except LiveException AssistantReply) (question : Text)
    (conversationId : Option Uuid) :
    Effect.Emits send parties (answerGrounded answer question conversationId)
      (groundedFrames conversationId (answer question conversationId)) (.ok ()) := by
  have hcall : Effect.Emits send parties (Effect.ofExcept (answer question conversationId)) []
      (answer question conversationId) := Effect.Emits.ofExcept _
  unfold answerGrounded
  cases hanswer : answer question conversationId with
  | ok reply =>
    rw [hanswer] at hcall
    show Effect.Emits send parties _ ([] ++ replyFrames conversationId reply) (.ok ())
    apply Effect.Emits.bind (a := some reply)
    · apply Effect.Emits.tryCatch Effect.Passes.nil
      exact hcall.bind (Effect.Emits.pure (some reply))
    · exact (Effect.Emits.emitAll _).bind (Effect.Emits.one _)
  | error exception =>
    rw [hanswer] at hcall
    show Effect.Emits send parties _ (([] ++ ([failureFrame (lit "realtime_answer_failed")
      STREAM_FAILED_MESSAGE exception] ++ [])) ++ []) (.ok ())
    apply Effect.Emits.bind (a := none)
    · apply Effect.Emits.tryCatch_error Effect.Passes.nil
      · exact Effect.Emits.bind_error hcall
      · exact (Effect.Emits.one _).bind (Effect.Emits.pure none)
    · exact Effect.Emits.pure ()

/-- The frame about a turn that was not recorded, where there is one. -/
def recordFrames (conversationId : Option Uuid) (role : MessageRole)
    (content : PyStr) : List ServerMessage :=
  match conversationId, parties.recorder with
  | none, _ => []
  | some _, none =>
    [.error (lit "realtime_conversations_unavailable")
      (lit "This connection cannot record conversations.")]
  | some conversationId, some recordTurn =>
    match recordTurn conversationId role content with
    | .ok () => []
    | .error exception =>
      [failureFrame (lit "realtime_turn_not_recorded")
        (lit "The exchange could not be recorded.") exception]

/-- A turn is recorded, or there is a frame that says it was not. -/
theorem recordIn_emits (conversationId : Option Uuid) (role : MessageRole) (content : PyStr) :
    Effect.Emits send parties (recordIn conversationId role content)
      (recordFrames parties conversationId role content)
      (.ok (recordFrames parties conversationId role content).isEmpty) := by
  unfold recordIn recordFrames
  cases conversationId with
  -- Without a conversation there is nothing to record
  | none => exact Effect.Emits.pure true
  | some conversationId =>
    have hask : Effect.Emits send parties Effect.ask [] (.ok parties) := Effect.Emits.ask
    cases hrecorder : parties.recorder with
    | none =>
      refine hask.bind ?_
      rw [hrecorder]
      exact (Effect.Emits.one _).bind (Effect.Emits.pure false)
    | some recordTurn =>
      refine hask.bind ?_
      rw [hrecorder]
      have hcall : Effect.Emits send parties
          (Effect.ofExcept (recordTurn conversationId role content)) []
          (recordTurn conversationId role content) := Effect.Emits.ofExcept _
      simp only
      cases hrecord : recordTurn conversationId role content with
      | ok =>
        rw [hrecord] at hcall
        exact Effect.Emits.tryCatch Effect.Passes.nil (hcall.bind (Effect.Emits.pure true))
      -- What the recorder raises is caught, and reported with one frame
      | error exception =>
        rw [hrecord] at hcall
        exact Effect.Emits.tryCatch_error Effect.Passes.nil hcall.bind_error
          ((Effect.Emits.one _).bind (Effect.Emits.pure false))

/-- The frames of a stream, how it went on, and what it raises through the streamer. -/
def streamEnd : List PyStr × Option LiveException →
    List ServerMessage × Except LiveException (Option (List PyStr))
  | (pieces, none) => (pieces.map .delta, .ok (some pieces))
  | (pieces, some (.llm error)) =>
    (pieces.map .delta ++ [.error (lit error.error.code) STREAM_FAILED_MESSAGE], .ok none)
  | (pieces, some exception) => (pieces.map .delta, .error exception)

/-- What cannot be serialised is no `LLMError`, and goes through the handler of the stream. -/
theorem send_passes {failed : LLMError → Live (Option (List PyStr))}
    (frames : List ServerMessage) :
    Effect.Passes send parties
      (fun
        | .llm error => failed error
        | exception => throw exception) frames := by
  intro frame _ c e c' hsend
  obtain rfl := send_error hsend
  rfl

/-- The frames of an unsourced answer, and how it ends. -/
def proseFrames (question : Text) (conversationId : Option Uuid) :
    List ServerMessage × Except LiveException Unit :=
  match recordFrames parties conversationId .customer question.val with
  | [] =>
    match streamEnd (parties.streamText (prompt question)) with
    | (frames, .ok (some pieces)) =>
      (frames ++ recordFrames parties conversationId .assistant pieces.flatten ++
        [.complete pieces.flatten pieces.length conversationId false [] false], .ok ())
    | (frames, .ok none) => (frames, .ok ())
    | (frames, .error exception) => (frames, .error exception)
  | refused => (refused, .ok ())

/-- `streamDeltas` sends the pieces of the stream and ends as it does. -/
theorem streamDeltas_emits (question : Text) :
    Effect.Emits send parties (streamDeltas question)
      (streamEnd (parties.streamText (prompt question))).1
      (streamEnd (parties.streamText (prompt question))).2 := by
  unfold streamDeltas
  refine Effect.Emits.ask.bind ?_
  match parties.streamText (prompt question) with
  | (pieces, none) =>
    show Effect.Emits send parties _ (pieces.map .delta) (.ok (some pieces))
    apply Effect.Emits.tryCatch
    · exact send_passes parties _
    · apply Effect.Emits.of_append_nil
      apply Effect.Emits.bind (a := ())
      · exact Effect.Emits.emitAll _
      · exact Effect.Emits.pure (some pieces)
  | (pieces, some exception) =>
    have hraised : Effect.Emits send parties
        (Effect.emitAll send (pieces.map ServerMessage.delta) >>= fun _ =>
          (throw exception : Live (Option (List PyStr))))
        (pieces.map .delta) (.error exception) :=
      ((Effect.Emits.emitAll _).bind (Effect.Emits.throw exception)).of_append_nil
    cases exception with
    | llm error =>
      apply Effect.Emits.tryCatch_error (send_passes parties _) hraised
      exact (Effect.Emits.one _).bind (Effect.Emits.pure none)
    | app error =>
      apply Effect.Emits.of_append_nil
      exact Effect.Emits.tryCatch_error (send_passes parties _) hraised (Effect.Emits.throw _)
    | other name =>
      apply Effect.Emits.of_append_nil
      exact Effect.Emits.tryCatch_error (send_passes parties _) hraised (Effect.Emits.throw _)

/-- `streamProse` sends `proseFrames`. -/
theorem streamProse_emits (question : Text) (conversationId : Option Uuid) :
    Effect.Emits send parties (streamProse question conversationId)
      (proseFrames parties question conversationId).1
      (proseFrames parties question conversationId).2 := by
  have hrecord := recordIn_emits parties conversationId .customer question.val
  unfold streamProse proseFrames
  match hframes : recordFrames parties conversationId .customer question.val with
  -- A question that was not recorded is not asked
  | frame :: frames =>
    rw [hframes] at hrecord
    apply Effect.Emits.of_append_nil
    exact hrecord.bind (Effect.Emits.pure ())
  -- The question was recorded: the model is streamed, and its answer recorded
  | [] =>
    rw [hframes] at hrecord
    have hstream := streamDeltas_emits parties question
    refine hrecord.bind ?_
    match hend : streamEnd (parties.streamText (prompt question)) with
    | (frames, .error exception) =>
      rw [hend] at hstream
      exact hstream.bind_error
    | (frames, .ok none) =>
      rw [hend] at hstream
      apply Effect.Emits.of_append_nil
      exact hstream.bind (Effect.Emits.pure ())
    | (frames, .ok (some pieces)) =>
      rw [hend] at hstream
      show Effect.Emits send parties _ (frames ++ _ ++ _) (.ok ())
      rw [List.append_assoc]
      refine hstream.bind ?_
      exact (recordIn_emits parties conversationId .assistant pieces.flatten).bind (Effect.Emits.one _)

/-- The frames of a question that is taken, and how it ends. -/
def answerFrames (question : Text) (conversationId : Option Uuid) :
    List ServerMessage × Except LiveException Unit :=
  match parties.available with
  | some answer => (groundedFrames conversationId (answer question conversationId), .ok ())
  | none => proseFrames parties question conversationId

/-- `answerTaken` sends `answerFrames`. -/
theorem answerTaken_emits (question : Text) (conversationId : Option Uuid) :
    Effect.Emits send parties (answerTaken question conversationId)
      (answerFrames parties question conversationId).1
      (answerFrames parties question conversationId).2 := by
  unfold answerTaken answerFrames
  refine Effect.Emits.ask.bind ?_
  cases parties.available with
  | some answer => exact answerGrounded_emits parties answer question conversationId
  | none => exact streamProse_emits parties question conversationId

end Emitted

/-! ## The parties of a request -/

/-- What the code of a request raises, as the streamer sees it. -/
def LiveException.ofRaised : Raised → LiveException
  | .sqlalchemy => .other "SQLAlchemyError"
  | .app error => .app error
  | .llm error => .llm error
  | .tool _ _ => .other "ToolError"

/-- How code of a request ends. -/
def outcome {α : Type} (code : App α) (env : Env) (w : RequestState) : Except LiveException α :=
  (code env w).1.mapError LiveException.ofRaised

/-- The pipeline, the provider of a request and its recorder, as a question finds them in `w`.
    The assistant's turn comes after the customer's and the prompt. -/
def Parties.ofApp (recorder : Option TurnRecorder) (answerer : Option Answerer) (question : Text)
    (env : Env) (w : RequestState) : Parties where
  answerer := answerer.map fun answerer =>
    (answerer.available, fun question conversationId =>
      outcome (answerer.answer question conversationId) env w)
  streamText := fun prompt =>
    ((env.provider.streamText prompt).1, (env.provider.streamText prompt).2.map .llm)
  recorder := recorder.map fun recordTurn conversationId role content =>
    match role with
    | .customer => outcome (recordTurn conversationId .customer content) env w
    | .assistant => outcome (recordTurn conversationId .assistant content) env
        ((recordTurn conversationId .customer question.val env w).2.sendPrompt (prompt question))

/-- `groundedFrames` are the frames of `AnswerStreamer.answerGrounded`, where every send
    succeeds. -/
theorem answerGrounded_ofApp (answerer : Answerer) (question : Text)
    (conversationId : Option Uuid) (env : Env) (w : RequestState) :
    (AnswerStreamer.answerGrounded answerer question conversationId env w).1 =
      .ok (groundedFrames conversationId
        (outcome (answerer.answer question conversationId) env w)) := by
  unfold AnswerStreamer.answerGrounded outcome
  match hanswer : answerer.answer question conversationId env w with
  | (.ok reply, w') =>
    rw [Effect.tryCatch_of_ok (Effect.bind_of_ok hanswer)]
    rfl
  | (.error raised, w') =>
    rw [Effect.tryCatch_of_error (Effect.bind_of_error hanswer)]
    cases raised <;> rfl

/-- A turn is recorded alike, where the recorders behave alike. -/
theorem recordIn_ofApp (recorder : Option TurnRecorder) (parties : Parties)
    (conversationId : Option Uuid) (role : MessageRole) (content : PyStr) (env : Env)
    (w : RequestState)
    (h : ∀ id, conversationId = some id → (parties.recorder.map fun recordTurn =>
      recordTurn id role content) = recorder.map fun recordTurn =>
        outcome (recordTurn id role content) env w) :
    ∃ w', AnswerStreamer.recordIn recorder conversationId role content env w =
        (.ok (recordFrames parties conversationId role content,
          (recordFrames parties conversationId role content).isEmpty), w') ∧
      ∀ id recordTurn, conversationId = some id → recorder = some recordTurn →
        w' = (recordTurn id role content env w).2 := by
  unfold AnswerStreamer.recordIn recordFrames
  cases conversationId with
  | none => exact ⟨w, rfl, nofun⟩
  | some id =>
    specialize h id rfl
    unfold AnswerStreamer.record
    cases recorder with
    | none =>
      cases hparties : parties.recorder with
      | some recordTurn =>
        rw [hparties] at h
        exact nomatch h
      | none => exact ⟨w, rfl, nofun⟩
    | some recordTurn =>
      cases hparties : parties.recorder with
      | none =>
        rw [hparties] at h
        exact nomatch h
      | some partyTurn =>
        rw [hparties] at h
        have hturn : partyTurn id role content = outcome (recordTurn id role content) env w :=
          Option.some.inj h
        refine ⟨(recordTurn id role content env w).2, ?_, ?_⟩
        · simp only [hturn]
          unfold outcome
          match hrecord : recordTurn id role content env w with
          | (.ok (), w') => rw [Effect.tryCatch_of_ok (Effect.bind_of_ok hrecord)]; rfl
          | (.error raised, w') =>
            rw [Effect.tryCatch_of_error (Effect.bind_of_error hrecord)]
            cases raised <;> rfl
        · rintro other otherTurn hid hrecorder
          rw [← Option.some.inj hid, ← Option.some.inj hrecorder]

/-- `proseFrames` are the frames of `AnswerStreamer.streamProse`, where every send succeeds. -/
theorem streamProse_ofApp (recorder : Option TurnRecorder) (answerer : Option Answerer)
    (question : Text) (conversationId : Option Uuid) (env : Env) (w : RequestState) :
    (AnswerStreamer.streamProse recorder question conversationId env w).1 =
        .ok (proseFrames (.ofApp recorder answerer question env w) question conversationId).1 ∧
      (proseFrames (.ofApp recorder answerer question env w) question conversationId).2 =
        .ok () := by
  -- The question is recorded alike, and the answer in the state that this has left
  obtain ⟨w₁, hcustomer, hstate⟩ := recordIn_ofApp recorder
    (.ofApp recorder answerer question env w) conversationId .customer question.val env w (by
      intro id _
      cases recorder <;> rfl)
  unfold AnswerStreamer.streamProse
  rw [Effect.bind_of_ok hcustomer]
  unfold proseFrames
  match hframes : recordFrames (.ofApp recorder answerer question env w) conversationId .customer
      question.val with
  | frame :: frames => exact ⟨rfl, rfl⟩
  | [] =>
    simp only [List.isEmpty_nil, Bool.not_true, Bool.false_eq_true, if_false]
    rw [Effect.bind_of_ok (Effect.ask_run _ _)]
    rw [Effect.bind_of_ok (Effect.modify_run _ _ _)]
    show (_ : Except Raised _ × RequestState).1 = _ ∧ _
    match hstream : env.provider.streamText (prompt question) with
    | (pieces, some error) =>
      have hend : (Parties.ofApp recorder answerer question env w).streamText (prompt question) =
          (pieces, some (.llm error)) := by
        simp only [Parties.ofApp, hstream, Option.map_some]
      rw [hend]
      exact ⟨rfl, rfl⟩
    | (pieces, none) =>
      have hend : (Parties.ofApp recorder answerer question env w).streamText (prompt question) =
          (pieces, none) := by
        simp only [Parties.ofApp, hstream, Option.map_none]
      obtain ⟨w₂, hassistant, -⟩ := recordIn_ofApp recorder
        (.ofApp recorder answerer question env w) conversationId .assistant pieces.flatten env
        (w₁.sendPrompt (prompt question)) (by
          intro id hid
          cases hrecorder : recorder with
          | none => rfl
          | some recordTurn =>
            rw [hstate id recordTurn hid hrecorder]
            rfl)
      rw [hend]
      show ((AnswerStreamer.recordIn recorder conversationId .assistant pieces.flatten >>= _) env
        (w₁.sendPrompt (prompt question))).1 = _ ∧ _
      rw [Effect.bind_of_ok hassistant]
      exact ⟨rfl, rfl⟩

/-- Within a request nothing escapes the streamer, and what goes out is what `answerFrom` lists. -/
theorem answerTaken_ofApp (recorder : Option TurnRecorder) (answerer : Option Answerer)
    (question : Text) (conversationId : Option Uuid) (env : Env) (w : RequestState) :
    ∃ frames, (AnswerStreamer.answerFrom recorder answerer question conversationId env w).1 =
        .ok frames ∧
      Effect.Emits send (.ofApp recorder answerer question env w)
        (answerTaken question conversationId) frames (.ok ()) := by
  have hemits := answerTaken_emits (.ofApp recorder answerer question env w) question
    conversationId
  have hprose := streamProse_ofApp recorder answerer question conversationId env w
  unfold answerFrames at hemits
  unfold AnswerStreamer.answerFrom
  match answerer with
  | none =>
    rw [show (Parties.ofApp recorder none question env w).available = none from rfl] at hemits
    exact ⟨_, hprose.1, hprose.2 ▸ hemits⟩
  | some ⟨answer, false⟩ =>
    rw [show (Parties.ofApp recorder (some ⟨answer, false⟩) question env w).available = none
      from rfl] at hemits
    exact ⟨_, hprose.1, hprose.2 ▸ hemits⟩
  | some ⟨answer, true⟩ =>
    exact ⟨_, answerGrounded_ofApp ⟨answer, true⟩ question conversationId env w, hemits⟩

end NexaAssist.Realtime
