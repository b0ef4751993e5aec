import NexaAssist.Realtime.Answers

/-!
# The frames of one question

What a streamer sends for a question, whatever its parties do: an error, or deltas and
then an error, a completion, or, where the prose answer could not be recorded, both. The
completion is last, and repeats the deltas.

## Key results

- `answerFrom_framed`: the grammar of the frames
-/

namespace NexaAssist.Spec.FrameProtocol

open NexaAssist PyJson AnswerStreamer

/-! ## Recording -/

/-- Whether a recorder takes a turn. -/
def Records (recorder : Option TurnRecorder) (conversationId : Option Uuid) (role : MessageRole)
    (content : PyStr) (env : Env) (w : RequestState) : Prop :=
  ∀ id, conversationId = some id →
    ∃ recordTurn w', recorder = some recordTurn ∧ recordTurn id role content env w = (.ok (), w')

/-- Recording returns: no frame where the turn was taken, one error where it was not. -/
theorem recordIn_returns (recorder : Option TurnRecorder) (conversationId : Option Uuid)
    (role : MessageRole) (content : PyStr) (env : Env) (w : RequestState) :
    (∃ w', recordIn recorder conversationId role content env w = (.ok ([], true), w') ∧
      Records recorder conversationId role content env w) ∨
    (∃ code message w', recordIn recorder conversationId role content env w =
        (.ok ([.error code message], false), w') ∧
      ¬ Records recorder conversationId role content env w) := by
  cases conversationId with
  -- Nothing is recorded without a conversation
  | none => exact .inl ⟨w, rfl, fun _ h => nomatch h⟩
  | some id =>
    show (∃ w', record recorder id role content env w = (.ok ([], true), w') ∧ _) ∨
      (∃ code message w', record recorder id role content env w =
        (.ok ([.error code message], false), w') ∧ _)
    unfold record
    cases recorder with
    | none =>
      right
      -- A connection without a recorder tells of a failure
      have hno : ¬ Records none (some id) role content env w := by
        intro h
        obtain ⟨recordTurn, w', hnone, -⟩ := h id rfl
        exact nomatch hnone
      exact ⟨_, _, w, rfl, hno⟩
    | some recordTurn =>
      match hturn : recordTurn id role content env w with
      | (.ok (), w') =>
        left
        have hbody := Effect.bind_of_ok (f := fun _ : Unit =>
          (pure ([], true) : App (List ServerMessage × Bool))) hturn
        refine ⟨w', Effect.tryCatch_of_ok hbody, ?_⟩
        intro id' hid
        rw [← Option.some.inj hid]
        exact ⟨recordTurn, w', rfl, hturn⟩
      | (.error raised, w') =>
        right
        have hbody := Effect.bind_of_error (f := fun _ : Unit =>
          (pure ([], true) : App (List ServerMessage × Bool))) hturn
        have hno : ¬ Records (some recordTurn) (some id) role content env w := by
          intro h
          obtain ⟨recordTurn', w'', hsome, hok⟩ := h id rfl
          rw [← Option.some.inj hsome, hturn] at hok
          exact nomatch (Prod.mk.inj hok).1
        -- Whatever the recorder raises is answered with an error frame
        cases raised with
        | app error => exact ⟨_, _, w', Effect.tryCatch_of_error hbody, hno⟩
        | llm error => exact ⟨_, _, w', Effect.tryCatch_of_error hbody, hno⟩
        | sqlalchemy => exact ⟨_, _, w', Effect.tryCatch_of_error hbody, hno⟩
        | tool message retryable => exact ⟨_, _, w', Effect.tryCatch_of_error hbody, hno⟩

/-! ## The two ways to answer -/

/-- The pipeline's reply is cut into deltas; an error ends the question before any. -/
theorem answerGrounded_returns (answerer : Answerer) (question : Text)
    (conversationId : Option Uuid) (env : Env) (w : RequestState) :
    (∃ reply w', answerer.answer question conversationId env w = (.ok reply, w') ∧
      answerGrounded answerer question conversationId env w =
        (.ok (replyFrames conversationId reply), w')) ∨
    (∃ raised code message w',
      answerer.answer question conversationId env w = (.error raised, w') ∧
      answerGrounded answerer question conversationId env w =
        (.ok [.error code message], w')) := by
  unfold answerGrounded
  match hrun : answerer.answer question conversationId env w with
  | (.ok reply, w') =>
    left
    have hbody := Effect.bind_of_ok (f := fun reply : AssistantReply =>
      (pure (replyFrames conversationId reply) : App (List ServerMessage))) hrun
    exact ⟨reply, w', rfl, Effect.tryCatch_of_ok hbody⟩
  | (.error raised, w') =>
    right
    have hbody := Effect.bind_of_error (f := fun reply : AssistantReply =>
      (pure (replyFrames conversationId reply) : App (List ServerMessage))) hrun
    cases raised with
    | app error => exact ⟨_, _, _, w', rfl, Effect.tryCatch_of_error hbody⟩
    | llm error => exact ⟨_, _, _, w', rfl, Effect.tryCatch_of_error hbody⟩
    | sqlalchemy => exact ⟨_, _, _, w', rfl, Effect.tryCatch_of_error hbody⟩
    | tool message retryable => exact ⟨_, _, _, w', rfl, Effect.tryCatch_of_error hbody⟩

/-- The prompt of the fallback. -/
def prosePrompt (question : Text) : LLMPrompt where
  system := REALTIME_REPLY_SYSTEM_PROMPT
  user := question.val

/-- What the fallback can come to. The question is recorded first; where it is not, the
    model is not asked. -/
inductive ProseRun (recorder : Option TurnRecorder) (question : Text)
    (conversationId : Option Uuid) (env : Env) (w : RequestState) :
    List ServerMessage → RequestState → Prop
  | refused {code message : PyStr} {w' : RequestState}
      (hrecord : recordIn recorder conversationId .customer question.val env w =
        (.ok ([.error code message], false), w'))
      (hno : ¬ Records recorder conversationId .customer question.val env w) :
      ProseRun recorder question conversationId env w [.error code message] w'
  | broken {pieces : List PyStr} {error : LLMError} {w' : RequestState}
      (hrecord : recordIn recorder conversationId .customer question.val env w =
        (.ok ([], true), w'))
      (hstream : env.provider.streamText (prosePrompt question) = (pieces, some error)) :
      ProseRun recorder question conversationId env w
        (pieces.map .delta ++ [.error (lit error.error.code) STREAM_FAILED_MESSAGE])
        (w'.sendPrompt (prosePrompt question))
  | finished {pieces : List PyStr} {w₁ w' : RequestState}
      (hrecord : recordIn recorder conversationId .customer question.val env w =
        (.ok ([], true), w₁))
      (hstream : env.provider.streamText (prosePrompt question) = (pieces, none))
      (hanswer : recordIn recorder conversationId .assistant pieces.flatten env
        (w₁.sendPrompt (prosePrompt question)) = (.ok ([], true), w'))
      (hyes : Records recorder conversationId .assistant pieces.flatten env
        (w₁.sendPrompt (prosePrompt question))) :
      ProseRun recorder question conversationId env w
        (pieces.map .delta ++
          [.complete pieces.flatten pieces.length conversationId false [] false]) w'
  | unrecorded {pieces : List PyStr} {code message : PyStr} {w₁ w' : RequestState}
      (hrecord : recordIn recorder conversationId .customer question.val env w =
        (.ok ([], true), w₁))
      (hstream : env.provider.streamText (prosePrompt question) = (pieces, none))
      (hanswer : recordIn recorder conversationId .assistant pieces.flatten env
        (w₁.sendPrompt (prosePrompt question)) = (.ok ([.error code message], false), w'))
      (hno : ¬ Records recorder conversationId .assistant pieces.flatten env
        (w₁.sendPrompt (prosePrompt question))) :
      ProseRun recorder question conversationId env w
        (pieces.map .delta ++ [.error code message,
          .complete pieces.flatten pieces.length conversationId false [] false]) w'

/-- `streamProse` returns the frames of a `ProseRun`. -/
theorem streamProse_returns (recorder : Option TurnRecorder) (question : Text)
    (conversationId : Option Uuid) (env : Env) (w : RequestState) :
    ∃ frames w', streamProse recorder question conversationId env w = (.ok frames, w') ∧
      ProseRun recorder question conversationId env w frames w' := by
  unfold streamProse
  cases recordIn_returns recorder conversationId .customer question.val env w with
  -- The question could not be recorded, so nothing is streamed
  | inr hrefused =>
    obtain ⟨code, message, w', hrecord, hno⟩ := hrefused
    rw [Effect.bind_of_ok hrecord]
    exact ⟨_, w', rfl, .refused hrecord hno⟩
  | inl hrecorded =>
    obtain ⟨w₁, hrecord, -⟩ := hrecorded
    rw [Effect.bind_of_ok hrecord]
    simp only [Bool.not_true, Bool.false_eq_true, if_false]
    rw [Effect.bind_of_ok (Effect.ask_run env w₁), Effect.bind_of_ok (Effect.modify_run _ env w₁)]
    match hstream : env.provider.streamText (prosePrompt question) with
    | (pieces, some error) =>
      exact ⟨_, _, rfl, .broken hrecord hstream⟩
    | (pieces, none) =>
      simp only
      cases recordIn_returns recorder conversationId .assistant pieces.flatten env
          (w₁.sendPrompt (prosePrompt question)) with
      | inl hkept =>
        obtain ⟨w', hanswer, hyes⟩ := hkept
        have hbound := Effect.bind_of_ok (f := fun p : List ServerMessage × Bool =>
          (pure (pieces.map .delta ++ p.1 ++
            [.complete pieces.flatten pieces.length conversationId false [] false]) :
            App (List ServerMessage))) hanswer
        refine ⟨_, w', hbound.trans ?_, .finished hrecord hstream hanswer hyes⟩
        rw [List.append_nil]
        rfl
      -- The answer could not be recorded: the completion follows its error all the same
      | inr hlost =>
        obtain ⟨code, message, w', hanswer, hno⟩ := hlost
        have hbound := Effect.bind_of_ok (f := fun p : List ServerMessage × Bool =>
          (pure (pieces.map .delta ++ p.1 ++
            [.complete pieces.flatten pieces.length conversationId false [] false]) :
            App (List ServerMessage))) hanswer
        refine ⟨_, w', hbound.trans ?_, .unrecorded hrecord hstream hanswer hno⟩
        rw [List.append_assoc]
        rfl

/-! ## The grammar -/

/-- The frames of one question: deltas, and then an error, a completion that repeats them,
    or both. -/
inductive Framed (conversationId : Option Uuid) : List ServerMessage → Prop
  | failed (pieces : List PyStr) (code message : PyStr) :
      Framed conversationId (pieces.map .delta ++ [.error code message])
  | completed (pieces : List PyStr) (grounded escalated : Bool) (citations : List Citation) :
      Framed conversationId (pieces.map .delta ++
        [.complete pieces.flatten pieces.length conversationId grounded citations escalated])
  | unrecorded (pieces : List PyStr) (code message : PyStr) :
      Framed conversationId (pieces.map .delta ++ [.error code message,
        .complete pieces.flatten pieces.length conversationId false [] false])

/-- An error and a completion were both sent. -/
def Both (frames : List ServerMessage) : Prop :=
  (∃ code message, .error code message ∈ frames) ∧
    ∃ text deltas conversationId grounded citations escalated,
      .complete text deltas conversationId grounded citations escalated ∈ frames

/-- The prose answer was streamed to its end, and could not be recorded. -/
def LateFailure (recorder : Option TurnRecorder) (answerer : Option Answerer) (question : Text)
    (conversationId : Option Uuid) (env : Env) (w : RequestState) : Prop :=
  (∀ party, answerer = some party → party.available = false) ∧
    ∃ pieces w₁, env.provider.streamText (prosePrompt question) = (pieces, none) ∧
      recordIn recorder conversationId .customer question.val env w = (.ok ([], true), w₁) ∧
      ¬ Records recorder conversationId .assistant pieces.flatten env
        (w₁.sendPrompt (prosePrompt question))

/-- Frames that end in an error are not `Both`. -/
theorem not_both_of_failed (pieces : List PyStr) (code message : PyStr) :
    ¬ Both (pieces.map .delta ++ [.error code message]) := by
  rintro ⟨-, text, deltas, id, grounded, citations, escalated, hmem⟩
  simp at hmem

/-- Frames that end in a completion are not `Both`. -/
theorem not_both_of_completed (pieces : List PyStr) (text : PyStr) (deltas : Nat)
    (id : Option Uuid) (grounded escalated : Bool) (citations : List Citation) :
    ¬ Both (pieces.map .delta ++ [.complete text deltas id grounded citations escalated]) := by
  rintro ⟨⟨code, message, hmem⟩, -⟩
  simp at hmem

/-- Whatever the parties do, the frames keep to the grammar, and an error is followed by a
    completion only where the prose answer could not be recorded. -/
theorem answerFrom_framed (recorder : Option TurnRecorder) (answerer : Option Answerer)
    (question : Text) (conversationId : Option Uuid) (env : Env) (w : RequestState) :
    ∃ frames w', answerFrom recorder answerer question conversationId env w = (.ok frames, w') ∧
      Framed conversationId frames ∧
      (Both frames → LateFailure recorder answerer question conversationId env w) := by
  -- Only prose that could not be recorded is followed by both an error and a completion
  have hprose : (∀ party, answerer = some party → party.available = false) →
      ∃ frames w', streamProse recorder question conversationId env w = (.ok frames, w') ∧
        Framed conversationId frames ∧
        (Both frames → LateFailure recorder answerer question conversationId env w) := by
    intro hnone
    obtain ⟨frames, w', hrun, hprose⟩ := streamProse_returns recorder question conversationId env w
    refine ⟨frames, w', hrun, ?_⟩
    cases hprose with
    | refused hrecord hno =>
      exact ⟨.failed [] _ _, fun hboth => absurd hboth (not_both_of_failed [] _ _)⟩
    | broken hrecord hstream =>
      exact ⟨.failed _ _ _, fun hboth => absurd hboth (not_both_of_failed _ _ _)⟩
    | finished hrecord hstream hanswer hyes =>
      exact ⟨.completed _ _ _ _,
        fun hboth => absurd hboth (not_both_of_completed _ _ _ _ _ _ _)⟩
    | unrecorded hrecord hstream hanswer hno =>
      exact ⟨.unrecorded _ _ _, fun _ => ⟨hnone, _, _, hstream, hrecord, hno⟩⟩
  unfold answerFrom
  cases answerer with
  | none => exact hprose fun _ h => nomatch h
  | some party =>
    cases havailable : party.available with
    | false =>
      simp only [havailable, Bool.false_eq_true, if_false]
      apply hprose
      intro party' hparty
      rw [← Option.some.inj hparty, havailable]
    | true =>
      simp only [havailable, if_true]
      cases answerGrounded_returns party question conversationId env w with
      | inl hreply =>
        obtain ⟨reply, w', -, hrun⟩ := hreply
        -- The pieces of a reply are the reply
        have hframed : Framed conversationId (replyFrames conversationId reply) := by
          have hshape : Framed conversationId _ :=
            .completed (chunk reply.reply.val 24) true reply.escalated reply.citations
          rw [chunk_flatten] at hshape
          exact hshape
        exact ⟨_, w', hrun, hframed,
          fun hboth => absurd hboth (not_both_of_completed _ _ _ _ _ _ _)⟩
      | inr herror =>
        obtain ⟨raised, code, message, w', -, hrun⟩ := herror
        exact ⟨_, w', hrun, .failed [] code message,
          fun hboth => absurd hboth (not_both_of_failed [] _ _)⟩

end NexaAssist.Spec.FrameProtocol
