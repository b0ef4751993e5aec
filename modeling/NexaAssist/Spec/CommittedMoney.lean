import NexaAssist.Spec.AnswerPieces
import NexaAssist.Spec.FrameProtocol
import NexaAssist.Spec.PipelineDichotomy

/-!
# No commitment to money leaves the pipeline

What the pipeline answers, over HTTP or on a socket, commits to no money, whole or in any
run of its deltas. Only the fallback of the socket, which runs where the pipeline cannot,
passes on what the model says, and it marks that as ungrounded.

## Key results

- `respond_uncommitted`: a reply of the pipeline commits to nothing
- `commits_of_block`: what some consecutive pieces of an answer commit to, it commits to
- `sent_uncommitted`: what each transport sends
-/

namespace NexaAssist.Spec.CommittedMoney

open NexaAssist PyJson AnswerPieces PipelineDichotomy FrameProtocol

/-! ## Replies of the pipeline -/

section Replies

variable {knowledgeBase agent : HandlerRequest → App HandlerResponse} {word : WordTable}
  {minConfidence : Rat}

/-- The reply that policy approved and the handoff completed commits to nothing. -/
theorem process_uncommitted {message : Text} {analysis : IntentAnalysis} {env : Env}
    {w w' : RequestState} {routed : RoutedReply} {handoff : HandoffResult}
    (hrun : (AssistantService.ofHandlers knowledgeBase agent word minConfidence).process message
      analysis env w = (.ok (routed, handoff), w')) :
    commits word handoff.reply.val = false := by
  have hparts := hrun
  unfold AssistantService.process IntentRouter.route at hparts
  obtain ⟨_, _, hroute, -⟩ := Effect.bind_eq_ok.mp hparts
  obtain ⟨response, w₁, hhandle, -⟩ := Effect.bind_eq_ok.mp hroute
  cases hpolicy : reviewed word (contextOf message analysis response) with
  | true =>
    obtain ⟨handoff', w₂, hprocess, hreviewed⟩ :=
      process_of_reviewed knowledgeBase agent minConfidence hhandle hpolicy
    rw [hprocess] at hrun
    have hhandoff : handoff' = handoff := (Prod.mk.inj (Except.ok.inj (Prod.mk.inj hrun).1)).2
    have hreply : handoff'.reply = REVIEW_REPLY := (hreviewed none).reply
    rw [← hhandoff, hreply]
    exact commits_review_reply word
  | false =>
    obtain ⟨handoff', w₂, hprocess, hanswered⟩ :=
      process_of_not_reviewed knowledgeBase agent minConfidence hhandle hpolicy
    rw [hprocess] at hrun
    have hhandoff : handoff' = handoff := (Prod.mk.inj (Except.ok.inj (Prod.mk.inj hrun).1)).2
    rw [← hhandoff]
    exact (hanswered none).uncommitted

/-- A reply of the pipeline commits to nothing. -/
theorem respond_uncommitted {message : Text} {conversationId : Option Uuid}
    {scope : Option OwnerScope} {env : Env} {w w' : RequestState} {reply : AssistantReply}
    (hrun : (AssistantService.ofHandlers knowledgeBase agent word minConfidence).respond message
      conversationId scope env w = (.ok reply, w')) :
    commits word reply.reply.val = false := by
  unfold AssistantService.respond at hrun
  obtain ⟨_, _, -, hrun⟩ := Effect.bind_eq_ok.mp hrun
  obtain ⟨_, _, -, hrun⟩ := Effect.bind_eq_ok.mp hrun
  obtain ⟨⟨routed, handoff⟩, _, hprocess, hrun⟩ := Effect.bind_eq_ok.mp hrun
  obtain ⟨_, _, -, hreply⟩ := Effect.bind_eq_ok.mp hrun
  rw [← Except.ok.inj (Prod.mk.inj hreply).1]
  exact process_uncommitted hprocess

end Replies

/-! ## Pieces of an answer -/

/-- What some consecutive pieces of a text commit to, the text commits to. -/
theorem commits_of_block {word : WordTable} {text : PyStr} {size : Nat}
    {before block after : List PyStr} (hpieces : chunk text size = before ++ block ++ after)
    (h : commits word block.flatten = true) : commits word text = true := by
  have htext : text = before.flatten ++ block.flatten ++ after.flatten := by
    rw [← List.flatten_append, ← List.flatten_append, ← hpieces, chunk_flatten]
  have htail := chunk_startsSpace text size
  rw [hpieces] at htail
  obtain ⟨pattern, hpattern, hsearch⟩ := List.any_eq_true.mp h
  refine List.any_eq_true.mpr ⟨pattern, hpattern, ?_⟩
  rw [htext]
  apply Regex.search_of_words _ _ hsearch
  · -- The block does not start inside a word.
    intro hbefore c hc
    have hblock : ∀ piece ∈ block, StartsSpace piece := by
      intro piece hpiece
      apply htail
      cases before with
      | nil => exact absurd rfl hbefore
      | cons first before => simp [hpiece]
    exact word.space c (StartsSpace.flatten hblock c hc)
  · -- Nor does what follows it.
    intro hblock c hc
    have hafter : ∀ piece ∈ after, StartsSpace piece := by
      intro piece hpiece
      apply htail
      match before, block, hblock with
      | first :: before, block, _ => simp [hpiece]
      | [], first :: block, _ => simp [hpiece]
      | [], [], hblock => exact absurd rfl hblock
    exact word.space c (StartsSpace.flatten hafter c hc)

/-! ## Frames -/

/-- The texts of the deltas, in order. -/
def deltasOf (frames : List ServerMessage) : List PyStr :=
  frames.filterMap fun
    | .delta text => some text
    | _ => none

/-- The text of a completion, and whether it is grounded. -/
def completionOf : ServerMessage → Option (PyStr × Bool)
  | .complete text _ _ grounded _ _ => some (text, grounded)
  | _ => none

/-- No run of deltas and no completion commits to money. -/
structure Uncommitted (word : WordTable) (frames : List ServerMessage) : Prop where
  deltas : ∀ before block after, deltasOf frames = before ++ block ++ after →
    commits word block.flatten = false
  completion : ∀ frame ∈ frames, ∀ text grounded, completionOf frame = some (text, grounded) →
    commits word text = false

/-- What is sent is a beginning of what the model streams, and it is not called grounded. -/
structure Ungrounded (streamed : List PyStr) (frames : List ServerMessage) : Prop where
  deltas : deltasOf frames <+: streamed
  completion : ∀ frame ∈ frames, ∀ text grounded, completionOf frame = some (text, grounded) →
    text = streamed.flatten ∧ grounded = false

/-- The deltas of two lists of frames are those of each. -/
@[simp]
theorem deltasOf_append (frames more : List ServerMessage) :
    deltasOf (frames ++ more) = deltasOf frames ++ deltasOf more := List.filterMap_append

/-- The deltas of frames that are deltas are their pieces. -/
@[simp]
theorem deltasOf_map_delta (pieces : List PyStr) :
    deltasOf (pieces.map .delta) = pieces := by
  induction pieces with
  | nil => rfl
  | cons piece pieces ih => exact congrArg (piece :: ·) ih

/-- A frame that cannot be serialised is the end of what goes out: what was sent is a beginning of
    the frames, and what no run of them commits to, none of these does. -/
theorem Uncommitted.cutOff {word : WordTable} {sent frames : List ServerMessage}
    (h : Uncommitted word frames) (hsent : sent <+: frames) : Uncommitted word sent := by
  obtain ⟨unsent, rfl⟩ := hsent
  constructor
  · intro before block after heq
    refine h.deltas before block (after ++ deltasOf unsent) ?_
    rw [deltasOf_append, heq, List.append_assoc _ after]
  · intro frame hframe text grounded hcompletion
    exact h.completion frame (List.mem_append_left _ hframe) text grounded hcompletion

/-- Frames that are cut off are still `Ungrounded`. -/
theorem Ungrounded.cutOff {streamed : List PyStr} {sent frames : List ServerMessage}
    (h : Ungrounded streamed frames) (hsent : sent <+: frames) : Ungrounded streamed sent := by
  obtain ⟨unsent, rfl⟩ := hsent
  constructor
  · have hdeltas := h.deltas
    rw [deltasOf_append] at hdeltas
    exact (List.prefix_append _ _).trans hdeltas
  · intro frame hframe text grounded hcompletion
    exact h.completion frame (List.mem_append_left _ hframe) text grounded hcompletion

/-- Errors only. -/
def OnlyErrors (frames : List ServerMessage) : Prop :=
  ∀ frame ∈ frames, ∃ code message, frame = .error code message

/-- One error frame is `OnlyErrors`. -/
theorem onlyErrors_singleton (code message : PyStr) : OnlyErrors [.error code message] := by
  intro frame hframe
  exact ⟨code, message, List.mem_singleton.mp hframe⟩

/-- Error frames have no deltas. -/
theorem OnlyErrors.deltasOf {frames : List ServerMessage} (h : OnlyErrors frames) :
    deltasOf frames = [] := by
  rw [CommittedMoney.deltasOf, List.filterMap_eq_nil_iff]
  intro frame hframe
  obtain ⟨code, message, rfl⟩ := h frame hframe
  rfl

/-- Error frames complete nothing. -/
theorem OnlyErrors.completionOf {frames : List ServerMessage} (h : OnlyErrors frames)
    {frame : ServerMessage} (hframe : frame ∈ frames) : completionOf frame = none := by
  obtain ⟨code, message, rfl⟩ := h frame hframe
  rfl

/-- Errors commit to nothing. -/
theorem OnlyErrors.uncommitted {word : WordTable} {frames : List ServerMessage}
    (h : OnlyErrors frames) : Uncommitted word frames := by
  have hempty : commits word [] = false := by
    rw [commits_of_ascii word rfl]
    decide +kernel
  constructor
  · intro before block after heq
    rw [h.deltasOf] at heq
    have hblock : block = [] := by
      obtain ⟨hfront, -⟩ := List.append_eq_nil_iff.mp heq.symm
      exact (List.append_eq_nil_iff.mp hfront).2
    rw [hblock]
    exact hempty
  · intro frame hframe text grounded hcompletion
    rw [h.completionOf hframe] at hcompletion
    exact nomatch hcompletion

/-- The frames of a reply commit to what the reply commits to. -/
theorem replyFrames_uncommitted {word : WordTable} (conversationId : Option Uuid)
    {reply : AssistantReply} (h : commits word reply.reply.val = false) :
    Uncommitted word (AnswerStreamer.replyFrames conversationId reply) := by
  constructor
  · intro before block after heq
    have hpieces : chunk reply.reply.val 24 = before ++ block ++ after := by
      simpa [AnswerStreamer.replyFrames, deltasOf] using heq
    cases hblock : commits word block.flatten with
    | false => rfl
    | true => exact (commits_of_block hpieces hblock).symm.trans h
  · intro frame hframe text grounded hcompletion
    cases List.mem_append.mp hframe with
    | inl hdelta =>
      obtain ⟨piece, -, rfl⟩ := List.mem_map.mp hdelta
      exact nomatch hcompletion
    | inr hcomplete =>
      rw [List.mem_singleton.mp hcomplete] at hcompletion
      rw [← (Prod.mk.inj (Option.some.inj hcompletion)).1]
      exact h

/-! ## The two ways of the streamer -/

/-- `answerGrounded` sends frames that commit to nothing, where no answer does. -/
theorem answerGrounded_uncommitted {answerer : Answerer} {word : WordTable}
    (hanswerer : ∀ question conversationId env w reply w',
      answerer.answer question conversationId env w = (.ok reply, w') →
      commits word reply.reply.val = false)
    (question : Text) (conversationId : Option Uuid) (env : Env) (w : RequestState) :
    ∃ frames w', AnswerStreamer.answerGrounded answerer question conversationId env w =
        (.ok frames, w') ∧
      Uncommitted word frames := by
  cases answerGrounded_returns answerer question conversationId env w with
  | inl hreply =>
    obtain ⟨reply, w', hanswer, hrun⟩ := hreply
    have huncommitted := hanswerer question conversationId env w reply w' hanswer
    exact ⟨_, w', hrun, replyFrames_uncommitted conversationId huncommitted⟩
  | inr herror =>
    obtain ⟨raised, code, message, w', -, hrun⟩ := herror
    exact ⟨_, w', hrun, (onlyErrors_singleton code message).uncommitted⟩

/-- The prose fallback sends `Ungrounded` frames. -/
theorem ungrounded_of_proseRun {recorder : Option TurnRecorder} {question : Text}
    {conversationId : Option Uuid} {env : Env} {w w' : RequestState} {frames : List ServerMessage}
    (h : ProseRun recorder question conversationId env w frames w') :
    Ungrounded (env.provider.streamText (prosePrompt question)).1 frames := by
  -- What is sent of the stream is a prefix of it, whatever frames without text follow
  have hdeltas : ∀ (pieces : List PyStr) (rest : List ServerMessage), deltasOf rest = [] →
      deltasOf (pieces.map ServerMessage.delta ++ rest) <+: pieces := by
    intro pieces rest hrest
    have heq : deltasOf (pieces.map ServerMessage.delta ++ rest) = pieces := by
      rw [deltasOf_append, deltasOf_map_delta, hrest, List.append_nil]
    exact ⟨[], (List.append_nil _).trans heq⟩
  -- Only the last frame can be a completion
  have hcompletion : ∀ (streamed pieces : List PyStr) (rest : List ServerMessage),
      (∀ frame ∈ rest, ∀ text grounded, completionOf frame = some (text, grounded) →
        text = streamed.flatten ∧ grounded = false) →
      ∀ frame ∈ pieces.map ServerMessage.delta ++ rest, ∀ text grounded,
        completionOf frame = some (text, grounded) →
        text = streamed.flatten ∧ grounded = false := by
    intro streamed pieces rest hrest frame hframe text grounded hcompletion
    cases List.mem_append.mp hframe with
    | inl hdelta =>
      obtain ⟨piece, -, rfl⟩ := List.mem_map.mp hdelta
      exact nomatch hcompletion
    | inr hmem => exact hrest frame hmem text grounded hcompletion
  -- The four ends of `_stream_prose`
  cases h with
  | refused hrecord hno =>
    refine ⟨List.nil_prefix, ?_⟩
    intro frame hframe text grounded hcompletion
    rw [List.mem_singleton.mp hframe] at hcompletion
    exact nomatch hcompletion
  | broken hrecord hstream =>
    rw [hstream]
    constructor
    · exact hdeltas _ _ rfl
    · apply hcompletion
      intro frame hframe text grounded hcompletion
      rw [List.mem_singleton.mp hframe] at hcompletion
      exact nomatch hcompletion
  | finished hrecord hstream hanswer hyes =>
    rw [hstream]
    constructor
    · exact hdeltas _ _ rfl
    · apply hcompletion
      intro frame hframe text grounded hcompletion
      rw [List.mem_singleton.mp hframe] at hcompletion
      obtain ⟨rfl, rfl⟩ := Prod.mk.inj (Option.some.inj hcompletion)
      exact ⟨rfl, rfl⟩
  | unrecorded hrecord hstream hanswer hno =>
    rw [hstream]
    constructor
    · exact hdeltas _ _ rfl
    · apply hcompletion
      intro frame hframe text grounded hcompletion
      simp only [List.mem_cons, List.not_mem_nil, or_false] at hframe
      obtain rfl | rfl := hframe
      · exact nomatch hcompletion
      · obtain ⟨rfl, rfl⟩ := Prod.mk.inj (Option.some.inj hcompletion)
        exact ⟨rfl, rfl⟩

/-! ## Every transport -/

/-- The pipeline cannot run, and the streamer is free to fall back. -/
def FallsBack (streamer : AnswerStreamer) (env : Env) : Prop :=
  streamer.busy = false ∧ (streamer.answerer && env.settings.databaseConfigured) = false

/-- Whatever the handlers and the model say, a reply over HTTP commits to no money, and neither does
    what a socket sends for a question, unless there is no database to run the pipeline over; then
    it sends a beginning of what the model streams, and does not call it grounded. This holds of the
    frames of `AnswerStreamer.answer`, and of as many of them as get out before one that `send`
    cannot serialise. -/
theorem sent_uncommitted (knowledgeBase agent : HandlerRequest → App HandlerResponse)
    (word : WordTable) (minConfidence : Rat) :
    let service := AssistantService.ofHandlers knowledgeBase agent word minConfidence
    (∀ message conversationId scope env w reply w',
      service.respond message conversationId scope env w = (.ok reply, w') →
      commits word reply.reply.val = false) ∧
    ∀ scope recorder answerer busy question conversationId env w,
      let streamer : AnswerStreamer := { service, scope, recorder, answerer, busy }
      ∃ frames w', streamer.answer question conversationId env w = (.ok frames, w') ∧
        ∀ sent, sent <+: frames →
          (¬ FallsBack streamer env → Uncommitted word sent) ∧
          (FallsBack streamer env →
            Ungrounded (env.provider.streamText {
              system := REALTIME_REPLY_SYSTEM_PROMPT, user := question.val }).1 sent) := by
  intro service
  have hservice : ∀ message conversationId scope env w reply w',
      service.respond message conversationId scope env w = (.ok reply, w') →
      commits word reply.reply.val = false := fun _ _ _ _ _ _ _ hrun => respond_uncommitted hrun
  refine ⟨hservice, ?_⟩
  intro scope recorder answerer busy question conversationId env w streamer
  suffices hframes : ∃ frames w', streamer.answer question conversationId env w =
      (.ok frames, w') ∧ (¬ FallsBack streamer env → Uncommitted word frames) ∧
      (FallsBack streamer env → Ungrounded (env.provider.streamText {
        system := REALTIME_REPLY_SYSTEM_PROMPT, user := question.val }).1 frames) by
    obtain ⟨frames, w', hrun, huncommitted, hungrounded⟩ := hframes
    exact ⟨frames, w', hrun, fun _ hsent => ⟨fun h => (huncommitted h).cutOff hsent,
      fun h => (hungrounded h).cutOff hsent⟩⟩
  -- What is answered in a session of its own is answered by the service.
  have hsession : ∀ available question conversationId env w reply w',
      (SessionAnswerer service scope available).answer question conversationId env w =
        (.ok reply, w') → commits word reply.reply.val = false := by
    intro available question conversationId env w reply w' hrun
    simp only [SessionAnswerer, App.inNewSession] at hrun
    split at hrun
    · exact hservice question conversationId scope env _ reply _
        (Prod.ext (Prod.mk.inj hrun).1 rfl)
    · exact nomatch (Prod.mk.inj hrun).1
  unfold AnswerStreamer.answer
  cases hbusy : streamer.busy with
  -- A busy connection is answered with an error frame alone
  | true =>
    refine ⟨_, w, rfl, fun _ => (onlyErrors_singleton _ _).uncommitted, ?_⟩
    rintro ⟨hfree, -⟩
    rw [hbusy] at hfree
    exact nomatch hfree
  | false =>
    simp only [Bool.false_eq_true, if_false]
    rw [Effect.bind_of_ok (Effect.ask_run env w)]
    -- The pipeline is chosen when the connection has an answerer and a database
    have hready : (streamer.answerer && env.settings.databaseConfigured) = true →
        AnswerStreamer.answerFrom streamer.turnRecorder (streamer.questionAnswerer env.settings)
          question conversationId =
        AnswerStreamer.answerGrounded
          (SessionAnswerer service scope env.settings.databaseConfigured) question
          conversationId := by
      intro h
      obtain ⟨hgiven, havailable⟩ := (Bool.and_eq_true _ _).mp h
      simp only [AnswerStreamer.answerFrom, AnswerStreamer.questionAnswerer, hgiven, if_true]
      rw [if_pos (show (SessionAnswerer service scope
        env.settings.databaseConfigured).available = true from havailable)]
    -- Else the prose is streamed, which is not asked to be grounded
    have hfallback : (streamer.answerer && env.settings.databaseConfigured) = false →
        AnswerStreamer.answerFrom streamer.turnRecorder (streamer.questionAnswerer env.settings)
          question conversationId =
        AnswerStreamer.streamProse streamer.turnRecorder question conversationId := by
      intro h
      cases hgiven : streamer.answerer with
      | false =>
        simp only [AnswerStreamer.answerFrom, AnswerStreamer.questionAnswerer, hgiven,
          Bool.false_eq_true, if_false]
      | true =>
        rw [hgiven, Bool.true_and] at h
        simp only [AnswerStreamer.answerFrom, AnswerStreamer.questionAnswerer, hgiven, if_true]
        rw [if_neg]
        show ¬ env.settings.databaseConfigured = true
        rw [h]
        exact Bool.false_ne_true
    cases hpipeline : streamer.answerer && env.settings.databaseConfigured with
    | true =>
      rw [hready hpipeline]
      obtain ⟨frames, w', hrun, huncommitted⟩ :=
        answerGrounded_uncommitted (hsession _) question conversationId env w
      refine ⟨frames, w', hrun, fun _ => huncommitted, ?_⟩
      rintro ⟨-, hnone⟩
      rw [hpipeline] at hnone
      exact nomatch hnone
    | false =>
      rw [hfallback hpipeline]
      obtain ⟨frames, w', hrun, hprose⟩ :=
        streamProse_returns streamer.turnRecorder question conversationId env w
      refine ⟨frames, w', hrun, ?_, fun _ => ungrounded_of_proseRun hprose⟩
      intro hnot
      exact absurd ⟨hbusy, hpipeline⟩ hnot

/-! ## A promise on the fallback -/

/-- A model that promises money where its prose is streamed. -/
def promisingProvider : LLMProvider where
  intentAnalysis _ _ := .error llmError
  groundedModelAnswer _ _ := .error llmError
  agentDecision _ _ := .error llmError
  streamText _ := ([lit "I have ", lit "refunded you."], none)

/-- A server without a database. -/
def undatabased : Env := .plain promisingProvider
  {
    lookupTicket := fun _ => .error []
    listTickets := fun _ => .error []
    searchKnowledgeBase := fun _ => .error [] }
  {
    routingMinConfidence := 1 / 2
    retrievalTopK := 5
    agentMaxSteps := 4
    agentMaxToolCalls := 4
    databaseConfigured := false }

/-- The shipped streamer, over two handlers that are never asked. -/
def promisingStreamer : AnswerStreamer where
  service := AssistantService.ofHandlers (fun _ => throw (.llm llmError))
    (fun _ => throw (.llm llmError)) .asciiOnly (1 / 2)
  scope := none
  recorder := true
  answerer := true
  busy := false

/-- Prose that promises money is sent as it comes. -/
theorem prose_commits :
    ∃ frames w', promisingStreamer.answer ⟨lit "Where is my money?", by decide⟩ none undatabased
        (.start ⟨[], [], [], [], [], []⟩) = (.ok frames, w') ∧
      ¬ Uncommitted .asciiOnly frames := by
  refine ⟨[.delta (lit "I have "), .delta (lit "refunded you."),
    .complete (lit "I have " ++ lit "refunded you.") 2 none false [] false], _, rfl, ?_⟩
  intro h
  have hpromise := h.deltas [] [lit "I have ", lit "refunded you."] [] rfl
  have hcommits : commits .asciiOnly [lit "I have ", lit "refunded you."].flatten = true := by
    decide +kernel
  rw [hcommits] at hpromise
  exact nomatch hpromise

end NexaAssist.Spec.CommittedMoney
