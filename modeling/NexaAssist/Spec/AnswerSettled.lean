import NexaAssist.Realtime.Streamer

/-!
# Every question on a connection is settled

A question is settled when `answer` returns, a `Complete` or an `Error` frame was sent for it,
and the connection is free for the next one. The connection is always freed; `answer` returns
unless the provider's stream raises what is no `LLMError`, or a text that goes into a frame
cannot be encoded.
-/

namespace NexaAssist.Spec.AnswerSettled

open PyJson Realtime
open AnswerStreamer (STREAM_FAILED_MESSAGE errorFrame replyFrames)

/-- A question, and how the parties behave while it is answered. -/
structure Asked where
  parties : Parties
  question : Text
  conversationId : Option Uuid

def Asked.run (asked : Asked) (c : Connection) : Except LiveException Unit × Connection :=
  answer asked.question asked.conversationId asked.parties c

/-- A connection after questions that were asked one after another. -/
def after (earlier : List Asked) : Connection :=
  earlier.foldl (fun c asked => (asked.run c).2) Connection.opened

/-- The frames that end an answer. -/
def settling : ServerMessage → Bool
  | .delta _ => false
  | .complete .. => true
  | .error .. => true

structure Settled (asked : Asked) (c : Connection) : Prop where
  returns : (asked.run c).1 = .ok ()
  reported : ∃ sent, (asked.run c).2.sent = c.sent ++ sent ∧
    ∃ frame ∈ sent, settling frame = true
  released : (asked.run c).2.busy = false

/-! ## When the frames of a question can be sent -/

/-- What is sent about an exception is encodable. -/
def Sayable (exception : LiveException) : Prop :=
  ∀ error, exception.appError = some error → wellFormed error.message = true

/-- A refusal to record the turn is sayable. -/
def Refusable (parties : Parties) (conversationId : Option Uuid) (role : MessageRole)
    (content : PyStr) : Prop :=
  ∀ id, conversationId = some id → ∀ recordTurn, parties.recorder = some recordTurn →
    ∀ exception, recordTurn id role content = .error exception → Sayable exception

/-- The turn is recorded, where there is a conversation to record it in. -/
def Recorded (parties : Parties) (conversationId : Option Uuid) (role : MessageRole)
    (content : PyStr) : Prop :=
  ∀ id, conversationId = some id →
    ∃ recordTurn, parties.recorder = some recordTurn ∧ recordTurn id role content = .ok ()

/-- The provider's stream is of encodable deltas, and raises nothing but an `LLMError`. -/
def StreamContained : List PyStr × Option LiveException → Prop
  | (pieces, raised) => (∀ piece ∈ pieces, wellFormed piece = true) ∧
      ∀ exception, raised = some exception → ∃ error, exception = .llm error

/-- What an unsourced answer needs of the recorder and the provider. -/
structure ProseContained (asked : Asked) : Prop where
  customer : Refusable asked.parties asked.conversationId .customer asked.question.val
  stream : Recorded asked.parties asked.conversationId .customer asked.question.val →
    StreamContained (asked.parties.streamText (prompt asked.question))
  assistant : Recorded asked.parties asked.conversationId .customer asked.question.val →
    (asked.parties.streamText (prompt asked.question)).2 = none →
    Refusable asked.parties asked.conversationId .assistant
      (asked.parties.streamText (prompt asked.question)).1.flatten

/-- What a grounded answer needs of the answerer. -/
def GroundedContained : Except LiveException AssistantReply → Prop
  | .ok reply => wellFormed reply.reply.val = true ∧ ∀ citation ∈ reply.citations,
      wellFormed citation.documentTitle = true ∧ wellFormed citation.excerpt = true
  | .error exception => Sayable exception

def Contained (asked : Asked) : Prop :=
  match asked.parties.available with
  | some answer => GroundedContained (answer asked.question asked.conversationId)
  | none => ProseContained asked

/-- `failureFrame` can be encoded just if the failure is sayable. -/
theorem encodable_failureFrame (code message : String) (exception : LiveException) :
    encodable (failureFrame (lit code) (lit message) exception) = true ↔ Sayable exception := by
  unfold failureFrame Sayable
  cases happ : exception.appError with
  | some error => simp [encodable, errorFrame, wellFormed_lit]
  | none => simp [encodable, wellFormed_lit]

/-- Pieces together can be encoded just if each can. -/
theorem wellFormed_flatten (pieces : List PyStr) :
    wellFormed pieces.flatten = true ↔ ∀ piece ∈ pieces, wellFormed piece = true := by
  simp [wellFormed, List.all_eq_true, List.all_flatten]

/-- Pieces can be encoded just if their deltas can. -/
theorem encodable_deltas (pieces : List PyStr) :
    (∀ frame ∈ pieces.map ServerMessage.delta, encodable frame = true) ↔
      ∀ piece ∈ pieces, wellFormed piece = true := by
  simp [encodable]

/-- All of `groundedFrames` can be encoded just if the outcome is contained. -/
theorem groundedFrames_encodable (conversationId : Option Uuid)
    (outcome : Except LiveException AssistantReply) :
    (∀ frame ∈ groundedFrames conversationId outcome, encodable frame = true) ↔
      GroundedContained outcome := by
  cases outcome with
  | error exception =>
    rw [groundedFrames, List.forall_mem_singleton]
    exact encodable_failureFrame _ _ exception
  | ok reply =>
    rw [groundedFrames, replyFrames, List.forall_mem_append, encodable_deltas,
      ← wellFormed_flatten, chunk_flatten, List.forall_mem_singleton, GroundedContained]
    simp [encodable]

/-- All of `recordFrames` can just if what it refuses is sayable. -/
theorem recordFrames_encodable (parties : Parties) (conversationId : Option Uuid)
    (role : MessageRole) (content : PyStr) :
    (∀ frame ∈ recordFrames parties conversationId role content, encodable frame = true) ↔
      Refusable parties conversationId role content := by
  unfold recordFrames Refusable
  cases conversationId with
  | none => simp
  | some conversationId =>
    cases parties.recorder with
    | none => simp [encodable, wellFormed_lit]
    | some recordTurn =>
      cases hrecord : recordTurn conversationId role content with
      | ok => simp [hrecord]
      | error exception => simp [hrecord, encodable_failureFrame]

/-- `recordFrames` says nothing just if the turn is recorded. -/
theorem recordFrames_eq_nil (parties : Parties) (conversationId : Option Uuid)
    (role : MessageRole) (content : PyStr) :
    recordFrames parties conversationId role content = [] ↔
      Recorded parties conversationId role content := by
  unfold recordFrames Recorded
  cases conversationId with
  | none => simp
  | some conversationId =>
    cases parties.recorder with
    | none => simp
    | some recordTurn =>
      cases hrecord : recordTurn conversationId role content with
      | ok => simp [hrecord]
      | error exception => simp [hrecord]

/-- `streamEnd` is sent and returns just if the stream is contained. -/
theorem streamEnd_contained (stream : List PyStr × Option LiveException) :
    ((∀ frame ∈ (streamEnd stream).1, encodable frame = true) ∧
      ∃ finished, (streamEnd stream).2 = .ok finished) ↔ StreamContained stream := by
  match stream with
  | (pieces, none) => simp [streamEnd, StreamContained, encodable]
  | (pieces, some (.llm error)) =>
    simp [streamEnd, StreamContained, encodable, wellFormed_lit, STREAM_FAILED_MESSAGE,
      or_imp, forall_and]
  | (pieces, some (.app error)) => simp [streamEnd, StreamContained]
  | (pieces, some (.other name)) => simp [streamEnd, StreamContained]

/-- A stream goes on to its completion where nothing ended it. -/
theorem streamEnd_finished {stream : List PyStr × Option LiveException} {pieces : List PyStr} :
    (streamEnd stream).2 = .ok (some pieces) ↔ stream = (pieces, none) := by
  match stream with
  | (others, none) => simp [streamEnd]
  | (others, some (.llm error)) => simp [streamEnd]
  | (others, some (.app error)) => simp [streamEnd]
  | (others, some (.other name)) => simp [streamEnd]

/-- `proseFrames` sends all its frames and returns just if `ProseContained` holds. -/
theorem proseFrames_contained (asked : Asked) :
    ((∀ frame ∈ (proseFrames asked.parties asked.question asked.conversationId).1,
        encodable frame = true) ∧
      (proseFrames asked.parties asked.question asked.conversationId).2 = .ok ()) ↔
      ProseContained asked := by
  obtain ⟨parties, question, conversationId⟩ := asked
  have hcustomer := recordFrames_encodable parties conversationId .customer question.val
  have hrecorded := recordFrames_eq_nil parties conversationId .customer question.val
  unfold proseFrames
  simp only
  match hframes : recordFrames parties conversationId .customer question.val with
  | frame :: frames =>
    rw [hframes] at hcustomer hrecorded
    have hnot : ¬Recorded parties conversationId .customer question.val := by
      rw [← hrecorded]
      exact nofun
    constructor
    · rintro ⟨hall, -⟩
      exact ⟨hcustomer.mp hall, fun h => absurd h hnot, fun h => absurd h hnot⟩
    · intro h
      exact ⟨hcustomer.mpr h.customer, rfl⟩
  | [] =>
    rw [hframes] at hcustomer hrecorded
    have hok : Refusable parties conversationId .customer question.val := by
      rw [← hcustomer]
      exact nofun
    have hrec : Recorded parties conversationId .customer question.val := hrecorded.mp rfl
    have hstream := streamEnd_contained (parties.streamText (prompt question))
    match hend : streamEnd (parties.streamText (prompt question)) with
    | (frames, .error exception) =>
      rw [hend] at hstream
      constructor
      · rintro ⟨-, hraised⟩
        exact nomatch hraised
      · intro h
        obtain ⟨-, finished, hfinished⟩ := hstream.mpr (h.stream hrec)
        exact nomatch hfinished
    | (frames, .ok none) =>
      rw [hend] at hstream
      have hunfinished : (parties.streamText (prompt question)).2 ≠ none := by
        intro hnone
        have hfinished : (streamEnd (parties.streamText (prompt question))).2 =
            .ok (some (parties.streamText (prompt question)).1) :=
          streamEnd_finished.mpr (Prod.ext rfl hnone)
        rw [hend] at hfinished
        exact nomatch hfinished
      constructor
      · rintro ⟨hall, -⟩
        exact ⟨hok, fun _ => hstream.mp ⟨hall, none, rfl⟩, fun _ hnone => absurd hnone hunfinished⟩
      · intro h
        exact ⟨(hstream.mpr (h.stream hrec)).1, rfl⟩
    | (frames, .ok (some pieces)) =>
      have hfinished : parties.streamText (prompt question) = (pieces, none) :=
        streamEnd_finished.mp (congrArg Prod.snd hend)
      rw [hend] at hstream
      have hassistant := recordFrames_encodable parties conversationId .assistant pieces.flatten
      simp only [List.forall_mem_append, List.forall_mem_singleton]
      constructor
      · rintro ⟨⟨⟨hall, hturn⟩, -⟩, -⟩
        refine ⟨hok, fun _ => hstream.mp ⟨hall, some pieces, rfl⟩, fun _ _ => ?_⟩
        rw [hfinished]
        exact hassistant.mp hturn
      · intro h
        have hcontained := h.stream hrec
        have hturn := h.assistant hrec (by rw [hfinished])
        rw [hfinished] at hturn
        refine ⟨⟨⟨(hstream.mpr hcontained).1, hassistant.mpr hturn⟩, ?_⟩, trivial⟩
        rw [hfinished] at hcontained
        simpa [encodable] using (wellFormed_flatten pieces).mpr hcontained.1

/-- `answerFrames` sends all its frames and returns just if `Contained` holds. -/
theorem answerFrames_contained (asked : Asked) :
    ((∀ frame ∈ (answerFrames asked.parties asked.question asked.conversationId).1,
        encodable frame = true) ∧
      (answerFrames asked.parties asked.question asked.conversationId).2 = .ok ()) ↔
      Contained asked := by
  unfold answerFrames Contained
  cases asked.parties.available with
  | some answer =>
    have hframes := groundedFrames_encodable asked.conversationId
      (answer asked.question asked.conversationId)
    exact ⟨fun h => hframes.mp h.1, fun h => ⟨hframes.mpr h, rfl⟩⟩
  | none => exact proseFrames_contained asked

/-! ## A question is reported on -/

/-- `failureFrame` settles a question. -/
theorem failureFrame_settling (code message : PyStr) (exception : LiveException) :
    settling (failureFrame code message exception) = true := by
  unfold failureFrame
  cases exception.appError <;> rfl

/-- Every frame of `recordFrames` is a settling one. -/
theorem recordFrames_settling {parties : Parties} {conversationId : Option Uuid}
    {role : MessageRole} {content : PyStr} {frame : ServerMessage}
    (h : frame ∈ recordFrames parties conversationId role content) : settling frame = true := by
  unfold recordFrames at h
  split at h
  · exact nomatch h
  · rw [List.mem_singleton.mp h]
    rfl
  · split at h
    · exact nomatch h
    · rw [List.mem_singleton.mp h]
      exact failureFrame_settling _ _ _

/-- Where nothing escapes, the last frame settles the question. -/
theorem answerFrames_settling (parties : Parties) (question : Text) (conversationId : Option Uuid)
    (h : (answerFrames parties question conversationId).2 = .ok ()) :
    ∃ frame ∈ (answerFrames parties question conversationId).1, settling frame = true := by
  unfold answerFrames at h ⊢
  cases havailable : parties.available with
  | some answer =>
    show ∃ frame ∈ groundedFrames conversationId (answer question conversationId), _
    cases answer question conversationId with
    | ok reply => exact ⟨_, List.mem_append_right _ (List.mem_singleton_self _), rfl⟩
    | error exception =>
      exact ⟨_, List.mem_singleton_self _, failureFrame_settling _ _ exception⟩
  | none =>
    rw [havailable] at h
    simp only at h ⊢
    unfold proseFrames at h ⊢
    match hframes : recordFrames parties conversationId .customer question.val with
    | frame :: frames =>
      have hframe : frame ∈ recordFrames parties conversationId .customer question.val := by
        rw [hframes]
        exact List.mem_cons_self
      exact ⟨frame, List.mem_cons_self, recordFrames_settling hframe⟩
    | [] =>
      rw [hframes] at h
      match hstream : parties.streamText (prompt question) with
      | (pieces, none) => exact ⟨_, List.mem_append_right _ (List.mem_singleton_self _), rfl⟩
      | (pieces, some (.llm error)) =>
        exact ⟨_, List.mem_append_right _ (List.mem_singleton_self _), rfl⟩
      | (pieces, some (.app error)) =>
        rw [hstream] at h
        exact nomatch h
      | (pieces, some (.other name)) =>
        rw [hstream] at h
        exact nomatch h

/-! ## The connection is freed -/

/-- An idle connection takes a question and is idle behind it. -/
theorem answer_of_idle {c : Connection} (hidle : c.busy = false) (asked : Asked) :
    asked.run c =
      ((answerTaken asked.question asked.conversationId asked.parties { c with busy := true }).1,
        { (answerTaken asked.question asked.conversationId asked.parties
            { c with busy := true }).2 with busy := false }) := by
  unfold Asked.run answer
  rw [Effect.bind_of_ok (Effect.get_run _ _)]
  rw [hidle]
  rfl

/-- While a question is being answered another is turned away, and nothing else happens. -/
theorem answer_of_busy {c : Connection} (hbusy : c.busy = true) (asked : Asked) :
    asked.run c = (.ok (), { c with sent := c.sent ++ [AnswerStreamer.busyFrame] }) := by
  unfold Asked.run answer
  rw [Effect.bind_of_ok (Effect.get_run _ _)]
  have hframe : encodable AnswerStreamer.busyFrame = true := by decide +kernel
  simp only [hbusy, if_true, send, hframe, Effect.modify_run]

/-- An idle connection is idle after a question. -/
theorem run_idle {c : Connection} (hidle : c.busy = false) (asked : Asked) :
    (asked.run c).2.busy = false := by
  rw [answer_of_idle hidle]

/-- The connection is idle after any number of questions. -/
theorem after_idle (earlier : List Asked) : (after earlier).busy = false := by
  unfold after
  have hopened : Connection.opened.busy = false := rfl
  generalize Connection.opened = c at hopened
  induction earlier generalizing c with
  | nil => exact hopened
  | cons asked earlier ih => exact ih _ (run_idle hopened asked)

/-- A question is settled just if what is asked of the parties is contained. -/
theorem settled_iff {c : Connection} (hidle : c.busy = false) (asked : Asked) :
    Settled asked c ↔ Contained asked := by
  have hemits := answerTaken_emits asked.parties asked.question asked.conversationId
  have hreturns := hemits.returns_iff (a := ()) (send_appends asked.parties) { c with busy := true }
  have hrun := answer_of_idle hidle asked
  rw [← answerFrames_contained, ← hreturns]
  constructor
  · intro h
    have hok := h.returns
    rwa [hrun] at hok
  · intro hok
    have hframes := (hreturns.mp hok).2
    have hsent := hemits.emitted_of_ok (send_appends asked.parties) hok
    exact {
      returns := by rw [hrun]; exact hok
      reported := ⟨_, by rw [hrun]; exact hsent, answerFrames_settling _ _ _ hframes⟩
      released := run_idle hidle asked }

/-- On a connection, after any questions, a question is settled just when what the parties
    raise is of the kinds that are caught where they raise it, and all they say is encodable.
    It frees the connection in any case. -/
theorem settled_iff_contained (earlier : List Asked) (asked : Asked) :
    (Settled asked (after earlier) ↔ Contained asked) ∧
      (asked.run (after earlier)).2.busy = false :=
  ⟨settled_iff (after_idle earlier) asked, run_idle (after_idle earlier) asked⟩

/-- A provider that breaks before its first delta. -/
def brokenProvider : Asked where
  parties := {
    answerer := none
    streamText := fun _ => ([], some (.other "RuntimeError"))
    recorder := none }
  question := ⟨[0x68], by decide⟩
  conversationId := none

/-- The exception goes through `answer`, and nothing was sent. -/
theorem stream_exception_escapes : ¬Settled brokenProvider Connection.opened := by
  intro h
  have hcontained := (settled_iff rfl brokenProvider).mp h
  have hrecorded : Recorded brokenProvider.parties none .customer brokenProvider.question.val :=
    nofun
  obtain ⟨error, herror⟩ := (hcontained.stream hrecorded).2 _ rfl
  exact nomatch herror

end NexaAssist.Spec.AnswerSettled
