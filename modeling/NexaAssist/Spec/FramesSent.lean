import Mathlib.Data.List.TakeWhile
import NexaAssist.ForStd.List
import NexaAssist.ForStd.Machine
import NexaAssist.Spec.AnswerSettled
import NexaAssist.Spec.FrameProtocol

/-!
# What gets out of a question

A frame goes out one at a time, and `Connection.send` raises for one that has no UTF-8 form. So
what gets out of a question is a beginning of its frames. It keeps to the grammar of
`FrameProtocol` just when all of them can be encoded.

Calls of `answer` that overlap on one streamer keep to this too: all but the first are refused
with the busy error, and the first one is not disturbed.

## Key results

- `protocol_iff`: when the frames of one question keep to the grammar
- `calls_framed_iff`: what overlapping calls send
-/

namespace NexaAssist.Spec.FramesSent

open PyJson Realtime AnswerSettled
open AnswerStreamer (STREAM_FAILED_MESSAGE busyFrame replyFrames)
open FrameProtocol (Framed Both not_both_of_failed not_both_of_completed)

/-- The frames that a question is to send. -/
def frames (asked : Asked) : List ServerMessage :=
  (answerFrames asked.parties asked.question asked.conversationId).1

/-- Those that get out: the ones before the first that cannot be encoded. -/
def framesOut (asked : Asked) : List ServerMessage := (frames asked).takeWhile encodable

/-- `answer`, on a connection that is free, sends `framesOut`. -/
theorem sent_of_idle {c : Connection} (hidle : c.busy = false) (asked : Asked) :
    (asked.run c).2.sent = c.sent ++ framesOut asked := by
  rw [answer_of_idle hidle]
  exact (answerTaken_emits asked.parties asked.question asked.conversationId).emitted_eq
    (send_appends asked.parties) { c with busy := true }

/-! ## The grammar -/

/-- The prose answer was streamed to its end, and could not be recorded. -/
structure Unrecorded (asked : Asked) : Prop where
  prose : asked.parties.available = none
  customer : Recorded asked.parties asked.conversationId .customer asked.question.val
  finished : (asked.parties.streamText (prompt asked.question)).2 = none
  assistant : ¬Recorded asked.parties asked.conversationId .assistant
    (asked.parties.streamText (prompt asked.question)).1.flatten

/-- The frames of a question keep to the grammar, and an error is followed by a completion only
    where the prose answer could not be recorded. -/
structure Protocol (asked : Asked) (frames : List ServerMessage) : Prop where
  framed : Framed asked.conversationId frames
  late : Both frames → Unrecorded asked

/-- Frames that keep to the `Protocol` have a settling one. -/
theorem Protocol.settling {asked : Asked} {frames : List ServerMessage}
    (h : Protocol asked frames) : ∃ frame ∈ frames, settling frame = true := by
  cases h.framed with
  | failed => exact ⟨_, List.mem_append_right _ List.mem_cons_self, rfl⟩
  | completed => exact ⟨_, List.mem_append_right _ List.mem_cons_self, rfl⟩
  | unrecorded => exact ⟨_, List.mem_append_right _ List.mem_cons_self, rfl⟩

/-- `failureFrame` is an error frame. -/
theorem failureFrame_eq (code message : PyStr) (exception : LiveException) :
    ∃ code' message', failureFrame code message exception = .error code' message' := by
  unfold failureFrame
  cases exception.appError with
  | some error => exact ⟨_, _, rfl⟩
  | none => exact ⟨_, _, rfl⟩

/-- `recordFrames` are none where the turn was recorded, and one error where it was not. -/
theorem recordFrames_cases (parties : Parties) (conversationId : Option Uuid) (role : MessageRole)
    (content : PyStr) :
    (recordFrames parties conversationId role content = [] ∧
      Recorded parties conversationId role content) ∨
    ∃ code message, recordFrames parties conversationId role content = [.error code message] ∧
      ¬Recorded parties conversationId role content := by
  unfold recordFrames Recorded
  cases conversationId with
  | none => simp
  | some id =>
    cases parties.recorder with
    | none => simp
    | some recordTurn =>
      cases hturn : recordTurn id role content with
      | ok => simp [hturn]
      | error exception =>
        right
        obtain ⟨code, message, hframe⟩ := failureFrame_eq (lit "realtime_turn_not_recorded")
          (lit "The exchange could not be recorded.") exception
        exact ⟨code, message, by simp [hturn, hframe], by simp [hturn]⟩

/-- Frames of a question from which nothing escapes keep to the `Protocol`. -/
theorem protocol_of_returns {asked : Asked}
    (h : (answerFrames asked.parties asked.question asked.conversationId).2 = .ok ()) :
    Protocol asked (frames asked) := by
  obtain ⟨parties, question, conversationId⟩ := asked
  unfold frames answerFrames at *
  cases havailable : parties.available with
  | some answer =>
    simp only
    cases answer question conversationId with
    | ok reply =>
      have hframed : Framed conversationId _ :=
        .completed (chunk reply.reply.val 24) true reply.escalated reply.citations
      rw [chunk_flatten] at hframed
      exact ⟨hframed, fun hboth => absurd hboth (not_both_of_completed _ _ _ _ _ _ _)⟩
    | error exception =>
      obtain ⟨code, message, hframe⟩ := failureFrame_eq (lit "realtime_answer_failed")
        STREAM_FAILED_MESSAGE exception
      rw [groundedFrames, hframe]
      exact ⟨.failed [] code message, fun hboth => absurd hboth (not_both_of_failed [] _ _)⟩
  | none =>
    simp only [havailable] at h ⊢
    unfold proseFrames at h ⊢
    -- The question is recorded first, and the answer after it was streamed
    obtain ⟨hcustomer, hrecorded⟩ | ⟨code, message, hcustomer, -⟩ :=
      recordFrames_cases parties conversationId .customer question.val
    · rw [hcustomer] at h ⊢
      cases hstream : parties.streamText (prompt question) with
      | mk pieces raised =>
        cases raised with
        | none =>
          obtain ⟨hassistant, -⟩ | ⟨code, message, hassistant, hnot⟩ :=
            recordFrames_cases parties conversationId .assistant pieces.flatten
          · simp only [streamEnd, hassistant, List.append_nil]
            exact ⟨.completed _ _ _ _,
              fun hboth => absurd hboth (not_both_of_completed _ _ _ _ _ _ _)⟩
          · simp only [streamEnd, hassistant, List.append_assoc, List.singleton_append]
            refine ⟨.unrecorded _ _ _, fun _ => ⟨havailable, hrecorded, ?_, ?_⟩⟩
            · rw [hstream]
            · rwa [hstream]
        | some exception =>
          cases exception with
          | llm error =>
            exact ⟨.failed _ _ _, fun hboth => absurd hboth (not_both_of_failed _ _ _)⟩
          -- An exception that is not the provider's goes up
          | app error =>
            rw [hstream] at h
            cases h
          | other name =>
            rw [hstream] at h
            cases h
    · rw [hcustomer]
      exact ⟨.failed [] code message, fun hboth => absurd hboth (not_both_of_failed [] _ _)⟩

/-! ## What gets out keeps to it -/

/-- A settling frame behind deltas gets out only if every delta can be encoded. -/
theorem settling_after_deltas {pieces : List PyStr} {rest : List ServerMessage}
    {frame : ServerMessage} (hsettling : settling frame = true)
    (hframe : frame ∈ (pieces.map ServerMessage.delta ++ rest).takeWhile encodable) :
    (∀ piece ∈ pieces, wellFormed piece = true) ∧ frame ∈ rest.takeWhile encodable := by
  induction pieces with
  | nil => exact ⟨List.forall_mem_nil _, hframe⟩
  | cons piece pieces ih =>
    rw [List.map_cons, List.cons_append, List.takeWhile_cons] at hframe
    split at hframe
    · rename_i hpiece
      obtain rfl | hlater := List.mem_cons.mp hframe
      · cases hsettling
      · obtain ⟨hpieces, hrest⟩ := ih hlater
        exact ⟨List.forall_mem_cons.mpr ⟨hpiece, hpieces⟩, hrest⟩
    · cases hframe

/-- One frame gets out only if it can be encoded. -/
theorem encodable_of_mem_takeWhile_singleton {frame only : ServerMessage}
    (hframe : frame ∈ [only].takeWhile encodable) : encodable only = true := by
  rw [List.takeWhile_cons] at hframe
  split at hframe
  · assumption
  · cases hframe

/-- Where a settling frame gets out, every frame does, and nothing escapes. -/
theorem returns_of_settling {asked : Asked} {frame : ServerMessage}
    (hsettling : settling frame = true) (hframe : frame ∈ framesOut asked) :
    (∀ frame ∈ frames asked, encodable frame = true) ∧
      (answerFrames asked.parties asked.question asked.conversationId).2 = .ok () := by
  obtain ⟨parties, question, conversationId⟩ := asked
  unfold framesOut frames answerFrames at *
  cases havailable : parties.available with
  | some answer =>
    simp only [havailable] at hframe ⊢
    refine ⟨?_, trivial⟩
    cases hanswer : answer question conversationId with
    | ok reply =>
      rw [hanswer, groundedFrames, replyFrames] at hframe
      -- The settling frame comes last, so every delta before it could be encoded
      obtain ⟨hpieces, hlast⟩ := settling_after_deltas hsettling hframe
      rw [groundedFrames, replyFrames, List.forall_mem_append, encodable_deltas,
        List.forall_mem_singleton]
      exact ⟨hpieces, encodable_of_mem_takeWhile_singleton hlast⟩
    | error exception =>
      rw [hanswer] at hframe
      rw [groundedFrames, List.forall_mem_singleton]
      exact encodable_of_mem_takeWhile_singleton hframe
  | none =>
    simp only [havailable] at hframe ⊢
    unfold proseFrames at hframe ⊢
    obtain ⟨hcustomer, -⟩ | ⟨code, message, hcustomer, -⟩ :=
      recordFrames_cases parties conversationId .customer question.val
    · rw [hcustomer] at hframe ⊢
      cases hstream : parties.streamText (prompt question) with
      | mk pieces raised =>
        cases raised with
        | none =>
          simp only [hstream, streamEnd, List.append_assoc] at hframe ⊢
          obtain ⟨hpieces, hrest⟩ := settling_after_deltas hsettling hframe
          -- The whole text is encodable when its pieces are
          have hcomplete : encodable
              (.complete pieces.flatten pieces.length conversationId false [] false) = true := by
            simpa [encodable] using (wellFormed_flatten pieces).mpr hpieces
          refine ⟨?_, trivial⟩
          rw [List.forall_mem_append, List.forall_mem_append, encodable_deltas,
            List.forall_mem_singleton]
          refine ⟨hpieces, ?_, hcomplete⟩
          obtain ⟨hassistant, -⟩ | ⟨code, message, hassistant, -⟩ :=
            recordFrames_cases parties conversationId .assistant pieces.flatten
          · rw [hassistant]
            exact List.forall_mem_nil _
          · rw [hassistant, List.singleton_append, List.takeWhile_cons] at hrest
            rw [hassistant, List.forall_mem_singleton]
            split at hrest
            · assumption
            · cases hrest
        | some exception =>
          cases exception with
          | llm error =>
            simp only [hstream, streamEnd] at hframe ⊢
            obtain ⟨hpieces, hlast⟩ := settling_after_deltas hsettling hframe
            refine ⟨?_, trivial⟩
            rw [List.forall_mem_append, encodable_deltas, List.forall_mem_singleton]
            exact ⟨hpieces, encodable_of_mem_takeWhile_singleton hlast⟩
          -- A stream that breaks off in another way ends in no settling frame
          | app error =>
            simp only [hstream, streamEnd] at hframe
            rw [← List.append_nil (pieces.map _)] at hframe
            cases (settling_after_deltas hsettling hframe).2
          | other name =>
            simp only [hstream, streamEnd] at hframe
            rw [← List.append_nil (pieces.map _)] at hframe
            cases (settling_after_deltas hsettling hframe).2
    · rw [hcustomer] at hframe ⊢
      rw [List.forall_mem_singleton]
      exact ⟨encodable_of_mem_takeWhile_singleton hframe, rfl⟩

/-- What gets out of a question keeps to the grammar just when every frame can be encoded, and
    the provider raises nothing but an `LLMError`. -/
theorem protocol_iff (asked : Asked) : Protocol asked (framesOut asked) ↔ Contained asked := by
  rw [← answerFrames_contained]
  constructor
  · intro h
    obtain ⟨frame, hframe, hsettling⟩ := h.settling
    exact returns_of_settling hsettling hframe
  · rintro ⟨hencodable, hreturns⟩
    have hall : framesOut asked = frames asked := List.takeWhile_eq_self_iff.mpr hencodable
    rw [hall]
    exact protocol_of_returns hreturns

/-! ## Calls that overlap -/

/-- A call of `answer`, up to the await it stands at. `overlapping` says whether another
    one was running when it was made. -/
structure Call where
  asked : Asked
  overlapping : Bool
  refused : Bool
  unsent : List ServerMessage
  ended : Bool

/-- A streamer, the calls made of it, and the frames sent, each with the number of its
    call. -/
structure Streamer where
  busy : Bool
  calls : List Call
  sent : List (Nat × ServerMessage)

namespace Streamer

/-- `answer` up to its first await: the busy error, or the flag set. -/
def call (s : Streamer) (asked : Asked) : Streamer :=
  let overlapping := s.calls.any fun call => !call.ended
  if s.busy then
    { s with
      calls := s.calls ++ [{ asked, overlapping, refused := true, unsent := [], ended := true }]
      sent := s.sent ++ [(s.calls.length, busyFrame)] }
  else
    { s with
      busy := true
      calls := s.calls ++ [{
        asked, overlapping, refused := false, unsent := frames asked, ended := false }] }

/-- The call `n` is over, and its `finally` clears the flag. -/
def release (s : Streamer) (n : Nat) (call : Call) : Streamer :=
  { s with busy := false, calls := s.calls.set n { call with ended := true } }

/-- The call `n` sends its next frame. One that cannot be encoded raises out of the call. -/
def send (s : Streamer) (n : Nat) : Option Streamer :=
  match s.calls[n]? with
  | some call =>
    match call.ended, call.unsent with
    | false, frame :: unsent =>
      if encodable frame then
        some { s with
          calls := s.calls.set n { call with unsent }
          sent := s.sent ++ [(n, frame)] }
      else some (s.release n call)
    | _, _ => none
  | none => none

/-- The call `n` has sent everything, and returns, or raises what its parties did. -/
def finish (s : Streamer) (n : Nat) : Option Streamer :=
  match s.calls[n]? with
  | some call =>
    match call.ended, call.unsent with
    | false, [] => some (s.release n call)
    | _, _ => none
  | none => none

/-- What the call `n` has sent. -/
def sentBy (s : Streamer) (n : Nat) : List ServerMessage :=
  (s.sent.filter fun p => p.1 = n).map (·.2)

end Streamer

inductive StreamerEvent
  | call (asked : Asked)
  | send (n : Nat)
  | finish (n : Nat)

/-- A streamer under every interleaving of the calls made of it. -/
def streamer : Machine Streamer StreamerEvent where
  init := { busy := false, calls := [], sent := [] }
  step s
    | .call asked => some (s.call asked)
    | .send n => s.send n
    | .finish n => s.finish n

/-- What a call that was taken has sent: a beginning of its frames, up to one that cannot be
    encoded where it is over. -/
structure Sends (call : Call) (sent : List ServerMessage) : Prop where
  all : sent ++ call.unsent = frames call.asked
  encodable : ∀ frame ∈ sent, encodable frame = true
  stopped : call.ended = true → ∀ frame ∈ call.unsent.head?, Realtime.encodable frame = false

/-- What has been sent for each call, and that the flag is up while one is running. -/
structure Inv (s : Streamer) : Prop where
  busy : s.busy = true ↔
    ∃ (n : Nat) (call : Call), s.calls[n]? = some call ∧ call.ended = false
  one : ∀ (m n : Nat) (c d : Call), s.calls[m]? = some c → s.calls[n]? = some d → c.ended = false →
    d.ended = false → m = n
  refused : ∀ (n : Nat) (call : Call), s.calls[n]? = some call →
    call.refused = call.overlapping ∧
      if call.refused then s.sentBy n = [busyFrame] ∧ call.ended = true
      else Sends call (s.sentBy n)
  early : ∀ n frame, (n, frame) ∈ s.sent → n < s.calls.length

section Sends

variable {call : Call} {sent : List ServerMessage}

/-- A call sends a prefix of what gets out. -/
theorem Sends.isPrefix (h : Sends call sent) : sent <+: framesOut call.asked := by
  unfold framesOut
  rw [← h.all, List.takeWhile_append_of_pos h.encodable]
  exact List.prefix_append _ _

/-- A call that has ended has sent all that gets out. -/
theorem Sends.eq_framesOut (h : Sends call sent) (hended : call.ended = true) :
    sent = framesOut call.asked := by
  unfold framesOut
  rw [← h.all, List.takeWhile_append_of_pos h.encodable]
  have hstopped := h.stopped hended
  cases hunsent : call.unsent with
  | nil => simp
  | cons frame unsent =>
    rw [hunsent] at hstopped
    simp [hstopped frame rfl]

end Sends

/-- A frame is sent by its own call. -/
theorem sentBy_append (s : Streamer) (calls : List Call) (busy : Bool) (m n : Nat)
    (frame : ServerMessage) :
    Streamer.sentBy { busy, calls, sent := s.sent ++ [(m, frame)] } n =
      s.sentBy n ++ if m = n then [frame] else [] := by
  unfold Streamer.sentBy
  rw [List.filter_append, List.map_append]
  by_cases hmn : m = n
  · simp [hmn]
  · simp [hmn]

/-- Nothing was sent for a call that was not made. -/
theorem Inv.sentBy_next {s : Streamer} (h : Inv s) : s.sentBy s.calls.length = [] := by
  unfold Streamer.sentBy
  have hnone : s.sent.filter (fun p => p.1 = s.calls.length) = [] := by
    apply List.filter_eq_nil_iff.mpr
    intro p hp heq
    have hlt := h.early p.1 p.2 hp
    have hlen : p.1 = s.calls.length := of_decide_eq_true heq
    omega
  rw [hnone, List.map_nil]

/-- Some call runs just if one has not ended. -/
theorem any_running_iff {calls : List Call} :
    calls.any (fun call => !call.ended) = true ↔
      ∃ (n : Nat) (call : Call), calls[n]? = some call ∧ call.ended = false := by
  rw [List.any_eq_true]
  constructor
  · rintro ⟨call, hmem, hrunning⟩
    obtain ⟨n, hn⟩ := List.getElem?_of_mem hmem
    exact ⟨n, call, hn, by simpa using hrunning⟩
  · rintro ⟨n, call, hn, hrunning⟩
    exact ⟨call, List.mem_of_getElem? hn, by simp [hrunning]⟩

/-- `Inv` is kept when a call is made. -/
theorem call_inv {s : Streamer} (h : Inv s) (asked : Asked) : Inv (s.call asked) := by
  -- The connection is busy when one of its calls is running
  have hany : (s.calls.any fun call => !call.ended) = s.busy := by
    rw [Bool.eq_iff_iff, any_running_iff, h.busy]
  have hold : ∀ {n : Nat} {call : Call}, s.calls[n]? = some call → n < s.calls.length :=
    fun hn => (List.getElem?_eq_some_iff.mp hn).1
  unfold Streamer.call
  cases hbusy : s.busy with
  -- A call that finds the connection busy is refused with one frame and ends at once
  | true =>
    simp only [if_true]
    obtain ⟨k, running, hk, hrunning⟩ := h.busy.mp hbusy
    exact {
      busy := by
        simp only [true_iff]
        exact ⟨k, running, by rw [List.getElem?_append_left (hold hk)]; exact hk, hrunning⟩
      one := by
        intro m n c d hc hd hcover hdover
        cases List.getElem?_concat_cases hc with
        | inr hnew => rw [hnew.2] at hcover; cases hcover
        | inl hc =>
          cases List.getElem?_concat_cases hd with
          | inr hnew => rw [hnew.2] at hdover; cases hdover
          | inl hd => exact h.one m n c d hc hd hcover hdover
      refused := by
        intro n call hcall
        rw [sentBy_append]
        cases List.getElem?_concat_cases hcall with
        | inl hcall =>
          have hne : s.calls.length ≠ n := by
            have hlt := hold hcall
            omega
          rw [if_neg hne, List.append_nil]
          exact h.refused n call hcall
        | inr hnew =>
          obtain ⟨hn, hcall⟩ := hnew
          rw [hcall, hn, h.sentBy_next]
          simp only [if_true, List.nil_append, and_self, and_true]
          exact (hany.trans hbusy).symm
      early := by
        intro n frame hmem
        rw [List.length_append, List.length_singleton]
        cases List.mem_append.mp hmem with
        | inl hmem =>
          have hlt := h.early n frame hmem
          omega
        | inr hmem =>
          have heq := (Prod.mk.inj (List.mem_singleton.mp hmem)).1
          omega }
  -- A call that finds it free begins to run
  | false =>
    simp only [Bool.false_eq_true, if_false]
    -- Nothing else is running.
    have hquiet : ∀ (n : Nat) (call : Call), s.calls[n]? = some call → call.ended = true := by
      intro n call hcall
      have hidle : ¬ ∃ (n : Nat) (call : Call), s.calls[n]? = some call ∧ call.ended = false := by
        rw [← h.busy, hbusy]
        exact Bool.false_ne_true
      exact Bool.eq_true_of_not_eq_false fun hover => hidle ⟨n, call, hcall, hover⟩
    exact {
      busy := by
        simp only [true_iff]
        exact ⟨s.calls.length, _, List.getElem?_concat_length, rfl⟩
      one := by
        intro m n c d hc hd hcover hdover
        cases List.getElem?_concat_cases hc with
        | inl hc => rw [hquiet m c hc] at hcover; cases hcover
        | inr hm =>
          cases List.getElem?_concat_cases hd with
          | inl hd => rw [hquiet n d hd] at hdover; cases hdover
          | inr hn => exact hm.1.trans hn.1.symm
      refused := by
        intro n call hcall
        show call.refused = call.overlapping ∧
          if call.refused then s.sentBy n = [busyFrame] ∧ call.ended = true
          else Sends call (s.sentBy n)
        cases List.getElem?_concat_cases hcall with
        | inl hcall => exact h.refused n call hcall
        | inr hnew =>
          obtain ⟨hn, hcall⟩ := hnew
          rw [hcall, hn, h.sentBy_next]
          refine ⟨(hany.trans hbusy).symm, ?_⟩
          rw [if_neg Bool.false_ne_true]
          exact ⟨rfl, List.forall_mem_nil _, fun hover => nomatch hover⟩
      early := by
        intro n frame hmem
        rw [List.length_append, List.length_singleton]
        have hlt := h.early n frame hmem
        omega }

/-- `Inv` is kept by `release` of a call that is over or whose next frame cannot be encoded. -/
theorem release_inv {s : Streamer} {m : Nat} {running : Call} (h : Inv s)
    (hm : s.calls[m]? = some running) (hover : running.ended = false)
    (hstopped : ∀ frame ∈ running.unsent.head?, encodable frame = false) :
    Inv (s.release m running) := by
  -- The call that ends was the only one running
  have hquiet : ∀ (n : Nat) (call : Call),
      (s.calls.set m { running with ended := true })[n]? = some call → call.ended = true := by
    intro n call hcall
    cases List.getElem?_set_cases hcall with
    | inr hsame => rw [hsame.2]
    | inl hother =>
      apply Bool.eq_true_of_not_eq_false
      intro hcallover
      exact hother.1 (h.one n m call running hother.2 hm hcallover hover).symm
  constructor
  case busy =>
    constructor
    · intro hbusy
      cases hbusy
    · rintro ⟨n, call, hcall, hcallover⟩
      rw [hquiet n call hcall] at hcallover
      cases hcallover
  case one =>
    intro i j c d hc hd hcover hdover
    rw [hquiet i c hc] at hcover
    cases hcover
  case refused =>
    intro n call hcall
    show call.refused = call.overlapping ∧
      if call.refused then s.sentBy n = [busyFrame] ∧ call.ended = true
      else Sends call (s.sentBy n)
    cases List.getElem?_set_cases hcall with
    | inl hother => exact h.refused n call hother.2
    | inr hsame =>
      obtain ⟨rfl, rfl⟩ := hsame
      -- What the call sent stays a prefix of its frames, cut off at one that has no UTF-8 form
      obtain ⟨hflag, hsent⟩ := h.refused n running hm
      refine ⟨hflag, ?_⟩
      show if running.refused then _ ∧ _ else _
      split at hsent
      · rename_i hrefused
        rw [if_pos hrefused]
        exact ⟨hsent.1, rfl⟩
      · rename_i htaken
        rw [if_neg htaken]
        exact ⟨hsent.all, hsent.encodable, fun _ => hstopped⟩
  case early =>
    intro n frame hmem
    rw [Streamer.release, List.length_set]
    exact h.early n frame hmem

/-- A call that has not ended was not refused, and has sent what `Sends` allows. -/
theorem Inv.sends {s : Streamer} {n : Nat} {call : Call} (h : Inv s)
    (hcall : s.calls[n]? = some call) (hover : call.ended = false) :
    call.refused = false ∧ Sends call (s.sentBy n) := by
  obtain ⟨-, hsent⟩ := h.refused n call hcall
  cases hrefused : call.refused with
  | false =>
    rw [hrefused, if_neg Bool.false_ne_true] at hsent
    exact ⟨rfl, hsent⟩
  | true =>
    rw [hrefused, if_pos rfl, hover] at hsent
    cases hsent.2

/-- `Inv` is kept when a frame is sent. -/
theorem send_inv {s s' : Streamer} {m : Nat} (h : Inv s) (hstep : s.send m = some s') : Inv s' := by
  unfold Streamer.send at hstep
  split at hstep
  · rename_i running hm
    split at hstep
    · rename_i frame unsent hover hunsent
      split at hstep
      -- The frame is encoded and goes out
      · rename_i hencodable
        obtain rfl := Option.some.inj hstep
        have hlen : m < s.calls.length := (List.getElem?_eq_some_iff.mp hm).1
        have hself : (s.calls.set m { running with unsent })[m]? = some { running with unsent } :=
          List.getElem?_set_self hlen
        obtain ⟨hrefused, hsends⟩ := h.sends hm hover
        constructor
        case busy =>
          rw [h.busy]
          constructor
          · intro _
            exact ⟨m, _, hself, hover⟩
          · intro _
            exact ⟨m, running, hm, hover⟩
        case one =>
          intro i j c d hc hd hcover hdover
          cases List.getElem?_set_cases hc with
          | inl hc =>
            cases List.getElem?_set_cases hd with
            | inl hd => exact h.one i j c d hc.2 hd.2 hcover hdover
            | inr hd => exact absurd (h.one i m c running hc.2 hm hcover hover).symm hc.1
          | inr hc =>
            cases List.getElem?_set_cases hd with
            | inl hd => exact absurd (h.one m j running d hm hd.2 hover hdover) hd.1
            | inr hd => exact hc.1.trans hd.1.symm
        case refused =>
          intro n call hcall
          rw [sentBy_append]
          cases List.getElem?_set_cases hcall with
          | inl hother =>
            rw [if_neg hother.1, List.append_nil]
            exact h.refused n call hother.2
          | inr hsame =>
            obtain ⟨rfl, rfl⟩ := hsame
            refine ⟨(h.refused n running hm).1, ?_⟩
            rw [if_pos rfl, if_neg (by simp [hrefused])]
            constructor
            case all =>
              rw [List.append_assoc, List.singleton_append, ← hsends.all, hunsent]
            case encodable =>
              exact List.forall_mem_append.mpr
                ⟨hsends.encodable, List.forall_mem_singleton.mpr hencodable⟩
            case stopped =>
              intro hended
              cases hover.symm.trans hended
        case early =>
          intro n frame' hmem
          rw [List.length_set]
          cases List.mem_append.mp hmem with
          | inl hmem => exact h.early n frame' hmem
          | inr hmem => rw [(Prod.mk.inj (List.mem_singleton.mp hmem)).1]; exact hlen
      -- It cannot be encoded, and the call ends there
      · rename_i hrefused
        obtain rfl := Option.some.inj hstep
        apply release_inv h hm hover
        rw [hunsent]
        rintro _ ⟨⟩
        exact Bool.eq_false_iff.mpr hrefused
    · cases hstep
  · cases hstep

/-- `Inv` is kept when a call ends. -/
theorem finish_inv {s s' : Streamer} {m : Nat} (h : Inv s) (hstep : s.finish m = some s') :
    Inv s' := by
  unfold Streamer.finish at hstep
  split at hstep
  · rename_i running hm
    split at hstep
    · rename_i hover hunsent
      obtain rfl := Option.some.inj hstep
      apply release_inv h hm hover
      rw [hunsent]
      rintro _ ⟨⟩
    · cases hstep
  · cases hstep

/-- `Inv` holds at first. -/
theorem inv_init : Inv streamer.init where
  busy := by simp [streamer]
  one := by simp [streamer]
  refused := by simp [streamer]
  early := by simp [streamer]

/-- `Inv` holds in every reachable state of the streamer. -/
theorem inv_reachable {s : Streamer} (h : streamer.Reachable s) : Inv s := by
  apply h.invariant inv_init
  intro s event s' hinv _ hstep
  cases event with
  | call asked => exact Option.some.inj hstep ▸ call_inv hinv asked
  | send n => exact send_inv hinv hstep
  | finish n => exact finish_inv hinv hstep

/-! ## What is sent for one question -/

/-- What `answer` sends for a question. -/
structure Answered (asked : Asked) : Prop where
  /-- On a connection that is free it sends `framesOut`, whatever was asked on it before. -/
  taken : ∀ earlier : List Asked,
    (asked.run (after earlier)).2.sent = (after earlier).sent ++ framesOut asked
  /-- On a busy one it sends the busy error. -/
  turned : ∀ c : Connection, c.busy = true →
    asked.run c = (.ok (), { c with sent := c.sent ++ [busyFrame] })
  /-- Its frames keep to the grammar where all of them can be encoded. -/
  protocol : Protocol asked (framesOut asked) ↔ Contained asked

/-- Whatever the parties of a streamer do: what it sends for a question keeps to the grammar
    just when the question is contained. However calls overlap, one made while another is running
    sends the busy error and nothing else, and every other call sends what it would send
    alone. -/
theorem calls_framed_iff (asked : Asked) :
    Answered asked ∧
    ∀ s, streamer.Reachable s → ∀ n (call : Call), s.calls[n]? = some call → call.asked = asked →
      if call.overlapping then s.sentBy n = [busyFrame] ∧ call.ended = true
      else s.sentBy n <+: framesOut asked ∧
        (call.ended = true → s.sentBy n = framesOut asked ∧
          (Protocol asked (s.sentBy n) ↔ Contained asked)) := by
  constructor
  · exact ⟨fun earlier => sent_of_idle (after_idle earlier) asked,
      fun c hbusy => answer_of_busy hbusy asked, protocol_iff asked⟩
  · rintro s hreachable n call hcall rfl
    obtain ⟨hflag, hsent⟩ := (inv_reachable hreachable).refused n call hcall
    rw [← hflag]
    split at hsent
    · rename_i hrefused
      rw [if_pos hrefused]
      exact hsent
    · rename_i htaken
      rw [if_neg htaken]
      refine ⟨hsent.isPrefix, fun hended => ?_⟩
      have hall := hsent.eq_framesOut hended
      exact ⟨hall, by rw [hall]; exact protocol_iff call.asked⟩

/-- A provider whose only delta is half of a surrogate pair. -/
def halfProvider : Asked where
  parties := {
    answerer := none
    streamText := fun _ => ([[0xD800]], none)
    recorder := none }
  question := ⟨[0x3f], by decide⟩
  conversationId := none

/-- `model_dump_json` raises for it, and nothing is sent. -/
theorem half_pair_escapes :
    halfProvider.run Connection.opened =
        (.error (.other "PydanticSerializationError"), { sent := [], busy := false }) ∧
      ¬Protocol halfProvider [] := by
  refine ⟨rfl, fun h => ?_⟩
  obtain ⟨frame, hframe, -⟩ := h.settling
  cases hframe

end NexaAssist.Spec.FramesSent
