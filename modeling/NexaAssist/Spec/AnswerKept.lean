import NexaAssist.Frontend.ConversationScreen
import NexaAssist.Realtime.Wire
import NexaAssist.Spec.FrameProtocol

/-!
# What becomes of a finished answer

The server sends a completion even where it could not record the answer, after an error
that says so. The client takes an error for the end of the question: it fails the
customer's turn, and drops the completion. Where the answer is recorded, and nothing of
another question gets in between, a completed answer is shown as it was completed.
-/

namespace NexaAssist.Spec.AnswerKept

open NexaAssist Frontend PyJson AnswerStreamer FrameProtocol

/-! ## What the server sends -/

/-- An answer that was recorded comes without an error. -/
theorem frames_of_recorded {recorder : Option TurnRecorder} {answerer : Option Answerer}
    {question : Text} {conversationId : Option Uuid} {env : Env} {w w' : RequestState}
    {frames : List ServerMessage}
    (hrun : answerFrom recorder answerer question conversationId env w = (.ok frames, w'))
    (hrecorded : ¬ LateFailure recorder answerer question conversationId env w)
    {text : PyStr} {deltas : Nat} {id : Option Uuid} {grounded escalated : Bool}
    {citations : List NexaAssist.Citation}
    (hcomplete : .complete text deltas id grounded citations escalated ∈ frames) :
    ∃ pieces : List PyStr, frames = pieces.map .delta ++
      [.complete text deltas id grounded citations escalated] := by
  obtain ⟨frames', w'', hrun', hframed, hboth⟩ :=
    answerFrom_framed recorder answerer question conversationId env w
  obtain ⟨hframes, -⟩ := Prod.mk.inj (hrun.symm.trans hrun')
  obtain rfl := Except.ok.inj hframes
  cases hframed with
  | failed pieces code message => simp at hcomplete
  | completed pieces grounded' escalated' citations' =>
    simp only [List.mem_append, List.mem_map, reduceCtorEq, and_false, exists_false,
      List.mem_singleton, false_or] at hcomplete
    exact ⟨pieces, by rw [hcomplete]⟩
  | unrecorded pieces code message =>
    apply absurd _ hrecorded
    apply hboth
    exact ⟨⟨code, message, by simp⟩, _, _, _, _, _, _, hcomplete⟩

/-- An answer that could not be recorded is reported before it is completed. -/
theorem frames_of_late {recorder : Option TurnRecorder} {answerer : Option Answerer}
    {question : Text} {conversationId : Option Uuid} {env : Env} {w w' : RequestState}
    {frames : List ServerMessage}
    (hrun : answerFrom recorder answerer question conversationId env w = (.ok frames, w'))
    (hlate : LateFailure recorder answerer question conversationId env w) :
    ∃ (pieces : List PyStr) (code message text : PyStr) (deltas : Nat) (id : Option Uuid)
      (grounded : Bool) (citations : List NexaAssist.Citation) (escalated : Bool),
      frames = pieces.map .delta ++ [.error code message,
        .complete text deltas id grounded citations escalated] := by
  obtain ⟨hnone, pieces, w₁, hstream, hrecord, hno⟩ := hlate
  have hfallback : answerFrom recorder answerer question conversationId =
      streamProse recorder question conversationId := by
    unfold answerFrom
    cases answerer with
    | none => rfl
    | some party =>
      dsimp only
      rw [hnone party rfl, if_neg Bool.false_ne_true]
  rw [hfallback] at hrun
  obtain ⟨frames', w'', hrun', hprose⟩ := streamProse_returns recorder question conversationId env w
  obtain ⟨hframes, -⟩ := Prod.mk.inj (hrun.symm.trans hrun')
  obtain rfl := Except.ok.inj hframes
  cases hprose with
  | refused hrecord' hno' =>
    obtain ⟨heq, -⟩ := Prod.mk.inj (hrecord.symm.trans hrecord')
    exact nomatch (Prod.mk.inj (Except.ok.inj heq)).2
  | broken hrecord' hstream' => exact nomatch (Prod.mk.inj (hstream.symm.trans hstream')).2
  | finished hrecord' hstream' hanswer hyes =>
    obtain ⟨-, hw⟩ := Prod.mk.inj (hrecord.symm.trans hrecord')
    obtain ⟨hpieces, -⟩ := Prod.mk.inj (hstream.symm.trans hstream')
    rw [← hw, ← hpieces] at hyes
    exact absurd hyes hno
  | unrecorded hrecord' hstream' hanswer hno' => exact ⟨_, _, _, _, _, _, _, _, _, rfl⟩

/-! ## What the realtime hook does -/

/-- A frame that ends a question. -/
def terminal : ServerFrame → Bool
  | .complete _ _ _ _ _ => true
  | .error _ _ => true
  | _ => false

def isComplete : ServerFrame → Bool
  | .complete _ _ _ _ _ => true
  | _ => false

/-- What a step can do to what is awaited, and to what is handed over. -/
inductive HookStep (w w' : World) : RealtimeEvent → Prop
  | quiet {e : RealtimeEvent} (hawaiting : w'.awaiting = w.awaiting)
      (hhanded : w'.handed = w.handed) (hasked : w'.asked = w.asked)
      (hnot : ∀ k, e ≠ .deliver k) : HookStep w w' e
  | message {k : Nat} {m : InFlight} {rest : List InFlight} {v : World}
      (hopened : (w.sockets k).readyState = .opened) (hinbox : (w.sockets k).inbox = m :: rest)
      (hv : v.awaiting = w.awaiting ∧ v.handed = w.handed ∧ v.asked = w.asked)
      (hw' : w' = v.onmessage m.source m.frame) : HookStep w w' (.deliver k)
  /-- A timer fires, or a socket closes. -/
  | dropped {e : RealtimeEvent} (h : (∃ handle, e = .answerTimeout handle) ∨ ∃ k, e = .closed k)
      (hawaiting : w'.awaiting = none ∨ w'.awaiting = w.awaiting) (hasked : w'.asked = w.asked)
      (hhanded : w'.handed = w.handed ∨ ∃ code message,
        w'.handed = w.handed ++ [{
          call := .onError code message, awaited := w.awaiting, source := none }]) :
      HookStep w w' e

/-- `openSocket` leaves the awaited answer, what was handed over and what was asked. -/
theorem openSocket_quiet (w : World) (mount : Nat) (creates : Bool) :
    (w.openSocket mount creates).awaiting = w.awaiting ∧
      (w.openSocket mount creates).handed = w.handed ∧
      (w.openSocket mount creates).asked = w.asked := by
  unfold World.openSocket
  split
  · exact ⟨rfl, rfl, rfl⟩
  · split
    · exact ⟨rfl, rfl, rfl⟩
    · exact ⟨rfl, rfl, rfl⟩

/-- `connect`, which waits for a ticket or opens a socket, leaves the awaited answer, what was
    handed over and what was asked. -/
theorem connect_quiet (w : World) (mount : Nat) (hasTicketSource creates : Bool) :
    (w.connect mount hasTicketSource creates).awaiting = w.awaiting ∧
      (w.connect mount hasTicketSource creates).handed = w.handed ∧
      (w.connect mount hasTicketSource creates).asked = w.asked := by
  unfold World.connect
  split
  · exact ⟨rfl, rfl, rfl⟩
  · exact openSocket_quiet w mount creates

/-- `onclose` gives up the awaited answer and hands over at most an error. -/
theorem onclose_dropped (w : World) (mount : Nat) :
    (w.onclose mount).awaiting = none ∧ (w.onclose mount).asked = w.asked ∧
      ((w.onclose mount).handed = w.handed ∨ ∃ code message,
        (w.onclose mount).handed = w.handed ++ [{
          call := .onError code message, awaited := w.awaiting, source := none }]) := by
  have hdrop : w.dropQuestion.handed = w.handed ∨ ∃ code message,
      w.dropQuestion.handed = w.handed ++ [{
        call := .onError code message, awaited := w.awaiting, source := none }] := by
    unfold World.dropQuestion
    dsimp only
    split
    · exact .inr ⟨_, _, rfl⟩
    · exact .inl rfl
  unfold World.onclose
  dsimp only
  split
  · exact ⟨rfl, rfl, hdrop⟩
  · split
    · exact ⟨rfl, rfl, hdrop⟩
    · exact ⟨rfl, rfl, hdrop⟩

/-- Every step of `useRealtime` but `ask` is a `HookStep`. -/
theorem hookStep_of_step {w w' : World} {e : RealtimeEvent}
    (hask : ∀ question conversationId, e ≠ .ask question conversationId)
    (hstep : useRealtime.step w e = some w') : HookStep w w' e := by
  cases e with
  | ask question conversationId => exact absurd rfl (hask question conversationId)
  -- An effect that is not enabled only marks itself, else it connects
  | mountEffect enabled hasTicketSource creates =>
    have hstep : w.mountEffect enabled hasTicketSource creates = some w' := hstep
    unfold World.mountEffect at hstep
    split at hstep
    · exact nomatch hstep
    · split at hstep
      · obtain rfl := Option.some.inj hstep
        exact .quiet rfl rfl rfl (fun _ h => nomatch h)
      · obtain rfl := Option.some.inj hstep
        obtain ⟨hawaiting, hhanded, hasked⟩ := connect_quiet
          { w with effect := some true, mounts := w.mounts + 1, closedByUs := false }
          (w.mounts + 1) hasTicketSource creates
        exact .quiet hawaiting hhanded hasked (fun _ h => nomatch h)
  -- Leaving the page closes the socket and reports nothing
  | cleanup =>
    have hstep : w.cleanup = some w' := hstep
    unfold World.cleanup at hstep
    split at hstep
    · exact nomatch hstep
    · obtain rfl := Option.some.inj hstep
      exact .quiet rfl rfl rfl (fun _ h => nomatch h)
    · obtain rfl := Option.some.inj hstep
      exact .quiet rfl rfl rfl (fun _ h => nomatch h)
  -- A refused ticket opens no socket
  | ticket i granted creates =>
    have hstep : w.ticketArrives i granted creates = some w' := hstep
    unfold World.ticketArrives at hstep
    split at hstep
    · exact nomatch hstep
    · rename_i mount hget
      obtain rfl := Option.some.inj hstep
      cases granted with
      | false => exact .quiet rfl rfl rfl (fun _ h => nomatch h)
      | true =>
        obtain ⟨hawaiting, hhanded, hasked⟩ := openSocket_quiet
          { w with tickets := w.tickets.eraseIdx i } mount creates
        exact .quiet hawaiting hhanded hasked (fun _ h => nomatch h)
  | reconnect handle hasTicketSource creates =>
    have hstep : w.reconnectFires handle hasTicketSource creates = some w' := hstep
    unfold World.reconnectFires at hstep
    split at hstep
    · exact nomatch hstep
    · rename_i timer hfind
      obtain rfl := Option.some.inj hstep
      obtain ⟨hawaiting, hhanded, hasked⟩ := connect_quiet
        { w with reconnects := w.reconnectsWithout (some handle) } timer.mount hasTicketSource
        creates
      exact .quiet hawaiting hhanded hasked (fun _ h => nomatch h)
  | opened k =>
    have hstep : w.onopen k = some w' := hstep
    unfold World.onopen at hstep
    split at hstep
    · obtain rfl := Option.some.inj hstep
      exact .quiet rfl rfl rfl (fun _ h => nomatch h)
    · exact nomatch hstep
  -- The one event that can hand a frame of an answer on
  | deliver k =>
    have hstep : w.deliver k = some w' := hstep
    unfold World.deliver at hstep
    split at hstep
    · rename_i m rest hopened hinbox
      exact .message (v := w.setSocket k { w.sockets k with inbox := rest }) hopened hinbox
        ⟨rfl, rfl, rfl⟩ (Option.some.inj hstep).symm
    · exact nomatch hstep
  | closing k =>
    have hstep : w.closingStarts k = some w' := hstep
    unfold World.closingStarts at hstep
    split at hstep
    · obtain rfl := Option.some.inj hstep
      exact .quiet rfl rfl rfl (fun _ h => nomatch h)
    · obtain rfl := Option.some.inj hstep
      exact .quiet rfl rfl rfl (fun _ h => nomatch h)
    · exact nomatch hstep
  -- A close reports to an awaited question once
  | closed k =>
    have hstep : w.closeEvent k = some w' := hstep
    unfold World.closeEvent at hstep
    split at hstep
    · exact nomatch hstep
    · obtain rfl := Option.some.inj hstep
      obtain ⟨hawaiting, hasked, hhanded⟩ := onclose_dropped
        (w.setSocket k { w.sockets k with readyState := .closed }) (w.sockets k).mount
      exact .dropped (.inr ⟨k, rfl⟩) (.inl hawaiting) hasked hhanded
  -- The timer reports to the question it was set for, or finds it gone
  | answerTimeout handle =>
    have hstep : w.answerTimeout handle = some w' := hstep
    unfold World.answerTimeout at hstep
    split at hstep
    · dsimp only at hstep
      split at hstep
      · obtain rfl := Option.some.inj hstep
        exact .dropped (.inl ⟨handle, rfl⟩) (.inr rfl) rfl (.inl rfl)
      · obtain rfl := Option.some.inj hstep
        exact .dropped (.inl ⟨handle, rfl⟩) (.inl rfl) rfl (.inr ⟨_, _, rfl⟩)
    · exact nomatch hstep
  -- What the server does moves frames only
  | serve k frame =>
    have hstep : w.serve k frame = some w' := hstep
    unfold World.serve at hstep
    split at hstep
    · exact nomatch hstep
    · obtain rfl := Option.some.inj hstep
      exact .quiet rfl rfl rfl (fun _ h => nomatch h)
  | serverFinishes k =>
    have hstep : w.serverFinishes k = some w' := hstep
    unfold World.serverFinishes at hstep
    split at hstep
    · exact nomatch hstep
    · obtain rfl := Option.some.inj hstep
      exact .quiet rfl rfl rfl (fun _ h => nomatch h)
  | greet k connectionId =>
    have hstep : w.greet k connectionId = some w' := hstep
    unfold World.greet at hstep
    split at hstep
    · obtain rfl := Option.some.inj hstep
      exact .quiet rfl rfl rfl (fun _ h => nomatch h)
    · exact nomatch hstep
  | serverStops k =>
    have hstep : some (w.serverStops k) = some w' := hstep
    obtain rfl := Option.some.inj hstep
    exact .quiet rfl rfl rfl (fun _ h => nomatch h)

/-! ## The turns of one question -/

/-- Counted ids. -/
def count : TurnId → Nat
  | .server _ => 0
  | .localTurn counter => counter
  | .stream counter => counter
  | .reply counter => counter

/-- No id in use has yet to be counted. -/
structure Counted (s : Chat) : Prop where
  turns : ∀ turn ∈ s.turns, count turn.id ≤ s.counter
  sends : ∀ request ∈ s.sends, ∃ k ≤ s.counter, request.pendingId = .localTurn k

/-- What the user, or a response over HTTP, does to a conversation: turns keep their ids,
    the ones that change are those of messages sent over HTTP, and the others are new. -/
structure Background (s s' : Chat) : Prop where
  counter : s.counter ≤ s'.counter
  turns : ∀ turn' ∈ s'.turns, turn' ∈ s.turns ∨
    (∃ request ∈ s.sends, turn'.id = request.pendingId) ∨
    (∃ position, turn'.id = .server position) ∨
    s.counter < count turn'.id ∧ count turn'.id ≤ s'.counter
  sends : ∀ request ∈ s'.sends, request ∈ s.sends ∨
    ∃ k, s.counter < k ∧ k ≤ s'.counter ∧ request.pendingId = .localTurn k
  streaming : s'.streamingId = s.streamingId ∨ s'.streamingId = none ∧ s'.turns = [] ∨
    ∃ k, s.counter < k ∧ k ≤ s'.counter ∧ s'.streamingId = some (.stream k)
  answered : s.answered.length ≤ s'.answered.length
  kept : s'.answered.length = s.answered.length → ∀ turn ∈ s.turns, ∃ turn' ∈ s'.turns,
    turn'.id = turn.id

/-- Nothing is put on the socket, and no stream is begun. -/
structure Responded (s s' : Chat) : Prop extends Background s s' where
  asks : s'.asks = s.asks
  still : s'.streamingId = s.streamingId ∨ s'.streamingId = none ∧ s'.turns = []

/-- `Responded` holds of a step that changes nothing it looks at. -/
theorem Responded.same {s s' : Chat} (hcounter : s'.counter = s.counter)
    (hturns : s'.turns = s.turns) (hsends : s'.sends ⊆ s.sends)
    (hstreaming : s'.streamingId = s.streamingId) (hanswered : s'.answered = s.answered)
    (hasks : s'.asks = s.asks) : Responded s s' where
  counter := Nat.le_of_eq hcounter.symm
  turns turn' hturn' := .inl (hturns ▸ hturn')
  sends request hrequest := .inl (hsends hrequest)
  streaming := .inl hstreaming
  answered := by rw [hanswered]
  kept _ turn hturn := ⟨turn, hturns ▸ hturn, rfl⟩
  asks := hasks
  still := .inl hstreaming

/-- A step that changes nothing is a `Background` step. -/
theorem Background.refl (s : Chat) : Background s s :=
  (Responded.same rfl rfl (List.Subset.refl _) rfl rfl rfl).toBackground

/-- `Responded` holds of a selection, which shows turns of a history, or none. -/
theorem Responded.selected {s s' : Chat} (hcounter : s'.counter = s.counter)
    (hturns : ∀ turn' ∈ s'.turns, ∃ position, turn'.id = .server position)
    (hsends : s'.sends = s.sends)
    (hstreaming : s'.streamingId = s.streamingId ∨ s'.streamingId = none ∧ s'.turns = [])
    (hanswered : ∃ entry, s'.answered = s.answered ++ [entry]) (hasks : s'.asks = s.asks) :
    Responded s s' := by
  obtain ⟨entry, hanswered⟩ := hanswered
  have hlength : s'.answered.length = s.answered.length + 1 := by
    rw [hanswered, List.length_append, List.length_singleton]
  exact {
    counter := Nat.le_of_eq hcounter.symm
    turns := fun turn' hturn' => .inr (.inr (.inl (hturns turn' hturn')))
    sends := fun request hrequest => .inl (hsends ▸ hrequest)
    streaming := hstreaming.imp id .inl
    answered := by omega
    kept := fun hsame => by omega
    asks := hasks
    still := hstreaming }

/-- A turn of `setStatus` was there before, or is the one whose status is set. -/
theorem mem_setStatus {turns : List Turn} {id : TurnId} {status : TurnStatus} {turn' : Turn}
    (h : turn' ∈ Chat.setStatus turns id status) : turn' ∈ turns ∨ turn'.id = id := by
  obtain ⟨turn, hturn, hturn'⟩ := List.mem_map.mp h
  by_cases hid : turn.id = id
  · rw [if_pos hid] at hturn'
    rw [← hturn']
    exact .inr hid
  · rw [if_neg hid] at hturn'
    exact .inl (hturn' ▸ hturn)

/-- `setStatus` keeps every turn under its id. -/
theorem setStatus_kept {turns : List Turn} (id : TurnId) (status : TurnStatus) {turn : Turn}
    (h : turn ∈ turns) : ∃ turn' ∈ Chat.setStatus turns id status, turn'.id = turn.id := by
  refine ⟨_, List.mem_map_of_mem h, ?_⟩
  split
  · rfl
  · rfl

/-- `replyArrives` is a step that `Responded` allows. -/
theorem replyArrives_responded {s : Chat} {request : HttpSend} (hrequest : request ∈ s.sends)
    (i : Nat) (response : Except Caught Reply) :
    Responded s ({ s with sends := s.sends.eraseIdx i }.replyArrives request response) := by
  cases response with
  | ok reply =>
    -- Adopting the id of the reply touches neither turns nor requests
    have hadopt : ∀ named seen, ({ s with sends := s.sends.eraseIdx i }.adopt named seen).sends =
        s.sends.eraseIdx i ∧
        ({ s with sends := s.sends.eraseIdx i }.adopt named seen).streamingId = s.streamingId ∧
        ({ s with sends := s.sends.eraseIdx i }.adopt named seen).answered = s.answered ∧
        ({ s with sends := s.sends.eraseIdx i }.adopt named seen).asks = s.asks := by
      intro named seen
      unfold Chat.adopt
      split
      · exact ⟨rfl, rfl, rfl, rfl⟩
      · split
        · exact ⟨rfl, rfl, rfl, rfl⟩
        · exact ⟨rfl, rfl, rfl, rfl⟩
    obtain ⟨hsends, hstreaming, hanswered, hasks⟩ :=
      hadopt reply.conversationId request.conversationId
    exact {
      counter := Nat.le_succ _
      turns := by
        intro turn' hturn'
        cases List.mem_append.mp hturn' with
        | inl hold =>
          cases mem_setStatus hold with
          | inl hmem => exact .inl hmem
          | inr hid => exact .inr (.inl ⟨request, hrequest, hid⟩)
        -- The turn of the reply takes the next id
        | inr hnew =>
          rw [List.mem_singleton.mp hnew]
          exact .inr (.inr (.inr ⟨Nat.lt_succ_self _, Nat.le_refl _⟩))
      sends := fun request' hmem => .inl (List.mem_of_mem_eraseIdx (hsends ▸ hmem))
      streaming := .inl hstreaming
      answered := Nat.le_of_eq (congrArg List.length hanswered).symm
      kept := by
        intro _ turn hturn
        obtain ⟨turn', hturn', hid⟩ := setStatus_kept request.pendingId .sent hturn
        exact ⟨turn', List.mem_append_left _ hturn', hid⟩
      asks := hasks
      still := .inl hstreaming }
  -- A request that failed only marks its own turn
  | error caught =>
    exact {
      counter := Nat.le_refl _
      turns := by
        intro turn' hturn'
        cases mem_setStatus hturn' with
        | inl hmem => exact .inl hmem
        | inr hid => exact .inr (.inl ⟨request, hrequest, hid⟩)
      sends := fun request' hmem => .inl (List.mem_of_mem_eraseIdx hmem)
      streaming := .inl rfl
      answered := Nat.le_refl _
      kept := fun _ turn hturn => setStatus_kept request.pendingId .failed hturn
      asks := rfl
      still := .inl rfl }

/-- `send` is a `Background` step, over the socket or over HTTP. -/
theorem send_background (s : Chat) (text : String) (streams : Bool) :
    Background s (s.send text streams) := by
  unfold Chat.send
  dsimp only
  split
  · exact (Responded.same rfl rfl (List.Subset.refl _) rfl rfl rfl).toBackground
  · split
    · exact {
        counter := Nat.le_add_right _ 2
        turns := by
          intro turn' hturn'
          rw [List.append_assoc] at hturn'
          cases List.mem_append.mp hturn' with
          | inl hold => exact .inl hold
          | inr hnew =>
            right; right; right
            simp only [List.cons_append, List.nil_append, List.mem_cons, List.not_mem_nil,
              or_false] at hnew
            cases hnew with
            | inl hpending =>
              rw [hpending]
              exact ⟨Nat.lt_succ_self _, Nat.le_succ _⟩
            | inr hreply =>
              rw [hreply]
              exact ⟨Nat.lt_succ_of_lt (Nat.lt_succ_self _), Nat.le_refl _⟩
        sends := fun request hrequest => .inl hrequest
        streaming := .inr (.inr ⟨s.counter + 2, by omega, Nat.le_refl _, rfl⟩)
        answered := Nat.le_refl _
        kept := by
          intro _ turn hturn
          refine ⟨turn, ?_, rfl⟩
          exact List.mem_append_left _ (List.mem_append_left _ hturn) }
    · exact {
        counter := Nat.le_succ _
        turns := by
          intro turn' hturn'
          cases List.mem_append.mp hturn' with
          | inl hold => exact .inl hold
          | inr hnew =>
            rw [List.mem_singleton.mp hnew]
            exact .inr (.inr (.inr ⟨Nat.lt_succ_self _, Nat.le_refl _⟩))
        sends := by
          intro request hrequest
          cases List.mem_append.mp hrequest with
          | inl hold => exact .inl hold
          | inr hnew =>
            rw [List.mem_singleton.mp hnew]
            exact .inr ⟨s.counter + 1, Nat.lt_succ_self _, Nat.le_refl _, rfl⟩
        streaming := .inl rfl
        answered := Nat.le_refl _
        kept := fun _ turn hturn => ⟨turn, List.mem_append_left _ hturn, rfl⟩ }

/-- A history that arrives is a response. -/
theorem historyArrives_responded (s : Chat) (i number : Nat) (id : String)
    (response : Except Caught (List Frontend.ConversationMessage)) :
    Responded s ({ s with selecting := s.selecting.eraseIdx i }.historyArrives number id
      response) := by
  match response with
  | .ok messages =>
    have hserver : ∀ turn' ∈ messages.map (Chat.toTurn { conversation := some id, basis := number }),
        ∃ position, turn'.id = .server position := by
      intro turn' hturn'
      obtain ⟨message, -, rfl⟩ := List.mem_map.mp hturn'
      exact ⟨_, rfl⟩
    exact .selected rfl hserver rfl (.inl rfl) ⟨_, rfl⟩ rfl
  | .error (.api code message status) =>
    simp only [Chat.historyArrives]
    split
    · exact .selected rfl (fun _ hturn => nomatch hturn) rfl (.inl rfl) ⟨_, rfl⟩ rfl
    · exact .same rfl rfl (List.Subset.refl _) rfl rfl rfl
  | .error .other => exact .same rfl rfl (List.Subset.refl _) rfl rfl rfl

/-- The arrival of the id of a started conversation is a step that `Responded` allows. -/
theorem startArrives_responded (s : Chat) (i number : Nat) (response : Except Caught String) :
    Responded s ({ s with selecting := s.selecting.eraseIdx i }.startArrives number
      response) := by
  cases response with
  | ok id => exact .selected rfl (fun _ hturn => nomatch hturn) rfl (.inl rfl) ⟨_, rfl⟩ rfl
  | error caught => exact .same rfl rfl (List.Subset.refl _) rfl rfl rfl

/-- `reset` is what a response may do. -/
theorem reset_responded (s : Chat) : Responded s s.reset :=
  .selected rfl (fun _ hturn => nomatch hturn) rfl (.inr ⟨rfl, rfl⟩) ⟨_, rfl⟩ rfl

/-- `resume` is a step that `Responded` allows. -/
theorem resume_responded (s : Chat) : Responded s s.resume := by
  unfold Chat.resume
  split
  · exact .same rfl rfl (List.Subset.refl _) rfl rfl rfl
  · dsimp only
    split
    · exact .same rfl rfl (List.Subset.refl _) rfl rfl rfl
    · split
      · exact .same rfl rfl (List.Subset.refl _) rfl rfl rfl
      · exact .same rfl rfl (List.Subset.refl _) rfl rfl rfl

/-- What a handler of the stream does: it looks for the turn that is streamed into, and for
    pending ones. -/
structure Streamed (s s' : Chat) : Prop where
  counter : s'.counter = s.counter
  sends : s'.sends = s.sends
  answered : s'.answered = s.answered
  asks : s'.asks = s.asks
  streaming : s'.streamingId = s.streamingId ∨ s'.streamingId = none
  turns : ∀ turn' ∈ s'.turns, ∃ turn ∈ s.turns, turn'.id = turn.id ∧
    (s.streamingId ≠ some turn.id → turn.status ≠ .pending → turn' = turn)
  kept : ∀ turn ∈ s.turns, s.streamingId ≠ some turn.id → ∃ turn' ∈ s'.turns, turn'.id = turn.id

/-- `Streamed` holds of a step that maps the turns, but for those that are streamed into or pending,
    to themselves. -/
theorem Streamed.map {s s' : Chat} (f : Turn → Turn) (hid : ∀ turn, (f turn).id = turn.id)
    (hf : ∀ turn, s.streamingId ≠ some turn.id → turn.status ≠ .pending → f turn = turn)
    (hturns : s'.turns = s.turns.map f) (hcounter : s'.counter = s.counter)
    (hsends : s'.sends = s.sends) (hanswered : s'.answered = s.answered) (hasks : s'.asks = s.asks)
    (hstreaming : s'.streamingId = s.streamingId ∨ s'.streamingId = none) : Streamed s s' where
  counter := hcounter
  sends := hsends
  answered := hanswered
  asks := hasks
  streaming := hstreaming
  turns := by
    rw [hturns]
    intro turn' hturn'
    obtain ⟨turn, hturn, rfl⟩ := List.mem_map.mp hturn'
    exact ⟨turn, hturn, hid turn, hf turn⟩
  kept := by
    rw [hturns]
    intro turn hturn _
    exact ⟨f turn, List.mem_map_of_mem hturn, hid turn⟩

/-- A step that changes nothing is one that `Streamed` allows. -/
theorem Streamed.refl (s : Chat) : Streamed s s :=
  .map id (fun _ => rfl) (fun _ _ _ => rfl) (List.map_id _).symm rfl rfl rfl rfl (.inl rfl)

/-- `appendDelta` is what a stream may do to a chat. -/
theorem appendDelta_streamed (s : Chat) (ask : StreamAsk) (text : String) :
    Streamed s (s.appendDelta ask text) := by
  unfold Chat.appendDelta
  split
  · exact .refl s
  · rename_i target htarget
    have hid : ∀ turn : Turn, (if turn.id = target then
        { turn with
          text := turn.text ++ text
          origins := turn.origins ++ [{ conversation := ask.conversationId, basis := ask.basis }] }
        else turn).id = turn.id := by
      intro turn
      split
      · rfl
      · rfl
    refine .map _ hid ?_ rfl rfl rfl rfl rfl (.inl rfl)
    intro turn hother _
    rw [htarget] at hother
    exact if_neg fun heq => hother (congrArg some heq.symm)

/-- `adopt` leaves the counter, the sends, the answers and the asks. -/
theorem adopt_fields (s : Chat) (named seen : Option String) :
    (s.adopt named seen).counter = s.counter ∧ (s.adopt named seen).sends = s.sends ∧
      (s.adopt named seen).answered = s.answered ∧ (s.adopt named seen).asks = s.asks := by
  unfold Chat.adopt
  split
  · exact ⟨rfl, rfl, rfl, rfl⟩
  · split
    · exact ⟨rfl, rfl, rfl, rfl⟩
    · exact ⟨rfl, rfl, rfl, rfl⟩

/-- `completeTurn` keeps the id of a turn. -/
theorem completeTurn_id (target : TurnId) (ask : StreamAsk) (text : String) (result : StreamResult)
    (turn : Turn) : (Chat.completeTurn target ask text result turn).id = turn.id := by
  unfold Chat.completeTurn
  split
  · rfl
  · split
    · rfl
    · rfl

/-- `completeStream` is what a stream may do to a chat. -/
theorem completeStream_streamed (s : Chat) (ask : StreamAsk) (text : String)
    (result : StreamResult) : Streamed s (s.completeStream ask text result) := by
  unfold Chat.completeStream
  split
  · rename_i hnone
    exact .map id (fun _ => rfl) (fun _ _ _ => rfl) (List.map_id _).symm rfl rfl rfl rfl (.inl rfl)
  · rename_i target htarget
    obtain ⟨hcounter, hsends, hanswered, hasks⟩ :=
      adopt_fields s ask.conversationId s.conversationId
    refine .map _ (completeTurn_id target ask text result) ?_ rfl hcounter hsends hanswered
      hasks (.inr rfl)
    intro turn hother hstatus
    rw [htarget] at hother
    unfold Chat.completeTurn
    rw [if_neg fun heq => hother (congrArg some heq.symm), if_neg hstatus]

/-- `failStream` is a step that `Streamed` allows. -/
theorem failStream_streamed (s : Chat) (message : String) : Streamed s (s.failStream message) where
  counter := rfl
  sends := rfl
  answered := rfl
  asks := rfl
  streaming := .inr rfl
  turns := by
    intro turn' hturn'
    obtain ⟨turn, hturn, rfl⟩ := List.mem_map.mp hturn'
    refine ⟨turn, (List.mem_filter.mp hturn).1, ?_, ?_⟩
    · split
      · rfl
      · rfl
    · intro _ hstatus
      exact if_neg hstatus
  kept := by
    intro turn hturn hother
    have hmem : turn ∈ s.turns.filter fun turn =>
        !(some turn.id = s.streamingId && turn.text = "") := by
      apply List.mem_filter.mpr
      refine ⟨hturn, ?_⟩
      have hne : ¬ some turn.id = s.streamingId := fun heq => hother heq.symm
      simp [hne]
    refine ⟨_, List.mem_map_of_mem hmem, ?_⟩
    split
    · rfl
    · rfl

/-- Whatever `handle` is handed, it does to the chat what a stream may do. -/
theorem handle_streamed (s : Chat) (handed : Handed) : Streamed s (Screen.handle s handed) := by
  unfold Screen.handle
  split
  · exact failStream_streamed s _
  · split
    · exact appendDelta_streamed s _ _
    · exact .refl s
  · split
    · exact completeStream_streamed s _ _ _
    · exact .refl s
  · exact .refl s

/-! ## One question -/

/-- A question that was put on the socket: its number, the counters in the ids of the
    customer's turn and of the reply, and what had happened before. -/
structure Question where
  number : Nat
  pending : Nat
  reply : Nat
  handed : Nat
  delivered : Nat
  answered : Nat

namespace Question

variable (q : Question)

def pendingId : TurnId := .localTurn q.pending

def replyId : TurnId := .stream q.reply

/-- The frames of the question that have been delivered. -/
def own (s : Screen) : List ServerFrame :=
  ((s.delivered.drop q.delivered).filter fun m => m.source = some q.number).map (·.frame)

/-- The text of a completion of the question. -/
def completion (handed : Handed) : Option String :=
  match handed.call with
  | .onComplete text _ _ => if handed.source = some q.number then some text else none
  | _ => none

/-- The texts of the completions handed over for the question. -/
def completions (w : World) : List String := (w.handed.drop q.handed).filterMap q.completion

/-- No selection has taken effect since the question was asked. -/
def Shown (s : Chat) : Prop := s.answered.length = q.answered

/-- The ids of the question's turns are its own. -/
structure Named (s : Chat) : Prop where
  pending : q.pending ≤ s.counter
  reply : q.reply ≤ s.counter
  sends : ∀ request ∈ s.sends, request.pendingId ≠ q.pendingId
  answered : q.answered ≤ s.answered.length
  shown : q.Shown s → ∃ turn ∈ s.turns, turn.id = q.pendingId

/-- The answer is streamed into the conversation. -/
structure Waiting (s : Chat) : Prop extends q.Named s where
  streaming : s.streamingId = some q.replyId ∨
    s.streamingId = none ∧ ∀ turn ∈ s.turns, turn.id ≠ q.replyId ∧ turn.id ≠ q.pendingId
  customer : ∀ turn ∈ s.turns, turn.id = q.pendingId → turn.status = .pending
  replied : q.Shown s → ∃ turn ∈ s.turns, turn.id = q.replyId

/-- The question is over, and the customer's turn has this status. -/
structure Settled (status : TurnStatus) (s : Chat) : Prop extends q.Named s where
  streaming : s.streamingId = none ∨ ∃ k, k ≠ q.reply ∧ s.streamingId = some (.stream k)
  customer : ∀ turn ∈ s.turns, turn.id = q.pendingId → turn.status = status

/-- The answer is shown as it was completed. -/
structure Completed (text : String) (s : Chat) : Prop extends q.Settled .sent s where
  final : ∀ turn ∈ s.turns, turn.id = q.replyId →
    turn.text = text ∧ turn.status = .sent ∧ turn.streaming = false
  replied : q.Shown s → ∃ turn ∈ s.turns, turn.id = q.replyId

end Question

section Turns

variable {q : Question} {s s' : Chat}

/-- What goes on in the background leaves a question its name. -/
theorem Question.Named.background (h : q.Named s) (hs : Background s s') : q.Named s' where
  pending := Nat.le_trans h.pending hs.counter
  reply := Nat.le_trans h.reply hs.counter
  sends request hrequest := by
    cases hs.sends request hrequest with
    | inl hold => exact h.sends request hold
    | inr hnew =>
      obtain ⟨k, hk, -, hid⟩ := hnew
      intro hsame
      rw [hid] at hsame
      have hpending := h.pending
      obtain rfl := TurnId.localTurn.inj hsame
      omega
  answered := Nat.le_trans h.answered hs.answered
  shown hshown := by
    have hbefore : s.answered.length = q.answered := by
      have hle := h.answered
      have hmono := hs.answered
      have hshown : s'.answered.length = q.answered := hshown
      omega
    obtain ⟨turn, hturn, hid⟩ := h.shown hbefore
    obtain ⟨turn', hturn', hid'⟩ := hs.kept (hshown.trans hbefore.symm) turn hturn
    exact ⟨turn', hturn', hid'.trans hid⟩

/-- A turn of the question is one that was there before. -/
theorem Question.Named.mem_background (h : q.Named s) (hs : Background s s') {turn' : Turn}
    (hturn' : turn' ∈ s'.turns) (hid : turn'.id = q.pendingId ∨ turn'.id = q.replyId)
    (hsends : ∀ request ∈ s.sends, ∃ k ≤ s.counter, request.pendingId = .localTurn k) :
    turn' ∈ s.turns := by
  rcases hs.turns turn' hturn' with hold | ⟨request, hrequest, hsame⟩ | ⟨position, hserver⟩ |
    ⟨hnew, -⟩
  · exact hold
  · cases hid with
    | inl hid => exact absurd (hsame.symm.trans hid) (h.sends request hrequest)
    | inr hid =>
      obtain ⟨k, -, hlocal⟩ := hsends request hrequest
      rw [hid, hlocal] at hsame
      exact nomatch hsame
  · cases hid with
    | inl hid => rw [hserver] at hid; exact nomatch hid
    | inr hid => rw [hserver] at hid; exact nomatch hid
  · have hpending := h.pending
    have hreply := h.reply
    cases hid with
    | inl hid =>
      rw [hid] at hnew
      have hnew : s.counter < q.pending := hnew
      omega
    | inr hid =>
      rw [hid] at hnew
      have hnew : s.counter < q.reply := hnew
      omega

/-- A turn that is still shown was shown. -/
theorem Question.Named.shown_before (h : q.Named s) (hs : Background s s') (hshown : q.Shown s') :
    q.Shown s := by
  have hle := h.answered
  have hmono := hs.answered
  have hshown : s'.answered.length = q.answered := hshown
  show s.answered.length = q.answered
  omega

/-- A question still waits after what goes on in the background, unless the chat is reset. -/
theorem Question.Waiting.background (h : q.Waiting s) (hc : Counted s) (hs : Background s s')
    (hstreaming : s'.streamingId = s.streamingId ∨ s'.streamingId = none ∧ s'.turns = []) :
    q.Waiting s' where
  toNamed := h.toNamed.background hs
  streaming := by
    cases hstreaming with
    | inl hsame =>
      rw [hsame]
      apply h.streaming.imp id
      rintro ⟨hnone, hturns⟩
      refine ⟨hnone, ?_⟩
      intro turn' hturn'
      constructor
      · intro hid
        exact (hturns turn' (h.mem_background hs hturn' (.inr hid) hc.sends)).1 hid
      · intro hid
        exact (hturns turn' (h.mem_background hs hturn' (.inl hid) hc.sends)).2 hid
    | inr hgone =>
      refine .inr ⟨hgone.1, ?_⟩
      rw [hgone.2]
      exact fun turn hturn => nomatch hturn
  customer turn' hturn' hid :=
    h.customer turn' (h.mem_background hs hturn' (.inl hid) hc.sends) hid
  replied hshown := by
    have hbefore := h.shown_before hs hshown
    obtain ⟨turn, hturn, hid⟩ := h.replied hbefore
    obtain ⟨turn', hturn', hid'⟩ := hs.kept (hshown.trans hbefore.symm) turn hturn
    exact ⟨turn', hturn', hid'.trans hid⟩

/-- A settled question stays settled while something goes on in the background. -/
theorem Question.Settled.background {status : TurnStatus} (h : q.Settled status s) (hc : Counted s)
    (hs : Background s s') : q.Settled status s' where
  toNamed := h.toNamed.background hs
  streaming := by
    rcases hs.streaming with hsame | ⟨hnone, -⟩ | ⟨k, hk, -, hid⟩
    · rw [hsame]
      exact h.streaming
    · exact .inl hnone
    · have hreply := h.reply
      exact .inr ⟨k, by omega, hid⟩
  customer turn' hturn' hid :=
    h.customer turn' (h.mem_background hs hturn' (.inl hid) hc.sends) hid

/-- A completed question keeps its text under a `Background` step. -/
theorem Question.Completed.background {text : String} (h : q.Completed text s) (hc : Counted s)
    (hs : Background s s') : q.Completed text s' where
  toSettled := h.toSettled.background hc hs
  final turn' hturn' hid := h.final turn' (h.mem_background hs hturn' (.inr hid) hc.sends) hid
  replied hshown := by
    have hbefore := h.shown_before hs hshown
    obtain ⟨turn, hturn, hid⟩ := h.replied hbefore
    obtain ⟨turn', hturn', hid'⟩ := hs.kept (hshown.trans hbefore.symm) turn hturn
    exact ⟨turn', hturn', hid'.trans hid⟩

/-- A stream into another turn leaves a question its name. -/
theorem Question.Named.streamed (h : q.Named s) (hs : Streamed s s')
    (hother : s.streamingId ≠ some q.pendingId) : q.Named s' where
  pending := by rw [hs.counter]; exact h.pending
  reply := by rw [hs.counter]; exact h.reply
  sends := by rw [hs.sends]; exact h.sends
  answered := by rw [hs.answered]; exact h.answered
  shown hshown := by
    have hbefore : q.Shown s := (congrArg List.length hs.answered).symm.trans hshown
    obtain ⟨turn, hturn, hid⟩ := h.shown hbefore
    obtain ⟨turn', hturn', hid'⟩ := hs.kept turn hturn (hid ▸ hother)
    exact ⟨turn', hturn', hid'.trans hid⟩

/-- A settled question is not what the chat streams into. -/
theorem Question.Settled.other {status : TurnStatus} (h : q.Settled status s) :
    s.streamingId ≠ some q.pendingId ∧ s.streamingId ≠ some q.replyId := by
  rcases h.streaming with hnone | ⟨k, hk, hid⟩
  · rw [hnone]
    exact ⟨nofun, nofun⟩
  · rw [hid]
    exact ⟨nofun, fun h => hk (TurnId.stream.inj (Option.some.inj h))⟩

/-- A stream that is not the question's leaves its turns alone. -/
theorem Question.Settled.streamed {status : TurnStatus} (h : q.Settled status s)
    (hstatus : status ≠ .pending) (hs : Streamed s s') : q.Settled status s' where
  toNamed := h.toNamed.streamed hs h.other.1
  streaming := by
    cases hs.streaming with
    | inl hsame => rw [hsame]; exact h.streaming
    | inr hnone => exact .inl hnone
  customer turn' hturn' hid := by
    obtain ⟨turn, hturn, hsame, hkept⟩ := hs.turns turn' hturn'
    have hturnid : turn.id = q.pendingId := hsame.symm.trans hid
    have hbefore := h.customer turn hturn hturnid
    have heq := hkept (by rw [hturnid]; exact h.other.1) (by rw [hbefore]; exact hstatus)
    rw [heq]
    exact hbefore

/-- A completed question keeps its text while `Streamed` steps write to another turn. -/
theorem Question.Completed.streamed {text : String} (h : q.Completed text s) (hs : Streamed s s') :
    q.Completed text s' where
  toSettled := h.toSettled.streamed (by decide) hs
  final turn' hturn' hid := by
    obtain ⟨turn, hturn, hsame, hkept⟩ := hs.turns turn' hturn'
    have hturnid : turn.id = q.replyId := hsame.symm.trans hid
    have hbefore := h.final turn hturn hturnid
    have heq := hkept (by rw [hturnid]; exact h.other.2) (by rw [hbefore.2.1]; decide)
    rw [heq]
    exact hbefore
  replied hshown := by
    have hbefore : q.Shown s := (congrArg List.length hs.answered).symm.trans hshown
    obtain ⟨turn, hturn, hid⟩ := h.replied hbefore
    obtain ⟨turn', hturn', hid'⟩ := hs.kept turn hturn (by rw [hid]; exact h.other.2)
    exact ⟨turn', hturn', hid'.trans hid⟩

/-- A waiting question streams into its reply and not into what is pending. -/
theorem Question.Waiting.other (h : q.Waiting s) : s.streamingId ≠ some q.pendingId := by
  rcases h.streaming with hid | ⟨hnone, -⟩
  · rw [hid]
    exact fun h => nomatch h
  · rw [hnone]
    exact fun h => nomatch h

/-- `appendDelta` keeps ids and statuses. -/
theorem mem_appendDelta {ask : StreamAsk} {text : String} {turn' : Turn}
    (h : turn' ∈ (s.appendDelta ask text).turns) :
    ∃ turn ∈ s.turns, turn'.id = turn.id ∧ turn'.status = turn.status := by
  unfold Chat.appendDelta at h
  split at h
  · exact ⟨turn', h, rfl, rfl⟩
  · obtain ⟨turn, hturn, rfl⟩ := List.mem_map.mp h
    refine ⟨turn, hturn, ?_⟩
    split
    · exact ⟨rfl, rfl⟩
    · exact ⟨rfl, rfl⟩

/-- `appendDelta` keeps every turn under its id. -/
theorem appendDelta_kept (ask : StreamAsk) (text : String) {turn : Turn} (h : turn ∈ s.turns) :
    ∃ turn' ∈ (s.appendDelta ask text).turns, turn'.id = turn.id := by
  unfold Chat.appendDelta
  split
  · exact ⟨turn, h, rfl⟩
  · refine ⟨_, List.mem_map_of_mem h, ?_⟩
    split
    · rfl
    · rfl

/-- `appendDelta` leaves the chat streaming into the same turn. -/
theorem appendDelta_streamingId (ask : StreamAsk) (text : String) :
    (s.appendDelta ask text).streamingId = s.streamingId := by
  unfold Chat.appendDelta
  split
  · rfl
  · rfl

/-- A question still waits after a piece of its answer. -/
theorem Question.Waiting.appendDelta (h : q.Waiting s) (ask : StreamAsk) (text : String) :
    q.Waiting (s.appendDelta ask text) where
  toNamed := h.toNamed.streamed (appendDelta_streamed s ask text) h.other
  streaming := by
    rw [appendDelta_streamingId]
    apply h.streaming.imp id
    rintro ⟨hnone, hturns⟩
    refine ⟨hnone, ?_⟩
    intro turn' hturn'
    obtain ⟨turn, hturn, hsame, -⟩ := mem_appendDelta hturn'
    rw [hsame]
    exact hturns turn hturn
  customer turn' hturn' hid := by
    obtain ⟨turn, hturn, hsame, hstatus⟩ := mem_appendDelta hturn'
    rw [hstatus]
    exact h.customer turn hturn (hsame.symm.trans hid)
  replied hshown := by
    have hbefore : q.Shown s :=
      (congrArg List.length (appendDelta_streamed s ask text).answered).symm.trans hshown
    obtain ⟨turn, hturn, hid⟩ := h.replied hbefore
    obtain ⟨turn', hturn', hsame⟩ := appendDelta_kept ask text hturn
    exact ⟨turn', hturn', hsame.trans hid⟩

/-- `completeStream` replaces what was streamed into a waiting question's reply. -/
theorem Question.Waiting.completeStream (h : q.Waiting s) (ask : StreamAsk) (text : String)
    (result : StreamResult) : q.Completed text (s.completeStream ask text result) := by
  have hnamed := h.toNamed.streamed (completeStream_streamed s ask text result) h.other
  rcases h.streaming with hid | ⟨hnone, hturns⟩
  · unfold Chat.completeStream at hnamed ⊢
    rw [hid] at hnamed ⊢
    dsimp only at hnamed ⊢
    exact {
      toNamed := hnamed
      streaming := .inl rfl
      customer := by
        intro turn' hturn' hpending
        obtain ⟨turn, hturn, rfl⟩ := List.mem_map.mp hturn'
        rw [completeTurn_id] at hpending
        have hstatus := h.customer turn hturn hpending
        have hne : turn.id ≠ q.replyId := by
          rw [hpending]
          exact fun h => nomatch h
        unfold Chat.completeTurn
        rw [if_neg hne, if_pos hstatus]
      final := by
        intro turn' hturn' hreply
        obtain ⟨turn, hturn, rfl⟩ := List.mem_map.mp hturn'
        rw [completeTurn_id] at hreply
        unfold Chat.completeTurn
        rw [if_pos hreply]
        exact ⟨rfl, rfl, rfl⟩
      replied := by
        intro hshown
        have hbefore : q.Shown s :=
          (congrArg List.length (adopt_fields s _ _).2.2.1).symm.trans hshown
        obtain ⟨turn, hturn, hreply⟩ := h.replied hbefore
        exact ⟨_, List.mem_map_of_mem hturn, (completeTurn_id _ _ _ _ _).trans hreply⟩ }
  · -- A reset has taken the turns away.
    have heq : s.completeStream ask text result = { s with sending := false } := by
      unfold Chat.completeStream
      rw [hnone]
    rw [heq] at hnamed ⊢
    have hgone : ¬ q.Shown s := by
      intro hshown
      obtain ⟨turn, hturn, hreply⟩ := h.replied hshown
      exact (hturns turn hturn).1 hreply
    exact {
      toNamed := hnamed
      streaming := .inl hnone
      customer := fun turn hturn hpending => absurd hpending (hturns turn hturn).2
      final := fun turn hturn hreply => absurd hreply (hturns turn hturn).1
      replied := fun hshown => absurd hshown hgone }

/-- `failStream` fails the turn of a waiting question. -/
theorem Question.Waiting.failStream (h : q.Waiting s) (message : String) :
    q.Settled .failed (s.failStream message) where
  toNamed := h.toNamed.streamed (failStream_streamed s message) h.other
  streaming := .inl rfl
  customer turn' hturn' hid := by
    obtain ⟨turn, hturn, rfl⟩ := List.mem_map.mp hturn'
    have hmem := (List.mem_filter.mp hturn).1
    have hturnid : turn.id = q.pendingId := by
      split at hid
      · exact hid
      · exact hid
    rw [if_pos (h.customer turn hmem hturnid)]

end Turns

/-! ## Every screen -/

/-- Ids are counted, and the questions of both hooks are the same. -/
structure Sound (s : Screen) : Prop where
  counted : Counted s.conversation
  asks : s.conversation.asks.length = s.realtime.asked

/-- Ids stay below the counter while something goes on in the background. -/
theorem Counted.background {s s' : Chat} (h : Counted s) (hs : Background s s') : Counted s' where
  turns turn' hturn' := by
    have hcounter := hs.counter
    rcases hs.turns turn' hturn' with hold | ⟨request, hrequest, hid⟩ | ⟨position, hid⟩ | ⟨-, hle⟩
    · have hle := h.turns turn' hold
      omega
    · obtain ⟨k, hk, hlocal⟩ := h.sends request hrequest
      rw [hid, hlocal]
      show k ≤ s'.counter
      omega
    · rw [hid]
      exact Nat.zero_le _
    · exact hle
  sends request hrequest := by
    have hcounter := hs.counter
    cases hs.sends request hrequest with
    | inl hold =>
      obtain ⟨k, hk, hlocal⟩ := h.sends request hold
      exact ⟨k, by omega, hlocal⟩
    | inr hnew =>
      obtain ⟨k, -, hk, hlocal⟩ := hnew
      exact ⟨k, hk, hlocal⟩

/-- Ids stay below the counter while an answer is streamed. -/
theorem Counted.streamed {s s' : Chat} (h : Counted s) (hs : Streamed s s') : Counted s' where
  turns turn' hturn' := by
    obtain ⟨turn, hturn, hid, -⟩ := hs.turns turn' hturn'
    rw [hid, hs.counter]
    exact h.turns turn hturn
  sends := by
    rw [hs.sends, hs.counter]
    exact h.sends

/-- `moveTo` a world that has handed over nothing new changes the world only. -/
theorem moveTo_of_handed_eq {s : Screen} {w : World} (h : w.handed = s.realtime.handed) :
    s.moveTo w = { s with realtime := w } := by
  unfold Screen.moveTo
  rw [h, List.drop_length]
  rfl

/-- `moveTo` a world that has handed over one thing more runs its handler. -/
theorem moveTo_of_handed_concat {s : Screen} {w : World} {handed : Handed}
    (h : w.handed = s.realtime.handed ++ [handed]) :
    s.moveTo w = { s with
      realtime := w, conversation := Screen.handle s.conversation handed } := by
  unfold Screen.moveTo
  rw [h, List.drop_left]
  rfl

/-- What a frame does to what is awaited, and what it hands over. -/
inductive Received (w w' : World) (source : Option Nat) : ServerFrame → Prop
  | ignored {frame : ServerFrame} (hw' : w' = w) (hnot : terminal frame = true → w.awaiting = none)
      (herror : ∀ code message, frame ≠ .error code message) : Received w w' source frame
  | delta {text : String} (hawaiting : w'.awaiting = w.awaiting) (hasked : w'.asked = w.asked)
      (hhanded : w'.handed = w.handed ++ [{
        call := .onDelta text, awaited := w.awaiting, source }]) :
      Received w w' source (.delta text)
  | complete {text : String} {conversationId : Option String} {grounded : Option Bool}
      {citations : Option (List Frontend.Citation)} {escalated : Option Bool} {result : StreamResult}
      (hawaiting : w'.awaiting = none) (hasked : w'.asked = w.asked)
      (hhanded : w'.handed = w.handed ++ [{
        call := .onComplete text conversationId result, awaited := w.awaiting, source }]) :
      Received w w' source (.complete text conversationId grounded citations escalated)
  | error {code message : String} (hawaiting : w'.awaiting = none) (hasked : w'.asked = w.asked)
      (hhanded : w'.handed = w.handed ++ [{
        call := .onError code message, awaited := w.awaiting, source }]) :
      Received w w' source (.error code message)

/-- `onmessage` hands over what `Received` says of the frame. -/
theorem onmessage_received (w : World) (source : Option Nat) (frame : ServerFrame) :
    Received w (w.onmessage source frame) source frame := by
  cases frame with
  | delta text =>
    simp only [World.onmessage]
    split
    · exact .delta rfl rfl rfl
    · exact .ignored rfl nofun nofun
  | complete text conversationId grounded citations escalated =>
    simp only [World.onmessage]
    split
    · exact .complete rfl rfl rfl
    · rename_i hnone
      exact .ignored rfl (fun _ => by simpa using hnone) nofun
  | error code message => exact .error rfl rfl rfl
  | ready connectionId version => exact .ignored rfl nofun nofun
  | pong => exact .ignored rfl nofun nofun
  | unrecognised raw => exact .ignored rfl nofun nofun

/-- The screen after a frame: a handler of the stream ran at most. -/
theorem Received.handled {w w' : World} {source : Option Nat} {frame : ServerFrame}
    (h : Received w w' source frame) :
    w'.asked = w.asked ∧ (w'.awaiting = w.awaiting ∨ w'.awaiting = none) ∧
      (w'.handed = w.handed ∨ ∃ call, w'.handed = w.handed ++ [{
        call, awaited := w.awaiting, source }]) := by
  cases h with
  | ignored hw' hnot herror => rw [hw']; exact ⟨rfl, .inl rfl, .inl rfl⟩
  | delta hawaiting hasked hhanded => exact ⟨hasked, .inl hawaiting, .inr ⟨_, hhanded⟩⟩
  | complete hawaiting hasked hhanded => exact ⟨hasked, .inr hawaiting, .inr ⟨_, hhanded⟩⟩
  | error hawaiting hasked hhanded => exact ⟨hasked, .inr hawaiting, .inr ⟨_, hhanded⟩⟩

/-- A move of the realtime hook that hands over one call at most keeps the screen sound. -/
theorem Sound.moveTo {s : Screen} (h : Sound s) {w : World} (hasked : w.asked = s.realtime.asked)
    (hhanded : w.handed = s.realtime.handed ∨ ∃ handed, w.handed = s.realtime.handed ++ [handed])
    (delivered : List InFlight) : Sound { s.moveTo w with delivered } := by
  rcases hhanded with hsame | ⟨handed, hone⟩
  · rw [moveTo_of_handed_eq hsame]
    exact ⟨h.counted, h.asks.trans hasked.symm⟩
  · rw [moveTo_of_handed_concat hone]
    have hstreamed := handle_streamed s.conversation handed
    exact ⟨h.counted.streamed hstreamed,
      (congrArg List.length hstreamed.asks).trans (h.asks.trans hasked.symm)⟩

/-- A message that is accepted and goes over HTTP begins no stream. -/
theorem send_overHttp (s : Chat) (text : String)
    (h : (jsTrim text).isEmpty = false ∧ s.sending = false) :
    (s.send text false).asks = s.asks ∧ (s.send text false).streamingId = s.streamingId := by
  unfold Chat.send
  dsimp only
  rw [h.1, h.2]
  exact ⟨rfl, rfl⟩

/-- A message that goes over the socket adds the customer's turn, and an empty one that the
    answer is streamed into. -/
theorem send_streamed (s : Chat) (text : String)
    (h : (jsTrim text).isEmpty = false ∧ s.sending = false) :
    (s.send text true).asks.length = s.asks.length + 1 ∧
      (s.send text true).streamingId = some (.stream (s.counter + 2)) ∧
      ∃ pending reply, (s.send text true).turns = s.turns ++ [pending, reply] ∧
        pending.id = .localTurn (s.counter + 1) ∧ pending.status = .pending ∧
        reply.id = .stream (s.counter + 2) ∧ (s.send text true).sends = s.sends ∧
        (s.send text true).answered = s.answered ∧ (s.send text true).counter = s.counter + 2 := by
  unfold Chat.send
  dsimp only
  rw [h.1, h.2]
  refine ⟨List.length_append, rfl, s.pendingTurn (jsTrim text),
    { s with counter := s.counter + 1 }.placeholder, ?_, rfl, rfl, rfl, rfl, rfl, rfl⟩
  simp only [Bool.or_self, Bool.false_eq_true, if_false, if_true, List.append_assoc]
  rfl

/-- What sending a message does to the realtime hook. -/
inductive Asked (s s' : Screen) (text : String) : Prop
  | ignored (h : s' = s)
  | overHttp (hrealtime : s'.realtime = s.realtime) (hdelivered : s'.delivered = s.delivered)
      (haccepted : (jsTrim text).isEmpty = false ∧ s.conversation.sending = false)
      (hconversation : s'.conversation = s.conversation.send text false)
  | streamed (hfree : s.realtime.awaiting = none)
      (hawaiting : s'.realtime.awaiting = some s.realtime.asked)
      (hasked : s'.realtime.asked = s.realtime.asked + 1)
      (hhanded : s'.realtime.handed = s.realtime.handed) (hdelivered : s'.delivered = s.delivered)
      (haccepted : (jsTrim text).isEmpty = false ∧ s.conversation.sending = false)
      (hconversation : s'.conversation = s.conversation.send text true)

/-- The hook accepts a question only if it awaits none. -/
theorem ask_cases (w : World) (question : String) (conversationId : Option String) :
    w.ask question conversationId = (false, w) ∨
      w.awaiting = none ∧ ∃ w', w.ask question conversationId = (true, w') ∧
        w'.awaiting = some w.asked ∧ w'.asked = w.asked + 1 ∧ w'.handed = w.handed := by
  unfold World.ask
  split
  · exact .inl rfl
  · rename_i hnone
    split
    · exact .inl rfl
    · exact .inr ⟨by simpa using hnone, _, rfl, rfl, rfl, rfl⟩

/-- `send` asks the question it is given. -/
theorem send_asked (s : Screen) (text : String) : Asked s (s.send text) text := by
  unfold Screen.send
  split
  · exact .ignored rfl
  · rename_i hguard
    have haccepted : (jsTrim text).isEmpty = false ∧ s.conversation.sending = false := by
      simpa using hguard
    by_cases hready : s.realtime.state = .opened
    · rw [if_pos hready]
      rcases ask_cases s.realtime (jsTrim text) s.conversation.conversationId with
        hno | ⟨hfree, w', hyes, hawaiting, hasked, hhanded⟩
      · rw [hno]
        exact .overHttp rfl rfl haccepted rfl
      · rw [hyes]
        exact .streamed hfree hawaiting hasked hhanded rfl haccepted rfl
    · rw [if_neg hready]
      apply Asked.overHttp
      · rfl
      · rfl
      · exact haccepted
      · dsimp only

/-- A step of the chat that is none of a stream and no `send` is one that `Responded` allows. -/
theorem chat_responded {s s' : Chat} {e : ChatEvent} (hsend : ∀ text streams, e ≠ .send text streams)
    (hdelta : ∀ n text, e ≠ .delta n text) (hcomplete : ∀ n text result, e ≠ .complete n text result)
    (herror : ∀ message, e ≠ .streamError message) (hstep : s.step e = some s') :
    Responded s s' := by
  cases e with
  | send text streams => exact absurd rfl (hsend text streams)
  | delta n text => exact absurd rfl (hdelta n text)
  | complete n text result => exact absurd rfl (hcomplete n text result)
  | streamError message => exact absurd rfl (herror message)
  | resume => exact Option.some.inj hstep ▸ resume_responded s
  | loadHistory id =>
    exact Option.some.inj hstep ▸ .same rfl rfl (List.Subset.refl _) rfl rfl rfl
  | start => exact Option.some.inj hstep ▸ .same rfl rfl (List.Subset.refl _) rfl rfl rfl
  | reset => exact Option.some.inj hstep ▸ reset_responded s
  | reply i response =>
    unfold Chat.step at hstep
    dsimp only at hstep
    split at hstep
    · rename_i request hget
      split at hstep
      · exact Option.some.inj hstep ▸
          replyArrives_responded (List.mem_of_getElem? hget) i response
      · exact nomatch hstep
    · exact nomatch hstep
  | history i response =>
    unfold Chat.step at hstep
    dsimp only at hstep
    split at hstep
    · exact Option.some.inj hstep ▸ historyArrives_responded s i _ _ response
    · exact nomatch hstep
  | started i response =>
    unfold Chat.step at hstep
    dsimp only at hstep
    split at hstep
    · exact Option.some.inj hstep ▸ startArrives_responded s i _ response
    · exact nomatch hstep

/-- What a step of the screen can be. -/
inductive ScreenStep (s s' : Screen) : ScreenEvent → Prop
  | sent {text : String} (h : Asked s s' text) : ScreenStep s s' (.send text)
  | responded {e : ChatEvent} (hrealtime : s'.realtime = s.realtime)
      (hdelivered : s'.delivered = s.delivered)
      (hconversation : Responded s.conversation s'.conversation) : ScreenStep s s' (.conversation e)
  | received {k : Nat} {m : InFlight} {v w : World} (hnext : s.nextFrame k = some m)
      (hv : v.awaiting = s.realtime.awaiting ∧ v.handed = s.realtime.handed ∧
        v.asked = s.realtime.asked)
      (hreceived : Received v w m.source m.frame)
      (hs' : s' = { s.moveTo w with delivered := s.delivered ++ [m] }) :
      ScreenStep s s' (.realtime (.deliver k))
  | moved {e : RealtimeEvent} {w : World} (hstep : HookStep s.realtime w e)
      (hnot : ∀ k, e ≠ .deliver k) (hs' : s' = s.moveTo w) : ScreenStep s s' (.realtime e)

/-- A step of the conversation alone is one of the screen. -/
theorem screenStep_of_conversation {s s' : Screen} {e : ChatEvent}
    (hstep : ((s.conversation.step e).map fun chat => { s with conversation := chat }) = some s')
    (hsend : ∀ text streams, e ≠ .send text streams) (hdelta : ∀ n text, e ≠ .delta n text)
    (hcomplete : ∀ n text result, e ≠ .complete n text result)
    (herror : ∀ message, e ≠ .streamError message) : ScreenStep s s' (.conversation e) := by
  obtain ⟨chat, hchat, rfl⟩ := Option.map_eq_some_iff.mp hstep
  exact .responded rfl rfl (chat_responded hsend hdelta hcomplete herror hchat)

/-- A step of `useRealtime` that neither asks nor delivers is a `ScreenStep`. -/
theorem screenStep_of_realtime {s s' : Screen} {e : RealtimeEvent}
    (hstep : (useRealtime.step s.realtime e).map s.moveTo = some s')
    (hask : ∀ question conversationId, e ≠ .ask question conversationId)
    (hnot : ∀ k, e ≠ .deliver k) : ScreenStep s s' (.realtime e) := by
  obtain ⟨w, hw, rfl⟩ := Option.map_eq_some_iff.mp hstep
  exact .moved (hookStep_of_step hask hw) hnot rfl

/-- A delivery hands its frame to the socket and notes it. -/
theorem screenStep_of_deliver {s s' : Screen} {k : Nat}
    (hstep : ((useRealtime.step s.realtime (.deliver k)).map fun world =>
      { s.moveTo world with delivered := s.delivered ++ (s.nextFrame k).toList }) = some s') :
    ScreenStep s s' (.realtime (.deliver k)) := by
  obtain ⟨w, hw, rfl⟩ := Option.map_eq_some_iff.mp hstep
  have hhook := hookStep_of_step (e := .deliver k) nofun hw
  cases hhook with
  | quiet hawaiting hhanded hasked hnot => exact absurd rfl (hnot k)
  | dropped h hawaiting hasked hhanded =>
    rcases h with ⟨handle, h⟩ | ⟨j, h⟩
    · exact nomatch h
    · exact nomatch h
  | @message _ m rest v hopened hinbox hv hw' =>
    have hnext : s.nextFrame k = some m := by
      unfold Screen.nextFrame
      rw [hopened, hinbox]
      rfl
    have hreceived := onmessage_received v m.source m.frame
    rw [← hw'] at hreceived
    apply ScreenStep.received hnext hv hreceived
    rw [hnext]
    rfl

/-- Every step of a screen is one of those that `ScreenStep` lists. -/
theorem screenStep_of_step {s s' : Screen} {e : ScreenEvent} (hstep : s.step e = some s') :
    ScreenStep s s' e := by
  cases e with
  | send text =>
    obtain rfl := Option.some.inj hstep
    exact .sent (send_asked s text)
  | conversation e =>
    cases e with
    | send text streams => exact nomatch hstep
    | delta n text => exact nomatch hstep
    | complete n text result => exact nomatch hstep
    | streamError message => exact nomatch hstep
    | resume => exact screenStep_of_conversation hstep nofun nofun nofun nofun
    | loadHistory id => exact screenStep_of_conversation hstep nofun nofun nofun nofun
    | start => exact screenStep_of_conversation hstep nofun nofun nofun nofun
    | reset => exact screenStep_of_conversation hstep nofun nofun nofun nofun
    | reply i response => exact screenStep_of_conversation hstep nofun nofun nofun nofun
    | history i response => exact screenStep_of_conversation hstep nofun nofun nofun nofun
    | started i response => exact screenStep_of_conversation hstep nofun nofun nofun nofun
  | realtime e =>
    cases e with
    | ask question conversationId => exact nomatch hstep
    | deliver k => exact screenStep_of_deliver hstep
    | mountEffect enabled hasTicketSource creates => exact screenStep_of_realtime hstep nofun nofun
    | cleanup => exact screenStep_of_realtime hstep nofun nofun
    | ticket i granted creates => exact screenStep_of_realtime hstep nofun nofun
    | reconnect handle hasTicketSource creates => exact screenStep_of_realtime hstep nofun nofun
    | opened k => exact screenStep_of_realtime hstep nofun nofun
    | closing k => exact screenStep_of_realtime hstep nofun nofun
    | closed k => exact screenStep_of_realtime hstep nofun nofun
    | answerTimeout handle => exact screenStep_of_realtime hstep nofun nofun
    | serve k frame => exact screenStep_of_realtime hstep nofun nofun
    | serverFinishes k => exact screenStep_of_realtime hstep nofun nofun
    | greet k connectionId => exact screenStep_of_realtime hstep nofun nofun
    | serverStops k => exact screenStep_of_realtime hstep nofun nofun

/-- Every step keeps the screen sound. -/
theorem sound_step {s s' : Screen} {e : ScreenEvent} (h : Sound s) (hstep : ScreenStep s s' e) :
    Sound s' := by
  cases hstep with
  | sent hasked =>
    cases hasked with
    -- A send that is not accepted changes nothing
    | ignored hsame => rw [hsame]; exact h
    | overHttp hrealtime hdelivered haccepted hconversation =>
      constructor
      · rw [hconversation]
        exact h.counted.background (send_background _ _ _)
      · rw [hconversation, hrealtime, (send_overHttp _ _ haccepted).1]
        exact h.asks
    -- The hook and the conversation count the question together
    | streamed hfree hawaiting hasked hhanded hdelivered haccepted hconversation =>
      constructor
      · rw [hconversation]
        exact h.counted.background (send_background _ _ _)
      · rw [hconversation, hasked, (send_streamed _ _ haccepted).1, h.asks]
  | responded hrealtime hdelivered hconversation =>
    constructor
    · exact h.counted.background hconversation.toBackground
    · rw [hconversation.asks, hrealtime]
      exact h.asks
  | received hnext hv hreceived hs' =>
    obtain ⟨hasked, -, hhanded⟩ := hreceived.handled
    rw [hs']
    apply h.moveTo (hasked.trans hv.2.2)
    rw [← hv.2.1]
    exact hhanded.imp id fun ⟨call, hcall⟩ => ⟨_, hcall⟩
  | moved hhook hnot hs' =>
    rw [hs']
    cases hhook with
    | quiet hawaiting hhanded hasked hnot => exact h.moveTo hasked (.inl hhanded) _
    | message hopened hinbox hv hw' => exact absurd rfl (hnot _)
    | dropped hwhich hawaiting hasked hhanded =>
      exact h.moveTo hasked (hhanded.imp id fun ⟨code, message, hcall⟩ => ⟨_, hcall⟩) _

/-- Every reachable screen is sound. -/
theorem sound_of_reachable {storedId : Option String} {s : Screen}
    (h : (conversationScreen storedId).Reachable s) : Sound s := by
  apply h.invariant
  · exact ⟨⟨nofun, nofun⟩, rfl⟩
  · intro s e s' hsound _ hstep
    exact sound_step hsound (screenStep_of_step hstep)

/-! ## A run, from the question on -/

/-- Where a question stands, by what was delivered for it. -/
inductive Phase (q : Question) (s : Screen) : Prop
  | waiting (hown : (q.own s).find? terminal = none)
      (hawaiting : s.realtime.awaiting = some q.number) (hcompletions : q.completions s.realtime = [])
      (hturns : q.Waiting s.conversation)
  | completed {text : String} {conversationId : Option String} {grounded : Option Bool}
      {citations : Option (List Frontend.Citation)} {escalated : Option Bool} {later : List String}
      (hown : (q.own s).find? terminal =
        some (.complete text conversationId grounded citations escalated))
      (hawaiting : s.realtime.awaiting ≠ some q.number)
      (hcompletions : q.completions s.realtime = text :: later)
      (hlater : later.length < (q.own s).countP isComplete) (hturns : q.Completed text s.conversation)
  | failed {code message : String} (hown : (q.own s).find? terminal = some (.error code message))
      (hawaiting : s.realtime.awaiting ≠ some q.number) (hturns : q.Settled .failed s.conversation)

/-- The state of a question in a run. -/
structure Tracked (q : Question) (s : Screen) : Prop where
  sound : Sound s
  number : q.number < s.realtime.asked
  handed : q.handed ≤ s.realtime.handed.length
  delivered : q.delivered ≤ s.delivered.length
  phase : Phase q s

section Tracking

variable {q : Question}

/-- A delivered frame is one of the question's own if it came from its socket. -/
theorem own_concat {s s' : Screen} {m : InFlight} (h : s'.delivered = s.delivered ++ [m])
    (hle : q.delivered ≤ s.delivered.length) :
    q.own s' = q.own s ++ if m.source = some q.number then [m.frame] else [] := by
  unfold Question.own
  rw [h, List.drop_append_of_le_length hle, List.filter_append, List.map_append]
  by_cases hm : m.source = some q.number
  · simp [hm]
  · simp [hm]

/-- What is handed over is a completion of the question if `completion` says so. -/
theorem completions_concat {w w' : World} {handed : Handed} (h : w'.handed = w.handed ++ [handed])
    (hle : q.handed ≤ w.handed.length) :
    q.completions w' = q.completions w ++ (q.completion handed).toList := by
  unfold Question.completions
  rw [h, List.drop_append_of_le_length hle, List.filterMap_append]
  cases hc : q.completion handed with
  | none => simp [hc]
  | some text => simp [hc]

/-- Where nothing is handed over there is no new completion. -/
theorem completions_same {w w' : World} (h : w'.handed = w.handed) :
    q.completions w' = q.completions w := by
  unfold Question.completions
  rw [h]

/-- Where nothing is delivered there is no new frame. -/
theorem own_same {s s' : Screen} (h : s'.delivered = s.delivered) : q.own s' = q.own s := by
  unfold Question.own
  rw [h]

/-- Frames behind the first terminal one do not change which it is. -/
theorem find?_terminal_append {frames : List ServerFrame} (later : List ServerFrame)
    {frame : ServerFrame} (h : frames.find? terminal = some frame) : (frames ++ later).find? terminal = some frame := by
  rw [List.find?_append, h]
  rfl

/-- The first frame that ends an answer is the last, if no other did. -/
theorem find?_terminal_concat {frames : List ServerFrame} (frame : ServerFrame)
    (hnone : frames.find? terminal = none) (hframe : terminal frame = true) :
    (frames ++ [frame]).find? terminal = some frame := by
  rw [List.find?_append, hnone, List.find?_singleton, hframe]
  rfl

/-- A frame that ends nothing leaves an answer open. -/
theorem find?_terminal_none {frames : List ServerFrame} {frame : ServerFrame} {source : Option Nat}
    (hnone : frames.find? terminal = none) (hframe : terminal frame = false) :
    (frames ++ if source = some q.number then [frame] else []).find? terminal = none := by
  rw [List.find?_append, hnone]
  split
  · rw [List.find?_singleton, hframe]
    rfl
  · rfl

/-- A question that is over stays as it is, whatever handler of a stream runs. -/
theorem Phase.over {s s' : Screen} {w : World} (h : Phase q s)
    (hover : s.realtime.awaiting ≠ some q.number) (hstreamed : Streamed s.conversation s'.conversation)
    (hw : s'.realtime = w) (hawaiting : w.awaiting ≠ some q.number) {later : List ServerFrame}
    (hown : q.own s' = q.own s ++ later) {texts : List String}
    (hcompletions : q.completions w = q.completions s.realtime ++ texts)
    (hlater : texts.length ≤ later.countP isComplete) : Phase q s' := by
  cases h with
  | waiting hnone hawait _ _ => exact absurd hawait hover
  | completed hdone _ htexts hless hturns =>
    apply Phase.completed
    · rw [hown]
      exact find?_terminal_append _ hdone
    · rw [hw]
      exact hawaiting
    · rw [hw, hcompletions, htexts, List.cons_append]
    · rw [hown, List.countP_append, List.length_append]
      omega
    · exact hturns.streamed hstreamed
  | failed hdone _ hturns =>
    apply Phase.failed
    · rw [hown]
      exact find?_terminal_append _ hdone
    · rw [hw]
      exact hawaiting
    · exact hturns.streamed (by decide) hstreamed

/-- What the user does, or a response over HTTP, leaves a question where it stands. -/
theorem Phase.background {s s' : Screen} (h : Phase q s) (hc : Counted s.conversation)
    (hb : Background s.conversation s'.conversation) (hdelivered : s'.delivered = s.delivered)
    (hhanded : s'.realtime.handed = s.realtime.handed)
    (hawaiting : s.realtime.awaiting = some q.number → s'.realtime.awaiting = some q.number ∧
      (s'.conversation.streamingId = s.conversation.streamingId ∨
        s'.conversation.streamingId = none ∧ s'.conversation.turns = []))
    (hover : s.realtime.awaiting ≠ some q.number → s'.realtime.awaiting ≠ some q.number) :
    Phase q s' := by
  cases h with
  -- A question still awaited keeps its streaming turn
  | waiting hnone hawait htexts hturns =>
    obtain ⟨hawait', hstill⟩ := hawaiting hawait
    apply Phase.waiting
    · rw [own_same hdelivered]
      exact hnone
    · exact hawait'
    · rw [completions_same hhanded]
      exact htexts
    · exact hturns.background hc hb hstill
  -- A question that is over stays over, since it is not awaited again
  | completed hdone hawait htexts hlater hturns =>
    apply Phase.completed
    · rw [own_same hdelivered]
      exact hdone
    · exact hover hawait
    · rw [completions_same hhanded]
      exact htexts
    · rw [own_same hdelivered]
      exact hlater
    · exact hturns.background hc hb
  | failed hdone hawait hturns =>
    apply Phase.failed
    · rw [own_same hdelivered]
      exact hdone
    · exact hover hawait
    · exact hturns.background hc hb

end Tracking

/-! ## The steps of a run -/

/-- Nothing of another question, no timer and no closing socket ends question `n` while it
    is awaited. -/
def Undisturbed (n : Nat) (s : Screen) : ScreenEvent → Prop
  | .realtime (.deliver k) => s.realtime.awaiting = some n →
    ∀ m, s.nextFrame k = some m → terminal m.frame = true → m.source = some n
  | .realtime (.answerTimeout _) => s.realtime.awaiting ≠ some n
  | .realtime (.closed _) => s.realtime.awaiting ≠ some n
  | _ => True

section Steps

variable {q : Question} {s s' : Screen}

/-- A message is sent: over the socket only once the question is over. -/
theorem Tracked.sent (h : Tracked q s) {text : String} (hasked : Asked s s' text) :
    Tracked q s' := by
  have hsound := sound_step h.sound (.sent hasked)
  cases hasked with
  | ignored hsame => rw [hsame]; exact h
  -- Over HTTP the hook is not asked
  | overHttp hrealtime hdelivered haccepted hconversation =>
    have hbackground := send_background s.conversation text false
    rw [← hconversation] at hbackground
    exact {
      sound := hsound
      number := by rw [hrealtime]; exact h.number
      handed := by rw [hrealtime]; exact h.handed
      delivered := by rw [hdelivered]; exact h.delivered
      phase := by
        apply h.phase.background h.sound.counted hbackground hdelivered
        · rw [hrealtime]
        · intro hawaiting
          rw [hrealtime, hconversation]
          exact ⟨hawaiting, .inl (send_overHttp _ _ haccepted).2⟩
        · rw [hrealtime]
          exact id }
  -- The hook takes a question only when it awaits none, so ours is over
  | streamed hfree hawaiting hasked hhanded hdelivered haccepted hconversation =>
    have hbackground := send_background s.conversation text true
    rw [← hconversation] at hbackground
    have hnumber := h.number
    exact {
      sound := hsound
      number := by
        rw [hasked]
        omega
      handed := by rw [hhanded]; exact h.handed
      delivered := by rw [hdelivered]; exact h.delivered
      phase := by
        apply h.phase.background h.sound.counted hbackground hdelivered hhanded
        · intro hbusy
          rw [hfree] at hbusy
          exact nomatch hbusy
        · intro _
          rw [hawaiting]
          intro hsame
          have hsame := Option.some.inj hsame
          omega }

/-- `Tracked` is kept by a `Responded` step of the conversation. -/
theorem Tracked.responded (h : Tracked q s) (hrealtime : s'.realtime = s.realtime)
    (hdelivered : s'.delivered = s.delivered)
    (hconversation : Responded s.conversation s'.conversation) (hsound : Sound s') :
    Tracked q s' where
  sound := hsound
  number := by rw [hrealtime]; exact h.number
  handed := by rw [hrealtime]; exact h.handed
  delivered := by rw [hdelivered]; exact h.delivered
  phase := by
    apply h.phase.background h.sound.counted hconversation.toBackground hdelivered
    · rw [hrealtime]
    · rw [hrealtime]
      exact fun hawaiting => ⟨hawaiting, hconversation.still⟩
    · rw [hrealtime]
      exact id

/-- The question was put on the socket by a message of the conversation. -/
theorem Tracked.asked (h : Tracked q s) : ∃ ask, s.conversation.asks[q.number]? = some ask := by
  have hnumber := h.number
  have hasks := h.sound.asks
  exact ⟨_, List.getElem?_eq_getElem (by omega)⟩

/-- `Tracked` is kept by a step of `useRealtime` that delivers nothing. -/
theorem Tracked.moved (h : Tracked q s) {e : RealtimeEvent} {w : World}
    (hok : Undisturbed q.number s (.realtime e)) (hhook : HookStep s.realtime w e)
    (hnot : ∀ k, e ≠ .deliver k) : Tracked q (s.moveTo w) := by
  have hsound := sound_step h.sound (.moved hhook hnot rfl)
  have hhanded := h.handed
  cases hhook with
  | message hopened hinbox hv hw' => exact absurd rfl (hnot _)
  | quiet hawaiting hsame hasked _ =>
    rw [moveTo_of_handed_eq hsame] at hsound ⊢
    exact {
      sound := hsound
      number := by rw [hasked]; exact h.number
      handed := by rw [hsame]; exact h.handed
      delivered := h.delivered
      phase := h.phase.background h.sound.counted (.refl _) rfl hsame
        (fun hawait => ⟨hawaiting.trans hawait, .inl rfl⟩)
        (fun hawait hsame => hawait (hawaiting.symm.trans hsame)) }
  | dropped hwhich hawaiting hasked hcall =>
    -- Nothing drops the question while it is awaited.
    have hover : s.realtime.awaiting ≠ some q.number := by
      rcases hwhich with ⟨handle, rfl⟩ | ⟨k, rfl⟩
      · exact hok
      · exact hok
    have hover' : w.awaiting ≠ some q.number := by
      rcases hawaiting with hnone | hsame
      · rw [hnone]
        exact nofun
      · rw [hsame]
        exact hover
    rcases hcall with hsame | ⟨code, message, hone⟩
    · rw [moveTo_of_handed_eq hsame] at hsound ⊢
      exact {
        sound := hsound
        number := by rw [hasked]; exact h.number
        handed := by rw [hsame]; exact h.handed
        delivered := h.delivered
        phase := h.phase.background h.sound.counted (.refl _) rfl hsame
          (fun hawait => absurd hawait hover) (fun _ => hover') }
    -- The hook told another question of its failure
    · rw [moveTo_of_handed_concat hone] at hsound ⊢
      exact {
        sound := hsound
        number := by rw [hasked]; exact h.number
        handed := by
          rw [hone, List.length_append]
          omega
        delivered := h.delivered
        phase := by
          have htexts : q.completions w = q.completions s.realtime ++ [] := by
            rw [completions_concat hone h.handed]
            rfl
          have hstreamed := handle_streamed s.conversation {
            call := .onError code message, awaited := s.realtime.awaiting, source := none }
          exact h.phase.over hover hstreamed rfl hover' (List.append_nil _).symm htexts
            (Nat.le_refl 0) }

/-- The frames of the question are handled in the order they are delivered, and no other
    frame ends it. -/
theorem Tracked.received (h : Tracked q s) {k : Nat} {m : InFlight} {v w : World}
    (hok : Undisturbed q.number s (.realtime (.deliver k))) (hnext : s.nextFrame k = some m)
    (hv : v.awaiting = s.realtime.awaiting ∧ v.handed = s.realtime.handed ∧
      v.asked = s.realtime.asked)
    (hreceived : Received v w m.source m.frame) :
    Tracked q { s.moveTo w with delivered := s.delivered ++ [m] } := by
  have hsound := sound_step h.sound (.received hnext hv hreceived rfl)
  obtain ⟨source, frame⟩ := m
  dsimp only at hreceived
  obtain ⟨hasked, hawaiting, hcall⟩ := hreceived.handled
  rw [hv.2.2] at hasked
  rw [hv.1] at hawaiting
  have hhanded := h.handed
  have hdelivered := h.delivered
  -- Only the phase is left to show: the counts grow with the frame
  have hrest : ∀ {s' : Screen}, s'.realtime = w → s'.delivered = s.delivered ++ [⟨source, frame⟩] → Sound s' →
      Phase q s' → Tracked q s' := by
    intro s' hrealtime hall hsound' hphase
    exact {
      sound := hsound'
      number := by rw [hrealtime, hasked]; exact h.number
      handed := by
        rw [hrealtime]
        rcases hcall with hsame | ⟨call, hone⟩
        · rw [hsame, hv.2.1]
          exact hhanded
        · rw [hone, hv.2.1, List.length_append]
          omega
      delivered := by
        rw [hall, List.length_append]
        omega
      phase := hphase }
  -- A frame that comes when the question is over.
  have hlate : s.realtime.awaiting ≠ some q.number → ∀ s' : Screen, s'.realtime = w →
      s'.delivered = s.delivered ++ [⟨source, frame⟩] → Streamed s.conversation s'.conversation → Phase q s' := by
    intro hover s' hrealtime hall hstreamed
    have hover' : w.awaiting ≠ some q.number := by
      rcases hawaiting with hsame | hnone
      · rw [hsame]
        exact hover
      · rw [hnone]
        exact nofun
    have hown' : q.own s' = q.own s ++ if source = some q.number then [frame] else [] :=
      own_concat hall hdelivered
    have hhandedv : q.handed ≤ v.handed.length := by
      rw [hv.2.1]
      exact hhanded
    have hsamev : q.completions v = q.completions s.realtime := completions_same hv.2.1
    -- The calls handed on for a question that is over name no text of ours but by their source
    cases hreceived with
    | ignored hw' hnot herror =>
      have htexts : q.completions w = q.completions s.realtime ++ [] := by
        rw [hw', hsamev, List.append_nil]
      exact h.phase.over hover hstreamed hrealtime hover' hown' htexts (Nat.zero_le _)
    | delta _ _ hone =>
      have htexts : q.completions w = q.completions s.realtime ++ [] := by
        rw [completions_concat hone hhandedv, hsamev]
        rfl
      exact h.phase.over hover hstreamed hrealtime hover' hown' htexts (Nat.zero_le _)
    | error _ _ hone =>
      have htexts : q.completions w = q.completions s.realtime ++ [] := by
        rw [completions_concat hone hhandedv, hsamev]
        rfl
      exact h.phase.over hover hstreamed hrealtime hover' hown' htexts (Nat.zero_le _)
    | @complete text conversationId grounded citations escalated result _ _ hone =>
      have htexts : q.completions w = q.completions s.realtime ++
          (if source = some q.number then some text else none).toList := by
        rw [completions_concat hone hhandedv, hsamev]
        rfl
      apply h.phase.over hover hstreamed hrealtime hover' hown' htexts
      split
      · exact Nat.le_refl 1
      · exact Nat.le_refl 0
  -- So a question that was over stays in its phase
  have hsettled : s.realtime.awaiting ≠ some q.number →
      Tracked q { s.moveTo w with delivered := s.delivered ++ [⟨source, frame⟩] } := by
    intro hover
    rcases hcall with hsame | ⟨call, hone⟩
    · have hsame : w.handed = s.realtime.handed := hsame.trans hv.2.1
      rw [moveTo_of_handed_eq hsame] at hsound ⊢
      exact hrest rfl rfl hsound (hlate hover _ rfl rfl (.refl _))
    · rw [hv.2.1] at hone
      rw [moveTo_of_handed_concat hone] at hsound ⊢
      exact hrest rfl rfl hsound (hlate hover _ rfl rfl (handle_streamed _ _))
  cases h.phase with
  | completed hdone hover htexts hless hturns => exact hsettled hover
  | failed hdone hover hturns => exact hsettled hover
  -- The question is awaited: the frame is a piece of its answer, or ends it
  | waiting hnone hawait htexts hturns =>
    have hawaitv : v.awaiting = some q.number := hv.1.trans hawait
    cases hreceived with
    | ignored hw' hnot herror =>
      -- A frame that ends an answer is not ignored while one is awaited
      have hplain : terminal frame = false := by
        apply Bool.eq_false_iff.mpr
        intro hterminal
        rw [hnot hterminal] at hawaitv
        exact nomatch hawaitv
      have hsame : w.handed = s.realtime.handed := by rw [hw']; exact hv.2.1
      rw [moveTo_of_handed_eq hsame] at hsound ⊢
      apply hrest rfl rfl hsound
      apply Phase.waiting
      · rw [own_concat rfl hdelivered]
        exact find?_terminal_none hnone hplain
      · show w.awaiting = some q.number
        rw [hw']
        exact hawaitv
      · show q.completions w = []
        rw [completions_same hsame]
        exact htexts
      · exact hturns
    -- A delta leaves the question awaited
    | @delta text hsame _ hone =>
      rw [hv.2.1] at hone
      rw [moveTo_of_handed_concat hone] at hsound ⊢
      apply hrest rfl rfl hsound
      apply Phase.waiting
      · rw [own_concat rfl hdelivered]
        exact find?_terminal_none hnone rfl
      · show w.awaiting = some q.number
        rw [hsame]
        exact hawaitv
      · show q.completions w = []
        rw [completions_concat hone hhanded, htexts]
        rfl
      · show q.Waiting (Screen.handle s.conversation _)
        unfold Screen.handle
        cases source with
        | none => exact hturns
        | some n =>
          dsimp only
          split
          · exact hturns.appendDelta _ text
          · exact hturns
    -- The first error that is the question's own ends it
    | @error code message hgone _ hone =>
      have hsource : source = some q.number := hok hawait _ hnext rfl
      rw [hv.2.1] at hone
      rw [moveTo_of_handed_concat hone] at hsound ⊢
      apply hrest rfl rfl hsound
      apply Phase.failed
      · rw [own_concat rfl hdelivered, if_pos hsource]
        exact find?_terminal_concat _ hnone rfl
      · show w.awaiting ≠ some q.number
        rw [hgone]
        exact nofun
      · exact hturns.failStream message
    -- The completion hands the whole text on and settles the turn
    | @complete text conversationId grounded citations escalated result hgone _ hone =>
      have hsource : source = some q.number := hok hawait _ hnext rfl
      obtain ⟨ask, hask⟩ := h.asked
      rw [hv.2.1] at hone
      rw [moveTo_of_handed_concat hone] at hsound ⊢
      apply hrest rfl rfl hsound
      have hown : q.own { s with
          realtime := w
          conversation := Screen.handle s.conversation {
            call := .onComplete text conversationId result, awaited := v.awaiting, source }
          delivered := s.delivered ++ [⟨source,
            .complete text conversationId grounded citations escalated⟩] } =
          q.own s ++ [.complete text conversationId grounded citations escalated] := by
        rw [own_concat rfl hdelivered, if_pos hsource]
      have hcompletions : q.completions w = [text] := by
        rw [completions_concat hone hhanded, htexts]
        show (if source = some q.number then some text else none).toList = [text]
        rw [if_pos hsource]
        rfl
      apply Phase.completed
      · rw [hown]
        exact find?_terminal_concat _ hnone rfl
      · show w.awaiting ≠ some q.number
        rw [hgone]
        exact nofun
      · exact hcompletions
      · rw [hown, List.countP_append]
        exact Nat.lt_add_left _ Nat.one_pos
      · show q.Completed text (Screen.handle s.conversation _)
        unfold Screen.handle
        rw [hsource]
        dsimp only
        rw [hask]
        exact hturns.completeStream ask text result

/-- `Tracked` is kept by every step that does not disturb the question. -/
theorem Tracked.step (h : Tracked q s) {e : ScreenEvent} (hok : Undisturbed q.number s e)
    (hstep : s.step e = some s') : Tracked q s' := by
  have hsound := sound_step h.sound (screenStep_of_step hstep)
  cases screenStep_of_step hstep with
  | sent hasked => exact h.sent hasked
  | responded hrealtime hdelivered hconversation =>
    exact h.responded hrealtime hdelivered hconversation hsound
  | received hnext hv hreceived hs' =>
    rw [hs']
    exact h.received hok hnext hv hreceived
  | moved hhook hnot hs' =>
    rw [hs']
    exact h.moved hok hhook hnot

end Steps

/-- `Tracked` is kept by every run whose steps leave the question `Undisturbed`. -/
theorem Tracked.run {storedId : Option String} {q : Question} {s s' : Screen} (h : Tracked q s)
    (es : List ScreenEvent)
    (hmeets : (conversationScreen storedId).Meets (Undisturbed q.number) s es)
    (hrun : (conversationScreen storedId).runFrom s es = some s') : Tracked q s' := by
  induction es generalizing s with
  | nil =>
    obtain rfl := Option.some.inj hrun
    exact h
  | cons e es ih =>
    obtain ⟨s₁, hstep, hrest⟩ := Option.bind_eq_some_iff.mp hrun
    exact ih (h.step hmeets.1 hstep) (hmeets.2 s₁ hstep) hrest

/-! ## A question that is asked -/

/-- The question that the next message puts on the socket, if it is put there. -/
def nextQuestion (s : Screen) : Question where
  number := s.realtime.asked
  pending := s.conversation.counter + 1
  reply := s.conversation.counter + 2
  handed := s.realtime.handed.length
  delivered := s.delivered.length
  answered := s.conversation.answered.length

/-- A question that has just been asked is waiting for its answer. -/
theorem tracked_of_asked {s s' : Screen} {text : String} (h : Sound s) (hasked : Asked s s' text)
    (haccepted : s'.realtime.asked = s.realtime.asked + 1) : Tracked (nextQuestion s) s' := by
  have hsound := sound_step h (.sent hasked)
  cases hasked with
  | ignored hsame =>
    rw [hsame] at haccepted
    omega
  | overHttp hrealtime _ _ _ =>
    rw [hrealtime] at haccepted
    omega
  | streamed hfree hawaiting hnumber hhanded hdelivered hguard hconversation =>
    obtain ⟨-, hstreaming, pending, reply, hturns, hpending, hstatus, hreply, hsends, hanswered,
      hcounter⟩ := send_streamed s.conversation text hguard
    rw [← hconversation] at hstreaming hturns hsends hanswered hcounter
    have hmem : ∀ turn ∈ s'.conversation.turns,
        turn ∈ s.conversation.turns ∨ turn = pending ∨ turn = reply := by
      intro turn hturn
      rw [hturns] at hturn
      simpa using hturn
    exact {
      sound := hsound
      number := by
        show s.realtime.asked < s'.realtime.asked
        omega
      handed := Nat.le_of_eq (congrArg List.length hhanded).symm
      delivered := Nat.le_of_eq (congrArg List.length hdelivered).symm
      phase := by
        apply Phase.waiting
        · unfold Question.own
          rw [hdelivered]
          show (((s.delivered.drop s.delivered.length).filter _).map _).find? terminal = none
          rw [List.drop_length]
          rfl
        · exact hawaiting
        · unfold Question.completions
          rw [hhanded]
          show (s.realtime.handed.drop s.realtime.handed.length).filterMap _ = []
          rw [List.drop_length]
          rfl
        · exact {
            pending := by
              show s.conversation.counter + 1 ≤ s'.conversation.counter
              omega
            reply := Nat.le_of_eq hcounter.symm
            sends := by
              intro request hrequest hsame
              rw [hsends] at hrequest
              obtain ⟨k, hk, hlocal⟩ := h.counted.sends request hrequest
              have hlocal : TurnId.localTurn k = .localTurn (s.conversation.counter + 1) :=
                hlocal.symm.trans hsame
              have hcount := TurnId.localTurn.inj hlocal
              omega
            answered := Nat.le_of_eq (congrArg List.length hanswered).symm
            shown := fun _ => ⟨pending, by rw [hturns]; simp, hpending⟩
            streaming := .inl hstreaming
            customer := by
              intro turn hturn hid
              rcases hmem turn hturn with hold | rfl | rfl
              · have hle := h.counted.turns turn hold
                rw [hid] at hle
                have hle : s.conversation.counter + 1 ≤ s.conversation.counter := hle
                omega
              · exact hstatus
              · rw [hreply] at hid
                exact nomatch hid
            replied := fun _ => ⟨reply, by rw [hturns]; simp, hreply⟩ } }

/-! ## What the customer sees -/

/-- The answer was handed over once, and is shown as it was completed, and the customer's
    turn is sent, unless a selection has taken the turns off the screen. -/
structure Kept (q : Question) (text : String) (s : Screen) : Prop where
  once : q.completions s.realtime = [text]
  reply : ∀ turn ∈ s.conversation.turns, turn.id = q.replyId →
    turn.text = text ∧ turn.status = .sent ∧ turn.streaming = false
  customer : ∀ turn ∈ s.conversation.turns, turn.id = q.pendingId → turn.status = .sent
  shown : q.Shown s.conversation → (∃ turn ∈ s.conversation.turns, turn.id = q.replyId) ∧
    ∃ turn ∈ s.conversation.turns, turn.id = q.pendingId

/-- Deltas do not end a question. -/
theorem find?_terminal_of_deltas {pieces : List PyStr} {frames : List ServerFrame}
    (h : wireList wire (pieces.map ServerMessage.delta) = some frames) :
    frames.find? terminal = none ∧ frames.countP isComplete = 0 := by
  have hplain : ∀ frame ∈ frames, terminal frame = false ∧ isComplete frame = false := by
    apply wireList_forall (P := fun frame => terminal frame = false ∧ isComplete frame = false) h
    intro message hmessage frame hframe
    obtain ⟨piece, -, rfl⟩ := List.mem_map.mp hmessage
    obtain ⟨text, -, rfl⟩ := Option.map_eq_some_iff.mp hframe
    exact ⟨rfl, rfl⟩
  constructor
  · apply List.find?_eq_none.mpr
    intro frame hframe
    rw [(hplain frame hframe).1]
    exact Bool.false_ne_true
  · apply List.countP_eq_zero.mpr
    intro frame hframe
    rw [(hplain frame hframe).2]
    exact Bool.false_ne_true

/-- A completion on the wire has the text as `wireText` has it. -/
theorem wire_complete {text : PyStr} {deltas : Nat} {id : Option Uuid} {grounded escalated : Bool}
    {citations : List NexaAssist.Citation} {frame : ServerFrame}
    (h : wire (.complete text deltas id grounded citations escalated) = some frame) :
    ∃ shown conversationId cited, wireText text = some shown ∧
      frame = .complete shown conversationId (some grounded) (some cited) (some escalated) := by
  simp only [wire] at h
  split at h
  · rename_i shown conversationId cited hshown hid hcited
    exact ⟨shown, conversationId, cited, hshown, (Option.some.inj h).symm⟩
  · exact nomatch h

/-- A completion that comes without an error is shown. -/
theorem Tracked.kept {q : Question} {s : Screen} (h : Tracked q s) {pieces : List PyStr}
    {text : PyStr} {deltas : Nat} {id : Option Uuid} {grounded escalated : Bool}
    {citations : List NexaAssist.Citation}
    (hown : wireList wire (pieces.map .delta ++
      [.complete text deltas id grounded citations escalated]) = some (q.own s)) :
    ∃ shown, wireText text = some shown ∧ Kept q shown s := by
  obtain ⟨front, back, hsplit, hfront, hback⟩ := wireList_append hown
  obtain ⟨frame, rfl, hframe⟩ := wireList_singleton hback
  obtain ⟨shown, conversationId, cited, hshown, rfl⟩ := wire_complete hframe
  obtain ⟨hnone, hzero⟩ := find?_terminal_of_deltas hfront
  have hfind := find?_terminal_concat (.complete shown conversationId (some grounded)
    (some cited) (some escalated)) hnone rfl
  rw [← hsplit] at hfind
  refine ⟨shown, hshown, ?_⟩
  cases h.phase with
  | waiting hno _ _ _ =>
    rw [hfind] at hno
    exact nomatch hno
  | failed herror _ _ =>
    rw [hfind] at herror
    exact nomatch herror
  | @completed shown' _ _ _ _ later hdone _ htexts hless hturns =>
    rw [hfind] at hdone
    obtain ⟨rfl, -⟩ := ServerFrame.complete.inj (Option.some.inj hdone)
    -- It was sent once, so it was handed over once.
    rw [hsplit, List.countP_append, hzero] at hless
    have hlater : later = [] := List.eq_nil_of_length_eq_zero (Nat.lt_one_iff.mp hless)
    exact {
      once := by rw [htexts, hlater]
      reply := hturns.final
      customer := hturns.customer
      shown := fun hshown => ⟨hturns.replied hshown, hturns.shown hshown⟩ }

/-- A completion that comes after an error leaves the customer's turn failed. -/
theorem Tracked.dropped {q : Question} {s : Screen} (h : Tracked q s) {pieces : List PyStr}
    {code message : PyStr} {later : List ServerMessage}
    (hown : wireList wire (pieces.map .delta ++ .error code message :: later) =
      some (q.own s)) :
    ∀ turn ∈ s.conversation.turns, turn.id = q.pendingId → turn.status = .failed := by
  rw [List.append_cons] at hown
  obtain ⟨start, rest, hsplit, hstart, -⟩ := wireList_append hown
  obtain ⟨front, back, rfl, hfront, hback⟩ := wireList_append hstart
  obtain ⟨frame, rfl, hframe⟩ := wireList_singleton hback
  obtain ⟨shownCode, shownMessage, rfl⟩ : ∃ shownCode shownMessage,
      frame = .error shownCode shownMessage := by
    simp only [wire] at hframe
    split at hframe
    · exact ⟨_, _, (Option.some.inj hframe).symm⟩
    · exact nomatch hframe
  have hfind := find?_terminal_append rest (find?_terminal_concat
    (.error shownCode shownMessage) (find?_terminal_of_deltas hfront).1 rfl)
  rw [← hsplit] at hfind
  cases h.phase with
  | waiting hno _ _ _ =>
    rw [hfind] at hno
    exact nomatch hno
  | completed hdone _ _ _ _ =>
    rw [hfind] at hdone
    exact nomatch hdone
  | failed _ _ hturns => exact hturns.customer

/-- A question is asked on a live socket, and in the run after it the server delivers all it
    sends for the question, with a completion, while nothing of another question, no timer
    and no closing socket ends it. The answer is handed over once and shown, and the
    customer's turn is sent, if the server recorded the answer; if it could not, the turn is
    failed. -/
theorem answer_kept {storedId : Option String} {s₀ s₁ s₂ : Screen} {text : String}
    (hreachable : (conversationScreen storedId).Reachable s₀) (hasked : s₀.step (.send text) = some s₁)
    (haccepted : s₁.realtime.asked = s₀.realtime.asked + 1) {es : List ScreenEvent}
    (hundisturbed : (conversationScreen storedId).Meets (Undisturbed s₀.realtime.asked) s₁ es)
    (hrun : (conversationScreen storedId).runFrom s₁ es = some s₂)
    {recorder : Option TurnRecorder} {answerer : Option Answerer} {question : Text}
    {conversationId : Option Uuid} {env : Env} {w w' : RequestState} {frames : List ServerMessage}
    (hanswer : answerFrom recorder answerer question conversationId env w = (.ok frames, w'))
    (hdelivered : wireList wire frames = some ((nextQuestion s₀).own s₂))
    {answer : PyStr} {deltas : Nat} {id : Option Uuid} {grounded escalated : Bool}
    {citations : List NexaAssist.Citation}
    (hcomplete : .complete answer deltas id grounded citations escalated ∈ frames) :
    (¬ LateFailure recorder answerer question conversationId env w →
      ∃ shown, wireText answer = some shown ∧ Kept (nextQuestion s₀) shown s₂) ∧
    (LateFailure recorder answerer question conversationId env w →
      (∀ turn ∈ s₂.conversation.turns, turn.id = (nextQuestion s₀).pendingId →
        turn.status = .failed) ∧
      ((nextQuestion s₀).Shown s₂.conversation → ∀ shown, ¬ Kept (nextQuestion s₀) shown s₂)) := by
  have hstart : Tracked (nextQuestion s₀) s₁ := by
    obtain rfl := Option.some.inj hasked
    exact tracked_of_asked (sound_of_reachable hreachable) (send_asked s₀ text) haccepted
  have htracked := hstart.run es hundisturbed hrun
  constructor
  · intro hrecorded
    obtain ⟨pieces, rfl⟩ := frames_of_recorded hanswer hrecorded hcomplete
    exact htracked.kept hdelivered
  · intro hlate
    obtain ⟨pieces, code, message, t, d, i, g, c, e, rfl⟩ := frames_of_late hanswer hlate
    have hfailed := htracked.dropped hdelivered
    refine ⟨hfailed, ?_⟩
    intro hshown shown hkept
    obtain ⟨turn, hturn, hid⟩ := (hkept.shown hshown).2
    have hsent := hkept.customer turn hturn hid
    rw [hfailed turn hturn hid] at hsent
    exact nomatch hsent

/-! ## A greeting, recorded and not -/

/-- A model that greets, asked without a database. -/
private def greeting : Env := .plain
  {
    intentAnalysis := fun _ _ => .error llmError
    groundedModelAnswer := fun _ _ => .error llmError
    agentDecision := fun _ _ => .error llmError
    streamText := fun _ => ([lit "hi"], none) }
  .refusing (.default false)

private def hello : Text := ⟨lit "hello", by decide⟩

private def untouched : RequestState := .start ⟨[], [], [], [], [], []⟩

/-- The screen after some events. -/
private def after (es : List ScreenEvent) : Screen :=
  ((conversationScreen none).run es).getD
    { realtime := .init, conversation := .init none, delivered := [] }

/-- A conversation is started, and a socket opened. -/
private def opening : List ScreenEvent :=
  [.conversation .start, .conversation (.started 0 (.ok "00000000-0000-0000-0000-000000000000")),
    .realtime (.mountEffect true false true), .realtime (.opened 0)]

private def asking : List ScreenEvent := opening ++ [.send "hello"]

/-- The server sends frames, and each is delivered. -/
private def sends (frames : List ServerFrame) : List ScreenEvent :=
  frames.flatMap fun f => [.realtime (.serve 0 f), .realtime (.deliver 0)]

private def zero : Uuid := .repeated 0

/-- What is sent where the greeting is recorded. -/
private def recordedFrames : List ServerMessage :=
  [.delta (lit "hi"), .complete (lit "hi") 1 (some zero) false [] false]

private def recordedWire : List ServerFrame :=
  [.delta "hi", .complete "hi" (some "00000000-0000-0000-0000-000000000000") (some false) (some [])
    (some false)]

/-- A recorder that takes every turn. -/
private def diligent : TurnRecorder := fun _ _ _ => pure ()

/-- A recorder that loses the database once the customer's turn is stored. -/
private def forgetful : TurnRecorder := fun _ role _ =>
  match role with
  | .customer => pure ()
  | .assistant => throw .sqlalchemy

/-- The recorded run disturbs nothing. -/
private theorem recorded_meets :
    (conversationScreen none).Meets (Undisturbed 0) (after asking) (sends recordedWire) := by
  refine ⟨trivial, fun s₁ h₁ => ⟨?_, fun s₂ h₂ => ⟨trivial, fun s₃ h₃ => ⟨?_, fun _ _ => trivial⟩⟩⟩⟩
  · intro _ m hm hterminal
    obtain rfl := Option.some.inj h₁
    obtain rfl := Option.some.inj hm
    rfl
  · intro _ m hm hterminal
    obtain rfl := Option.some.inj h₁
    obtain rfl := Option.some.inj h₂
    obtain rfl := Option.some.inj h₃
    obtain rfl := Option.some.inj hm
    rfl

/-- A greeting that is recorded stays on screen. -/
theorem answer_kept_greeting :
    (conversationScreen none).runFrom (after asking) (sends recordedWire) =
      some (after (asking ++ sends recordedWire)) ∧
    Kept (nextQuestion (after opening)) "hi" (after (asking ++ sends recordedWire)) := by
  have hrun : (conversationScreen none).runFrom (after asking) (sends recordedWire) =
      some (after (asking ++ sends recordedWire)) := rfl
  have hanswer : answerFrom (some diligent) none hello (some zero) greeting untouched =
      (.ok recordedFrames, untouched.sendPrompt (prosePrompt hello)) := rfl
  have hdelivered : wireList wire recordedFrames = some ((nextQuestion (after opening)).own
      (after (asking ++ sends recordedWire))) := rfl
  have hrecorded : ¬ LateFailure (some diligent) none hello (some zero) greeting untouched := by
    rintro ⟨-, pieces, w₁, -, -, hno⟩
    exact hno fun id _ => ⟨diligent, _, rfl, rfl⟩
  have hasked : (after opening).step (.send "hello") = some (after asking) := rfl
  have hkept := answer_kept (Machine.reachable_of_run (M := conversationScreen none) opening rfl)
    hasked rfl recorded_meets hrun hanswer hdelivered
    (List.mem_cons_of_mem _ List.mem_cons_self)
  obtain ⟨shown, hshown, hkept⟩ := hkept.1 hrecorded
  obtain rfl : "hi" = shown := Option.some.inj hshown
  exact ⟨hrun, hkept⟩

private def lostFrames : List ServerMessage :=
  [.delta (lit "hi"),
    .error (lit "realtime_turn_not_recorded") (lit "The exchange could not be recorded."),
    .complete (lit "hi") 1 (some zero) false [] false]

private def lostWire : List ServerFrame :=
  [.delta "hi", .error "realtime_turn_not_recorded" "The exchange could not be recorded.",
    .complete "hi" (some "00000000-0000-0000-0000-000000000000") (some false) (some [])
      (some false)]

/-- An answer that cannot be recorded is completed by the server, and its turn is failed by the
    client. -/
theorem late_failure_retracts :
    ∃ w' s, answerFrom (some forgetful) none hello (some zero) greeting untouched =
        (.ok lostFrames, w') ∧
      (conversationScreen none).runFrom (after asking) (sends lostWire) = some s ∧
      wireList wire lostFrames = some ((nextQuestion (after opening)).own s) ∧
      .complete (lit "hi") 1 (some zero) false [] false ∈ lostFrames ∧
      (nextQuestion (after opening)).completions s.realtime = [] ∧
      s.conversation.turns.map (·.status) = [.failed, .failed] := by
  refine ⟨_, _, rfl, rfl, rfl, ?_, rfl, rfl⟩
  simp [lostFrames]

end NexaAssist.Spec.AnswerKept
