import NexaAssist.Spec.AnswerKept

/-!
# Turns settle with their question

`sending` is true from a message on until its answer, its failure, or any error frame. A
displayed turn is then settled: it is not pending, and nothing streams into it. Two things
break this: `failStream` keeps a turn that has text, and leaves it streaming, and a response
over HTTP clears `sending` though a later question may be outstanding.
-/

namespace NexaAssist.Spec.SettledTurns

open NexaAssist Frontend Frontend.Chat AnswerKept

/-- Neither pending nor streamed into. -/
def Still (turns : List Turn) : Prop :=
  ∀ turn ∈ turns, turn.status ≠ .pending ∧ turn.streaming = false

/-- While no question is outstanding, every displayed turn is settled. -/
def Settled (s : Chat) : Prop := s.sending = false → Still s.turns

/-- The step reports an error to the conversation: an error frame arrives, or the question
    that is awaited is dropped. -/
def reportsError (s : Screen) : ScreenEvent → Bool
  | .realtime (.deliver k) =>
    match s.nextFrame k with
    | some ⟨_, .error _ _⟩ => true
    | _ => false
  | .realtime (.answerTimeout _) => s.realtime.awaiting.isSome
  | .realtime (.closed _) => s.realtime.awaiting.isSome
  | _ => false

/-- A response over HTTP is to the question asked last. -/
def answersLast (s : Screen) : ScreenEvent → Bool
  | .conversation (.reply i _) =>
    s.realtime.awaiting.isNone && i + 1 = s.conversation.sends.length
  | _ => true

/-- A question fails only before its answer begins, or when the answer is not displayed, and
    a response over HTTP arrives only when no question asked after it is outstanding. -/
def Timely (s : Screen) (e : ScreenEvent) : Prop :=
  (reportsError s e = true → ∀ turn ∈ s.conversation.turns, turn.streaming = true → turn.text = "") ∧
    answersLast s e = true

instance (s : Screen) (e : ScreenEvent) : Decidable (Timely s e) :=
  inferInstanceAs (Decidable (_ ∧ _))

/-! ## Frames have their question -/

/-- What a socket carries is of questions before the `n`-th. -/
structure Numbered (n : Nat) (socket : Socket) : Prop where
  asks : ∀ a ∈ socket.asks, a.number < n
  inbox : ∀ m ∈ socket.inbox, isComplete m.frame = true → ∃ q < n, m.source = some q

def Sourced (w : World) : Prop := ∀ k, Numbered w.asked (w.sockets k)

/-- A new socket has no frame yet. -/
theorem numbered_new (n mount : Nat) : Numbered n (.new mount) where
  asks := nofun
  inbox := nofun

section Sourced

variable {w w' : World}

/-- `Sourced` is kept when a numbered socket is set. -/
theorem Sourced.setSocket (h : Sourced w) (k : Nat) {socket : Socket}
    (hsocket : Numbered w.asked socket) : Sourced (w.setSocket k socket) := by
  intro j
  show Numbered w.asked (if j = k then socket else w.sockets j)
  split
  · exact hsocket
  · exact h j

/-- `Sourced` is kept by a step after which no socket carries more than before. -/
theorem Sourced.keeps (h : Sourced w) (k : Nat) {socket : Socket}
    (hasks : socket.asks ⊆ (w.sockets k).asks) (hinbox : socket.inbox ⊆ (w.sockets k).inbox) :
    Sourced (w.setSocket k socket) :=
  h.setSocket k ⟨fun a ha => (h k).asks a (hasks ha), fun m hm => (h k).inbox m (hinbox hm)⟩

/-- `Sourced` is kept by `openSocket`. -/
theorem Sourced.openSocket (h : Sourced w) (mount : Nat) (creates : Bool) :
    Sourced (w.openSocket mount creates) := by
  unfold World.openSocket
  split
  · exact h
  · split
    · exact h
    · exact h.setSocket w.created (numbered_new w.asked mount)

/-- `Sourced` is kept by `connect`. -/
theorem Sourced.connect (h : Sourced w) (mount : Nat) (hasTicketSource creates : Bool) :
    Sourced (w.connect mount hasTicketSource creates) := by
  unfold World.connect
  split
  · exact h
  · exact h.openSocket mount creates

/-- The sockets stay numbered when some are closed. -/
theorem Sourced.closing (h : Sourced w) (ref : Option Nat) :
    ∀ k, Numbered w.asked (w.socketsClosing ref k) := by
  cases ref with
  | none => exact h
  | some k => exact h.keeps k (List.Subset.refl _) (List.Subset.refl _)

/-- `Sourced` is kept by `onmessage`. -/
theorem Sourced.onmessage (h : Sourced w) (source : Option Nat) (frame : ServerFrame) :
    Sourced (w.onmessage source frame) := by
  cases frame with
  | delta text =>
    simp only [World.onmessage]
    split <;> exact h
  | complete text conversationId grounded citations escalated =>
    simp only [World.onmessage]
    split <;> exact h
  | error code message => exact h
  | ready connectionId version => exact h
  | pong => exact h
  | unrecognised raw => exact h

/-- `Sourced` is kept by `onclose`. -/
theorem Sourced.onclose (h : Sourced w) (mount : Nat) : Sourced (w.onclose mount) := by
  simp only [World.onclose]
  split
  · exact h
  · split <;> exact h

/-- `Sourced` is kept by `ask`, which takes the next number. -/
theorem Sourced.ask (h : Sourced w) (question : String) (conversationId : Option String) :
    Sourced (w.ask question conversationId).2 := by
  unfold World.ask
  split
  · exact h
  · split
    · exact h
    · next k htarget =>
      have hmore : ∀ j, Numbered (w.asked + 1) (w.sockets j) := by
        intro j
        refine ⟨fun a ha => ?_, fun m hm hcomplete => ?_⟩
        · have := (h j).asks a ha
          omega
        · obtain ⟨q, hq, hsource⟩ := (h j).inbox m hm hcomplete
          exact ⟨q, by omega, hsource⟩
      intro j
      show Numbered (w.asked + 1) (if j = k then _ else w.sockets j)
      split
      · refine ⟨fun a ha => ?_, (hmore k).inbox⟩
        dsimp only at ha
        split at ha
        · rcases List.mem_append.1 ha with ha | ha
          · exact (hmore k).asks a ha
          · rw [List.mem_singleton] at ha
            rw [ha]
            exact Nat.lt_succ_self _
        · exact (hmore k).asks a ha
      · exact hmore j

/-- `Sourced` is kept by every step of the world. -/
theorem Sourced.step {e : RealtimeEvent} (h : Sourced w) (hstep : w.step e = some w') :
    Sourced w' := by
  cases e with
  -- A new socket carries neither questions nor frames
  | mountEffect enabled hasTicketSource creates =>
    simp only [World.step, World.mountEffect] at hstep
    split at hstep
    · exact nomatch hstep
    · split at hstep
      · exact Option.some.inj hstep ▸ h
      · have hw : Sourced { w with
            effect := some true, mounts := w.mounts + 1, closedByUs := false } := h
        exact Option.some.inj hstep ▸ hw.connect _ _ _
  | cleanup =>
    simp only [World.step, World.cleanup] at hstep
    split at hstep
    · exact nomatch hstep
    · exact Option.some.inj hstep ▸ h
    · exact Option.some.inj hstep ▸ h.closing w.socketRef
  | ticket i granted creates =>
    simp only [World.step, World.ticketArrives] at hstep
    split at hstep
    · exact nomatch hstep
    · cases granted with
      | false => exact Option.some.inj hstep ▸ h
      | true =>
        have hw : Sourced { w with tickets := w.tickets.eraseIdx i } := h
        exact Option.some.inj hstep ▸ hw.openSocket _ _
  | reconnect handle hasTicketSource creates =>
    simp only [World.step, World.reconnectFires] at hstep
    split at hstep
    · exact nomatch hstep
    · have hw : Sourced { w with reconnects := w.reconnectsWithout (some handle) } := h
      exact Option.some.inj hstep ▸ hw.connect _ _ _
  -- Opening, delivering and closing only take away from what a socket carries
  | opened k =>
    simp only [World.step, World.onopen] at hstep
    split at hstep
    · exact Option.some.inj hstep ▸ h.keeps k (List.Subset.refl _) (List.Subset.refl _)
    · exact nomatch hstep
  | deliver k =>
    simp only [World.step, World.deliver] at hstep
    split at hstep
    · next message rest hopened hinbox =>
      have hrest : rest ⊆ (w.sockets k).inbox := by
        rw [hinbox]
        exact List.subset_cons_self _ _
      have hw : Sourced (w.setSocket k { w.sockets k with inbox := rest }) :=
        h.keeps k (List.Subset.refl _) hrest
      exact Option.some.inj hstep ▸ hw.onmessage _ _
    · exact nomatch hstep
  | closing k =>
    simp only [World.step, World.closingStarts] at hstep
    split at hstep
    · exact Option.some.inj hstep ▸ h.keeps k (List.Subset.refl _) (List.Subset.refl _)
    · exact Option.some.inj hstep ▸ h.keeps k (List.Subset.refl _) (List.Subset.refl _)
    · exact nomatch hstep
  | closed k =>
    simp only [World.step, World.closeEvent] at hstep
    split at hstep
    · exact nomatch hstep
    · have hw : Sourced (w.setSocket k { w.sockets k with readyState := .closed }) :=
        h.keeps k (List.Subset.refl _) (List.Subset.refl _)
      exact Option.some.inj hstep ▸ hw.onclose _
  | ask question conversationId =>
    exact Option.some.inj hstep ▸ h.ask question conversationId
  | answerTimeout handle =>
    simp only [World.step, World.answerTimeout] at hstep
    split at hstep
    · split at hstep
      · exact Option.some.inj hstep ▸ h
      · exact Option.some.inj hstep ▸ h
    · exact nomatch hstep
  | serve k frame =>
    simp only [World.step, World.serve] at hstep
    split at hstep
    · exact nomatch hstep
    · next ask rest hasks =>
      refine Option.some.inj hstep ▸ h.setSocket k ⟨(h k).asks, fun m hm hcomplete => ?_⟩
      rcases List.mem_append.1 hm with hm | hm
      · exact (h k).inbox m hm hcomplete
      · rw [List.mem_singleton] at hm
        rw [hm]
        exact ⟨ask.number, (h k).asks ask (by rw [hasks]; exact List.mem_cons_self), rfl⟩
  | serverFinishes k =>
    simp only [World.step, World.serverFinishes] at hstep
    split at hstep
    · exact nomatch hstep
    · next ask rest hasks =>
      refine Option.some.inj hstep ▸ h.keeps k ?_ (List.Subset.refl _)
      rw [hasks]
      exact List.subset_cons_self _ _
  | greet k connectionId =>
    simp only [World.step, World.greet] at hstep
    split at hstep
    · refine Option.some.inj hstep ▸ h.setSocket k ⟨(h k).asks, fun m hm hcomplete => ?_⟩
      rcases List.mem_append.1 hm with hm | hm
      · exact (h k).inbox m hm hcomplete
      · rw [List.mem_singleton] at hm
        rw [hm] at hcomplete
        exact nomatch hcomplete
    · exact nomatch hstep
  | serverStops k =>
    exact Option.some.inj hstep ▸ h.keeps k (List.nil_subset _) (List.Subset.refl _)

end Sourced

/-- A question that is dropped was awaited, and is awaited no more. -/
theorem dropped_cases {w w' : World} {e : RealtimeEvent}
    (h : (∃ handle, e = .answerTimeout handle) ∨ ∃ k, e = .closed k) (hstep : w.step e = some w') :
    w'.awaiting = none ∧ (w.awaiting = none ∧ w'.handed = w.handed ∨
      w.awaiting.isSome ∧ ∃ code message, w'.handed = w.handed ++ [{
        call := .onError code message, awaited := w.awaiting, source := none }]) := by
  -- Both report to the awaited question, if there is one, and await none from then on
  rcases h with ⟨handle, rfl⟩ | ⟨k, rfl⟩
  · simp only [World.step, World.answerTimeout] at hstep
    split at hstep
    · split at hstep
      · next hnone =>
        have hnone : w.awaiting = none := by simpa using hnone
        exact Option.some.inj hstep ▸ ⟨hnone, .inl ⟨hnone, rfl⟩⟩
      · next hsome =>
        have hsome : w.awaiting.isSome := by simpa [Option.isSome_iff_ne_none] using hsome
        exact Option.some.inj hstep ▸ ⟨rfl, .inr ⟨hsome, _, _, rfl⟩⟩
    · exact nomatch hstep
  · simp only [World.step, World.closeEvent] at hstep
    split at hstep
    · exact nomatch hstep
    · have hclosed : ∀ (v : World) (mount : Nat), v.awaiting = w.awaiting → v.handed = w.handed →
          (v.onclose mount).awaiting = none ∧
          (w.awaiting = none ∧ (v.onclose mount).handed = w.handed ∨
            w.awaiting.isSome ∧ ∃ code message, (v.onclose mount).handed = w.handed ++ [{
              call := .onError code message, awaited := w.awaiting, source := none }]) := by
        intro v mount hawaiting hhanded
        have hquiet : (v.onclose mount).awaiting = none ∧
            (v.onclose mount).handed = v.dropQuestion.handed := by
          simp only [World.onclose]
          split
          · exact ⟨rfl, rfl⟩
          · split <;> exact ⟨rfl, rfl⟩
        rw [hquiet.2]
        refine ⟨hquiet.1, ?_⟩
        simp only [World.dropQuestion, hawaiting, hhanded]
        cases w.awaiting with
        | none => exact .inl ⟨rfl, rfl⟩
        | some n => exact .inr ⟨rfl, _, _, rfl⟩
      exact Option.some.inj hstep ▸ hclosed _ _ rfl rfl

/-! ## What becomes of the turns -/

section Turns

variable {s : Chat}

/-- Only the turn that is streamed into is streaming, and it is displayed only while there is
    a stream. -/
def Streaming (s : Chat) : Prop :=
  ∀ turn ∈ s.turns, (turn.streaming = true → some turn.id = s.streamingId) ∧
    (turn.status = .pending → s.streamingId.isSome)

/-- Where no turn streams, the streaming turns are as they should be. -/
theorem Still.streaming (h : Still s.turns) : Streaming s := by
  intro turn hturn
  obtain ⟨hstatus, hstreaming⟩ := h turn hturn
  exact ⟨fun hyes => absurd (hstreaming.symm.trans hyes) Bool.false_ne_true,
    fun hpending => absurd hpending hstatus⟩

/-- `failStream` leaves no turn streaming. -/
theorem failStream_still (message : String)
    (h : ∀ turn ∈ s.turns, turn.streaming = true → some turn.id = s.streamingId ∧ turn.text = "") :
    Still (s.failStream message).turns := by
  intro turn' hturn'
  obtain ⟨turn, hturn, rfl⟩ := List.mem_map.1 hturn'
  obtain ⟨hmem, hkept⟩ := List.mem_filter.1 hturn
  have hstill : turn.streaming = false := by
    by_contra hstreaming
    obtain ⟨hid, htext⟩ := h turn hmem (by simpa using hstreaming)
    simp [hid, htext] at hkept
  split
  · exact ⟨nofun, hstill⟩
  · next hstatus => exact ⟨hstatus, hstill⟩

/-- `completeStream` leaves no other turn streaming. -/
theorem completeStream_still (ask : StreamAsk) (text : String) (result : StreamResult)
    (h : Streaming s) : Still (s.completeStream ask text result).turns := by
  simp only [Chat.completeStream]
  cases htarget : s.streamingId with
  | none =>
    intro turn hturn
    obtain ⟨hstreaming, hpending⟩ := h turn hturn
    rw [htarget] at hstreaming hpending
    refine ⟨fun hstatus => absurd (hpending hstatus) Bool.false_ne_true, ?_⟩
    by_contra hyes
    exact nomatch hstreaming (by simpa using hyes)
  | some target =>
    intro turn' hturn'
    obtain ⟨turn, hturn, rfl⟩ := List.mem_map.1 hturn'
    obtain ⟨hstreaming, -⟩ := h turn hturn
    rw [htarget] at hstreaming
    unfold Chat.completeTurn
    split
    · exact ⟨nofun, rfl⟩
    · next hother =>
      have hstill : turn.streaming = false := by
        by_contra hyes
        exact hother (Option.some.inj (hstreaming (by simpa using hyes)))
      split
      · exact ⟨nofun, hstill⟩
      · next hstatus => exact ⟨hstatus, hstill⟩

/-- `completeStream` ends the sending. -/
theorem completeStream_sending (ask : StreamAsk) (text : String) (result : StreamResult) :
    (s.completeStream ask text result).sending = false := by
  simp only [Chat.completeStream]
  split <;> rfl

/-- `appendDelta` changes no turn's status. -/
theorem appendDelta_same (ask : StreamAsk) (text : String) :
    (s.appendDelta ask text).sending = s.sending ∧ (s.appendDelta ask text).sends = s.sends ∧
      (s.appendDelta ask text).streamingId = s.streamingId ∧
      ∀ turn' ∈ (s.appendDelta ask text).turns, ∃ turn ∈ s.turns, turn'.id = turn.id ∧
        turn'.status = turn.status ∧ turn'.streaming = turn.streaming := by
  simp only [Chat.appendDelta]
  split
  · exact ⟨rfl, rfl, rfl, fun turn hturn => ⟨turn, hturn, rfl, rfl, rfl⟩⟩
  · refine ⟨rfl, rfl, rfl, fun turn' hturn' => ?_⟩
    obtain ⟨turn, hturn, rfl⟩ := List.mem_map.1 hturn'
    refine ⟨turn, hturn, ?_⟩
    split <;> exact ⟨rfl, rfl, rfl⟩

/-- What a selection does: it shows other turns, all settled, or none. -/
structure Selects (s s' : Chat) : Prop where
  sending : s'.sending = s.sending
  sends : s'.sends = s.sends
  asks : s'.asks = s.asks
  turns : s'.turns = s.turns ∧ s'.streamingId = s.streamingId ∨ Still s'.turns

/-- A history has no streaming turn. -/
theorem still_toTurn (origin : Origin) (messages : List Frontend.ConversationMessage) :
    Still (messages.map (toTurn origin)) := by
  intro turn hturn
  obtain ⟨message, -, rfl⟩ := List.mem_map.1 hturn
  exact ⟨nofun, rfl⟩

/-- A step that is none of a stream selects a conversation or notes something. -/
theorem selects_of_step {s' : Chat} {e : ChatEvent}
    (hsend : ∀ text streams, e ≠ .send text streams)
    (hreply : ∀ i response, e ≠ .reply i response)
    (hdelta : ∀ n text, e ≠ .delta n text) (hcomplete : ∀ n text result, e ≠ .complete n text result)
    (herror : ∀ message, e ≠ .streamError message) (hstep : s.step e = some s') : Selects s s' := by
  have hsame : Selects s s := ⟨rfl, rfl, rfl, .inl ⟨rfl, rfl⟩⟩
  cases e with
  | send text streams => exact absurd rfl (hsend text streams)
  | reply i response => exact absurd rfl (hreply i response)
  | delta n text => exact absurd rfl (hdelta n text)
  | complete n text result => exact absurd rfl (hcomplete n text result)
  | streamError message => exact absurd rfl (herror message)
  | resume =>
    obtain rfl := Option.some.inj hstep
    simp only [Chat.resume]
    split
    · exact hsame
    · split
      · exact ⟨rfl, rfl, rfl, .inl ⟨rfl, rfl⟩⟩
      · split <;> exact ⟨rfl, rfl, rfl, .inl ⟨rfl, rfl⟩⟩
  | loadHistory id => exact Option.some.inj hstep ▸ ⟨rfl, rfl, rfl, .inl ⟨rfl, rfl⟩⟩
  | start => exact Option.some.inj hstep ▸ ⟨rfl, rfl, rfl, .inl ⟨rfl, rfl⟩⟩
  | reset => exact Option.some.inj hstep ▸ ⟨rfl, rfl, rfl, .inr (List.forall_mem_nil _)⟩
  -- The events that show another conversation leave no turn of the last one
  | history i response =>
    simp only [Chat.step] at hstep
    split at hstep
    · next number id hselecting =>
      obtain rfl := Option.some.inj hstep
      cases response with
      | ok messages => exact ⟨rfl, rfl, rfl, .inr (still_toTurn _ messages)⟩
      | error caught =>
        cases caught with
        | other => exact ⟨rfl, rfl, rfl, .inl ⟨rfl, rfl⟩⟩
        | api code message status =>
          simp only [Chat.historyArrives]
          split
          · exact ⟨rfl, rfl, rfl, .inr (List.forall_mem_nil _)⟩
          · exact ⟨rfl, rfl, rfl, .inl ⟨rfl, rfl⟩⟩
    · cases hstep
  | started i response =>
    simp only [Chat.step] at hstep
    split at hstep
    · obtain rfl := Option.some.inj hstep
      cases response with
      | ok id => exact ⟨rfl, rfl, rfl, .inr (List.forall_mem_nil _)⟩
      | error caught => exact ⟨rfl, rfl, rfl, .inl ⟨rfl, rfl⟩⟩
    · cases hstep

end Turns

/-! ## The invariant -/

structure Inv (s : Screen) : Prop where
  sourced : Sourced s.realtime
  asks : s.conversation.asks.length = s.realtime.asked
  free : s.conversation.sending = false → s.realtime.awaiting = none
  settled : Settled s.conversation
  /-- The message outstanding over HTTP is the last one sent, and has the pending turn. -/
  overHttp : s.conversation.sending = true → s.realtime.awaiting = none →
    ∃ request, s.conversation.sends.getLast? = some request ∧
      ∀ turn ∈ s.conversation.turns, turn.streaming = false ∧
        (turn.status = .pending → turn.id = request.pendingId)
  streamed : s.realtime.awaiting.isSome → Streaming s.conversation

section Steps

variable {s s' : Screen}

/-- `failStream` settles the turns while nothing is streamed into them. -/
theorem Inv.unstreamed (h : Inv s) (hawaiting : s.realtime.awaiting = none) :
    ∀ turn ∈ s.conversation.turns, turn.streaming = false := by
  intro turn hturn
  cases hsending : s.conversation.sending with
  | false => exact (h.settled hsending turn hturn).2
  | true =>
    obtain ⟨request, -, hturns⟩ := h.overHttp hsending hawaiting
    exact (hturns turn hturn).1

/-- `Inv` is kept when the outstanding question, or the message over HTTP, has ended. -/
theorem Inv.ends (hsourced : Sourced s.realtime)
    (hasks : s.conversation.asks.length = s.realtime.asked) (hawaiting : s.realtime.awaiting = none)
    (hsending : s.conversation.sending = false) (hstill : Still s.conversation.turns) : Inv s where
  sourced := hsourced
  asks := hasks
  free _ := hawaiting
  settled _ := hstill
  overHttp hsends := absurd (hsending.symm.trans hsends) Bool.false_ne_true
  streamed hsome := by
    rw [hawaiting] at hsome
    exact nomatch hsome

/-- `Inv` is kept by an error that ends the outstanding question. -/
theorem Inv.fails (h : Inv s) (hsourced : Sourced s'.realtime)
    (hasked : s'.realtime.asked = s.realtime.asked) (hawaiting : s'.realtime.awaiting = none)
    {message : String} (hconversation : s'.conversation = s.conversation.failStream message)
    (htext : ∀ turn ∈ s.conversation.turns, turn.streaming = true → turn.text = "") : Inv s' := by
  have hstill : Still (s.conversation.failStream message).turns := by
    apply failStream_still
    intro turn hturn hstreaming
    refine ⟨?_, htext turn hturn hstreaming⟩
    cases hquestion : s.realtime.awaiting with
    | none =>
      have hstill := h.unstreamed hquestion turn hturn
      exact absurd (hstill.symm.trans hstreaming) Bool.false_ne_true
    | some n => exact (h.streamed (by rw [hquestion]; rfl) turn hturn).1 hstreaming
  apply Inv.ends hsourced
  · rw [hconversation, hasked]
    exact h.asks
  · exact hawaiting
  · rw [hconversation]
    rfl
  · rw [hconversation]
    exact hstill

/-- `Inv` is kept by a step in which nothing that ends a question happens. -/
theorem Inv.moves (h : Inv s) (hsourced : Sourced s'.realtime)
    (hasked : s'.realtime.asked = s.realtime.asked)
    (hawaiting : s'.realtime.awaiting = s.realtime.awaiting)
    (hasks : s'.conversation.asks = s.conversation.asks)
    (hsending : s'.conversation.sending = s.conversation.sending)
    (hsends : s'.conversation.sends = s.conversation.sends)
    (hid : s'.conversation.streamingId = s.conversation.streamingId)
    (hturns : ∀ turn' ∈ s'.conversation.turns, ∃ turn ∈ s.conversation.turns,
      turn'.id = turn.id ∧ turn'.status = turn.status ∧ turn'.streaming = turn.streaming) :
    Inv s' where
  sourced := hsourced
  asks := (congrArg List.length hasks).trans (h.asks.trans hasked.symm)
  free hfree := hawaiting.trans (h.free (hsending.symm.trans hfree))
  settled hfree turn' hturn' := by
    obtain ⟨turn, hturn, -, hstatus, hstreaming⟩ := hturns turn' hturn'
    rw [hstatus, hstreaming]
    exact h.settled (hsending.symm.trans hfree) turn hturn
  overHttp hbusy hnone := by
    obtain ⟨request, hlast, hshown⟩ :=
      h.overHttp (hsending.symm.trans hbusy) (hawaiting.symm.trans hnone)
    refine ⟨request, hsends ▸ hlast, fun turn' hturn' => ?_⟩
    obtain ⟨turn, hturn, hsame, hstatus, hstreaming⟩ := hturns turn' hturn'
    rw [hsame, hstatus, hstreaming]
    exact hshown turn hturn
  streamed hsome turn' hturn' := by
    obtain ⟨turn, hturn, hsame, hstatus, hstreaming⟩ := hturns turn' hturn'
    rw [hid, hsame, hstatus, hstreaming]
    exact h.streamed (hawaiting ▸ hsome) turn hturn

/-- `Inv` is kept while the chat stays as it is. -/
theorem Inv.same (h : Inv s) (hsourced : Sourced s'.realtime)
    (hasked : s'.realtime.asked = s.realtime.asked)
    (hawaiting : s'.realtime.awaiting = s.realtime.awaiting)
    (hconversation : s'.conversation = s.conversation) : Inv s' := by
  apply h.moves hsourced hasked hawaiting <;> rw [hconversation]
  exact fun turn hturn => ⟨turn, hturn, rfl, rfl, rfl⟩

/-- `Inv` is kept by a step that selects a conversation. -/
theorem Inv.selects (h : Inv s) (hrealtime : s'.realtime = s.realtime)
    (hselects : Selects s.conversation s'.conversation) : Inv s' := by
  obtain ⟨hsending, hsends, hasks, ⟨hturns, hid⟩ | hstill⟩ := hselects
  · apply h.moves (hrealtime ▸ h.sourced) (by rw [hrealtime]) (by rw [hrealtime]) hasks hsending
      hsends hid
    exact fun turn hturn => ⟨turn, hturns ▸ hturn, rfl, rfl, rfl⟩
  · refine ⟨hrealtime ▸ h.sourced, ?_, ?_, ?_, ?_, ?_⟩
    · rw [hasks, hrealtime]
      exact h.asks
    · rw [hrealtime]
      exact fun hfree => h.free (hsending.symm.trans hfree)
    · exact fun _ => hstill
    · intro hbusy hnone
      rw [hrealtime] at hnone
      obtain ⟨request, hlast, -⟩ := h.overHttp (hsending.symm.trans hbusy) hnone
      refine ⟨request, hsends ▸ hlast, fun turn hturn => ?_⟩
      obtain ⟨hstatus, hstreaming⟩ := hstill turn hturn
      exact ⟨hstreaming, fun hpending => absurd hpending hstatus⟩
    · exact fun _ => hstill.streaming

/-- `replyArrives` leaves the other turns and the questions. -/
theorem replyArrives_cases (s : Chat) (request : HttpSend) (response : Except Caught Reply) :
    (s.replyArrives request response).sending = false ∧
      (s.replyArrives request response).asks = s.asks ∧ ∃ status ≠ TurnStatus.pending,
        ∀ turn ∈ (s.replyArrives request response).turns,
          turn ∈ setStatus s.turns request.pendingId status ∨
            turn.status ≠ .pending ∧ turn.streaming = false := by
  cases response with
  | ok reply =>
    refine ⟨rfl, (adopt_fields s reply.conversationId request.conversationId).2.2.2, .sent, nofun,
      fun turn hturn => ?_⟩
    rcases List.mem_append.1 hturn with hturn | hturn
    · exact .inl hturn
    · rw [List.mem_singleton] at hturn
      rw [hturn]
      exact .inr ⟨nofun, rfl⟩
  | error caught => exact ⟨rfl, rfl, .failed, nofun, fun turn hturn => .inl hturn⟩

/-- `Inv` is kept by the response to the last message sent over HTTP. -/
theorem Inv.replies (h : Inv s) {i : Nat} {request : HttpSend} {response : Except Caught Reply}
    (hget : s.conversation.sends[i]? = some request)
    (hawaiting : s.realtime.awaiting = none) (hlast : i + 1 = s.conversation.sends.length)
    (hrealtime : s'.realtime = s.realtime)
    (hconversation : s'.conversation = Chat.replyArrives
      { s.conversation with sends := s.conversation.sends.eraseIdx i } request response) :
    Inv s' := by
  have hrequest : s.conversation.sends.getLast? = some request := by
    rw [List.getLast?_eq_getElem?, ← hlast]
    exact hget
  obtain ⟨hsending, hasks, status, hstatus, hturns⟩ := replyArrives_cases
    { s.conversation with sends := s.conversation.sends.eraseIdx i } request response
  rw [← hconversation] at hsending hasks hturns
  apply Inv.ends (hrealtime ▸ h.sourced)
  · rw [hasks, hrealtime]
    exact h.asks
  · rw [hrealtime, hawaiting]
  · exact hsending
  intro turn' hturn'
  rcases hturns turn' hturn' with hold | hnew
  · -- the pending turn was the one of this message
    obtain ⟨turn, hturn, rfl⟩ := List.mem_map.1 hold
    have hstill := h.unstreamed hawaiting turn hturn
    split
    · exact ⟨hstatus, hstill⟩
    · next hother =>
      refine ⟨fun hpending => ?_, hstill⟩
      cases hbusy : s.conversation.sending with
      | false => exact (h.settled hbusy turn hturn).1 hpending
      | true =>
        obtain ⟨last, hlast', hshown⟩ := h.overHttp hbusy hawaiting
        rw [hrequest] at hlast'
        exact hother (Option.some.inj hlast' ▸ (hshown turn hturn).2 hpending)
  · exact hnew

/-- `send` leaves the frames with their sources. -/
theorem send_sourced (h : Sourced s.realtime) (text : String) : Sourced (s.send text).realtime := by
  unfold Screen.send
  split
  · exact h
  · by_cases hready : s.realtime.state = .opened
    · rw [if_pos hready]
      exact h.ask _ _
    · rw [if_neg hready]
      exact h

/-- A message sent over HTTP has a pending turn of its own. -/
theorem overHttp_turns (s : Chat) (text : String)
    (h : (jsTrim text).isEmpty = false ∧ s.sending = false) :
    (s.send text false).sending = true ∧ ∃ request pending,
      (s.send text false).sends = s.sends ++ [request] ∧
      (s.send text false).turns = s.turns ++ [pending] ∧
      pending.id = request.pendingId ∧ pending.streaming = false := by
  unfold Chat.send
  dsimp only
  rw [h.1, h.2]
  exact ⟨rfl, _, _, rfl, rfl, rfl, rfl⟩

/-- A message put on the socket has a pending turn of its own, and an empty one that its answer is
    streamed into. -/
theorem streamed_turns (s : Chat) (text : String)
    (h : (jsTrim text).isEmpty = false ∧ s.sending = false) :
    (s.send text true).sending = true ∧ ∃ pending reply,
      (s.send text true).turns = s.turns ++ [pending, reply] ∧
      (s.send text true).streamingId = some reply.id ∧ pending.streaming = false := by
  unfold Chat.send
  dsimp only
  rw [h.1, h.2]
  refine ⟨rfl, s.pendingTurn (jsTrim text), { s with counter := s.counter + 1 }.placeholder, ?_,
    rfl, rfl⟩
  simp only [Bool.or_self, Bool.false_eq_true, if_false, if_true, List.append_assoc]
  rfl

/-- `Inv` is kept by `send`, which accepts a message only while nothing is outstanding. -/
theorem Inv.sends (h : Inv s) {text : String} (hasked : Asked s s' text)
    (hsourced : Sourced s'.realtime) : Inv s' := by
  cases hasked with
  | ignored hsame => exact hsame ▸ h
  -- The one pending turn is that of the new request
  | overHttp hrealtime hdelivered haccepted hconversation =>
    have hasks := (send_overHttp s.conversation text haccepted).1
    obtain ⟨hsending, request, pending, hsends, hturns, hid, hstreaming⟩ :=
      overHttp_turns s.conversation text haccepted
    rw [← hconversation] at hasks hsending hsends hturns
    have hfree := h.free haccepted.2
    have hstill := h.settled haccepted.2
    refine ⟨hsourced, by rw [hasks, hrealtime]; exact h.asks, ?_, ?_, ?_, ?_⟩
    · exact fun hno => absurd (hno.symm.trans hsending) Bool.false_ne_true
    · exact fun hno => absurd (hno.symm.trans hsending) Bool.false_ne_true
    · intro _ _
      refine ⟨request, by rw [hsends, List.getLast?_concat], fun turn hturn => ?_⟩
      rw [hturns, List.mem_append, List.mem_singleton] at hturn
      rcases hturn with hturn | rfl
      · obtain ⟨hstatus, hquiet⟩ := hstill turn hturn
        exact ⟨hquiet, fun hpending => absurd hpending hstatus⟩
      · exact ⟨hstreaming, fun _ => hid⟩
    · intro hsome
      rw [hrealtime, hfree] at hsome
      exact nomatch hsome
  -- The one streaming turn is the placeholder of the new question
  | streamed hfree hawaiting hasked hhanded hdelivered haccepted hconversation =>
    have hasks := (send_streamed s.conversation text haccepted).1
    obtain ⟨hsending, pending, reply, hturns, hid, hstreaming⟩ :=
      streamed_turns s.conversation text haccepted
    rw [← hconversation] at hasks hsending hturns hid
    have hstill := h.settled haccepted.2
    refine ⟨hsourced, by rw [hasks, hasked, h.asks], ?_, ?_, ?_, ?_⟩
    · exact fun hno => absurd (hno.symm.trans hsending) Bool.false_ne_true
    · exact fun hno => absurd (hno.symm.trans hsending) Bool.false_ne_true
    · intro _ hnone
      exact nomatch hawaiting.symm.trans hnone
    · intro _ turn hturn
      rw [hturns, List.mem_append, List.mem_cons, List.mem_singleton] at hturn
      rw [hid]
      rcases hturn with hturn | rfl | rfl
      · obtain ⟨hstatus, hquiet⟩ := hstill turn hturn
        exact ⟨fun hyes => absurd (hquiet.symm.trans hyes) Bool.false_ne_true, fun _ => rfl⟩
      · exact ⟨fun hyes => absurd (hstreaming.symm.trans hyes) Bool.false_ne_true, fun _ => rfl⟩
      · exact ⟨fun _ => rfl, fun _ => rfl⟩

/-- `onmessage` hands a completion over only while a question is awaited. -/
theorem complete_awaited {v : World} {source : Option Nat} {text : String}
    {conversationId : Option String} {grounded : Option Bool}
    {citations : Option (List Frontend.Citation)} {escalated : Option Bool} {handed : Handed}
    (h : (v.onmessage source (.complete text conversationId grounded citations escalated)).handed =
      v.handed ++ [handed]) : v.awaiting.isSome := by
  by_contra hnone
  simp [World.onmessage, hnone] at h

/-- `Inv` is kept by a frame that arrives. -/
theorem Inv.receives (h : Inv s) {k : Nat} (hok : Timely s (.realtime (.deliver k)))
    {m : InFlight} {v w : World} (hnext : s.nextFrame k = some m)
    (hv : v.awaiting = s.realtime.awaiting ∧ v.handed = s.realtime.handed ∧
      v.asked = s.realtime.asked) (hw : w = v.onmessage m.source m.frame) (hsourced : Sourced w)
    (hs' : s' = { s.moveTo w with delivered := s.delivered ++ [m] }) : Inv s' := by
  obtain ⟨hawaited, hhanded', hasked'⟩ := hv
  have hinbox : ∃ rest, (s.realtime.sockets k).inbox = m :: rest := by
    unfold Screen.nextFrame at hnext
    split at hnext
    · cases hin : (s.realtime.sockets k).inbox with
      | nil => simp [hin] at hnext
      | cons first rest => exact ⟨rest, by simpa [hin] using hnext⟩
    · exact nomatch hnext
  -- The answer is of a question that was put on the socket
  have hask : isComplete m.frame = true → ∃ q ask, m.source = some q ∧
      s.conversation.asks[q]? = some ask := by
    intro hcomplete
    obtain ⟨rest, hinbox⟩ := hinbox
    obtain ⟨q, hq, hsource⟩ := (h.sourced k).inbox m (by rw [hinbox]; exact List.mem_cons_self)
      hcomplete
    rw [← h.asks] at hq
    exact ⟨q, _, hsource, List.getElem?_eq_getElem hq⟩
  have hreceived := onmessage_received v m.source m.frame
  rw [← hw] at hreceived
  obtain ⟨source, frame⟩ := m
  cases hreceived with
  -- Nothing on the screen changes
  | ignored hw' hnot herror =>
    subst hw'
    have hconversation : s'.conversation = s.conversation := by
      rw [hs', moveTo_of_handed_eq hhanded']
    refine h.same ?_ ?_ ?_ hconversation <;> rw [hs']
    · exact hsourced
    · exact hasked'
    · exact hawaited
  -- A delta changes a text at most
  | @delta text hawaiting hasked hhanded =>
    rw [hhanded'] at hhanded
    rw [moveTo_of_handed_concat hhanded] at hs'
    have hconversation : s'.conversation = s.conversation ∨ ∃ ask,
        s'.conversation = s.conversation.appendDelta ask text := by
      rw [hs']
      cases source with
      | none => exact .inl rfl
      | some q =>
        simp only [Screen.handle]
        split
        · exact .inr ⟨_, rfl⟩
        · exact .inl rfl
    rcases hconversation with hconversation | ⟨ask, hconversation⟩
    · refine h.same ?_ ?_ ?_ hconversation <;> rw [hs']
      · exact hsourced
      · exact hasked.trans hasked'
      · exact hawaiting.trans hawaited
    · obtain ⟨hsending, hsends, hid, hturns⟩ := appendDelta_same (s := s.conversation) ask text
      have hasks := (appendDelta_streamed s.conversation ask text).asks
      rw [← hconversation] at hsending hsends hid hturns hasks
      refine h.moves ?_ ?_ ?_ hasks hsending hsends hid hturns <;> rw [hs']
      · exact hsourced
      · exact hasked.trans hasked'
      · exact hawaiting.trans hawaited
  -- A completion settles the streaming turn
  | @complete text conversationId grounded citations escalated result hawaiting hasked hhanded =>
    have hsome : s.realtime.awaiting.isSome := by
      rw [← hawaited]
      exact complete_awaited (hw ▸ hhanded)
    have hstreaming := h.streamed hsome
    rw [hhanded'] at hhanded
    rw [moveTo_of_handed_concat hhanded] at hs'
    obtain ⟨q, ask, hsource, hget⟩ := hask rfl
    have hsource : source = some q := hsource
    have hconversation : s'.conversation = s.conversation.completeStream ask text result := by
      rw [hs', hsource]
      simp only [Screen.handle, hget]
    have hasks := (completeStream_streamed s.conversation ask text result).asks
    have hsending := completeStream_sending (s := s.conversation) ask text result
    have hstill := completeStream_still ask text result hstreaming
    rw [← hconversation] at hasks hsending hstill
    apply Inv.ends
    · rw [hs']
      exact hsourced
    · rw [hasks, h.asks, hs']
      exact (hasked.trans hasked').symm
    · rw [hs']
      exact hawaiting
    · exact hsending
    · exact hstill
  -- An error settles it too when it is the first, as the condition says
  | @error code message hawaiting hasked hhanded =>
    rw [hhanded'] at hhanded
    rw [moveTo_of_handed_concat hhanded] at hs'
    have hconversation : s'.conversation = s.conversation.failStream message := by
      rw [hs']
      simp only [Screen.handle]
    have hfails : reportsError s (.realtime (.deliver k)) = true := by
      simp only [reportsError, hnext]
    refine h.fails ?_ ?_ ?_ hconversation (hok.1 hfails) <;> rw [hs']
    · exact hsourced
    · exact hasked.trans hasked'
    · exact hawaiting

/-- `Inv` is kept when a timer fires or a socket closes. -/
theorem Inv.drops (h : Inv s) {e : RealtimeEvent} (hok : Timely s (.realtime e))
    (he : (∃ handle, e = .answerTimeout handle) ∨ ∃ k, e = .closed k) {w : World}
    (hstep : s.realtime.step e = some w) (hasked : w.asked = s.realtime.asked)
    (hs' : s' = s.moveTo w) : Inv s' := by
  have hsourced := h.sourced.step hstep
  obtain ⟨hawaiting, ⟨hnone, hhanded⟩ | ⟨hsome, code, message, hhanded⟩⟩ := dropped_cases he hstep
  · rw [moveTo_of_handed_eq hhanded] at hs'
    subst hs'
    exact h.same hsourced hasked (hawaiting.trans hnone.symm) rfl
  · rw [moveTo_of_handed_concat hhanded] at hs'
    have hfails : reportsError s (.realtime e) = true := by
      rcases he with ⟨handle, rfl⟩ | ⟨k, rfl⟩ <;> exact hsome
    subst hs'
    exact h.fails hsourced hasked hawaiting rfl (hok.1 hfails)

/-- `Inv` is kept by any other step of `useRealtime`. -/
theorem Inv.realtime (h : Inv s) {e : RealtimeEvent} (hok : Timely s (.realtime e)) {w : World}
    (hstep : s.realtime.step e = some w)
    (hask : ∀ question conversationId, e ≠ .ask question conversationId)
    (hnot : ∀ k, e ≠ .deliver k) (hs' : s' = s.moveTo w) : Inv s' := by
  cases hookStep_of_step hask hstep with
  | quiet hawaiting hhanded hasked =>
    rw [moveTo_of_handed_eq hhanded] at hs'
    subst hs'
    exact h.same (h.sourced.step hstep) hasked hawaiting rfl
  | message => exact absurd rfl (hnot _)
  | dropped he hawaiting hasked hhanded => exact h.drops hok he hstep hasked hs'

/-- `Inv` is kept by a timely delivery. -/
theorem Inv.delivers (h : Inv s) {k : Nat} (hok : Timely s (.realtime (.deliver k)))
    (hstep : s.step (.realtime (.deliver k)) = some s') : Inv s' := by
  obtain ⟨w, hw, hs'⟩ := Option.map_eq_some_iff.mp hstep
  have hw : s.realtime.step (.deliver k) = some w := hw
  have hsourced := h.sourced.step hw
  simp only [World.step, World.deliver] at hw
  split at hw
  · next m rest hopened hinbox =>
    have hnext : s.nextFrame k = some m := by
      unfold Screen.nextFrame
      rw [hopened, hinbox]
      rfl
    rw [hnext] at hs'
    exact h.receives hok hnext
      (v := s.realtime.setSocket k { s.realtime.sockets k with inbox := rest })
      ⟨rfl, rfl, rfl⟩ (Option.some.inj hw).symm hsourced hs'.symm
  · exact nomatch hw

/-- `Inv` is kept by a timely step of the conversation. -/
theorem Inv.converses (h : Inv s) {e : ChatEvent} (hok : Timely s (.conversation e))
    (hsend : ∀ text streams, e ≠ .send text streams) (hdelta : ∀ n text, e ≠ .delta n text)
    (hcomplete : ∀ n text result, e ≠ .complete n text result)
    (herror : ∀ message, e ≠ .streamError message)
    (hstep : ((s.conversation.step e).map fun chat => { s with conversation := chat }) = some s') :
    Inv s' := by
  obtain ⟨chat, hchat, rfl⟩ := Option.map_eq_some_iff.mp hstep
  by_cases hreply : ∃ i response, e = .reply i response
  · obtain ⟨i, response, rfl⟩ := hreply
    obtain ⟨hawaiting, hlast⟩ : s.realtime.awaiting = none ∧
        i + 1 = s.conversation.sends.length := by
      simpa [answersLast] using hok.2
    simp only [Chat.step] at hchat
    split at hchat
    · next request hget =>
      split at hchat
      · exact h.replies hget hawaiting hlast rfl (Option.some.inj hchat).symm
      · exact nomatch hchat
    · exact nomatch hchat
  · refine h.selects rfl (selects_of_step hsend ?_ hdelta hcomplete herror hchat)
    rintro i response rfl
    exact hreply ⟨i, response, rfl⟩

/-- `Inv` is kept by every timely step of the screen. -/
theorem Inv.step (h : Inv s) {e : ScreenEvent} (hok : Timely s e) (hstep : s.step e = some s') :
    Inv s' := by
  cases e with
  | send text =>
    obtain rfl := Option.some.inj hstep
    exact h.sends (send_asked s text) (send_sourced h.sourced text)
  | conversation e =>
    cases e with
    | send text streams => exact nomatch hstep
    | delta n text => exact nomatch hstep
    | complete n text result => exact nomatch hstep
    | streamError message => exact nomatch hstep
    | resume => exact h.converses hok nofun nofun nofun nofun hstep
    | loadHistory id => exact h.converses hok nofun nofun nofun nofun hstep
    | start => exact h.converses hok nofun nofun nofun nofun hstep
    | reset => exact h.converses hok nofun nofun nofun nofun hstep
    | reply i response => exact h.converses hok nofun nofun nofun nofun hstep
    | history i response => exact h.converses hok nofun nofun nofun nofun hstep
    | started i response => exact h.converses hok nofun nofun nofun nofun hstep
  | realtime e =>
    -- What the hook does beside delivering reaches the screen by its callbacks alone
    have hmoves : (∀ question conversationId, e ≠ .ask question conversationId) →
        (∀ k, e ≠ .deliver k) → (useRealtime.step s.realtime e).map s.moveTo = some s' →
        Inv s' := by
      intro hask hnot hmap
      obtain ⟨w, hw, rfl⟩ := Option.map_eq_some_iff.mp hmap
      exact h.realtime hok hw hask hnot rfl
    cases e with
    | ask question conversationId => exact nomatch hstep
    | deliver k => exact h.delivers hok hstep
    | mountEffect enabled hasTicketSource creates => exact hmoves nofun nofun hstep
    | cleanup => exact hmoves nofun nofun hstep
    | ticket i granted creates => exact hmoves nofun nofun hstep
    | reconnect handle hasTicketSource creates => exact hmoves nofun nofun hstep
    | opened k => exact hmoves nofun nofun hstep
    | closing k => exact hmoves nofun nofun hstep
    | closed k => exact hmoves nofun nofun hstep
    | answerTimeout handle => exact hmoves nofun nofun hstep
    | serve k frame => exact hmoves nofun nofun hstep
    | serverFinishes k => exact hmoves nofun nofun hstep
    | greet k connectionId => exact hmoves nofun nofun hstep
    | serverStops k => exact hmoves nofun nofun hstep

end Steps

/-- In every run whose steps are timely, while no question is outstanding no displayed turn
    is pending or streamed into. -/
theorem turns_settled {storedId : Option String} {s : Screen}
    (h : (conversationScreen storedId).ReachableVia Timely s) : Settled s.conversation := by
  have hinv : Inv s := by
    apply h.invariant
    · refine ⟨fun k => ⟨nofun, nofun⟩, rfl, fun _ => rfl, fun _ => nofun, nofun, nofun⟩
    · exact fun _ _ _ hi hok hstep => hi.step hok hstep
  exact hinv.settled

/-- A question is put on the socket. -/
private def asking : List ScreenEvent :=
  [.realtime (.mountEffect true false true), .realtime (.opened 0), .send "hello"]

/-- It fails before its answer begins. -/
private def failing : List ScreenEvent :=
  asking ++ [.realtime (.serve 0 (.error "internal_error" "No.")), .realtime (.deliver 0)]

/-- The failing run is timely. -/
private theorem failing_meets : (conversationScreen none).Meets Timely
    (conversationScreen none).init failing := by
  decide +kernel

/-- A stream fails before its first piece, and the turn is settled as failed. -/
theorem turns_settled_failing : ∃ s, (conversationScreen none).run failing = some s ∧
    s.conversation.turns.map (·.status) = [.failed] ∧ Settled s.conversation :=
  ⟨_, rfl, rfl, turns_settled (Machine.reachableVia_of_run failing failing_meets rfl)⟩

/-- A stream fails behind part of its answer, and its turn goes on streaming. -/
theorem turn_left_streaming : ∃ s, (conversationScreen none).run (asking ++
      [.realtime (.serve 0 (.delta "Your refund")), .realtime (.deliver 0),
        .realtime (.serve 0 (.error "internal_error" "No.")), .realtime (.deliver 0)]) = some s ∧
    s.conversation.sending = false ∧
    s.conversation.turns.map (·.streaming) = [false, true] ∧ ¬Settled s.conversation := by
  refine ⟨_, rfl, rfl, rfl, fun h => ?_⟩
  exact absurd (h rfl _ (.tail _ (.head _))).2 (by decide)

/-- An error frame of a question that was dropped arrives while a message is outstanding over HTTP,
    so that another one is accepted and is outstanding when the first response arrives. -/
theorem turn_left_pending : ∃ s, (conversationScreen none).run [
      .realtime (.mountEffect true false true), .realtime .cleanup,
      .realtime (.mountEffect true false true), .realtime (.opened 1), .send "hello",
      .realtime (.closed 0), .send "Are you there?",
      .realtime (.serve 1 (.error "internal_error" "No.")), .realtime (.deliver 1),
      .send "Anyone?", .conversation (.reply 0 (.error .other))] = some s ∧
    s.conversation.sending = false ∧
    s.conversation.turns.map (·.status) = [.failed, .failed, .pending] ∧
    ¬Settled s.conversation := by
  refine ⟨_, rfl, rfl, rfl, fun h => ?_⟩
  exact (h rfl _ (.tail _ (.tail _ (.head _)))).1 rfl

end NexaAssist.Spec.SettledTurns
