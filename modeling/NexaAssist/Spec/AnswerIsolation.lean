import NexaAssist.Frontend.UseRealtime

/-!
# Whose answer the hook hands over

The wire carries no question number, so what reaches a handler while a question is
awaited may have been produced for an earlier one: its answer timer fired, or an
error frame ended it, and its server loop went on. Where a question is accepted only
once no open socket has anything left to say on an earlier one, every delta and every
complete that is handed over belongs to the question that is awaited.
-/

namespace NexaAssist.Spec.AnswerIsolation

open NexaAssist Frontend World

/-! ## The property and the condition -/

/-- A frame that carries part of an answer. -/
def isAnswer : ServerFrame → Bool
  | .delta _ => true
  | .complete _ _ _ _ _ => true
  | _ => false

/-- A handler call that carries part of an answer. -/
def handsAnswer : HandlerCall → Bool
  | .onDelta _ => true
  | .onComplete _ _ _ => true
  | .onError _ _ => false

/-- Every part of an answer that was handed over was produced for the question that
    was awaited. -/
def Isolated (w : World) : Prop :=
  ∀ h ∈ w.handed, handsAnswer h.call = true → h.awaited.isSome = true ∧ h.source = h.awaited

/-- Nothing of an earlier question is still to be produced or delivered on a socket. -/
def Silent (socket : Socket) : Prop :=
  socket.asks = [] ∧ ∀ m ∈ socket.inbox, isAnswer m.frame = false

/-- A question is accepted only while every open socket is silent. -/
def AsksInSilence (w : World) : RealtimeEvent → Prop
  | .ask _ _ => w.accepts = true →
      ∀ k, (w.sockets k).readyState = .opened → Silent (w.sockets k)
  | _ => True

/-! ## The invariant -/

/-- Everything an open socket has left to say is about the question that is awaited. -/
structure Inv (w : World) : Prop where
  fresh : ∀ k, (w.sockets k).readyState = .connecting →
    (w.sockets k).asks = [] ∧ (w.sockets k).inbox = []
  current : ∀ n, w.awaiting = some n → ∀ k, (w.sockets k).readyState = .opened →
    (∀ a ∈ (w.sockets k).asks, a.number = n) ∧
    ∀ m ∈ (w.sockets k).inbox, isAnswer m.frame = true → m.source = some n
  isolated : Isolated w

/-- A socket that has no more to say than it had, and is no more open. -/
structure Quieter (s' s : Socket) : Prop where
  fresh : s'.readyState = .connecting → s'.asks = [] ∧ s'.inbox = []
  asks : s'.readyState = .opened → s'.asks ⊆ s.asks
  inbox : s'.readyState = .opened → ∀ m ∈ s'.inbox, isAnswer m.frame = true → m ∈ s.inbox
  opened : s'.readyState = .opened →
    s.readyState = .opened ∨ s.readyState = .connecting

/-- A socket is quieter than itself. -/
theorem Inv.unchanged {w : World} (h : Inv w) (k : Nat) : Quieter (w.sockets k) (w.sockets k) where
  fresh := h.fresh k
  asks _ _ ha := ha
  inbox _ _ hm _ := hm
  opened h := .inl h

/-- A step after which every socket is quieter and nothing new was handed over but
    errors keeps the invariant. -/
theorem Inv.quieter {w w' : World} (h : Inv w)
    (hsockets : ∀ k, Quieter (w'.sockets k) (w.sockets k))
    (hawaiting : w'.awaiting = w.awaiting ∨ w'.awaiting = none)
    (hhanded : ∀ c ∈ w'.handed, c ∈ w.handed ∨ handsAnswer c.call = false) : Inv w' where
  fresh k := (hsockets k).fresh
  current n hn k hopen := by
    -- A hook that still awaits the question awaited it before
    have hn : w.awaiting = some n := by
      cases hawaiting with
      | inl heq => rw [← heq, hn]
      | inr heq => rw [heq] at hn; exact nomatch hn
    have hq := hsockets k
    cases hq.opened hopen with
    -- A socket that was open holds no more than it did
    | inl hopen' =>
      obtain ⟨hasks, hinbox⟩ := h.current n hn k hopen'
      exact ⟨fun a ha => hasks a (hq.asks hopen ha),
        fun m hm hans => hinbox m (hq.inbox hopen m hm hans) hans⟩
    -- A socket that has just opened holds nothing yet
    | inr hconn =>
      obtain ⟨hasks, hinbox⟩ := h.fresh k hconn
      constructor
      · intro a ha
        have := hq.asks hopen ha
        rw [hasks] at this
        exact nomatch this
      · intro m hm hans
        have := hq.inbox hopen m hm hans
        rw [hinbox] at this
        exact nomatch this
  isolated c hc hans := by
    cases hhanded c hc with
    | inl hold => exact h.isolated c hold hans
    | inr hno => rw [hno] at hans; exact nomatch hans

/-- `Inv` is kept by `setSocket` with a quieter socket. -/
theorem Inv.setSocket {w : World} (h : Inv w) {k : Nat} {socket : Socket}
    (hq : Quieter socket (w.sockets k)) : Inv (w.setSocket k socket) := by
  refine h.quieter (fun j => ?_) (.inl rfl) fun c hc => .inl hc
  show Quieter (if j = k then socket else w.sockets j) (w.sockets j)
  split
  · rename_i hj
    rw [hj]
    exact hq
  · exact h.unchanged j

/-- `Inv` is kept by a step that leaves the sockets and what was handed over, and awaits nothing
    new. -/
theorem Inv.frame {w w' : World} (h : Inv w) (hsockets : w'.sockets = w.sockets)
    (hawaiting : w'.awaiting = w.awaiting ∨ w'.awaiting = none) (hhanded : w'.handed = w.handed) :
    Inv w' := by
  refine h.quieter (fun k => ?_) hawaiting fun c hc => .inl (hhanded ▸ hc)
  rw [hsockets]
  exact h.unchanged k

/-- `Inv` holds at first. -/
theorem inv_init : Inv useRealtime.init where
  fresh _ h := nomatch h
  current _ h := nomatch h
  isolated _ h := nomatch h

/-! ## The steps -/

section Steps

variable {w w' : World} (h : Inv w)
include h

/-- `Inv` is kept by `openSocket`. -/
theorem openSocket_inv (mount : Nat) (creates : Bool) : Inv (w.openSocket mount creates) := by
  unfold openSocket
  split
  · exact h
  · split
    · exact h.frame rfl (.inl rfl) rfl
    · -- A new socket has nothing to say, whatever stood at its number.
      have hnew : Quieter (.new mount) (w.sockets w.created) := by
        refine ⟨fun _ => ⟨rfl, rfl⟩, ?_, ?_, ?_⟩ <;> intro hopen <;> exact nomatch hopen
      exact (h.setSocket hnew).frame rfl (.inl rfl) rfl

/-- `Inv` is kept by `connect`. -/
theorem connect_inv (mount : Nat) (hasTicketSource creates : Bool) :
    Inv (w.connect mount hasTicketSource creates) := by
  unfold connect
  split
  · exact h.frame rfl (.inl rfl) rfl
  · exact openSocket_inv h mount creates

/-- `Inv` is kept by `onclose`. -/
theorem onclose_inv (mount : Nat) : Inv (w.onclose mount) := by
  have hdrop : Inv w.dropQuestion := by
    refine h.quieter (fun k => h.unchanged k) (.inr rfl) fun c hc => ?_
    simp only [dropQuestion] at hc
    split at hc
    · rw [List.mem_append, List.mem_singleton] at hc
      exact hc.imp (fun hc => hc) fun hc => by rw [hc]; rfl
    · exact .inl hc
  unfold onclose
  simp only
  split
  · exact hdrop
  · split
    · exact hdrop.frame rfl (.inl rfl) rfl
    · exact hdrop.frame rfl (.inl rfl) rfl

/-- `Inv` is kept when the hook is mounted. -/
theorem mountEffect_inv {enabled hasTicketSource creates : Bool}
    (hstep : w.mountEffect enabled hasTicketSource creates = some w') : Inv w' := by
  unfold mountEffect at hstep
  split at hstep
  · exact nomatch hstep
  · split at hstep
    · simp only [Option.some.injEq] at hstep
      exact hstep ▸ h.frame rfl (.inl rfl) rfl
    · simp only [Option.some.injEq] at hstep
      subst hstep
      apply connect_inv
      exact h.frame rfl (.inl rfl) rfl

omit h in
/-- A socket that is closed is quieter. -/
theorem close_quieter (k : Nat) : Quieter (w.sockets k).close (w.sockets k) := by
  have hno : ∀ r, (w.sockets k).close.readyState = r → r = .closing ∨ r = .closed := by
    intro r hr
    simp only [Socket.close] at hr
    split at hr
    · exact .inr hr.symm
    · exact .inl hr.symm
  exact ⟨fun hr => by simpa using hno _ hr, fun hr => by simpa using hno _ hr,
    fun hr => by simpa using hno _ hr, fun hr => by simpa using hno _ hr⟩

/-- `Inv` is kept by the cleanup. -/
theorem cleanup_inv (hstep : w.cleanup = some w') : Inv w' := by
  unfold cleanup at hstep
  split at hstep
  · exact nomatch hstep
  · simp only [Option.some.injEq] at hstep
    exact hstep ▸ h.frame rfl (.inl rfl) rfl
  · simp only [Option.some.injEq] at hstep
    subst hstep
    cases href : w.socketRef with
    | none => exact h.frame rfl (.inl rfl) rfl
    | some k => exact (h.setSocket (close_quieter k)).frame rfl (.inl rfl) rfl

/-- `Inv` is kept when a ticket arrives. -/
theorem ticketArrives_inv {i : Nat} {granted creates : Bool}
    (hstep : w.ticketArrives i granted creates = some w') : Inv w' := by
  unfold ticketArrives at hstep
  split at hstep
  · exact nomatch hstep
  · simp only [Option.some.injEq] at hstep
    have htaken : Inv { w with tickets := w.tickets.eraseIdx i } := h.frame rfl (.inl rfl) rfl
    subst hstep
    split
    · exact openSocket_inv htaken _ _
    · exact htaken.frame rfl (.inl rfl) rfl

/-- `Inv` is kept when a reconnection is due. -/
theorem reconnectFires_inv {handle : Nat} {hasTicketSource creates : Bool}
    (hstep : w.reconnectFires handle hasTicketSource creates = some w') : Inv w' := by
  unfold reconnectFires at hstep
  split at hstep
  · exact nomatch hstep
  · simp only [Option.some.injEq] at hstep
    subst hstep
    apply connect_inv
    exact h.frame rfl (.inl rfl) rfl

/-- `Inv` is kept when a socket opens. -/
theorem onopen_inv {k : Nat} (hstep : w.onopen k = some w') : Inv w' := by
  unfold onopen at hstep
  split at hstep
  · rename_i hconn
    simp only [Option.some.injEq] at hstep
    subst hstep
    have hq : Quieter { w.sockets k with readyState := .opened } (w.sockets k) := by
      refine ⟨fun hr => ?_, fun _ _ ha => ha, fun _ _ hm _ => hm, fun _ => .inr hconn⟩
      exact nomatch hr
    exact (h.setSocket hq).frame rfl (.inl rfl) rfl
  · exact nomatch hstep

/-- A frame that is handled only while its own question is awaited, if it carries part
    of an answer. -/
theorem onmessage_inv {source : Option Nat} {frame : ServerFrame}
    (hsource : ∀ n, w.awaiting = some n → isAnswer frame = true → source = some n) :
    Inv (w.onmessage source frame) := by
  -- A callback is handed on with the frame's own source, which is the awaited one for an answer
  have hand_inv : ∀ call, (handsAnswer call = true →
      w.awaiting.isSome = true ∧ source = w.awaiting) → Inv (w.hand source call) := by
    intro call hcall
    refine ⟨h.fresh, h.current, fun c hc hans => ?_⟩
    simp only [hand, List.mem_append, List.mem_singleton] at hc
    cases hc with
    | inl hold => exact h.isolated c hold hans
    | inr hnew => subst hnew; exact hcall hans
  have hanswer : ∀ call, isAnswer frame = true → w.awaiting.isSome = true →
      Inv (w.hand source call) := by
    intro call hans hsome
    obtain ⟨n, hn⟩ := Option.isSome_iff_exists.mp hsome
    exact hand_inv call fun _ => ⟨hsome, by rw [hsource n hn hans, hn]⟩
  cases frame with
  -- The frames of an answer are passed on only while a question is awaited
  | delta text =>
    simp only [onmessage]
    split
    · rename_i hsome
      exact hanswer _ rfl hsome
    · exact h
  | complete text conversationId grounded citations escalated =>
    simp only [onmessage]
    split
    · rename_i hsome
      exact (hanswer _ rfl hsome).frame rfl (.inr rfl) rfl
    · exact h
  -- An error ends the question whether or not one is awaited
  | error code message =>
    exact (hand_inv (.onError code message) fun hno => nomatch hno).frame rfl (.inr rfl) rfl
  -- The rest reach no callback
  | ready connectionId version => exact h
  | pong => exact h
  | unrecognised raw => exact h

/-- The delivery of a frame: while a question is awaited, a frame with part of an
    answer is one of that question. -/
theorem deliver_inv {k : Nat} (hstep : w.deliver k = some w') : Inv w' := by
  unfold deliver at hstep
  split at hstep
  · rename_i message rest hopen hinbox
    simp only [Option.some.injEq] at hstep
    have hq : Quieter { w.sockets k with inbox := rest } (w.sockets k) := by
      refine ⟨fun hr => ?_, fun _ _ ha => ha, fun _ m hm _ => ?_, fun _ => .inl hopen⟩
      · rw [show (_ : ReadyState) = (w.sockets k).readyState from rfl, hopen] at hr
        exact nomatch hr
      · rw [hinbox]
        exact List.mem_cons_of_mem _ hm
    subst hstep
    refine onmessage_inv (h.setSocket hq) fun n hn hans => ?_
    exact (h.current n hn k hopen).2 message (by rw [hinbox]; simp) hans
  · exact nomatch hstep

/-- `Inv` is kept when a socket begins to close. -/
theorem closingStarts_inv {k : Nat} (hstep : w.closingStarts k = some w') : Inv w' := by
  have hq : Quieter { w.sockets k with readyState := .closing } (w.sockets k) := by
    refine ⟨?_, ?_, ?_, ?_⟩ <;> intro hr <;> exact nomatch hr
  unfold closingStarts at hstep
  split at hstep
  · simp only [Option.some.injEq] at hstep
    exact hstep ▸ h.setSocket hq
  · simp only [Option.some.injEq] at hstep
    exact hstep ▸ h.setSocket hq
  · exact nomatch hstep

/-- `Inv` is kept when a socket has closed. -/
theorem closeEvent_inv {k : Nat} (hstep : w.closeEvent k = some w') : Inv w' := by
  have hq : Quieter { w.sockets k with readyState := .closed } (w.sockets k) := by
    refine ⟨?_, ?_, ?_, ?_⟩ <;> intro hr <;> exact nomatch hr
  unfold closeEvent at hstep
  split at hstep
  · exact nomatch hstep
  · simp only [Option.some.injEq] at hstep
    exact hstep ▸ onclose_inv (h.setSocket hq) _

/-- An accepted question, asked in silence: what an open socket has left to say is
    about it. -/
theorem ask_inv (question : String) (conversationId : Option String)
    (hsilent : w.accepts = true →
      ∀ k, (w.sockets k).readyState = .opened → Silent (w.sockets k)) :
    Inv (w.ask question conversationId).2 := by
  unfold ask
  split
  · exact h
  · rename_i hnone
    cases htarget : w.sendTarget with
    | none => exact h
    | some k =>
      -- The hook takes the question, so the condition says that every open socket is silent
      have haccepts : w.accepts = true := by
        simp only [accepts, htarget, Option.isSome_some, Bool.and_true]
        simpa using hnone
      have hsilent := hsilent haccepts
      -- The target of a send is open
      have hopen : (w.sockets k).readyState = .opened := by
        unfold sendTarget at htarget
        split at htarget
        · exact nomatch htarget
        · split at htarget
          · rename_i hopen
            simp only [Option.some.injEq] at htarget
            exact htarget ▸ hopen
          · exact nomatch htarget
      refine ⟨fun j hj => ?_, fun n hn j hj => ?_, h.isolated⟩
      -- A socket that is still connecting is not the one written to
      · simp only [setSocket] at hj ⊢
        by_cases hjk : j = k
        · simp only [hjk, if_true, hopen] at hj
          exact nomatch hj
        · simp only [if_neg hjk] at hj ⊢
          exact h.fresh j hj
      -- An open socket carries at most the new question, and no answer
      · have hn : w.asked = n := Option.some.inj hn
        simp only [setSocket] at hj ⊢
        by_cases hjk : j = k
        · obtain ⟨hasks, hinbox⟩ := hsilent k hopen
          simp only [hjk, if_true, hasks, List.nil_append]
          constructor
          · intro a ha
            split at ha
            · simp only [List.mem_singleton] at ha
              rw [ha, hn]
            · exact nomatch ha
          · intro m hm hans
            rw [hinbox m hm] at hans
            exact nomatch hans
        · simp only [if_neg hjk] at hj ⊢
          obtain ⟨hasks, hinbox⟩ := hsilent j hj
          constructor
          · intro a ha
            rw [hasks] at ha
            exact nomatch ha
          · intro m hm hans
            rw [hinbox m hm] at hans
            exact nomatch hans

/-- `Inv` is kept when an answer times out. -/
theorem answerTimeout_inv {handle : Nat} (hstep : w.answerTimeout handle = some w') : Inv w' := by
  unfold answerTimeout at hstep
  split at hstep
  · dsimp only at hstep
    split at hstep
    · simp only [Option.some.injEq] at hstep
      exact hstep ▸ h.frame rfl (.inl rfl) rfl
    · simp only [Option.some.injEq] at hstep
      subst hstep
      refine h.quieter (fun k => h.unchanged k) (.inr rfl) fun c hc => ?_
      simp only [List.mem_append, List.mem_singleton] at hc
      exact hc.imp (fun hc => hc) fun hc => by rw [hc]; rfl
  · exact nomatch hstep

/-- A server loop only sends frames of the question it is answering, which is the one
    that is awaited if any is. -/
theorem serve_inv {k : Nat} {frame : ServerFrame} (hstep : w.serve k frame = some w') :
    Inv w' := by
  unfold serve at hstep
  split at hstep
  · exact nomatch hstep
  · rename_i ask rest hasks
    simp only [Option.some.injEq] at hstep
    subst hstep
    refine ⟨fun j hj => ?_, fun n hn j hj => ?_, h.isolated⟩
    · simp only [setSocket] at hj ⊢
      by_cases hjk : j = k
      · simp only [hjk, if_true] at hj
        -- A connecting socket has no question to answer
        have hempty := (h.fresh k hj).1
        rw [hasks] at hempty
        exact nomatch hempty
      · simp only [if_neg hjk] at hj ⊢
        exact h.fresh j hj
    · simp only [setSocket] at hj ⊢
      by_cases hjk : j = k
      · simp only [hjk, if_true] at hj ⊢
        obtain ⟨hnumber, hinbox⟩ := h.current n hn k hj
        refine ⟨hnumber, fun m hm hans => ?_⟩
        rw [List.mem_append, List.mem_singleton] at hm
        cases hm with
        | inl hold => exact hinbox m hold hans
        -- The new frame carries the number of the question at the head
        | inr hnew =>
          rw [hnew]
          exact congrArg some (hnumber ask (by rw [hasks]; simp))
      · simp only [if_neg hjk] at hj ⊢
        exact h.current n hn j hj

/-- `Inv` is kept when the server finishes an answer. -/
theorem serverFinishes_inv {k : Nat} (hstep : w.serverFinishes k = some w') : Inv w' := by
  unfold serverFinishes at hstep
  split at hstep
  · exact nomatch hstep
  · rename_i ask rest hasks
    simp only [Option.some.injEq] at hstep
    subst hstep
    refine h.setSocket ⟨fun hr => ?_, fun _ a ha => ?_, fun _ _ hm _ => hm, fun hr => .inl hr⟩
    · have hempty := (h.fresh k hr).1
      rw [hasks] at hempty
      exact nomatch hempty
    · rw [hasks]
      exact List.mem_cons_of_mem _ ha

/-- `Inv` is kept when the server greets. -/
theorem greet_inv {k : Nat} {connectionId : String} (hstep : w.greet k connectionId = some w') :
    Inv w' := by
  unfold greet at hstep
  split at hstep
  · rename_i hopen
    simp only [Option.some.injEq] at hstep
    subst hstep
    refine h.setSocket ⟨fun hr => ?_, fun _ _ ha => ha, fun _ m hm hans => ?_, fun hr => .inl hr⟩
    · have hr : (w.sockets k).readyState = .connecting := hr
      rw [hopen] at hr
      exact nomatch hr
    · simp only [List.mem_append, List.mem_singleton] at hm
      cases hm with
      | inl hold => exact hold
      | inr hnew => rw [hnew] at hans; exact nomatch hans
  · exact nomatch hstep

/-- `Inv` is kept when the server stops. -/
theorem serverStops_inv (k : Nat) : Inv (w.serverStops k) := by
  refine h.setSocket ⟨fun hr => ⟨rfl, (h.fresh k hr).2⟩, fun _ a ha => ?_, fun _ _ hm _ => hm,
    fun hr => .inl hr⟩
  exact nomatch ha

/-- Every step keeps the invariant, if it accepts no question that is not asked in
    silence. -/
theorem inv_step {e : RealtimeEvent} (hok : AsksInSilence w e)
    (hstep : useRealtime.step w e = some w') : Inv w' := by
  change w.step e = some w' at hstep
  cases e with
  | mountEffect enabled hasTicketSource creates => exact mountEffect_inv h hstep
  | cleanup => exact cleanup_inv h hstep
  | ticket i granted creates => exact ticketArrives_inv h hstep
  | reconnect handle hasTicketSource creates => exact reconnectFires_inv h hstep
  | opened k => exact onopen_inv h hstep
  | deliver k => exact deliver_inv h hstep
  | closing k => exact closingStarts_inv h hstep
  | closed k => exact closeEvent_inv h hstep
  | ask question conversationId =>
    simp only [World.step, Option.some.injEq] at hstep
    exact hstep ▸ ask_inv h question conversationId hok
  | answerTimeout handle => exact answerTimeout_inv h hstep
  | serve k frame => exact serve_inv h hstep
  | serverFinishes k => exact serverFinishes_inv h hstep
  | greet k connectionId => exact greet_inv h hstep
  | serverStops k =>
    simp only [World.step, Option.some.injEq] at hstep
    exact hstep ▸ serverStops_inv h k

end Steps

/-! ## Every run -/

/-- In every run whose questions are asked in silence, every delta and every complete
    that is handed over was produced for the question that was awaited. -/
theorem answers_isolated (w : World) (h : useRealtime.ReachableVia AsksInSilence w) :
    Isolated w :=
  (Machine.ReachableVia.invariant inv_init (fun _ _ _ hi hok hstep => inv_step hi hok hstep)
    h).isolated

/-- A question and the beginning of its answer. -/
private def oneAnswer : List RealtimeEvent :=
  [.mountEffect true false true, .opened 0, .ask "Where is my order?" none,
    .serve 0 (.delta "It has shipped."), .deliver 0]

/-- In the run with one answer each question is asked in silence. -/
private theorem oneAnswer_meets : useRealtime.Meets AsksInSilence useRealtime.init oneAnswer := by
  refine ⟨trivial, fun _ h₁ => ⟨trivial, fun w h₂ => ⟨fun _ k _ => ?_, fun _ _ => ?_⟩⟩⟩
  · obtain rfl := Option.some.inj h₁
    obtain rfl := Option.some.inj h₂
    cases k with
    | zero => exact ⟨rfl, fun m hm => nomatch hm⟩
    | succ k => exact ⟨rfl, fun m hm => nomatch hm⟩
  · exact ⟨trivial, fun _ _ => ⟨trivial, fun _ _ => trivial⟩⟩

/-- A run in which the only question is answered, and its answer is handed over. -/
theorem answers_isolated_once :
    ∃ w, useRealtime.run oneAnswer = some w ∧ w.handed.length = 1 ∧ Isolated w :=
  ⟨_, rfl, rfl, answers_isolated _ (Machine.reachableVia_of_run oneAnswer oneAnswer_meets rfl)⟩

/-- The answer timer fires before the answer arrives, and the next question is asked in
    between: its handlers get the first question's answer. -/
theorem late_answer_misdelivered :
    ∃ w, useRealtime.run
        [.mountEffect true false true, .opened 0, .ask "Where is my order?" none,
          .answerTimeout 0, .ask "How do I return it?" none,
          .serve 0 (.delta "It has shipped."), .deliver 0] = some w ∧ ¬ Isolated w := by
  refine ⟨_, rfl, fun h => ?_⟩
  have hlast := h ⟨.onDelta "It has shipped.", some 1, some 0⟩ (.tail _ (.head _)) rfl
  exact absurd hlast.2 (by decide)

end NexaAssist.Spec.AnswerIsolation
