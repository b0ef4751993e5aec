import NexaAssist.ForStd.Machine
import NexaAssist.Frontend.UseConversation

/-!
# Which conversation is on screen

Nothing cancels a request when the user selects another conversation, and nothing tells
its response apart when it arrives. Where the responses that would take effect arrive
before the next selection does, all turns on screen were asked for in the conversation
`conversationId` names, and what was requested before a selection leaves it alone.
-/

namespace NexaAssist.Spec.DisplayedConversation

open NexaAssist Frontend Chat

/-! ## The property and the condition -/

/-- Every turn shown was asked for in the conversation shown, and that is the one the
    user's latest selection selected, once it has taken effect. -/
structure Displayed (s : Chat) : Prop where
  turns : ∀ turn ∈ s.turns, ∀ origin ∈ turn.origins, origin.conversation = s.conversationId
  latest : ∀ c, (s.selections, c) ∈ s.answered → s.conversationId = c

/-- The selection a response belongs to: the one its request asked for, or the last one
    that had taken effect when the request was made. -/
def requestedIn (s : Chat) : ChatEvent → Option Nat
  | .reply i _ => (s.sends[i]?).map (·.basis)
  | .history i _ => (s.selecting[i]?).map (·.number)
  | .started i _ => (s.selecting[i]?).map (·.number)
  | .delta n _ => (s.asks[n]?).map (·.basis)
  | .complete n _ _ => (s.asks[n]?).map (·.basis)
  | _ => none

/-- `e` answers a request made before the selection that is in effect. -/
def Overtaken (s : Chat) (e : ChatEvent) : Prop :=
  ∃ number, requestedIn s e = some number ∧ number < s.applied

/-- What an overtaken response must not change. -/
structure Unmoved (s s' : Chat) : Prop where
  turns : s'.turns = s.turns
  conversationId : s'.conversationId = s.conversationId
  storedId : s'.storedId = s.storedId

/-- Completing a stream into `target` finds nothing to complete: neither the turn nor a
    pending one is shown, and no other conversation is named. -/
def NothingToComplete (s : Chat) (target : TurnId) (named : Option String) : Prop :=
  (∀ turn ∈ s.turns, turn.id ≠ target ∧ turn.status ≠ .pending) ∧
    ∀ id, named = some id → id = "" ∨ s.conversationId = some id

/-- A response that takes effect arrives before the next selection does: replies, deltas
    and completions in the selection they were asked in, selections in the order the
    user made them. Failures may arrive at any time. -/
def InTime (s : Chat) : ChatEvent → Prop
  | .reply i (.ok _) => ∀ request, s.sends[i]? = some request → request.basis = s.applied
  | .history i (.ok _) => ∀ q, s.selecting[i]? = some q → s.applied < q.number
  | .history i (.error (.api _ _ status)) =>
    status = 404 → ∀ q, s.selecting[i]? = some q → s.applied < q.number
  | .started i (.ok _) => ∀ q, s.selecting[i]? = some q → s.applied < q.number
  | .delta n _ => ∀ ask target, s.asks[n]? = some ask → s.streamingId = some target →
    (∃ turn ∈ s.turns, turn.id = target) → ask.basis = s.applied
  | .complete n _ _ => ∀ ask target, s.asks[n]? = some ask → s.streamingId = some target →
    ask.basis = s.applied ∨ NothingToComplete s target ask.conversationId
  | _ => True

/-! ## The invariant -/

/-- `turn` was asked for in the conversation and under the selection that are in effect. -/
def Current (s : Chat) (turn : Turn) : Prop :=
  ∀ origin ∈ turn.origins, origin.conversation = s.conversationId ∧ origin.basis = s.applied

/-- What a request remembers fits the selection in effect. -/
def Remembers (s : Chat) (basis : Nat) (conversation : Option String) : Prop :=
  basis ≤ s.applied ∧ (basis = s.applied → conversation = s.conversationId)

structure Inv (s : Chat) : Prop where
  current : ∀ turn ∈ s.turns, Current s turn
  sends : ∀ request ∈ s.sends, Remembers s request.basis request.conversationId
  asks : ∀ ask ∈ s.asks, Remembers s ask.basis ask.conversationId
  /-- The customer's turn of a request from before the selection is not shown. -/
  shown : ∀ request ∈ s.sends, ∀ turn ∈ s.turns, turn.id = request.pendingId →
    request.basis = s.applied
  pendingId : ∀ request ∈ s.sends, ∃ k ≤ s.counter, request.pendingId = .localTurn k
  selecting : ∀ q ∈ s.selecting, q.number ≤ s.selections
  applied : s.applied ≤ s.selections
  answered : ∀ number c, (number, c) ∈ s.answered → number ≤ s.applied ∧
    (number = s.applied → c = s.conversationId)

/-- `Inv` holds at first. -/
theorem inv_init (storedId : Option String) : Inv (.init storedId) where
  current _ h := nomatch h
  sends _ h := nomatch h
  asks _ h := nomatch h
  shown _ h := nomatch h
  pendingId _ h := nomatch h
  selecting _ h := nomatch h
  applied := Nat.le_refl 0
  answered _ _ h := nomatch h

/-- Where `Inv` holds, the displayed turns are of the current conversation. -/
theorem Inv.displayed {s : Chat} (h : Inv s) : Displayed s where
  turns turn hturn origin horigin := (h.current turn hturn origin horigin).1
  latest c hc := by
    obtain ⟨hle, heq⟩ := h.answered _ _ hc
    -- The latest selection is answered, so it is the one in effect.
    have happlied : s.selections = s.applied := by
      have := h.applied
      omega
    exact (heq happlied).symm

/-- `Inv` is kept by a step that makes no request and no selection, and shows no turn that was not
    there. -/
theorem Inv.frame {s s' : Chat} (h : Inv s)
    (hturns : ∀ turn' ∈ s'.turns, Current s turn' ∧ ∃ turn ∈ s.turns, turn'.id = turn.id)
    (hconversation : s'.conversationId = s.conversationId) (happlied : s'.applied = s.applied)
    (hcounter : s'.counter = s.counter) (hsends : s'.sends ⊆ s.sends) (hasks : s'.asks = s.asks)
    (hselecting : s'.selecting ⊆ s.selecting) (hselections : s'.selections = s.selections)
    (hanswered : s'.answered = s.answered) : Inv s' where
  current turn' hturn' := by
    have hcurrent : Current s turn' := (hturns turn' hturn').1
    rw [Current, hconversation, happlied]
    exact hcurrent
  sends request hrequest := by
    rw [Remembers, hconversation, happlied]
    exact h.sends request (hsends hrequest)
  asks ask hask := by
    rw [Remembers, hconversation, happlied]
    exact h.asks ask (hasks ▸ hask)
  shown request hrequest turn' hturn' hid := by
    obtain ⟨turn, hturn, hsame⟩ := (hturns turn' hturn').2
    rw [happlied]
    exact h.shown request (hsends hrequest) turn hturn (hsame ▸ hid)
  pendingId request hrequest := by
    rw [hcounter]
    exact h.pendingId request (hsends hrequest)
  selecting q hq := by
    rw [hselections]
    exact h.selecting q (hselecting hq)
  applied := by
    rw [happlied, hselections]
    exact h.applied
  answered number c hc := by
    rw [happlied, hconversation]
    exact h.answered number c (hanswered ▸ hc)

/-- The turns of `s` as they are. -/
theorem Inv.turns_self {s : Chat} (h : Inv s) {turns : List Turn} (heq : turns = s.turns) :
    ∀ turn' ∈ turns, Current s turn' ∧ ∃ turn ∈ s.turns, turn'.id = turn.id := by
  rw [heq]
  intro turn hturn
  exact ⟨h.current turn hturn, turn, hturn, rfl⟩

/-- Turns that are mapped to current ones under their ids are as `Inv.frame` asks. -/
theorem Inv.turns_map {s : Chat} (h : Inv s) {f : Turn → Turn} (hid : ∀ turn, (f turn).id = turn.id)
    (hcurrent : ∀ turn ∈ s.turns, Current s turn → Current s (f turn)) :
    ∀ turn' ∈ s.turns.map f, Current s turn' ∧ ∃ turn ∈ s.turns, turn'.id = turn.id := by
  intro turn' hturn'
  obtain ⟨turn, hturn, rfl⟩ := List.mem_map.mp hturn'
  exact ⟨hcurrent turn hturn (h.current turn hturn), turn, hturn, hid turn⟩

/-! ## Selections -/

/-- `Inv` is kept when a newer selection takes effect, before which all requests then were made. -/
theorem Inv.select {s s' : Chat} (h : Inv s) {number : Nat}
    (hnewer : s.applied < number) (hle : number ≤ s'.selections)
    (happlied : s'.applied = number)
    (hanswered : s'.answered = s.answered ++ [(number, s'.conversationId)])
    (hturns : ∀ turn ∈ s'.turns, Current s' turn ∧ ∃ position, turn.id = .server position)
    (hcounter : s'.counter = s.counter) (hsends : s'.sends = s.sends) (hasks : s'.asks = s.asks)
    (hselecting : s'.selecting ⊆ s.selecting) (hselections : s.selections ≤ s'.selections) :
    Inv s' where
  current turn hturn := (hturns turn hturn).1
  sends request hrequest := by
    have hpast := (h.sends request (hsends ▸ hrequest)).1
    exact ⟨by omega, fun heq => by omega⟩
  asks ask hask := by
    have hpast := (h.asks ask (hasks ▸ hask)).1
    exact ⟨by omega, fun heq => by omega⟩
  shown request hrequest turn hturn hid := by
    -- The turns of a history have ids of their own.
    obtain ⟨k, -, hpending⟩ := h.pendingId request (hsends ▸ hrequest)
    obtain ⟨position, hserver⟩ := (hturns turn hturn).2
    rw [hpending, hserver] at hid
    exact nomatch hid
  pendingId request hrequest := by
    rw [hcounter]
    exact h.pendingId request (hsends ▸ hrequest)
  selecting q hq := by
    have hq' : q.number ≤ s.selections := h.selecting q (hselecting hq)
    omega
  applied := by omega
  answered n c hc := by
    rw [hanswered, List.mem_append, List.mem_singleton] at hc
    cases hc with
    | inl hold =>
      have hpast := (h.answered n c hold).1
      exact ⟨by omega, fun heq => by omega⟩
    | inr hnew =>
      obtain ⟨rfl, rfl⟩ := Prod.mk.inj hnew
      exact ⟨by omega, fun _ => rfl⟩

/-- A turn of a history was asked for under the selection that loads it. -/
theorem toTurn_mem {origin : Origin} {messages : List Frontend.ConversationMessage} {turn : Turn}
    (h : turn ∈ messages.map (toTurn origin)) :
    turn.origins = [origin] ∧ ∃ position, turn.id = .server position := by
  obtain ⟨message, -, rfl⟩ := List.mem_map.mp h
  exact ⟨rfl, message.position, rfl⟩

/-- `Inv` is kept when a selection is asked for. -/
theorem announce_inv {s : Chat} (h : Inv s) (history : Option String) :
    Inv { s with
      loading := true
      selections := s.selections + 1
      selecting := s.selecting ++ [{ number := s.selections + 1, history }] } where
  current := h.current
  sends := h.sends
  asks := h.asks
  shown := h.shown
  pendingId := h.pendingId
  selecting q hq := by
    show q.number ≤ s.selections + 1
    cases List.mem_append.mp hq with
    | inl hold =>
      have := h.selecting q hold
      omega
    | inr hnew =>
      have heq : q = { number := s.selections + 1, history } := List.mem_singleton.mp hnew
      have hnumber : q.number = s.selections + 1 := by rw [heq]
      omega
  applied := by
    have := h.applied
    show s.applied ≤ s.selections + 1
    omega
  answered := h.answered

/-- `Inv` is kept by `loadHistory`. -/
theorem loadHistory_inv {s : Chat} (h : Inv s) (id : String) : Inv (s.loadHistory id) :=
  announce_inv h (some id)

/-- `Inv` is kept by `start`. -/
theorem start_inv {s : Chat} (h : Inv s) : Inv s.start := announce_inv h none

/-- `Inv` is kept by `reset`. -/
theorem reset_inv {s : Chat} (h : Inv s) : Inv s.reset := by
  have hnewer : s.applied < s.selections + 1 := Nat.lt_succ_of_le h.applied
  exact h.select hnewer (Nat.le_refl _) rfl rfl (fun _ hturn => nomatch hturn) rfl rfl rfl
    (List.Subset.refl _) (Nat.le_succ _)

/-- `Inv` is kept by `resume`. -/
theorem resume_inv {s : Chat} (h : Inv s) : Inv s.resume := by
  have hresumed : Inv { s with resumed := true } :=
    h.frame (h.turns_self rfl) rfl rfl rfl (List.Subset.refl _) rfl (List.Subset.refl _) rfl rfl
  unfold Chat.resume
  split
  · exact h
  · dsimp only
    split
    · exact hresumed
    · split
      · exact hresumed
      · exact loadHistory_inv hresumed _

/-- A selection's response that takes effect leaves the invariant, whatever else of the
    hook it sets. -/
theorem selects_inv {s s' : Chat} (h : Inv s) {q : Selecting} (hq : q ∈ s.selecting)
    (hnewer : s.applied < q.number)
    (happlied : s'.applied = q.number)
    (hanswered : s'.answered = s.answered ++ [(q.number, s'.conversationId)])
    (hturns : ∀ turn ∈ s'.turns, Current s' turn ∧ ∃ position, turn.id = .server position)
    (hcounter : s'.counter = s.counter) (hsends : s'.sends = s.sends) (hasks : s'.asks = s.asks)
    (hselecting : s'.selecting ⊆ s.selecting) (hselections : s'.selections = s.selections) :
    Inv s' := by
  have hle : q.number ≤ s.selections := h.selecting q hq
  exact h.select hnewer (by omega) happlied hanswered hturns hcounter hsends hasks hselecting
    (by omega)

/-- `Inv` is kept when the request of a selection fails. -/
theorem failedSelection_inv {s : Chat} (h : Inv s) {selecting : List Selecting}
    (hselecting : selecting ⊆ s.selecting) (caught : Caught) :
    Inv { ({ s with selecting } : Chat).showFailure caught with loading := false } :=
  h.frame (h.turns_self rfl) rfl rfl rfl (List.Subset.refl _) rfl hselecting rfl rfl

/-- `Inv` is kept when a history arrives in time. -/
theorem historyArrives_inv {s : Chat} (h : Inv s) {i : Nat} {q : Selecting} {id : String}
    (hq : s.selecting[i]? = some q) {response : Except Caught (List Frontend.ConversationMessage)}
    (hok : InTime s (.history i response)) :
    Inv ({ s with selecting := s.selecting.eraseIdx i }.historyArrives q.number id response) := by
  have hmem : q ∈ s.selecting := List.mem_of_getElem? hq
  have herase : s.selecting.eraseIdx i ⊆ s.selecting := List.eraseIdx_subset
  match response, hok with
  -- The turns of the history are those of the conversation selected
  | .ok messages, hok =>
    apply selects_inv h hmem (hok q hq) rfl rfl
    · intro turn hturn
      obtain ⟨horigins, hserver⟩ := toTurn_mem hturn
      refine ⟨?_, hserver⟩
      intro origin horigin
      rw [horigins, List.mem_singleton] at horigin
      rw [horigin]
      exact ⟨rfl, rfl⟩
    · rfl
    · rfl
    · rfl
    · exact herase
    · rfl
  -- Only a missing conversation empties the view
  | .error (.api code message status), hok =>
    simp only [Chat.historyArrives]
    by_cases hstatus : status = 404
    · rw [if_pos hstatus]
      apply selects_inv h hmem (hok hstatus q hq) rfl rfl
      · exact fun turn hturn => nomatch hturn
      · rfl
      · rfl
      · rfl
      · exact herase
      · rfl
    · rw [if_neg hstatus]
      exact failedSelection_inv h herase _
  | .error .other, _ => exact failedSelection_inv h herase _

/-- `Inv` is kept when the id of a new conversation arrives in time. -/
theorem startArrives_inv {s : Chat} (h : Inv s) {i : Nat} {q : Selecting}
    (hq : s.selecting[i]? = some q) {response : Except Caught String}
    (hok : InTime s (.started i response)) :
    Inv ({ s with selecting := s.selecting.eraseIdx i }.startArrives q.number response) := by
  have herase : s.selecting.eraseIdx i ⊆ s.selecting := List.eraseIdx_subset
  match response, hok with
  | .ok id, hok =>
    apply selects_inv h (List.mem_of_getElem? hq) (hok q hq) rfl rfl
    · exact fun turn hturn => nomatch hturn
    · rfl
    · rfl
    · rfl
    · exact herase
    · rfl
  | .error caught, _ => exact failedSelection_inv h herase caught

/-! ## Messages -/

/-- A turn whose only origin is the conversation now selected is `Current`. -/
theorem current_of_origins {s : Chat} {turn : Turn}
    (h : turn.origins = [{ conversation := s.conversationId, basis := s.applied }]) :
    Current s turn := by
  intro origin horigin
  rw [h, List.mem_singleton] at horigin
  rw [horigin]
  exact ⟨rfl, rfl⟩

/-- `Inv` is kept when current turns are shown, with ids that no request is waiting to see again. -/
theorem Inv.show {s : Chat} (h : Inv s) (turns : List Turn) {counter : Nat}
    (hcounter : s.counter ≤ counter) (hcurrent : ∀ turn ∈ turns, Current s turn)
    (hfresh : ∀ turn ∈ turns, ∀ k ≤ s.counter, turn.id ≠ .localTurn k) :
    Inv { s with turns := s.turns ++ turns, counter } where
  current turn hturn := by
    cases List.mem_append.mp hturn with
    | inl hold => exact h.current turn hold
    | inr hnew => exact hcurrent turn hnew
  sends := h.sends
  asks := h.asks
  shown request hrequest turn hturn hid := by
    cases List.mem_append.mp hturn with
    | inl hold => exact h.shown request hrequest turn hold hid
    | inr hnew =>
      obtain ⟨k, hk, hpending⟩ := h.pendingId request hrequest
      exact absurd (hid.trans hpending) (hfresh turn hnew k hk)
  pendingId request hrequest := by
    obtain ⟨k, hk, hpending⟩ := h.pendingId request hrequest
    exact ⟨k, Nat.le_trans hk hcounter, hpending⟩
  selecting := h.selecting
  applied := h.applied
  answered := h.answered

/-- A request made now remembers the selection in effect. -/
theorem remembers_now (s : Chat) : Remembers s s.applied s.conversationId :=
  ⟨Nat.le_refl _, fun _ => rfl⟩

/-- `Inv` is kept when a question is asked over the socket. -/
theorem ask_inv {s : Chat} (h : Inv s) (id : TurnId) :
    Inv { s with
      streamingId := some id
      asks := s.asks ++ [{
        replyId := id, conversationId := s.conversationId, basis := s.applied }] } where
  current := h.current
  sends := h.sends
  asks ask hask := by
    cases List.mem_append.mp hask with
    | inl hold => exact h.asks ask hold
    | inr hnew =>
      rw [List.mem_singleton.mp hnew]
      exact remembers_now s
  shown := h.shown
  pendingId := h.pendingId
  selecting := h.selecting
  applied := h.applied
  answered := h.answered

/-- `Inv` is kept when a question is posted. -/
theorem post_inv {s : Chat} (h : Inv s) {k : Nat} (hk : k ≤ s.counter) :
    Inv { s with
      sends := s.sends ++ [{
        pendingId := .localTurn k, conversationId := s.conversationId, basis := s.applied }] } where
  current := h.current
  sends request hrequest := by
    cases List.mem_append.mp hrequest with
    | inl hold => exact h.sends request hold
    | inr hnew =>
      rw [List.mem_singleton.mp hnew]
      exact remembers_now s
  asks := h.asks
  shown request hrequest turn hturn hid := by
    cases List.mem_append.mp hrequest with
    | inl hold => exact h.shown request hold turn hturn hid
    | inr hnew =>
      rw [List.mem_singleton.mp hnew]
  pendingId request hrequest := by
    cases List.mem_append.mp hrequest with
    | inl hold => exact h.pendingId request hold
    | inr hnew =>
      rw [List.mem_singleton.mp hnew]
      exact ⟨k, hk, rfl⟩
  selecting := h.selecting
  applied := h.applied
  answered := h.answered

/-- `Inv` is kept by `send`. -/
theorem send_inv {s : Chat} (h : Inv s) (text : String) (streams : Bool) :
    Inv (s.send text streams) := by
  unfold Chat.send
  dsimp only
  split
  · exact h
  -- The customer's turn is shown first, on either way.
  have hcustomer : Inv { s with
      turns := s.turns ++ [s.pendingTurn (jsTrim text)], counter := s.counter + 1
      sending := true, failure := none, authRequired := false } := by
    apply Inv.show (s := { s with sending := true, failure := none, authRequired := false })
    · exact h.frame (h.turns_self rfl) rfl rfl rfl (List.Subset.refl _) rfl (List.Subset.refl _)
        rfl rfl
    · exact Nat.le_succ s.counter
    · intro turn hturn
      rw [List.mem_singleton.mp hturn]
      exact current_of_origins rfl
    · intro turn hturn k hk hid
      rw [List.mem_singleton.mp hturn] at hid
      have hcounter : s.counter + 1 = k := TurnId.localTurn.inj hid
      have hle : k ≤ s.counter := hk
      omega
  split
  -- Over the connection a placeholder for the answer is shown, and a question asked
  · have hplaceholder := hcustomer.show
      [Chat.placeholder { s with
        turns := s.turns ++ [s.pendingTurn (jsTrim text)], counter := s.counter + 1
        sending := true, failure := none, authRequired := false }]
      (Nat.le_succ _) ?_ ?_
    · exact ask_inv hplaceholder _
    · intro turn hturn
      rw [List.mem_singleton.mp hturn]
      exact current_of_origins rfl
    · intro turn hturn k _ hid
      rw [List.mem_singleton.mp hturn] at hid
      exact nomatch hid
  -- Over HTTP the request is sent
  · exact post_inv hcustomer (Nat.le_refl _)

/-- `setStatus` maps turns to current ones under their ids. -/
theorem Inv.setStatus {s : Chat} (h : Inv s) (id : TurnId) (status : TurnStatus) :
    ∀ turn' ∈ setStatus s.turns id status,
      Current s turn' ∧ ∃ turn ∈ s.turns, turn'.id = turn.id := by
  apply h.turns_map
  · intro turn
    split <;> rfl
  · intro turn _ hcurrent
    split
    · exact hcurrent
    · exact hcurrent

/-- `adopt` of the conversation that is seen changes nothing. -/
theorem adopt_self (s : Chat) (seen : Option String) : s.adopt seen seen = s := by
  cases seen with
  | none => rfl
  | some id => simp only [Chat.adopt, decide_true, Bool.or_true, if_true]

/-- `Inv` is kept when a reply arrives in time. -/
theorem replyArrives_inv {s : Chat} (h : Inv s) {i : Nat} {request : HttpSend}
    (hrequest : s.sends[i]? = some request) {response : Except Caught Reply}
    (hanswered : request.answeredBy response = true) (hok : InTime s (.reply i response)) :
    Inv ({ s with sends := s.sends.eraseIdx i }.replyArrives request response) := by
  have herase : s.sends.eraseIdx i ⊆ s.sends := List.eraseIdx_subset
  match response, hanswered, hok with
  | .ok reply, hanswered, hok =>
    have hbasis : request.basis = s.applied := hok request hrequest
    have hconversation : request.conversationId = s.conversationId :=
      (h.sends request (List.mem_of_getElem? hrequest)).2 hbasis
    have hnamed : reply.conversationId = request.conversationId := of_decide_eq_true hanswered
    simp only [Chat.replyArrives, hnamed, adopt_self]
    apply Inv.show (s := { s with
      sends := s.sends.eraseIdx i, sending := false
      turns := Chat.setStatus s.turns request.pendingId .sent })
    · exact h.frame (h.setStatus _ _) rfl rfl rfl herase rfl (List.Subset.refl _) rfl rfl
    · exact Nat.le_succ s.counter
    · intro turn hturn
      rw [List.mem_singleton.mp hturn]
      apply current_of_origins
      rw [hconversation, hbasis]
    · intro turn hturn k _ hid
      rw [List.mem_singleton.mp hturn] at hid
      exact nomatch hid
  | .error caught, _, _ =>
    exact h.frame (h.setStatus _ _) rfl rfl rfl herase rfl (List.Subset.refl _) rfl rfl

/-! ## Streams -/

/-- `Inv` is kept by a piece of an answer that is in time. -/
theorem appendDelta_inv {s : Chat} (h : Inv s) {n : Nat} {ask : StreamAsk}
    (hask : s.asks[n]? = some ask) {text : String} (hok : InTime s (.delta n text)) :
    Inv (s.appendDelta ask text) := by
  unfold Chat.appendDelta
  split
  · exact h
  rename_i target htarget
  refine h.frame (h.turns_map ?_ ?_) rfl rfl rfl (List.Subset.refl _) rfl (List.Subset.refl _)
    rfl rfl
  · intro turn
    split <;> rfl
  · intro turn hturn hcurrent
    split
    · rename_i hid
      have hbasis : ask.basis = s.applied := hok ask target hask htarget ⟨turn, hturn, hid⟩
      have hconversation : ask.conversationId = s.conversationId :=
        (h.asks ask (List.mem_of_getElem? hask)).2 hbasis
      intro origin horigin
      cases List.mem_append.mp horigin with
      | inl hold => exact hcurrent origin hold
      | inr hnew =>
        rw [List.mem_singleton.mp hnew]
        exact ⟨hconversation, hbasis⟩
    · exact hcurrent

/-- `completeTurn` keeps the id of a turn. -/
theorem completeTurn_id (target : TurnId) (ask : StreamAsk) (text : String)
    (result : StreamResult) (turn : Turn) :
    (completeTurn target ask text result turn).id = turn.id := by
  unfold completeTurn
  split
  · rfl
  · split <;> rfl

/-- With nothing to complete, the turns stay as they are. -/
theorem NothingToComplete.turns {s : Chat} {target : TurnId} {named : Option String}
    (h : NothingToComplete s target named) (ask : StreamAsk) (text : String)
    (result : StreamResult) :
    s.turns.map (completeTurn target ask text result) = s.turns := by
  have hsame : ∀ turn ∈ s.turns, completeTurn target ask text result turn = id turn := by
    intro turn hturn
    obtain ⟨hid, hpending⟩ := h.1 turn hturn
    rw [completeTurn, if_neg hid, if_neg hpending]
    rfl
  rw [List.map_congr_left hsame, List.map_id]

/-- With nothing to complete, the conversation stays selected. -/
theorem NothingToComplete.adopt {s : Chat} {target : TurnId} {named : Option String}
    (h : NothingToComplete s target named) : s.adopt named s.conversationId = s := by
  cases named with
  | none => rfl
  | some id =>
    have hskip : (id.isEmpty || decide (some id = s.conversationId)) = true := by
      cases h.2 id rfl with
      | inl hempty => rw [hempty]; rfl
      | inr hsame => rw [decide_eq_true hsame.symm, Bool.or_true]
    simp only [Chat.adopt, hskip, if_true]

/-- `Inv` is kept when an answer is completed in time. -/
theorem completeStream_inv {s : Chat} (h : Inv s) {n : Nat} {ask : StreamAsk}
    (hask : s.asks[n]? = some ask) {text : String} {result : StreamResult}
    (hok : InTime s (.complete n text result)) : Inv (s.completeStream ask text result) := by
  unfold Chat.completeStream
  split
  · exact h.frame (h.turns_self rfl) rfl rfl rfl (List.Subset.refl _) rfl (List.Subset.refl _)
      rfl rfl
  rename_i target htarget
  cases hok ask target hask htarget with
  | inl hbasis =>
    have hconversation : ask.conversationId = s.conversationId :=
      (h.asks ask (List.mem_of_getElem? hask)).2 hbasis
    rw [hconversation, adopt_self]
    refine h.frame (h.turns_map (completeTurn_id target ask text result) ?_) rfl rfl rfl
      (List.Subset.refl _) rfl (List.Subset.refl _) rfl rfl
    intro turn _ hcurrent
    unfold completeTurn
    split
    · apply current_of_origins
      rw [hconversation, hbasis]
    · split
      · exact hcurrent
      · exact hcurrent
  | inr hnothing =>
    rw [hnothing.adopt]
    exact h.frame (h.turns_self (hnothing.turns ask text result)) rfl rfl rfl
      (List.Subset.refl _) rfl (List.Subset.refl _) rfl rfl

/-- `Inv` is kept when a stream fails. -/
theorem failStream_inv {s : Chat} (h : Inv s) (message : String) : Inv (s.failStream message) := by
  refine h.frame ?_ rfl rfl rfl (List.Subset.refl _) rfl (List.Subset.refl _) rfl rfl
  intro turn' hturn'
  obtain ⟨turn, hturn, rfl⟩ := List.mem_map.mp hturn'
  have hshown : turn ∈ s.turns := (List.mem_filter.mp hturn).1
  have hcurrent : Current s turn := h.current turn hshown
  split
  · exact ⟨hcurrent, turn, hshown, rfl⟩
  · exact ⟨hcurrent, turn, hshown, rfl⟩

/-! ## Runs -/

/-- `Inv` is kept by every step that is in time. -/
theorem inv_step {s s' : Chat} {e : ChatEvent} (h : Inv s) (hok : InTime s e)
    (hstep : s.step e = some s') : Inv s' := by
  cases e with
  | resume =>
    obtain rfl := Option.some.inj hstep
    exact resume_inv h
  | send text streams =>
    obtain rfl := Option.some.inj hstep
    exact send_inv h text streams
  | loadHistory id =>
    obtain rfl := Option.some.inj hstep
    exact loadHistory_inv h id
  | start =>
    obtain rfl := Option.some.inj hstep
    exact start_inv h
  | reset =>
    obtain rfl := Option.some.inj hstep
    exact reset_inv h
  | reply i response =>
    simp only [Chat.step] at hstep
    split at hstep
    · rename_i request hrequest
      split at hstep
      · rename_i hanswered
        obtain rfl := Option.some.inj hstep
        exact replyArrives_inv h hrequest hanswered hok
      · exact nomatch hstep
    · exact nomatch hstep
  | history i response =>
    simp only [Chat.step] at hstep
    split at hstep
    · rename_i number id hq
      obtain rfl := Option.some.inj hstep
      exact historyArrives_inv h hq hok
    · exact nomatch hstep
  | started i response =>
    simp only [Chat.step] at hstep
    split at hstep
    · rename_i number hq
      obtain rfl := Option.some.inj hstep
      exact startArrives_inv h hq hok
    · exact nomatch hstep
  | delta n text =>
    simp only [Chat.step, Option.map_eq_some_iff] at hstep
    obtain ⟨ask, hask, rfl⟩ := hstep
    exact appendDelta_inv h hask hok
  | complete n text result =>
    simp only [Chat.step, Option.map_eq_some_iff] at hstep
    obtain ⟨ask, hask, rfl⟩ := hstep
    exact completeStream_inv h hask hok
  | streamError message =>
    obtain rfl := Option.some.inj hstep
    exact failStream_inv h message

/-- A map that leaves every turn leaves the turns. -/
theorem map_unmoved {turns : List Turn} {f : Turn → Turn} (h : ∀ turn ∈ turns, f turn = turn) :
    turns.map f = turns := by
  have hid : ∀ turn ∈ turns, f turn = id turn := h
  rw [List.map_congr_left hid, List.map_id]

/-- The response to a request made before the selection in effect changes nothing shown,
    nor which conversation is. -/
theorem unmoved_step {s s' : Chat} {e : ChatEvent} (h : Inv s) (hok : InTime s e)
    (hover : Overtaken s e) (hstep : s.step e = some s') : Unmoved s s' := by
  obtain ⟨number, hnumber, hlt⟩ := hover
  cases e with
  | resume | send | loadHistory | start | reset | streamError => exact nomatch hnumber
  | reply i response =>
    simp only [requestedIn, Option.map_eq_some_iff] at hnumber
    obtain ⟨request, hrequest, rfl⟩ := hnumber
    simp only [Chat.step, hrequest] at hstep
    split at hstep
    · obtain rfl := Option.some.inj hstep
      match response, hok with
      | .ok reply, hok =>
        have hbasis : request.basis = s.applied := hok request hrequest
        omega
      | .error caught, _ =>
        -- The turn the failure would mark is gone.
        refine ⟨map_unmoved ?_, rfl, rfl⟩
        intro turn hturn
        split
        · rename_i hid
          have := h.shown request (List.mem_of_getElem? hrequest) turn hturn hid
          omega
        · rfl
    · exact nomatch hstep
  -- A selection that arrives in time is newer than what is shown
  | history i response =>
    simp only [requestedIn, Option.map_eq_some_iff] at hnumber
    obtain ⟨q, hq, rfl⟩ := hnumber
    simp only [Chat.step] at hstep
    split at hstep
    · rename_i number id hentry
      obtain rfl := Option.some.inj hstep
      match response, hok with
      | .ok messages, hok =>
        have hnewer : s.applied < q.number := hok q hq
        omega
      | .error (.api code message status), hok =>
        by_cases hstatus : status = 404
        · have hnewer : s.applied < q.number := hok hstatus q hq
          omega
        · simp only [Chat.historyArrives, if_neg hstatus]
          exact ⟨rfl, rfl, rfl⟩
      | .error .other, _ => exact ⟨rfl, rfl, rfl⟩
    · exact nomatch hstep
  | started i response =>
    simp only [requestedIn, Option.map_eq_some_iff] at hnumber
    obtain ⟨q, hq, rfl⟩ := hnumber
    simp only [Chat.step] at hstep
    split at hstep
    · obtain rfl := Option.some.inj hstep
      match response, hok with
      | .ok id, hok =>
        have hnewer : s.applied < q.number := hok q hq
        omega
      | .error caught, _ => exact ⟨rfl, rfl, rfl⟩
    · exact nomatch hstep
  | delta n text =>
    simp only [requestedIn, Option.map_eq_some_iff] at hnumber
    obtain ⟨ask, hask, rfl⟩ := hnumber
    simp only [Chat.step, hask, Option.map_some] at hstep
    obtain rfl := Option.some.inj hstep
    unfold Chat.appendDelta
    split
    · exact ⟨rfl, rfl, rfl⟩
    · rename_i target htarget
      refine ⟨map_unmoved ?_, rfl, rfl⟩
      intro turn hturn
      split
      · rename_i hid
        have : ask.basis = s.applied := hok ask target hask htarget ⟨turn, hturn, hid⟩
        omega
      · rfl
  -- A question of another conversation settles no turn and adopts no id
  | complete n text result =>
    simp only [requestedIn, Option.map_eq_some_iff] at hnumber
    obtain ⟨ask, hask, rfl⟩ := hnumber
    simp only [Chat.step, hask, Option.map_some] at hstep
    obtain rfl := Option.some.inj hstep
    unfold Chat.completeStream
    split
    · exact ⟨rfl, rfl, rfl⟩
    · rename_i target htarget
      cases hok ask target hask htarget with
      | inl hbasis => omega
      | inr hnothing =>
        rw [hnothing.adopt]
        exact ⟨hnothing.turns ask text result, rfl, rfl⟩

/-- In every run whose responses arrive in time, what is shown belongs to the
    conversation selected last, and the response to a request made before that selection
    changes nothing. -/
theorem displayed_conversation {storedId : Option String} {s : Chat}
    (h : (useConversation storedId).ReachableVia InTime s) :
    Displayed s ∧ ∀ e s', InTime s e → Overtaken s e →
      (useConversation storedId).step s e = some s' → Unmoved s s' := by
  have hinv : Inv s := by
    apply h.invariant
    · exact inv_init storedId
    · exact fun _ _ _ h hok hstep => inv_step h hok hstep
  exact ⟨hinv.displayed, fun _ _ hok hover hstep => unmoved_step hinv hok hover hstep⟩

/-- Two histories are loaded, and a message sent in the first is answered before the
    second arrives. -/
def unhurried : List ChatEvent :=
  [.loadHistory "A", .history 0 (.ok []), .send "hello" false, .loadHistory "B",
   .reply 0 (.ok {
     reply := "hi", citations := none, conversationId := some "A", traceId := none
     escalated := false }),
   .history 0 (.ok [])]

/-- In the unhurried run everything is in time. -/
private theorem unhurried_meets :
    (useConversation none).Meets InTime (useConversation none).init unhurried := by
  refine ⟨trivial, fun s₁ h₁ => ⟨fun q hq => ?_, fun s₂ h₂ => ⟨trivial, fun s₃ h₃ =>
    ⟨trivial, fun s₄ h₄ => ⟨fun request hrequest => ?_, fun s₅ h₅ => ⟨fun q hq => ?_, fun _ _ =>
      trivial⟩⟩⟩⟩⟩⟩
  · obtain rfl := Option.some.inj h₁
    obtain rfl := Option.some.inj (show some _ = some q from hq)
    exact Nat.zero_lt_one
  · obtain rfl := Option.some.inj h₁
    obtain rfl := Option.some.inj h₂
    obtain rfl := Option.some.inj h₃
    obtain rfl := Option.some.inj h₄
    have hbasis : (some request).map (·.basis) = some 1 := hrequest ▸ rfl
    exact Option.some.inj hbasis
  · obtain rfl := Option.some.inj h₁
    obtain rfl := Option.some.inj h₂
    obtain rfl := Option.some.inj h₃
    obtain rfl := Option.some.inj h₄
    obtain rfl := Option.some.inj h₅
    have hnumber : (some q).map (·.number) = some 2 := hq ▸ rfl
    have hq2 : q.number = 2 := Option.some.inj hnumber
    show 1 < q.number
    omega

/-- A run in which the second of two histories is shown in the end, and nothing of the first. -/
theorem displayed_conversation_unhurried :
    ∃ s, (useConversation none).run unhurried = some s ∧ s.conversationId = some "B" ∧
      s.sends = [] ∧ Displayed s :=
  ⟨_, rfl, rfl, rfl,
    (displayed_conversation (Machine.reachableVia_of_run unhurried unhurried_meets rfl)).1⟩

/-- A reply that arrives once another history is shown is put under it. -/
theorem reply_shown_elsewhere :
    ∃ s, (useConversation none).run
        [.loadHistory "A", .history 0 (.ok []), .send "hello" false, .loadHistory "B",
          .history 0 (.ok []),
          .reply 0 (.ok {
            reply := "hi", citations := none, conversationId := some "A", traceId := none
            escalated := false })] = some s ∧
      s.conversationId = some "B" ∧ s.turns.map (·.text) = ["hi"] ∧ ¬ Displayed s := by
  refine ⟨_, rfl, rfl, rfl, fun h => ?_⟩
  have hshown := h.turns _ List.mem_cons_self _ List.mem_cons_self
  exact absurd hshown (by decide)

end NexaAssist.Spec.DisplayedConversation
