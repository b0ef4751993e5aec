import NexaAssist.Api.Router
import NexaAssist.Spec.PipelineFootprint

/-!
# What a subject can see

Two databases are alike to a subject where they agree on the rows it owns and on what is
shared. Code that is given the subject's scope, or reads what is shared, runs in lockstep
over the two: it returns the same, issues the same statements, and sends the same prompts.

## Key results

- `append_lockstep`, `conversation_lockstep`, `ticket_lockstep`: the scoped services
- `knowledgeBase_lockstep`, `analyze_lockstep`, `consider_lockstep`: the pipeline, but for
  the agent
-/

namespace NexaAssist.Spec.SubjectView

open NexaAssist PyJson Effect

/-! ## Rows -/

section Rows

variable (A : PyStr) (db : Database)

def ownTickets : List Ticket := db.tickets.filter fun ticket => ticket.ownerSubject = some A

def ownConversations : List Conversation :=
  db.conversations.filter fun conversation => conversation.ownerSubject = some A

/-- The turns of the subject's conversations. -/
def ownMessages : List ConversationMessage :=
  db.messages.filter fun message =>
    (ownConversations A db).any fun conversation => conversation.id = message.conversationId

end Rows

/-- The primary keys are keys. -/
structure Keyed (db : Database) : Prop where
  tickets : (db.tickets.map (·.id)).Nodup
  conversations : (db.conversations.map (·.id)).Nodup

/-- Databases that agree on what is the subject's, and on what is shared. -/
structure Alike (A : PyStr) (a b : Database) : Prop where
  left : Keyed a
  right : Keyed b
  tickets : ownTickets A a = ownTickets A b
  conversations : ownConversations A a = ownConversations A b
  messages : ownMessages A a = ownMessages A b
  documents : a.documents = b.documents
  chunks : a.chunks = b.chunks

/-- Of rows with distinct keys, the one of a key that satisfies `p` is the one found among
    those that satisfy `p`. -/
theorem find?_filter_of_nodup {α κ : Type} [DecidableEq κ] (key : α → κ) (p : α → Bool)
    {rows : List α} (h : (rows.map key).Nodup) (k : κ) :
    (rows.filter p).find? (fun row => key row = k) =
      (rows.find? fun row => key row = k).filter p := by
  induction rows with
  | nil => rfl
  | cons row rows ih =>
    rw [List.map_cons, List.nodup_cons] at h
    by_cases hkey : key row = k
    · -- No row after this one has the key.
      have hnone : (rows.filter p).find? (fun row => key row = k) = none := by
        rw [List.find?_eq_none]
        intro other hother hsame
        have hmem := List.mem_map_of_mem (f := key) (List.mem_of_mem_filter hother)
        exact h.1 ((hkey.trans (of_decide_eq_true hsame).symm) ▸ hmem)
      cases hp : p row with
      | true => simp [hp, hkey, Option.filter]
      | false => simp [hp, hkey, Option.filter, hnone]
    · cases hp : p row with
      | true => simp [hp, hkey, ih h.2]
      | false => simp [hp, hkey, ih h.2]

section Alike

variable {A : PyStr} {a b : Database}

/-- A ticket of the subject's is found in both. -/
theorem Alike.find_ticket (h : Alike A a b) (id : Uuid) :
    (a.tickets.find? fun ticket => ticket.id = id).filter (fun ticket => ticket.ownerSubject = some A) =
      (b.tickets.find? fun ticket => ticket.id = id).filter
        (fun ticket => ticket.ownerSubject = some A) := by
  rw [← find?_filter_of_nodup Ticket.id _ h.left.tickets,
    ← find?_filter_of_nodup Ticket.id _ h.right.tickets]
  exact congrArg _ h.tickets

/-- The subject finds the same conversations of its own in both. -/
theorem Alike.find_conversation (h : Alike A a b) (id : Uuid) :
    (a.conversations.find? fun conversation => conversation.id = id).filter
        (fun conversation => conversation.ownerSubject = some A) =
      (b.conversations.find? fun conversation => conversation.id = id).filter
        (fun conversation => conversation.ownerSubject = some A) := by
  rw [← find?_filter_of_nodup Conversation.id _ h.left.conversations,
    ← find?_filter_of_nodup Conversation.id _ h.right.conversations]
  exact congrArg _ h.conversations

/-- A scoped page is made of the subject's tickets. -/
theorem page_eq (status : Option TicketStatus) (limit offset : Nat) :
    TicketService.page status (some { subject := A }) limit offset a.tickets =
      TicketService.page status none limit offset (ownTickets A a) := by
  have hfilter : a.tickets.filter (TicketService.matching status (some { subject := A })) =
      (ownTickets A a).filter (TicketService.matching status none) := by
    rw [ownTickets, List.filter_filter]
    congr 1
    funext ticket
    simp [TicketService.matching]
  rw [TicketService.page, TicketService.page, hfilter]

/-- The turns of a conversation of the subject's are the subject's. -/
theorem turnsOf_eq {c : Uuid} (h : ∃ conversation ∈ ownConversations A a, conversation.id = c) :
    ConversationService.turnsOf c a =
      (ownMessages A a).filter fun message => message.conversationId = c := by
  obtain ⟨conversation, hmem, rfl⟩ := h
  rw [ownMessages, List.filter_filter, ConversationService.turnsOf]
  apply List.filter_congr
  intro message _
  by_cases hsame : message.conversationId = conversation.id
  · have hany : ((ownConversations A a).any fun other => other.id = message.conversationId) =
        true := List.any_eq_true.mpr ⟨conversation, hmem, by simp [hsame]⟩
    rw [hany, Bool.and_true]
  · simp [hsame]

end Alike

/-! ## Two requests -/

/-- Two requests of a subject, of which it cannot tell which is which. `own` is what tickets
    it has, and `rows` what tickets there are for the second one. -/
structure Shadow (A : PyStr) (own rows : List Ticket) (s t : RequestState) : Prop where
  db : Alike A s.db t.db
  committed : Alike A s.committed t.committed
  own : ownTickets A s.db = own ∧ ownTickets A s.committed = own
  rows : t.db.tickets = rows ∧ t.committed.tickets = rows
  session : s.session = t.session
  caller : s.caller = t.caller
  issued : s.issued = t.issued
  prompts : s.prompts = t.prompts

section Shadow

variable {A : PyStr} {own rows : List Ticket} {s t : RequestState}

/-- Noting an outcome keeps requests alike. -/
theorem Shadow.record (h : Shadow A own rows s t) (reading : Reading) (outcome : Outcome) :
    Shadow A own rows (s.record reading outcome) (t.record reading outcome) where
  db := h.db
  committed := h.committed
  own := h.own
  rows := h.rows
  session := h.session
  caller := h.caller
  issued := by
    simp only [RequestState.record, h.issued, h.caller, h.prompts]
  prompts := h.prompts

/-- A failure in both databases keeps the shadow. -/
theorem Shadow.fail (h : Shadow A own rows s t) (reading : Reading) (fault : Fault) (flush : Bool) :
    Shadow A own rows (s.fail reading fault flush) (t.fail reading fault flush) where
  db := h.committed
  committed := h.committed
  own := ⟨h.own.2, h.own.2⟩
  rows := ⟨h.rows.2, h.rows.2⟩
  session := by simp only [RequestState.fail, h.session]
  caller := h.caller
  issued := by
    simp only [RequestState.fail, RequestState.record, h.issued, h.caller, h.prompts, h.session]
  prompts := h.prompts

/-- `onBehalfOf` keeps the shadow. -/
theorem Shadow.onBehalfOf (h : Shadow A own rows s t) (caller : Caller) :
    Shadow A own rows { s with caller } { t with caller } where
  db := h.db
  committed := h.committed
  own := h.own
  rows := h.rows
  session := h.session
  caller := rfl
  issued := h.issued
  prompts := h.prompts

/-- A session that is opened or closed in both databases keeps the shadow. -/
theorem Shadow.renewed (h : Shadow A own rows s t) :
    Shadow A own rows { s with db := s.committed, session := .idle }
      { t with db := t.committed, session := .idle } where
  db := h.committed
  committed := h.committed
  own := ⟨h.own.2, h.own.2⟩
  rows := ⟨h.rows.2, h.rows.2⟩
  session := rfl
  caller := h.caller
  issued := h.issued
  prompts := h.prompts

/-- A prompt to the provider keeps the shadow. -/
theorem Shadow.sendPrompt (h : Shadow A own rows s t) (prompt : LLMPrompt) :
    Shadow A own rows (s.sendPrompt prompt) (t.sendPrompt prompt) where
  db := h.db
  committed := h.committed
  own := h.own
  rows := h.rows
  session := h.session
  caller := h.caller
  issued := h.issued
  prompts := by simp only [RequestState.sendPrompt, h.prompts]

/-- A statement fails in both databases or is done in both, and keeps the shadow. -/
theorem statement_shadow {α : Type} (flush : Bool) (reading : Reading)
    (run : Env → Nat → Database → α × Database) (env : Env)
    (halike : ∀ n a b, Alike A a b → Alike A (run env n a).2 (run env n b).2)
    (htickets : ∀ n a, (run env n a).2.tickets = a.tickets)
    (h : Shadow A own rows s t) :
    (∃ s' t', App.statement flush reading run env s = (.error .sqlalchemy, s') ∧
      App.statement flush reading run env t = (.error .sqlalchemy, t') ∧ Shadow A own rows s' t') ∨
    (∃ s' t', App.statement flush reading run env s =
        (.ok (run env s.issued.length s.db).1, s') ∧
      App.statement flush reading run env t = (.ok (run env s.issued.length t.db).1, t') ∧
      s'.db = (run env s.issued.length s.db).2 ∧ t'.db = (run env s.issued.length t.db).2 ∧
      Shadow A own rows s' t') := by
  obtain ⟨hsession, hrun⟩ | ⟨hsession, fault, hfault, hrun⟩ | ⟨hsession, hfault, hrun⟩ :=
    App.statement_cases flush reading run env s
  · have hrun' := App.statement_of_inactive flush reading run env (h.session ▸ hsession)
    exact .inl ⟨_, _, hrun, hrun', h.record reading .rejected⟩
  · have hrun' := App.statement_of_fault flush reading run env (h.session ▸ hsession)
      (h.issued ▸ hfault)
    exact .inl ⟨_, _, hrun, hrun', h.fail reading fault flush⟩
  · have hrun' := App.statement_of_done flush reading run env (h.session ▸ hsession)
      (h.issued ▸ hfault)
    have hrecord := h.record reading .done
    rw [← h.issued] at hrun'
    refine .inr ⟨_, _, hrun, hrun', rfl, rfl, ?_⟩
    exact {
      db := halike s.issued.length s.db t.db h.db
      committed := h.committed
      own := by
        refine ⟨?_, h.own.2⟩
        rw [← h.own.1]
        simp only [ownTickets, htickets]
      rows := ⟨(htickets _ _).trans h.rows.1, h.rows.2⟩
      session := rfl
      caller := h.caller
      issued := hrecord.issued
      prompts := h.prompts }

/-- A query fails in both databases or is answered in both, though what it reads may differ. -/
theorem select_shadow {α : Type} (reading : Reading) (query : Env → Database → α) (env : Env)
    (h : Shadow A own rows s t) :
    (∃ s' t', App.select reading query env s = (.error .sqlalchemy, s') ∧
      App.select reading query env t = (.error .sqlalchemy, t') ∧ Shadow A own rows s' t') ∨
    (∃ s' t', App.select reading query env s = (.ok (query env s.db), s') ∧
      App.select reading query env t = (.ok (query env t.db), t') ∧
      s'.db = s.db ∧ t'.db = t.db ∧ Shadow A own rows s' t') :=
  statement_shadow false reading (fun env _ db => (query env db, db)) env
    (fun _ _ _ halike => halike) (fun _ _ => rfl) h

end Shadow

section Lockstep

variable {A : PyStr} {own rows : List Ticket}

/-- A query that reads alike in databases that are `Alike` keeps both runs in step. -/
theorem select_lockstep {α : Type} (reading : Reading) {query : Env → Database → α}
    (hquery : ∀ env a b, Alike A a b → query env a = query env b) :
    Lockstep (Shadow A own rows) (App.select reading query) := by
  intro env s t h
  obtain ⟨s', t', hs, ht, h'⟩ | ⟨s', t', hs, ht, -, -, h'⟩ := select_shadow reading query env h
  · rw [hs, ht]
    exact ⟨rfl, h'⟩
  · rw [hs, ht, hquery env s.db t.db h.db]
    exact ⟨rfl, h'⟩

/-- `insert` keeps requests alike, if the row does. -/
theorem insert_lockstep {α : Type} (row : Env → Nat → α) (store : α → Database → Database)
    (hstore : ∀ r a b, Alike A a b → Alike A (store r a) (store r b))
    (htickets : ∀ r a, (store r a).tickets = a.tickets) :
    Lockstep (Shadow A own rows) (App.insert row store) := by
  intro env s t h
  obtain ⟨s', t', hs, ht, h'⟩ | ⟨s', t', hs, ht, -, -, h'⟩ :=
    statement_shadow true .nothing (fun env n db => (row env n, store (row env n) db)) env
      (fun _ a b halike => hstore _ a b halike) (fun _ _ => htickets _ _) h
  · rw [App.insert, hs, ht]
    exact ⟨rfl, h'⟩
  · rw [App.insert, hs, ht]
    exact ⟨rfl, h'⟩

/-- `commit` keeps requests alike. -/
theorem commit_lockstep : Lockstep (Shadow A own rows) App.commit := by
  intro env s t h
  unfold App.commit
  rw [← h.session, ← h.issued]
  cases s.session with
  | inactive => exact ⟨rfl, h.record .nothing .rejected⟩
  | idle => exact ⟨rfl, h⟩
  | begun =>
    cases env.faults s.issued.length with
    | some fault => exact ⟨rfl, h.fail .nothing fault false⟩
    | none =>
      refine ⟨rfl, ?_⟩
      exact {
        db := h.db
        committed := h.db
        own := ⟨h.own.1, h.own.1⟩
        rows := ⟨h.rows.1, h.rows.1⟩
        session := rfl
        caller := h.caller
        issued := (h.record .nothing .done).issued
        prompts := h.prompts }

/-- The model answers the same prompts alike. -/
theorem complete_lockstep {α : Type}
    (answer : LLMProvider → List LLMPrompt → LLMPrompt → Except LLMError α) (prompt : LLMPrompt) :
    Lockstep (Shadow A own rows) (App.complete answer prompt) := by
  intro env s t h
  have hstate := h.sendPrompt prompt
  unfold App.complete
  rw [h.prompts]
  cases answer env.provider t.prompts prompt with
  | ok a => exact ⟨rfl, hstate⟩
  | error error => exact ⟨rfl, hstate⟩

/-- What is done as another caller keeps requests alike, if it does so by itself. -/
theorem onBehalfOf_lockstep {α : Type} (caller : Caller) {x : App α}
    (hx : Lockstep (Shadow A own rows) x) : Lockstep (Shadow A own rows) (App.onBehalfOf caller x) := by
  intro env s t h
  obtain ⟨hresult, hstate⟩ := hx env _ _ (h.onBehalfOf caller)
  have hback := hstate.onBehalfOf s.caller
  refine ⟨hresult, ?_⟩
  show Shadow A own rows _ { (x env { t with caller }).2 with caller := t.caller }
  rw [← h.caller]
  exact hback

/-! ## The scoped services -/

/-- What was found, or an error. -/
def answerOf {α : Type} (missing : AppError) : Option α → App α
  | none => throw (.app missing)
  | some row => pure row

/-- `answerOf` keeps requests alike. -/
theorem answerOf_lockstep {α : Type} (missing : AppError) (found : Option α) :
    Lockstep (Shadow A own rows) (answerOf missing found) := by
  cases found with
  | none => exact .throw _
  | some row => exact .pure _

/-- A scoped ticket is looked for among the subject's. -/
theorem ticket_eq (A : PyStr) (ticketId : Uuid) :
    TicketService.get ticketId (some { subject := A }) = (do
      let found ← App.select (.ticket ticketId) fun _ db =>
        db.tickets.find? fun ticket => ticket.id = ticketId
      answerOf (ticketNotFoundError [("ticket_id", ticketId.str)])
        (found.filter fun ticket => ticket.ownerSubject = some A)) := by
  unfold TicketService.get
  congr 1
  funext found
  cases found with
  | none => rfl
  | some ticket =>
    by_cases hown : ticket.ownerSubject = some A <;>
      simp [refuses, OwnerScope.permits, Option.filter, answerOf, hown]

/-- `ConversationService.get` of a scope looks for a conversation of its subject. -/
theorem conversation_eq (A : PyStr) (c : Uuid) :
    ConversationService.get c (some { subject := A }) = (do
      let found ← App.select .nothing fun _ db =>
        db.conversations.find? fun conversation => conversation.id = c
      answerOf (conversationNotFoundError [("conversation_id", c.str)])
        (found.filter fun conversation => conversation.ownerSubject = some A)) := by
  unfold ConversationService.get
  congr 1
  funext found
  cases found with
  | none => rfl
  | some conversation =>
    by_cases hown : conversation.ownerSubject = some A <;>
      simp [refuses, OwnerScope.permits, Option.filter, answerOf, hown]

/-- `TicketService.get` keeps requests of the subject alike. -/
theorem ticket_lockstep (ticketId : Uuid) :
    Lockstep (Shadow A own rows) (TicketService.get ticketId (some { subject := A })) := by
  intro env s t h
  rw [ticket_eq]
  obtain ⟨s', t', hs, ht, h'⟩ | ⟨s', t', hs, ht, -, -, h'⟩ := select_shadow (.ticket ticketId)
    (fun _ db => db.tickets.find? fun ticket => ticket.id = ticketId) env h
  · rw [bind_of_error hs, bind_of_error ht]
    exact ⟨rfl, h'⟩
  · rw [bind_of_ok hs, bind_of_ok ht, h.db.find_ticket ticketId]
    exact answerOf_lockstep _ _ env s' t' h'

/-- `TicketService.list` of the caller keeps both runs in step. -/
theorem list_lockstep (status : Option TicketStatus) (limit offset : Nat) :
    Lockstep (Shadow A own rows) (TicketService.list status limit offset (some { subject := A })) := by
  apply select_lockstep
  intro env a b h
  rw [page_eq, page_eq, h.tickets]

/-- A conversation that `get` finds is the subject's in both databases, and the query has changed
    neither. -/
theorem conversation_cases (c : Uuid) (env : Env) {s t : RequestState} (h : Shadow A own rows s t) :
    (∃ raised s' t', ConversationService.get c (some { subject := A }) env s = (.error raised, s') ∧
      ConversationService.get c (some { subject := A }) env t = (.error raised, t') ∧
      Shadow A own rows s' t') ∨
    (∃ conversation s' t',
      ConversationService.get c (some { subject := A }) env s = (.ok conversation, s') ∧
      ConversationService.get c (some { subject := A }) env t = (.ok conversation, t') ∧
      Shadow A own rows s' t' ∧ conversation ∈ ownConversations A s'.db ∧ conversation.id = c) := by
  rw [conversation_eq]
  obtain ⟨s', t', hs, ht, h'⟩ | ⟨s', t', hs, ht, hdb, -, h'⟩ := select_shadow .nothing
    (fun _ db => db.conversations.find? fun conversation => conversation.id = c) env h
  · rw [bind_of_error hs, bind_of_error ht]
    exact .inl ⟨_, s', t', rfl, rfl, h'⟩
  · rw [bind_of_ok hs, bind_of_ok ht, ← h.db.find_conversation c]
    cases hfound : (s.db.conversations.find? fun conversation => conversation.id = c).filter
        fun conversation => conversation.ownerSubject = some A with
    | none => exact .inl ⟨_, s', t', rfl, rfl, h'⟩
    | some conversation =>
      obtain ⟨hfind, hown⟩ := Option.filter_eq_some_iff.mp hfound
      refine .inr ⟨conversation, s', t', rfl, rfl, h', ?_, ?_⟩
      · rw [hdb]
        exact List.mem_filter.mpr ⟨List.mem_of_find?_eq_some hfind, hown⟩
      · simpa using List.find?_some hfind

/-- `ConversationService.get` of the caller keeps both runs in step. -/
theorem conversation_lockstep (c : Uuid) :
    Lockstep (Shadow A own rows) (ConversationService.get c (some { subject := A })) := by
  intro env s t h
  obtain ⟨raised, s', t', hs, ht, h'⟩ | ⟨conversation, s', t', hs, ht, h', -, -⟩ :=
    conversation_cases c env h
  · rw [hs, ht]
    exact ⟨rfl, h'⟩
  · rw [hs, ht]
    exact ⟨rfl, h'⟩

/-- The turns of a conversation of the subject's are the same in both. -/
theorem turnsOf_alike {a b : Database} (h : Alike A a b) {conversation : Conversation}
    (hmem : conversation ∈ ownConversations A a) :
    ConversationService.turnsOf conversation.id a =
      ConversationService.turnsOf conversation.id b := by
  rw [turnsOf_eq ⟨conversation, hmem, rfl⟩,
    turnsOf_eq ⟨conversation, h.conversations ▸ hmem, rfl⟩, h.messages]

/-- A query of the turns of a conversation of the subject's. -/
theorem turns_shadow {α : Type} (f : List ConversationMessage → α) (env : Env)
    {s t : RequestState} (h : Shadow A own rows s t) {conversation : Conversation}
    (hmem : conversation ∈ ownConversations A s.db) :
    ∃ r s' t', App.select .nothing (fun _ db => f (ConversationService.turnsOf conversation.id db))
        env s = (r, s') ∧
      App.select .nothing (fun _ db => f (ConversationService.turnsOf conversation.id db))
        env t = (r, t') ∧
      Shadow A own rows s' t' := by
  obtain ⟨s', t', hs, ht, h'⟩ | ⟨s', t', hs, ht, -, -, h'⟩ := select_shadow .nothing
    (fun _ db => f (ConversationService.turnsOf conversation.id db)) env h
  · exact ⟨_, s', t', hs, ht, h'⟩
  · rw [← turnsOf_alike h.db hmem] at ht
    exact ⟨_, s', t', hs, ht, h'⟩

variable (A own rows) in
/-- A turn that is inserted keeps both runs in step. -/
theorem storeTurn_lockstep (row : Env → Nat → ConversationMessage) :
    Lockstep (Shadow A own rows) (App.insert row fun message db =>
      { db with messages := db.messages ++ [message] }) := by
  apply insert_lockstep
  · intro message a b h
    exact {
      left := ⟨h.left.tickets, h.left.conversations⟩
      right := ⟨h.right.tickets, h.right.conversations⟩
      tickets := h.tickets
      conversations := h.conversations
      messages := by
        have hmessages := h.messages
        have hconversations := h.conversations
        simp only [ownMessages, ownConversations] at hmessages hconversations ⊢
        rw [List.filter_append, List.filter_append, hmessages, hconversations]
      documents := h.documents
      chunks := h.chunks }
  · intro _ _
    rfl

/-- The position after those of some turns. -/
private def positionAfter (turns : List ConversationMessage) : Nat :=
  match (turns.map (·.position)).max? with
  | none => 0
  | some highest => highest + 1

/-- `ConversationService.append` of the caller keeps both runs in step. -/
theorem append_lockstep (c : Uuid) (role : MessageRole) (content : PyStr)
    (citations : List Citation) : Lockstep (Shadow A own rows)
      (ConversationService.append c role content citations (some { subject := A })) := by
  intro env s t h
  unfold ConversationService.append
  obtain ⟨raised, s', t', hs, ht, h'⟩ | ⟨conversation, s', t', hs, ht, h', hmem, rfl⟩ :=
    conversation_cases c env h
  · rw [bind_of_error hs, bind_of_error ht]
    exact ⟨rfl, h'⟩
  · rw [bind_of_ok hs, bind_of_ok ht]
    obtain ⟨r, s₂, t₂, hs₂, ht₂, h₂⟩ := turns_shadow positionAfter env h' hmem
    cases r with
    | error raised =>
      rw [bind_of_error (x := ConversationService.nextPosition conversation.id) hs₂,
        bind_of_error (x := ConversationService.nextPosition conversation.id) ht₂]
      exact ⟨rfl, h₂⟩
    | ok position =>
      rw [bind_of_ok (x := ConversationService.nextPosition conversation.id) hs₂,
        bind_of_ok (x := ConversationService.nextPosition conversation.id) ht₂]
      have hrest := (storeTurn_lockstep A own rows fun env n => {
        conversationId := conversation.id, position, role, content
        tokenEstimate := estimateTokens content
        citations
        createdAt := env.now n }).bind fun message =>
          commit_lockstep.bind fun _ => Lockstep.pure message
      exact hrest env s₂ t₂ h₂

/-- `ConversationService.history` keeps both runs in step, behind its check. -/
theorem history_lockstep (c : Uuid) (limit : Option Nat) :
    Lockstep (Shadow A own rows) (do
      let _ ← ConversationService.get c (some { subject := A })
      ConversationService.history c limit) := by
  intro env s t h
  obtain ⟨raised, s', t', hs, ht, h'⟩ | ⟨conversation, s', t', hs, ht, h', hmem, rfl⟩ :=
    conversation_cases c env h
  · rw [bind_of_error hs, bind_of_error ht]
    exact ⟨rfl, h'⟩
  · rw [bind_of_ok hs, bind_of_ok ht]
    obtain ⟨r, s₂, t₂, hs₂, ht₂, h₂⟩ :=
      turns_shadow (ConversationService.recent limit) env h' hmem
    have hs' : ConversationService.history conversation.id limit env s' = (r, s₂) := hs₂
    have ht' : ConversationService.history conversation.id limit env t' = (r, t₂) := ht₂
    rw [hs', ht']
    exact ⟨rfl, h₂⟩

/-! ## The pipeline, but for the agent -/

/-- `DocumentService.search` keeps both runs in step. -/
theorem search_lockstep (query : PyStr) (topK : Nat) :
    Lockstep (Shadow A own rows) (DocumentService.search query topK) := by
  apply select_lockstep
  intro env a b h
  simp only [DocumentService.titled, h.chunks, h.documents]

/-- `KnowledgeBaseHandler.handle` keeps both runs in step. -/
theorem knowledgeBase_lockstep (topK : Nat) (request : HandlerRequest) :
    Lockstep (Shadow A own rows) (KnowledgeBaseHandler.handle topK request) := by
  unfold KnowledgeBaseHandler.handle AnswerService.answer
  refine ((search_lockstep _ _).bind ?_).bind fun _ => .pure _
  intro chunks
  split
  · exact .pure _
  · exact (complete_lockstep _ _).bind fun _ => .pure _

/-- `IntentService.analyze` keeps both runs in step. -/
theorem analyze_lockstep (message : Text) :
    Lockstep (Shadow A own rows) (IntentService.analyze message) := complete_lockstep _ _

/-- `ReviewQueue.enqueue` keeps both runs in step, since no subject sees the queue. -/
theorem enqueue_lockstep (message : PyStr) (intent : IntentCategory) (reason : EscalationReason)
    (proposedReply : Option PyStr) (ticketId : Option Uuid) : Lockstep (Shadow A own rows)
      (ReviewQueue.enqueue message intent reason proposedReply ticketId) := by
  refine (insert_lockstep _ _ ?_ ?_).bind fun item => commit_lockstep.bind fun _ => .pure item
  · intro item a b h
    exact ⟨⟨h.left.tickets, h.left.conversations⟩, ⟨h.right.tickets, h.right.conversations⟩,
      h.tickets, h.conversations, h.messages, h.documents, h.chunks⟩
  · intro _ _
    rfl

/-- `HandoffService.consider` keeps both runs in step. -/
theorem consider_lockstep (minConfidence : Rat) (message : Text) (routed : RoutedReply)
    (ticketId : Option Uuid) : Lockstep (Shadow A own rows)
      (HandoffService.consider minConfidence message routed ticketId) := by
  unfold HandoffService.consider
  dsimp only
  split
  · exact .pure _
  · refine Lockstep.bind (.tryCatch ?_ ?_) fun _ => .pure _
    · exact (onBehalfOf_lockstep _ (enqueue_lockstep _ _ _ _ _)).bind fun _ => .pure _
    · intro raised
      split
      · exact .pure _
      · exact .throw _

/-- `AssistantService.record` keeps both runs in step. -/
theorem record_lockstep (conversationId : Option Uuid) (role : MessageRole) (content : PyStr)
    (citations : List Citation) : Lockstep (Shadow A own rows) (AssistantService.record conversationId
      role content (some { subject := A }) citations) := by
  cases conversationId with
  | none => exact .pure _
  | some c => exact (append_lockstep c role content citations).bind fun _ => .pure _

end Lockstep

end NexaAssist.Spec.SubjectView
