import NexaAssist.Spec.StrayReading

/-!
# What reaches a subject of another's tickets

What a subject is answered, and what the model is shown on its behalf, depends on the
tickets of others exactly where a tool reads tickets that are not the subject's and the
model is asked again afterwards.

## Key results

- `serve_tracks`: every request a subject can make
- `foreign_tells`: what a tool has read can be told from the next prompt
- `noninterference_iff`: when a subject is served alike whatever the others have
-/

namespace NexaAssist.Spec.CrossSubject

open NexaAssist PyJson Effect AgentLoop AgentLedger PipelineFootprint SwallowedFailure SubjectView
  StrayReading

/-! ## The requests -/

/-- The frames of a reply, or of an error. -/
def framesOf (conversationId : Option Uuid) : Except Raised AssistantReply → List ServerMessage
  | .ok reply => AnswerStreamer.replyFrames conversationId reply
  | .error (.app error) => [AnswerStreamer.errorFrame error]
  | .error (.llm error) => [AnswerStreamer.errorFrame error.error]
  | .error _ => [.error (lit "realtime_answer_failed") AnswerStreamer.STREAM_FAILED_MESSAGE]

/-- `answerGrounded` sends the frames of what is answered. -/
theorem answerGrounded_eq (answerer : Answerer) (question : Text) (conversationId : Option Uuid)
    (env : Env) (w : RequestState) :
    AnswerStreamer.answerGrounded answerer question conversationId env w =
      (.ok (framesOf conversationId (answerer.answer question conversationId env w).1),
        (answerer.answer question conversationId env w).2) := by
  unfold AnswerStreamer.answerGrounded
  match hrun : answerer.answer question conversationId env w with
  | (.ok reply, w') => exact tryCatch_of_ok (bind_of_ok hrun)
  | (.error raised, w') =>
    refine (tryCatch_of_error (bind_of_error hrun)).trans ?_
    cases raised <;> rfl

section Requests

variable (A : PyStr) (own : List Ticket)

/-- `AgentHandler.handle` can be followed in the shadow. -/
theorem agent_tracks (budget : AgentBudget) (request : HandlerRequest) :
    Tracks A own (AgentHandler.handle (buildAgent budget) request) :=
  responding_tracks budget A own { question := request.message.val, budget, steps := [] }

/-- `KnowledgeBaseHandler.handle` is scoped. -/
theorem knowledgeBase_scoped (topK : Nat) (request : HandlerRequest) :
    Scoped A own (KnowledgeBaseHandler.handle topK request) :=
  ⟨fun _ => knowledgeBase_lockstep topK request, asides_of_owns (knowledgeBase_owns topK request)⟩

/-- `record` of the caller is scoped. -/
theorem record_scoped (conversationId : Option Uuid) (role : MessageRole) (content : PyStr)
    (citations : List Citation) : Scoped A own (AssistantService.record conversationId role content
      (some { subject := A }) citations) :=
  ⟨fun _ => record_lockstep conversationId role content citations,
    asides_of_owns (record_owns conversationId role content _ citations)⟩

section Pipeline

variable (settings : Settings) (word : WordTable)

/-- The handler that a message is routed to can be followed in the shadow, whichever it is. -/
theorem chosen_tracks (analysis : IntentAnalysis) (request : HandlerRequest) :
    Tracks A own
      (((getAssistantService settings word).router.chosen analysis).handle request) := by
  have hfallback : Tracks A own (fallbackHandler.handle request) := (Scoped.pure _).tracks
  have hdocumented := knowledgeBase_scoped A own settings.retrievalTopK request
  have hagent := agent_tracks A own (budgetFromSettings settings) request
  unfold IntentRouter.chosen
  split
  · exact hfallback
  · cases analysis.intent with
    | billing =>
      apply Tracks.after hdocumented
      intro response
      split
      · exact (Scoped.pure _).tracks
      · exact hagent
    | technicalSupport => exact hagent
    | account => exact hdocumented.tracks
    | productQuestion => exact hdocumented.tracks
    | complaint => exact hagent
    | other => exact hfallback

/-- `respond` can be followed in the shadow. -/
theorem respond_tracks (message : Text) (conversationId : Option Uuid) :
    Tracks A own ((getAssistantService settings word).respond message conversationId
      (some { subject := A })) := by
  have hanalyze : Scoped A own (IntentService.analyze message) :=
    ⟨fun _ => analyze_lockstep message, asides_of_owns (complete_owns _ _)⟩
  have hconsider : ∀ routed, Scoped A own
      (HandoffService.consider settings.routingMinConfidence message routed none) := fun routed =>
    ⟨fun _ => consider_lockstep _ message routed none, consider_asides _ message routed none⟩
  have hmuted : ∀ {α : Type} (a : α), Moves Mutes (pure a : App α) := fun a => .pure mutes_refl a
  refine Tracks.after (record_scoped A own _ _ _ _) fun _ => Tracks.after hanalyze fun analysis => ?_
  apply Tracks.before
  · unfold AssistantService.process IntentRouter.route
    apply Tracks.before
    · exact (chosen_tracks A own settings word analysis _).before (fun _ => .pure _)
        fun _ => hmuted _
    · exact fun routed => (hconsider routed).bind fun _ => .pure _
    · exact fun routed => .bind mutes_trans (consider_mutes _ _ _ _) fun _ => hmuted _
  · exact fun routed => (record_scoped A own _ _ _ _).bind fun _ => .pure _
  · exact fun routed => .bind mutes_trans (record_mutes _ _ _ _ _) fun _ => hmuted _

end Pipeline

/-- A scoped ticket is looked for with one query. -/
theorem ticket_owns (ticketId : Uuid) :
    Moves Owns (TicketService.get ticketId (some { subject := A })) := by
  rw [ticket_eq]
  apply Moves.bind owns_trans (statement_owns _ _ _)
  intro found
  cases found.filter fun ticket => ticket.ownerSubject = some A with
  | none => exact .throw owns_refl _
  | some ticket => exact .pure owns_refl _

/-- Every request that a subject can make can be followed in the shadow. -/
theorem serve_tracks (request : Request) : Tracks A own (serve A request) := by
  -- A request in a session of its own that only renders what it read
  have hscoped : ∀ {α : Type} {x : App α} (f : α → Response), Scoped A own x →
      Tracks A own (f <$> App.inNewSession x) := fun f hx =>
    hx.tracks.inNewSession.before (fun _ => .pure _) fun _ => .pure mutes_refl _
  have hget : ∀ c, Moves Owns (ConversationService.get c (some { subject := A })) := fun c =>
    get_moves owns_refl owns_trans (fun _ _ => statement_owns _ _ _) c _
  cases request with
  -- The reads filter by the owner
  | getTicket ticketId =>
    have hticket : Scoped A own (TicketService.get ticketId (some { subject := A })) :=
      ⟨fun _ => ticket_lockstep ticketId, asides_of_owns (ticket_owns A ticketId)⟩
    exact hscoped _ (hticket.bind fun _ => .pure _)
  | listTickets status limit offset =>
    have hlist : Scoped A own (TicketService.list status limit offset (some { subject := A })) :=
      ⟨fun _ => list_lockstep status limit offset, asides_of_owns (statement_owns _ _ _)⟩
    exact hscoped _ (hlist.bind fun _ => .pure _)
  | readConversation conversationId =>
    have hconversation : Scoped A own
        (ConversationService.get conversationId (some { subject := A })) :=
      ⟨fun _ => conversation_lockstep conversationId, asides_of_owns (hget conversationId)⟩
    exact hscoped _ (hconversation.bind fun _ => .pure _)
  | readHistory conversationId limit =>
    have hhistory : Scoped A own (do
        let _ ← ConversationService.get conversationId (some { subject := A })
        ConversationService.history conversationId limit) :=
      ⟨fun _ => history_lockstep conversationId limit,
        asides_of_owns (.bind owns_trans (hget conversationId) fun _ => statement_owns _ _ _)⟩
    have hresponse := hscoped (fun history => .history history)
      (hhistory.bind fun messages => .pure
        ({ conversationId, messages := messages.map .ofMessage } : ConversationHistoryResponse))
    rw [Effect.bind_assoc] at hresponse
    exact hresponse
  -- The writes first look for the conversation among the subject's own
  | append conversationId role content =>
    exact hscoped _ ⟨fun _ => append_lockstep conversationId role content [],
      asides_of_owns (append_owns conversationId role content [] _)⟩
  -- A message is answered by the whole pipeline in one session
  | message message conversationId =>
    refine Tracks.before (.after .ask fun env => ?_) (fun _ => .pure _) fun _ => .pure mutes_refl _
    exact (respond_tracks A own env.settings env.text.word message conversationId).inNewSession
  -- And so is a question on a connection, its frames made from the same reply
  | ask question conversationId =>
    refine Tracks.after .ask fun env => Tracks.before ?_ (fun _ => .pure _) fun _ => .pure mutes_refl _
    have hanswer := (respond_tracks A own env.settings env.text.word question
      conversationId).inNewSession
    exact hanswer.mapResult (fun result => .ok (framesOf conversationId result))
      (answerGrounded_eq (SessionAnswerer (getAssistantService env.settings env.text.word)
        (some { subject := A }) env.settings.databaseConfigured) question conversationId)

end Requests

/-! ## What a leak tells -/

/-- The model sees the output of a tool in the next prompt. -/
theorem output_of_prompt {agent : AgentLoop} {text : TextTables} {state : AgentState}
    {tool : PyStr} {result result' : ToolResult} (hok : result.outcome = .ok)
    (hok' : result'.outcome = .ok)
    (h : agent.prompt text (state.recordToolCall tool result) =
      agent.prompt text (state.recordToolCall tool result')) :
    strValue text.printable text.floatRepr result.output =
      strValue text.printable text.floatRepr result'.output := by
  -- What was observed before, and the line of this call.
  have hlines : ∀ result : ToolResult,
      ((state.recordToolCall tool result).steps.filterMap (observation text)) =
        state.steps.filterMap (observation text) ++ [
          lit "[" ++ lit (toString state.stepCount) ++ lit "] " ++ tool ++ lit " -> " ++
            result.outcome.value ++ lit ": " ++
            if result.outcome = .ok then strValue text.printable text.floatRepr result.output
            else result.error.getD (lit "None")] := by
    intro result
    rw [AgentState.recordToolCall_steps, List.filterMap_append]
    rfl
  have hshown : ∀ result : ToolResult, PyStr.join (lit "\n")
      ((state.recordToolCall tool result).steps.filterMap (observation text)) ≠ [] := by
    intro result
    rw [hlines]
    apply PyStr.join_ne_nil
    simp [lit, PyStr.ofString]
  have hallowance : allowance (state.recordToolCall tool result) =
      allowance (state.recordToolCall tool result') := by
    simp [allowance, AgentState.remainingSteps, AgentState.remainingToolCalls]
  have huser := congrArg LLMPrompt.user h
  simp only [AgentLoop.prompt, render, hshown, if_false, AgentState.recordToolCall_question,
    hallowance] at huser
  have hlearned := PyStr.join_cancel (lit "\n\n")
    [lit "Tools:\n" ++ agent.registry.describeAll text] _ huser
  have hobserved := List.append_cancel_left hlearned
  rw [hlines, hlines] at hobserved
  have hline := PyStr.join_cancel (lit "\n") _ [] hobserved
  rw [hok, hok'] at hline
  simpa using hline

/-- A ticket of somebody else's. -/
def stranger (A : PyStr) (id : Uuid) (status : TicketStatus) (time : Int) (subject : PyStr) :
    Ticket where
  id := id
  customerId := id
  ownerSubject := some (lit "not " ++ A)
  subject := subject
  body := lit "Confidential."
  status := status
  createdAt := time
  updatedAt := time

/-- The ticket of a stranger is no own one. -/
theorem stranger_not_own (A : PyStr) (id : Uuid) (status : TicketStatus) (time : Int)
    (subject : PyStr) : (stranger A id status time subject).ownerSubject ≠ some A := by
  intro h
  have hlength := congrArg List.length (Option.some.inj h)
  rw [List.length_append] at hlength
  have hlit : (lit "not ").length = 4 := rfl
  omega

section Tells

variable (A : PyStr) (text : TextTables) (id : Uuid) (status : TicketStatus) (time : Int)

/-- The two subjects of the tickets are written differently. -/
theorem repr_subject :
    reprStr text.printable (lit "Refund") ≠ reprStr text.printable (lit "Outage") := by
  have hplain : ∀ s : PyStr, (s.all fun c => decide (0x20 ≤ c.val ∧ c.val < 0x7f ∧ c.val ≠ 0x27 ∧
      c.val ≠ 0x5c)) = true → reprStr text.printable s = [0x27] ++ s ++ [0x27] := fun s hs =>
    reprStr_of_plain fun c hc => of_decide_eq_true (List.all_eq_true.mp hs c hc)
  rw [hplain (lit "Refund") (by decide), hplain (lit "Outage") (by decide)]
  decide

/-- What is returned for a ticket that was looked up shows its subject. -/
theorem lookup_tells :
    reprValue text.printable text.floatRepr
        (LookupTicketTool.describe text (stranger A id status time (lit "Refund"))) ≠
      reprValue text.printable text.floatRepr
        (LookupTicketTool.describe text (stranger A id status time (lit "Outage"))) := by
  intro h
  simp only [LookupTicketTool.describe, reprValue, reprEntries, field] at h
  have hentries := List.append_cancel_left (List.append_cancel_right h)
  have hsubject := PyStr.join_cancel (.ofString ", ") [_, _] [_, _, _] hentries
  exact repr_subject text (List.append_cancel_left hsubject)

/-- What `list_tickets` returns for a ticket shows its subject. -/
theorem list_tells :
    reprValue text.printable text.floatRepr
        (ListTicketsTool.describe text (stranger A id status time (lit "Refund"))) ≠
      reprValue text.printable text.floatRepr
        (ListTicketsTool.describe text (stranger A id status time (lit "Outage"))) := by
  intro h
  simp only [ListTicketsTool.describe, reprValue, reprEntries, field] at h
  have hentries := List.append_cancel_left (List.append_cancel_right h)
  have hsubject := PyStr.join_cancel (.ofString ", ") [_] [_, _] hentries
  exact repr_subject text (List.append_cancel_left hsubject)

/-- Some time is later than every ticket. -/
theorem exists_later (own : List Ticket) : ∃ time : Int, ∀ ticket ∈ own, ticket.createdAt < time := by
  induction own with
  | nil => exact ⟨0, by simp⟩
  | cons ticket own ih =>
    obtain ⟨time, hlater⟩ := ih
    refine ⟨max time (ticket.createdAt + 1), ?_⟩
    intro other hother
    cases List.mem_cons.mp hother with
    | inl heq =>
      rw [heq]
      omega
    | inr hmem =>
      have := hlater other hmem
      omega

/-- The newest ticket of the status that is asked for comes first on the page. -/
theorem page_newest {own : List Ticket} (hlater : ∀ ticket ∈ own, ticket.createdAt < time)
    {asked : Option TicketStatus} (hstatus : ∀ value, asked = some value → status = value)
    {limit : Nat} (hlimit : 0 < limit) :
    ∃ rest, ∀ subject, TicketService.page asked none limit 0
        (stranger A id status time subject :: own) = stranger A id status time subject :: rest := by
  refine ⟨(((own.filter (TicketService.matching asked none)).insertionSort
    (newestFirst · ·))).take (min limit MAX_PAGE_SIZE - 1), fun subject => ?_⟩
  have hmatching : TicketService.matching asked none (stranger A id status time subject) = true := by
    cases asked with
    | none => rfl
    | some value => simp [TicketService.matching, stranger, hstatus value rfl]
  have hfirst : ∀ sorted : List Ticket, (∀ ticket ∈ sorted, ticket.createdAt < time) →
      sorted.orderedInsert (newestFirst · ·) (stranger A id status time subject) =
        stranger A id status time subject :: sorted := by
    intro sorted hsorted
    cases sorted with
    | nil => rfl
    | cons ticket sorted =>
      apply List.orderedInsert_cons_of_le
      simp [newestFirst, stranger, hsorted ticket List.mem_cons_self]
  have hpage : 0 < min limit MAX_PAGE_SIZE := by
    unfold MAX_PAGE_SIZE
    omega
  unfold TicketService.page
  rw [List.filter_cons_of_pos hmatching, List.insertionSort_cons, hfirst, List.drop_zero,
    List.take_cons hpage]
  intro ticket hticket
  rw [List.mem_insertionSort] at hticket
  exact hlater ticket (List.mem_of_mem_filter hticket)

/-- What was read beyond the subject's own can be two things, and the model sees which. -/
theorem foreign_tells {own : List Ticket} {reading : Reading} (h : Foreign own reading) :
    ∃ id status time, id ∉ own.map (·.id) ∧ ∀ (agent : AgentLoop) (state : AgentState) (tool : PyStr),
      agent.prompt text (state.recordToolCall tool
          (resultOf text (stranger A id status time (lit "Refund") :: own) reading)) ≠
        agent.prompt text (state.recordToolCall tool
          (resultOf text (stranger A id status time (lit "Outage") :: own) reading)) := by
  cases reading with
  | nothing => exact h.elim
  | ticket id =>
    refine ⟨id, .opened, 0, h, fun agent state tool hsame => ?_⟩
    have hfound : ∀ subject, resultOf text (stranger A id .opened 0 subject :: own) (.ticket id) =
        .success (lit "lookup_ticket")
          (LookupTicketTool.describe text (stranger A id .opened 0 subject)) := by
      intro subject
      simp [resultOf, stranger]
    rw [hfound, hfound] at hsame
    exact lookup_tells A text id .opened 0 (output_of_prompt rfl rfl hsame)
  | tickets asked limit =>
    obtain ⟨hlimit, id, hfresh⟩ := h
    obtain ⟨time, hlater⟩ := exists_later own
    have hstatus : ∀ value, asked = some value → asked.getD .opened = value := by
      rintro value rfl
      rfl
    obtain ⟨rest, hpage⟩ := page_newest A id (asked.getD .opened) time hlater hstatus hlimit
    refine ⟨id, asked.getD .opened, time, hfresh, fun agent state tool hsame => ?_⟩
    have houtput := output_of_prompt rfl rfl hsame
    simp only [resultOf, hpage, ToolResult.success, strValue, List.map_cons, reprValue,
      reprList] at houtput
    have hitems := List.append_cancel_left (List.append_cancel_right houtput)
    exact list_tells A text id _ time (PyStr.join_cancel (.ofString ", ") [] _ hitems)

end Tells

/-- The database of somebody who has the same, beside one ticket of somebody else's. -/
def besides (own : List Ticket) (ticket : Ticket) (db : Database) : Database :=
  { db with tickets := ticket :: own }

/-- A database is alike with a stranger's ticket in it. -/
theorem alike_besides {A : PyStr} {db : Database} (hkeyed : Keyed db) {ticket : Ticket}
    (howner : ticket.ownerSubject ≠ some A) (hfresh : ticket.id ∉ (ownTickets A db).map (·.id)) :
    Alike A db (besides (ownTickets A db) ticket db) where
  left := hkeyed
  right := {
    tickets := by
      show ((ticket :: ownTickets A db).map (·.id)).Nodup
      rw [List.map_cons, List.nodup_cons]
      exact ⟨hfresh, hkeyed.tickets.sublist (List.filter_sublist.map _)⟩
    conversations := hkeyed.conversations }
  tickets := by
    show ownTickets A db = (ticket :: ownTickets A db).filter _
    rw [List.filter_cons_of_neg (by simpa using howner)]
    simp [ownTickets, List.filter_filter]
  conversations := rfl
  messages := rfl
  documents := rfl
  chunks := rfl

/-- Requests over databases that are alike start in each other's shadow. -/
theorem shadow_start {A : PyStr} {db other : Database} (h : Alike A db other) :
    Shadow A (ownTickets A db) other.tickets (.start db) (.start other) where
  db := h
  committed := h
  own := ⟨rfl, rfl⟩
  rows := ⟨rfl, rfl⟩
  session := rfl
  caller := rfl
  issued := rfl
  prompts := rfl

/-- A request starts confined. -/
theorem confined_start (own : List Ticket) (db : Database) : Confined own (.start db) :=
  ⟨(by decide : Caller.other ≠ .tool), fun _ h => nomatch h⟩

/-- A subject is served alike whatever the others have, in what it is answered and in what
    the model is shown on its behalf, exactly when no tool reads tickets beyond the
    subject's own before the model is asked again. -/
theorem noninterference_iff (A : PyStr) (request : Request) (env : Env) (db : Database)
    (hkeyed : Keyed db) :
    (∀ other, Alike A db other →
      (serve A request env (.start db)).1 = (serve A request env (.start other)).1 ∧
      (serve A request env (.start db)).2.prompts =
        (serve A request env (.start other)).2.prompts) ↔
    Discreet (ownTickets A db) (serve A request env (.start db)).2 := by
  have htracks := serve_tracks A (ownTickets A db) request
  have hconfined := confined_start (ownTickets A db) db
  constructor
  · intro hsame
    by_contra hdiscreet
    obtain ⟨agent, state, tool, reading, before, hforeign, hleak⟩ :=
      htracks.leaks env _ hconfined hdiscreet
    obtain ⟨id, status, time, hfresh, htells⟩ := foreign_tells A env.text hforeign
    -- Two databases with one ticket of somebody else's, of which only the subject differs.
    have hshown : ∀ subject, before ++ [agent.prompt env.text (state.recordToolCall tool
        (resultOf env.text (stranger A id status time subject :: ownTickets A db) reading))] <+:
          (serve A request env (.start db)).2.prompts := by
      intro subject
      have halike := alike_besides hkeyed (stranger_not_own A id status time subject) hfresh
      rw [(hsame _ halike).2]
      exact hleak _ _ (shadow_start halike)
    have hprompts := (List.prefix_of_prefix_length_le (hshown (lit "Refund"))
      (hshown (lit "Outage")) (by simp)).eq_of_length (by simp)
    exact htells agent state tool (by simpa using hprompts)
  · intro hdiscreet other halike
    obtain ⟨hresult, hstate⟩ :=
      htracks.together env _ hconfined hdiscreet _ _ (shadow_start halike)
    exact ⟨hresult, hstate.prompts⟩

/-! ## Two subjects -/

/-- A model that lists the tickets, and says whether there has been an outage. -/
def gossipingProvider : LLMProvider :=
  { listingProvider with
    agentDecision := fun prompts prompt => .ok (
      if prompts.length = 1 then
        { tool := some (lit "list_tickets"), toolParams := [], finalAnswer := none }
      else
        { tool := none, toolParams := [], finalAnswer := some (
            if PyStr.isIn (lit "Outage") prompt.user then lit "Yes."
            else lit "No.") }) }

/-- A database with one ticket, of somebody else's. -/
def neighbours : Database :=
  besides [] (stranger (lit "alice") supportConversation .opened 0 (lit "Outage")) openDatabase

/-- The databases of the example are alike. -/
theorem neighbours_alike : Alike (lit "alice") openDatabase neighbours :=
  alike_besides ⟨by decide, by decide⟩ (stranger_not_own _ _ _ _ _) (by decide)

/-- The request of both. -/
def outageQuestion : Request := .message ⟨lit "Is it down?", by decide⟩ none

/-- An environment in which no tool is called. -/
def unsureEnv : Env := Env.plain unsureProvider .refusing (.default true)

/-- What the environment of the model that gossips is. -/
def gossipingEnv : Env := Env.plain gossipingProvider listingParsers (.default true)

/-- A provider that is unsure, over both. -/
theorem noninterference_iff_unsure :
    (serve (lit "alice") outageQuestion unsureEnv (.start openDatabase)).1 =
      (serve (lit "alice") outageQuestion unsureEnv (.start neighbours)).1 ∧
    (serve (lit "alice") outageQuestion unsureEnv (.start openDatabase)).2.prompts =
      (serve (lit "alice") outageQuestion unsureEnv (.start neighbours)).2.prompts := by
  have hcallers : ∀ issue ∈ (serve (lit "alice") outageQuestion unsureEnv
      (.start openDatabase)).2.issued, issue.caller ≠ .tool := by decide +kernel
  have hdiscreet : Discreet (ownTickets (lit "alice") openDatabase)
      (serve (lit "alice") outageQuestion unsureEnv (.start openDatabase)).2 :=
    fun issue hissue hstrays => absurd hstrays.caller (hcallers issue hissue)
  have hserved := noninterference_iff (lit "alice") outageQuestion unsureEnv openDatabase
    ⟨by decide, by decide⟩
  exact hserved.mpr hdiscreet neighbours neighbours_alike

/-- What a reply says. -/
def said : Except Raised Response → Option PyStr
  | .ok (.reply reply) => some reply.reply.val
  | _ => none

/-- The two databases are alike to a subject, and the reply tells them apart. -/
theorem reply_shows_stranger :
    ¬ ∀ (A : PyStr) (request : Request) (env : Env) (db other : Database), Alike A db other →
      (serve A request env (.start db)).1 = (serve A request env (.start other)).1 ∧
      (serve A request env (.start db)).2.prompts =
        (serve A request env (.start other)).2.prompts := by
  intro hsame
  have hserved := (hsame (lit "alice") outageQuestion gossipingEnv _ _ neighbours_alike).1
  have hdiffer : said (serve (lit "alice") outageQuestion gossipingEnv (.start openDatabase)).1 ≠
      said (serve (lit "alice") outageQuestion gossipingEnv (.start neighbours)).1 := by
    decide +kernel
  exact hdiffer (congrArg said hserved)

end NexaAssist.Spec.CrossSubject
