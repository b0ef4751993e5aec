import NexaAssist.Api.Assistant

/-!
# What the pipeline touches

The pipeline queries the database, asks the model, and queues requests for review, and
that is all it does to the state of a request. A relation between states that each of
these respects therefore holds across the whole of it.

## Key results

- `loop_moves`: across a run of the agent
- `analyze_moves` / `process_moves`: across the pipeline
-/

namespace NexaAssist.Spec.PipelineFootprint

open NexaAssist PyJson Effect

/-! ## Appending a turn -/

section Append

variable {R : Env → RequestState → RequestState → Prop} (hrefl : ∀ env w, R env w w)
  (htrans : ∀ env w₁ w₂ w₃, R env w₁ w₂ → R env w₂ w₃ → R env w₁ w₃)
  (hselect : ∀ {α : Type} (reading : Reading) (query : Env → Database → α),
    Moves R (App.select reading query))

include hrefl htrans hselect

/-- `ConversationService.get` moves a request as the footprint allows. -/
theorem get_moves (c : Uuid) (scope : Option OwnerScope) :
    Moves R (ConversationService.get c scope) := by
  unfold ConversationService.get
  apply Moves.bind htrans (hselect _ _)
  intro conversation
  split
  · exact .throw hrefl _
  · split
    · exact .throw hrefl _
    · exact .pure hrefl _

/-- `append` moves as its query, its insert and its commit do. -/
theorem append_moves
    (hinsert : ∀ {α : Type} (row : Env → Nat → α) (store : α → Database → Database),
      Moves R (App.insert row store))
    (hcommit : Moves R App.commit) (c : Uuid) (role : MessageRole) (content : PyStr)
    (citations : List Citation) (scope : Option OwnerScope) :
    Moves R (ConversationService.append c role content citations scope) := by
  apply Moves.bind htrans (get_moves hrefl htrans hselect c scope)
  intro _
  apply Moves.bind htrans (hselect _ _)
  intro position
  apply Moves.bind htrans (hinsert _ _)
  intro message
  exact .bind htrans hcommit fun _ => .pure hrefl _

end Append

/-! ## Parts of the pipeline that call no tools -/

section Parts

variable {R : Env → RequestState → RequestState → Prop} (hrefl : ∀ env w, R env w w)
  (htrans : ∀ env w₁ w₂ w₃, R env w₁ w₂ → R env w₂ w₃ → R env w₁ w₃)

include hrefl htrans

/-- `KnowledgeBaseHandler.handle` moves as its queries and its prompts do. -/
theorem knowledgeBase_moves
    (hselect : ∀ {α : Type} (reading : Reading) (query : Env → Database → α),
      Moves R (App.select reading query))
    (hcomplete : ∀ {α : Type}
      (answer : LLMProvider → List LLMPrompt → LLMPrompt → Except LLMError α) (prompt : LLMPrompt),
      Moves R (App.complete answer prompt))
    (topK : Nat) (request : HandlerRequest) :
    Moves R (KnowledgeBaseHandler.handle topK request) := by
  unfold KnowledgeBaseHandler.handle AnswerService.answer
  refine .bind htrans (.bind htrans (hselect _ _) ?_) fun _ => .pure hrefl _
  intro chunks
  split
  · exact .pure hrefl _
  · exact .bind htrans (hcomplete _ _) fun _ => .pure hrefl _

/-- `consider` moves as `enqueue` does. -/
theorem consider_moves
    (henqueue : ∀ (message : PyStr) (intent : IntentCategory) (reason : EscalationReason)
      (proposedReply : Option PyStr) (ticketId : Option Uuid), Moves R (App.onBehalfOf .handoff
        (ReviewQueue.enqueue message intent reason proposedReply ticketId)))
    (minConfidence : Rat) (message : Text) (routed : RoutedReply) (ticketId : Option Uuid) :
    Moves R (HandoffService.consider minConfidence message routed ticketId) := by
  unfold HandoffService.consider HandoffService.record
  dsimp only
  split
  · exact .pure hrefl _
  · apply Moves.bind htrans
    · apply Moves.tryCatch htrans
      · exact .bind htrans (henqueue _ _ _ _ _) fun _ => .pure hrefl _
      · intro raised
        split
        · exact .pure hrefl _
        · exact .throw hrefl _
    · exact fun _ => .pure hrefl _

end Parts

/-! ## The pipeline's footprint -/

/-- A preorder on the states of a request that everything the pipeline does respects. -/
structure Footprint (R : Env → RequestState → RequestState → Prop) : Prop where
  refl : ∀ env w, R env w w
  trans : ∀ env w₁ w₂ w₃, R env w₁ w₂ → R env w₂ w₃ → R env w₁ w₃
  select : ∀ {α : Type} (reading : Reading) (query : Env → Database → α),
    Moves R (App.select reading query)
  complete : ∀ {α : Type}
    (answer : LLMProvider → List LLMPrompt → LLMPrompt → Except LLMError α) (prompt : LLMPrompt),
    Moves R (App.complete answer prompt)
  enqueue : ∀ (message : PyStr) (intent : IntentCategory) (reason : EscalationReason)
    (proposedReply : Option PyStr) (ticketId : Option Uuid),
    Moves R (App.onBehalfOf .handoff
      (ReviewQueue.enqueue message intent reason proposedReply ticketId))
  tool : ∀ {α : Type} {x : App α}, Moves R x → Moves R (App.onBehalfOf .tool x)

/-- What `Except.map` returns comes from what was there. -/
theorem of_map_eq_ok {ε α β : Type} {f : α → β} {x : Except ε α} {b : β}
    (hmap : x.map f = .ok b) : ∃ a, x = .ok a ∧ f a = b := by
  cases x with
  | error e => exact nomatch hmap
  | ok a => exact ⟨a, rfl, Except.ok.inj hmap⟩

namespace Footprint

variable {R : Env → RequestState → RequestState → Prop} (h : Footprint R)

include h

/-! ## Tools -/

/-- `LookupTicketTool.run` moves a request as the footprint allows. -/
theorem lookupTicket_moves (ticketId : Uuid) : Moves R (LookupTicketTool.run ticketId) := by
  unfold LookupTicketTool.run TicketService.get
  refine .bind h.trans (.tryCatch h.trans (.bind h.trans (h.select _ _) ?_) ?_) ?_
  · intro ticket
    cases ticket with
    | none => exact .throw h.refl _
    | some ticket =>
      show Moves R (if refuses none ticket.ownerSubject then _ else _)
      split
      · exact .throw h.refl _
      · exact .pure h.refl _
  · intro raised
    split
    · split <;> exact .throw h.refl _
    · exact .throw h.refl _
  · intro ticket
    exact .bind h.trans (.ask h.refl) fun _ => .pure h.refl _

/-- `ListTicketsTool.statusOf` moves a request as the footprint allows. -/
theorem statusOf_moves (status : Option PyStr) : Moves R (ListTicketsTool.statusOf status) := by
  unfold ListTicketsTool.statusOf
  cases status with
  | none => exact .pure h.refl _
  | some value =>
    apply Moves.bind h.trans (.ask h.refl)
    intro env
    split
    · exact .pure h.refl _
    · exact .throw h.refl _

/-- `ListTicketsTool.run` moves a request as the footprint allows. -/
theorem listTickets_moves (params : ListTicketsParams) : Moves R (ListTicketsTool.run params) := by
  unfold ListTicketsTool.run
  apply Moves.bind h.trans (h.statusOf_moves _)
  intro status
  apply Moves.bind h.trans (h.select _ _)
  intro tickets
  exact .bind h.trans (.ask h.refl) fun _ => .pure h.refl _

/-- `SearchKnowledgeBaseTool.run` moves a request as the footprint allows. -/
theorem searchKnowledgeBase_moves (params : SearchKnowledgeBaseParams) :
    Moves R (SearchKnowledgeBaseTool.run params) :=
  .bind h.trans (h.select _ _) fun _ => .pure h.refl _

/-- Whatever tool is found, a call of it moves as `R` does. -/
theorem invoke_moves {name : PyStr} {tool : Tool} (hget : toolRegistry.get name = some tool)
    (parse : ParamParsers) {params : List (PyStr × PyValue)} {call : App PyValue}
    (hinvoke : tool.invoke parse params = .ok call) : Moves R call := by
  rw [toolRegistry_get] at hget
  split at hget
  · obtain rfl := Option.some.inj hget
    obtain ⟨ticketId, -, rfl⟩ := of_map_eq_ok hinvoke
    exact h.lookupTicket_moves _
  · split at hget
    · obtain rfl := Option.some.inj hget
      obtain ⟨parsed, -, rfl⟩ := of_map_eq_ok hinvoke
      exact h.listTickets_moves _
    · split at hget
      · obtain rfl := Option.some.inj hget
        obtain ⟨parsed, -, rfl⟩ := of_map_eq_ok hinvoke
        exact h.searchKnowledgeBase_moves _
      · exact nomatch hget

/-- `ToolExecutor.execute` moves a request as the footprint allows. -/
theorem execute_moves (name : PyStr) (params : List (PyStr × PyValue)) :
    Moves R (ToolExecutor.execute toolRegistry name params) := by
  unfold ToolExecutor.execute
  apply Moves.bind h.trans (.ask h.refl)
  intro env
  split
  · exact .pure h.refl _
  · rename_i tool hget
    split
    · exact .pure h.refl _
    · rename_i call hinvoke
      unfold ToolExecutor.run
      apply Moves.tryCatch h.trans
      · exact .bind h.trans (h.tool (h.invoke_moves hget _ hinvoke)) fun _ => .pure h.refl _
      · intro raised
        split <;> exact .pure h.refl _

/-! ## Handlers -/

/-- `AgentLoop.decide` moves a request as the footprint allows. -/
theorem decide_moves (agent : AgentLoop) (state : AgentState) : Moves R (agent.decide state) :=
  .bind h.trans (.ask h.refl) fun _ => h.complete _ _

/-- By induction on the loop: a turn moves as `R` does, and so do those after it. -/
theorem loop_moves {agent : AgentLoop} (hexecute : ∀ tool params, Moves R (agent.execute tool params))
    (state : AgentState) : Moves R (agent.loop state) := by
  induction hleft : state.remainingSteps using Nat.strongRecOn generalizing state with
  | ind left ih =>
    cases hgo : state.exhausted with
    | some reason =>
      rw [AgentLoop.loop_of_exhausted hgo]
      exact .pure h.refl _
    | none =>
      rw [AgentLoop.loop_of_going hgo]
      apply Moves.bind h.trans
      · apply Moves.tryCatch h.trans
        · exact .bind h.trans (h.decide_moves _ _) fun _ => .pure h.refl _
        · intro raised
          split
          · exact .pure h.refl _
          · exact .throw h.refl _
      · intro decision
        cases decision with
        | none => exact .pure h.refl _
        | some decision =>
          simp only
          split
          · exact .pure h.refl _
          · rename_i tool htool
            apply Moves.bind h.trans (hexecute _ _)
            intro result
            subst hleft
            exact ih _ (state.recordToolCall_remainingSteps hgo tool result) _ rfl

/-- `AgentHandler.handle` moves a request as the footprint allows. -/
theorem agent_moves (budget : AgentBudget) (request : HandlerRequest) :
    Moves R (AgentHandler.handle (buildAgent budget) request) :=
  .bind h.trans (h.loop_moves h.execute_moves _) fun _ => .pure h.refl _

/-! ## The pipeline -/

section Pipeline

variable (settings : Settings) (word : WordTable)

/-- The handler that was chosen moves as the footprint allows, whichever it is. -/
theorem chosen_moves (analysis : IntentAnalysis) (request : HandlerRequest) :
    Moves R (((getAssistantService settings word).router.chosen analysis).handle request) := by
  have hfallback : Moves R (fallbackHandler.handle request) := .pure h.refl _
  have hdocumented :=
    knowledgeBase_moves h.refl h.trans h.select h.complete settings.retrievalTopK request
  have hagent := h.agent_moves (budgetFromSettings settings) request
  unfold IntentRouter.chosen
  split
  · exact hfallback
  · cases analysis.intent with
    | billing =>
      apply Moves.bind h.trans hdocumented
      intro response
      split
      · exact .pure h.refl _
      · exact hagent
    | technicalSupport => exact hagent
    | account => exact hdocumented
    | productQuestion => exact hdocumented
    | complaint => exact hagent
    | other => exact hfallback

/-- `IntentService.analyze` moves as the footprint allows. -/
theorem analyze_moves (message : Text) : Moves R (IntentService.analyze message) :=
  h.complete _ _

/-- `process` moves as the footprint allows. -/
theorem process_moves (message : Text) (analysis : IntentAnalysis) :
    Moves R ((getAssistantService settings word).process message analysis) := by
  unfold AssistantService.process IntentRouter.route
  refine .bind h.trans (.bind h.trans (h.chosen_moves settings word analysis _) ?_) ?_
  · exact fun _ => .pure h.refl _
  · exact fun _ => .bind h.trans (consider_moves h.refl h.trans h.enqueue _ _ _ _)
      fun _ => .pure h.refl _

end Pipeline

end Footprint

end NexaAssist.Spec.PipelineFootprint
