import NexaAssist.Services.Assistant

/-!
# What becomes of a classified message

In the shipped wiring either no policy rule fires, and the handler's text is sent as it
is, or some rule fires, and the customer reads one fixed sentence while a person is asked.
-/

namespace NexaAssist.Spec.PipelineDichotomy

open NexaAssist PyJson AssistantService

/-! ## The two ways -/

/-- What the rules see. -/
def contextOf (message : Text) (analysis : IntentAnalysis) (response : HandlerResponse) :
    PolicyContext where
  message := message.val
  analysis := analysis
  proposedReply := response.reply.val
  handled := response.handled

/-- No rule fires, and the handler's response is sent as it is. -/
structure Answered (word : WordTable) (context : PolicyContext) (response : HandlerResponse)
    (sent : AssistantReply) : Prop where
  silent : ∀ rule ∈ (defaultRules word).rules, PolicyEngine.fires rule context = false
  reply : sent.reply = response.reply
  citations : sent.citations = response.citations
  handled : sent.handled = true
  escalated : sent.escalated = false
  uncommitted : commits word sent.reply.val = false

/-- Some rule fires, and a person is asked. -/
structure Reviewed (word : WordTable) (context : PolicyContext) (response : HandlerResponse)
    (sent : AssistantReply) : Prop where
  fires : ∃ rule ∈ (defaultRules word).rules, PolicyEngine.fires rule context = true
  reply : sent.reply = REVIEW_REPLY
  escalated : sent.escalated = true
  reasons : sent.escalationReasons ≠ []
  citations : response.reply ≠ REVIEW_REPLY → sent.citations = []

/-- When a message is answered. -/
def Answerable (word : WordTable) (minConfidence : Rat) (analysis : IntentAnalysis)
    (response : HandlerResponse) : Prop :=
  analysis.intent ≠ .other ∧ analysis.intent ≠ .complaint ∧
    minConfidence ≤ analysis.confidence.val ∧ response.handled = true ∧
    commits word response.reply.val = false

/-! ## The handoff -/

/-- Raises nothing but what the database raises. -/
def OnlyDatabaseErrors {α : Type} (x : App α) : Prop :=
  ∀ env w raised w', x env w = (.error raised, w') → raised = .sqlalchemy

/-- Two programs that raise database errors only do so one after the other. -/
theorem OnlyDatabaseErrors.bind {α β : Type} {x : App α} {f : α → App β}
    (hx : OnlyDatabaseErrors x) (hf : ∀ a, OnlyDatabaseErrors (f a)) :
    OnlyDatabaseErrors (x >>= f) := by
  intro env w raised w' h
  match hrun : x env w with
  | (.ok a, w₁) =>
    rw [Effect.bind_of_ok hrun] at h
    exact hf a env w₁ raised w' h
  | (.error e, w₁) =>
    rw [Effect.bind_of_error hrun] at h
    obtain ⟨herror, rfl⟩ := Prod.mk.inj h
    rw [← Except.error.inj herror]
    exact hx env w e w₁ hrun

/-- `App.insert` raises database errors only. -/
theorem insert_onlyDatabaseErrors {α : Type} (row : Env → Nat → α)
    (store : α → Database → Database) : OnlyDatabaseErrors (App.insert row store) := by
  intro env w raised w' h
  simp only [App.insert, App.statement] at h
  split at h
  · exact (Except.error.inj (Prod.mk.inj h).1).symm
  · split at h
    · exact (Except.error.inj (Prod.mk.inj h).1).symm
    · cases (Prod.mk.inj h).1

/-- `App.commit` raises database errors only. -/
theorem commit_onlyDatabaseErrors : OnlyDatabaseErrors App.commit := by
  intro env w raised w' h
  simp only [App.commit] at h
  split at h
  · exact (Except.error.inj (Prod.mk.inj h).1).symm
  · exact nomatch (Prod.mk.inj h).1
  · split at h
    · exact (Except.error.inj (Prod.mk.inj h).1).symm
    · exact nomatch (Prod.mk.inj h).1

/-- `ReviewQueue.enqueue` raises database errors only. -/
theorem enqueue_onlyDatabaseErrors (message : PyStr) (intent : IntentCategory)
    (reason : EscalationReason) (proposedReply : Option PyStr) (ticketId : Option Uuid) :
    OnlyDatabaseErrors (ReviewQueue.enqueue message intent reason proposedReply ticketId) := by
  unfold ReviewQueue.enqueue
  apply (insert_onlyDatabaseErrors _ _).bind
  intro item
  apply commit_onlyDatabaseErrors.bind
  intro _ env w raised w' h
  exact nomatch (Prod.mk.inj h).1

/-- `App.onBehalfOf` raises database errors only, if its program does. -/
theorem onBehalfOf_onlyDatabaseErrors {α : Type} (caller : Caller) {x : App α}
    (h : OnlyDatabaseErrors x) : OnlyDatabaseErrors (App.onBehalfOf caller x) := by
  intro env w raised w' hrun
  obtain ⟨herror, -⟩ := Prod.mk.inj hrun
  exact h env { w with caller } raised _ (Prod.ext herror rfl)

/-- `HandoffService.record` returns, whatever fails in it. -/
theorem record_returns (message : Text) (routed : RoutedReply) (reason : Option EscalationReason)
    (ticketId : Option Uuid) (env : Env) (w : RequestState) :
    ∃ result w', HandoffService.record message routed reason ticketId env w = (.ok result, w') := by
  unfold HandoffService.record
  match henqueue : App.onBehalfOf .handoff (ReviewQueue.enqueue message.val
      routed.decision.intent (reason.getD .unresolved) (some routed.reply.val) ticketId) env w with
  | (.ok item, w₁) =>
    have hbody := Effect.bind_of_ok (f := fun item : ReviewItem =>
      (pure (some item.id, true) : App (Option Uuid × Bool))) henqueue
    exact ⟨(some item.id, true), w₁, Effect.tryCatch_of_ok hbody⟩
  | (.error raised, w₁) =>
    have honly := onBehalfOf_onlyDatabaseErrors .handoff
      (enqueue_onlyDatabaseErrors message.val routed.decision.intent (reason.getD .unresolved)
        (some routed.reply.val) ticketId) env w raised w₁ henqueue
    have hbody := Effect.bind_of_error (f := fun item : ReviewItem =>
      (pure (some item.id, true) : App (Option Uuid × Bool))) henqueue
    refine ⟨(none, false), w₁, ?_⟩
    rw [Effect.tryCatch_of_error hbody, honly]
    rfl

/-- `consider` sends the reply as it is where there is no reason. -/
theorem consider_of_no_reason {minConfidence : Rat} {message : Text} {routed : RoutedReply}
    (h : EscalationCriteria.reasons minConfidence (HandoffService.escalationOf message routed) = [])
    (env : Env) (w : RequestState) :
    HandoffService.consider minConfidence message routed none env w =
      (.ok {
        reply := routed.reply, escalated := false, reasons := [], reviewId := none
        queued := false }, w) := by
  have hstay : (EscalationCriteria.evaluate minConfidence
      (HandoffService.escalationOf message routed)).escalate = false := by
    simp only [EscalationCriteria.evaluate, h, List.isEmpty_nil, Bool.not_true]
  simp only [HandoffService.consider, hstay]
  rfl

/-- `consider` sends the reply with a notice where there is a reason, whether or not it could be
    queued. -/
theorem consider_of_reason {minConfidence : Rat} {message : Text} {routed : RoutedReply}
    (h : EscalationCriteria.reasons minConfidence (HandoffService.escalationOf message routed) ≠ [])
    (env : Env) (w : RequestState) :
    ∃ handoff w', HandoffService.consider minConfidence message routed none env w =
        (.ok handoff, w') ∧
      handoff.reply = HandoffService.withNotice routed.reply ∧ handoff.escalated = true ∧
      handoff.reasons = EscalationCriteria.reasons minConfidence (HandoffService.escalationOf message routed) := by
  have hescalate : (EscalationCriteria.evaluate minConfidence
      (HandoffService.escalationOf message routed)).escalate = true := by
    simpa [EscalationCriteria.evaluate] using h
  obtain ⟨⟨reviewId, queued⟩, w', hrecord⟩ := record_returns message routed
    (EscalationCriteria.evaluate minConfidence (HandoffService.escalationOf message routed)).primary none env w
  refine ⟨{
    reply := HandoffService.withNotice routed.reply
    escalated := true
    reasons := EscalationCriteria.reasons minConfidence (HandoffService.escalationOf message routed)
    reviewId, queued }, w', ?_, rfl, rfl, rfl⟩
  simp only [HandoffService.consider, hescalate, Bool.not_true, Bool.false_eq_true, if_false]
  rw [Effect.bind_of_ok hrecord]
  rfl

/-- There is no reason exactly when the request was resolved, for a category that is
    answered, with enough confidence, and policy changed nothing. -/
theorem reasons_eq_nil_iff {minConfidence : Rat} {context : EscalationContext} :
    EscalationCriteria.reasons minConfidence context = [] ↔
      context.handled = true ∧ context.analysis.intent ≠ .complaint ∧
        context.analysis.intent ≠ .other ∧ minConfidence ≤ context.analysis.confidence.val ∧
        context.policyModified = false := by
  have hconfidence : (if context.analysis.intent = .other then [EscalationReason.uncategorised]
      else if context.analysis.confidence.val < minConfidence then [.lowConfidence] else []) = [] ↔
      context.analysis.intent ≠ .other ∧ minConfidence ≤ context.analysis.confidence.val := by
    split
    · rename_i h
      simp [h]
    · rename_i h
      split
      · rename_i hlow
        simp [h, Rat.not_le.mpr hlow]
      · rename_i hhigh
        simp [h, Rat.not_lt.mp hhigh]
  simp only [EscalationCriteria.reasons, List.append_eq_nil_iff, hconfidence,
    ite_eq_right_iff, List.cons_ne_nil, imp_false, Bool.not_eq_true', Bool.not_eq_false,
    Bool.not_eq_true, and_assoc]

/-! ## Policy and routing -/

section Wiring

variable (knowledgeBase agent : HandlerRequest → App HandlerResponse) (word : WordTable)
  (minConfidence : Rat)

/-- `finish` replaces a reply on which a rule fires. -/
theorem finish_of_reviewed {message : Text} {analysis : IntentAnalysis}
    {response : HandlerResponse}
    (h : reviewed word (contextOf message analysis response) = true) :
    let routed := (buildRouter knowledgeBase agent word minConfidence).finish message analysis
      response
    routed.reply = REVIEW_REPLY ∧ routed.handled = response.handled ∧
      routed.policyModified = decide (REVIEW_REPLY.val ≠ response.reply.val) ∧
      routed.citations =
        if decide (REVIEW_REPLY.val ≠ response.reply.val) = true then [] else response.citations := by
  obtain ⟨hreply, hhandled, hmodified⟩ := enforce_of_reviewed h
  simp only [buildRouter, IntentRouter.finish]
  rw [hreply, hhandled, hmodified]
  exact ⟨rfl, rfl, rfl, rfl⟩

/-- `finish` leaves a reply on which no rule fires. -/
theorem finish_of_not_reviewed {message : Text} {analysis : IntentAnalysis}
    {response : HandlerResponse}
    (h : reviewed word (contextOf message analysis response) = false) :
    let routed := (buildRouter knowledgeBase agent word minConfidence).finish message analysis
      response
    routed.reply = response.reply ∧ routed.handled = response.handled ∧
      routed.policyModified = false ∧ routed.citations = response.citations := by
  obtain ⟨hreply, hhandled, hmodified⟩ := enforce_of_not_reviewed h
  simp only [buildRouter, IntentRouter.finish]
  rw [hreply, hhandled, hmodified]
  exact ⟨rfl, rfl, rfl, rfl⟩

/-- The decision does not depend on what a handler says. -/
theorem finish_decision (message : Text) (analysis : IntentAnalysis)
    (response : HandlerResponse) :
    let routed := (buildRouter knowledgeBase agent word minConfidence).finish message analysis
      response
    routed.decision.intent = analysis.intent ∧
      routed.decision.confidence = analysis.confidence := by
  have hchoose : ((buildRouter knowledgeBase agent word minConfidence).choose analysis).intent =
      analysis.intent ∧ ((buildRouter knowledgeBase agent word minConfidence).choose
        analysis).confidence = analysis.confidence := by
    unfold IntentRouter.choose
    split
    · exact ⟨rfl, rfl⟩
    · split
      · exact ⟨rfl, rfl⟩
      · split <;> exact ⟨rfl, rfl⟩
  exact hchoose

/-- An uncategorised message, or one classified with too little confidence, reaches the
    fallback. -/
theorem chosen_of_unsure {analysis : IntentAnalysis}
    (h : analysis.intent = .other ∨ analysis.confidence.val < minConfidence) :
    (buildRouter knowledgeBase agent word minConfidence).chosen analysis = fallbackHandler := by
  have hfallback : ((buildRouter knowledgeBase agent word minConfidence).choose
      analysis).fallback = true := by
    unfold IntentRouter.choose
    split
    · rfl
    · rename_i hother
      have hlow : analysis.confidence.val <
          (buildRouter knowledgeBase agent word minConfidence).minConfidence :=
        h.resolve_left hother
      rw [if_pos hlow]
      rfl
  rw [IntentRouter.chosen, if_pos hfallback]
  rfl

end Wiring

/-! ## The dichotomy -/

/-- `withNotice` leaves `REVIEW_REPLY`, which says what the notice says. -/
theorem withNotice_review_reply : HandoffService.withNotice REVIEW_REPLY = REVIEW_REPLY := by
  decide +kernel

/-- `process` is `route` and then `consider`. -/
theorem process_of {service : AssistantService} {message : Text} {analysis : IntentAnalysis}
    {env : Env} {w w₁ w₂ : RequestState} {routed : RoutedReply} {handoff : HandoffResult}
    (hroute : service.router.route message analysis env w = (.ok routed, w₁))
    (hconsider : HandoffService.consider service.minConfidence message routed none env w₁ =
      (.ok handoff, w₂)) :
    service.process message analysis env w = (.ok (routed, handoff), w₂) := by
  unfold AssistantService.process
  rw [Effect.bind_of_ok hroute, Effect.bind_of_ok hconsider]
  rfl

section Dichotomy

variable (knowledgeBase agent : HandlerRequest → App HandlerResponse) {word : WordTable}
  (minConfidence : Rat) {message : Text} {analysis : IntentAnalysis} {response : HandlerResponse}

/-- What is replaced is escalated. -/
theorem reasons_of_reviewed (h : reviewed word (contextOf message analysis response) = true) :
    EscalationCriteria.reasons minConfidence (HandoffService.escalationOf message
      ((buildRouter knowledgeBase agent word minConfidence).finish message analysis response)) ≠
      [] := by
  intro hnil
  obtain ⟨hhandled, hcomplaint, -, -, hmodified⟩ := reasons_eq_nil_iff.mp hnil
  obtain ⟨-, hsame, hchanged, -⟩ := finish_of_reviewed knowledgeBase agent word minConfidence h
  have hresolved : response.handled = true := hsame ▸ hhandled
  have hintent : analysis.intent ≠ .complaint :=
    (finish_decision knowledgeBase agent word minConfidence message analysis response).1 ▸
      hcomplaint
  -- The text was changed unless it was the sentence, which commits to nothing.
  have htext : REVIEW_REPLY.val = response.reply.val := by
    have hsent : decide (REVIEW_REPLY.val ≠ response.reply.val) = false := hchanged ▸ hmodified
    simpa using hsent
  have huncommitted : commits word response.reply.val = false :=
    htext ▸ commits_review_reply word
  simp [reviewed, contextOf, huncommitted, hintent, hresolved] at h

/-- What no rule fires on came from a specialised handler. -/
theorem answerable_of_not_reviewed {env : Env} {w w₁ : RequestState}
    (hrun : ((buildRouter knowledgeBase agent word minConfidence).chosen analysis).handle
      { message, analysis } env w = (.ok response, w₁))
    (h : reviewed word (contextOf message analysis response) = false) :
    Answerable word minConfidence analysis response := by
  simp only [reviewed, contextOf, Bool.or_eq_false_iff, Bool.not_eq_false'] at h
  obtain ⟨⟨huncommitted, hcomplaint⟩, hhandled⟩ := h
  have hsure : ¬ (analysis.intent = .other ∨ analysis.confidence.val < minConfidence) := by
    intro hunsure
    rw [chosen_of_unsure knowledgeBase agent word minConfidence hunsure] at hrun
    have hresponse := (Except.ok.inj (Prod.mk.inj hrun).1).symm
    rw [hresponse] at hhandled
    exact nomatch hhandled
  rw [not_or, Rat.not_lt] at hsure
  exact ⟨hsure.1, of_decide_eq_false hcomplaint, hsure.2, hhandled, huncommitted⟩

/-- What `Answerable` describes is not `reviewed`. -/
theorem not_reviewed_of_answerable {minConfidence : Rat} (message : Text)
    (h : Answerable word minConfidence analysis response) :
    reviewed word (contextOf message analysis response) = false := by
  obtain ⟨-, hcomplaint, -, hhandled, huncommitted⟩ := h
  simp [reviewed, contextOf, hcomplaint, hhandled, huncommitted]

/-- What is answerable is not escalated. -/
theorem reasons_of_answerable (message : Text)
    (h : Answerable word minConfidence analysis response) :
    EscalationCriteria.reasons minConfidence (HandoffService.escalationOf message
      ((buildRouter knowledgeBase agent word minConfidence).finish message analysis response)) =
      [] := by
  obtain ⟨-, hsame, hunchanged, -⟩ := finish_of_not_reviewed knowledgeBase agent word
    minConfidence (not_reviewed_of_answerable message h)
  obtain ⟨hintent, hconfidence⟩ :=
    finish_decision knowledgeBase agent word minConfidence message analysis response
  obtain ⟨hother, hcomplaint, hsure, hhandled, -⟩ := h
  refine reasons_eq_nil_iff.mpr ⟨hsame.trans hhandled, ?_, ?_, ?_, hunchanged⟩
  · exact fun heq => hcomplaint (hintent.symm.trans heq)
  · exact fun heq => hother (hintent.symm.trans heq)
  · show minConfidence ≤ ((buildRouter knowledgeBase agent word minConfidence).finish message
      analysis response).decision.confidence.val
    rw [hconfidence]
    exact hsure

/-- `route` finishes the response of a handler that returns. -/
theorem route_of_handle {router : IntentRouter} {env : Env} {w w₁ : RequestState}
    (hrun : (router.chosen analysis).handle { message, analysis } env w = (.ok response, w₁)) :
    router.route message analysis env w = (.ok (router.finish message analysis response), w₁) := by
  unfold IntentRouter.route
  rw [Effect.bind_of_ok hrun]
  rfl

/-- What some rule fires on is reviewed. -/
theorem process_of_reviewed {env : Env} {w w₁ : RequestState}
    (hrun : ((buildRouter knowledgeBase agent word minConfidence).chosen analysis).handle
      { message, analysis } env w = (.ok response, w₁))
    (h : reviewed word (contextOf message analysis response) = true) :
    let service := ofHandlers knowledgeBase agent word minConfidence
    ∃ handoff w₂, service.process message analysis env w =
        (.ok (service.router.finish message analysis response, handoff), w₂) ∧
      ∀ conversationId, Reviewed word (contextOf message analysis response) response
        (assemble conversationId (service.router.finish message analysis response) handoff) := by
  intro service
  obtain ⟨hreply, -, -, hcitations⟩ :=
    finish_of_reviewed knowledgeBase agent word minConfidence h
  obtain ⟨handoff, w₂, hconsider, hnotice, hescalated, hreasons⟩ :=
    consider_of_reason (reasons_of_reviewed knowledgeBase agent minConfidence h) env w₁
  refine ⟨handoff, w₂, process_of (route_of_handle hrun) hconsider, ?_⟩
  intro conversationId
  exact {
    fires := reviewed_iff.mp h
    reply := by
      show handoff.reply = REVIEW_REPLY
      rw [hnotice]
      exact (congrArg HandoffService.withNotice hreply).trans withNotice_review_reply
    escalated := hescalated
    reasons := by
      show handoff.reasons ≠ []
      rw [hreasons]
      exact reasons_of_reviewed knowledgeBase agent minConfidence h
    citations := by
      intro hother
      have hchanged : decide (REVIEW_REPLY.val ≠ response.reply.val) = true :=
        decide_eq_true fun heq => hother (Subtype.ext heq.symm)
      exact hcitations.trans (if_pos hchanged) }

/-- What no rule fires on is answered. -/
theorem process_of_not_reviewed {env : Env} {w w₁ : RequestState}
    (hrun : ((buildRouter knowledgeBase agent word minConfidence).chosen analysis).handle
      { message, analysis } env w = (.ok response, w₁))
    (h : reviewed word (contextOf message analysis response) = false) :
    let service := ofHandlers knowledgeBase agent word minConfidence
    ∃ handoff w₂, service.process message analysis env w =
        (.ok (service.router.finish message analysis response, handoff), w₂) ∧
      ∀ conversationId, Answered word (contextOf message analysis response) response
        (assemble conversationId (service.router.finish message analysis response) handoff) := by
  intro service
  have hanswerable := answerable_of_not_reviewed knowledgeBase agent minConfidence hrun h
  obtain ⟨hreply, hhandled, -, hcitations⟩ :=
    finish_of_not_reviewed knowledgeBase agent word minConfidence h
  have hconsider := consider_of_no_reason
    (reasons_of_answerable knowledgeBase agent minConfidence message hanswerable) env w₁
  refine ⟨_, w₁, process_of (route_of_handle hrun) hconsider, ?_⟩
  intro conversationId
  obtain ⟨-, -, -, hresolved, huncommitted⟩ := hanswerable
  exact {
    silent := by
      intro rule hrule
      have hquiet : PolicyEngine.fires rule (contextOf message analysis response) ≠ true := by
        intro hfires
        rw [reviewed_iff.mpr ⟨rule, hrule, hfires⟩] at h
        exact nomatch h
      exact Bool.eq_false_iff.mpr hquiet
    reply := hreply
    citations := hcitations
    handled := hhandled.trans hresolved
    escalated := rfl
    uncommitted := (congrArg (fun reply : Text => commits word reply.val) hreply).trans
      huncommitted }

end Dichotomy

/-- Whatever the handlers say, a classified message is answered with the handler's own
    text or reviewed, never both; it is answered exactly when it is answerable; and no
    specialised handler sees an uncategorised message or one classified with too little
    confidence. -/
theorem pipeline_dichotomy (knowledgeBase agent : HandlerRequest → App HandlerResponse)
    (word : WordTable) (minConfidence : Rat) (message : Text) (analysis : IntentAnalysis) :
    let service := ofHandlers knowledgeBase agent word minConfidence
    (analysis.intent = .other ∨ analysis.confidence.val < minConfidence →
      service.router.chosen analysis = fallbackHandler) ∧
    ∀ conversationId env w response w₁,
      (service.router.chosen analysis).handle { message, analysis } env w = (.ok response, w₁) →
      ∃ routed handoff w₂,
        service.process message analysis env w = (.ok (routed, handoff), w₂) ∧
        let context := contextOf message analysis response
        let sent := assemble conversationId routed handoff
        (Answered word context response sent ∨ Reviewed word context response sent) ∧
        ¬ (Answered word context response sent ∧ Reviewed word context response sent) ∧
        (Answered word context response sent ↔
          Answerable word minConfidence analysis response) := by
  intro service
  refine ⟨chosen_of_unsure knowledgeBase agent word minConfidence, ?_⟩
  intro conversationId env w response w₁ hrun
  have hexclusive : ∀ sent, ¬ (Answered word (contextOf message analysis response) response sent ∧
      Reviewed word (contextOf message analysis response) response sent) := by
    rintro sent ⟨hanswered, hreviewed⟩
    obtain ⟨rule, hrule, hfires⟩ := hreviewed.fires
    rw [hanswered.silent rule hrule] at hfires
    exact nomatch hfires
  cases hpolicy : reviewed word (contextOf message analysis response) with
  | true =>
    obtain ⟨handoff, w₂, hprocess, hreviewed⟩ :=
      process_of_reviewed knowledgeBase agent minConfidence hrun hpolicy
    refine ⟨_, handoff, w₂, hprocess, .inr (hreviewed _), hexclusive _, ?_⟩
    constructor
    · intro hanswered
      exact absurd ⟨hanswered, hreviewed _⟩ (hexclusive _)
    · intro hanswerable
      rw [not_reviewed_of_answerable message hanswerable] at hpolicy
      exact nomatch hpolicy
  | false =>
    have hanswerable := answerable_of_not_reviewed knowledgeBase agent minConfidence hrun hpolicy
    obtain ⟨handoff, w₂, hprocess, hanswered⟩ :=
      process_of_not_reviewed knowledgeBase agent minConfidence hrun hpolicy
    exact ⟨_, handoff, w₂, hprocess, .inl (hanswered _), hexclusive _,
      fun _ => hanswerable, fun _ => hanswered _⟩

end NexaAssist.Spec.PipelineDichotomy
