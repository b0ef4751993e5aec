import NexaAssist.Routing.IntentHandlers
import NexaAssist.Spec.AgentLedger
import NexaAssist.Spec.PipelineDichotomy

/-!
# What a run without an answer is reported as

A run that ends on its budget or for want of a model is not completed, its reply is
replaced by policy, and a person is asked. A decision that names neither a tool nor an
answer ends a run without an answer too, and that run counts as completed.
-/

namespace NexaAssist.Spec.HonestCompletion

open NexaAssist PyJson AgentLoop AgentLedger PipelineDichotomy

/-! ## How a run ends -/

/-- The model answers where it is asked last, with some text. -/
def Supplied (agent : AgentLoop) (env : Env) (last : AgentState) (w : RequestState) : Prop :=
  last.exhausted = none ∧ ∃ decision answer,
    env.provider.agentDecision w.prompts (agent.prompt env.text last) = .ok decision ∧
      decision.tool = none ∧ decision.finalAnswer = some answer ∧ answer ≠ []

/-- The model decides, where it is asked last, on neither a tool nor an answer. -/
def Blank (agent : AgentLoop) (env : Env) (last : AgentState) (w : RequestState) : Prop :=
  last.exhausted = none ∧ ∃ decision,
    env.provider.agentDecision w.prompts (agent.prompt env.text last) = .ok decision ∧
      decision.tool = none ∧ (decision.finalAnswer = none ∨ decision.finalAnswer = some [])

section Ends

variable {agent : AgentLoop} {env : Env} {last final : AgentState} {w w' : RequestState}
  {prompts : List LLMPrompt} {outcome : AgentOutcome}

/-- A run that was supplied no answer falls back on a sentence of its own. -/
theorem answer_of_not_supplied
    (hending : AgentLedger.Ending agent env last w prompts final outcome w')
    (h : ¬ Supplied agent env last w) :
    outcome.answer = BUDGET_ANSWER ∨ outcome.answer = PROVIDER_ANSWER := by
  cases hending with
  | spent hreason => exact .inl rfl
  | unavailable hgo hdecide => exact .inr rfl
  | @answered decision hgo hdecide htool =>
    left
    show answerOr decision.finalAnswer = BUDGET_ANSWER
    unfold answerOr
    split
    · rfl
    · rename_i answer hanswer
      have hempty : answer = [] := by
        by_cases hne : answer = []
        · exact hne
        · exact absurd ⟨hgo, decision, answer, hdecide, htool, hanswer, hne⟩ h
      rw [dif_neg (by simp [hempty])]

/-- A run is completed where the model decides on an answer, if only an empty one. -/
theorem completed_iff (hending : AgentLedger.Ending agent env last w prompts final outcome w') :
    outcome.completed = true ↔ Supplied agent env last w ∨ Blank agent env last w := by
  cases hending with
  | spent hreason =>
    have hstop : last.exhausted ≠ none := by
      rw [hreason]
      exact Option.some_ne_none _
    constructor
    · exact fun h => nomatch h
    · rintro (h | h)
      · exact absurd h.1 hstop
      · exact absurd h.1 hstop
  | unavailable hgo hdecide =>
    constructor
    · exact fun h => nomatch h
    · rintro (⟨-, decision, answer, hok, -⟩ | ⟨-, decision, hok, -⟩)
      · exact nomatch hdecide.symm.trans hok
      · exact nomatch hdecide.symm.trans hok
  | @answered decision hgo hdecide htool =>
    constructor
    · intro _
      match hanswer : decision.finalAnswer with
      | none => exact .inr ⟨hgo, decision, hdecide, htool, .inl hanswer⟩
      | some [] => exact .inr ⟨hgo, decision, hdecide, htool, .inr hanswer⟩
      | some (c :: answer) =>
        exact .inl ⟨hgo, decision, c :: answer, hdecide, htool, hanswer, List.cons_ne_nil c answer⟩
    · exact fun _ => rfl

/-- A last decision that is `Blank` is not `Supplied`. -/
theorem not_supplied_of_blank (h : Blank agent env last w) : ¬ Supplied agent env last w := by
  obtain ⟨-, decision, hdecide, -, hnone⟩ := h
  rintro ⟨-, decision', answer, hdecide', -, hanswer, hne⟩
  rw [hdecide] at hdecide'
  rw [← Except.ok.inj hdecide'] at hanswer
  cases hnone with
  | inl hnone => exact nomatch hnone.symm.trans hanswer
  | inr hempty => exact hne (Option.some.inj (hanswer.symm.trans hempty))

end Ends

/-! ## What becomes of it -/

/-- What the run came to is not reported as an answer: it is not completed, its response not
    handled, and wherever a message is routed to that response, policy replaces the reply
    and a person is asked. -/
structure Unresolved (service : AssistantService) (message : Text) (outcome : AgentOutcome) :
    Prop where
  completed : outcome.completed = false
  handled : (AgentHandler.responseOf outcome).handled = false
  reviewed : ∀ analysis env w w₁, (service.router.chosen analysis).handle { message, analysis }
      env w = (.ok (AgentHandler.responseOf outcome), w₁) →
    ∃ routed handoff w₂, service.process message analysis env w = (.ok (routed, handoff), w₂) ∧
      routed.reply = REVIEW_REPLY ∧ routed.policyModified = true ∧
      handoff.reply = REVIEW_REPLY ∧ handoff.escalated = true ∧ handoff.reasons ≠ []

/-- `BUDGET_ANSWER` is not `REVIEW_REPLY`. -/
theorem budget_answer_ne_review_reply : REVIEW_REPLY.val ≠ BUDGET_ANSWER.val := by decide

/-- `PROVIDER_ANSWER` is not `REVIEW_REPLY`. -/
theorem provider_answer_ne_review_reply : REVIEW_REPLY.val ≠ PROVIDER_ANSWER.val := by decide

/-- What is not completed is replaced and escalated. -/
theorem unresolved_of_not_completed {agent : AgentLoop}
    {knowledgeBase : HandlerRequest → App HandlerResponse} {word : WordTable}
    {minConfidence : Rat} {outcome : AgentOutcome} (message : Text)
    (hanswer : outcome.answer = BUDGET_ANSWER ∨ outcome.answer = PROVIDER_ANSWER)
    (h : outcome.completed = false) :
    Unresolved (.ofHandlers knowledgeBase (AgentHandler.handle agent) word minConfidence) message
      outcome where
  completed := h
  handled := h
  reviewed analysis env w w₁ hrun := by
    have hpolicy : reviewed word (contextOf message analysis (AgentHandler.responseOf outcome)) =
        true := by
      simp [reviewed, contextOf, AgentHandler.responseOf, h]
    obtain ⟨hreply, -, hmodified, -⟩ :=
      finish_of_reviewed knowledgeBase (AgentHandler.handle agent) word minConfidence hpolicy
    obtain ⟨handoff, w₂, hprocess, hreviewed⟩ :=
      process_of_reviewed knowledgeBase (AgentHandler.handle agent) minConfidence hrun hpolicy
    have hother : REVIEW_REPLY.val ≠ outcome.answer.val := by
      cases hanswer with
      | inl heq => exact heq ▸ budget_answer_ne_review_reply
      | inr heq => exact heq ▸ provider_answer_ne_review_reply
    have hsent := hreviewed none
    exact ⟨_, handoff, w₂, hprocess, hreply, hmodified.trans (decide_eq_true hother),
      hsent.reply, hsent.escalated, hsent.reasons⟩

/-- Whatever the model and the tools do, a run that ends without an answer of the model's is
    reported as unresolved, if and only if it does not end on a decision that names neither a
    tool nor an answer. -/
theorem honest_iff (agent : AgentLoop) (hreturns : Returns agent.execute)
    (knowledgeBase : HandlerRequest → App HandlerResponse) (word : WordTable)
    (minConfidence : Rat) (message : Text) (env : Env) (w : RequestState) :
    ∃ turns last w₁ prompts final outcome w',
      Path agent env { question := message.val, budget := agent.budget, steps := [] } w turns
        last w₁ ∧
      AgentLedger.Ending agent env last w₁ prompts final outcome w' ∧
      agent.run message.val env w = (.ok outcome, w') ∧
      (¬ Supplied agent env last w₁ →
        outcome.answer = BUDGET_ANSWER ∨ outcome.answer = PROVIDER_ANSWER) ∧
      ((¬ Supplied agent env last w₁ →
        Unresolved (.ofHandlers knowledgeBase (AgentHandler.handle agent) word minConfidence)
          message outcome) ↔
        ¬ Blank agent env last w₁) := by
  obtain ⟨turns, last, w₁, prompts, final, outcome, w', hpath, hending, hrun⟩ :=
    loop_path hreturns env { question := message.val, budget := agent.budget, steps := [] } w
  have hanswer := answer_of_not_supplied hending
  have hcompleted := completed_iff hending
  have hiff : (¬ Supplied agent env last w₁ →
      Unresolved (.ofHandlers knowledgeBase (AgentHandler.handle agent) word minConfidence)
        message outcome) ↔ ¬ Blank agent env last w₁ := by
    constructor
    · intro h hblank
      have hfalse := (h (not_supplied_of_blank hblank)).completed
      rw [hcompleted.mpr (.inr hblank)] at hfalse
      exact nomatch hfalse
    · intro hblank hsupplied
      apply unresolved_of_not_completed message (hanswer hsupplied)
      have hneither : ¬ (Supplied agent env last w₁ ∨ Blank agent env last w₁) := by
        rintro (h | h)
        · exact hsupplied h
        · exact hblank h
      exact Bool.eq_false_iff.mpr (mt hcompleted.mp hneither)
  exact ⟨turns, last, w₁, prompts, final, outcome, w', hpath, hending, hrun, hanswer, hiff⟩

/-! ## A blank decision -/

/-- A model that decides on nothing. -/
def blankProvider : LLMProvider :=
  { LLMProvider.unavailable with
    agentDecision := fun _ _ => .ok { tool := none, toolParams := [], finalAnswer := none } }

/-- The shipped agent, with the default budget. -/
def shippedAgent : AgentLoop := buildAgent { maxSteps := 6, maxToolCalls := 8 }

/-- The shipped agent with a provider whose answer is blank. -/
theorem honest_iff_shipped :
    ∃ outcome w', shippedAgent.run (lit "Where is my order?")
      (.plain blankProvider .refusing (.default false)) (.start ⟨[], [], [], [], [], []⟩) =
        (.ok outcome, w') := by
  obtain ⟨-, -, -, -, -, outcome, w', -, -, hrun, -⟩ :=
    honest_iff shippedAgent (execute_returns toolRegistry) (fun _ => throw (.llm llmError))
      .asciiOnly (1 / 2) ⟨lit "Where is my order?", by decide⟩
      (.plain blankProvider .refusing (.default false)) (.start ⟨[], [], [], [], [], []⟩)
  exact ⟨outcome, w', hrun⟩

/-- A run on a blank decision counts as completed, and its reply as handled. -/
theorem blank_decision_completed :
    ∃ outcome w', shippedAgent.run (lit "Where is my order?")
        (.plain blankProvider .refusing (.default false)) (.start ⟨[], [], [], [], [], []⟩) =
        (.ok outcome, w') ∧
      outcome.answer = BUDGET_ANSWER ∧ outcome.completed = true ∧
      (AgentHandler.responseOf outcome).handled = true := by
  have hgo : AgentState.exhausted {
      question := lit "Where is my order?", budget := shippedAgent.budget, steps := [] } = none := by
    decide
  have hdecide := decide_run shippedAgent
    { question := lit "Where is my order?", budget := shippedAgent.budget, steps := [] }
    (.plain blankProvider .refusing (.default false)) (.start ⟨[], [], [], [], [], []⟩)
  exact ⟨_, _, loop_of_decided hgo hdecide, rfl, rfl, rfl⟩

end NexaAssist.Spec.HonestCompletion
