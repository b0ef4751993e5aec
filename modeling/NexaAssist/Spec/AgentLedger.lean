import NexaAssist.Agent.Loop

/-!
# What an agent run spends, and what it writes down

A run is a path of tool turns and one ending. How long the path can get, what the steps
of the run record, and what every prompt on it shows, follow from the path.

## Key results

- `run_path`: every run is a path with an ending
- `Path.last_eq`: what a path has recorded
- `run_ledger`: the budget and the ledger of a run
-/

namespace NexaAssist.Spec.AgentLedger

open NexaAssist PyJson AgentLoop

/-! ## Paths -/

/-- A turn on which a tool was called: what the model was shown, the call, the result. -/
structure ToolTurn where
  prompt : LLMPrompt
  tool : PyStr
  params : List (PyStr × PyValue)
  result : ToolResult

/-- The loop goes from one state to another by some turns, each of which asks the model
    once and executes once the tool it names. -/
inductive Path (agent : AgentLoop) (env : Env) :
    AgentState → RequestState → List ToolTurn → AgentState → RequestState → Prop
  | here (state : AgentState) (w : RequestState) : Path agent env state w [] state w
  | turn {state last : AgentState} {w w₂ w₃ : RequestState} {decision : AgentDecision}
      {tool : PyStr} {result : ToolResult} {turns : List ToolTurn}
      (hgo : state.exhausted = none)
      (hdecide : env.provider.agentDecision w.prompts (agent.prompt env.text state) = .ok decision)
      (htool : decision.tool = some tool)
      (hexecute : agent.execute tool decision.toolParams env
        (w.sendPrompt (agent.prompt env.text state)) = (.ok result, w₂))
      (hrest : Path agent env (state.recordToolCall tool result) w₂ turns last w₃) :
      Path agent env state w ({
        prompt := agent.prompt env.text state
        tool, params := decision.toolParams, result } :: turns) last w₃

/-- How a run ends: what the model was shown last, if it was asked again, the final state,
    and the outcome. -/
inductive Ending (agent : AgentLoop) (env : Env) (state : AgentState) (w : RequestState) :
    List LLMPrompt → AgentState → AgentOutcome → RequestState → Prop
  | spent {reason : PyStr} (hreason : state.exhausted = some reason) :
      Ending agent env state w [] state (finish state BUDGET_ANSWER false reason) w
  | unavailable {error : LLMError} (hgo : state.exhausted = none)
      (hdecide : env.provider.agentDecision w.prompts (agent.prompt env.text state) =
        .error error) :
      Ending agent env state w [agent.prompt env.text state] state
        (finish state PROVIDER_ANSWER false (lit "provider_unavailable"))
        (w.sendPrompt (agent.prompt env.text state))
  | answered {decision : AgentDecision} (hgo : state.exhausted = none)
      (hdecide : env.provider.agentDecision w.prompts (agent.prompt env.text state) = .ok decision)
      (htool : decision.tool = none) :
      Ending agent env state w [agent.prompt env.text state] state.recordAnswer
        (finish state.recordAnswer (answerOr decision.finalAnswer) true (lit "answered"))
        (w.sendPrompt (agent.prompt env.text state))

/-- An executor that always returns a result. -/
def Returns (execute : PyStr → List (PyStr × PyValue) → App ToolResult) : Prop :=
  ∀ tool params env w, ∃ result w', execute tool params env w = (.ok result, w')

/-- The shipped executor always returns a result. -/
theorem execute_returns (registry : ToolRegistry) : Returns (ToolExecutor.execute registry) := by
  intro tool params env w
  cases hget : registry.get tool with
  | none => exact ⟨_, w, ToolExecutor.execute_of_missing hget w⟩
  | some found =>
    cases hinvoke : found.invoke env.parse params with
    | error errors => exact ⟨_, w, ToolExecutor.execute_of_invalid hget hinvoke w⟩
    | ok call =>
      rw [ToolExecutor.execute_of_valid hget hinvoke w, ToolExecutor.run]
      rcases hcall : App.onBehalfOf .tool call env w with ⟨outcome, w'⟩
      cases outcome with
      | ok output =>
        have hbody := Effect.bind_of_ok (f := fun output : PyValue =>
          (pure (.success found.name output) : App ToolResult)) hcall
        exact ⟨_, w', Effect.tryCatch_of_ok hbody⟩
      | error raised =>
        have hbody := Effect.bind_of_error (f := fun output : PyValue =>
          (pure (.success found.name output) : App ToolResult)) hcall
        rw [Effect.tryCatch_of_error hbody]
        cases raised <;> exact ⟨_, w', rfl⟩

/-- The loop is a path with an ending. -/
theorem loop_path {agent : AgentLoop} (hreturns : Returns agent.execute) (env : Env)
    (state : AgentState) (w : RequestState) :
    ∃ turns last w₁ prompts final outcome w', Path agent env state w turns last w₁ ∧
      Ending agent env last w₁ prompts final outcome w' ∧
      agent.loop state env w = (.ok outcome, w') := by
  -- By induction on the steps that remain: a tool call uses one up.
  induction hleft : state.remainingSteps using Nat.strongRecOn generalizing state w with
  | ind left ih =>
    cases hgo : state.exhausted with
    | some reason =>
      refine ⟨[], state, w, [], state, _, w, .here state w, .spent hgo, ?_⟩
      rw [loop_of_exhausted hgo]
      rfl
    | none =>
      have hrun := decide_run agent state env w
      cases hdecide : env.provider.agentDecision w.prompts (agent.prompt env.text state) with
      | error error =>
        rw [hdecide] at hrun
        exact ⟨[], state, w, _, state, _, _, .here state w, .unavailable hgo hdecide,
          loop_of_failed hgo hrun⟩
      | ok decision =>
        rw [hdecide] at hrun
        cases htool : decision.tool with
        | none =>
          refine ⟨[], state, w, _, _, _, _, .here state w, .answered hgo hdecide htool, ?_⟩
          rw [loop_of_decided hgo hrun, htool]
        | some tool =>
          obtain ⟨result, w₂, hexecute⟩ := hreturns tool decision.toolParams env
            (w.sendPrompt (agent.prompt env.text state))
          -- One step fewer remains behind the call
          have hless := state.recordToolCall_remainingSteps hgo tool result
          obtain ⟨turns, last, w₁, prompts, final, outcome, w', hpath, hending, hloop⟩ :=
            ih _ (hleft ▸ hless) (state.recordToolCall tool result) w₂ rfl
          refine ⟨_, last, w₁, prompts, final, outcome, w', .turn hgo hdecide htool hexecute hpath,
            hending, ?_⟩
          rw [loop_of_called hgo hrun htool hexecute, hloop]

/-! ## What a path records -/

/-- The steps of some turns. -/
def stepsOf (turns : List ToolTurn) : List AgentStep :=
  turns.mapIdx fun i turn => {
    index := i, kind := .toolCall, tool := some turn.tool, result := some turn.result }

/-- The state after some turns. -/
def stateAfter (agent : AgentLoop) (question : PyStr) (turns : List ToolTurn) : AgentState where
  question := question
  budget := agent.budget
  steps := stepsOf turns

/-- `stepsOf` has one step for each turn. -/
@[simp]
theorem length_stepsOf (turns : List ToolTurn) : (stepsOf turns).length = turns.length := by
  simp [stepsOf]

/-- One more turn adds one step, which is numbered behind the others. -/
theorem stepsOf_concat (turns : List ToolTurn) (turn : ToolTurn) :
    stepsOf (turns ++ [turn]) = stepsOf turns ++ [{
      index := turns.length, kind := .toolCall, tool := some turn.tool
      result := some turn.result }] := by
  simp [stepsOf, List.mapIdx_append]

section Recorded

variable {agent : AgentLoop} {question : PyStr}

/-- The state after some turns counts that many steps. -/
@[simp]
theorem stateAfter_stepCount (turns : List ToolTurn) :
    (stateAfter agent question turns).stepCount = turns.length := length_stepsOf turns

/-- The state after some turns counts that many tool calls. -/
@[simp]
theorem stateAfter_toolCalls (turns : List ToolTurn) :
    (stateAfter agent question turns).toolCalls = turns.length := by
  have hall : (stepsOf turns).filter (fun step => step.kind = .toolCall) = stepsOf turns := by
    apply List.filter_eq_self.mpr
    intro step hstep
    obtain ⟨i, turn, -, rfl⟩ := List.mem_mapIdx.mp hstep
    rfl
  show ((stepsOf turns).filter fun step => step.kind = .toolCall).length = turns.length
  rw [hall, length_stepsOf]

/-- The state after one more turn is what `recordToolCall` makes of the one before. -/
theorem stateAfter_concat (turns : List ToolTurn) (turn : ToolTurn) :
    stateAfter agent question (turns ++ [turn]) =
      (stateAfter agent question turns).recordToolCall turn.tool turn.result := by
  have hsteps : (stateAfter agent question (turns ++ [turn])).steps =
      ((stateAfter agent question turns).recordToolCall turn.tool turn.result).steps := by
    rw [AgentState.recordToolCall_steps, stateAfter_stepCount]
    exact stepsOf_concat turns turn
  exact congrArg (fun steps => { question, budget := agent.budget, steps : AgentState }) hsteps

/-- A run may go on after some turns while both limits allow for one more. -/
theorem stateAfter_going (turns : List ToolTurn) :
    (stateAfter agent question turns).exhausted = none ↔
      turns.length < min agent.budget.maxSteps agent.budget.maxToolCalls := by
  rw [AgentState.exhausted_eq_none_iff, stateAfter_stepCount, stateAfter_toolCalls,
    Nat.lt_min]
  rfl

variable (question) in
/-- A path that starts after some turns leads to the state after those and its own. Every
    turn of it was within the budget, and showed the model the turns before it. -/
theorem Path.last_eq {env : Env} {state last : AgentState} {w w₁ : RequestState}
    {turns : List ToolTurn} (hpath : Path agent env state w turns last w₁) :
    ∀ done, state = stateAfter agent question done →
      last = stateAfter agent question (done ++ turns) ∧
      (∀ k turn, turns[k]? = some turn →
        turn.prompt = agent.prompt env.text (stateAfter agent question (done ++ turns.take k)) ∧
        (done ++ turns.take k).length < min agent.budget.maxSteps agent.budget.maxToolCalls) := by
  -- Induction on the path, with the turns done so far as a parameter
  induction hpath with
  | here state w =>
    intro done hstate
    refine ⟨by rw [hstate, List.append_nil], ?_⟩
    intro k turn hturn
    exact nomatch hturn
  | @turn state last w w₂ w₃ decision tool result turns hgo hdecide htool hexecute hrest ih =>
    intro done hstate
    -- The state behind the call is that after one turn more
    have hnext : state.recordToolCall tool result = stateAfter agent question (done ++ [{
        prompt := agent.prompt env.text state
        tool, params := decision.toolParams, result }]) := by
      rw [stateAfter_concat, hstate]
    obtain ⟨hlast, hturns⟩ := ih _ hnext
    rw [List.append_assoc] at hlast
    refine ⟨hlast, ?_⟩
    intro k turn hturn
    cases k with
    | zero =>
      rw [← Option.some.inj hturn, List.take_zero, List.append_nil, ← hstate]
      refine ⟨rfl, ?_⟩
      rw [hstate] at hgo
      exact (stateAfter_going done).mp hgo
    | succ k =>
      have hlater := hturns k turn hturn
      rw [List.append_assoc] at hlater
      exact hlater

end Recorded

/-! ## The ledger -/

/-- What the model is shown of the tools that were called. -/
def observations (text : TextTables) (turns : List ToolTurn) : List PyStr :=
  turns.mapIdx fun i turn =>
    lit "[" ++ lit (toString i) ++ lit "] " ++ turn.tool ++ lit " -> " ++
      turn.result.outcome.value ++ lit ": " ++
      if turn.result.outcome = .ok then strValue text.printable text.floatRepr turn.result.output
      else turn.result.error.getD (lit "None")

/-- What the model is shown after some turns: the tools, what was observed, in order, the
    question, and how much may still be spent. -/
def shown (agent : AgentLoop) (text : TextTables) (question : PyStr) (turns : List ToolTurn) :
    PyStr :=
  PyStr.join (lit "\n\n")
    ([lit "Tools:\n" ++ agent.registry.describeAll text] ++
      (if turns = [] then []
        else [lit "What you have already learned:\n" ++
          PyStr.join (lit "\n") (observations text turns)]) ++
      [lit "Question: " ++ question,
        lit "Steps remaining: " ++ lit (toString (agent.budget.maxSteps - turns.length)) ++
          lit ". Tool calls remaining: " ++
          lit (toString (agent.budget.maxToolCalls - turns.length)) ++ lit "."])

/-- The observations of the steps are those of the turns. -/
theorem filterMap_observation (text : TextTables) (turns : List ToolTurn) :
    (stepsOf turns).filterMap (observation text) = observations text turns := by
  unfold stepsOf observations
  rw [List.mapIdx_eq_zipIdx_map, List.mapIdx_eq_zipIdx_map, List.filterMap_map]
  apply List.filterMap_eq_map_iff_forall_eq_some.mpr
  intro p _
  rfl

/-- Nothing is shown of no turns, and something of any. -/
theorem join_observations (text : TextTables) (turns : List ToolTurn) :
    PyStr.join (lit "\n") (observations text turns) = [] ↔ turns = [] := by
  cases turns with
  | nil => exact ⟨fun _ => rfl, fun _ => rfl⟩
  | cons turn turns =>
    have hline : ∀ line rest, line ≠ [] → PyStr.join (lit "\n") (line :: rest) ≠ [] := by
      intro line rest hne
      cases rest with
      | nil => exact hne
      | cons next rest => simp [PyStr.join, hne]
    have hne : PyStr.join (lit "\n") (observations text (turn :: turns)) ≠ [] := by
      unfold observations
      rw [List.mapIdx_cons]
      apply hline
      simp [lit, PyStr.ofString]
    simp [hne]

/-- `prompt` shows the provider the question and every turn so far. -/
theorem prompt_eq_shown (agent : AgentLoop) (text : TextTables) (question : PyStr)
    (turns : List ToolTurn) :
    agent.prompt text (stateAfter agent question turns) =
      { system := AGENT_SYSTEM_PROMPT, user := shown agent text question turns } := by
  have hobserved : ((stateAfter agent question turns).steps.filterMap (observation text)) =
      observations text turns := filterMap_observation text turns
  unfold AgentLoop.prompt render shown allowance AgentState.remainingSteps
    AgentState.remainingToolCalls
  simp only [hobserved, stateAfter_stepCount, stateAfter_toolCalls]
  by_cases hturns : turns = []
  · rw [if_pos hturns, if_pos ((join_observations text turns).mpr hturns)]
    rfl
  · rw [if_neg hturns, if_neg (mt (join_observations text turns).mp hturns)]
    rfl

/-- The budget and the ledger of a run of some tool turns, which showed the model
    `prompts`, one for each time it was asked. -/
structure Ledger (agent : AgentLoop) (text : TextTables) (question : PyStr)
    (turns : List ToolTurn) (prompts : List LLMPrompt) (final : AgentState)
    (outcome : AgentOutcome) : Prop where
  /-- The model is asked no more often than either limit allows. -/
  calls : prompts.length ≤ min agent.budget.maxSteps agent.budget.maxToolCalls
  /-- The k-th prompt, counted from 0, shows the first k turns. -/
  shown : ∀ k prompt, prompts[k]? = some prompt →
    k ≤ turns.length ∧ prompt = {
      system := AGENT_SYSTEM_PROMPT, user := shown agent text question (turns.take k) }
  /-- The steps are the tool turns, in order, and an answer after them if there was one. -/
  steps : final.steps = stepsOf turns ++
    if outcome.completed then
      [{ index := turns.length, kind := .answer, tool := none, result := none }]
    else []
  indices : ∀ (i : Nat) (step : AgentStep), final.steps[i]? = some step → step.index = i
  answerLast : ∀ (i : Nat) (step : AgentStep), final.steps[i]? = some step →
    step.kind = .answer → i + 1 = final.steps.length
  completed : outcome.completed = true ↔
    ∃ step, final.steps.getLast? = some step ∧ step.kind = .answer
  toolCalls : outcome.toolCalls = turns.length ∧
    outcome.toolCalls = (final.steps.filter fun step => step.kind = .toolCall).length
  transcript : outcome.steps = final.steps.map fun step => {
    index := step.index
    kind := step.kind.value
    tool := step.tool
    outcome := step.result.map (·.outcome.value) }

/-- What the steps of tool turns, and perhaps an answer, look like. -/
theorem steps_shape {turns : List ToolTurn} {steps : List AgentStep} (completed : Bool)
    (hsteps : steps = stepsOf turns ++
      if completed then
        [{ index := turns.length, kind := .answer, tool := none, result := none }]
      else []) :
    (∀ (i : Nat) (step : AgentStep), steps[i]? = some step → step.index = i ∧
      (step.kind = .answer → i + 1 = steps.length)) ∧
    (completed = true ↔ ∃ step, steps.getLast? = some step ∧ step.kind = .answer) ∧
    (steps.filter fun step => step.kind = .toolCall).length = turns.length := by
  -- A step of a turn is a tool call, numbered by its place
  have htool : ∀ (i : Nat) (step : AgentStep), (stepsOf turns)[i]? = some step →
      step.index = i ∧ step.kind = .toolCall := by
    intro i step hstep
    rw [stepsOf, List.getElem?_mapIdx, Option.map_eq_some_iff] at hstep
    obtain ⟨turn, -, rfl⟩ := hstep
    exact ⟨rfl, rfl⟩
  have hcount : (stepsOf turns).filter (fun step => step.kind = .toolCall) = stepsOf turns := by
    apply List.filter_eq_self.mpr
    intro step hstep
    obtain ⟨i, turn, -, rfl⟩ := List.mem_mapIdx.mp hstep
    rfl
  cases completed with
  | false =>
    simp only [Bool.false_eq_true, if_false, List.append_nil] at hsteps
    subst hsteps
    refine ⟨?_, ?_, by rw [hcount, length_stepsOf]⟩
    · intro i step hstep
      obtain ⟨hindex, hkind⟩ := htool i step hstep
      exact ⟨hindex, fun hanswer => nomatch hkind.symm.trans hanswer⟩
    · constructor
      · exact fun h => nomatch h
      · rintro ⟨step, hlast, hanswer⟩
        rw [List.getLast?_eq_getElem?] at hlast
        have hkind := (htool _ step hlast).2
        exact nomatch hkind.symm.trans hanswer
  | true =>
    simp only [if_true] at hsteps
    subst hsteps
    refine ⟨?_, ?_, ?_⟩
    · intro i step hstep
      by_cases hi : i < turns.length
      · rw [List.getElem?_append_left (by simpa using hi)] at hstep
        obtain ⟨hindex, hkind⟩ := htool i step hstep
        exact ⟨hindex, fun hanswer => nomatch hkind.symm.trans hanswer⟩
      · have hbound := (List.getElem?_eq_some_iff.mp hstep).1
        simp only [List.length_append, length_stepsOf, List.length_singleton] at hbound
        -- The step of the answer is the one behind the turns
        have hlast : i = turns.length := by omega
        subst hlast
        rw [List.getElem?_append_right (by simp), length_stepsOf, Nat.sub_self] at hstep
        rw [← Option.some.inj hstep]
        refine ⟨rfl, fun _ => ?_⟩
        simp
    · simp
    · rw [List.filter_append, hcount]
      simp

/-- With any model, any executor that always returns, and any budget, a run ends, and what
    it spends and writes down is its ledger. -/
theorem run_ledger (agent : AgentLoop) (hreturns : Returns agent.execute) (question : PyStr)
    (env : Env) (w : RequestState) :
    ∃ turns last w₁ prompts final outcome w',
      Path agent env { question, budget := agent.budget, steps := [] } w turns last w₁ ∧
      Ending agent env last w₁ prompts final outcome w' ∧
      agent.run question env w = (.ok outcome, w') ∧
      Ledger agent env.text question turns (turns.map (·.prompt) ++ prompts) final outcome := by
  obtain ⟨turns, last, w₁, prompts, final, outcome, w', hpath, hending, hrun⟩ :=
    loop_path hreturns env { question, budget := agent.budget, steps := [] } w
  refine ⟨turns, last, w₁, prompts, final, outcome, w', hpath, hending, hrun, ?_⟩
  obtain ⟨hlast, hturns⟩ := hpath.last_eq question [] rfl
  rw [List.nil_append] at hlast
  -- The last question, if there was one, was asked within the budget too.
  have hasked : prompts.length ≤ 1 ∧ ∀ prompt ∈ prompts,
      prompt = agent.prompt env.text (stateAfter agent question turns) ∧
        turns.length < min agent.budget.maxSteps agent.budget.maxToolCalls := by
    cases hending with
    | spent hreason => exact ⟨Nat.zero_le 1, fun _ h => nomatch h⟩
    | unavailable hgo hdecide =>
      refine ⟨Nat.le_refl 1, ?_⟩
      intro prompt hprompt
      rw [hlast] at hgo
      rw [List.mem_singleton.mp hprompt, hlast]
      exact ⟨rfl, (stateAfter_going turns).mp hgo⟩
    | answered hgo hdecide htool =>
      refine ⟨Nat.le_refl 1, ?_⟩
      intro prompt hprompt
      rw [hlast] at hgo
      rw [List.mem_singleton.mp hprompt, hlast]
      exact ⟨rfl, (stateAfter_going turns).mp hgo⟩
  -- The transcript is the steps of the turns, and one more where an answer was given
  have hsteps : final.steps = stepsOf turns ++
      if outcome.completed then
        [{ index := turns.length, kind := .answer, tool := none, result := none }]
      else [] := by
    cases hending with
    | spent hreason => rw [hlast]; exact (List.append_nil _).symm
    | unavailable hgo hdecide => rw [hlast]; exact (List.append_nil _).symm
    | answered hgo hdecide htool =>
      rw [hlast, AgentState.recordAnswer_steps, stateAfter_stepCount]
      rfl
  have hfinal : outcome.toolCalls = final.toolCalls ∧ outcome.steps = final.transcript := by
    cases hending <;> exact ⟨rfl, rfl⟩
  obtain ⟨hindexed, hcompleted, hcount⟩ := steps_shape outcome.completed hsteps
  -- The last turn was asked within the budget, and so were those before it
  have hwithin : turns.length ≤ min agent.budget.maxSteps agent.budget.maxToolCalls := by
    cases hlen : turns.length with
    | zero => exact Nat.zero_le _
    | succ n =>
      have hlt : n < turns.length := by omega
      have hbound := (hturns n turns[n] (List.getElem?_eq_getElem hlt)).2
      rw [List.nil_append, List.length_take] at hbound
      omega
  exact {
    calls := by
      rw [List.length_append, List.length_map]
      cases hprompts : prompts with
      | nil => simpa using hwithin
      | cons prompt rest =>
        have hbound := (hasked.2 prompt (by rw [hprompts]; exact List.mem_cons_self)).2
        have hone := hasked.1
        rw [hprompts] at hone
        omega
    shown := by
      intro k prompt hprompt
      rw [← prompt_eq_shown]
      by_cases hk : k < turns.length
      · rw [List.getElem?_append_left (by simpa using hk), List.getElem?_map,
          List.getElem?_eq_getElem hk] at hprompt
        refine ⟨by omega, ?_⟩
        rw [← Option.some.inj hprompt]
        exact (hturns k turns[k] (List.getElem?_eq_getElem hk)).1
      · rw [List.getElem?_append_right (by simpa using hk), List.length_map] at hprompt
        have hbound := (List.getElem?_eq_some_iff.mp hprompt).1
        have hone := hasked.1
        refine ⟨by omega, ?_⟩
        rw [List.take_of_length_le (by omega)]
        exact (hasked.2 prompt (List.mem_of_getElem? hprompt)).1
    steps := hsteps
    indices := fun i step hstep => (hindexed i step hstep).1
    answerLast := fun i step hstep => (hindexed i step hstep).2
    completed := hcompleted
    toolCalls := ⟨hfinal.1.trans hcount, hfinal.1⟩
    transcript := hfinal.2 }

/-- A model that asks for the same tool, however often it is asked. -/
def insisting : LLMProvider :=
  { LLMProvider.unavailable with
    agentDecision := fun _ _ => .ok {
      tool := some (lit "lookup_ticket"), toolParams := [], finalAnswer := none } }

/-- An agent whose one tool call is refused. -/
def refusedAgent : AgentLoop where
  registry := toolRegistry
  execute tool _ := pure (.failure tool .notFound (lit "No such tool.") false)
  budget := { maxSteps := 6, maxToolCalls := 1 }

/-- A provider insists on a tool whose parameters are refused, until the budget is spent. -/
theorem run_ledger_refused :
    ∃ turns prompts final outcome w',
      refusedAgent.run (lit "Where is my order?")
          (.plain insisting .refusing (.default false)) (.start ⟨[], [], [], [], [], []⟩) =
        (.ok outcome, w') ∧
      Ledger refusedAgent (Env.plain insisting .refusing (.default false)).text
        (lit "Where is my order?") turns prompts final outcome ∧
      outcome.toolCalls = 1 := by
  have hreturns : Returns refusedAgent.execute := fun tool _ _ w => ⟨_, w, rfl⟩
  obtain ⟨turns, last, w₁, prompts, final, outcome, w', -, -, hrun, hledger⟩ :=
    run_ledger refusedAgent hreturns (lit "Where is my order?")
      (.plain insisting .refusing (.default false)) (.start ⟨[], [], [], [], [], []⟩)
  refine ⟨turns, _, final, outcome, w', hrun, hledger, ?_⟩
  -- The call is refused, and spends the budget
  rw [AgentLoop.run, loop_of_called rfl rfl rfl rfl, loop_of_exhausted rfl] at hrun
  rw [← Except.ok.inj (Prod.mk.inj hrun).1]
  rfl

end NexaAssist.Spec.AgentLedger
