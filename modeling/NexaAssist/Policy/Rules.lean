import NexaAssist.Schemas.Types

/-!
# Policy rules, their engine and its enforcement

Rules are ordered, and the first outcome that does not allow wins. What the engine
decides is applied to the reply a handler proposes, and the handler cannot overrule it.
-/

namespace NexaAssist

open PyJson

/-! ## Rules -/

/-- What a rule wants to happen. -/
inductive PolicyAction
  | allow
  | block
  | replace
  deriving DecidableEq, Repr

/-- The facts a rule may consider. -/
structure PolicyContext where
  message : PyStr
  analysis : IntentAnalysis
  proposedReply : PyStr
  handled : Bool

/-- A rule's verdict. A replacing one carries its replacement. -/
structure PolicyOutcome where
  action : PolicyAction
  rule : PyStr
  reason : Text
  replacement : Option PyStr
  carries : action = .replace → ∃ reply, replacement = some reply ∧ reply ≠ []

/-- A deterministic check, with a name decisions are attributed to. -/
structure PolicyRule where
  name : PyStr
  evaluate : PolicyContext → Option PolicyOutcome

/-- `allow(rule)`. -/
def PolicyOutcome.allow (rule : PyStr) : PolicyOutcome where
  action := .allow
  rule := rule
  reason := ⟨lit "no rule applied", by decide⟩
  replacement := none
  carries h := nomatch h

/-! ## The engine -/

/-- The engine's decision, and which rules were consulted. -/
structure PolicyEvaluation where
  outcome : PolicyOutcome
  evaluated : List PyStr

/-- An ordered set of rules. `add` takes no rule without a name, and no name twice. -/
structure PolicyEngine where
  rules : List PolicyRule
  named : ∀ rule ∈ rules, rule.name ≠ []
  distinct : (rules.map (·.name)).Nodup

namespace PolicyEngine

def NO_RULE : PyStr := lit "default_allow"

/-- The loop of `evaluate`, with the names of the rules consulted before. -/
def consult (context : PolicyContext) (consulted : List PyStr) :
    List PolicyRule → PolicyEvaluation
  | [] => { outcome := .allow NO_RULE, evaluated := consulted }
  | rule :: rules =>
    match rule.evaluate context with
    | none => consult context (consulted ++ [rule.name]) rules
    | some outcome =>
      if outcome.action = .allow then consult context (consulted ++ [rule.name]) rules
      else { outcome, evaluated := consulted ++ [rule.name] }

/-- The first outcome that does not allow, or a default one that does. -/
def evaluate (engine : PolicyEngine) (context : PolicyContext) : PolicyEvaluation :=
  consult context [] engine.rules

/-- Whether a rule has anything to say against a reply. -/
def fires (rule : PolicyRule) (context : PolicyContext) : Bool :=
  (rule.evaluate context).any fun outcome => outcome.action ≠ .allow

/-- Where no rule fires, the default allows. -/
theorem consult_of_silent {context : PolicyContext} {rules : List PolicyRule}
    (h : ∀ rule ∈ rules, fires rule context = false) (consulted : List PyStr) :
    (consult context consulted rules).outcome = .allow NO_RULE := by
  induction rules generalizing consulted with
  | nil => rfl
  | cons rule rules ih =>
    have hrest := ih (fun r hr => h r (List.mem_cons_of_mem _ hr)) (consulted ++ [rule.name])
    have hrule : fires rule context = false := h rule List.mem_cons_self
    unfold consult
    split
    · exact hrest
    · rename_i outcome houtcome
      have hallow : outcome.action = .allow := by
        simpa [fires, houtcome] using hrule
      rw [if_pos hallow]
      exact hrest

/-- Where a rule fires, the outcome is what the first such rule says. -/
theorem consult_of_fires {context : PolicyContext} {rules : List PolicyRule}
    (h : ∃ rule ∈ rules, fires rule context = true) (consulted : List PyStr) :
    ∃ rule ∈ rules, fires rule context = true ∧
      rule.evaluate context = some (consult context consulted rules).outcome := by
  induction rules generalizing consulted with
  | nil =>
    obtain ⟨rule, hmem, -⟩ := h
    exact nomatch hmem
  | cons rule rules ih =>
    -- The first rule fires, or a later one does and this one allows or says nothing
    by_cases hrule : fires rule context = true
    · refine ⟨rule, List.mem_cons_self, hrule, ?_⟩
      unfold consult
      split
      · rename_i hnone
        simp [fires, hnone] at hrule
      · rename_i outcome houtcome
        have hnot : ¬ outcome.action = .allow := by
          simpa [fires, houtcome] using hrule
        rw [if_neg hnot, houtcome]
    · have hrest : ∃ r ∈ rules, fires r context = true := by
        obtain ⟨r, hmem, hfires⟩ := h
        cases List.mem_cons.mp hmem with
        | inl heq => exact absurd (heq ▸ hfires) hrule
        | inr hmem => exact ⟨r, hmem, hfires⟩
      obtain ⟨r, hmem, hfires, heval⟩ := ih hrest (consulted ++ [rule.name])
      refine ⟨r, List.mem_cons_of_mem _ hmem, hfires, ?_⟩
      rw [heval]
      conv => rhs; unfold consult
      split
      · rfl
      · rename_i outcome houtcome
        have hallow : outcome.action = .allow := by
          simpa [fires, houtcome] using hrule
        rw [if_pos hallow]

end PolicyEngine

/-! ## Enforcement -/

def BLOCKED_REPLY : Text :=
  ⟨lit "I am not able to help with that here. A support agent will follow up.", by decide⟩

/-- The reply after policy, and why it looks like that. -/
structure EnforcedReply where
  reply : Text
  originalReply : PyStr
  action : PolicyAction
  rule : PyStr
  reason : Text
  modified : Bool
  handled : Bool
  evaluated : List PyStr

namespace PolicyEnforcer

/-- `replacement or BLOCKED_REPLY`. -/
def orBlocked : Option PyStr → Text
  | none => BLOCKED_REPLY
  | some reply => if h : reply ≠ [] then ⟨reply, h⟩ else BLOCKED_REPLY

/-- `_apply`. -/
def apply (evaluation : PolicyEvaluation) (proposed : Text) (handled : Bool) : EnforcedReply :=
  let outcome := evaluation.outcome
  match outcome.action with
  | .block => {
      reply := BLOCKED_REPLY
      originalReply := proposed.val
      action := outcome.action
      rule := outcome.rule
      reason := outcome.reason
      modified := true
      -- A blocked reply did not resolve anything.
      handled := false
      evaluated := evaluation.evaluated }
  | .replace =>
    let replacement := orBlocked outcome.replacement
    { reply := replacement
      originalReply := proposed.val
      action := outcome.action
      rule := outcome.rule
      reason := outcome.reason
      modified := replacement.val ≠ proposed.val
      handled
      evaluated := evaluation.evaluated }
  | .allow => {
      reply := proposed
      originalReply := proposed.val
      action := .allow
      rule := outcome.rule
      reason := outcome.reason
      modified := false
      handled
      evaluated := evaluation.evaluated }

/-- The reply that may be sent. -/
def enforce (engine : PolicyEngine) (message : Text) (analysis : IntentAnalysis)
    (proposedReply : Text) (handled : Bool) : EnforcedReply :=
  let context : PolicyContext := {
    message := message.val, analysis, proposedReply := proposedReply.val, handled }
  apply (engine.evaluate context) proposedReply handled

end PolicyEnforcer

end NexaAssist
