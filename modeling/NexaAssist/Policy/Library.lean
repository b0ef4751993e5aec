import NexaAssist.ForStd.Regex
import NexaAssist.Policy.Rules

/-!
# The rules that are enforced

No commitments to money, complaints go to a person, and what could not be resolved is
not answered. Every rule replaces a reply by the same sentence.
-/

namespace NexaAssist

open PyJson

def REVIEW_REPLY : Text :=
  ⟨lit "I have passed this to a support agent, who will confirm the details with you.",
    by decide⟩

/-! ## Commitments -/

namespace Pattern

/-- A literal, in lower case, under `(?i)`. -/
def word (text : String) : Regex CodePoint :=
  (lit text).foldr (fun c rest => .seq (.one (ignoreCase c)) rest) .empty

/-- One of two or more expressions. -/
def oneOf (first : Regex CodePoint) (others : List (Regex CodePoint)) : Regex CodePoint :=
  others.foldl .alt first

/-- Expressions one after another. -/
def inOrder (parts : List (Regex CodePoint)) : Regex CodePoint := parts.foldr .seq .empty

/-- `\s+`. -/
def spaces : Regex CodePoint := .some1 isSpace

/-- `(?i)\b(i|we)\s+(have\s+)?(refunded|reimbursed|credited)\b` -/
def haveRefunded : Regex CodePoint :=
  inOrder [.boundary, oneOf (word "i") [word "we"], spaces,
    .opt (inOrder [word "have", spaces]),
    oneOf (word "refunded") [word "reimbursed", word "credited"], .boundary]

/-- `(?i)\b(i|we)\s*(will|'ll|’ll)\s+(refund|reimburse|credit|cancel)\b` -/
def willRefund : Regex CodePoint :=
  inOrder [.boundary, oneOf (word "i") [word "we"], .many isSpace,
    oneOf (word "will") [word "'ll", word "’ll"], spaces,
    oneOf (word "refund") [word "reimburse", word "credit", word "cancel"], .boundary]

/-- `(?i)\bguarantee(d)?\b` -/
def guarantee : Regex CodePoint :=
  inOrder [.boundary, word "guarantee", .opt (word "d"), .boundary]

/-- `(?i)\bfull\s+refund\b` -/
def fullRefund : Regex CodePoint :=
  inOrder [.boundary, word "full", spaces, word "refund", .boundary]

end Pattern

/-- Language that commits the business to money or an outcome. -/
def COMMITMENT_PATTERNS : List (Regex CodePoint) :=
  [Pattern.haveRefunded, Pattern.willRefund, Pattern.guarantee, Pattern.fullRefund]

/-- Some pattern is found in a text. -/
def commits (word : WordTable) (text : PyStr) : Bool :=
  COMMITMENT_PATTERNS.any fun pattern => pattern.search word.isWord text

/-- On an ASCII text `commits` does not depend on the word table. -/
theorem commits_of_ascii (word : WordTable) {text : PyStr}
    (h : (text.all fun c => c.val < 0x80) = true) :
    commits word text = COMMITMENT_PATTERNS.any fun pattern => pattern.search asciiWord text := by
  have hword : ∀ c ∈ text, word.isWord c = asciiWord c := by
    intro c hc
    exact word.ascii c (of_decide_eq_true (List.all_eq_true.mp h c hc))
  simp only [commits, Regex.search_congr hword]

example (word : WordTable) : commits word (lit "We'll CREDIT you") = true := by
  rw [commits_of_ascii word (by decide +kernel)]
  decide +kernel

/-! ## The rules -/

/-- The outcome every rule of the library has: the reply is replaced. -/
def PolicyOutcome.review (rule : PyStr) (reason : Text) : PolicyOutcome where
  action := .replace
  rule := rule
  reason := reason
  replacement := some REVIEW_REPLY.val
  carries _ := ⟨REVIEW_REPLY.val, rfl, REVIEW_REPLY.property⟩

def noFinancialCommitments (word : WordTable) : PolicyRule where
  name := lit "no_financial_commitments"
  evaluate context :=
    if commits word context.proposedReply then
      some (.review (lit "no_financial_commitments")
        ⟨lit "The reply committed to a financial outcome.", by decide⟩)
    else none

def complaintsGoToAHuman : PolicyRule where
  name := lit "complaints_go_to_a_human"
  evaluate context :=
    if context.analysis.intent = .complaint then
      some (.review (lit "complaints_go_to_a_human")
        ⟨lit "Complaints are answered by a person.", by decide⟩)
    else none

def unresolvedRequestsAreNotClaimedAsAnswered : PolicyRule where
  name := lit "unresolved_requests_reach_a_human"
  evaluate context :=
    if !context.handled then
      some (.review (lit "unresolved_requests_reach_a_human")
        ⟨lit "The handler could not resolve the request.", by decide⟩)
    else none

/-- The standard rule set, in precedence order. -/
def defaultRules (word : WordTable) : PolicyEngine where
  rules := [noFinancialCommitments word, complaintsGoToAHuman,
    unresolvedRequestsAreNotClaimedAsAnswered]
  named rule hrule := by
    have hnames : [lit "no_financial_commitments", lit "complaints_go_to_a_human",
        lit "unresolved_requests_reach_a_human"].all (· ≠ []) = true := by decide
    have hname := List.all_eq_true.mp hnames rule.name
      (List.mem_map_of_mem (f := PolicyRule.name) hrule)
    simpa using hname
  distinct := by
    show [lit "no_financial_commitments", lit "complaints_go_to_a_human",
      lit "unresolved_requests_reach_a_human"].Nodup
    decide

/-! ## What the rules come to -/

/-- `REVIEW_REPLY` commits to nothing. -/
theorem commits_review_reply (word : WordTable) : commits word REVIEW_REPLY.val = false := by
  rw [commits_of_ascii word (by decide +kernel)]
  decide +kernel

/-- When some rule has something to say: the reply commits to money, the message is a
    complaint, or the request was not resolved. -/
def reviewed (word : WordTable) (context : PolicyContext) : Bool :=
  commits word context.proposedReply || context.analysis.intent = .complaint || !context.handled

/-- `noFinancialCommitments` fires just if the proposed reply `commits`. -/
theorem fires_noFinancialCommitments (word : WordTable) (context : PolicyContext) :
    PolicyEngine.fires (noFinancialCommitments word) context =
      commits word context.proposedReply := by
  cases h : commits word context.proposedReply <;>
    simp [PolicyEngine.fires, noFinancialCommitments, h, PolicyOutcome.review]

/-- `complaintsGoToAHuman` fires just for a complaint. -/
theorem fires_complaintsGoToAHuman (context : PolicyContext) :
    PolicyEngine.fires complaintsGoToAHuman context =
      decide (context.analysis.intent = .complaint) := by
  by_cases h : context.analysis.intent = .complaint <;>
    simp [PolicyEngine.fires, complaintsGoToAHuman, h, PolicyOutcome.review]

/-- `unresolvedRequestsAreNotClaimedAsAnswered` fires just for what was not handled. -/
theorem fires_unresolvedRequests (context : PolicyContext) :
    PolicyEngine.fires unresolvedRequestsAreNotClaimedAsAnswered context = !context.handled := by
  cases h : context.handled <;>
    simp [PolicyEngine.fires, unresolvedRequestsAreNotClaimedAsAnswered, h, PolicyOutcome.review]

/-- A reply is reviewed just if one of the default rules fires. -/
theorem reviewed_iff {word : WordTable} {context : PolicyContext} :
    reviewed word context = true ↔
      ∃ rule ∈ (defaultRules word).rules, PolicyEngine.fires rule context = true := by
  simp only [defaultRules, List.mem_cons, List.not_mem_nil, or_false, exists_eq_or_imp,
    exists_eq_left, fires_noFinancialCommitments, fires_complaintsGoToAHuman,
    fires_unresolvedRequests, reviewed, Bool.or_eq_true, or_assoc]

/-- `evaluate` asks for a review where a default rule fires. -/
theorem outcome_of_reviewed {word : WordTable} {context : PolicyContext}
    (h : reviewed word context = true) :
    ∃ rule reason, ((defaultRules word).evaluate context).outcome = .review rule reason := by
  have hrules : ∀ rule ∈ (defaultRules word).rules, ∀ outcome,
      rule.evaluate context = some outcome → ∃ name reason, outcome = .review name reason := by
    intro rule hrule outcome houtcome
    simp only [defaultRules, List.mem_cons, List.not_mem_nil, or_false] at hrule
    obtain rfl | rfl | rfl := hrule <;>
      simp only [noFinancialCommitments, complaintsGoToAHuman,
        unresolvedRequestsAreNotClaimedAsAnswered, Option.ite_none_right_eq_some,
        Option.some.injEq] at houtcome <;>
      exact ⟨_, _, houtcome.2.symm⟩
  obtain ⟨rule, hrule, -, heval⟩ := PolicyEngine.consult_of_fires (reviewed_iff.mp h) []
  exact hrules rule hrule _ heval

/-- `evaluate` allows the reply where no default rule fires. -/
theorem outcome_of_not_reviewed {word : WordTable} {context : PolicyContext}
    (h : reviewed word context = false) :
    ((defaultRules word).evaluate context).outcome = .allow PolicyEngine.NO_RULE := by
  apply PolicyEngine.consult_of_silent
  intro rule hrule
  have hsilent : ¬ ∃ rule ∈ (defaultRules word).rules, PolicyEngine.fires rule context = true := by
    rw [← reviewed_iff, h]
    exact Bool.false_ne_true
  exact Bool.eq_false_iff.mpr fun hfires => hsilent ⟨rule, hrule, hfires⟩

section Enforcement

variable {word : WordTable} {message : Text} {analysis : IntentAnalysis} {proposed : Text}
  {handled : Bool}

/-- `enforce` replaces a reply on which a rule fires by `REVIEW_REPLY`. -/
theorem enforce_of_reviewed
    (h : reviewed word {
      message := message.val, analysis, proposedReply := proposed.val, handled } = true) :
    let enforced := PolicyEnforcer.enforce (defaultRules word) message analysis proposed handled
    enforced.reply = REVIEW_REPLY ∧ enforced.handled = handled ∧
      enforced.modified = decide (REVIEW_REPLY.val ≠ proposed.val) := by
  obtain ⟨rule, reason, houtcome⟩ := outcome_of_reviewed h
  simp only [PolicyEnforcer.enforce, PolicyEnforcer.apply]
  rw [houtcome]
  exact ⟨rfl, rfl, rfl⟩

/-- `enforce` leaves a reply on which no rule fires. -/
theorem enforce_of_not_reviewed
    (h : reviewed word {
      message := message.val, analysis, proposedReply := proposed.val, handled } = false) :
    let enforced := PolicyEnforcer.enforce (defaultRules word) message analysis proposed handled
    enforced.reply = proposed ∧ enforced.handled = handled ∧ enforced.modified = false := by
  simp only [PolicyEnforcer.enforce, PolicyEnforcer.apply]
  rw [outcome_of_not_reviewed h]
  exact ⟨rfl, rfl, rfl⟩

end Enforcement

end NexaAssist
