import NexaAssist.Services.Records

/-!
# Fitting a conversation into a context window

The newest turns survive. One that is larger than the whole window is shortened.
-/

namespace NexaAssist

open PyJson

def TRUNCATION_MARKER : PyStr := .ofString " …[truncated]"

/-- `TRUNCATION_MARKER` can be encoded. -/
theorem TRUNCATION_MARKER_wellFormed : wellFormed TRUNCATION_MARKER = true := by decide

/-- `TRUNCATION_MARKER` has 13 characters. -/
theorem TRUNCATION_MARKER_length : TRUNCATION_MARKER.length = 13 := by decide

/-- One turn as it will be presented to a model. -/
structure ContextMessage where
  role : MessageRole
  content : PyStr
  tokens : Nat
  deriving DecidableEq

/-- `ContextMessage(...)`, where a `ValidationError` is `none`. -/
def ContextMessage.validate (role : MessageRole) (content : PyStr) (tokens : Nat) :
    Option ContextMessage :=
  if content = [] || !wellFormed content then none else some { role, content, tokens }

/-- A turn that `validate` gives has the role, the content and the tokens it was given. -/
theorem ContextMessage.validate_some {role : MessageRole} {content : PyStr} {tokens : Nat}
    {turn : ContextMessage} (h : ContextMessage.validate role content tokens = some turn) :
    turn = { role, content, tokens } := by
  unfold ContextMessage.validate at h
  split at h
  · exact nomatch h
  · exact (Option.some.inj h).symm

/-- `validate` takes a text that is not empty and can be encoded. -/
theorem ContextMessage.validate_text (role : MessageRole) {content : PyStr} (tokens : Nat)
    (hcontent : content ≠ []) (htext : wellFormed content = true) :
    ContextMessage.validate role content tokens = some { role, content, tokens } := by
  simp [ContextMessage.validate, hcontent, htext]

structure ConversationContext where
  messages : List ContextMessage
  totalTokens : Nat
  dropped : Nat
  truncated : Bool
  deriving DecidableEq

/-- `_truncate`. -/
def truncate (content : PyStr) (budgetTokens : Nat) : PyStr :=
  let characters := max 1 (budgetTokens * CHARS_PER_TOKEN - TRUNCATION_MARKER.length)
  if content.length ≤ characters then content
  else PyStr.rstrip (content.take characters) ++ TRUNCATION_MARKER

/-- `truncate` leaves something of a content that is not empty. -/
theorem truncate_ne_nil {content : PyStr} (budgetTokens : Nat) (h : content ≠ []) :
    truncate content budgetTokens ≠ [] := by
  unfold truncate
  dsimp only
  split
  · exact h
  · exact List.append_ne_nil_of_right_ne_nil _ (by decide)

/-- `truncate` leaves a text that can be encoded. -/
theorem truncate_wellFormed {content : PyStr} (budgetTokens : Nat)
    (h : wellFormed content = true) : wellFormed (truncate content budgetTokens) = true := by
  unfold truncate
  dsimp only
  split
  · exact h
  · simp only [wellFormed, List.all_eq_true, List.mem_append] at h ⊢
    intro c hc
    cases hc with
    | inl hkept => exact h c (List.mem_of_mem_take (PyStr.rstrip_sublist _ |>.mem hkept))
    | inr hmarker => exact List.all_eq_true.mp TRUNCATION_MARKER_wellFormed c hmarker

/-- A selector of history that fits a token budget. -/
structure ContextWindow where
  maxTokens : Nat
  positive : 1 ≤ maxTokens

/-- The locals of the loop in `build`. -/
structure Selection where
  kept : List ContextMessage
  used : Nat
  truncated : Bool

/-- The loop of `build`, over the turns from the newest to the oldest. -/
def ContextWindow.select (window : ContextWindow) :
    List ConversationMessage → Selection → Option Selection
  | [], s => some s
  | message :: older, s =>
    let remaining := window.maxTokens - s.used
    if remaining = 0 then some s
    else if message.tokenEstimate ≤ remaining then do
      let turn ← ContextMessage.validate message.role message.content message.tokenEstimate
      window.select older
        { s with kept := s.kept ++ [turn], used := s.used + message.tokenEstimate }
    -- Only the newest turn is worth shortening. An older one is dropped whole.
    else if s.kept ≠ [] then some s
    else do
      let turn ← ContextMessage.validate message.role (truncate message.content remaining) remaining
      return { kept := s.kept ++ [turn], used := s.used + remaining, truncated := true }

/-- The window of a history. -/
def ContextWindow.build (window : ContextWindow) (history : List ConversationMessage) :
    Option ConversationContext := do
  let s ← window.select history.reverse { kept := [], used := 0, truncated := false }
  return {
    messages := s.kept.reverse
    totalTokens := s.used
    dropped := history.length - s.kept.length
    truncated := s.truncated }

end NexaAssist
