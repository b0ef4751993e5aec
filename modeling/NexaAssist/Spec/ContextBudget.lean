import Mathlib.Algebra.Order.BigOperators.Group.List
import Mathlib.Algebra.Order.Ring.Nat
import NexaAssist.Services.Context

/-!
# The context window

What is kept of a history is its end, and where it stops is decided by the budget. What it
costs is what the turns were charged.
-/

namespace NexaAssist.Spec.ContextBudget

open PyJson

/-- A turn as it is presented whole. -/
def whole (message : ConversationMessage) : ContextMessage :=
  { role := message.role, content := message.content, tokens := message.tokenEstimate }

/-- What some turns are estimated at. -/
def cost (messages : List ConversationMessage) : Nat :=
  (messages.map ConversationMessage.tokenEstimate).sum

/-- The newest turn is larger than the whole window. -/
def Oversized (window : ContextWindow) (history : List ConversationMessage) : Prop :=
  ∃ newest ∈ history.getLast?, window.maxTokens < newest.tokenEstimate

/-- `kept`, before which `older` was left out, stops where the budget makes it stop: before
    each of its turns there was budget left, and either none is left now or the next turn
    does not fit. -/
structure Stops (budget : Nat) (older kept : List ConversationMessage) : Prop where
  open_until : ∀ newer, newer <:+ kept → newer ≠ kept → cost newer < budget
  closed : ∀ next ∈ older.getLast?, budget ≤ cost kept ∨ budget < cost kept + next.tokenEstimate

/-- The window a history gets, of which `kept` survives and `older` does not. -/
structure Selected (window : ContextWindow) (history : List ConversationMessage)
    (context : ConversationContext) (older kept : List ConversationMessage) : Prop where
  suffix : history = older ++ kept
  newest : history ≠ [] → kept ≠ []
  truncated_iff : context.truncated = true ↔ Oversized window history
  shortened : context.truncated = true → ∃ message, kept = [message] ∧
    context.messages = [{
      role := message.role
      content := truncate message.content window.maxTokens
      tokens := window.maxTokens }]
  unchanged : context.truncated = false → context.messages = kept.map whole
  stops : context.truncated = false → Stops window.maxTokens older kept
  total : context.totalTokens = (context.messages.map ContextMessage.tokens).sum
  within : context.totalTokens ≤ window.maxTokens
  counted : context.dropped + context.messages.length = history.length

/-- Text that a window can present. -/
def Presentable (content : PyStr) : Prop := content ≠ [] ∧ wellFormed content = true

instance (content : PyStr) : Decidable (Presentable content) :=
  inferInstanceAs (Decidable (_ ∧ _))

/-! ## The loop -/

/-- No messages cost nothing. -/
@[simp] theorem cost_nil : cost [] = 0 := rfl

/-- The `cost` of a message and others is its estimate and theirs. -/
@[simp] theorem cost_cons (message : ConversationMessage) (messages : List ConversationMessage) :
    cost (message :: messages) = message.tokenEstimate + cost messages := by
  simp [cost]

/-- The `cost` of messages is that of the messages in reverse. -/
@[simp] theorem cost_reverse (messages : List ConversationMessage) :
    cost messages.reverse = cost messages := by
  simp [cost, List.sum_reverse]

/-- What the loop made of the turns before `left`, all of which it kept. -/
structure Taken (window : ContextWindow) (s s' : Selection)
    (taken left : List ConversationMessage) : Prop where
  result : s' = { s with kept := s.kept ++ taken.map whole, used := s.used + cost taken }
  within : s.used + cost taken ≤ window.maxTokens
  open_until : ∀ front, front <+: taken → front ≠ taken → s.used + cost front < window.maxTokens
  closed : ∀ next ∈ left.head?, window.maxTokens ≤ s.used + cost taken ∨
    (window.maxTokens < s.used + cost taken + next.tokenEstimate ∧ s'.kept ≠ [])

/-- The loop keeps some turns whole, or shortens the first one it looks at. -/
theorem select_some (window : ContextWindow) {rest : List ConversationMessage} {s s' : Selection}
    (hused : s.used ≤ window.maxTokens) (h : window.select rest s = some s') :
    (∃ taken left, rest = taken ++ left ∧ Taken window s s' taken left) ∨
    (s.kept = [] ∧ ∃ message left, rest = message :: left ∧
      window.maxTokens < s.used + message.tokenEstimate ∧
      s' = {
        kept := [{
          role := message.role
          content := truncate message.content (window.maxTokens - s.used)
          tokens := window.maxTokens - s.used }]
        used := window.maxTokens
        truncated := true }) := by
  -- Induction on the messages left, newest first
  induction rest generalizing s with
  | nil =>
    simp only [ContextWindow.select, Option.some.injEq] at h
    exact .inl ⟨[], [], rfl, by simp [h], by simpa using hused, by simp, by simp⟩
  | cons message older ih =>
    simp only [ContextWindow.select] at h
    split at h
    -- The budget is spent to the token
    · rename_i hspent
      obtain rfl := Option.some.inj h
      refine .inl ⟨[], message :: older, rfl, by simp, by simpa using hused, by simp, ?_⟩
      intro next _
      rw [cost_nil]
      omega
    split at h
    -- The message fits whole, and the selection goes on behind it
    · rename_i hleft hfits
      obtain ⟨turn, hturn, h⟩ := Option.bind_eq_some_iff.mp h
      obtain rfl := ContextMessage.validate_some hturn
      have hnext : s.used + message.tokenEstimate ≤ window.maxTokens := by omega
      cases ih hnext h with
      | inr hshort => exact absurd hshort.1 (by simp)
      | inl hmore =>
        obtain ⟨taken, left, rfl, htaken⟩ := hmore
        have hwithin := htaken.within
        refine .inl ⟨message :: taken, left, rfl, ?_, ?_, ?_, ?_⟩
        · rw [htaken.result]
          simp [whole, Nat.add_assoc]
        · simp only [cost_cons] at hwithin ⊢
          omega
        · intro front hfront hne
          cases front with
          | nil => simp only [cost_nil]; omega
          | cons first front =>
            obtain ⟨rfl, htail⟩ := List.cons_prefix_cons.mp hfront
            have := htaken.open_until front htail (fun heq => hne (by rw [heq]))
            simp only [cost_cons] at this ⊢
            omega
        · intro next hnext
          have := htaken.closed next hnext
          simpa only [cost_cons, Nat.add_assoc] using this
    split at h
    -- It does not fit, and there is something to keep without it
    · rename_i hleft hlarge hkept
      obtain rfl := Option.some.inj h
      refine .inl ⟨[], message :: older, rfl, by simp, by simpa using hused, by simp, ?_⟩
      intro next hnext
      obtain rfl := Option.some.inj hnext
      rw [cost_nil]
      exact .inr ⟨by omega, hkept⟩
    -- It does not fit, but is the newest, so it is shortened to what is left
    · rename_i hleft hlarge hkept
      obtain ⟨turn, hturn, h⟩ := Option.bind_eq_some_iff.mp h
      obtain rfl := ContextMessage.validate_some hturn
      obtain rfl := Option.some.inj h
      have hkept : s.kept = [] := not_not.mp hkept
      refine .inr ⟨hkept, message, older, rfl, by omega, ?_⟩
      rw [hkept, Nat.add_sub_cancel' hused]
      rfl

/-- `select` goes through where every message has text that can be encoded. -/
theorem select_isSome (window : ContextWindow) (rest : List ConversationMessage) (s : Selection)
    (hcontent : ∀ message ∈ rest, message.content ≠ [])
    (htext : ∀ message ∈ rest, wellFormed message.content = true) :
    ∃ s', window.select rest s = some s' := by
  induction rest generalizing s with
  | nil => exact ⟨s, rfl⟩
  | cons message older ih =>
    obtain ⟨hcontent, holder⟩ := List.forall_mem_cons.mp hcontent
    obtain ⟨htext, htexts⟩ := List.forall_mem_cons.mp htext
    simp only [ContextWindow.select]
    split
    · exact ⟨_, rfl⟩
    split
    · rw [ContextMessage.validate_text _ _ hcontent htext]
      exact ih _ holder htexts
    split
    · exact ⟨_, rfl⟩
    · rw [ContextMessage.validate_text _ _ (truncate_ne_nil _ hcontent)
        (truncate_wellFormed _ htext)]
      exact ⟨_, rfl⟩

/-! ## The selection -/

/-- Where `build` gives a context, `select` has chosen its messages, the newest first. -/
theorem build_some {window : ContextWindow} {history : List ConversationMessage}
    {context : ConversationContext} (h : window.build history = some context) :
    ∃ s, window.select history.reverse { kept := [], used := 0, truncated := false } = some s ∧
      context = {
        messages := s.kept.reverse
        totalTokens := s.used
        dropped := history.length - s.kept.length
        truncated := s.truncated } := by
  obtain ⟨s, hs, h⟩ := Option.bind_eq_some_iff.mp h
  exact ⟨s, hs, (Option.some.inj h).symm⟩

/-- Turns that fit on their own are not oversized. -/
theorem not_oversized_append {window : ContextWindow} {older kept : List ConversationMessage}
    (hkept : kept ≠ []) (hcost : cost kept ≤ window.maxTokens) :
    ¬ Oversized window (older ++ kept) := by
  rintro ⟨newest, hnewest, hlarge⟩
  rw [List.getLast?_append_of_ne_nil _ hkept] at hnewest
  have hmem := List.mem_of_getLast? hnewest
  have : newest.tokenEstimate ≤ cost kept :=
    List.single_le_sum (by simp) _ (List.mem_map_of_mem hmem)
  omega

/-- `build` gives what `Selected` says of the history. -/
theorem selected_of_build {window : ContextWindow} {history : List ConversationMessage}
    {context : ConversationContext} (h : window.build history = some context) :
    ∃ older kept, Selected window history context older kept := by
  obtain ⟨s, hs, rfl⟩ := build_some h
  have hpositive := window.positive
  cases select_some window (Nat.zero_le _) hs with
  -- Every message kept is kept whole
  | inl hwhole =>
    obtain ⟨taken, left, hsplit, htaken⟩ := hwhole
    have hhistory : history = left.reverse ++ taken.reverse := by
      rw [← List.reverse_append, ← hsplit, List.reverse_reverse]
    have hwithin : cost taken ≤ window.maxTokens := by simpa using htaken.within
    have hclosed := htaken.closed
    have hopen := htaken.open_until
    simp only [Nat.zero_add] at hclosed hopen
    obtain rfl := htaken.result
    -- The newest message is taken, since the budget is positive
    have hnewest : history ≠ [] → taken ≠ [] := by
      intro hne htaken
      rw [htaken] at hclosed hhistory
      cases left with
      | nil => exact hne hhistory
      | cons next left =>
        cases hclosed next rfl with
        | inl hspent => simp only [cost_nil] at hspent; omega
        | inr hkept => simp at hkept
    -- And it fits, so the history is not oversized
    have hfits : ¬ Oversized window history := by
      rw [hhistory]
      by_cases hnil : history = []
      · rintro ⟨newest, hmem, _⟩
        rw [← hhistory, hnil] at hmem
        exact nomatch hmem
      · exact not_oversized_append (by simpa using hnewest hnil) (by simpa using hwithin)
    refine ⟨left.reverse, taken.reverse, hhistory, by simpa using hnewest, ?_, nofun, ?_, ?_, ?_,
      ?_, ?_⟩
    · simp [hfits]
    · simp
    · intro _
      constructor
      · intro newer hnewer hne
        have hfront : newer.reverse <+: taken := by
          have := List.reverse_prefix.mpr hnewer
          rwa [List.reverse_reverse] at this
        have := hopen newer.reverse hfront (fun heq => hne (by rw [← heq, List.reverse_reverse]))
        simpa using this
      · intro next hnext
        rw [List.getLast?_reverse] at hnext
        rw [cost_reverse]
        cases hclosed next hnext with
        | inl hspent => exact .inl hspent
        | inr hlarge => exact .inr hlarge.1
    · simp [whole, cost, List.sum_reverse, Function.comp_def]
    · simpa using hwithin
    · rw [hhistory]
      simp
  -- The newest message alone is over the budget
  | inr hshort =>
    obtain ⟨_, message, left, hsplit, hlarge, rfl⟩ := hshort
    have hhistory : history = left.reverse ++ [message] := by
      rw [← List.reverse_cons, ← hsplit, List.reverse_reverse]
    have hover : Oversized window history := by
      refine ⟨message, ?_, by simpa using hlarge⟩
      rw [hhistory]
      simp
    refine ⟨left.reverse, [message], hhistory, by simp, ?_, ?_, nofun, nofun, ?_, ?_, ?_⟩
    · simp [hover]
    · intro _
      exact ⟨message, rfl, by simp⟩
    · simp
    · simp
    · rw [hhistory]
      simp

/-- `build` gives a context for every history that can be presented. -/
theorem build_isSome (window : ContextWindow) {history : List ConversationMessage}
    (h : ∀ message ∈ history, Presentable message.content) :
    ∃ context, window.build history = some context := by
  obtain ⟨s, hs⟩ := select_isSome window history.reverse
    { kept := [], used := 0, truncated := false }
    (fun message hmem => (h message (List.mem_reverse.mp hmem)).1)
    (fun message hmem => (h message (List.mem_reverse.mp hmem)).2)
  exact ⟨_, by rw [ContextWindow.build, hs]; rfl⟩

/-- Every window that is built is the selection of its history, and one is built of every
    history of text. -/
theorem build_selects (window : ContextWindow) (history : List ConversationMessage) :
    (∀ context, window.build history = some context →
      ∃ older kept, Selected window history context older kept) ∧
    ((∀ message ∈ history, Presentable message.content) →
      ∃ context, window.build history = some context) :=
  ⟨fun _ h => selected_of_build h, build_isSome window⟩

/-! ## The text that is kept -/

/-- The text of every turn is estimated at no more than the turn was charged, and that of the
    window at no more than its budget. -/
def Respected (window : ContextWindow) (context : ConversationContext) : Prop :=
  (∀ turn ∈ context.messages, estimateTokens turn.content ≤ turn.tokens) ∧
    (context.messages.map fun turn => estimateTokens turn.content).sum ≤ window.maxTokens

instance (window : ContextWindow) (context : ConversationContext) :
    Decidable (Respected window context) :=
  inferInstanceAs (Decidable (_ ∧ _))

/-- A text of up to `4 * tokens` characters is estimated at most `tokens`. -/
theorem estimateTokens_le {text : PyStr} {tokens : Nat} (h : text.length ≤ 4 * tokens)
    (htokens : 1 ≤ tokens) : estimateTokens text ≤ tokens := by
  simp only [estimateTokens, CHARS_PER_TOKEN]
  omega

/-- A text of more than `4 * tokens` characters is estimated above `tokens`. -/
theorem le_estimateTokens {text : PyStr} {tokens : Nat} (h : 4 * tokens < text.length) :
    tokens < estimateTokens text := by
  simp only [estimateTokens, CHARS_PER_TOKEN]
  omega

/-- A text that is estimated above `tokens` has more than `4 * tokens` characters. -/
theorem length_of_estimateTokens {text : PyStr} {tokens : Nat} (htokens : 1 ≤ tokens)
    (h : tokens < estimateTokens text) : 4 * tokens < text.length := by
  simp only [estimateTokens, CHARS_PER_TOKEN] at h
  omega

/-- A turn too large for the budget is cut, and the marker comes after the cut. -/
theorem length_truncate {content : PyStr} {budget : Nat} (hbudget : 1 ≤ budget)
    (h : budget < estimateTokens content) :
    13 ≤ (truncate content budget).length ∧
      (truncate content budget).length ≤ max 1 (4 * budget - 13) + 13 := by
  have hlength := length_of_estimateTokens hbudget h
  have hcut : ¬ content.length ≤ max 1 (budget * CHARS_PER_TOKEN - TRUNCATION_MARKER.length) := by
    rw [TRUNCATION_MARKER_length, CHARS_PER_TOKEN]
    omega
  have hmarked : truncate content budget = PyStr.rstrip (content.take
      (max 1 (budget * CHARS_PER_TOKEN - TRUNCATION_MARKER.length))) ++ TRUNCATION_MARKER :=
    if_neg hcut
  have hstripped := (PyStr.prefix_rstrip
    (content.take (max 1 (budget * CHARS_PER_TOKEN - TRUNCATION_MARKER.length)))).length_le
  rw [hmarked, List.length_append]
  simp only [TRUNCATION_MARKER_length, CHARS_PER_TOKEN, List.length_take] at hstripped ⊢
  omega

/-- What a cut turn is estimated at stays within the budget when the marker does. -/
theorem estimateTokens_truncate_le {content : PyStr} {budget : Nat} (hbudget : 1 ≤ budget)
    (h : budget < estimateTokens content) :
    estimateTokens (truncate content budget) ≤ budget ↔ 4 ≤ budget := by
  obtain ⟨hmarker, hcut⟩ := length_truncate hbudget h
  constructor
  · intro hle
    by_contra hsmall
    have : 3 < estimateTokens (truncate content budget) := le_estimateTokens (by omega)
    omega
  · intro hlarge
    exact estimateTokens_le (by omega) hbudget

/-- A window respects its budget exactly when the budget has room for the marker or no turn
    had to be cut. -/
theorem respected_of_build {window : ContextWindow} {history : List ConversationMessage}
    {context : ConversationContext} (hbuild : window.build history = some context)
    (hestimate : ∀ message ∈ history, message.tokenEstimate = estimateTokens message.content) :
    Respected window context ↔ (4 ≤ window.maxTokens ∨ ¬ Oversized window history) := by
  obtain ⟨older, kept, hselected⟩ := selected_of_build hbuild
  have hkept : ∀ message ∈ kept, message.tokenEstimate = estimateTokens message.content := by
    intro message hmem
    apply hestimate
    rw [hselected.suffix]
    exact List.mem_append_right _ hmem
  -- A shortened message carries the marker, which the budget has to pay for
  by_cases hover : Oversized window history
  · have htruncated := hselected.truncated_iff.mpr hover
    obtain ⟨message, rfl, hmessages⟩ := hselected.shortened htruncated
    have hlarge : window.maxTokens < estimateTokens message.content := by
      obtain ⟨newest, hnewest, hlarge⟩ := hover
      rw [hselected.suffix, List.getLast?_append_of_ne_nil _ (by simp)] at hnewest
      obtain rfl := Option.some.inj hnewest
      rwa [← hkept message List.mem_cons_self]
    have hcut := estimateTokens_truncate_le window.positive hlarge
    simp [Respected, hmessages, hover, hcut]
  · have hfits : context.truncated = false := by
      rw [Bool.eq_false_iff]
      exact fun h => hover (hselected.truncated_iff.mp h)
    have hmessages := hselected.unchanged hfits
    -- Every message kept whole is charged what it costs
    have hcharged : ∀ turn ∈ context.messages, estimateTokens turn.content = turn.tokens := by
      rw [hmessages]
      intro turn hturn
      obtain ⟨message, hmem, rfl⟩ := List.mem_map.mp hturn
      exact (hkept message hmem).symm
    have hsum : (context.messages.map fun turn => estimateTokens turn.content).sum
        = context.totalTokens := by
      rw [hselected.total, List.map_congr_left hcharged]
    refine iff_of_true ⟨fun turn hturn => (hcharged turn hturn).le, ?_⟩ (.inr hover)
    rw [hsum]
    exact hselected.within

/-- Every window that is built of estimated turns respects its budget exactly when the budget
    has room for the marker or no turn had to be cut, and one is built of every history of
    text. -/
theorem respected_iff (window : ContextWindow) (history : List ConversationMessage)
    (hestimate : ∀ message ∈ history, message.tokenEstimate = estimateTokens message.content) :
    (∀ context, window.build history = some context →
      (Respected window context ↔ (4 ≤ window.maxTokens ∨ ¬ Oversized window history))) ∧
    ((∀ message ∈ history, Presentable message.content) →
      ∃ context, window.build history = some context) :=
  ⟨fun _ hbuild => respected_of_build hbuild hestimate, build_isSome window⟩

/-- A first turn of a conversation. -/
def opening (content : PyStr) : ConversationMessage where
  conversationId := .repeated 0
  position := 0
  role := .customer
  content := content
  tokenEstimate := estimateTokens content
  citations := []
  createdAt := 0

/-- A turn of two tokens in a window of one: the marker alone is estimated at four. -/
theorem marker_exceeds_window : ∃ context,
    ContextWindow.build { maxTokens := 1, positive := by decide } [opening (.ofString "hello")] =
      some context ∧
    ¬ Respected { maxTokens := 1, positive := by decide } context :=
  ⟨{ messages := [{ role := .customer, content := .ofString "h …[truncated]", tokens := 1 }]
     totalTokens := 1
     dropped := 0
     truncated := true }, by decide, by decide⟩

/-- A window of four tokens has room for the marker. -/
theorem respected_iff_hello : ∃ context,
    ContextWindow.build { maxTokens := 4, positive := by decide } [opening (.ofString "hello")] =
      some context ∧
    (Respected { maxTokens := 4, positive := by decide } context ↔
      (4 ≤ 4 ∨ ¬ Oversized { maxTokens := 4, positive := by decide }
        [opening (.ofString "hello")])) := by
  have hiff := respected_iff { maxTokens := 4, positive := by decide } [opening (.ofString "hello")]
    (by simp only [List.forall_mem_singleton]; decide)
  obtain ⟨context, hbuild⟩ := hiff.2 (by simp only [List.forall_mem_singleton]; decide)
  exact ⟨context, hbuild, hiff.1 context hbuild⟩

end NexaAssist.Spec.ContextBudget
