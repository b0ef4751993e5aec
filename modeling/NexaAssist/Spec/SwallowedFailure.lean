import NexaAssist.Spec.AgentLedger
import NexaAssist.Spec.ExchangeRecorded

/-!
# What a swallowed failure leaves behind

A tool's failure becomes an observation, and a failure to queue a request is logged. Both
are caught, and neither rolls back the session, which all services of the request share.
Where the failure left the session inactive, the answer cannot be recorded either, and
the customer gets an error.

## Key results

- `Ledger`: the session is inactive exactly when some statement failed that makes it so
- `respond_reaches`: what a request is like when it comes to record its answer
- `reply_kept_iff`: when a swallowed failure does not cost the reply
-/

namespace NexaAssist.Spec.SwallowedFailure

open NexaAssist PyJson Effect AgentLedger PipelineDichotomy PipelineFootprint ExchangeRecorded

/-! ## The statements that were issued -/

/-- A failure after which the session rejects everything: one at a flush, or in an open
    transaction, or of a statement that had opened one. -/
def poisons (issue : Issue) : Bool :=
  match issue.outcome with
  | .failed fault session flush => !(fault = .connection && session = .idle && !flush)
  | _ => false

/-- What the statements issued so far say about the session. -/
structure Ledger (env : Env) (w : RequestState) : Prop where
  inactive : w.session = .inactive ↔ ∃ issue ∈ w.issued, poisons issue = true
  faulty : ∀ (m : Nat) issue, w.issued[m]? = some issue → poisons issue = true →
    env.faults m ≠ none
  /-- A request is queued by a flush and a commit. -/
  queued : ∀ issue ∈ w.issued, issue.caller = .handoff →
    issue.outcome ≠ .failed .connection .idle false

section Ledger

variable {env : Env} {w w' : RequestState}

/-- A request starts with its books in order. -/
theorem ledger_start (env : Env) (db : Database) : Ledger env (.start db) where
  inactive := by simp [RequestState.start]
  faulty m issue h := by simp [RequestState.start] at h
  queued issue h := by simp [RequestState.start] at h

/-- `Ledger` depends on the session and on what was issued alone. -/
theorem Ledger.congr (h : Ledger env w) (hissued : w'.issued = w.issued)
    (hsession : w'.session = .inactive ↔ w.session = .inactive) : Ledger env w' where
  inactive := by
    rw [hsession, hissued]
    exact h.inactive
  faulty := by
    rw [hissued]
    exact h.faulty
  queued := by
    rw [hissued]
    exact h.queued

/-- `Ledger` is kept by one statement more, if the session is inactive just where some statement
    poisons it. -/
theorem Ledger.snoc (h : Ledger env w) {issue : Issue} (hissued : w'.issued = w.issued ++ [issue])
    (hsession : w'.session = .inactive ↔ w.session = .inactive ∨ poisons issue = true)
    (hfaulty : poisons issue = true → env.faults w.issued.length ≠ none)
    (hqueued : issue.caller = .handoff → issue.outcome ≠ .failed .connection .idle false) :
    Ledger env w' where
  inactive := by
    rw [hsession, hissued, h.inactive]
    simp only [List.mem_append, List.mem_singleton, or_and_right, exists_or, exists_eq_left]
  faulty m other hother hpoisons := by
    rw [hissued, List.getElem?_append] at hother
    split at hother
    · exact h.faulty m other hother hpoisons
    · rename_i hlast
      have hm : m = w.issued.length := by
        have hbound : m - w.issued.length < 1 := (List.getElem?_eq_some_iff.mp hother).1
        omega
      subst hm
      have hsame : issue = other := by simpa using hother
      exact hfaulty (hsame ▸ hpoisons)
  queued other hother := by
    rw [hissued] at hother
    cases List.mem_append.mp hother with
    | inl hbefore => exact h.queued other hbefore
    | inr hlast =>
      rw [List.mem_singleton.mp hlast]
      exact hqueued

/-- `Ledger` is kept by a statement that is rejected. -/
theorem Ledger.rejected (h : Ledger env w) (reading : Reading) (hsession : w.session = .inactive) :
    Ledger env (w.record reading .rejected) :=
  h.snoc rfl (by simp [RequestState.record, hsession]) nofun nofun

/-- `Ledger` is kept by a statement that fails, but for a query of the handoff in an idle
    session. -/
theorem Ledger.failed (h : Ledger env w) {reading : Reading} {fault : Fault} {flush : Bool}
    (hsession : w.session ≠ .inactive) (hfault : env.faults w.issued.length = some fault)
    (hqueued : w.caller = .handoff → flush = true ∨ w.session = .begun) :
    Ledger env (w.fail reading fault flush) := by
  apply h.snoc rfl
  · simp only [RequestState.fail, poisons, hsession, false_or]
    cases fault <;> cases w.session <;> cases flush <;> simp
  · intro _
    rw [hfault]
    exact Option.some_ne_none fault
  · intro hcaller hend
    obtain ⟨-, hidle, hflush⟩ := Outcome.failed.inj hend
    cases hqueued hcaller with
    | inl h => exact absurd (h.symm.trans hflush) (by decide)
    | inr h => exact absurd (h.symm.trans hidle) (by decide)

/-- `Ledger` is kept by a statement that is done. -/
theorem Ledger.done (h : Ledger env w) {reading : Reading} {db committed : Database}
    {session : SessionState} (hbefore : w.session ≠ .inactive) (hafter : session ≠ .inactive) :
    Ledger env { w.record reading .done with db, committed, session } :=
  h.snoc rfl (by simp [hbefore, hafter, poisons]) nofun nofun

end Ledger

/-- The ledger is kept. -/
def Books (env : Env) (w w' : RequestState) : Prop :=
  w'.caller = w.caller ∧ (Ledger env w → Ledger env w')

/-- The ledger is kept, by code that is not the handoff's. -/
def Keeps (env : Env) (w w' : RequestState) : Prop :=
  w'.caller = w.caller ∧ (w.caller ≠ .handoff → Ledger env w → Ledger env w')

/-- Books that are in order keep what was committed. -/
theorem Books.keeps {env : Env} {w w' : RequestState} (h : Books env w w') : Keeps env w w' :=
  ⟨h.1, fun _ => h.2⟩

/-- A step that does nothing leaves the books in order. -/
theorem books_refl (env : Env) (w : RequestState) : Books env w w := ⟨rfl, id⟩

/-- Two steps that each leave the books in order do so together. -/
theorem books_trans (env : Env) (w₁ w₂ w₃ : RequestState) (h : Books env w₁ w₂)
    (h' : Books env w₂ w₃) : Books env w₁ w₃ :=
  ⟨h'.1.trans h.1, fun hledger => h'.2 (h.2 hledger)⟩

/-- A step that does nothing takes no row away. -/
theorem keeps_refl (env : Env) (w : RequestState) : Keeps env w w := (books_refl env w).keeps

/-- Two steps that each take no row away take none together. -/
theorem keeps_trans (env : Env) (w₁ w₂ w₃ : RequestState) (h : Keeps env w₁ w₂)
    (h' : Keeps env w₂ w₃) : Keeps env w₁ w₃ :=
  ⟨h'.1.trans h.1, fun hcaller hledger => h'.2 (h.1 ▸ hcaller) (h.2 hcaller hledger)⟩

/-- `insert` leaves the books in order. -/
theorem insert_books {α : Type} (row : Env → Nat → α) (store : α → Database → Database) :
    Moves Books (App.insert row store) := by
  intro env w
  unfold App.insert
  obtain ⟨hsession, hrun⟩ | ⟨hsession, fault, hfault, hrun⟩ | ⟨hsession, -, hrun⟩ :=
    App.statement_cases true .nothing (fun env n db => (row env n, store (row env n) db)) env w
  · rw [hrun]
    exact ⟨rfl, fun h => h.rejected .nothing hsession⟩
  · rw [hrun]
    exact ⟨rfl, fun h => h.failed hsession hfault fun _ => .inl rfl⟩
  · rw [hrun]
    exact ⟨rfl, fun h => h.done hsession (by decide)⟩

/-- `commit` leaves the books in order. -/
theorem commit_books : Moves Books App.commit := by
  intro env w
  obtain ⟨hsession, hrun⟩ | ⟨-, hrun⟩ | ⟨hsession, fault, hfault, hrun⟩ | ⟨hsession, -, hrun⟩ :=
    App.commit_cases env w
  · rw [hrun]
    exact ⟨rfl, fun h => h.rejected .nothing hsession⟩
  · rw [hrun]
    exact books_refl env w
  · rw [hrun]
    exact ⟨rfl, fun h => h.failed (by rw [hsession]; decide) hfault fun _ => .inr hsession⟩
  · rw [hrun]
    exact ⟨rfl, fun h => h.done (by rw [hsession]; decide) (by decide)⟩

/-- `select` keeps what there is. -/
theorem select_keeps {α : Type} (reading : Reading) (query : Env → Database → α) :
    Moves Keeps (App.select reading query) := by
  intro env w
  unfold App.select
  obtain ⟨hsession, hrun⟩ | ⟨hsession, fault, hfault, hrun⟩ | ⟨hsession, -, hrun⟩ :=
    App.statement_cases false reading (fun env _ db => (query env db, db)) env w
  · rw [hrun]
    exact ⟨rfl, fun _ h => h.rejected reading hsession⟩
  · rw [hrun]
    exact ⟨rfl, fun hcaller h => h.failed hsession hfault fun heq => absurd heq hcaller⟩
  · rw [hrun]
    exact ⟨rfl, fun _ h => h.done hsession (by decide)⟩

/-- `enqueue` leaves the books in order. -/
theorem enqueue_books (message : PyStr) (intent : IntentCategory) (reason : EscalationReason)
    (proposedReply : Option PyStr) (ticketId : Option Uuid) :
    Moves Books (ReviewQueue.enqueue message intent reason proposedReply ticketId) := by
  apply Moves.bind books_trans (insert_books _ _)
  intro item
  exact .bind books_trans commit_books fun _ => .pure books_refl _

/-- `Keeps` is a footprint of the pipeline. -/
theorem keeps_footprint : Footprint Keeps where
  refl := keeps_refl
  trans := keeps_trans
  select := select_keeps
  complete answer prompt env w := by
    rw [App.complete_state]
    exact ⟨rfl, fun _ h => h.congr rfl Iff.rfl⟩
  enqueue message intent reason proposedReply ticketId env w := by
    have h := enqueue_books message intent reason proposedReply ticketId env
      { w with caller := .handoff }
    exact ⟨rfl, fun _ hledger => (h.2 (hledger.congr rfl Iff.rfl)).congr rfl Iff.rfl⟩
  tool {α x} hx env w := by
    have h := hx env { w with caller := .tool }
    exact ⟨rfl, fun _ hledger =>
      (h.2 (by decide : Caller.tool ≠ .handoff) (hledger.congr rfl Iff.rfl)).congr rfl Iff.rfl⟩

/-- `append` keeps the ledger. -/
theorem append_keeps (c : Uuid) (role : MessageRole) (content : PyStr)
    (citations : List Citation) (scope : Option OwnerScope) :
    Moves Keeps (ConversationService.append c role content citations scope) :=
  append_moves keeps_refl keeps_trans select_keeps
    (fun row store env w => (insert_books row store env w).keeps)
    (fun env w => (commit_books env w).keeps) c role content citations scope

/-! ## On whose behalf -/

/-- Statements were issued on behalf of the caller only. -/
structure Own (w w' : RequestState) : Prop where
  caller : w'.caller = w.caller
  issued : ∃ more, w'.issued = w.issued ++ more ∧ ∀ issue ∈ more, issue.caller = w.caller

def Owns (_ : Env) (w w' : RequestState) : Prop := Own w w'

/-- A step that does nothing writes to its own rows only. -/
theorem owns_refl (env : Env) (w : RequestState) : Owns env w w :=
  ⟨rfl, [], (List.append_nil _).symm, by simp⟩

/-- Two steps that each write to their own rows do so together. -/
theorem owns_trans (env : Env) (w₁ w₂ w₃ : RequestState) (h : Owns env w₁ w₂)
    (h' : Owns env w₂ w₃) : Owns env w₁ w₃ := by
  obtain ⟨hcaller, more, hissued, hmore⟩ := h
  obtain ⟨hcaller', more', hissued', hmore'⟩ := h'
  refine ⟨hcaller'.trans hcaller, more ++ more', by rw [hissued', hissued, List.append_assoc], ?_⟩
  intro issue hissue
  cases List.mem_append.mp hissue with
  | inl hfirst => exact hmore issue hfirst
  | inr hrest => exact (hmore' issue hrest).trans hcaller

/-- A step that issues one statement on behalf of its own caller owns what it writes. -/
theorem owns_of_issue {w w' : RequestState} {issue : Issue} (env : Env)
    (hcaller : w'.caller = w.caller) (hissued : w'.issued = w.issued ++ [issue])
    (hissue : issue.caller = w.caller) : Owns env w w' :=
  ⟨hcaller, [issue], hissued, by simpa using hissue⟩

/-- A statement writes to its own. -/
theorem statement_owns {α : Type} (flush : Bool) (reading : Reading)
    (run : Env → Nat → Database → α × Database) :
    Moves Owns (App.statement flush reading run) := by
  intro env w
  obtain ⟨-, hrun⟩ | ⟨-, fault, -, hrun⟩ | ⟨-, -, hrun⟩ :=
    App.statement_cases flush reading run env w
  all_goals
    rw [hrun]
    exact owns_of_issue env rfl rfl rfl

/-- `commit` writes to its own rows only. -/
theorem commit_owns : Moves Owns App.commit := by
  intro env w
  obtain ⟨-, hrun⟩ | ⟨-, hrun⟩ | ⟨-, fault, -, hrun⟩ | ⟨-, -, hrun⟩ := App.commit_cases env w
  · rw [hrun]
    exact owns_of_issue env rfl rfl rfl
  · rw [hrun]
    exact owns_refl env w
  · rw [hrun]
    exact owns_of_issue env rfl rfl rfl
  · rw [hrun]
    exact owns_of_issue env rfl rfl rfl

/-- `append` writes to its own conversation only. -/
theorem append_owns (c : Uuid) (role : MessageRole) (content : PyStr)
    (citations : List Citation) (scope : Option OwnerScope) :
    Moves Owns (ConversationService.append c role content citations scope) :=
  append_moves owns_refl owns_trans (fun _ _ => statement_owns _ _ _)
    (fun _ _ => statement_owns _ _ _) commit_owns c role content citations scope

/-- A call of the provider writes nothing. -/
theorem complete_owns {α : Type}
    (answer : LLMProvider → List LLMPrompt → LLMPrompt → Except LLMError α) (prompt : LLMPrompt) :
    Moves Owns (App.complete answer prompt) := by
  intro env w
  rw [App.complete_state]
  exact ⟨rfl, [], (List.append_nil _).symm, by simp⟩

/-- `KnowledgeBaseHandler.handle` writes to its own. -/
theorem knowledgeBase_owns (topK : Nat) (request : HandlerRequest) :
    Moves Owns (KnowledgeBaseHandler.handle topK request) :=
  knowledgeBase_moves owns_refl owns_trans (fun _ _ => statement_owns _ _ _) complete_owns topK
    request

/-! ## What a pipeline that raises has issued -/

/-- Returns, whatever fails. -/
def Total {α : Type} (x : App α) : Prop := ∀ env w, ∃ a w', x env w = (.ok a, w')

/-- Raises only while it issues statements on behalf of the caller. -/
def RaisesOwn {α : Type} (x : App α) : Prop :=
  ∀ env w raised w', x env w = (.error raised, w') → Own w w'

/-- What raises nothing raises only its own. -/
theorem Total.raisesOwn {α : Type} {x : App α} (h : Total x) : RaisesOwn x := by
  intro env w raised w' hrun
  obtain ⟨a, w₁, hok⟩ := h env w
  rw [hok] at hrun
  exact nomatch (Prod.mk.inj hrun).1

/-- What writes to its own raises only its own. -/
theorem raisesOwn_of_owns {α : Type} {x : App α} (h : Moves Owns x) : RaisesOwn x := by
  intro env w raised w' hrun
  have howns := h env w
  rw [hrun] at howns
  exact howns

/-- A program that raises only its own goes on with what raises nothing. -/
theorem RaisesOwn.bind {α β : Type} {x : App α} {f : α → App β} (hx : RaisesOwn x)
    (hf : ∀ a, Total (f a)) : RaisesOwn (x >>= f) := by
  intro env w raised w' hrun
  match hfirst : x env w with
  | (.ok a, w₁) =>
    rw [bind_of_ok hfirst] at hrun
    obtain ⟨b, w₂, hok⟩ := hf a env w₁
    rw [hok] at hrun
    exact nomatch (Prod.mk.inj hrun).1
  | (.error e, w₁) =>
    rw [bind_of_error hfirst] at hrun
    obtain ⟨herror, rfl⟩ := Prod.mk.inj hrun
    exact hx env w e w₁ hfirst

/-- A program that returns raises nothing. -/
theorem total_pure {α : Type} (a : α) : Total (pure a : App α) := fun _ w => ⟨a, w, rfl⟩

/-- Two programs that each raise nothing raise nothing one after the other. -/
theorem Total.bind {α β : Type} {x : App α} {f : α → App β} (hx : Total x)
    (hf : ∀ a, Total (f a)) : Total (x >>= f) := by
  intro env w
  obtain ⟨a, w₁, hfirst⟩ := hx env w
  rw [bind_of_ok hfirst]
  exact hf a env w₁

/-- An agent answers whatever its tools and its model do. -/
theorem run_total {agent : AgentLoop} (hreturns : Returns agent.execute) (question : PyStr) :
    Total (agent.run question) := by
  intro env w
  obtain ⟨-, -, -, -, -, outcome, w', -, -, hrun⟩ :=
    loop_path hreturns env { question, budget := agent.budget, steps := [] } w
  exact ⟨outcome, w', hrun⟩

/-- `AgentHandler.handle` raises nothing. -/
theorem agent_total (budget : AgentBudget) (request : HandlerRequest) :
    Total (AgentHandler.handle (buildAgent budget) request) :=
  (run_total (execute_returns toolRegistry) _).bind fun _ => total_pure _

/-- `consider` raises nothing where there is no ticket. -/
theorem consider_total (minConfidence : Rat) (message : Text) (routed : RoutedReply) :
    Total (HandoffService.consider minConfidence message routed none) := by
  unfold HandoffService.consider
  dsimp only
  split
  · exact total_pure _
  · exact Total.bind (record_returns _ _ _ _) fun _ => total_pure _

section Pipeline

variable (settings : Settings) (word : WordTable)

/-- Only the knowledge base raises, before any tool is called. -/
theorem chosen_raisesOwn (analysis : IntentAnalysis) (request : HandlerRequest) :
    RaisesOwn (((getAssistantService settings word).router.chosen analysis).handle request) := by
  have hfallback : RaisesOwn (fallbackHandler.handle request) := (total_pure _).raisesOwn
  have hdocumented := raisesOwn_of_owns (knowledgeBase_owns settings.retrievalTopK request)
  have hagent := agent_total (budgetFromSettings settings) request
  unfold IntentRouter.chosen
  split
  · exact hfallback
  · cases analysis.intent with
    | billing =>
      apply hdocumented.bind
      intro response
      split
      · exact total_pure _
      · exact hagent
    | technicalSupport => exact hagent.raisesOwn
    | account => exact hdocumented
    | productQuestion => exact hdocumented
    | complaint => exact hagent.raisesOwn
    | other => exact hfallback

/-- `process` raises only what its own statements raise. -/
theorem process_raisesOwn (message : Text) (analysis : IntentAnalysis) :
    RaisesOwn ((getAssistantService settings word).process message analysis) := by
  unfold AssistantService.process IntentRouter.route
  refine RaisesOwn.bind (RaisesOwn.bind (chosen_raisesOwn settings word analysis _) ?_) ?_
  · exact fun _ => total_pure _
  · exact fun _ => Total.bind (consider_total _ _ _) fun _ => total_pure _

end Pipeline

/-! ## Recording the answer -/

/-- The conversation is there, for whoever asks. -/
def Open (c : Uuid) (scope : Option OwnerScope) (db : Database) : Prop :=
  ∃ conversation, (db.conversations.find? fun conversation => conversation.id = c) =
      some conversation ∧
    refuses scope conversation.ownerSubject = false

/-- `Open` depends on the conversations alone. -/
theorem Open.congr {c : Uuid} {scope : Option OwnerScope} {db db' : Database}
    (h : Open c scope db) (hconversations : db'.conversations = db.conversations) :
    Open c scope db' := by
  unfold Open
  rw [hconversations]
  exact h

section Recording

variable {c : Uuid} {scope : Option OwnerScope} {env : Env} {w : RequestState}

/-- The conversation that an append finds is there. -/
theorem get_open {conversation : Conversation} {w' : RequestState}
    (hrun : ConversationService.get c scope env w = (.ok conversation, w')) :
    Open c scope w.db := by
  unfold ConversationService.get at hrun
  obtain ⟨found, w₁, hselect, hrest⟩ := bind_eq_ok.mp hrun
  obtain ⟨hfound, -⟩ := App.select_eq_ok hselect
  cases found with
  | none => exact nomatch (Prod.mk.inj hrest).1
  | some found =>
    dsimp only at hrest
    split at hrest
    · exact nomatch (Prod.mk.inj hrest).1
    · rename_i hpermitted
      exact ⟨found, hfound.symm, Bool.eq_false_iff.mpr hpermitted⟩

/-- Where `append` returns, the conversation was open to its scope. -/
theorem append_open {role : MessageRole} {content : PyStr} {citations : List Citation}
    {message : ConversationMessage} {w' : RequestState}
    (hrun : ConversationService.append c role content citations scope env w = (.ok message, w')) :
    Open c scope w.db := by
  obtain ⟨conversation, w₁, hget, -⟩ := bind_eq_ok.mp hrun
  exact get_open hget

variable (c scope env) in
/-- A session that is inactive takes no turn. -/
theorem append_of_inactive (h : w.session = .inactive) (role : MessageRole) (content : PyStr)
    (citations : List Citation) :
    ∃ raised w', ConversationService.append c role content citations scope env w =
      (.error raised, w') := by
  have hselect := App.statement_of_inactive false .nothing
    (fun _ _ db => (db.conversations.find? fun conversation => conversation.id = c, db)) env h
  have hget : ConversationService.get c scope env w =
      (.error .sqlalchemy, w.record .nothing .rejected) := bind_of_error hselect
  exact ⟨_, _, bind_of_error hget⟩

end Recording

/-- A session that is not inactive, and meets no more faults. -/
structure Healthy (env : Env) (w : RequestState) : Prop where
  session : w.session ≠ .inactive
  faults : ∀ m, w.issued.length ≤ m → env.faults m = none

/-- Returns in a healthy session, and leaves it healthy. -/
def Thrives {α : Type} (x : App α) : Prop :=
  ∀ env w, Healthy env w → ∃ a w', x env w = (.ok a, w') ∧ Healthy env w'

/-- Two programs that each leave the session alive do so one after the other. -/
theorem Thrives.bind {α β : Type} {x : App α} {f : α → App β} (hx : Thrives x)
    (hf : ∀ a, Thrives (f a)) : Thrives (x >>= f) := by
  intro env w h
  obtain ⟨a, w₁, hfirst, h₁⟩ := hx env w h
  obtain ⟨b, w₂, hrest, h₂⟩ := hf a env w₁ h₁
  exact ⟨b, w₂, (bind_of_ok hfirst).trans hrest, h₂⟩

/-- A program that returns leaves the session alive. -/
theorem thrives_pure {α : Type} (a : α) : Thrives (pure a : App α) := fun _ w h => ⟨a, w, rfl, h⟩

/-- A session is still `Healthy` behind one statement more. -/
theorem Healthy.next {env : Env} {w w' : RequestState} {issue : Issue} (h : Healthy env w)
    (hsession : w'.session ≠ .inactive) (hissued : w'.issued = w.issued ++ [issue]) :
    Healthy env w' where
  session := hsession
  faults m hm := by
    rw [hissued, List.length_append, List.length_singleton] at hm
    exact h.faults m (by omega)

/-- A statement that returns leaves the session alive. -/
theorem statement_thrives {α : Type} (flush : Bool) (reading : Reading)
    (run : Env → Nat → Database → α × Database) : Thrives (App.statement flush reading run) := by
  intro env w h
  exact ⟨_, _, App.statement_of_done flush reading run env h.session
    (h.faults _ (Nat.le_refl _)), h.next nofun rfl⟩

/-- A `commit` that returns leaves the session alive. -/
theorem commit_thrives : Thrives App.commit := by
  intro env w h
  have hfault := h.faults w.issued.length (Nat.le_refl _)
  obtain ⟨hsession, -⟩ | ⟨-, hrun⟩ | ⟨-, fault, hfailed, -⟩ | ⟨-, -, hrun⟩ := App.commit_cases env w
  · exact absurd hsession h.session
  · exact ⟨(), w, hrun, h⟩
  · rw [hfault] at hfailed
    exact nomatch hfailed
  · exact ⟨(), _, hrun, h.next nofun rfl⟩

/-- A healthy session takes a turn of a conversation that is there. -/
theorem append_of_healthy {c : Uuid} {scope : Option OwnerScope} {env : Env} {w : RequestState}
    (h : Healthy env w) (hopen : Open c scope w.db) (role : MessageRole) (content : PyStr)
    (citations : List Citation) :
    ∃ message w', ConversationService.append c role content citations scope env w =
      (.ok message, w') := by
  obtain ⟨conversation, hfound, hpermitted⟩ := hopen
  have hfault := h.faults w.issued.length (Nat.le_refl _)
  have hselect := App.statement_of_done false .nothing
    (fun _ _ db => (db.conversations.find? fun conversation => conversation.id = c, db)) env
    h.session hfault
  have hget : ConversationService.get c scope env w =
      (.ok conversation, { w.record .nothing .done with session := .begun }) := by
    refine (bind_of_ok hselect).trans ?_
    simp only [hfound, hpermitted]
    rfl
  have hnext : Thrives (ConversationService.nextPosition c) := by
    unfold ConversationService.nextPosition App.select
    exact statement_thrives _ _ _
  have hrest : ∀ position, Thrives (do
      let message ← App.insert
        (fun env n => {
          conversationId := c, position, role, content
          tokenEstimate := estimateTokens content
          citations
          createdAt := env.now n })
        (fun message db => { db with messages := db.messages ++ [message] })
      App.commit
      pure message : App ConversationMessage) := fun position =>
    (statement_thrives _ _ _).bind fun _ => commit_thrives.bind fun _ => thrives_pure _
  have hafter : Healthy env { w.record .nothing .done with session := .begun } := h.next nofun rfl
  obtain ⟨message, w', hrun, -⟩ := (hnext.bind hrest) env _ hafter
  exact ⟨message, w', (bind_of_ok hget).trans hrun⟩

/-! ## The request -/

/-- A request that has come to record its answer. -/
structure Answered (c : Uuid) (scope : Option OwnerScope) (env : Env) (w : RequestState) :
    Prop where
  caller : w.caller = .other
  ledger : Ledger env w
  found : Open c scope w.db

section Request

variable {settings : Settings} {word : WordTable} {c : Uuid} {scope : Option OwnerScope}
  {question : Text} {env : Env} {db : Database} {n : Nat} {issue : Issue}

/-- What a request issues on its own behalf is no tool's, and no handoff's. -/
theorem not_own_of_issued {w' : RequestState} (hissue : w'.issued[n]? = some issue)
    (hcaller : issue.caller ≠ .other) : ¬ Own (.start db) w' := by
  rintro ⟨-, more, hissued, hmore⟩
  rw [hissued] at hissue
  exact hcaller (hmore issue (List.mem_of_getElem? hissue))

/-- A request of which a tool or the handoff issued a statement comes to record its answer. -/
theorem respond_reaches
    (hissue : ((getAssistantService settings word).respond question (some c) scope env
      (.start db)).2.issued[n]? = some issue) (hcaller : issue.caller ≠ .other) :
    ∃ routed handoff w, Answered c scope env w ∧
      (getAssistantService settings word).respond question (some c) scope env (.start db) =
        (do
          AssistantService.record (some c) .assistant handoff.reply.val scope routed.citations
          pure (AssistantService.assemble (some c) routed handoff) : App AssistantReply) env w := by
  generalize hrun : (getAssistantService settings word).respond question (some c) scope env
    (.start db) = run at hissue ⊢
  have hquestion := append_growth c .customer question.val [] scope env
    (rfl : Clean (.start db))
  have hown := append_owns c .customer question.val [] scope env (.start db)
  have hkeeps := append_keeps c .customer question.val [] scope env (.start db)
  -- A statement of a tool or the handoff was issued, so every stage before them succeeded
  match happend : ConversationService.append c .customer question.val [] scope env (.start db) with
  | (.error raised, w₁) =>
    have hend : run = (.error raised, w₁) :=
      hrun.symm.trans (bind_of_error (bind_of_error happend))
    rw [happend] at hown
    rw [hend] at hissue
    exact absurd hown (not_own_of_issued hissue hcaller)
  | (.ok message, w₁) =>
    have hrecord : AssistantService.record (some c) .customer question.val scope [] env
        (.start db) = (.ok (), w₁) := bind_of_ok happend
    have hfound := append_open happend
    rw [happend] at hquestion hown hkeeps
    cases hquestion with
    | stored hclean _ _ hconversations _ =>
      have hsilent := silently_footprint.analyze_moves question env w₁ hclean
      have hanalyzed := keeps_footprint.analyze_moves question env w₁
      have howns : Own w₁ (IntentService.analyze question env w₁).2 := complete_owns _ _ env w₁
      match hanalyze : IntentService.analyze question env w₁ with
      | (.error raised, w₂) =>
        have hend : run = (.error raised, w₂) :=
          hrun.symm.trans ((bind_of_ok hrecord).trans (bind_of_error hanalyze))
        rw [hanalyze] at howns
        rw [hend] at hissue
        exact absurd (owns_trans env _ _ _ hown howns) (not_own_of_issued hissue hcaller)
      | (.ok analysis, w₂) =>
        rw [hanalyze] at hsilent hanalyzed howns
        have hall := owns_trans env _ _ _ hown howns
        have hsilent₂ := hsilent.trans
          (silently_footprint.process_moves settings word question analysis env w₂ hsilent.clean)
        have hkeeps₂ := keeps_trans env _ _ _ (keeps_trans env _ _ _ hkeeps hanalyzed)
          (keeps_footprint.process_moves settings word question analysis env w₂)
        match hprocess : (getAssistantService settings word).process question analysis env w₂ with
        | (.error raised, w₃) =>
          have hend : run = (.error raised, w₃) :=
            hrun.symm.trans ((bind_of_ok hrecord).trans
              ((bind_of_ok hanalyze).trans (bind_of_error hprocess)))
          have hlast := process_raisesOwn settings word question analysis env w₂ raised w₃ hprocess
          rw [hend] at hissue
          exact absurd (owns_trans env _ _ _ hall hlast) (not_own_of_issued hissue hcaller)
        | (.ok (routed, handoff), w₃) =>
          rw [hprocess] at hsilent₂ hkeeps₂
          -- The conversation is still there to append to
          have hopen : Open c scope w₃.db := by
            rw [hsilent₂.clean]
            exact hfound.congr (hsilent₂.conversations.trans hconversations)
          exact ⟨routed, handoff, w₃,
            ⟨hkeeps₂.1, hkeeps₂.2 (by decide : Caller.other ≠ .handoff) (ledger_start env db), hopen⟩,
            hrun.symm.trans ((bind_of_ok hrecord).trans
              ((bind_of_ok hanalyze).trans (bind_of_ok hprocess)))⟩

/-- What is recorded last is the request's own. -/
theorem issued_before {role : MessageRole} {content : PyStr} {citations : List Citation}
    {reply : AssistantReply} {w : RequestState} (hother : w.caller = .other)
    (hissue : ((do
      AssistantService.record (some c) role content scope citations
      pure reply : App AssistantReply) env w).2.issued[n]? = some issue)
    (hcaller : issue.caller ≠ .other) : w.issued[n]? = some issue := by
  have hrecord : Moves Owns (do
      AssistantService.record (some c) role content scope citations
      pure reply : App AssistantReply) :=
    .bind owns_trans (.bind owns_trans (append_owns c role content citations scope)
      fun _ => .pure owns_refl _) fun _ => .pure owns_refl _
  obtain ⟨-, more, hissued, hmore⟩ := hrecord env w
  rw [hissued, List.getElem?_append] at hissue
  split at hissue
  · exact hissue
  · exact absurd ((hmore issue (List.mem_of_getElem? hissue)).trans hother) hcaller

end Request

/-- A request in a conversation, over a database. -/
def request (env : Env) (db : Database) (c : Uuid) (scope : Option OwnerScope) (question : Text) :
    Except Raised AssistantReply × RequestState :=
  (getAssistantService env.settings env.text.word).respond question (some c) scope env (.start db)

/-- The reply is returned, and the conversation has grown by the question and the reply. -/
def Kept (c : Uuid) (db : Database) (question : Text)
    (run : Except Raised AssistantReply × RequestState) : Prop :=
  ∃ reply, run.1 = .ok reply ∧
    Grown c db run.2.committed [(.customer, question.val), (.assistant, reply.reply.val)]

/-- Where one statement of a tool or of the handoff fails, and no other statement does, the
    reply is kept exactly when the statement is a tool's query that found no connection,
    and no transaction was open. -/
theorem reply_kept_iff (env : Env) (db : Database) (c : Uuid) (scope : Option OwnerScope)
    (question : Text) (n : Nat) (issue : Issue)
    (hfaults : ∀ m, m ≠ n → env.faults m = none)
    (hissue : (request env db c scope question).2.issued[n]? = some issue)
    (hcaller : issue.caller = .tool ∨ issue.caller = .handoff)
    (hfailed : ∃ fault session flush, issue.outcome = .failed fault session flush) :
    Kept c db question (request env db c scope question) ↔
      issue.caller = .tool ∧ issue.outcome = .failed .connection .idle false := by
  have hother : issue.caller ≠ .other := by
    rintro hother
    rw [hother] at hcaller
    exact absurd hcaller (by decide)
  obtain ⟨routed, handoff, w, ⟨hw, hledger, hfound⟩, hrun⟩ := respond_reaches hissue hother
  have hrun' : request env db c scope question = _ := hrun
  rw [hrun'] at hissue
  have hmem := issued_before hw hissue hother
  cases hpoisons : poisons issue with
  -- The statement left the session inactive, so the reply cannot be appended
  | true =>
    have hinactive : w.session = .inactive :=
      hledger.inactive.mpr ⟨issue, List.mem_of_getElem? hmem, hpoisons⟩
    obtain ⟨raised, w', happend⟩ := append_of_inactive c scope env hinactive .assistant
      handoff.reply.val routed.citations
    have hrecord : AssistantService.record (some c) .assistant handoff.reply.val scope
        routed.citations env w = (.error raised, w') := bind_of_error happend
    constructor
    · rintro ⟨reply, hok, -⟩
      rw [hrun', bind_of_error hrecord] at hok
      exact nomatch hok
    · rintro ⟨-, hend⟩
      simp [poisons, hend] at hpoisons
  -- It failed before the session began, which a tool survives
  | false =>
    have hquery : issue.outcome = .failed .connection .idle false := by
      obtain ⟨fault, session, flush, hend⟩ := hfailed
      simp only [poisons, hend, Bool.not_eq_false', Bool.and_eq_true, decide_eq_true_eq,
        Bool.not_eq_true'] at hpoisons
      rw [hend, hpoisons.1.1, hpoisons.1.2, hpoisons.2]
    have htool : issue.caller = .tool := hcaller.resolve_right fun hhandoff =>
      hledger.queued issue (List.mem_of_getElem? hmem) hhandoff hquery
    have hnumber : n < w.issued.length := (List.getElem?_eq_some_iff.mp hmem).1
    -- No other statement failed, so none has left the session inactive.
    have hactive : w.session ≠ .inactive := by
      intro hinactive
      obtain ⟨other, hlisted, hother⟩ := hledger.inactive.mp hinactive
      obtain ⟨m, hm⟩ := List.getElem?_of_mem hlisted
      have hsame : m = n := by
        by_contra hne
        exact hledger.faulty m other hm hother (hfaults m hne)
      rw [hsame, hmem] at hm
      rw [← Option.some.inj hm, hpoisons] at hother
      exact nomatch hother
    -- So the append succeeds
    have hhealthy : Healthy env w := ⟨hactive, fun m hm => hfaults m (by omega)⟩
    obtain ⟨message, w', happend⟩ := append_of_healthy hhealthy hfound .assistant
      handoff.reply.val routed.citations
    have hrecord : AssistantService.record (some c) .assistant handoff.reply.val scope
        routed.citations env w = (.ok (), w') := bind_of_ok happend
    have hend := hrun'.trans (bind_of_ok hrecord)
    have hreturned : (request env db c scope question).1 =
        .ok (AssistantService.assemble (some c) routed handoff) := by rw [hend]; rfl
    have hgrown := (respond_recordedOnce env.settings env.text.word c scope question env
      (rfl : Clean (.start db))).delivered handoff.reply.val ⟨_, hreturned, rfl⟩
    exact ⟨fun _ => ⟨htool, hquery⟩, fun _ => ⟨_, hreturned, hgrown⟩⟩

/-! ## Two failures -/

/-- An environment in which one statement fails. -/
def failingAt (n : Nat) (fault : Fault) (provider : LLMProvider) (parse : ParamParsers) : Env :=
  { Env.plain provider parse (.default true) with
    faults := fun m => if m = n then some fault else none }

def supportConversation : Uuid := .repeated 0

/-- A database with one conversation, in which nothing has been said. -/
def openDatabase : Database where
  tickets := []
  conversations := [{
    id := supportConversation, customerId := supportConversation, ownerSubject := none
    createdAt := 0 }]
  messages := []
  reviewItems := []
  documents := []
  chunks := []

/-- A model that lists the tickets before it answers. -/
def listingProvider : LLMProvider :=
  { LLMProvider.unavailable with
    intentAnalysis := fun _ _ => .ok {
      intent := .technicalSupport, confidence := .clamp 1, reason := ⟨lit "An error.", by decide⟩ }
    agentDecision := fun prompts _ => .ok (
      if prompts.length = 1 then
        { tool := some (lit "list_tickets"), toolParams := [], finalAnswer := none }
      else
        { tool := none, toolParams := [], finalAnswer := some (lit "Please restart the app.") }) }

/-- Every listing asks for five tickets. -/
def listingParsers : ParamParsers :=
  { ParamParsers.refusing with
    listTickets := fun _ => .ok { status := none, limit := ⟨5, by decide⟩ } }

/-- The tool finds no connection, and the answer is recorded all the same. -/
theorem reply_kept_iff_unconnected :
    Kept supportConversation openDatabase ⟨lit "It crashes.", by decide⟩
      (request (failingAt 4 .connection listingProvider listingParsers) openDatabase
        supportConversation none ⟨lit "It crashes.", by decide⟩) := by
  have hissue : (request (failingAt 4 .connection listingProvider listingParsers) openDatabase
      supportConversation none ⟨lit "It crashes.", by decide⟩).2.issued[4]? = some {
        caller := .tool, reading := .tickets none 5, asked := 2
        outcome := .failed .connection .idle false } := by decide +kernel
  have hkept := reply_kept_iff (failingAt 4 .connection listingProvider listingParsers)
    openDatabase supportConversation none ⟨lit "It crashes.", by decide⟩ 4 _
    (fun m hm => if_neg hm) hissue (.inl rfl) ⟨_, _, _, rfl⟩
  exact hkept.mpr ⟨rfl, rfl⟩

/-- A model that finds no category for the message. -/
def unsureProvider : LLMProvider :=
  { LLMProvider.unavailable with
    intentAnalysis := fun _ _ => .ok {
      intent := .other, confidence := .clamp 1, reason := ⟨lit "Unclear.", by decide⟩ } }

/-- The request could not be queued, every other statement would have gone through, and the
    customer gets no reply. -/
theorem queue_failure_costs_reply :
    (request (failingAt 4 .statement unsureProvider .refusing) openDatabase supportConversation
      none ⟨lit "Hello?", by decide⟩).2.issued[4]? = some {
        caller := .handoff, reading := .nothing, asked := 1
        outcome := .failed .statement .idle true } ∧
    (∀ m, m ≠ 4 → (failingAt 4 .statement unsureProvider .refusing).faults m = none) ∧
    ¬ Kept supportConversation openDatabase ⟨lit "Hello?", by decide⟩
      (request (failingAt 4 .statement unsureProvider .refusing) openDatabase
        supportConversation none ⟨lit "Hello?", by decide⟩) := by
  have hraised : (request (failingAt 4 .statement unsureProvider .refusing) openDatabase
      supportConversation none ⟨lit "Hello?", by decide⟩).1.isOk = false := by decide +kernel
  refine ⟨by decide +kernel, fun m hm => if_neg hm, ?_⟩
  rintro ⟨reply, hok, -⟩
  rw [hok] at hraised
  exact nomatch hraised

end NexaAssist.Spec.SwallowedFailure
