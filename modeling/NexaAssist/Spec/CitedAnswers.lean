import NexaAssist.Routing.IntentHandlers
import NexaAssist.Services.Knowledge
import NexaAssist.Spec.PipelineDichotomy

/-!
# Where the citations of an answer come from

The knowledge base cites the chunks that it found, by the numbers that the model gave. On the
way to the customer citations are kept with the text they came with or dropped, and they are
stored as they are sent.

## Key results

- `citationsOf_cited`: the numbers of a model, whatever they are, become citations
- `chosen_sourced`: only the knowledge base cites, and with the text of the model's answer
- `append_stored`: what a turn is stored with
-/

namespace NexaAssist.Spec.CitedAnswers

open NexaAssist PyJson AssistantService PipelineDichotomy

/-! ## The numbers of sources -/

/-- Some numbers without repetitions, in the order in which `cited` first has them. -/
structure FirstMentions (cited : List Int) (isSource : Int → Prop) (numbers : List Int) : Prop where
  distinct : numbers.Nodup
  mem : ∀ n, n ∈ numbers ↔ n ∈ cited ∧ isSource n
  order : numbers.Pairwise fun a b => cited.idxOf a < cited.idxOf b

/-- A number that `filter` leaves without `n` is not `n`. -/
theorem ne_of_mem_others {n m : Int} {numbers : List Int} (h : m ∈ numbers.filter (· ≠ n)) :
    n ≠ m := by
  have hne : m ≠ n := by simpa using (List.mem_filter.mp h).2
  exact hne.symm

/-- `distinct` gives the first mention of every number. -/
theorem distinct_firstMentions (cited : List Int) :
    FirstMentions cited (fun _ => True) (AnswerService.distinct cited) := by
  induction cited with
  | nil => exact ⟨List.nodup_nil, by simp [AnswerService.distinct], List.Pairwise.nil⟩
  | cons n cited ih =>
    rw [AnswerService.distinct]
    constructor
    · rw [List.nodup_cons]
      exact ⟨by simp, ih.distinct.filter _⟩
    · intro m
      by_cases hm : m = n
      · simp [hm]
      · simp [hm, ih.mem]
    · rw [List.pairwise_cons]
      constructor
      · intro m hm
        rw [List.idxOf_cons_self, List.idxOf_cons_ne _ (ne_of_mem_others hm)]
        exact Nat.succ_pos _
      · refine (ih.order.filter _).imp_of_mem ?_
        intro a b ha hb hlt
        rw [List.idxOf_cons_ne _ (ne_of_mem_others ha), List.idxOf_cons_ne _ (ne_of_mem_others hb)]
        exact Nat.succ_lt_succ hlt

/-- The first mentions that are sources are the first mentions of sources. -/
theorem FirstMentions.filter {cited numbers : List Int} {isSource : Int → Prop}
    [DecidablePred isSource] (h : FirstMentions cited (fun _ => True) numbers) :
    FirstMentions cited isSource (numbers.filter fun n => isSource n) where
  distinct := h.distinct.filter _
  mem n := by simp [h.mem]
  order := h.order.filter _

/-! ## Citations -/

/-- The number of a source, from 1. -/
def IsSource (chunks : List RetrievedChunk) (n : Int) : Prop := 1 ≤ n ∧ n ≤ chunks.length

instance (chunks : List RetrievedChunk) : DecidablePred (IsSource chunks) :=
  fun _ => inferInstanceAs (Decidable (_ ∧ _))

/-- A citation of a chunk. -/
structure Cites (chunk : RetrievedChunk) (citation : Citation) : Prop where
  documentId : citation.documentId = chunk.documentId
  documentTitle : citation.documentTitle = chunk.documentTitle
  ordinal : citation.ordinal = chunk.ordinal
  excerpt : citation.excerpt <+: chunk.content

/-- A citation of the chunk with a number. -/
def CitesNumber (chunks : List RetrievedChunk) (n : Int) (citation : Citation) : Prop :=
  ∃ chunk, chunks[(n - 1).toNat]? = some chunk ∧ Cites chunk citation

/-- Citations of the chunks that a model mentions. -/
def Cited (chunks : List RetrievedChunk) (cited : List Int) (citations : List Citation) : Prop :=
  ∃ numbers, FirstMentions cited (IsSource chunks) numbers ∧
    List.Forall₂ (CitesNumber chunks) numbers citations

/-- `toCitation` cites its chunk. -/
theorem toCitation_cites (chunk : RetrievedChunk) : Cites chunk (AnswerService.toCitation chunk) where
  documentId := rfl
  documentTitle := rfl
  ordinal := rfl
  excerpt := List.take_prefix _ _

/-- A source number has its chunk. -/
theorem getElem?_of_isSource {chunks : List RetrievedChunk} {n : Int} (h : IsSource chunks n) :
    ∃ chunk, chunks[(n - 1).toNat]? = some chunk := by
  obtain ⟨hpos, hle⟩ := h
  have hlt : (n - 1).toNat < chunks.length := by omega
  exact ⟨_, List.getElem?_eq_getElem hlt⟩

/-- `citationsOf` cites the chunks as `Cited` says, whatever numbers the model gives. -/
theorem citationsOf_cited (chunks : List RetrievedChunk) (cited : List Int) :
    Cited chunks cited (AnswerService.citationsOf chunks cited) := by
  refine ⟨_, (distinct_firstMentions cited).filter, ?_⟩
  unfold AnswerService.citationsOf
  induction AnswerService.distinct cited with
  | nil => exact List.Forall₂.nil
  | cons n numbers ih =>
    rw [List.filterMap_cons]
    by_cases hn : IsSource chunks n
    · obtain ⟨chunk, hchunk⟩ := getElem?_of_isSource hn
      rw [List.filter_cons_of_pos (by simpa using hn), if_pos (show 1 ≤ n ∧ n ≤ chunks.length from hn),
        hchunk, Option.map_some]
      exact .cons ⟨chunk, hchunk, toCitation_cites chunk⟩ ih
    · rw [List.filter_cons_of_neg (by simpa using hn),
        if_neg (show ¬(1 ≤ n ∧ n ≤ chunks.length) from hn)]
      exact ih

/-- There are citations just if some number is that of a source. -/
theorem Cited.eq_nil_iff {chunks : List RetrievedChunk} {cited : List Int}
    {citations : List Citation} (h : Cited chunks cited citations) :
    citations = [] ↔ ∀ n ∈ cited, ¬IsSource chunks n := by
  obtain ⟨numbers, hmentions, hcites⟩ := h
  have hnil : citations = [] ↔ numbers = [] := by
    rw [← List.length_eq_zero_iff, ← List.length_eq_zero_iff, hcites.length_eq]
  rw [hnil, List.eq_nil_iff_forall_not_mem]
  constructor
  · intro hno n hcited hsource
    exact hno n ((hmentions.mem n).mpr ⟨hcited, hsource⟩)
  · intro hno n hn
    obtain ⟨hcited, hsource⟩ := (hmentions.mem n).mp hn
    exact hno n hcited hsource

/-! ## Answers from the knowledge base -/

/-- What the model is asked about some chunks. -/
def sourcesPrompt (question : PyStr) (chunks : List RetrievedChunk) : LLMPrompt where
  system := GROUNDED_ANSWER_SYSTEM_PROMPT
  user := AnswerService.renderQuestion question chunks

/-- What `answer` is given: the chunks that are found, and, if there are any, what the model
    says to them. -/
structure Given (question : PyStr) (topK : Nat) (env : Env) (w : RequestState)
    (chunks : List RetrievedChunk) (model : GroundedModelAnswer) : Prop where
  given : ∃ w₁, DocumentService.search question topK env w = (.ok chunks, w₁) ∧
    (chunks ≠ [] →
      env.provider.groundedModelAnswer w₁.prompts (sourcesPrompt question chunks) = .ok model)

/-- `answer` gives the model's answer with the citations of the chunks, where chunks were found. -/
theorem answer_of_given {question : PyStr} {topK : Nat} {env : Env} {w : RequestState}
    {chunks : List RetrievedChunk} {model : GroundedModelAnswer}
    (h : Given question topK env w chunks model) (hne : chunks ≠ []) :
    ∃ w', AnswerService.answer question topK env w = (.ok {
      answered := model.answered
      answer := model.answer
      citations := AnswerService.citationsOf chunks model.citedSources }, w') := by
  obtain ⟨w₁, hsearch, hmodel⟩ := h.given
  have hcomplete : App.complete LLMProvider.groundedModelAnswer (sourcesPrompt question chunks)
      env w₁ = (.ok model, w₁.sendPrompt (sourcesPrompt question chunks)) := by
    rw [App.complete, hmodel hne]
  obtain ⟨chunk, chunks, rfl⟩ := List.exists_cons_of_ne_nil hne
  refine ⟨w₁.sendPrompt (sourcesPrompt question (chunk :: chunks)), ?_⟩
  unfold AnswerService.answer
  rw [Effect.bind_of_ok hsearch]
  exact Effect.bind_of_ok hcomplete

/-- `answer` declines where `search` finds no chunk. -/
theorem answer_of_no_chunks {question : PyStr} {topK : Nat} {env : Env} {w w₁ : RequestState}
    (hsearch : DocumentService.search question topK env w = (.ok [], w₁)) :
    AnswerService.answer question topK env w = (.ok {
      answered := false, answer := AnswerService.NO_SOURCES_ANSWER, citations := [] }, w₁) := by
  unfold AnswerService.answer
  rw [Effect.bind_of_ok hsearch]
  rfl

/-- `answer` gives citations as `Cited` says, whatever was found and whatever the model says. -/
theorem answer_cited {question : PyStr} {topK : Nat} {env : Env} {w : RequestState}
    {chunks : List RetrievedChunk} {model : GroundedModelAnswer}
    (h : Given question topK env w chunks model) :
    ∃ answer w', AnswerService.answer question topK env w = (.ok answer, w') ∧
      answer.answered = (!chunks.isEmpty && model.answered) ∧
      (chunks ≠ [] → answer.answer = model.answer) ∧
      Cited chunks model.citedSources answer.citations := by
  cases chunks with
  | nil =>
    obtain ⟨w₁, hsearch, -⟩ := h.given
    refine ⟨_, w₁, answer_of_no_chunks hsearch, rfl, fun hne => absurd rfl hne, [], ?_, .nil⟩
    refine ⟨List.nodup_nil, fun n => ⟨nofun, ?_⟩, List.Pairwise.nil⟩
    rintro ⟨-, hpos, hle⟩
    rw [List.length_nil] at hle
    omega
  | cons chunk chunks =>
    obtain ⟨w', hrun⟩ := answer_of_given h (List.cons_ne_nil _ _)
    exact ⟨_, w', hrun, rfl, fun _ => rfl, citationsOf_cited _ _⟩

/-- An answer that returns was given chunks, and what the model says to them. -/
theorem given_of_answer {question : PyStr} {topK : Nat} {env : Env} {w w' : RequestState}
    {answer : GroundedAnswer}
    (h : AnswerService.answer question topK env w = (.ok answer, w')) :
    (∃ w₁, DocumentService.search question topK env w = (.ok [], w₁)) ∨
      ∃ chunks model, chunks ≠ [] ∧ Given question topK env w chunks model := by
  unfold AnswerService.answer at h
  obtain ⟨chunks, w₁, hsearch, h⟩ := Effect.bind_eq_ok.mp h
  cases chunks with
  | nil => exact .inl ⟨w₁, hsearch⟩
  | cons chunk chunks =>
    obtain ⟨model, w₂, hcomplete, -⟩ := Effect.bind_eq_ok.mp h
    refine .inr ⟨chunk :: chunks, model, List.cons_ne_nil _ _, ⟨w₁, hsearch, fun _ => ?_⟩⟩
    unfold App.complete at hcomplete
    split at hcomplete
    · rename_i answer hanswer
      exact hanswer.trans (congrArg Except.ok (Except.ok.inj (Prod.mk.inj hcomplete).1))
    · exact nomatch (Prod.mk.inj hcomplete).1

/-! ## Handlers -/

/-- A text with citations, as the model gave them for what it was given. -/
structure Sourced (question : PyStr) (topK : Nat) (env : Env) (w : RequestState) (text : PyStr)
    (citations : List Citation) : Prop where
  sourced : ∃ chunks model, Given question topK env w chunks model ∧
    Cited chunks model.citedSources citations ∧ text = model.answer.val

/-- A response of the knowledge base that has citations is `Sourced`. -/
theorem knowledgeBase_sourced {topK : Nat} {request : HandlerRequest} {env : Env}
    {w w' : RequestState} {response : HandlerResponse}
    (h : KnowledgeBaseHandler.handle topK request env w = (.ok response, w'))
    (hcites : response.citations ≠ []) :
    Sourced request.message.val topK env w response.reply.val response.citations := by
  obtain ⟨answer, w₁, hanswer, hresponse⟩ := Effect.bind_eq_ok.mp h
  obtain rfl := Except.ok.inj (Prod.mk.inj hresponse).1
  obtain ⟨w₂, hsearch⟩ | ⟨chunks, model, hne, hgiven⟩ := given_of_answer hanswer
  · rw [answer_of_no_chunks hsearch] at hanswer
    obtain rfl := Except.ok.inj (Prod.mk.inj hanswer).1
    exact absurd rfl hcites
  · obtain ⟨w₂, hrun⟩ := answer_of_given hgiven hne
    rw [hrun] at hanswer
    obtain rfl := Except.ok.inj (Prod.mk.inj hanswer).1
    exact ⟨chunks, model, hgiven, citationsOf_cited chunks model.citedSources, rfl⟩

/-- `AgentHandler.handle` cites nothing. -/
theorem agent_citations {agent : AgentLoop} {request : HandlerRequest} {env : Env}
    {w w' : RequestState} {response : HandlerResponse}
    (h : AgentHandler.handle agent request env w = (.ok response, w')) :
    response.citations = [] := by
  obtain ⟨outcome, w₁, -, hresponse⟩ := Effect.bind_eq_ok.mp h
  obtain rfl := Except.ok.inj (Prod.mk.inj hresponse).1
  rfl

/-- `fallbackHandler.handle` cites nothing. -/
theorem fallback_citations {request : HandlerRequest} {env : Env} {w w' : RequestState}
    {response : HandlerResponse} (h : fallbackHandler.handle request env w = (.ok response, w')) :
    response.citations = [] := by
  obtain rfl := Except.ok.inj (Prod.mk.inj h).1
  rfl

/-- A response is the documentation's own or the other handler's. -/
theorem documentedFirst_cases {documented otherwise : IntentHandler} {request : HandlerRequest}
    {env : Env} {w w' : RequestState} {response : HandlerResponse}
    (h : (documentedFirstHandler documented otherwise).handle request env w = (.ok response, w')) :
    (response.handled = true ∧ documented.handle request env w = (.ok response, w')) ∨
      ∃ refused w₁, documented.handle request env w = (.ok refused, w₁) ∧
        refused.handled = false ∧ otherwise.handle request env w₁ = (.ok response, w') := by
  obtain ⟨first, w₁, hfirst, h⟩ := Effect.bind_eq_ok.mp h
  cases hhandled : first.handled with
  | true =>
    simp only [hhandled, if_true] at h
    obtain ⟨hresponse, rfl⟩ := Prod.mk.inj h
    obtain rfl := Except.ok.inj hresponse
    exact .inl ⟨hhandled, hfirst⟩
  | false =>
    simp only [hhandled, Bool.false_eq_true, if_false] at h
    exact .inr ⟨first, w₁, hfirst, hhandled, h⟩

section Wiring

variable {topK : Nat} {agent : AgentLoop} {word : WordTable} {minConfidence : Rat}
  {message : Text} {analysis : IntentAnalysis} {env : Env} {w w' : RequestState}

/-- The citations of the handler that was chosen are `Sourced`. -/
theorem chosen_sourced {response : HandlerResponse}
    (h : ((buildRouter (KnowledgeBaseHandler.handle topK) (AgentHandler.handle agent) word
      minConfidence).chosen analysis).handle { message, analysis } env w = (.ok response, w'))
    (hcites : response.citations ≠ []) :
    Sourced message.val topK env w response.reply.val response.citations := by
  unfold IntentRouter.chosen at h
  split at h
  · exact absurd (fallback_citations h) hcites
  · cases hintent : analysis.intent with
    | productQuestion =>
      rw [hintent] at h
      exact knowledgeBase_sourced h hcites
    | account =>
      rw [hintent] at h
      exact knowledgeBase_sourced h hcites
    | billing =>
      rw [hintent] at h
      obtain ⟨-, hdocumented⟩ | ⟨_, _, -, -, hagent⟩ := documentedFirst_cases h
      · exact knowledgeBase_sourced hdocumented hcites
      · exact absurd (agent_citations hagent) hcites
    | technicalSupport =>
      rw [hintent] at h
      exact absurd (agent_citations h) hcites
    | complaint =>
      rw [hintent] at h
      exact absurd (agent_citations h) hcites
    | other =>
      rw [hintent] at h
      exact absurd (fallback_citations h) hcites

/-- What the pipeline sends with citations is what the handler said. -/
theorem process_sourced {routed : RoutedReply} {handoff : HandoffResult}
    (hrun : (ofHandlers (KnowledgeBaseHandler.handle topK) (AgentHandler.handle agent) word
      minConfidence).process message analysis env w = (.ok (routed, handoff), w'))
    (hcites : routed.citations ≠ []) :
    Sourced message.val topK env w handoff.reply.val routed.citations := by
  have hparts := hrun
  unfold AssistantService.process IntentRouter.route at hparts
  obtain ⟨_, _, hroute, -⟩ := Effect.bind_eq_ok.mp hparts
  obtain ⟨response, w₁, hhandle, -⟩ := Effect.bind_eq_ok.mp hroute
  -- The policy leaves the reply of the handler alone, or puts the review sentence in its place
  cases hpolicy : reviewed word (contextOf message analysis response) with
  | true =>
    obtain ⟨sent, _, hprocess, hreviewed⟩ :=
      process_of_reviewed (KnowledgeBaseHandler.handle topK) (AgentHandler.handle agent)
        minConfidence hhandle hpolicy
    obtain ⟨-, -, -, hcitations⟩ := finish_of_reviewed (KnowledgeBaseHandler.handle topK)
      (AgentHandler.handle agent) word minConfidence hpolicy
    rw [hprocess] at hrun
    obtain ⟨rfl, rfl⟩ := Prod.mk.inj (Except.ok.inj (Prod.mk.inj hrun).1)
    -- The handler's text was the sentence already, or the citations would be gone.
    have hsame : response.reply = REVIEW_REPLY := by
      by_contra hother
      exact hcites ((hreviewed none).citations hother)
    have hkept := hcitations
    rw [hsame] at hkept
    simp only [ne_eq, not_true_eq_false, decide_false, Bool.false_eq_true, if_false] at hkept
    have hreply : sent.reply = response.reply := (hreviewed none).reply.trans hsame.symm
    have hnonempty : response.citations ≠ [] := fun hnil => hcites (hkept.trans hnil)
    have hsourced := chosen_sourced hhandle hnonempty
    rw [← hkept, ← hreply] at hsourced
    exact hsourced
  | false =>
    obtain ⟨sent, _, hprocess, hanswered⟩ :=
      process_of_not_reviewed (KnowledgeBaseHandler.handle topK) (AgentHandler.handle agent)
        minConfidence hhandle hpolicy
    rw [hprocess] at hrun
    obtain ⟨rfl, rfl⟩ := Prod.mk.inj (Except.ok.inj (Prod.mk.inj hrun).1)
    have hkept := (hanswered none).citations
    have hreply := (hanswered none).reply
    have hnonempty : response.citations ≠ [] := fun hnil => hcites (hkept.trans hnil)
    have hsourced := chosen_sourced hhandle hnonempty
    rw [← hkept, ← hreply] at hsourced
    exact hsourced

end Wiring

/-! ## Stored turns -/

/-- The last turn that is stored is this one, with these citations. -/
structure StoredLast (db : Database) (conversationId : Uuid) (role : MessageRole)
    (content : PyStr) (citations : List Citation) : Prop where
  stored : ∃ before turn, db.messages = before ++ [turn] ∧
    turn.conversationId = conversationId ∧ turn.role = role ∧ turn.content = content ∧
    turn.citationsColumn = .list (citations.map Citation.modelDump)

/-- An insert that returns has begun a transaction with the row in it. -/
theorem insert_eq_ok {α : Type} {row : Env → Nat → α} {store : α → Database → Database}
    {env : Env} {w w' : RequestState} {a : α} (h : App.insert row store env w = (.ok a, w')) :
    (∃ n before, w'.db = store (row env n) before) ∧ w'.session = .begun := by
  unfold App.insert at h
  obtain ⟨-, hrun⟩ | ⟨-, _, -, hrun⟩ | ⟨-, -, hrun⟩ := App.statement_cases true .nothing
    (fun env n db => (row env n, store (row env n) db)) env w
  · rw [hrun] at h
    exact nomatch (Prod.mk.inj h).1
  · rw [hrun] at h
    exact nomatch (Prod.mk.inj h).1
  · rw [hrun] at h
    obtain ⟨-, rfl⟩ := Prod.mk.inj h
    exact ⟨⟨w.issued.length, w.db, rfl⟩, rfl⟩

/-- `append` stores a turn last, with the citations it is given. -/
theorem append_stored {conversationId : Uuid} {role : MessageRole} {content : PyStr}
    {citations : List Citation} {scope : Option OwnerScope} {env : Env} {w w' : RequestState}
    {turn : ConversationMessage}
    (h : ConversationService.append conversationId role content citations scope env w =
      (.ok turn, w')) : StoredLast w'.committed conversationId role content citations := by
  unfold ConversationService.append at h
  obtain ⟨_, _, -, h⟩ := Effect.bind_eq_ok.mp h
  obtain ⟨position, _, -, h⟩ := Effect.bind_eq_ok.mp h
  obtain ⟨inserted, w₃, hinsert, h⟩ := Effect.bind_eq_ok.mp h
  obtain ⟨_, w₄, hcommit, h⟩ := Effect.bind_eq_ok.mp h
  obtain ⟨-, rfl⟩ := Prod.mk.inj h
  have hbegun := insert_eq_ok hinsert
  obtain ⟨hsession, -⟩ | ⟨hsession, -⟩ | ⟨-, _, -, hfail⟩ | ⟨-, -, hdone⟩ :=
    App.commit_cases env w₃
  · rw [hbegun.2] at hsession
    exact nomatch hsession
  · rw [hbegun.2] at hsession
    exact nomatch hsession
  · rw [hfail] at hcommit
    exact nomatch (Prod.mk.inj hcommit).1
  · rw [hdone] at hcommit
    obtain ⟨-, rfl⟩ := Prod.mk.inj hcommit
    obtain ⟨n, before, hdb⟩ := hbegun.1
    exact ⟨before.messages, _, congrArg Database.messages hdb, rfl, rfl, rfl, rfl⟩

/-! ## The pipeline -/

/-- What `respond` does before it routes: the question is recorded and classified. -/
def classified (message : Text) (conversationId : Option Uuid) (scope : Option OwnerScope) :
    App IntentAnalysis := do
  record conversationId .customer message.val scope []
  IntentService.analyze message

/-- The citations of a reply: they are those of the model's answer, which the reply is, and
    they are stored with it. -/
structure Provenance (topK : Nat) (message : Text) (conversationId : Option Uuid)
    (scope : Option OwnerScope) (env : Env) (w : RequestState) (reply : AssistantReply)
    (w' : RequestState) : Prop where
  sourced : reply.citations ≠ [] → ∃ analysis w₁,
    classified message conversationId scope env w = (.ok analysis, w₁) ∧
      Sourced message.val topK env w₁ reply.reply.val reply.citations
  stored : ∀ c, conversationId = some c →
    StoredLast w'.committed c .assistant reply.reply.val reply.citations

/-- The citations of a reply of `respond` are `Sourced` and stored with it. -/
theorem respond_provenance {topK : Nat} {agent : AgentLoop} {word : WordTable}
    {minConfidence : Rat} {message : Text} {conversationId : Option Uuid}
    {scope : Option OwnerScope} {env : Env} {w w' : RequestState} {reply : AssistantReply}
    (h : (ofHandlers (KnowledgeBaseHandler.handle topK) (AgentHandler.handle agent) word
      minConfidence).respond message conversationId scope env w = (.ok reply, w')) :
    Provenance topK message conversationId scope env w reply w' := by
  unfold AssistantService.respond at h
  obtain ⟨_, _, hrecord, h⟩ := Effect.bind_eq_ok.mp h
  obtain ⟨analysis, w₁, hanalyze, h⟩ := Effect.bind_eq_ok.mp h
  obtain ⟨⟨routed, handoff⟩, w₂, hprocess, h⟩ := Effect.bind_eq_ok.mp h
  obtain ⟨_, w₃, hstore, h⟩ := Effect.bind_eq_ok.mp h
  obtain ⟨hreply, rfl⟩ := Prod.mk.inj h
  obtain rfl := Except.ok.inj hreply
  constructor
  · intro hcites
    refine ⟨analysis, w₁, ?_, process_sourced hprocess hcites⟩
    exact (Effect.bind_of_ok hrecord).trans hanalyze
  · rintro c rfl
    obtain ⟨turn, _, hturn, hdone⟩ := Effect.bind_eq_ok.mp hstore
    obtain ⟨-, rfl⟩ := Prod.mk.inj hdone
    exact append_stored hturn

/-- The citations of an answer are the chunks that the model mentions, each once and in the
    order it first mentions them, whatever was retrieved and whatever the model says; and a
    reply of the pipeline that has citations is the model's answer they came with, and they are
    stored with it. -/
theorem citations_provenance (question : PyStr) (topK : Nat) (agent : AgentLoop)
    (word : WordTable) (minConfidence : Rat) (message : Text) (conversationId : Option Uuid)
    (scope : Option OwnerScope) (env : Env) (w : RequestState) :
    (∀ chunks model, Given question topK env w chunks model →
      ∃ answer w', AnswerService.answer question topK env w = (.ok answer, w') ∧
        (chunks ≠ [] → answer.answer = model.answer) ∧
        Cited chunks model.citedSources answer.citations) ∧
    ∀ reply w', (ofHandlers (KnowledgeBaseHandler.handle topK) (AgentHandler.handle agent) word
        minConfidence).respond message conversationId scope env w = (.ok reply, w') →
      Provenance topK message conversationId scope env w reply w' := by
  constructor
  · intro chunks model hgiven
    obtain ⟨answer, w', hanswer, -, htext, hcited⟩ := answer_cited hgiven
    exact ⟨answer, w', hanswer, htext, hcited⟩
  · intro reply w' hrespond
    exact respond_provenance hrespond

/-! ## Handled without a source -/

/-- What the knowledge base reports as handled has a source, and what has none goes on: to the
    other handler where there is one, or else to a person. -/
structure SourcedOrPassedOn (topK : Nat) (request : HandlerRequest) (env : Env)
    (w : RequestState) (response : HandlerResponse) (w' : RequestState) : Prop where
  cited : response.handled = true → response.citations ≠ []
  passed : response.citations = [] → ∀ otherwise,
    (documentedFirstHandler (knowledgeBaseHandler (KnowledgeBaseHandler.handle topK))
      otherwise).handle request env w = otherwise.handle request env w'
  person : response.citations = [] → ∀ agent word minConfidence,
    (buildRouter (KnowledgeBaseHandler.handle topK) agent word minConfidence).chosen
        request.analysis = knowledgeBaseHandler (KnowledgeBaseHandler.handle topK) →
      ∃ routed handoff w₂, (ofHandlers (KnowledgeBaseHandler.handle topK) agent word
          minConfidence).process request.message request.analysis env w =
          (.ok (routed, handoff), w₂) ∧
        handoff.escalated = true ∧ handoff.reply = REVIEW_REPLY

/-- A response of the knowledge base that is handled only with citations is sourced or passed on. -/
theorem sourcedOrPassedOn_of_cited {topK : Nat} {request : HandlerRequest} {env : Env}
    {w w' : RequestState} {response : HandlerResponse}
    (hrun : KnowledgeBaseHandler.handle topK request env w = (.ok response, w'))
    (hcited : response.handled = true → response.citations ≠ []) :
    SourcedOrPassedOn topK request env w response w' := by
  have hunhandled : response.citations = [] → response.handled = false := by
    intro hnil
    exact Bool.eq_false_iff.mpr fun hhandled => hcited hhandled hnil
  refine ⟨hcited, ?_, ?_⟩
  · intro hnil otherwise
    refine (Effect.bind_of_ok hrun).trans ?_
    rw [hunhandled hnil]
    rfl
  · intro hnil agent word minConfidence hchosen
    have hreviewed : reviewed word (contextOf request.message request.analysis response) = true := by
      simp [reviewed, contextOf, hunhandled hnil]
    have hhandle : ((buildRouter (KnowledgeBaseHandler.handle topK) agent word
        minConfidence).chosen request.analysis).handle
        { message := request.message, analysis := request.analysis } env w =
          (.ok response, w') := by
      rw [hchosen]
      exact hrun
    obtain ⟨handoff, w₂, hprocess, hsent⟩ :=
      process_of_reviewed (KnowledgeBaseHandler.handle topK) agent minConfidence hhandle hreviewed
    exact ⟨_, handoff, w₂, hprocess, (hsent none).escalated, (hsent none).reply⟩

/-- A response of the knowledge base has a source if it is handled, and otherwise goes on, just
    if nothing was retrieved, or the model says that it did not answer, or it mentions a source
    that there is. -/
theorem handled_sourced_iff {topK : Nat} {request : HandlerRequest} {env : Env}
    {w : RequestState} {chunks : List RetrievedChunk} {model : GroundedModelAnswer}
    (h : Given request.message.val topK env w chunks model) :
    (∃ response w', KnowledgeBaseHandler.handle topK request env w = (.ok response, w') ∧
      SourcedOrPassedOn topK request env w response w') ↔
    chunks = [] ∨ model.answered = false ∨
      ∃ n ∈ model.citedSources, 1 ≤ n ∧ n ≤ chunks.length := by
  obtain ⟨answer, w', hanswer, hanswered, -, hcited⟩ := answer_cited h
  have hrun := Effect.bind_of_ok (f := fun answer : GroundedAnswer => (pure {
    handler := lit "knowledge_base"
    reply := ⟨answer.answer.val, answer.answer.property.1⟩
    handled := answer.answered
    citations := answer.citations } : App HandlerResponse)) hanswer
  -- The handler counts as answered when the model says so and there is a chunk
  have hcondition : (answer.answered = true → answer.citations ≠ []) ↔
      chunks = [] ∨ model.answered = false ∨ ∃ n ∈ model.citedSources, IsSource chunks n := by
    rw [hanswered, ne_eq, hcited.eq_nil_iff, Bool.and_eq_true, Bool.not_eq_true',
      List.isEmpty_eq_false_iff]
    push Not
    constructor
    · intro himp
      by_cases hchunks : chunks = []
      · exact .inl hchunks
      · cases hmodel : model.answered with
        | false => exact .inr (.inl rfl)
        | true => exact .inr (.inr (himp ⟨hchunks, hmodel⟩))
    · rintro (hchunks | hmodel | hsource) ⟨hne, htrue⟩
      · exact absurd hchunks hne
      · rw [hmodel] at htrue
        exact nomatch htrue
      · exact hsource
  refine Iff.trans ?_ hcondition
  constructor
  · rintro ⟨response, w₂, hhandle, hsourced⟩
    obtain ⟨hresponse, -⟩ := Prod.mk.inj (hhandle.symm.trans hrun)
    obtain rfl := Except.ok.inj hresponse
    exact hsourced.cited
  -- With a citation in place the handler's reply is sourced
  · intro hcites
    exact ⟨_, w', hrun, sourcedOrPassedOn_of_cited hrun hcites⟩

/-! ## An answer without a source -/

def refundDocument : Uuid := .repeated 1

/-- A database with one document. -/
def documentedDatabase : Database where
  tickets := []
  conversations := []
  messages := []
  reviewItems := []
  documents := [{ id := refundDocument, title := lit "Refunds" }]
  chunks := [{
    id := refundDocument, documentId := refundDocument, ordinal := 0
    content := lit "Refunds take 14 days.", embedding := [] }]

/-- A model that answers, and mentions these sources. -/
def citingProvider (cited : List Int) : LLMProvider :=
  { LLMProvider.unavailable with
    groundedModelAnswer := fun _ _ => .ok {
      answered := true, answer := ⟨lit "Within a month.", by decide⟩, citedSources := cited } }

def refundRequest : HandlerRequest where
  message := ⟨lit "When do I get my refund?", by decide⟩
  analysis := {
    intent := .productQuestion, confidence := .clamp 1, reason := ⟨lit "Refunds.", by decide⟩ }

/-- A provider cites a source and a number that is none, over one document. -/
theorem handled_sourced_iff_mentioned :
    ∃ response w', KnowledgeBaseHandler.handle 4 refundRequest
        (.plain (citingProvider [7, 1]) .refusing (.default true)) (.start documentedDatabase) =
        (.ok response, w') ∧
      SourcedOrPassedOn 4 refundRequest
        (.plain (citingProvider [7, 1]) .refusing (.default true)) (.start documentedDatabase)
        response w' := by
  have hgiven : Given refundRequest.message.val 4
      (.plain (citingProvider [7, 1]) .refusing (.default true)) (.start documentedDatabase) _
      ⟨true, ⟨lit "Within a month.", by decide⟩, [7, 1]⟩ := ⟨_, rfl, fun _ => rfl⟩
  exact (handled_sourced_iff hgiven).mpr (.inr (.inr ⟨1, by decide, by decide, by decide⟩))

/-- The model answers and mentions no source, and the message is handled. -/
theorem unsourced_answer_handled :
    ¬∀ topK request env w response w',
      KnowledgeBaseHandler.handle topK request env w = (.ok response, w') →
        SourcedOrPassedOn topK request env w response w' := by
  intro hall
  have hcited := (hall 4 refundRequest
    (.plain (citingProvider []) .refusing (.default true)) (.start documentedDatabase) _ _ rfl).cited
  exact hcited rfl rfl

end NexaAssist.Spec.CitedAnswers
