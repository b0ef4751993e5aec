import NexaAssist.ForStd.List
import NexaAssist.Spec.CommittedMoney
import NexaAssist.Spec.PipelineFootprint

/-!
# Each exchange is recorded once

However a question in a conversation is asked, over HTTP or on a socket with or without
the pipeline, and wherever it fails: the conversation grows by nothing, by the question,
or by the question and then one answer, and by both where the answer was delivered
without an error. The model is asked nothing before the question is stored.

## Key results

- `append_growth`: what one append can do
- `pipeline_silent`: the pipeline says nothing in any conversation
- `exchange_recorded_once`: every transport, every failure
-/

namespace NexaAssist.Spec.ExchangeRecorded

open NexaAssist PyJson Effect AnswerStreamer ConversationService PipelineFootprint FrameProtocol
  CommittedMoney

/-! ## Growth -/

/-- A turn: who speaks, and what is said. -/
abbrev Turn := MessageRole × PyStr

/-- What a conversation reads like, from its first turn to its last. -/
def turns (c : Uuid) (db : Database) : List Turn :=
  (recent none (turnsOf c db)).map fun message => (message.role, message.content)

/-- A conversation grew by some turns: they are read after those that were there, and are
    all that was stored. -/
structure Grown (c : Uuid) (before after : Database) (more : List Turn) : Prop where
  read : turns c after = turns c before ++ more
  stored : ∃ rows, after.messages = before.messages ++ rows ∧ rows.length = more.length ∧
    ∀ row ∈ rows, row.conversationId = c

section Growth

variable {c : Uuid} {a b d : Database} {more rest : List Turn}

/-- `Grown` depends on the messages alone. -/
theorem Grown.congr (h : Grown c a b more) (hmessages : d.messages = b.messages) :
    Grown c a d more where
  read := by
    rw [← h.read]
    simp only [turns, turnsOf, hmessages]
  stored := by
    rw [hmessages]
    exact h.stored

/-- Where the messages are the same, `Grown` has none that are new. -/
theorem Grown.none (h : b.messages = a.messages) : Grown c a b [] := by
  have hself : Grown c a a [] := {
    read := (List.append_nil _).symm
    stored := ⟨[], (List.append_nil _).symm, rfl, by simp⟩ }
  exact hself.congr h

/-- What has grown twice has grown by both. -/
theorem Grown.trans (hab : Grown c a b more) (hbd : Grown c b d rest) :
    Grown c a d (more ++ rest) where
  read := by rw [hbd.read, hab.read, List.append_assoc]
  stored := by
    obtain ⟨rows, hb, hlength, hrows⟩ := hab.stored
    obtain ⟨rows', hd, hlength', hrows'⟩ := hbd.stored
    refine ⟨rows ++ rows', by rw [hd, hb, List.append_assoc], by simp [hlength, hlength'], ?_⟩
    intro row hrow
    exact (List.mem_append.mp hrow).elim (hrows row) (hrows' row)

end Growth

/-- A message at the highest position is the one turn by which its conversation has `Grown`. -/
theorem grown_of_insert {c : Uuid} {db : Database} {message : ConversationMessage}
    (hc : message.conversationId = c)
    (hlast : ∀ turn ∈ turnsOf c db, turn.position ≤ message.position) :
    Grown c db { db with messages := db.messages ++ [message] }
      [(message.role, message.content)] where
  read := by
    have hturns : turnsOf c { db with messages := db.messages ++ [message] } =
        turnsOf c db ++ [message] := by
      simp [turnsOf, List.filter_append, hc]
    simp only [turns, recent, hturns]
    rw [List.insertionSort_append_of_le hlast, List.map_append, List.map_singleton]
  stored := ⟨[message], rfl, rfl, by simp [hc]⟩

/-- Nothing is stored at the next position or past it. -/
theorem position_le_next {c : Uuid} {db : Database} {turn : ConversationMessage}
    (hturn : turn ∈ turnsOf c db) :
    turn.position ≤ (match ((turnsOf c db).map (·.position)).max? with
      | none => 0
      | some highest => highest + 1) := by
  cases hmax : ((turnsOf c db).map (·.position)).max? with
  | none =>
    rw [List.max?_eq_none_iff, List.map_eq_nil_iff] at hmax
    rw [hmax] at hturn
    exact nomatch hturn
  | some highest =>
    have hle := (List.max?_eq_some_iff.mp hmax).2 _ (List.mem_map_of_mem hturn)
    show turn.position ≤ highest + 1
    omega

/-! ## One append -/

/-- What is open is what is committed. -/
def Clean (w : RequestState) : Prop := w.db = w.committed

/-- Nothing was committed, and the model was not asked. -/
structure Unmoved (w w' : RequestState) : Prop where
  clean : Clean w'
  committed : w'.committed = w.committed
  prompts : w'.prompts = w.prompts
  stored : w'.stored = w.stored

/-- Does nothing but look. -/
def Looks (_ : Env) (w w' : RequestState) : Prop := Clean w → Unmoved w w'

/-- A step that does nothing only looks. -/
theorem looks_refl (env : Env) (w : RequestState) : Looks env w w := fun h => ⟨h, rfl, rfl, rfl⟩

/-- What moves nothing twice moves nothing. -/
theorem Unmoved.trans {w₁ w₂ w₃ : RequestState} (h : Unmoved w₁ w₂) (h' : Unmoved w₂ w₃) :
    Unmoved w₁ w₃ where
  clean := h'.clean
  committed := h'.committed.trans h.committed
  prompts := h'.prompts.trans h.prompts
  stored := h'.stored.trans h.stored

/-- What only looks twice only looks. -/
theorem looks_trans (env : Env) (w₁ w₂ w₃ : RequestState) (h : Looks env w₁ w₂)
    (h' : Looks env w₂ w₃) : Looks env w₁ w₃ :=
  fun hclean => (h hclean).trans (h' (h hclean).clean)

/-- `App.select` does nothing but look. -/
theorem select_looks {α : Type} (reading : Reading) (query : Env → Database → α) :
    Moves Looks (App.select reading query) := by
  intro env w hclean
  unfold App.select
  obtain ⟨-, hrun⟩ | ⟨-, fault, -, hrun⟩ | ⟨-, -, hrun⟩ :=
    App.statement_cases false reading (fun env _ db => (query env db, db)) env w
  · rw [hrun]
    exact ⟨hclean, rfl, rfl, rfl⟩
  · rw [hrun]
    exact ⟨rfl, rfl, rfl, rfl⟩
  · rw [hrun]
    exact ⟨hclean, rfl, rfl, rfl⟩

/-- `ConversationService.get` only looks. -/
theorem get_looks (c : Uuid) (scope : Option OwnerScope) :
    Moves Looks (ConversationService.get c scope) :=
  get_moves looks_refl looks_trans select_looks c scope

/-- The next position is past every turn there is. -/
theorem nextPosition_last {c : Uuid} {env : Env} {w w' : RequestState} {position : Nat}
    (hrun : nextPosition c env w = (.ok position, w')) :
    ∀ turn ∈ turnsOf c w'.db, turn.position ≤ position := by
  obtain ⟨rfl, rfl⟩ := App.select_eq_ok hrun
  exact fun turn hturn => position_le_next hturn

/-- A row that is inserted is committed, or nothing is. -/
theorem store_cases {α : Type} (row : Env → Nat → α) (store : α → Database → Database)
    (env : Env) {w : RequestState} (hclean : Clean w) :
    let x : App α := do
      let a ← App.insert row store
      App.commit
      pure a
    (∃ w', x env w = (.ok (row env w.issued.length), w') ∧ Clean w' ∧
      w'.committed = store (row env w.issued.length) w.committed ∧ w'.prompts = w.prompts ∧
      w'.stored = w.stored) ∨
    (∃ w', x env w = (.error .sqlalchemy, w') ∧ Unmoved w w') := by
  intro x
  obtain ⟨-, hrun⟩ | ⟨-, fault, -, hrun⟩ | ⟨-, -, hrun⟩ := App.statement_cases true .nothing
    (fun env n db => (row env n, store (row env n) db)) env w
  · exact .inr ⟨_, bind_of_error (x := App.insert row store) hrun, hclean, rfl, rfl, rfl⟩
  · exact .inr ⟨_, bind_of_error (x := App.insert row store) hrun, rfl, rfl, rfl, rfl⟩
  · have hinsert := bind_of_ok (x := App.insert row store) (f := fun a => do
      App.commit
      pure a) hrun
    -- The insert has begun a transaction, so the commit has something to do.
    obtain ⟨hsession, -⟩ | ⟨hsession, -⟩ | ⟨-, fault, -, hcommit⟩ | ⟨-, -, hcommit⟩ :=
      App.commit_cases env { w.record .nothing .done with
        db := store (row env w.issued.length) w.db, session := .begun }
    · exact nomatch hsession
    · exact nomatch hsession
    · exact .inr ⟨_, hinsert.trans (bind_of_error hcommit), rfl, rfl, rfl, rfl⟩
    · have hstored : store (row env w.issued.length) w.db =
          store (row env w.issued.length) w.committed := congrArg _ hclean
      exact .inl ⟨_, hinsert.trans (bind_of_ok hcommit), rfl, hstored, rfl, rfl⟩

/-- How the recording of a turn ends: it is stored, or nothing is. -/
inductive Recorded {α : Type} (c : Uuid) (turn : Turn) (w : RequestState) :
    Except Raised α × RequestState → Prop
  | stored {a : α} {w' : RequestState} (hclean : Clean w') (hprompts : w'.prompts = w.prompts)
      (hstored : w'.stored = w.stored)
      (hconversations : w'.committed.conversations = w.committed.conversations)
      (hgrown : Grown c w.committed w'.committed [turn]) : Recorded c turn w (.ok a, w')
  | lost {raised : Raised} {w' : RequestState} (hsame : Unmoved w w') :
      Recorded c turn w (.error raised, w')

/-- An append stores its turn when it returns, and nothing when it raises. -/
theorem append_growth (c : Uuid) (role : MessageRole) (content : PyStr)
    (citations : List Citation) (scope : Option OwnerScope) (env : Env) {w : RequestState}
    (hclean : Clean w) :
    Recorded c (role, content) w
      (ConversationService.append c role content citations scope env w) := by
  unfold ConversationService.append
  have hget := get_looks c scope env w hclean
  -- The conversation is looked up, the next position read, and the row inserted
  match hrun : ConversationService.get c scope env w with
  | (.error raised, w₁) =>
    rw [bind_of_error hrun]
    rw [hrun] at hget
    exact .lost hget
  | (.ok conversation, w₁) =>
    rw [bind_of_ok hrun]
    rw [hrun] at hget
    have hnext : Looks env w₁ (nextPosition c env w₁).2 := select_looks _ _ env w₁
    match hposition : nextPosition c env w₁ with
    | (.error raised, w₂) =>
      rw [bind_of_error hposition]
      rw [hposition] at hnext
      exact .lost (hget.trans (hnext hget.clean))
    | (.ok position, w₂) =>
      rw [bind_of_ok hposition]
      rw [hposition] at hnext
      have hlooked : Unmoved w w₂ := hget.trans (hnext hget.clean)
      have hlast := nextPosition_last hposition
      obtain ⟨w₃, hstore, hclean', hcommitted, hprompts, hstored⟩ | ⟨w₃, hstore, hsame⟩ :=
        store_cases
          (fun env n => ({
            conversationId := c, position, role, content
            tokenEstimate := estimateTokens content
            citations
            createdAt := env.now n } : ConversationMessage))
          (fun message db => { db with messages := db.messages ++ [message] }) env hlooked.clean
      -- The row is committed at the next position
      · rw [hstore]
        apply Recorded.stored hclean' (hprompts.trans hlooked.prompts)
          (hstored.trans hlooked.stored)
        · rw [hcommitted, ← hlooked.committed]
        · rw [hcommitted, ← hlooked.committed]
          rw [hlooked.clean] at hlast
          exact grown_of_insert rfl hlast
      · rw [hstore]
        exact .lost (hlooked.trans hsame)

/-! ## The pipeline -/

/-- The model was asked over databases that are `P`, and no others. -/
def AskedOver (P : Database → Prop) (w w' : RequestState) : Prop :=
  ∃ prompts stored, w'.prompts = w.prompts ++ prompts ∧ w'.stored = w.stored ++ stored ∧
    stored.length = prompts.length ∧ ∀ db ∈ stored, P db

section AskedOver

variable {P Q : Database → Prop} {w w₁ w₂ w₃ : RequestState}

/-- Where there is no new prompt, nothing was asked. -/
theorem AskedOver.none (hprompts : w₂.prompts = w₁.prompts) (hstored : w₂.stored = w₁.stored) :
    AskedOver P w₁ w₂ :=
  ⟨[], [], by simp [hprompts], by simp [hstored], rfl, by simp⟩

/-- What was asked twice was asked over databases of both. -/
theorem AskedOver.trans (h : AskedOver P w₁ w₂) (h' : AskedOver P w₂ w₃) : AskedOver P w₁ w₃ := by
  obtain ⟨prompts, stored, hprompts, hstored, hlength, hover⟩ := h
  obtain ⟨prompts', stored', hprompts', hstored', hlength', hover'⟩ := h'
  refine ⟨prompts ++ prompts', stored ++ stored', ?_, ?_, ?_, ?_⟩
  · rw [hprompts', hprompts, List.append_assoc]
  · rw [hstored', hstored, List.append_assoc]
  · simp [hlength, hlength']
  · intro db hdb
    exact (List.mem_append.mp hdb).elim (hover db) (hover' db)

/-- What was asked over databases with `P` was asked over databases with a weaker `Q`. -/
theorem AskedOver.imp (h : AskedOver P w₁ w₂) (hPQ : ∀ db, P db → Q db) : AskedOver Q w₁ w₂ := by
  obtain ⟨prompts, stored, hprompts, hstored, hlength, hover⟩ := h
  exact ⟨prompts, stored, hprompts, hstored, hlength, fun db hdb => hPQ db (hover db hdb)⟩

/-- A prompt is asked over the committed database. -/
theorem askedOver_sendPrompt (prompt : LLMPrompt) (h : P w.committed) :
    AskedOver P w (w.sendPrompt prompt) :=
  ⟨[prompt], [w.committed], rfl, rfl, rfl, by simpa using h⟩

end AskedOver

/-- Nothing was said in any conversation. -/
structure Silent (w w' : RequestState) : Prop where
  clean : Clean w'
  conversations : w'.committed.conversations = w.committed.conversations
  messages : w'.committed.messages = w.committed.messages
  asked : AskedOver (fun db => db.messages = w.committed.messages) w w'

def Silently (_ : Env) (w w' : RequestState) : Prop := Clean w → Silent w w'

/-- What moves nothing is silent. -/
theorem Unmoved.silent {w w' : RequestState} (h : Unmoved w w') : Silent w w' where
  clean := h.clean
  conversations := congrArg Database.conversations h.committed
  messages := congrArg Database.messages h.committed
  asked := .none h.prompts h.stored

/-- What is silent twice is silent. -/
theorem Silent.trans {w₁ w₂ w₃ : RequestState} (h : Silent w₁ w₂) (h' : Silent w₂ w₃) :
    Silent w₁ w₃ where
  clean := h'.clean
  conversations := h'.conversations.trans h.conversations
  messages := h'.messages.trans h.messages
  asked := h.asked.trans (h'.asked.imp fun _ hdb => hdb.trans h.messages)

/-- On whose behalf statements are issued does not matter. -/
theorem onBehalfOf_silently {α : Type} (caller : Caller) {x : App α} (h : Moves Silently x) :
    Moves Silently (App.onBehalfOf caller x) := by
  intro env w hclean
  have hsilent := h env { w with caller } hclean
  exact ⟨hsilent.clean, hsilent.conversations, hsilent.messages, hsilent.asked⟩

/-- A request that is queued for review is no turn of a conversation. -/
theorem enqueue_silently (message : PyStr) (intent : IntentCategory) (reason : EscalationReason)
    (proposedReply : Option PyStr) (ticketId : Option Uuid) :
    Moves Silently (ReviewQueue.enqueue message intent reason proposedReply ticketId) := by
  intro env w hclean
  unfold ReviewQueue.enqueue
  obtain ⟨w', hrun, hclean', hcommitted, hprompts, hstored⟩ | ⟨w', hrun, hsame⟩ := store_cases
    (fun env n => ({
      id := env.genRandomUuid n
      ticketId, message, proposedReply
      intent := intent.value
      reason := reason.value
      status := .pending } : ReviewItem))
    (fun item db => { db with reviewItems := db.reviewItems ++ [item] }) env hclean
  · have hconversations : w'.committed.conversations = w.committed.conversations := by
      rw [hcommitted]
    have hmessages : w'.committed.messages = w.committed.messages := by rw [hcommitted]
    rw [hrun]
    exact ⟨hclean', hconversations, hmessages, .none hprompts hstored⟩
  · rw [hrun]
    exact hsame.silent

/-- The pipeline says nothing in any conversation. -/
theorem silently_footprint : Footprint Silently where
  refl env w hclean := (looks_refl env w hclean).silent
  trans env w₁ w₂ w₃ h h' hclean := (h hclean).trans (h' (h hclean).clean)
  select reading query env w hclean := (select_looks reading query env w hclean).silent
  complete answer prompt env w hclean := by
    rw [App.complete_state]
    exact ⟨hclean, rfl, rfl, askedOver_sendPrompt prompt rfl⟩
  enqueue message intent reason proposedReply ticketId :=
    onBehalfOf_silently .handoff (enqueue_silently message intent reason proposedReply ticketId)
  tool := onBehalfOf_silently .tool

/-! ## One exchange -/

/-- What became of a question in a conversation. `delivered` says which text was delivered
    as the reply, without an error. -/
structure RecordedOnce (c : Uuid) (question : PyStr) (delivered : PyStr → Prop)
    (before after : RequestState) : Prop where
  /-- The question is stored once the model is asked, and no turn is stored twice. -/
  grown : (Grown c before.committed after.committed [] ∧ after.prompts = before.prompts) ∨
    Grown c before.committed after.committed [(.customer, question)] ∨
    ∃ text, Grown c before.committed after.committed [(.customer, question), (.assistant, text)]
  /-- When the model is asked, the question has been stored, and nothing else. -/
  asked : AskedOver (fun db => Grown c before.committed db [(.customer, question)]) before after
  delivered : ∀ text, delivered text →
    Grown c before.committed after.committed [(.customer, question), (.assistant, text)]

section Exchange

variable {c : Uuid} {question : PyStr} {delivered : PyStr → Prop} {w w₁ w₂ w₃ : RequestState}

/-- An exchange whose question could not be stored is `RecordedOnce`, if nothing is delivered. -/
theorem recordedOnce_of_unmoved (hcommitted : w₁.committed = w.committed)
    (hprompts : w₁.prompts = w.prompts) (hstored : w₁.stored = w.stored)
    (hnone : ∀ text, ¬ delivered text) : RecordedOnce c question delivered w w₁ where
  grown := .inl ⟨.none (congrArg Database.messages hcommitted), hprompts⟩
  asked := .none hprompts hstored
  delivered text h := absurd h (hnone text)

/-- What is asked behind a stored question is asked over a conversation that has grown by the
    question. -/
theorem asked_of_stored (hgrown : Grown c w.committed w₁.committed [(.customer, question)])
    (hprompts : w₁.prompts = w.prompts) (hstored : w₁.stored = w.stored)
    (hasked : AskedOver (fun db => db.messages = w₁.committed.messages) w₁ w₂) :
    AskedOver (fun db => Grown c w.committed db [(.customer, question)]) w w₂ :=
  (AskedOver.none hprompts hstored).trans (hasked.imp fun _ hdb => hgrown.congr hdb)

/-- An exchange whose question was stored, and no answer, is `RecordedOnce`, if nothing is
    delivered. -/
theorem recordedOnce_of_unanswered
    (hgrown : Grown c w.committed w₁.committed [(.customer, question)])
    (hprompts : w₁.prompts = w.prompts) (hstored : w₁.stored = w.stored)
    (hmessages : w₂.committed.messages = w₁.committed.messages)
    (hasked : AskedOver (fun db => db.messages = w₁.committed.messages) w₁ w₂)
    (hnone : ∀ text, ¬ delivered text) : RecordedOnce c question delivered w w₂ where
  grown := .inr (.inl (hgrown.congr hmessages))
  asked := asked_of_stored hgrown hprompts hstored hasked
  delivered text h := absurd h (hnone text)

/-- An exchange whose question was stored, and then an answer, is `RecordedOnce`, if the answer is
    what is delivered. -/
theorem recordedOnce_of_answered {answer : PyStr}
    (hgrown : Grown c w.committed w₁.committed [(.customer, question)])
    (hprompts : w₁.prompts = w.prompts) (hstored : w₁.stored = w.stored)
    (hmessages : w₂.committed.messages = w₁.committed.messages)
    (hasked : AskedOver (fun db => db.messages = w₁.committed.messages) w₁ w₂)
    (hanswered : Grown c w₂.committed w₃.committed [(.assistant, answer)])
    (hprompts' : w₃.prompts = w₂.prompts) (hstored' : w₃.stored = w₂.stored)
    (hone : ∀ text, delivered text → text = answer) : RecordedOnce c question delivered w w₃ := by
  have hboth := (hgrown.congr hmessages).trans hanswered
  exact {
    grown := .inr (.inr ⟨answer, hboth⟩)
    asked := (asked_of_stored hgrown hprompts hstored hasked).trans (.none hprompts' hstored')
    delivered := fun text h => hone text h ▸ hboth }

end Exchange

/-! ## The pipeline's exchange -/

/-- What a request delivers: the reply it returns. -/
def returned (result : Except Raised AssistantReply) (text : PyStr) : Prop :=
  ∃ reply, result = .ok reply ∧ reply.reply.val = text

/-- An error returns no text. -/
theorem not_returned_error (raised : Raised) (text : PyStr) : ¬ returned (.error raised) text := by
  rintro ⟨reply, herror, -⟩
  exact nomatch herror

section Respond

variable (settings : Settings) (word : WordTable) (c : Uuid) (scope : Option OwnerScope)

/-- `Recorded` does not depend on what is returned. -/
theorem Recorded.void {α : Type} {c : Uuid} {turn : Turn} {env : Env} {w : RequestState}
    {x : App α} (h : Recorded c turn w (x env w)) :
    Recorded c turn w ((do let _ ← x; pure () : App Unit) env w) := by
  match hrun : x env w with
  | (.ok a, w') =>
    rw [bind_of_ok hrun]
    rw [hrun] at h
    cases h with
    | stored hclean hprompts hstored hconversations hgrown =>
      exact .stored hclean hprompts hstored hconversations hgrown
  | (.error raised, w') =>
    rw [bind_of_error hrun]
    rw [hrun] at h
    cases h with
    | lost hsame => exact .lost hsame

/-- `answer` of the pipeline behind a stored question is `RecordedOnce`. -/
theorem answer_recordedOnce (question : Text) (env : Env) {w w₁ : RequestState}
    (hclean : Clean w₁)
    (hgrown : Grown c w.committed w₁.committed [(.customer, question.val)])
    (hprompts : w₁.prompts = w.prompts) (hstored : w₁.stored = w.stored) :
    let run := (do
      let analysis ← IntentService.analyze question
      let (routed, handoff) ← (getAssistantService settings word).process question analysis
      AssistantService.record (some c) .assistant handoff.reply.val scope routed.citations
      pure (AssistantService.assemble (some c) routed handoff) : App AssistantReply) env w₁
    RecordedOnce c question.val (returned run.1) w run.2 := by
  intro run
  have hsilent := silently_footprint.analyze_moves question env w₁ hclean
  -- The stages of `respond` after the question is recorded, each of which may raise
  match hanalyze : IntentService.analyze question env w₁ with
  | (.error raised, w₂) =>
    have hrun : run = (.error raised, w₂) := bind_of_error hanalyze
    rw [hanalyze] at hsilent
    rw [hrun]
    exact recordedOnce_of_unanswered hgrown hprompts hstored hsilent.messages hsilent.asked
      (not_returned_error raised)
  | (.ok analysis, w₂) =>
    rw [hanalyze] at hsilent
    have hanswered := hsilent.trans
      (silently_footprint.process_moves settings word question analysis env w₂ hsilent.clean)
    match hprocess : (getAssistantService settings word).process question analysis env w₂ with
    | (.error raised, w₃) =>
      have hrun : run = (.error raised, w₃) :=
        (bind_of_ok hanalyze).trans (bind_of_error hprocess)
      rw [hprocess] at hanswered
      rw [hrun]
      exact recordedOnce_of_unanswered hgrown hprompts hstored hanswered.messages hanswered.asked
        (not_returned_error raised)
    | (.ok (routed, handoff), w₃) =>
      rw [hprocess] at hanswered
      -- The reply is recorded as the assistant's, or not at all
      have hreply : Recorded c (.assistant, handoff.reply.val) w₃ (AssistantService.record
          (some c) .assistant handoff.reply.val scope routed.citations env w₃) :=
        (append_growth c .assistant handoff.reply.val routed.citations scope env
          hanswered.clean).void
      match hrecord : AssistantService.record (some c) .assistant handoff.reply.val scope
          routed.citations env w₃ with
      | (.error raised, w₄) =>
        have hrun : run = (.error raised, w₄) := (bind_of_ok hanalyze).trans
          ((bind_of_ok hprocess).trans (bind_of_error hrecord))
        rw [hrecord] at hreply
        rw [hrun]
        cases hreply with
        | lost hsame =>
          have hlost := hanswered.trans hsame.silent
          exact recordedOnce_of_unanswered hgrown hprompts hstored hlost.messages hlost.asked
            (not_returned_error raised)
      | (.ok (), w₄) =>
        have hrun : run = (.ok (AssistantService.assemble (some c) routed handoff), w₄) :=
          (bind_of_ok hanalyze).trans ((bind_of_ok hprocess).trans (bind_of_ok hrecord))
        rw [hrecord] at hreply
        rw [hrun]
        cases hreply with
        | stored _ hprompts' hstored' _ hgrown' =>
          apply recordedOnce_of_answered hgrown hprompts hstored hanswered.messages
            hanswered.asked hgrown' hprompts' hstored'
          -- What is returned is the text that was recorded
          rintro text ⟨reply, hok, rfl⟩
          rw [← Except.ok.inj hok]
          rfl

/-- The pipeline records each exchange once. -/
theorem respond_recordedOnce (question : Text) (env : Env) {w : RequestState} (hclean : Clean w) :
    let run := (getAssistantService settings word).respond question (some c) scope env w
    RecordedOnce c question.val (returned run.1) w run.2 := by
  intro run
  have hquestion : Recorded c (.customer, question.val) w
      (AssistantService.record (some c) .customer question.val scope [] env w) :=
    (append_growth c .customer question.val [] scope env hclean).void
  match hrecord : AssistantService.record (some c) .customer question.val scope [] env w with
  | (.error raised, w₁) =>
    have hrun : run = (.error raised, w₁) := bind_of_error hrecord
    rw [hrecord] at hquestion
    rw [hrun]
    cases hquestion with
    | lost hsame =>
      exact recordedOnce_of_unmoved hsame.committed hsame.prompts hsame.stored
        (not_returned_error raised)
  | (.ok (), w₁) =>
    have hrun := bind_of_ok (f := fun _ : Unit => (do
      let analysis ← IntentService.analyze question
      let (routed, handoff) ← (getAssistantService settings word).process question analysis
      AssistantService.record (some c) .assistant handoff.reply.val scope routed.citations
      pure (AssistantService.assemble (some c) routed handoff) : App AssistantReply)) hrecord
    rw [hrecord] at hquestion
    cases hquestion with
    | stored hclean₁ hprompts hstored _ hgrown =>
      have hanswer := answer_recordedOnce settings word c scope question env hclean₁ hgrown
        hprompts hstored
      rw [← hrun] at hanswer
      exact hanswer

end Respond

/-! ## Sessions -/

/-- With a session that has just been opened, or closed: what was not committed is lost. -/
def renewed (w : RequestState) : RequestState := { w with db := w.committed, session := .idle }

/-- `inNewSession` raises where there is no database, and else runs its code in a renewed
    session. -/
theorem inNewSession_cases {α : Type} (x : App α) (env : Env) (w : RequestState) :
    (∃ raised, App.inNewSession x env w = (.error raised, w)) ∨
    App.inNewSession x env w = ((x env (renewed w)).1, renewed (x env (renewed w)).2) := by
  unfold App.inNewSession
  split
  · exact .inr rfl
  · exact .inl ⟨_, rfl⟩

/-- A turn is recorded in a session of its own as in any other. -/
theorem recorder_growth (c : Uuid) (role : MessageRole) (content : PyStr)
    (scope : Option OwnerScope) (env : Env) (w : RequestState) :
    (∃ w', SessionTurnRecorder scope c role content env w = (.ok (), w') ∧
      w'.prompts = w.prompts ∧ w'.stored = w.stored ∧
      Grown c w.committed w'.committed [(role, content)]) ∨
    ∃ raised w', SessionTurnRecorder scope c role content env w = (.error raised, w') ∧
      w'.prompts = w.prompts ∧ w'.stored = w.stored ∧ w'.committed = w.committed := by
  unfold SessionTurnRecorder
  obtain ⟨raised, hrun⟩ | hrun := inNewSession_cases
    (ConversationService.append c role content [] scope) env w
  · exact .inr ⟨raised, w, bind_of_error hrun, rfl, rfl, rfl⟩
  · have hclean : Clean (renewed w) := rfl
    have happend := append_growth c role content [] scope env hclean
    match happended : ConversationService.append c role content [] scope env (renewed w) with
    | (.ok message, w₁) =>
      rw [happended] at hrun happend
      cases happend with
      | stored _ hprompts hstored _ hgrown =>
        exact .inl ⟨renewed w₁, bind_of_ok hrun, hprompts, hstored, hgrown⟩
    | (.error raised, w₁) =>
      rw [happended] at hrun happend
      cases happend with
      | lost hsame =>
        exact .inr ⟨raised, renewed w₁, bind_of_error hrun, hsame.prompts, hsame.stored,
          hsame.committed⟩

/-! ## The transports -/

/-- What frames deliver: the text of a completion, where there is no error among them. -/
def sent (result : Except Raised (List ServerMessage)) (text : PyStr) : Prop :=
  ∃ frames, result = .ok frames ∧ (∀ code message, .error code message ∉ frames) ∧
    ∃ frame ∈ frames, ∃ grounded, completionOf frame = some (text, grounded)

/-- Frames with an error send none. -/
theorem not_sent_of_error {frames : List ServerMessage} {code message : PyStr}
    (h : .error code message ∈ frames) (text : PyStr) : ¬ sent (.ok frames) text := by
  rintro ⟨frames', hok, hno, -⟩
  rw [← Except.ok.inj hok] at hno
  exact hno code message h

section Transports

variable (c : Uuid) (scope : Option OwnerScope) (question : Text) (env : Env) (w : RequestState)

/-- `respond` is `RecordedOnce`, as HTTP and a socket with the pipeline call it. -/
theorem pipeline_recordedOnce (settings : Settings) (word : WordTable) :
    let run := App.inNewSession
      ((getAssistantService settings word).respond question (some c) scope) env w
    RecordedOnce c question.val (returned run.1) w run.2 := by
  intro run
  have hclean : Clean (renewed w) := rfl
  have hrespond := respond_recordedOnce settings word c scope question env hclean
  obtain ⟨raised, hrun⟩ | hrun := inNewSession_cases
    ((getAssistantService settings word).respond question (some c) scope) env w
  · have hrun' : run = (.error raised, w) := hrun
    rw [hrun']
    exact recordedOnce_of_unmoved rfl rfl rfl (not_returned_error raised)
  · have hrun' : run = _ := hrun
    rw [hrun']
    exact ⟨hrespond.grown, hrespond.asked, hrespond.delivered⟩

/-- A text that `replyFrames` have sent is that of their reply. -/
theorem returned_of_sent_replyFrames {reply : AssistantReply} {text : PyStr}
    (h : sent (.ok (replyFrames (some c) reply)) text) : returned (.ok reply) text := by
  obtain ⟨frames, hok, -, frame, hframe, grounded, hcompletion⟩ := h
  rw [← Except.ok.inj hok] at hframe
  cases List.mem_append.mp hframe with
  | inl hdelta =>
    obtain ⟨piece, -, rfl⟩ := List.mem_map.mp hdelta
    exact nomatch hcompletion
  | inr hcomplete =>
    rw [List.mem_singleton.mp hcomplete] at hcompletion
    exact ⟨reply, rfl, (Prod.mk.inj (Option.some.inj hcompletion)).1⟩

/-- `answerGrounded` is `RecordedOnce`. -/
theorem answerGrounded_recordedOnce (settings : Settings) (word : WordTable) (available : Bool) :
    let run := answerGrounded (SessionAnswerer (getAssistantService settings word) scope available)
      question (some c) env w
    RecordedOnce c question.val (sent run.1) w run.2 := by
  intro run
  have hpipeline := pipeline_recordedOnce c scope question env w settings word
  obtain ⟨reply, w', hanswer, hrun⟩ | ⟨raised, code, message, w', hanswer, hrun⟩ :=
    answerGrounded_returns (SessionAnswerer (getAssistantService settings word) scope available)
      question (some c) env w
  · have hrun' : run = (.ok (replyFrames (some c) reply), w') := hrun
    have hanswer' : App.inNewSession
        ((getAssistantService settings word).respond question (some c) scope) env w =
        (.ok reply, w') := hanswer
    rw [hanswer'] at hpipeline
    rw [hrun']
    exact ⟨hpipeline.grown, hpipeline.asked, fun text h =>
      hpipeline.delivered text (returned_of_sent_replyFrames c h)⟩
  · have hrun' : run = (.ok [.error code message], w') := hrun
    have hanswer' : App.inNewSession
        ((getAssistantService settings word).respond question (some c) scope) env w =
        (.error raised, w') := hanswer
    rw [hanswer'] at hpipeline
    rw [hrun']
    exact ⟨hpipeline.grown, hpipeline.asked, fun text h =>
      absurd h (not_sent_of_error (List.mem_singleton_self _) text)⟩

/-- The recorder of a connection, where it was given one. -/
def recorderOf (given : Bool) : Option TurnRecorder :=
  if given then some (SessionTurnRecorder scope) else none

variable {c scope env w}

/-- `recordIn` stores the turn that it reports as recorded, and no other. -/
theorem recordIn_growth {given recorded : Bool} {role : MessageRole} {content : PyStr}
    {frames : List ServerMessage} {w' : RequestState}
    (h : recordIn (recorderOf scope given) (some c) role content env w =
      (.ok (frames, recorded), w')) :
    w'.prompts = w.prompts ∧ w'.stored = w.stored ∧
      (recorded = true → Grown c w.committed w'.committed [(role, content)]) ∧
      (recorded = false → w'.committed = w.committed) := by
  cases given with
  | false =>
    obtain ⟨hresult, rfl⟩ := Prod.mk.inj h
    obtain ⟨-, rfl⟩ := Prod.mk.inj (Except.ok.inj hresult)
    exact ⟨rfl, rfl, nofun, fun _ => rfl⟩
  | true =>
    obtain ⟨w₁, hturn, hprompts, hstored, hgrown⟩ |
        ⟨raised, w₁, hturn, hprompts, hstored, hcommitted⟩ :=
      recorder_growth c role content scope env w
    · have hbody := bind_of_ok (f := fun _ : Unit =>
        (pure ([], true) : App (List ServerMessage × Bool))) hturn
      obtain ⟨hresult, rfl⟩ := Prod.mk.inj ((tryCatch_of_ok hbody).symm.trans h)
      obtain ⟨-, rfl⟩ := Prod.mk.inj (Except.ok.inj hresult)
      exact ⟨hprompts, hstored, fun _ => hgrown, nofun⟩
    · have hbody := bind_of_error (f := fun _ : Unit =>
        (pure ([], true) : App (List ServerMessage × Bool))) hturn
      have hend : w' = w₁ ∧ recorded = false := by
        have hcaught := (tryCatch_of_error hbody).symm.trans h
        cases raised <;>
          exact ⟨(Prod.mk.inj hcaught).2.symm,
            (Prod.mk.inj (Except.ok.inj (Prod.mk.inj hcaught).1)).2.symm⟩
      obtain ⟨rfl, rfl⟩ := hend
      exact ⟨hprompts, hstored, nofun, fun _ => hcommitted⟩

variable (c scope env w)

/-- `streamProse` is `RecordedOnce`. -/
theorem streamProse_recordedOnce (given : Bool) :
    let run := streamProse (recorderOf scope given) question (some c) env w
    RecordedOnce c question.val (sent run.1) w run.2 := by
  intro run
  obtain ⟨frames, w', hrun, hprose⟩ :=
    streamProse_returns (recorderOf scope given) question (some c) env w
  have hcompletion := (ungrounded_of_proseRun hprose).completion
  have hrun' : run = (.ok frames, w') := hrun
  rw [hrun']
  -- The four ends of `_stream_prose`
  cases hprose with
  | refused hrecord hno =>
    obtain ⟨hprompts, hstored, -, hlost⟩ := recordIn_growth hrecord
    exact recordedOnce_of_unmoved (hlost rfl) hprompts hstored
      (not_sent_of_error (List.mem_singleton_self _))
  | broken hrecord hstream =>
    obtain ⟨hprompts, hstored, hgrown, -⟩ := recordIn_growth hrecord
    exact recordedOnce_of_unanswered (hgrown rfl) hprompts hstored rfl
      (askedOver_sendPrompt _ rfl)
      (not_sent_of_error (List.mem_append_right _ (List.mem_singleton_self _)))
  | @finished pieces w₁ _ hrecord hstream hanswer hyes =>
    obtain ⟨hprompts, hstored, hgrown, -⟩ := recordIn_growth hrecord
    obtain ⟨hprompts', hstored', hgrown', -⟩ := recordIn_growth hanswer
    -- The prompt is sent after the question is recorded
    have hasked : AskedOver (fun db => db.messages = w₁.committed.messages) w₁
        (w₁.sendPrompt (prosePrompt question)) := askedOver_sendPrompt _ rfl
    have hsame : (w₁.sendPrompt (prosePrompt question)).committed.messages =
        w₁.committed.messages := rfl
    apply recordedOnce_of_answered (hgrown rfl) hprompts hstored hsame hasked (hgrown' rfl)
      hprompts' hstored'
    rintro text ⟨frames', hok, -, frame, hframe, grounded, htext⟩
    rw [← Except.ok.inj hok] at hframe
    have hall := (hcompletion frame hframe text grounded htext).1
    rwa [hstream] at hall
  | @unrecorded pieces code message w₁ _ hrecord hstream hanswer hno =>
    obtain ⟨hprompts, hstored, hgrown, -⟩ := recordIn_growth hrecord
    obtain ⟨hprompts', hstored', -, hlost⟩ := recordIn_growth hanswer
    have hasked : AskedOver (fun db => db.messages = w₁.committed.messages) w₁
        (w₁.sendPrompt (prosePrompt question)) := askedOver_sendPrompt _ rfl
    exact recordedOnce_of_unanswered (hgrown rfl) hprompts hstored
      (congrArg Database.messages (hlost rfl)) (hasked.trans (.none hprompts' hstored'))
      (not_sent_of_error (List.mem_append_right _ List.mem_cons_self))

end Transports

/-- Whoever asks, over whichever transport, from whatever state of the connection, with
    whatever model, and whichever statements fail. -/
theorem exchange_recorded_once (c : Uuid) (question : Text) (scope : Option OwnerScope)
    (env : Env) (w : RequestState) :
    let http := answerMessage question (some c) scope env w
    RecordedOnce c question.val (returned http.1) w http.2 ∧
    ∀ recorder answerer busy,
      let socket := (connectionStreamer env scope recorder answerer busy).answer question (some c)
        env w
      RecordedOnce c question.val (sent socket.1) w socket.2 := by
  constructor
  · exact pipeline_recordedOnce c scope question env w env.settings env.text.word
  · intro recorder answerer busy
    -- A connection without a pipeline streams prose
    have hprose := streamProse_recordedOnce c scope question env w recorder
    cases busy with
    | true =>
      exact recordedOnce_of_unmoved rfl rfl rfl (not_sent_of_error (List.mem_singleton_self _))
    | false =>
      cases answerer with
      | false => exact hprose
      | true =>
        have hgrounded := answerGrounded_recordedOnce c scope question env w env.settings
          env.text.word env.settings.databaseConfigured
        intro socket
        -- The pipeline is available where there is a database.
        cases havailable : env.settings.databaseConfigured with
        | true =>
          have hsocket : socket = answerGrounded (SessionAnswerer
              (getAssistantService env.settings env.text.word) scope
              env.settings.databaseConfigured) question (some c) env w := by
            show (if env.settings.databaseConfigured then _ else _ : App _) env w = _
            rw [if_pos havailable]
            rfl
          rw [hsocket]
          exact hgrounded
        | false =>
          have hsocket : socket =
              streamProse (recorderOf scope recorder) question (some c) env w := by
            show (if env.settings.databaseConfigured then _ else _ : App _) env w = _
            rw [havailable]
            rfl
          rw [hsocket]
          exact hprose

end NexaAssist.Spec.ExchangeRecorded
