import NexaAssist.Spec.SubjectView
import NexaAssist.Spec.SwallowedFailure

/-!
# Tools that read beyond a subject's own

The ticket tools have no scope. Two runs over databases that are alike to a subject stay
together until a tool reads tickets that are not the subject's. Where the model is asked
again after that, its prompt shows what the tool read.

## Key results

- `execute_cases`: what a tool call reads
- `Tracks`: two runs stay together until one strays and asks again
- `responding_tracks`: a run of the agent does
-/

namespace NexaAssist.Spec.StrayReading

open NexaAssist PyJson Effect AgentLoop AgentLedger PipelineFootprint SwallowedFailure SubjectView

/-! ## Reading beyond one's own -/

/-- A reading that tickets beyond the subject's own could show in. -/
def Foreign (own : List Ticket) : Reading → Prop
  | .nothing => False
  | .ticket id => id ∉ own.map (·.id)
  | .tickets _ limit => 0 < limit ∧ ∃ id, id ∉ own.map (·.id)

/-- A tool has read beyond the subject's own. -/
structure Strays (own : List Ticket) (issue : Issue) : Prop where
  caller : issue.caller = .tool
  outcome : issue.outcome = .done
  reading : Foreign own issue.reading

/-- After a tool has read beyond the subject's own, the model is not asked again. -/
def Discreet (own : List Ticket) (w : RequestState) : Prop :=
  ∀ issue ∈ w.issued, Strays own issue → w.prompts.length ≤ issue.asked

/-- No tool has read beyond the subject's own, and none is running. -/
structure Confined (own : List Ticket) (w : RequestState) : Prop where
  caller : w.caller ≠ .tool
  issued : ∀ issue ∈ w.issued, ¬ Strays own issue

/-- What is confined to its own tickets is discreet. -/
theorem Confined.discreet {own : List Ticket} {w : RequestState} (h : Confined own w) :
    Discreet own w := fun issue hissue hstrays => absurd hstrays (h.issued issue hissue)

/-! ## Code that calls no tools -/

/-- Issues nothing on behalf of a tool. -/
structure Aside (w w' : RequestState) : Prop where
  caller : w'.caller = w.caller
  issued : ∃ more, w'.issued = w.issued ++ more ∧ ∀ issue ∈ more, issue.caller ≠ .tool

def Asides (_ : Env) (w w' : RequestState) : Prop := w.caller ≠ .tool → Aside w w'

/-- A step that does nothing does nothing `Asides` forbids. -/
theorem asides_refl (env : Env) (w : RequestState) : Asides env w w :=
  fun _ => ⟨rfl, [], (List.append_nil _).symm, by simp⟩

/-- What is done aside twice is done aside. -/
theorem asides_trans (env : Env) (w₁ w₂ w₃ : RequestState) (h : Asides env w₁ w₂)
    (h' : Asides env w₂ w₃) : Asides env w₁ w₃ := by
  intro hcaller
  obtain ⟨hcaller₁, more, hissued, hmore⟩ := h hcaller
  obtain ⟨hcaller₂, more', hissued', hmore'⟩ := h' (hcaller₁ ▸ hcaller)
  refine ⟨hcaller₂.trans hcaller₁, more ++ more', ?_, ?_⟩
  · rw [hissued', hissued, List.append_assoc]
  · intro issue hissue
    exact (List.mem_append.mp hissue).elim (hmore issue) (hmore' issue)

/-- Statements of a caller that is no tool are done aside. -/
theorem asides_of_owns {α : Type} {x : App α} (h : Moves Owns x) : Moves Asides x := by
  intro env w hcaller
  obtain ⟨hkept, more, hissued, hmore⟩ := h env w
  refine ⟨hkept, more, hissued, ?_⟩
  intro issue hissue
  rw [hmore issue hissue]
  exact hcaller

/-- `record` writes to its own conversation only. -/
theorem record_owns (conversationId : Option Uuid) (role : MessageRole) (content : PyStr)
    (scope : Option OwnerScope) (citations : List Citation) :
    Moves Owns (AssistantService.record conversationId role content scope citations) := by
  cases conversationId with
  | none => exact .pure owns_refl _
  | some c =>
    exact .bind owns_trans (append_owns c role content citations scope) fun _ => .pure owns_refl _

/-- `enqueue` writes a review item of its own. -/
theorem enqueue_owns (message : PyStr) (intent : IntentCategory) (reason : EscalationReason)
    (proposedReply : Option PyStr) (ticketId : Option Uuid) :
    Moves Owns (ReviewQueue.enqueue message intent reason proposedReply ticketId) := by
  apply Moves.bind owns_trans (statement_owns _ _ _)
  intro item
  exact .bind owns_trans commit_owns fun _ => .pure owns_refl _

/-- `consider` writes to the queue on behalf of the handoff, aside. -/
theorem consider_asides (minConfidence : Rat) (message : Text) (routed : RoutedReply)
    (ticketId : Option Uuid) :
    Moves Asides (HandoffService.consider minConfidence message routed ticketId) := by
  apply consider_moves asides_refl asides_trans
  intro message intent reason proposedReply ticketId env w _
  obtain ⟨-, more, hissued, hmore⟩ := enqueue_owns message intent reason proposedReply ticketId env
    { w with caller := .handoff }
  refine ⟨rfl, more, hissued, ?_⟩
  intro issue hissue
  rw [hmore issue hissue]
  exact (by decide : Caller.handoff ≠ .tool)

/-- The model is not asked. -/
def Mutes (_ : Env) (w w' : RequestState) : Prop := w'.prompts = w.prompts

/-- A step that does nothing asks nothing of the provider. -/
theorem mutes_refl (env : Env) (w : RequestState) : Mutes env w w := rfl

/-- Two `Mutes` steps together ask nothing of the provider. -/
theorem mutes_trans (env : Env) (w₁ w₂ w₃ : RequestState) (h : Mutes env w₁ w₂)
    (h' : Mutes env w₂ w₃) : Mutes env w₁ w₃ := Eq.trans h' h

/-- A statement asks nothing of the provider. -/
theorem statement_mutes {α : Type} (flush : Bool) (reading : Reading)
    (run : Env → Nat → Database → α × Database) :
    Moves Mutes (App.statement flush reading run) := by
  intro env w
  obtain ⟨-, hrun⟩ | ⟨-, fault, -, hrun⟩ | ⟨-, -, hrun⟩ :=
    App.statement_cases flush reading run env w
  all_goals
    rw [hrun]
    rfl

/-- `commit` asks nothing of the provider. -/
theorem commit_mutes : Moves Mutes App.commit := by
  intro env w
  obtain ⟨-, hrun⟩ | ⟨-, hrun⟩ | ⟨-, fault, -, hrun⟩ | ⟨-, -, hrun⟩ := App.commit_cases env w
  all_goals
    rw [hrun]
    rfl

/-- `record` asks nothing of the provider. -/
theorem record_mutes (conversationId : Option Uuid) (role : MessageRole) (content : PyStr)
    (scope : Option OwnerScope) (citations : List Citation) :
    Moves Mutes (AssistantService.record conversationId role content scope citations) := by
  cases conversationId with
  | none => exact .pure mutes_refl _
  | some c =>
    have happend := append_moves mutes_refl mutes_trans (fun _ _ => statement_mutes _ _ _)
      (fun _ _ => statement_mutes _ _ _) commit_mutes c role content citations scope
    exact .bind mutes_trans happend fun _ => .pure mutes_refl _

/-- `enqueue` asks nothing of the provider. -/
theorem enqueue_mutes (message : PyStr) (intent : IntentCategory) (reason : EscalationReason)
    (proposedReply : Option PyStr) (ticketId : Option Uuid) :
    Moves Mutes (ReviewQueue.enqueue message intent reason proposedReply ticketId) := by
  apply Moves.bind mutes_trans (statement_mutes _ _ _)
  intro item
  exact .bind mutes_trans commit_mutes fun _ => .pure mutes_refl _

/-- `consider` asks nothing of the provider. -/
theorem consider_mutes (minConfidence : Rat) (message : Text) (routed : RoutedReply)
    (ticketId : Option Uuid) :
    Moves Mutes (HandoffService.consider minConfidence message routed ticketId) := by
  apply consider_moves mutes_refl mutes_trans
  intro message intent reason proposedReply ticketId env w
  exact enqueue_mutes message intent reason proposedReply ticketId env
    { w with caller := .handoff }

/-! ## Tool calls -/

/-- A tool's one query, of which it makes an output or an error. -/
def queried (reading : Reading) (answer : Env → Database → Except Raised PyValue) : App PyValue := do
  let output ← App.select reading answer
  Effect.ofExcept output

/-- What the executor makes of the end of a call. -/
def resultFrom (name : PyStr) : Except Raised PyValue → ToolResult
  | .ok output => .success name output
  | .error (.tool message retryable) => .failure name .failed message retryable
  | .error _ => .failure name .failed UNEXPECTED_ERROR false

/-- `run` gives what `resultFrom` makes of the call, which it makes as the tool. -/
theorem run_eq (tool : Tool) (call : App PyValue) (env : Env) (w : RequestState) :
    ToolExecutor.run tool call env w =
      (.ok (resultFrom tool.name (call env { w with caller := .tool }).1),
        { (call env { w with caller := .tool }).2 with caller := w.caller }) := by
  unfold ToolExecutor.run
  match hcall : call env { w with caller := .tool } with
  | (.ok output, w') =>
    have hrun : App.onBehalfOf .tool call env w = (.ok output, { w' with caller := w.caller }) := by
      rw [App.onBehalfOf, hcall]
    exact tryCatch_of_ok (bind_of_ok hrun)
  | (.error raised, w') =>
    have hrun : App.onBehalfOf .tool call env w =
        (.error raised, { w' with caller := w.caller }) := by
      rw [App.onBehalfOf, hcall]
    refine (tryCatch_of_error (bind_of_error hrun)).trans ?_
    cases raised <;> rfl

/-- A query issues one statement, and answers only where that is done. -/
theorem queried_issued (reading : Reading) (answer : Env → Database → Except Raised PyValue)
    (env : Env) (w : RequestState) :
    ∃ outcome w', queried reading answer env w =
        (if outcome = .done then answer env w.db else .error .sqlalchemy, w') ∧
      w'.caller = w.caller ∧ w'.prompts = w.prompts ∧
      w'.issued = w.issued ++ [{ caller := w.caller, reading, asked := w.prompts.length, outcome }] := by
  obtain ⟨-, hrun⟩ | ⟨-, fault, -, hrun⟩ | ⟨-, -, hrun⟩ :=
    App.statement_cases false reading (fun env _ db => (answer env db, db)) env w
  · exact ⟨.rejected, _, bind_of_error (x := App.select reading answer) hrun, rfl, rfl, rfl⟩
  · exact ⟨.failed fault w.session false, _, bind_of_error (x := App.select reading answer) hrun,
      rfl, rfl, rfl⟩
  · exact ⟨.done, _, bind_of_ok (x := App.select reading answer) hrun, rfl, rfl, rfl⟩

section Shadowed

variable {A : PyStr} {own rows : List Ticket} {s t : RequestState}

/-- A query that is shadowed leaves the requests alike. -/
theorem queried_shadow (reading : Reading) (answer : Env → Database → Except Raised PyValue)
    (env : Env) (h : Shadow A own rows s t) :
    Shadow A own rows (queried reading answer env s).2 (queried reading answer env t).2 := by
  obtain ⟨s', t', hs, ht, h'⟩ | ⟨s', t', hs, ht, -, -, h'⟩ := select_shadow reading answer env h
  · rw [queried, bind_of_error hs, bind_of_error ht]
    exact h'
  · rw [queried, bind_of_ok hs, bind_of_ok ht]
    exact h'

end Shadowed

/-- What a tool returns for a reading, over the tickets there are. -/
def resultOf (text : TextTables) (rows : List Ticket) : Reading → ToolResult
  | .nothing => .success [] .none
  | .ticket id =>
    match rows.find? fun ticket => ticket.id = id with
    | none => .failure (lit "lookup_ticket") .failed
        (lit "No ticket exists with id " ++ id.str ++ lit ".") false
    | some ticket => .success (lit "lookup_ticket") (LookupTicketTool.describe text ticket)
  | .tickets status limit => .success (lit "list_tickets") (.list
      ((TicketService.page status none limit 0 rows).map (ListTicketsTool.describe text)))

/-- A tool's query, whose answer can show what its reading says. -/
structure Readable (A : PyStr) (own : List Ticket) (env : Env) (name : PyStr) (reading : Reading)
    (answer : Env → Database → Except Raised PyValue) : Prop where
  kept : ¬ Foreign own reading → ∀ a b, Alike A a b → ownTickets A a = own →
    answer env a = answer env b
  shown : Foreign own reading → ∀ db,
    resultFrom name (answer env db) = resultOf env.text db.tickets reading

/-- What is made of what a query found. -/
theorem select_map {α β : Type} (reading : Reading) (query : Env → Database → α)
    (f : Env → α → β) (env : Env) (w : RequestState) :
    (∃ w', App.select reading query env w = (.error .sqlalchemy, w') ∧
      App.select reading (fun env db => f env (query env db)) env w = (.error .sqlalchemy, w')) ∨
    (∃ a w', App.select reading query env w = (.ok a, w') ∧
      App.select reading (fun env db => f env (query env db)) env w = (.ok (f env a), w')) := by
  unfold App.select
  by_cases hsession : w.session = .inactive
  · exact .inl ⟨_, App.statement_of_inactive _ _ _ _ hsession,
      App.statement_of_inactive _ _ _ _ hsession⟩
  · cases hfault : env.faults w.issued.length with
    | some fault => exact .inl ⟨_, App.statement_of_fault _ _ _ _ hsession hfault,
        App.statement_of_fault _ _ _ _ hsession hfault⟩
    | none => exact .inr ⟨_, _, App.statement_of_done _ _ _ _ hsession hfault,
        App.statement_of_done _ _ _ _ hsession hfault⟩

/-! ## The three tools -/

/-- What is made of a ticket that was looked up. -/
def lookupOutput (ticketId : Uuid) (env : Env) : Option Ticket → Except Raised PyValue
  | none => .error (.tool (lit "No ticket exists with id " ++ ticketId.str ++ lit ".") false)
  | some ticket => .ok (LookupTicketTool.describe env.text ticket)

/-- `LookupTicketTool.run` is a query for one ticket. -/
theorem lookup_queried (ticketId : Uuid) :
    LookupTicketTool.run ticketId = queried (.ticket ticketId) fun env db =>
      lookupOutput ticketId env (db.tickets.find? fun ticket => ticket.id = ticketId) := by
  funext env w
  unfold LookupTicketTool.run TicketService.get queried
  obtain ⟨w', hfound, houtput⟩ | ⟨found, w', hfound, houtput⟩ := select_map (.ticket ticketId)
    (fun _ db => db.tickets.find? fun ticket => ticket.id = ticketId) (lookupOutput ticketId) env w
  · rw [bind_of_error houtput]
    exact bind_of_error ((tryCatch_of_error (bind_of_error hfound)).trans rfl)
  · rw [bind_of_ok houtput]
    cases found with
    | none => exact bind_of_error ((tryCatch_of_error (bind_of_ok hfound)).trans rfl)
    | some ticket => exact bind_of_ok (tryCatch_of_ok (bind_of_ok hfound))

/-- What `lookup_ticket` answers depends on the own tickets alone, if its ticket is one of them. -/
theorem lookup_readable (A : PyStr) (own : List Ticket) (env : Env) (ticketId : Uuid) :
    Readable A own env lookupTicketTool.name (.ticket ticketId) fun env db =>
      lookupOutput ticketId env (db.tickets.find? fun ticket => ticket.id = ticketId) where
  kept hforeign a b halike hown := by
    -- The ticket is one of the subject's, and that is what is found in both.
    obtain ⟨ticket, hmem, hid⟩ := List.mem_map.mp (Decidable.not_not.mp hforeign)
    have hfound : ∀ db, Keyed db → ownTickets A db = own →
        (db.tickets.find? fun ticket => ticket.id = ticketId) = some ticket := by
      intro db hkeyed hown
      rw [← hown] at hmem
      rw [← hid]
      exact List.find?_key_of_mem hkeyed.tickets (List.mem_of_mem_filter hmem)
    simp only [hfound a halike.left hown, hfound b halike.right (halike.tickets ▸ hown)]
  shown _ db := by
    simp only [resultOf]
    cases db.tickets.find? fun ticket => ticket.id = ticketId <;> rfl

/-- Listing tickets of a known status. -/
theorem list_queried {params : ListTicketsParams} {env : Env} {w : RequestState}
    {status : Option TicketStatus}
    (hstatus : ListTicketsTool.statusOf params.status env w = (.ok status, w)) :
    ListTicketsTool.run params env w = queried (.tickets status params.limit) (fun env db =>
      .ok (.list ((TicketService.page status none params.limit 0 db.tickets).map
        (ListTicketsTool.describe env.text)))) env w := by
  unfold ListTicketsTool.run TicketService.list queried
  rw [bind_of_ok hstatus]
  obtain ⟨w', hfound, houtput⟩ | ⟨found, w', hfound, houtput⟩ :=
    select_map (.tickets status params.limit)
      (fun _ db => TicketService.page status none params.limit 0 db.tickets)
      (fun env tickets => (.ok (.list (tickets.map (ListTicketsTool.describe env.text))) :
        Except Raised PyValue)) env w
  · rw [bind_of_error hfound, bind_of_error houtput]
  · rw [bind_of_ok hfound, bind_of_ok houtput]
    rfl

/-- What `list_tickets` answers does not, but its query is told apart. -/
theorem list_readable (A : PyStr) (own : List Ticket) (env : Env) (status : Option TicketStatus)
    {limit : Nat} (hlimit : 0 < limit) :
    Readable A own env listTicketsTool.name (.tickets status limit) fun env db =>
      .ok (.list ((TicketService.page status none limit 0 db.tickets).map
        (ListTicketsTool.describe env.text))) where
  kept hforeign a b halike hown := by
    -- Every id there is is one of the subject's, and so is every ticket.
    have hids : ∀ id, id ∈ own.map (·.id) := by
      intro id
      by_contra hfresh
      exact hforeign ⟨hlimit, id, hfresh⟩
    have hall : ∀ db, Keyed db → ownTickets A db = own → db.tickets = own := by
      intro db hkeyed hown
      rw [← hown]
      refine (List.filter_eq_self.mpr ?_).symm
      intro ticket hmem
      obtain ⟨mine, hmine, hid⟩ := List.mem_map.mp (hids ticket.id)
      rw [← hown] at hmine
      obtain ⟨hlisted, howner⟩ := List.mem_filter.mp hmine
      rw [← List.inj_on_of_nodup_map hkeyed.tickets hlisted hmem hid]
      exact howner
    rw [hall a halike.left hown, hall b halike.right (halike.tickets ▸ hown)]
  shown _ db := rfl

/-- What a search finds in a database. -/
private def found (params : SearchKnowledgeBaseParams) (env : Env) (db : Database) :
    List RetrievedChunk :=
  (env.nearest params.query.val params.topK (DocumentService.titled db)).map
    fun (chunk, title, distance) => {
      chunkId := chunk.id
      documentId := chunk.documentId
      documentTitle := title
      ordinal := chunk.ordinal
      content := chunk.content
      distance }

/-- `search` selects the chunks it has found. -/
private theorem search_eq (params : SearchKnowledgeBaseParams) :
    DocumentService.search params.query.val params.topK = App.select .nothing (found params) := rfl

/-- `SearchKnowledgeBaseTool.run` is a query that reads no ticket. -/
theorem search_queried (params : SearchKnowledgeBaseParams) :
    ∃ answer, SearchKnowledgeBaseTool.run params = queried .nothing answer ∧
      ∀ A own env name, Readable A own env name .nothing answer := by
  refine ⟨fun env db => .ok (.list ((found params env db).map SearchKnowledgeBaseTool.describe)),
    ?_, ?_⟩
  · funext env w
    rw [SearchKnowledgeBaseTool.run, search_eq, queried]
    obtain ⟨w', hfound, houtput⟩ | ⟨hits, w', hfound, houtput⟩ := select_map .nothing
      (found params) (fun _ hits => (.ok (.list (hits.map SearchKnowledgeBaseTool.describe)) :
        Except Raised PyValue)) env w
    · rw [bind_of_error hfound, bind_of_error houtput]
    · rw [bind_of_ok hfound, bind_of_ok houtput]
      rfl
  · intro A own env name
    exact {
      kept := fun _ a b halike _ => by
        simp only [found, DocumentService.titled, halike.chunks, halike.documents]
      shown := fun hforeign => hforeign.elim }

/-- A status that is asked for is known, or it is not. -/
theorem statusOf_cases (status : Option PyStr) (env : Env) :
    (∃ known, ∀ w, ListTicketsTool.statusOf status env w = (.ok known, w)) ∨
    (∃ raised, ∀ w, ListTicketsTool.statusOf status env w = (.error raised, w)) := by
  cases status with
  | none => exact .inl ⟨none, fun w => rfl⟩
  | some value =>
    cases hvalue : TicketStatus.ofValue value with
    | some known =>
      refine .inl ⟨some known, fun w => ?_⟩
      simp only [ListTicketsTool.statusOf, bind_of_ok (ask_run env w), hvalue]
      rfl
    | none =>
      right
      simp only [ListTicketsTool.statusOf, bind_of_ok (ask_run env _), hvalue]
      exact ⟨_, fun w => rfl⟩

/-- A call of the executor's queries the database once, and shows what it read, or it does
    not touch the database. -/
theorem execute_cases (A : PyStr) (own : List Ticket) (name : PyStr)
    (params : List (PyStr × PyValue)) (env : Env) :
    (∃ result, ∀ w, ToolExecutor.execute toolRegistry name params env w = (.ok result, w)) ∨
    (∃ tool reading answer, Readable A own env tool.name reading answer ∧
      ∀ w, ToolExecutor.execute toolRegistry name params env w =
        ToolExecutor.run tool (queried reading answer) env w) := by
  cases hget : toolRegistry.get name with
  -- An unknown tool or invalid parameters issue no statement
  | none => exact .inl ⟨_, ToolExecutor.execute_of_missing hget⟩
  | some tool =>
    cases hinvoke : tool.invoke env.parse params with
    | error errors => exact .inl ⟨_, ToolExecutor.execute_of_invalid hget hinvoke⟩
    | ok call =>
      have hexecute := ToolExecutor.execute_of_valid hget hinvoke
      rw [toolRegistry_get] at hget
      split at hget
      · obtain rfl := Option.some.inj hget
        obtain ⟨ticketId, -, rfl⟩ := of_map_eq_ok hinvoke
        rw [lookup_queried] at hexecute
        exact .inr ⟨_, _, _, lookup_readable A own env ticketId, hexecute⟩
      · split at hget
        · obtain rfl := Option.some.inj hget
          obtain ⟨parsed, -, rfl⟩ := of_map_eq_ok hinvoke
          obtain ⟨status, hstatus⟩ | ⟨raised, hraised⟩ := statusOf_cases parsed.status env
          · refine .inr ⟨_, _, _, list_readable A own env status parsed.limit.property.1, ?_⟩
            intro w
            rw [hexecute w, run_eq, run_eq, list_queried (hstatus _)]
          · refine .inl ⟨resultFrom listTicketsTool.name (.error raised), ?_⟩
            intro w
            have hcall : ListTicketsTool.run parsed env { w with caller := .tool } =
                (.error raised, { w with caller := .tool }) := bind_of_error (hraised _)
            rw [hexecute w, run_eq, hcall]
        · split at hget
          · obtain rfl := Option.some.inj hget
            obtain ⟨parsed, -, rfl⟩ := of_map_eq_ok hinvoke
            obtain ⟨answer, hqueried, hreadable⟩ := search_queried parsed
            rw [hqueried] at hexecute
            exact .inr ⟨_, _, _, hreadable A own env _, hexecute⟩
          · cases hget

/-! ## One call in two runs -/

/-- What a run of a query issues, and what it comes to. -/
theorem ran_issued (tool : Tool) (reading : Reading)
    (answer : Env → Database → Except Raised PyValue) (env : Env) (w : RequestState) :
    ∃ outcome w', ToolExecutor.run tool (queried reading answer) env w =
        (.ok (resultFrom tool.name
          (if outcome = .done then answer env w.db else .error .sqlalchemy)), w') ∧
      w'.caller = w.caller ∧ w'.prompts = w.prompts ∧
      w'.issued = w.issued ++ [{ caller := .tool, reading, asked := w.prompts.length, outcome }] := by
  obtain ⟨outcome, w', hquery, -, hprompts, hissued⟩ :=
    queried_issued reading answer env { w with caller := .tool }
  refine ⟨outcome, { w' with caller := w.caller }, ?_, rfl, hprompts, hissued⟩
  rw [run_eq, hquery]

section Calls

variable {A : PyStr} {own rows : List Ticket} {s t : RequestState}
  (name : PyStr) (params : List (PyStr × PyValue)) (env : Env)

/-- A call leaves two requests alike, and returns the same in both unless it strays. -/
theorem execute_together (h : Shadow A own rows s t) :
    Shadow A own rows (ToolExecutor.execute toolRegistry name params env s).2
      (ToolExecutor.execute toolRegistry name params env t).2 ∧
    (Confined own (ToolExecutor.execute toolRegistry name params env s).2 →
      (ToolExecutor.execute toolRegistry name params env s).1 =
        (ToolExecutor.execute toolRegistry name params env t).1) := by
  obtain ⟨result, hresult⟩ | ⟨tool, reading, answer, hreadable, hrun⟩ :=
    execute_cases A own name params env
  · rw [hresult, hresult]
    exact ⟨h, fun _ => rfl⟩
  · have hshadow := (queried_shadow reading answer env (h.onBehalfOf .tool)).onBehalfOf s.caller
    have hafter : Shadow A own rows (ToolExecutor.run tool (queried reading answer) env s).2
        (ToolExecutor.run tool (queried reading answer) env t).2 := by
      rw [run_eq, run_eq, ← h.caller]
      exact hshadow
    obtain ⟨outcome, s', hs, -, -, hissued⟩ := ran_issued tool reading answer env s
    obtain ⟨outcome', t', ht, -, -, hissued'⟩ := ran_issued tool reading answer env t
    rw [hrun, hrun, hs, ht]
    rw [hs, ht] at hafter
    refine ⟨hafter, ?_⟩
    intro hconfined
    -- What was issued is the same in both, and so is how it ended.
    have hsame : outcome = outcome' := by
      have hboth := hafter.issued
      rw [hissued, hissued', h.issued] at hboth
      simpa [h.prompts] using List.append_cancel_left hboth
    subst hsame
    by_cases hdone : outcome = .done
    -- A confined run has read nothing foreign
    · have hkept : ¬ Foreign own reading := by
        intro hforeign
        have hlast : ({ caller := .tool, reading, asked := s.prompts.length, outcome } : Issue) ∈
            s'.issued := by
          rw [hissued]
          exact List.mem_append_right _ List.mem_cons_self
        exact hconfined.issued _ hlast ⟨rfl, hdone, hforeign⟩
      simp only [if_pos hdone, hreadable.kept hkept s.db t.db h.db h.own.1]
    · simp only [if_neg hdone]

/-- A tool has just read beyond the subject's own. -/
structure Strayed (own : List Ticket) (reading : Reading) (w : RequestState) : Prop where
  foreign : Foreign own reading
  last : ∃ issue ∈ w.issued, Strays own issue ∧ issue.asked = w.prompts.length
  discreet : Discreet own w

/-- A call that strays shows what it read, whatever that is. -/
theorem execute_strays (A : PyStr) (hs : Confined own s)
    (hstrays : ¬ Confined own (ToolExecutor.execute toolRegistry name params env s).2) :
    ∃ reading, Strayed own reading (ToolExecutor.execute toolRegistry name params env s).2 ∧
      ∀ t rows, Shadow A own rows s t →
        (ToolExecutor.execute toolRegistry name params env t).1 =
          .ok (resultOf env.text rows reading) := by
  obtain ⟨result, hresult⟩ | ⟨tool, reading, answer, hreadable, hrun⟩ :=
    execute_cases A own name params env
  · rw [hresult] at hstrays
    exact absurd hs hstrays
  · obtain ⟨outcome, s', hran, hcaller, hprompts, hissued⟩ := ran_issued tool reading answer env s
    rw [hrun, hran] at hstrays ⊢
    have hlast : ({ caller := .tool, reading, asked := s.prompts.length, outcome } : Issue) ∈
        s'.issued := by
      rw [hissued]
      exact List.mem_append_right _ List.mem_cons_self
    -- Whatever strays is the last statement.
    have honly : ∀ issue ∈ s'.issued, Strays own issue →
        issue = { caller := .tool, reading, asked := s.prompts.length, outcome } := by
      intro issue hissue hstrays
      rw [hissued] at hissue
      cases List.mem_append.mp hissue with
      | inl hbefore => exact absurd hstrays (hs.issued issue hbefore)
      | inr hlast => exact List.mem_singleton.mp hlast
    have hlastStrays : Strays own { caller := .tool, reading, asked := s.prompts.length, outcome } := by
      by_contra hnot
      refine hstrays ⟨hcaller ▸ hs.caller, fun issue hissue hstrays => hnot ?_⟩
      rw [← honly issue hissue hstrays]
      exact hstrays
    refine ⟨reading, ⟨hlastStrays.reading, ⟨_, hlast, hlastStrays, by rw [hprompts]⟩, ?_⟩, ?_⟩
    · intro issue hissue hstrays
      rw [honly issue hissue hstrays, hprompts]
    · intro t rows h
      obtain ⟨outcome', t', hran', -, -, hissued'⟩ := ran_issued tool reading answer env t
      have hboth := (execute_together name params env h).1.issued
      rw [hrun, hrun, hran, hran', hissued, hissued', h.issued] at hboth
      have hsame : outcome = outcome' := by simpa [h.prompts] using List.append_cancel_left hboth
      have hdone : outcome' = .done := hsame ▸ hlastStrays.outcome
      rw [hrun, hran', if_pos hdone, hreadable.shown hlastStrays.reading, h.rows.1]

end Calls

/-! ## Two runs -/

/-- Whatever tickets there are, a run over them shows the model what a tool has read of
    them, in the prompt after some prompts that do not depend on them. -/
def Leaks {α : Type} (A : PyStr) (own : List Ticket) (x : App α) (env : Env) (s : RequestState) :
    Prop :=
  ∃ (agent : AgentLoop) (state : AgentState) (tool : PyStr) (reading : Reading)
    (before : List LLMPrompt), Foreign own reading ∧
    ∀ t rows, Shadow A own rows s t →
      before ++ [agent.prompt env.text
        (state.recordToolCall tool (resultOf env.text rows reading))] <+: (x env t).2.prompts

/-- Two runs stay together while they are discreet, and leak what others have where they
    are not. -/
structure Tracks {α : Type} (A : PyStr) (own : List Ticket) (x : App α) : Prop where
  caller : ∀ env s, s.caller ≠ .tool → (x env s).2.caller = s.caller
  together : ∀ env s, Confined own s → Discreet own (x env s).2 →
    ∀ t rows, Shadow A own rows s t →
      (x env s).1 = (x env t).1 ∧ Shadow A own rows (x env s).2 (x env t).2
  leaks : ∀ env s, Confined own s → ¬ Discreet own (x env s).2 → Leaks A own x env s

/-- Code that the subject's scope is given to, and that calls no tools. -/
structure Scoped {α : Type} (A : PyStr) (own : List Ticket) (x : App α) : Prop where
  together : ∀ rows, Lockstep (Shadow A own rows) x
  asides : Moves Asides x

section Tracks

variable {A : PyStr} {own : List Ticket} {α β : Type}

/-- What is done aside leaves a request confined. -/
theorem Confined.aside {w w' : RequestState} (h : Confined own w) (haside : Aside w w') :
    Confined own w' := by
  obtain ⟨hcaller, more, hissued, hmore⟩ := haside
  refine ⟨hcaller ▸ h.caller, fun issue hissue hstrays => ?_⟩
  rw [hissued] at hissue
  cases List.mem_append.mp hissue with
  | inl hbefore => exact h.issued issue hbefore hstrays
  | inr hlast => exact hmore issue hlast hstrays.caller

/-- What is issued aside, with the model not asked, does not matter. -/
theorem discreet_aside {w w' : RequestState} (haside : Aside w w')
    (hprompts : w'.prompts = w.prompts) : Discreet own w' ↔ Discreet own w := by
  obtain ⟨-, more, hissued, hmore⟩ := haside
  unfold Discreet
  rw [hissued, hprompts]
  constructor
  · intro h issue hissue
    exact h issue (List.mem_append_left _ hissue)
  · intro h issue hissue hstrays
    cases List.mem_append.mp hissue with
    | inl hbefore => exact h issue hbefore hstrays
    | inr hlast => exact absurd hstrays.caller (hmore issue hlast)

/-- A program that returns is scoped. -/
theorem Scoped.pure (a : α) : Scoped A own (Pure.pure a : App α) :=
  ⟨fun _ => .pure a, .pure asides_refl a⟩

/-- A program that asks for its environment is scoped. -/
theorem Scoped.ask : Scoped A own Effect.ask := ⟨fun _ => .ask, .ask asides_refl⟩

/-- Two scoped programs, one after the other, are scoped. -/
theorem Scoped.bind {x : App α} {f : α → App β} (hx : Scoped A own x)
    (hf : ∀ a, Scoped A own (f a)) : Scoped A own (x >>= f) :=
  ⟨fun rows => (hx.together rows).bind fun a => (hf a).together rows,
    .bind asides_trans hx.asides fun a => (hf a).asides⟩

/-- What is scoped can be followed in the shadow. -/
theorem Scoped.tracks {x : App α} (h : Scoped A own x) : Tracks A own x where
  caller env s hcaller := (h.asides env s hcaller).caller
  together env s _ _ t rows hshadow := h.together rows env s t hshadow
  leaks env s hs hdiscreet := absurd (hs.aside (h.asides env s hs.caller)).discreet hdiscreet

/-- Scoped code may go before. -/
theorem Tracks.after {x : App α} {f : α → App β} (hx : Scoped A own x)
    (hf : ∀ a, Tracks A own (f a)) : Tracks A own (x >>= f) where
  caller env s hcaller := by
    have hfirst := (hx.asides env s hcaller).caller
    match hrun : x env s with
    | (.error raised, s') =>
      rw [hrun] at hfirst
      rw [bind_of_error hrun]
      exact hfirst
    | (.ok a, s') =>
      rw [hrun] at hfirst
      rw [bind_of_ok hrun, (hf a).caller env s' (hfirst ▸ hcaller)]
      exact hfirst
  -- What the first part returns is the same in both runs
  together env s hs hdiscreet t rows h := by
    have hconfined := hs.aside (hx.asides env s hs.caller)
    obtain ⟨hresult, hstate⟩ := hx.together rows env s t h
    match hrun : x env s, hrun' : x env t with
    | (.error raised, s'), (r, t') =>
      rw [hrun, hrun'] at hresult hstate
      obtain rfl : r = .error raised := hresult.symm
      rw [bind_of_error hrun, bind_of_error hrun']
      exact ⟨rfl, hstate⟩
    | (.ok a, s'), (r, t') =>
      rw [hrun, hrun'] at hresult hstate
      obtain rfl : r = .ok a := hresult.symm
      rw [hrun] at hconfined
      rw [bind_of_ok hrun] at hdiscreet ⊢
      rw [bind_of_ok hrun']
      exact (hf a).together env s' hconfined hdiscreet t' rows hstate
  -- And since it strays nowhere, the leak is in the second
  leaks env s hs hdiscreet := by
    have hconfined := hs.aside (hx.asides env s hs.caller)
    match hrun : x env s with
    | (.error raised, s') =>
      rw [hrun] at hconfined
      rw [bind_of_error hrun] at hdiscreet
      exact absurd hconfined.discreet hdiscreet
    | (.ok a, s') =>
      rw [hrun] at hconfined
      rw [bind_of_ok hrun] at hdiscreet
      obtain ⟨agent, state, tool, reading, before, hforeign, hleak⟩ :=
        (hf a).leaks env s' hconfined hdiscreet
      refine ⟨agent, state, tool, reading, before, hforeign, fun t rows h => ?_⟩
      obtain ⟨hresult, hstate⟩ := hx.together rows env s t h
      match hrun' : x env t with
      | (r, t') =>
        rw [hrun, hrun'] at hresult hstate
        obtain rfl : r = .ok a := hresult.symm
        rw [bind_of_ok hrun']
        exact hleak t' rows hstate

/-- Scoped code that does not ask the model may go after. -/
theorem Tracks.before {x : App α} {f : α → App β} (hx : Tracks A own x)
    (hf : ∀ a, Scoped A own (f a)) (hmutes : ∀ a, Moves Mutes (f a)) : Tracks A own (x >>= f) := by
  -- Nothing after `x` changes what has strayed, or what the model was asked.
  have hlater : ∀ env s, s.caller ≠ .tool →
      Aside (x env s).2 ((x >>= f) env s).2 ∧
        ((x >>= f) env s).2.prompts = (x env s).2.prompts := by
    intro env s hcaller
    have hkept := hx.caller env s hcaller
    match hrun : x env s with
    | (.error raised, s') =>
      rw [hrun] at hkept
      rw [bind_of_error hrun]
      exact ⟨asides_refl env s' (hkept ▸ hcaller), rfl⟩
    | (.ok a, s') =>
      rw [hrun] at hkept
      rw [bind_of_ok hrun]
      exact ⟨(hf a).asides env s' (hkept ▸ hcaller), hmutes a env s'⟩
  constructor
  · intro env s hcaller
    rw [(hlater env s hcaller).1.caller, hx.caller env s hcaller]
  -- Both runs of the first part end alike when it is discreet
  · intro env s hs hdiscreet t rows h
    obtain ⟨haside, hprompts⟩ := hlater env s hs.caller
    obtain ⟨hresult, hstate⟩ :=
      hx.together env s hs ((discreet_aside haside hprompts).mp hdiscreet) t rows h
    match hrun : x env s, hrun' : x env t with
    | (.error raised, s'), (r, t') =>
      rw [hrun, hrun'] at hresult hstate
      obtain rfl : r = .error raised := hresult.symm
      rw [bind_of_error hrun, bind_of_error hrun']
      exact ⟨rfl, hstate⟩
    | (.ok a, s'), (r, t') =>
      rw [hrun, hrun'] at hresult hstate
      obtain rfl : r = .ok a := hresult.symm
      rw [bind_of_ok hrun, bind_of_ok hrun']
      exact (hf a).together rows env s' t' hstate
  -- A leak is one of the first part
  · intro env s hs hdiscreet
    obtain ⟨haside, hprompts⟩ := hlater env s hs.caller
    obtain ⟨agent, state, tool, reading, before, hforeign, hleak⟩ :=
      hx.leaks env s hs (mt (discreet_aside haside hprompts).mpr hdiscreet)
    refine ⟨agent, state, tool, reading, before, hforeign, fun t rows h => ?_⟩
    rw [(hlater env t (h.caller ▸ hs.caller)).2]
    exact hleak t rows h

/-- What is made of the end of a run does not matter. -/
theorem Tracks.mapResult {x : App α} {y : App β} (g : Except Raised α → Except Raised β)
    (hy : ∀ env w, y env w = (g (x env w).1, (x env w).2)) (hx : Tracks A own x) :
    Tracks A own y where
  caller env s hcaller := by
    rw [hy]
    exact hx.caller env s hcaller
  together env s hs hdiscreet t rows h := by
    rw [hy] at hdiscreet
    obtain ⟨hresult, hstate⟩ := hx.together env s hs hdiscreet t rows h
    rw [hy, hy]
    exact ⟨congrArg g hresult, hstate⟩
  leaks env s hs hdiscreet := by
    rw [hy] at hdiscreet
    obtain ⟨agent, state, tool, reading, before, hforeign, hleak⟩ := hx.leaks env s hs hdiscreet
    refine ⟨agent, state, tool, reading, before, hforeign, fun t rows h => ?_⟩
    rw [hy]
    exact hleak t rows h

/-- Nor does it that a session is opened and closed around it. -/
theorem Tracks.inNewSession {x : App α} (hx : Tracks A own x) :
    Tracks A own (App.inNewSession x) := by
  -- A new session begins with the committed rows
  have hrenewed : ∀ {s : RequestState}, Confined own s →
      Confined own { s with db := s.committed, session := .idle } := fun h => ⟨h.caller, h.issued⟩
  constructor
  · intro env s hcaller
    unfold App.inNewSession
    split
    · exact hx.caller env { s with db := s.committed, session := .idle } hcaller
    · rfl
  · intro env s hs hdiscreet t rows h
    unfold App.inNewSession at hdiscreet ⊢
    split
    · rename_i hconfigured
      rw [if_pos hconfigured] at hdiscreet
      obtain ⟨hresult, hstate⟩ :=
        hx.together env _ (hrenewed hs) hdiscreet _ rows h.renewed
      exact ⟨hresult, hstate.renewed⟩
    · exact ⟨rfl, h⟩
  · intro env s hs hdiscreet
    by_cases hconfigured : env.settings.databaseConfigured = true
    · have hopened : ∀ w, (App.inNewSession x env w).2.prompts =
          (x env { w with db := w.committed, session := .idle }).2.prompts := by
        intro w
        rw [App.inNewSession, if_pos hconfigured]
      rw [App.inNewSession, if_pos hconfigured] at hdiscreet
      obtain ⟨agent, state, tool, reading, before, hforeign, hleak⟩ :=
        hx.leaks env _ (hrenewed hs) hdiscreet
      refine ⟨agent, state, tool, reading, before, hforeign, fun t rows h => ?_⟩
      rw [hopened t]
      exact hleak _ rows h.renewed
    · rw [App.inNewSession, if_neg hconfigured] at hdiscreet
      exact absurd hs.discreet hdiscreet

end Tracks

/-! ## The agent -/

/-- Prompts and statements are only added. -/
structure Grows (_ : Env) (w w' : RequestState) : Prop where
  caller : w'.caller = w.caller
  prompts : w.prompts <+: w'.prompts
  issued : w.issued <+: w'.issued

/-- What writes its own rows and asks more of the provider grows. -/
theorem grows_of_owns {env : Env} {w w' : RequestState} (h : Own w w')
    (hprompts : w.prompts <+: w'.prompts) : Grows env w w' where
  caller := h.caller
  prompts := hprompts
  issued := by
    obtain ⟨more, hissued, -⟩ := h.issued
    rw [hissued]
    exact List.prefix_append _ _

/-- `Grows` is a footprint. -/
theorem grows_footprint : Footprint Grows where
  refl env w := ⟨rfl, List.prefix_refl _, List.prefix_refl _⟩
  trans env w₁ w₂ w₃ h h' :=
    ⟨h'.caller.trans h.caller, h.prompts.trans h'.prompts, h.issued.trans h'.issued⟩
  select reading query env w := by
    have hmutes := statement_mutes false reading (fun env _ db => (query env db, db)) env w
    exact grows_of_owns (statement_owns _ _ _ env w) ⟨[], (List.append_nil _).trans hmutes.symm⟩
  complete answer prompt env w := by
    apply grows_of_owns (complete_owns answer prompt env w)
    rw [App.complete_state]
    exact List.prefix_append _ _
  enqueue message intent reason proposedReply ticketId env w := by
    have howns := enqueue_owns message intent reason proposedReply ticketId env
      { w with caller := .handoff }
    have hmutes := enqueue_mutes message intent reason proposedReply ticketId env
      { w with caller := .handoff }
    have hgrows : Grows env { w with caller := .handoff } _ :=
      grows_of_owns howns ⟨[], (List.append_nil _).trans hmutes.symm⟩
    exact ⟨rfl, hgrows.prompts, hgrows.issued⟩
  tool hx env w := by
    have hgrows := hx env { w with caller := .tool }
    exact ⟨rfl, hgrows.prompts, hgrows.issued⟩

/-- What the handler makes of the rest of a run. -/
def responding (agent : AgentLoop) (state : AgentState) : App HandlerResponse := do
  let outcome ← agent.loop state
  pure (AgentHandler.responseOf outcome)

section Responding

variable {agent : AgentLoop} {state : AgentState} {env : Env} {w w' : RequestState}

/-- A spent budget ends `responding` with `BUDGET_ANSWER`. -/
theorem responding_of_exhausted {reason : PyStr} (h : state.exhausted = some reason) :
    responding agent state env w =
      (.ok (AgentHandler.responseOf (finish state BUDGET_ANSWER false reason)), w) := by
  unfold responding
  rw [loop_of_exhausted h]
  rfl

/-- A provider that fails ends it with `PROVIDER_ANSWER`. -/
theorem responding_of_failed {error : LLMError} (hgo : state.exhausted = none)
    (hdecide : env.provider.agentDecision w.prompts (agent.prompt env.text state) = .error error) :
    responding agent state env w = (.ok (AgentHandler.responseOf
        (finish state PROVIDER_ANSWER false (lit "provider_unavailable"))),
      w.sendPrompt (agent.prompt env.text state)) := by
  have hrun := decide_run agent state env w
  rw [hdecide] at hrun
  exact bind_of_ok (loop_of_failed hgo hrun)

/-- A decision without a tool ends it with its answer. -/
theorem responding_of_answered {decision : AgentDecision} (hgo : state.exhausted = none)
    (hdecide : env.provider.agentDecision w.prompts (agent.prompt env.text state) = .ok decision)
    (htool : decision.tool = none) :
    responding agent state env w = (.ok (AgentHandler.responseOf
        (finish state.recordAnswer (answerOr decision.finalAnswer) true (lit "answered"))),
      w.sendPrompt (agent.prompt env.text state)) := by
  have hrun := decide_run agent state env w
  rw [hdecide] at hrun
  have hloop := loop_of_decided hgo hrun
  rw [htool] at hloop
  exact bind_of_ok hloop

/-- A decision for a tool calls it and goes on. -/
theorem responding_of_called {decision : AgentDecision} {tool : PyStr} {result : ToolResult}
    (hgo : state.exhausted = none)
    (hdecide : env.provider.agentDecision w.prompts (agent.prompt env.text state) = .ok decision)
    (htool : decision.tool = some tool)
    (hexecute : agent.execute tool decision.toolParams env
      (w.sendPrompt (agent.prompt env.text state)) = (.ok result, w')) :
    responding agent state env w =
      responding agent (state.recordToolCall tool result) env w' := by
  have hrun := decide_run agent state env w
  rw [hdecide] at hrun
  have hloop := loop_of_called hgo hrun htool hexecute
  have hmap : ∀ {x y : App AgentOutcome} {v w : RequestState}, x env v = y env w →
      (do
        let outcome ← x
        pure (AgentHandler.responseOf outcome) : App HandlerResponse) env v =
      (do
        let outcome ← y
        pure (AgentHandler.responseOf outcome) : App HandlerResponse) env w := by
    intro x y v w h
    match hx : y env w with
    | (.ok outcome, w') => rw [bind_of_ok (h.trans hx), bind_of_ok hx]
    | (.error raised, w') => rw [bind_of_error (h.trans hx), bind_of_error hx]
  exact hmap hloop

end Responding

section Agent

variable (budget : AgentBudget)

/-- `responding` only grows the request. -/
theorem responding_grows (state : AgentState) :
    Moves Grows (responding (buildAgent budget) state) :=
  .bind grows_footprint.trans (grows_footprint.loop_moves grows_footprint.execute_moves state)
    fun _ => .pure grows_footprint.refl _

/-- A run that has not spent its budget shows the model the prompt of its state. -/
theorem responding_sends {state : AgentState} (hgo : state.exhausted = none) (env : Env)
    (w : RequestState) :
    w.prompts ++ [(buildAgent budget).prompt env.text state] <+:
      (responding (buildAgent budget) state env w).2.prompts := by
  cases hdecide : env.provider.agentDecision w.prompts
      ((buildAgent budget).prompt env.text state) with
  | error error =>
    rw [responding_of_failed hgo hdecide]
    exact List.prefix_refl _
  | ok decision =>
    cases htool : decision.tool with
    | none =>
      rw [responding_of_answered hgo hdecide htool]
      exact List.prefix_refl _
    | some tool =>
      obtain ⟨result, w', hexecute⟩ := execute_returns toolRegistry tool decision.toolParams env
        (w.sendPrompt ((buildAgent budget).prompt env.text state))
      rw [responding_of_called hgo hdecide htool hexecute]
      have hcall := grows_footprint.execute_moves tool decision.toolParams env
        (w.sendPrompt ((buildAgent budget).prompt env.text state))
      rw [hexecute] at hcall
      exact hcall.prompts.trans (responding_grows budget _ env _).prompts

/-- A run that strays and is not over asks the model again, and shows it what was read. -/
theorem responding_leaks {A : PyStr} {own : List Ticket} {state : AgentState} {env : Env}
    {s : RequestState} {tool : PyStr} {decision : AgentDecision} {reading : Reading}
    (hgo : state.exhausted = none)
    (hdecide : env.provider.agentDecision s.prompts ((buildAgent budget).prompt env.text state) =
      .ok decision)
    (htool : decision.tool = some tool) (hforeign : Foreign own reading)
    (hshown : ∀ t rows, Shadow A own rows
        (s.sendPrompt ((buildAgent budget).prompt env.text state)) t →
      (ToolExecutor.execute toolRegistry tool decision.toolParams env t).1 =
        .ok (resultOf env.text rows reading))
    (hnext : ∀ result, (state.recordToolCall tool result).exhausted = none) :
    Leaks A own (responding (buildAgent budget) state) env s := by
  refine ⟨buildAgent budget, state, tool, reading, (ToolExecutor.execute toolRegistry tool
    decision.toolParams env (s.sendPrompt ((buildAgent budget).prompt env.text state))).2.prompts,
    hforeign, fun t rows h => ?_⟩
  have hsent := h.sendPrompt ((buildAgent budget).prompt env.text state)
  have hresult := hshown _ rows hsent
  rw [h.prompts] at hdecide
  rw [responding_of_called hgo hdecide htool (Prod.ext hresult rfl)]
  have hafter := (execute_together tool decision.toolParams env hsent).1
  rw [hafter.prompts]
  exact responding_sends budget (hnext _) env _

/-- A run that strays and is not over is not discreet. -/
theorem responding_not_discreet {own : List Ticket} {state : AgentState} {reading : Reading}
    (hgo : state.exhausted = none) (env : Env) {w : RequestState}
    (hstrayed : Strayed own reading w) :
    ¬ Discreet own (responding (buildAgent budget) state env w).2 := by
  intro hdiscreet
  obtain ⟨issue, hissue, hstrays, hasked⟩ := hstrayed.last
  have hlater := hdiscreet issue
    ((responding_grows budget state env w).issued.subset hissue) hstrays
  have hsends := (responding_sends budget hgo env w).length_le
  rw [List.length_append, List.length_singleton] at hsends
  omega

/-- Whether a run may go on does not depend on what a tool returned. -/
theorem recordToolCall_exhausted {state : AgentState} (tool : PyStr) (result result' : ToolResult)
    (h : (state.recordToolCall tool result).exhausted = none) :
    (state.recordToolCall tool result').exhausted = none := by
  rw [AgentState.exhausted_eq_none_iff] at h ⊢
  simpa using h

section Called

variable {A : PyStr} {own : List Ticket} {state : AgentState} {env : Env} {s : RequestState}
  {tool : PyStr} {decision : AgentDecision}

/-- A run that calls a tool tracks if what follows the call does. -/
theorem responding_together_of_called (hgo : state.exhausted = none)
    (hdecide : env.provider.agentDecision s.prompts ((buildAgent budget).prompt env.text state) =
      .ok decision)
    (htool : decision.tool = some tool) (hs : Confined own s)
    (hnext : ∀ result,
      Tracks A own (responding (buildAgent budget) (state.recordToolCall tool result)))
    (hdiscreet : Discreet own (responding (buildAgent budget) state env s).2) {t : RequestState}
    {rows : List Ticket} (h : Shadow A own rows s t) :
    (responding (buildAgent budget) state env s).1 =
        (responding (buildAgent budget) state env t).1 ∧
      Shadow A own rows (responding (buildAgent budget) state env s).2
        (responding (buildAgent budget) state env t).2 := by
  have hsent := h.sendPrompt ((buildAgent budget).prompt env.text state)
  have hdecide' := hdecide
  rw [h.prompts] at hdecide'
  have hconfined : Confined own (s.sendPrompt ((buildAgent budget).prompt env.text state)) :=
    ⟨hs.caller, hs.issued⟩
  obtain ⟨result, s', hexecute⟩ := execute_returns toolRegistry tool decision.toolParams env
    (s.sendPrompt ((buildAgent budget).prompt env.text state))
  obtain ⟨result', t', hexecute'⟩ := execute_returns toolRegistry tool decision.toolParams env
    (t.sendPrompt ((buildAgent budget).prompt env.text state))
  have hcalled := responding_of_called hgo hdecide htool hexecute
  have hcalled' := responding_of_called hgo hdecide' htool hexecute'
  obtain ⟨hstate, hresult⟩ := execute_together tool decision.toolParams env hsent
  have hstrays := execute_strays tool decision.toolParams env A hconfined
  rw [hexecute] at hstate hresult hstrays
  rw [hexecute'] at hstate hresult
  rw [hcalled] at hdiscreet ⊢
  rw [hcalled']
  -- A tool that read nothing foreign returned the same in both runs
  by_cases hkept : Confined own s'
  · obtain rfl : result = result' := Except.ok.inj (hresult hkept)
    exact (hnext result).together env s' hkept hdiscreet t' rows hstate
  · obtain ⟨reading, hstrayed, -⟩ := hstrays hkept
    cases hspent : (state.recordToolCall tool result).exhausted with
    | none => exact absurd hdiscreet (responding_not_discreet budget hspent env hstrayed)
    | some reason =>
      -- The run is over, and what the tool returned is not looked at.
      cases hspent' : (state.recordToolCall tool result').exhausted with
      | none =>
        rw [recordToolCall_exhausted tool result' result hspent'] at hspent
        exact nomatch hspent
      | some reason' =>
        rw [responding_of_exhausted hspent, responding_of_exhausted hspent']
        exact ⟨rfl, hstate⟩

/-- A run that calls a tool leaks where it strays in the call, or later. -/
theorem responding_leaks_of_called (hgo : state.exhausted = none)
    (hdecide : env.provider.agentDecision s.prompts ((buildAgent budget).prompt env.text state) =
      .ok decision)
    (htool : decision.tool = some tool) (hs : Confined own s)
    (hnext : ∀ result,
      Tracks A own (responding (buildAgent budget) (state.recordToolCall tool result)))
    (hdiscreet : ¬ Discreet own (responding (buildAgent budget) state env s).2) :
    Leaks A own (responding (buildAgent budget) state) env s := by
  have hconfined : Confined own (s.sendPrompt ((buildAgent budget).prompt env.text state)) :=
    ⟨hs.caller, hs.issued⟩
  obtain ⟨result, s', hexecute⟩ := execute_returns toolRegistry tool decision.toolParams env
    (s.sendPrompt ((buildAgent budget).prompt env.text state))
  have hcalled := responding_of_called hgo hdecide htool hexecute
  have hstrays := execute_strays tool decision.toolParams env A hconfined
  rw [hexecute] at hstrays
  rw [hcalled] at hdiscreet
  -- The prompt after the tool that strayed is the first to show it
  by_cases hkept : Confined own s'
  · obtain ⟨agent, last, called, reading, before, hforeign, hleak⟩ :=
      (hnext result).leaks env s' hkept hdiscreet
    refine ⟨agent, last, called, reading, before, hforeign, fun t rows h => ?_⟩
    obtain ⟨hstate, hresult⟩ := execute_together tool decision.toolParams env
      (h.sendPrompt ((buildAgent budget).prompt env.text state))
    rw [hexecute] at hstate hresult
    rw [h.prompts] at hdecide
    obtain ⟨result', t', hexecute'⟩ := execute_returns toolRegistry tool decision.toolParams env
      (t.sendPrompt ((buildAgent budget).prompt env.text state))
    rw [hexecute'] at hstate hresult
    obtain rfl : result = result' := Except.ok.inj (hresult hkept)
    rw [responding_of_called hgo hdecide htool hexecute']
    exact hleak t' rows hstate
  · obtain ⟨reading, hstrayed, hshown⟩ := hstrays hkept
    cases hspent : (state.recordToolCall tool result).exhausted with
    | none =>
      exact responding_leaks budget hgo hdecide htool hstrayed.foreign hshown
        fun other => recordToolCall_exhausted tool result other hspent
    | some reason =>
      rw [responding_of_exhausted hspent] at hdiscreet
      exact absurd hstrayed.discreet hdiscreet

end Called

/-- The agent's handler tracks. -/
theorem responding_tracks (A : PyStr) (own : List Ticket) (state : AgentState) :
    Tracks A own (responding (buildAgent budget) state) := by
  -- By induction on the steps that are left: a tool call uses one up.
  induction hleft : state.remainingSteps using Nat.strongRecOn generalizing state with
  | ind left ih =>
    -- The loop goes on as the induction says
    have hnext : state.exhausted = none → ∀ tool result,
        Tracks A own (responding (buildAgent budget) (state.recordToolCall tool result)) :=
      fun hgo tool result =>
        ih _ (hleft ▸ state.recordToolCall_remainingSteps hgo tool result) _ rfl
    refine ⟨fun env s _ => (responding_grows budget state env s).caller, ?_, ?_⟩
    · intro env s hs hdiscreet t rows h
      have hsent := h.sendPrompt ((buildAgent budget).prompt env.text state)
      cases hgo : state.exhausted with
      | some reason =>
        rw [responding_of_exhausted hgo, responding_of_exhausted hgo]
        exact ⟨rfl, h⟩
      | none =>
        cases hdecide : env.provider.agentDecision s.prompts
            ((buildAgent budget).prompt env.text state) with
        | error error =>
          rw [responding_of_failed hgo hdecide, responding_of_failed hgo (h.prompts ▸ hdecide)]
          exact ⟨rfl, hsent⟩
        | ok decision =>
          cases htool : decision.tool with
          | none =>
            rw [responding_of_answered hgo hdecide htool,
              responding_of_answered hgo (h.prompts ▸ hdecide) htool]
            exact ⟨rfl, hsent⟩
          | some tool =>
            exact responding_together_of_called budget hgo hdecide htool hs (hnext hgo tool)
              hdiscreet h
    · intro env s hs hdiscreet
      have hsent : Confined own (s.sendPrompt ((buildAgent budget).prompt env.text state)) :=
        ⟨hs.caller, hs.issued⟩
      cases hgo : state.exhausted with
      | some reason =>
        rw [responding_of_exhausted hgo] at hdiscreet
        exact absurd hs.discreet hdiscreet
      | none =>
        cases hdecide : env.provider.agentDecision s.prompts
            ((buildAgent budget).prompt env.text state) with
        | error error =>
          rw [responding_of_failed hgo hdecide] at hdiscreet
          exact absurd hsent.discreet hdiscreet
        | ok decision =>
          cases htool : decision.tool with
          | none =>
            rw [responding_of_answered hgo hdecide htool] at hdiscreet
            exact absurd hsent.discreet hdiscreet
          | some tool =>
            exact responding_leaks_of_called budget hgo hdecide htool hs (hnext hgo tool) hdiscreet

end Agent

end NexaAssist.Spec.StrayReading
