import NexaAssist.Services.Knowledge
import NexaAssist.Services.Records
import NexaAssist.Tools.Execution

/-!
# The tools there are

Looking up a ticket, listing tickets, searching the documentation. Each returns plain
data. They hold the services of the request, and give them no scope.
-/

namespace NexaAssist

open PyJson

/-- A string under a key, in a tool's output. -/
def field (key : String) (value : PyStr) : PyKey × PyValue := (.str (lit key), .str value)

/-! ## Tickets -/

namespace LookupTicketTool

/-- What is returned for a ticket. -/
def describe (text : TextTables) (ticket : Ticket) : PyValue :=
  .dict [
    field "id" ticket.id.str,
    field "customer_id" ticket.customerId.str,
    field "subject" ticket.subject,
    field "body" ticket.body,
    field "status" ticket.status.value,
    field "created_at" (text.isoformat ticket.createdAt)]

def run (ticketId : Uuid) : App PyValue := do
  let ticket ← tryCatch (TicketService.get ticketId none) fun
    | .app error =>
      -- An expected outcome, not a crash.
      if error.code = "ticket_not_found" then
        throw (.tool (lit "No ticket exists with id " ++ ticketId.str ++ lit ".") false)
      else throw (.app error)
    | raised => throw raised
  let env ← Effect.ask
  pure (describe env.text ticket)

end LookupTicketTool

def lookupTicketTool : Tool where
  name := lit "lookup_ticket"
  description := lit "Look up a single support ticket by its identifier."
  invoke parse params := (parse.lookupTicket params).map LookupTicketTool.run

namespace ListTicketsTool

/-- What is returned for one of the tickets. -/
def describe (text : TextTables) (ticket : Ticket) : PyValue :=
  .dict [
    field "id" ticket.id.str,
    field "subject" ticket.subject,
    field "status" ticket.status.value,
    field "created_at" (text.isoformat ticket.createdAt)]

/-- `TicketStatus(params.status)`, where a status is given. -/
def statusOf : Option PyStr → App (Option TicketStatus)
  | none => pure none
  | some value => do
    let env ← Effect.ask
    match TicketStatus.ofValue value with
    | some status => pure (some status)
    | none =>
      throw (.tool (lit "Unknown status " ++ reprStr env.text.printable value ++
        lit ". Valid values: " ++
        PyStr.join (lit ", ") (TicketStatus.all.map TicketStatus.value)) false)

def run (params : ListTicketsParams) : App PyValue := do
  let status ← statusOf params.status
  let tickets ← TicketService.list status params.limit 0 none
  let env ← Effect.ask
  pure (.list (tickets.map (describe env.text)))

end ListTicketsTool

def listTicketsTool : Tool where
  name := lit "list_tickets"
  description := lit "List recent support tickets, newest first, optionally by status."
  invoke parse params := (parse.listTickets params).map ListTicketsTool.run

/-! ## Documentation -/

/-- `round(x, 4)`: to the nearest, and to the even one of two. -/
def round4 (x : Rat) : Rat :=
  let scaled := x * 10000
  let below := scaled.floor
  let rest := scaled - below
  let nearest := if rest < 1 / 2 then below
    else if 1 / 2 < rest then below + 1
    else if below % 2 = 0 then below
    else below + 1
  nearest / 10000

namespace SearchKnowledgeBaseTool

/-- What is returned for one of the passages. -/
def describe (hit : RetrievedChunk) : PyValue :=
  .dict [
    field "document_id" hit.documentId.str,
    field "document_title" hit.documentTitle,
    (.str (lit "ordinal"), .int hit.ordinal),
    field "excerpt" hit.content,
    (.str (lit "similarity"), .float (.finite (round4 hit.similarity.val)))]

def run (params : SearchKnowledgeBaseParams) : App PyValue := do
  let hits ← DocumentService.search params.query.val params.topK
  pure (.list (hits.map describe))

end SearchKnowledgeBaseTool

def searchKnowledgeBaseTool : Tool where
  name := lit "search_knowledge_base"
  description :=
    lit "Search the documentation and return the most relevant passages, each with the document it came from."
  invoke parse params := (parse.searchKnowledgeBase params).map SearchKnowledgeBaseTool.run

/-! ## The registry -/

/-- `build_registry`. -/
def toolRegistry : ToolRegistry where
  tools := [lookupTicketTool, listTicketsTool, searchKnowledgeBaseTool]
  named tool htool := by
    have hnames : [lit "lookup_ticket", lit "list_tickets", lit "search_knowledge_base"].all
        validToolName = true := by decide +kernel
    exact List.all_eq_true.mp hnames tool.name (List.mem_map_of_mem (f := Tool.name) htool)
  described tool htool := by
    simp only [List.mem_cons, List.not_mem_nil, or_false] at htool
    obtain rfl | rfl | rfl := htool
    · show lit "Look up a single support ticket by its identifier." ≠ []
      decide
    · show lit "List recent support tickets, newest first, optionally by status." ≠ []
      decide
    · show lit "Search the documentation and return the most relevant passages, each with the document it came from." ≠ []
      decide
  distinct := by
    show [lit "lookup_ticket", lit "list_tickets", lit "search_knowledge_base"].Nodup
    decide

/-- `toolRegistry` has its three tools under their names. -/
theorem toolRegistry_get (name : PyStr) :
    toolRegistry.get name =
      if name = lit "lookup_ticket" then some lookupTicketTool
      else if name = lit "list_tickets" then some listTicketsTool
      else if name = lit "search_knowledge_base" then some searchKnowledgeBaseTool
      else none := by
  simp only [ToolRegistry.get, toolRegistry, List.find?_cons, List.find?_nil, lookupTicketTool,
    listTicketsTool, searchKnowledgeBaseTool, eq_comm (a := name)]
  grind

end NexaAssist
