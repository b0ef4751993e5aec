import NexaAssist.Api.Assistant
import NexaAssist.Api.Records
import NexaAssist.Auth.Providers
import NexaAssist.ForStd.Machine
import NexaAssist.Ratelimit.Limiters
import NexaAssist.Schemas.Assistant

/-!
# The HTTP API

The routes of version 1, each with the dependencies it declares. A request is served by
solving these in their order, and then running the handler. The limiter is the process's, and
keeps what it counted from one request to the next.
-/

namespace NexaAssist

open PyJson

/-- The caller is over its limit. -/
def rateLimitExceededError (retryAfterSeconds : Nat) : AppError where
  statusCode := 429
  code := "rate_limit_exceeded"
  message := lit "Too many requests. Please retry shortly."
  details := [("retry_after_seconds", lit (toString (max 1 retryAfterSeconds)))]

/-- The database could not be reached. -/
def databaseUnavailableError (details : List (String × PyStr)) : AppError where
  statusCode := 503
  code := "database_unavailable"
  message := lit "The database is currently unavailable."
  details := details

/-! ## Dependencies -/

/-- The functions a route can depend on. -/
inductive Dependency
  | getSettings
  | getAuthenticator
  | getRateLimiter
  | getAuthorizer
  | getTicketStore
  | getDbSession
  | getEmbeddingProvider
  | getLlmProvider
  | getTracer
  | getPricingTable
  | getMetrics
  | requireIdentity
  | enforceRateLimit
  | getIntentService
  | getTicketService
  | getDocumentService
  | getAnswerService
  | getAssistantService
  | getConversationService
  | getCustomerService
  deriving DecidableEq, Repr

/-- What each of them depends on itself. -/
def Dependency.direct : Dependency → List Dependency
  | .requireIdentity => [.getAuthenticator]
  | .enforceRateLimit => [.requireIdentity, .getRateLimiter]
  | .getIntentService => [.getLlmProvider]
  | .getTicketService => [.getDbSession]
  | .getDocumentService => [.getDbSession, .getEmbeddingProvider]
  | .getAnswerService => [.getDocumentService, .getLlmProvider]
  | .getAssistantService =>
    [.getDbSession, .getEmbeddingProvider, .getLlmProvider, .getSettings, .getTracer,
      .getPricingTable, .getMetrics]
  | .getConversationService => [.getDbSession]
  | .getCustomerService => [.getDbSession]
  | _ => []

/-- In the order they are solved, each after what it depends on. -/
def Dependency.solved : Nat → Dependency → List Dependency
  | 0, d => [d]
  | depth + 1, d => d.direct.flatMap (solved depth) ++ [d]

inductive Route
  | health
  | ready
  | analyzeIntent
  | createTicket
  | getTicket
  | listTickets
  | ingestDocument
  | answerQuestion
  | getDocument
  | listDocuments
  | answerMessage
  | startConversation
  | readConversation
  | readHistory
  | issueTicket
  deriving DecidableEq, Repr

namespace Route

/-- The dependencies a route declares. -/
def dependencies : Route → List Dependency
  | .health => [.getSettings]
  | .ready => []
  | .analyzeIntent => [.getIntentService]
  | .createTicket => [.getTicketService, .enforceRateLimit, .getAuthorizer]
  | .getTicket => [.getTicketService, .enforceRateLimit, .getAuthorizer]
  | .listTickets => [.getTicketService, .enforceRateLimit, .getAuthorizer]
  | .ingestDocument => [.getDocumentService, .enforceRateLimit]
  | .answerQuestion => [.getAnswerService, .getSettings, .enforceRateLimit]
  | .getDocument => [.getDocumentService, .enforceRateLimit]
  | .listDocuments => [.getDocumentService, .enforceRateLimit]
  | .answerMessage =>
    [.getAssistantService, .getTracer, .enforceRateLimit, .getAuthorizer, .getMetrics]
  | .startConversation =>
    [.getConversationService, .getCustomerService, .enforceRateLimit, .getAuthorizer]
  | .readConversation => [.getConversationService, .enforceRateLimit, .getAuthorizer]
  | .readHistory => [.getConversationService, .enforceRateLimit, .getAuthorizer]
  | .issueTicket => [.enforceRateLimit, .getTicketStore, .getSettings]

/-- All a route depends on, in the order it is solved, and each of it once. -/
def solved (route : Route) : List Dependency :=
  (route.dependencies.flatMap (Dependency.solved 2)).eraseDups

end Route

/-! ## Handlers -/

/-- The body of `POST /intent/analyze`. -/
structure IntentAnalysisRequest where
  message : BoundedText 8000

/-- The body of `POST /documents/answer`. -/
structure GroundedAnswerRequest where
  question : BoundedText 2000

/-- The probe of the database: nothing, where none is configured, or whether it answered. -/
def databaseStatus : App (Option Bool) := do
  let env ← Effect.ask
  if env.settings.databaseConfigured then
    tryCatch
      (do
        App.inNewSession (App.select .nothing fun _ _ => ())
        pure (some true))
      fun
        | .sqlalchemy => pure (some false)
        | error => throw error
  else pure none

/-- `GET /ready`. What is only reported is left out. -/
def ready : App (Option Bool) := do
  let database ← databaseStatus
  if database = some false then
    throw (.app (databaseUnavailableError [("component", lit "database")]))
  else pure database

/-- `POST /intent/analyze`. -/
def analyzeIntent (payload : IntentAnalysisRequest) : App IntentAnalysis :=
  IntentService.analyze ⟨payload.message.val, payload.message.property.1⟩

/-- `POST /documents/answer`. -/
def answerQuestion (payload : GroundedAnswerRequest) : App GroundedAnswer := do
  let env ← Effect.ask
  App.inNewSession (AnswerService.answer payload.question.val env.settings.retrievalTopK)

/-- What a request calls, with what it gives it. -/
inductive Call
  | health
  | ready
  | analyzeIntent (payload : IntentAnalysisRequest)
  | answerQuestion (payload : GroundedAnswerRequest)
  | answerMessage (payload : AssistantMessageRequest)
  | getTicket (ticketId : Uuid)
  | listTickets (status : Option TicketStatus) (limit offset : Nat)
  | readConversation (conversationId : Uuid)
  | readHistory (conversationId : Uuid) (limit : Option Nat)
  /-- Any program may stand for the handlers of the other routes. -/
  | createTicket (handler : App Unit)
  | ingestDocument (handler : App Unit)
  | getDocument (handler : App Unit)
  | listDocuments (handler : App Unit)
  | startConversation (handler : App Unit)
  | issueTicket (handler : App Unit)
  /-- The body, or a parameter, is not valid. -/
  | invalid (route : Route)

namespace Call

def route : Call → Route
  | .health => .health
  | .ready => .ready
  | .analyzeIntent _ => .analyzeIntent
  | .answerQuestion _ => .answerQuestion
  | .answerMessage _ => .answerMessage
  | .getTicket _ => .getTicket
  | .listTickets .. => .listTickets
  | .readConversation _ => .readConversation
  | .readHistory .. => .readHistory
  | .createTicket _ => .createTicket
  | .ingestDocument _ => .ingestDocument
  | .getDocument _ => .getDocument
  | .listDocuments _ => .listDocuments
  | .startConversation _ => .startConversation
  | .issueTicket _ => .issueTicket
  | .invalid route => route

/-- The handler, once everything its route depends on is solved. -/
def handler (call : Call) (scope : Option OwnerScope) : App Unit :=
  match call with
  | .health => pure ()
  | .ready => do let _ ← NexaAssist.ready; pure ()
  | .analyzeIntent payload => do let _ ← NexaAssist.analyzeIntent payload; pure ()
  | .answerQuestion payload => do let _ ← NexaAssist.answerQuestion payload; pure ()
  | .answerMessage payload => do
    let message : Text := ⟨payload.message.val, payload.message.property.1⟩
    let _ ← NexaAssist.answerMessage message payload.conversationId scope
    pure ()
  | .getTicket ticketId => do let _ ← NexaAssist.getTicket ticketId scope; pure ()
  | .listTickets status limit offset => do
    let _ ← NexaAssist.listTickets status limit offset scope
    pure ()
  | .readConversation conversationId => do
    let _ ← NexaAssist.readConversation conversationId scope
    pure ()
  | .readHistory conversationId limit => do
    let _ ← NexaAssist.readHistory conversationId limit scope
    pure ()
  | .createTicket handler => handler
  | .ingestDocument handler => handler
  | .getDocument handler => handler
  | .listDocuments handler => handler
  | .startConversation handler => handler
  | .issueTicket handler => handler
  | .invalid _ => pure ()

end Call

/-! ## Serving a request -/

/-- How the API is deployed, with an authenticator that protects. -/
structure Deployment where
  authenticator : ApiKeyAuthenticator
  rateLimit : RateLimit
  backend : LimiterBackend
  /-- Whether the authorizer restricts a subject to what is its own. -/
  scopes : Bool

/-- A request, and what it meets. -/
structure HttpRequest where
  /-- The header `X-API-Key`. -/
  key : Option PyStr
  call : Call
  /-- What the rate limiter meets. -/
  trip : Trip
  /-- Which dependencies cannot be had. -/
  missing : Dependency → Bool
  env : Env
  db : Database

/-- A request that was served, or refused. -/
structure Served where
  route : Route
  key : Option PyStr
  /-- The subject and the window it was counted in, if it was. -/
  consumed : Option (PyStr × Int)
  /-- How many times it asked the model. -/
  calls : Nat
  deriving DecidableEq

/-- What has been solved of a request's dependencies. -/
structure Solving where
  identity : Option RequestIdentity
  limiter : RateLimiter
  consumed : Option (PyStr × Int)

/-- Why a handler is not run. -/
inductive Refusal
  | authentication (failure : AuthenticationFailure)
  | rateLimited (error : AppError)
  | missing (dependency : Dependency)

namespace Deployment

variable (deployment : Deployment)

/-- `enforce_rate_limit`, once there is an identity: count the request, and refuse it or not. -/
def count (identity : RequestIdentity) (trip : Trip) (solving : Solving) :
    Except Refusal Unit × Solving :=
  let config := deployment.rateLimit
  let subject := identity.subject.val
  let now := trip.now
  let (decision, limiter) := solving.limiter.check config subject trip
  let before := solving.limiter.used config subject now
  let consumed :=
    if limiter.used config subject now = before + 1 then some (subject, config.window now)
    else none
  (if decision.allowed then .ok ()
    else .error (.rateLimited (rateLimitExceededError decision.retryAfterSeconds)),
    { solving with limiter, consumed })

/-- One dependency, after those it depends on. -/
def solveOne (request : HttpRequest) (solving : Solving) (dependency : Dependency) :
    Except Refusal Unit × Solving :=
  if request.missing dependency then (.error (.missing dependency), solving)
  else match dependency with
    | .requireIdentity =>
      match deployment.authenticator.authenticate request.key with
      | .error failure => (.error (.authentication failure), solving)
      | .ok identity => (.ok (), { solving with identity := some identity })
    | .enforceRateLimit =>
      match solving.identity with
      | none => (.error (.missing .requireIdentity), solving)
      | some identity => deployment.count identity request.trip solving
    | _ => (.ok (), solving)

/-- The dependencies one after another, up to the first that refuses. -/
def solve (request : HttpRequest) (solving : Solving) :
    List Dependency → Except Refusal Unit × Solving
  | [] => (.ok (), solving)
  | dependency :: dependencies =>
    match deployment.solveOne request solving dependency with
    | (.error refusal, solving) => (.error refusal, solving)
    | (.ok (), solving) => solve request solving dependencies

/-- The scope of an identity. -/
def scopeFor (identity : Option RequestIdentity) : Option OwnerScope :=
  if deployment.scopes then
    identity.bind fun identity => SubjectScopedAuthorizer.scopeFor identity.subject.val
  else none

/-- How often the handler asks the model. -/
def modelCalls (request : HttpRequest) (identity : Option RequestIdentity) : Nat :=
  (request.call.handler (deployment.scopeFor identity) request.env
    (.start request.db)).2.prompts.length

end Deployment

/-- The API, the time of its last request and the requests it was sent. -/
structure Api where
  limiter : RateLimiter
  clock : Rat
  served : List Served

/-- Serve a request. Time does not go back. -/
def Api.serve (deployment : Deployment) (s : Api) (request : HttpRequest) : Option Api :=
  if request.trip.now < s.clock then none
  else
    let (result, solving) := deployment.solve request
      { identity := none, limiter := s.limiter, consumed := none } request.call.route.solved
    let calls := match result with
      | .error _ => 0
      | .ok () => deployment.modelCalls request solving.identity
    some {
      limiter := solving.limiter
      clock := request.trip.now
      served := s.served ++ [{
        route := request.call.route
        key := request.key
        consumed := solving.consumed
        calls }] }

/-- A deployment from `start` on, which is sent requests in any order. -/
def api (deployment : Deployment) (start : Rat) : Machine Api HttpRequest where
  init := { limiter := deployment.backend.build, clock := start, served := [] }
  step := Api.serve deployment

end NexaAssist
