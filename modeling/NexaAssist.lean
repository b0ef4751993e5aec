import NexaAssist.ForStd.Effect
import NexaAssist.ForStd.Emits
import NexaAssist.ForStd.PyText
import NexaAssist.ForStd.Regex
import NexaAssist.ForStd.Substitution
import NexaAssist.ForStd.TracedSubstitution
import NexaAssist.ForStd.TracedMatches
import NexaAssist.ForStd.List
import NexaAssist.ForStd.Machine
import NexaAssist.ForStd.PyJsonRoundTrip
import NexaAssist.Jobs.Memory
import NexaAssist.Jobs.RedisQueue
import NexaAssist.Jobs.Codec
import NexaAssist.Jobs.Protocol
import NexaAssist.Spec.QueueEquivalence
import NexaAssist.Spec.PayloadFidelity
import NexaAssist.Jobs.Fleet
import NexaAssist.Spec.RedisConservation
import NexaAssist.Frontend.UseRealtime
import NexaAssist.Spec.AnswerIsolation
import NexaAssist.Spec.IngestAtomic
import NexaAssist.Spec.LiveSocket
import NexaAssist.Frontend.UseConversation
import NexaAssist.Realtime.Wire
import NexaAssist.Frontend.ConversationScreen
import NexaAssist.Spec.OutageBackoff
import NexaAssist.Spec.AnswerKept
import NexaAssist.Spec.AnswerSettled
import NexaAssist.Spec.FrameProtocol
import NexaAssist.Spec.FramesSent
import NexaAssist.Auth.Tickets
import NexaAssist.Core.Logging
import NexaAssist.Spec.LogScrubbing
import NexaAssist.Db.Appends
import NexaAssist.Spec.ConversationPositions
import NexaAssist.Jobs.Workshop
import NexaAssist.Spec.WorkshopConservation
import NexaAssist.Spec.WorkerDrain
import NexaAssist.Spec.TicketReplay
import NexaAssist.Spec.Boundaries
import NexaAssist.Spec.AnswerPieces
import NexaAssist.Spec.CommittedMoney
import NexaAssist.Spec.CitedAnswers
import NexaAssist.Routing.IntentHandlers
import NexaAssist.Spec.AgentLedger
import NexaAssist.Spec.HonestCompletion
import NexaAssist.Spec.DisplayedConversation
import NexaAssist.Schemas.Types
import NexaAssist.Llm.Base
import NexaAssist.Db.Models
import NexaAssist.Db.Session
import NexaAssist.Services.Records
import NexaAssist.Services.Knowledge
import NexaAssist.Tools.Execution
import NexaAssist.Tools.Domain
import NexaAssist.Agent.State
import NexaAssist.Agent.Loop
import NexaAssist.Policy.Rules
import NexaAssist.Policy.Library
import NexaAssist.Routing.Router
import NexaAssist.Routing.Factory
import NexaAssist.Escalation.Handoff
import NexaAssist.Services.Assistant
import NexaAssist.Spec.PayloadStorage
import NexaAssist.Spec.PipelineDichotomy
import NexaAssist.Realtime.Answers
import NexaAssist.Realtime.Streamer
import NexaAssist.Api.Assistant
import NexaAssist.Api.Records
import NexaAssist.Api.Router
import NexaAssist.Spec.PipelineFootprint
import NexaAssist.Spec.ExchangeRecorded
import NexaAssist.Spec.SwallowedFailure
import NexaAssist.Spec.SubjectView
import NexaAssist.Spec.StrayReading
import NexaAssist.Spec.CrossSubject
import NexaAssist.Services.Review
import NexaAssist.Spec.ReviewClaims
import NexaAssist.Spec.ReviewDecisions
import NexaAssist.Spec.SettledTurns
import NexaAssist.Auth.Providers
import NexaAssist.Ratelimit.Limiters
import NexaAssist.Api.V1
import NexaAssist.Spec.MeteredCalls
import NexaAssist.ForStd.Program
import NexaAssist.Rag.Chunking
import NexaAssist.Db.Storage
import NexaAssist.Services.Storing
import NexaAssist.Services.Sessions
import NexaAssist.Jobs.Domain
import NexaAssist.Spec.AttemptIsolation
import NexaAssist.ForStd.PyNumeral
import NexaAssist.ForStd.JsJson
import NexaAssist.Schemas.Assistant
import NexaAssist.Realtime.Envelope
import NexaAssist.Frontend.Transport
import NexaAssist.Spec.TransportChoice
import NexaAssist.Core.Boundary
import NexaAssist.Tools.Boundary
import NexaAssist.Jobs.Boundary
import NexaAssist.Services.Context
import NexaAssist.Spec.ContextBudget
import NexaAssist.ForStd.Packing
import NexaAssist.ForStd.PyWords
import NexaAssist.Spec.Chunks
import NexaAssist.Ratelimit.Windows
import NexaAssist.Spec.RateLaw
import NexaAssist.ForStd.PyDict
import NexaAssist.Workflows.Definition
import NexaAssist.Workflows.Execution
import NexaAssist.Spec.WorkflowRuns
import NexaAssist.Spec.AnswerTimeouts
import NexaAssist.Spec.CustomerIdentity
import NexaAssist.Spec.KeyAuthentication
import NexaAssist.Spec.WorkflowReferences
import NexaAssist.ForStd.Phrases
import NexaAssist.Policy.Commitments
import NexaAssist.Spec.Contractions
import NexaAssist.ForStd.JsonTree
import NexaAssist.Llm.StrictSchema
import NexaAssist.Spec.StrictSchemas
import NexaAssist.ForStd.Rounding
import NexaAssist.ForStd.PyFloatText
import NexaAssist.Llm.RateLimit
import NexaAssist.Spec.RetryAfter
import NexaAssist.ForStd.CappedStore
import NexaAssist.Observability.Spans
import NexaAssist.Observability.Metrics
import NexaAssist.Spec.BoundedMetrics
import NexaAssist.Spec.Snapshots
import NexaAssist.Observability.Tracer
import NexaAssist.Spec.TraceTrees
import NexaAssist.Observability.Integration
import NexaAssist.Spec.ToolSpans
import NexaAssist.Frontend.ConversationIndex
import NexaAssist.Spec.ConversationOrder
import NexaAssist.Spec.StoredIndex
import NexaAssist.Realtime.Connection
import NexaAssist.Realtime.Endpoint
import NexaAssist.Spec.ConnectionSlots
import NexaAssist.Spec.LiteralRedaction
import NexaAssist.Spec.CredentialPlaces
import NexaAssist.Spec.CredentialMatches
import NexaAssist.Spec.ShapeRedaction
import NexaAssist.ForStd.Paging
import NexaAssist.Spec.TicketPages
import NexaAssist.ForStd.Counting
import NexaAssist.Spec.RateBursts
import NexaAssist.Frontend.ApiKey
import NexaAssist.Spec.SharedKey
import NexaAssist.Spec.RedisDrain
import NexaAssist.ForStd.PyDecimal
import NexaAssist.Observability.Cost
import NexaAssist.Observability.TracedProvider
import NexaAssist.Spec.CostTotals
import NexaAssist.Spec.UsageAccounts
import NexaAssist.Evaluation.Cases
import NexaAssist.Evaluation.Results
import NexaAssist.Evaluation.Checks
import NexaAssist.Evaluation.Runner
import NexaAssist.Spec.EvaluationRuns
import NexaAssist.ForStd.JsonText
import NexaAssist.Core.Exceptions
import NexaAssist.Frontend.Client
import NexaAssist.Frontend.Payloads
import NexaAssist.Spec.ErrorContract
import NexaAssist.Frontend.Frames
import NexaAssist.Realtime.FrameText
import NexaAssist.Spec.WireText
import NexaAssist.Spec.LimiterEquivalence
import NexaAssist.ForStd.PyEntries
import NexaAssist.Core.Config
import NexaAssist.Auth.Factory
import NexaAssist.Spec.ConfiguredKeys
import NexaAssist.ForStd.RedisStore
import NexaAssist.Core.Factories
import NexaAssist.Jobs.RedisKeys
import NexaAssist.Spec.SharedServer
