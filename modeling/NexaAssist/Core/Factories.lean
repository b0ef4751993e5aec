import NexaAssist.Auth.Factory
import NexaAssist.Ratelimit.Limiters

/-!
# What settings name

The registries of job queues, ticket stores, rate limiters and authorizers: what each builds of the
settings, and the namespace it gives a backend that is kept in Redis.
-/

namespace NexaAssist

open PyJson

/-- A backend in Redis: where the server is, and what its keys start with. -/
structure RedisAt where
  url : PyStr
  ns : PyStr
  deriving DecidableEq

/-- Why a backend cannot be built. -/
inductive BuildError
  /-- `assert url is not None`. -/
  | assertion
  | configuration (error : AppError)

inductive JobQueueBackend
  | memory
  | redis (server : RedisAt)

inductive TicketBackend
  | memory (ttl : TicketTtl)
  | redis (server : RedisAt) (ttl : TicketTtl)

inductive LimiterChoice
  | none
  | memory (config : RateLimit)
  | redis (server : RedisAt) (config : RateLimit)

/-- The configured limiter cannot be built. -/
def rateLimitConfigurationError (message : PyStr) : AppError where
  statusCode := 500
  code := "rate_limit_configuration_error"
  message := message
  details := []

variable (settings : Config.Settings)

/-- `build_job_queue`. -/
def buildJobQueue : Except BuildError JobQueueBackend :=
  match settings.jobQueue with
  | .memory => .ok .memory
  | .redis =>
    match settings.redisUrl with
    | none => .error .assertion
    | some url => .ok (.redis { url, ns := settings.redisNamespace.val })

/-- `f"{settings.redis_namespace}:tickets"`. -/
def ticketNamespace (ns : PyStr) : PyStr := ns ++ lit ":tickets"

/-- `build_ticket_store`. -/
def buildTicketStore : Except BuildError TicketBackend :=
  match settings.realtimeTicketStore with
  | .memory => .ok (.memory settings.realtimeTicketTtlSeconds)
  | .redis =>
    match settings.redisUrl with
    | none => .error .assertion
    | some url =>
      .ok (.redis { url, ns := ticketNamespace settings.redisNamespace.val }
        settings.realtimeTicketTtlSeconds)

/-- `rate_limit_requests` in `rate_limit_window_seconds`. -/
def configuredLimit : RateLimit where
  limit := settings.rateLimitRequests.val
  windowSeconds := settings.rateLimitWindowSeconds.val
  limit_pos := settings.rateLimitRequests.property.1
  window_pos := settings.rateLimitWindowSeconds.property.1

/-- `f"{settings.redis_namespace}:ratelimit"`. -/
def limiterNamespace (ns : PyStr) : PyStr := ns ++ lit ":ratelimit"

/-- `build_rate_limiter`. -/
def buildRateLimiter : Except BuildError LimiterChoice :=
  match settings.rateLimitProvider with
  | .none => .ok .none
  | .memory => .ok (.memory (configuredLimit settings))
  | .redis =>
    match settings.redisUrl with
    | none =>
      .error (.configuration
        (rateLimitConfigurationError (lit "The redis rate limiter requires REDIS_URL.")))
    | some url =>
      .ok (.redis { url, ns := limiterNamespace settings.redisNamespace.val }
        (configuredLimit settings))

end NexaAssist
