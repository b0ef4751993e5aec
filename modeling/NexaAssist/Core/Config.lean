import NexaAssist.ForStd.PyEntries
import NexaAssist.Schemas.Types

/-!
# Application settings

The settings that decide what a deployment is made of, as they are read from the environment and
validated once. What the validators of the whole require of one another is a field of `Settings`.
-/

namespace NexaAssist

open PyJson

namespace Config

inductive QueueBackend
  | memory
  | redis
  deriving DecidableEq, Repr

inductive AuthProvider
  | none
  | apiKey
  deriving DecidableEq, Repr

inductive RateLimitProvider
  | none
  | memory
  | redis
  deriving DecidableEq, Repr

inductive TicketStoreBackend
  | memory
  | redis
  deriving DecidableEq, Repr

inductive AuthzProvider
  | openToAll
  | subject
  deriving DecidableEq, Repr

/-- The fields, each valid by itself. -/
structure Fields where
  databaseUrl : Option PyStr := none
  jobQueue : QueueBackend := .memory
  redisUrl : Option PyStr := none
  redisNamespace : Text
  authProvider : AuthProvider := .none
  authApiKeys : List PyStr := []
  rateLimitProvider : RateLimitProvider := .none
  rateLimitRequests : { n : Nat // 1 ≤ n ∧ n ≤ 100000 }
  rateLimitWindowSeconds : { n : Nat // 1 ≤ n ∧ n ≤ 3600 }
  realtimeTicketStore : TicketStoreBackend := .memory
  realtimeTicketTtlSeconds : { n : Nat // 5 ≤ n ∧ n ≤ 600 }
  authzProvider : AuthzProvider := .openToAll
  llmTimeoutSeconds : { seconds : Rat // 0 < seconds }
  llmTotalTimeoutSeconds : { seconds : Rat // 0 < seconds }

/-- `url.split("://", 1)[0]`. -/
def scheme (url : PyStr) : PyStr := (PyStr.splitOn (lit "://") url).headD []

/-- The fields, valid together. -/
structure Settings extends Fields where
  asyncDriver : ∀ url ∈ databaseUrl, scheme url = lit "postgresql+asyncpg"
  ticketsHaveUrl : realtimeTicketStore = .redis → redisUrl ≠ none
  limiterHasUrl : rateLimitProvider = .redis → redisUrl ≠ none
  scopesAuthenticate : authzProvider = .subject → authProvider ≠ .none
  keysConfigured : authProvider = .apiKey → authApiKeys ≠ []
  queueHasUrl : jobQueue = .redis → redisUrl ≠ none
  totalCoversAttempt : llmTimeoutSeconds.val ≤ llmTotalTimeoutSeconds.val

/-- The validators of the whole, by the order in which they run. -/
inductive Violation
  | requireAsyncDatabaseDriver
  | redisTicketsNeedAUrl
  | redisRateLimitingNeedsAUrl
  | scopedAuthzNeedsAuthentication
  | apiKeyAuthNeedsKeys
  | redisBackendNeedsAUrl
  | totalTimeoutCoversOneAttempt
  deriving DecidableEq, Repr

/-- `Settings(..)`. The first validator that raises is the one that is told of. -/
def Fields.validate (fields : Fields) : Except Violation Settings :=
  if asyncDriver : ∀ url ∈ fields.databaseUrl, scheme url = lit "postgresql+asyncpg" then
    if ticketsHaveUrl : fields.realtimeTicketStore = .redis → fields.redisUrl ≠ none then
      if limiterHasUrl : fields.rateLimitProvider = .redis → fields.redisUrl ≠ none then
        if scopesAuthenticate : fields.authzProvider = .subject → fields.authProvider ≠ .none then
          if keysConfigured : fields.authProvider = .apiKey → fields.authApiKeys ≠ [] then
            if queueHasUrl : fields.jobQueue = .redis → fields.redisUrl ≠ none then
              if totalCoversAttempt :
                  fields.llmTimeoutSeconds.val ≤ fields.llmTotalTimeoutSeconds.val then
                .ok { fields with
                  asyncDriver, ticketsHaveUrl, limiterHasUrl, scopesAuthenticate, keysConfigured
                  queueHasUrl, totalCoversAttempt }
              else .error .totalTimeoutCoversOneAttempt
            else .error .redisBackendNeedsAUrl
          else .error .apiKeyAuthNeedsKeys
        else .error .scopedAuthzNeedsAuthentication
      else .error .redisRateLimitingNeedsAUrl
    else .error .redisTicketsNeedAUrl
  else .error .requireAsyncDatabaseDriver

/-! ## Values of the environment -/

/-- `_split_origins` of a text. -/
def splitOrigins (value : PyStr) : List PyStr := entriesOf value

end Config

end NexaAssist
