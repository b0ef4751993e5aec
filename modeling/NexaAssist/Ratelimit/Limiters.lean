import Mathlib.Data.Rat.Floor
import NexaAssist.Schemas.Types

/-!
# Rate limiters

The two limiters that count: one in the process, one in Redis. Each counts a request against
its key in a window of fixed length, and allows it while the count is within the limit.
-/

namespace NexaAssist

open PyJson

/-- The verdict for one request. -/
structure RateLimitDecision where
  allowed : Bool
  remaining : Nat
  retryAfterSeconds : Nat

/-- A limit and its window, as `_validate` takes them. -/
structure RateLimit where
  limit : Nat
  windowSeconds : Nat
  limit_pos : 1 ≤ limit
  window_pos : 1 ≤ windowSeconds

namespace RateLimit

variable (config : RateLimit)

/-- `int(now // window)`. -/
def window (now : Rat) : Int := ⌊now / config.windowSeconds⌋

/-- `now % window`. -/
def elapsed (now : Rat) : Rat := now - config.windowSeconds * config.window now

/-- `_decide`. -/
def decide (used : Nat) (now : Rat) : RateLimitDecision :=
  if config.limit < used then
    { allowed := false
      remaining := 0
      retryAfterSeconds := max 1 ⌈config.windowSeconds - config.elapsed now⌉.toNat }
  else { allowed := true, remaining := config.limit - used, retryAfterSeconds := 0 }

end RateLimit

/-! ## In the process -/

/-- `_counts`, by key and window. -/
structure InMemoryRateLimiter where
  counts : PyStr × Int → Option Nat

namespace InMemoryRateLimiter

def empty : InMemoryRateLimiter := { counts := fun _ => none }

/-- `_prune`. -/
def prune (limiter : InMemoryRateLimiter) (current : Int) : InMemoryRateLimiter where
  counts entry := if entry.2 < current then none else limiter.counts entry

def check (config : RateLimit) (limiter : InMemoryRateLimiter) (key : PyStr) (now : Rat) :
    RateLimitDecision × InMemoryRateLimiter :=
  let window := config.window now
  let pruned := limiter.prune window
  let used := (pruned.counts (key, window)).getD 0 + 1
  (config.decide used now,
    { counts := fun entry => if entry = (key, window) then some used else pruned.counts entry })

end InMemoryRateLimiter

/-! ## In Redis -/

/-- The counters of a Redis server, with the time each is forgotten. -/
structure RedisCounters where
  counters : PyStr → Option (Nat × Option Rat)

namespace RedisCounters

def empty : RedisCounters := { counters := fun _ => none }

/-- What is stored under a key. A key whose time is over is not there. -/
def live (server : RedisCounters) (key : PyStr) (now : Rat) : Option (Nat × Option Rat) :=
  (server.counters key).filter fun entry => entry.2.all (now < ·)

/-- `INCR` and `EXPIRE .. NX`, in one transaction: what `INCR` answers, and the server. -/
def incrExpireNx (server : RedisCounters) (key : PyStr) (seconds : Nat) (now : Rat) :
    Nat × RedisCounters :=
  let entry := (server.live key now).getD (0, none)
  let used := entry.1 + 1
  let expiresAt := entry.2.getD (now + seconds)
  (used, { counters := fun k =>
    if k = key then some (used, some expiresAt) else server.counters k })

end RedisCounters

/-- How a call of Redis ends. -/
inductive TripOutcome
  | done
  /-- It is executed, and its answer is lost. -/
  | lost
  | failed
  deriving DecidableEq, Repr

/-- What a check meets: when it is counted, what `TIME` answers, what the process's own clock
    says, and how the transaction ends. -/
structure Trip where
  now : Rat
  time : Option Rat
  localNow : Rat
  outcome : TripOutcome

namespace RedisRateLimiter

/-- `_key`. -/
def key (ns key : PyStr) (window : Int) : PyStr :=
  ns ++ lit ":" ++ key ++ lit ":" ++ .ofString (toString window)

/-- `check`. A limiter that cannot reach Redis allows the request. -/
def check (config : RateLimit) (ns : PyStr) (server : RedisCounters) (subject : PyStr)
    (trip : Trip) : RateLimitDecision × RedisCounters :=
  -- `_window_now`: without the server's clock, the process's own.
  let now := trip.time.getD trip.localNow
  let (used, counted) :=
    server.incrExpireNx (key ns subject (config.window now)) config.windowSeconds trip.now
  let unlimited : RateLimitDecision := { allowed := true, remaining := 0, retryAfterSeconds := 0 }
  match trip.outcome with
  | .failed => (unlimited, server)
  | .lost => (unlimited, counted)
  | .done => (config.decide used now, counted)

end RedisRateLimiter

/-! ## Either -/

/-- A limiter that enforces. -/
inductive RateLimiter
  | memory (limiter : InMemoryRateLimiter)
  | redis (ns : PyStr) (server : RedisCounters)

/-- The limiters of the registry that enforce. -/
inductive LimiterBackend
  | memory
  | redis (ns : PyStr)
  deriving DecidableEq

/-- `build_rate_limiter`, over a server that has counted nothing yet. -/
def LimiterBackend.build : LimiterBackend → RateLimiter
  | .memory => .memory .empty
  | .redis ns => .redis ns .empty

namespace RateLimiter

def check (config : RateLimit) (limiter : RateLimiter) (key : PyStr) (trip : Trip) :
    RateLimitDecision × RateLimiter :=
  match limiter with
  | .memory limiter =>
    let (decision, limiter) := limiter.check config key trip.now
    (decision, .memory limiter)
  | .redis ns server =>
    let (decision, server) := RedisRateLimiter.check config ns server key trip
    (decision, .redis ns server)

/-- How much of its limit a key has used in the window of a time. -/
def used (config : RateLimit) (limiter : RateLimiter) (key : PyStr) (now : Rat) : Nat :=
  match limiter with
  | .memory limiter => (limiter.counts (key, config.window now)).getD 0
  | .redis ns server =>
    ((server.live (RedisRateLimiter.key ns key (config.window now)) now).map (·.1)).getD 0

end RateLimiter

end NexaAssist
