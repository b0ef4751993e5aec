import NexaAssist.ForStd.Machine
import NexaAssist.Ratelimit.Windows

/-!
# The two limiters decide alike

One limiter counts in the process, the other in Redis. Where their clocks say the same, a request
gets the same verdict from both; and an outage of Redis costs the requests that meet it, which are
let through, and no other.
-/

namespace NexaAssist

open PyJson

namespace Spec.LimiterEquivalence

/-! ## Requests -/

/-- A request, by how long it comes after the one before it. -/
structure Arrival where
  subject : PyStr
  wait : Rat
  wait_nonneg : 0 ≤ wait
  /-- Whether the server tells the time, or the process's own clock does. -/
  timed : Bool
  outcome : TripOutcome

/-- What a request meets when the clocks agree. -/
def Arrival.trip (arrival : Arrival) (now : Rat) : Trip where
  now
  time := if arrival.timed then some now else none
  localNow := now
  outcome := arrival.outcome

variable (config : RateLimit) (ns : PyStr)

/-- The limiter that counts in Redis, and the time. -/
def redisLimiter (start : Rat) : Object (RedisCounters × Rat) Arrival RateLimitDecision where
  init := (.empty, start)
  call s arrival :=
    let now := s.2 + arrival.wait
    let (decision, server) :=
      RedisRateLimiter.check config ns s.1 arrival.subject (arrival.trip now)
    (decision, server, now)

/-- The limiter that counts in the process, and the time. It counts a request whose answer is lost,
    but does not count one that is not made. -/
def memoryLimiter (start : Rat) : Object (InMemoryRateLimiter × Rat) Arrival RateLimitDecision where
  init := (.empty, start)
  call s arrival :=
    let now := s.2 + arrival.wait
    let (decision, limiter) := s.1.check config arrival.subject now
    let unlimited : RateLimitDecision := { allowed := true, remaining := 0, retryAfterSeconds := 0 }
    match arrival.outcome with
    | .failed => (unlimited, s.1, now)
    | .lost => (unlimited, limiter, now)
    | .done => (decision, limiter, now)

/-! ## The simulation -/

/-- The server has the counts of every window that is not over, up to its end. -/
structure SameCounts (m : InMemoryRateLimiter × Rat) (r : RedisCounters × Rat) : Prop where
  now : m.2 = r.2
  counts : ∀ subject w, config.window r.2 ≤ w → r.1.Holds (RedisRateLimiter.key ns subject w)
    ((m.1.counts (subject, w)).getD 0) (config.windowSeconds * ((w : Rat) + 1))

variable {config ns}

/-- Both limiters count nothing at first. -/
theorem sameCounts_init (start : Rat) :
    SameCounts config ns (memoryLimiter config start).init (redisLimiter config ns start).init where
  now := rfl
  counts _ _ _ := .inl ⟨rfl, rfl⟩

/-- `SameCounts` is kept when time passes in both. -/
theorem SameCounts.later {m : InMemoryRateLimiter × Rat} {r : RedisCounters × Rat}
    (h : SameCounts config ns m r) {wait : Rat} (hwait : 0 ≤ wait) :
    SameCounts config ns (m.1, m.2 + wait) (r.1, r.2 + wait) where
  now := by rw [h.now]
  counts subject w hw :=
    h.counts subject w ((config.window_mono (le_add_of_nonneg_right hwait)).trans hw)

/-- `SameCounts` is kept when both count a request up, from the same number. -/
theorem SameCounts.counted {m : InMemoryRateLimiter × Rat} {r : RedisCounters × Rat}
    (h : SameCounts config ns m r) (subject : PyStr) :
    let counted := r.1.incrExpireNx (RedisRateLimiter.key ns subject (config.window r.2))
      config.windowSeconds r.2
    (m.1.check config subject m.2).1 = config.decide counted.1 r.2 ∧
      SameCounts config ns ((m.1.check config subject m.2).2, m.2) (counted.2, r.2) := by
  have hnow := h.now
  have hlive : r.2 < config.windowSeconds * ((config.window r.2 : Rat) + 1) := config.lt_windowEnd r.2
  obtain ⟨hused, hheld⟩ := (h.counts subject (config.window r.2) le_rfl).incr hlive
    (config.windowEnd_le r.2)
  -- Pruning leaves the window of the request as it is
  have hkept : ((m.1.prune (config.window r.2)).counts (subject, config.window r.2)) =
      m.1.counts (subject, config.window r.2) := if_neg (lt_irrefl _)
  refine ⟨?_, hnow, ?_⟩
  · rw [InMemoryRateLimiter.check, hnow, hkept, hused]
  · intro other w hw
    rw [InMemoryRateLimiter.check, hnow, hkept]
    by_cases hsame : (other, w) = (subject, config.window r.2)
    · obtain ⟨rfl, rfl⟩ := Prod.mk.inj hsame
      simpa using hheld
    · have hne : RedisRateLimiter.key ns other w ≠
          RedisRateLimiter.key ns subject (config.window r.2) := by
        intro heq
        obtain ⟨rfl, rfl⟩ := RedisRateLimiter.key_injective heq
        exact hsame rfl
      have hpruned : (m.1.prune (config.window r.2)).counts (other, w) = m.1.counts (other, w) :=
        if_neg (not_lt.mpr hw)
      simp only [if_neg hsame, hpruned]
      exact (h.counts other w hw).incr_of_ne hne

/-- `call` decides alike in both, and keeps `SameCounts`. -/
theorem SameCounts.call {m : InMemoryRateLimiter × Rat} {r : RedisCounters × Rat}
    (h : SameCounts config ns m r) (start : Rat) (arrival : Arrival) :
    ((memoryLimiter config start).call m arrival).1 =
        ((redisLimiter config ns start).call r arrival).1 ∧
      SameCounts config ns ((memoryLimiter config start).call m arrival).2
        ((redisLimiter config ns start).call r arrival).2 := by
  have hlater := h.later arrival.wait_nonneg
  obtain ⟨hdecision, hcounted⟩ := hlater.counted arrival.subject
  have htime : (arrival.trip (r.2 + arrival.wait)).time.getD
      (arrival.trip (r.2 + arrival.wait)).localNow = r.2 + arrival.wait := by
    unfold Arrival.trip
    cases arrival.timed <;> rfl
  simp only [memoryLimiter, redisLimiter, RedisRateLimiter.check, htime]
  cases houtcome : arrival.outcome with
  | done =>
    simp only [Arrival.trip, houtcome]
    exact ⟨hdecision, hcounted⟩
  | lost =>
    simp only [Arrival.trip, houtcome]
    exact ⟨trivial, hcounted⟩
  | failed =>
    simp only [Arrival.trip, houtcome]
    exact ⟨trivial, hlater⟩

/-- Whatever requests come, and whichever of them meet an outage, the limiter in Redis answers as
    the one in the process would that had been asked about the others alone. -/
theorem limiters_agree (config : RateLimit) (ns : PyStr) (start : Rat) (arrivals : List Arrival) :
    (redisLimiter config ns start).outputs arrivals =
      (memoryLimiter config start).outputs arrivals := by
  symm
  exact Object.outputsFrom_eq_of_simulation (SameCounts config ns)
    (fun m r arrival h => h.call start arrival) (sameCounts_init start) arrivals

end Spec.LimiterEquivalence

end NexaAssist
