import NexaAssist.ForStd.Counting
import NexaAssist.Spec.RateLaw

/-!
# How many requests a limiter lets through in a span of time

A limit holds of windows that are fixed, so a span of time meets one window more than it has
room for, and the limit may be used up in each of them. No more gets through, in the process
or in Redis, and as much as that does.
-/

namespace NexaAssist

open PyJson

namespace RateLimit

variable (config : RateLimit)

/-- The windows that meet a span of time. -/
def windowsFrom (start span : Rat) : List Int :=
  (List.range (⌈(start + span) / config.windowSeconds⌉ - config.window start).toNat).map fun n : Nat =>
    config.window start + n

/-- How many windows may meet a span of some length. -/
def windowsIn (span : Rat) : Nat := ⌈span / config.windowSeconds⌉.toNat + 1

variable {config}

/-- A time in a span is in one of its windows. -/
theorem window_mem_windowsFrom {start span now : Rat} (hstart : start ≤ now)
    (hend : now < start + span) : config.window now ∈ config.windowsFrom start span := by
  have hfrom : config.window start ≤ config.window now := config.window_mono hstart
  have hto : config.window now < ⌈(start + span) / config.windowSeconds⌉ := by
    rw [Int.lt_ceil, window]
    exact (Int.floor_le _).trans_lt (div_lt_div_of_pos_right hend config.seconds_pos)
  rw [windowsFrom, List.mem_map]
  refine ⟨(config.window now - config.window start).toNat, ?_, by omega⟩
  rw [List.mem_range]
  omega

/-- A span has no more windows than `windowsIn` counts. -/
theorem length_windowsFrom_le (start span : Rat) :
    (config.windowsFrom start span).length ≤ config.windowsIn span := by
  have hsum : ⌈(start + span) / config.windowSeconds⌉ ≤
      ⌈start / config.windowSeconds⌉ + ⌈span / config.windowSeconds⌉ := by
    rw [add_div]
    exact Int.ceil_add_le _ _
  have hceil : ⌈start / config.windowSeconds⌉ ≤ ⌊start / config.windowSeconds⌋ + 1 :=
    Int.ceil_le_floor_add_one _
  rw [windowsFrom, List.length_map, List.length_range, windowsIn, window]
  omega

/-- A time within the seconds of a window, counted from its start, is in that window. -/
theorem window_add {window : Int} {offset : Rat} (hstart : 0 ≤ offset)
    (hend : offset < config.windowSeconds) :
    config.window (config.windowSeconds * window + offset) = window := by
  have hne : (config.windowSeconds : Rat) ≠ 0 := config.seconds_pos.ne'
  rw [RateLimit.window, add_div, mul_div_cancel_left₀ _ hne, Int.floor_intCast_add,
    Int.floor_eq_zero_iff.mpr ⟨div_nonneg hstart config.seconds_pos.le,
      (div_lt_one config.seconds_pos).mpr hend⟩, add_zero]

end RateLimit

namespace Spec.RateBursts

/-- A request as the limiter met it: for which key, at what time, and whether it was allowed. -/
structure Verdict where
  key : PyStr
  time : Rat
  allowed : Bool

/-- Whether a request of a key was allowed within a span of time. -/
def Verdict.passed (key : PyStr) (start span : Rat) (v : Verdict) : Bool :=
  v.key = key && v.allowed && start ≤ v.time && v.time < start + span

/-- Whether a request of a key was allowed in a window. -/
def Verdict.passedIn (config : RateLimit) (key : PyStr) (window : Int) (v : Verdict) : Bool :=
  v.key = key && v.allowed && config.window v.time = window

variable {config : RateLimit}

/-- A limit on every window limits every span. -/
theorem passed_le {log : List Verdict} {key : PyStr}
    (hlimit : ∀ window, log.countP (Verdict.passedIn config key window) ≤ config.limit)
    (start span : Rat) :
    log.countP (Verdict.passed key start span) ≤ config.windowsIn span * config.limit := by
  have hspan : log.countP (Verdict.passed key start span) ≤
      (config.windowsFrom start span).length * config.limit := by
    apply List.countP_le_length_mul (fun v : Verdict => config.window v.time)
    · intro v _ hpassed
      simp only [Verdict.passed, Bool.and_eq_true, decide_eq_true_eq] at hpassed
      exact RateLimit.window_mem_windowsFrom hpassed.1.2 hpassed.2
    · intro window _
      refine Nat.le_trans (List.countP_mono_left ?_) (hlimit window)
      intro v _ hpassed
      simp only [Verdict.passed, Verdict.passedIn, Bool.and_eq_true, decide_eq_true_eq] at hpassed ⊢
      exact ⟨hpassed.1.1.1, hpassed.2⟩
  exact hspan.trans (Nat.mul_le_mul_right _ (RateLimit.length_windowsFrom_le start span))

/-! ## Two windows that meet in a short span -/

variable (config) in
/-- How long before the end of a window a burst begins that is over within `span`. -/
def lead (span : Rat) : Rat := min (span / 2) config.windowSeconds

variable (config) in
/-- The last moment of a burst, and the first of the next window. -/
def turn (window : Int) : Rat := config.windowSeconds * window

/-- A burst leads its window by something. -/
theorem lead_pos {span : Rat} (hspan : 0 < span) : 0 < lead config span :=
  lt_min (half_pos hspan) config.seconds_pos

/-- A window begins at its turn. -/
theorem window_turn (window : Int) : config.window (turn config window) = window := by
  have h : config.window (config.windowSeconds * window + 0) = window :=
    config.window_add le_rfl config.seconds_pos
  rwa [add_zero] at h

/-- What leads the next window is still in this one. -/
theorem window_lead {span : Rat} (hspan : 0 < span) (window : Int) :
    config.window (turn config (window + 1) - lead config span) = window := by
  have hsplit : turn config (window + 1) - lead config span =
      config.windowSeconds * window + (config.windowSeconds - lead config span) := by
    rw [turn]
    push_cast
    ring
  rw [hsplit]
  apply config.window_add
  · exact sub_nonneg.mpr (min_le_right _ _)
  · have hlead : 0 < lead config span := lead_pos hspan
    linarith

/-- A log of two bursts, at the lead before a turn and at the turn, passes in the span what it
    passes in both windows. -/
theorem passed_of_bursts {log : List Verdict} {key : PyStr} {span : Rat} (hspan : 0 < span)
    {window : Int} (hlog : ∀ v ∈ log,
      v.time = turn config (window + 1) - lead config span ∨ v.time = turn config (window + 1)) :
    log.countP (Verdict.passed key (turn config (window + 1) - lead config span) span) =
      log.countP (Verdict.passedIn config key window) +
        log.countP (Verdict.passedIn config key (window + 1)) := by
  have hlead : 0 < lead config span := lead_pos hspan
  have hhalf : lead config span ≤ span / 2 := min_le_left _ _
  have hfalls : ∀ v ∈ log, turn config (window + 1) - lead config span ≤ v.time ∧
      v.time < turn config (window + 1) - lead config span + span ∧
      (config.window v.time = window ∨ config.window v.time = window + 1) := by
    intro v hv
    obtain htime | htime := hlog v hv
    · rw [htime, window_lead hspan]
      exact ⟨le_rfl, by linarith, .inl rfl⟩
    · rw [htime, window_turn]
      exact ⟨by linarith, by linarith, .inr rfl⟩
  rw [List.countP_split _ fun v : Verdict => config.window v.time = window]
  congr 1
  all_goals
    apply List.countP_congr
    intro v hv
    obtain ⟨hstart, hend, hwindow⟩ := hfalls v hv
    simp only [Verdict.passed, Verdict.passedIn, Bool.and_eq_true, Bool.not_eq_true',
      decide_eq_true_eq, decide_eq_false_iff_not]
    obtain hwindow | hwindow := hwindow
    all_goals simp [hstart, hend, hwindow]

/-- What some checks may have been answered is bounded in every span of time, and may reach
    twice the limit in any. -/
structure BurstLaw (config : RateLimit) (answered : List Verdict → Prop) : Prop where
  /-- No more gets through than the limit for each window that may meet the span. -/
  bounded : ∀ log, answered log → ∀ key start span,
    log.countP (Verdict.passed key start span) ≤ config.windowsIn span * config.limit
  reached : ∀ key span, 0 < span → ∃ log start, answered log ∧
    log.countP (Verdict.passed key start span) = 2 * config.limit

/-! ## In the process -/

section Memory

open InMemoryRateLimiter

variable (config) in
/-- A check that comes after others, answered. -/
def answer (state : InMemoryRateLimiter × List Verdict) (check : PyStr × Rat) :
    InMemoryRateLimiter × List Verdict :=
  let (decision, limiter) := state.1.check config check.1 check.2
  (limiter, state.2 ++ [{ key := check.1, time := check.2, allowed := decision.allowed }])

variable (config) in
/-- What a fresh limiter answers some checks made one after another. -/
def verdicts (checks : List (PyStr × Rat)) : List Verdict :=
  (checks.foldl (answer config) (.empty, [])).2

/-- Answering leaves the limiter of `after`. -/
theorem answer_after (checks : List (PyStr × Rat)) :
    (checks.foldl (answer config) (.empty, [])).1 = after config checks := by
  induction checks using List.reverseRecOn with
  | nil => rfl
  | append_singleton checks last ih =>
    rw [List.foldl_append, after, List.foldl_append, ← after, ← ih]
    rfl

/-- One more check is one more verdict. -/
theorem verdicts_concat (checks : List (PyStr × Rat)) (last : PyStr × Rat) :
    verdicts config (checks ++ [last]) = verdicts config checks ++
      [{ key := last.1, time := last.2,
         allowed := ((after config checks).check config last.1 last.2).1.allowed }] := by
  rw [verdicts, List.foldl_append, ← answer_after]
  rfl

/-- Every check is answered, in its turn. -/
theorem verdicts_times (checks : List (PyStr × Rat)) :
    (verdicts config checks).map (fun v => (v.key, v.time)) = checks := by
  induction checks using List.reverseRecOn with
  | nil => rfl
  | append_singleton checks last ih => rw [verdicts_concat, List.map_append, ih]; rfl

/-- One more check counts in its own window. -/
theorem checksIn_concat (checks : List (PyStr × Rat)) (last : PyStr × Rat) (key : PyStr)
    (window : Int) : checksIn config (checks ++ [last]) key window =
      checksIn config checks key window +
        if last.1 = key ∧ config.window last.2 = window then 1 else 0 := by
  simp [checksIn, List.countP_append, List.countP_cons]

/-- What gets through in a window is what was asked for in it, up to the limit. -/
theorem passedIn_eq {checks : List (PyStr × Rat)} (hclock : Clocked checks) (key : PyStr)
    (window : Int) : (verdicts config checks).countP (Verdict.passedIn config key window) =
      min (checksIn config checks key window) config.limit := by
  induction checks using List.reverseRecOn with
  | nil => exact (Nat.zero_min _).symm
  | append_singleton checks last ih =>
    have hlaw := (check_law config checks last.1 last.2 hclock).allowed
    rw [verdicts_concat, List.countP_append, ih hclock.before.1, checksIn_concat,
      List.countP_singleton]
    by_cases hsame : last.1 = key ∧ config.window last.2 = window
    · obtain ⟨rfl, rfl⟩ := hsame
      simp only [Verdict.passedIn, decide_true, Bool.true_and, Bool.and_true, hlaw, and_self,
        if_true]
      split <;> omega
    · have hnone : ¬ Verdict.passedIn config key window
          { key := last.1, time := last.2,
            allowed := ((after config checks).check config last.1 last.2).1.allowed } = true := by
        intro hpassed
        simp only [Verdict.passedIn, Bool.and_eq_true, decide_eq_true_eq] at hpassed
        exact hsame ⟨hpassed.1.1, hpassed.2⟩
      rw [if_neg hsame, if_neg hnone, Nat.add_zero, Nat.add_zero]

/-- The checks that use up the limit before a turn of the window, and again at it. -/
def burst (config : RateLimit) (key : PyStr) (span : Rat) : List (PyStr × Rat) :=
  List.replicate config.limit (key, turn config 1 - lead config span) ++
    List.replicate config.limit (key, turn config 1)

/-- The times of a burst go on. -/
theorem burst_clocked (key : PyStr) {span : Rat} (hspan : 0 < span) :
    Clocked (burst config key span) := by
  have hlead : 0 < lead config span := lead_pos hspan
  rw [Clocked, burst, List.map_append, List.map_replicate, List.map_replicate,
    List.pairwise_append, List.pairwise_replicate, List.pairwise_replicate]
  refine ⟨.inr le_rfl, .inr le_rfl, fun time htime later hlater => ?_⟩
  rw [List.eq_of_mem_replicate htime, List.eq_of_mem_replicate hlater]
  linarith

/-- A burst has a full limit of checks in each of two windows. -/
theorem checksIn_burst (key : PyStr) {span : Rat} (hspan : 0 < span) :
    checksIn config (burst config key span) key 0 = config.limit ∧
      checksIn config (burst config key span) key 1 = config.limit := by
  have hbefore : config.window (turn config 1 - lead config span) = 0 := window_lead hspan 0
  have hat : config.window (turn config 1) = 1 := window_turn 1
  simp [checksIn, burst, List.countP_append, List.countP_replicate, hbefore, hat]

/-- The limiter in the process obeys the `BurstLaw`: its bound holds, and is attained. -/
theorem memory_bursts (config : RateLimit) : BurstLaw config fun log =>
    ∃ checks, Clocked checks ∧ verdicts config checks = log := by
  constructor
  case bounded =>
    rintro _ ⟨checks, hclock, rfl⟩ key start span
    apply passed_le
    intro window
    rw [passedIn_eq hclock]
    exact min_le_right _ _
  case reached =>
    intro key span hspan
    have hclock : Clocked (burst config key span) := burst_clocked key hspan
    refine ⟨_, turn config (0 + 1) - lead config span, ⟨_, hclock, rfl⟩, ?_⟩
    rw [passed_of_bursts hspan, passedIn_eq hclock, passedIn_eq hclock, zero_add,
      (checksIn_burst key hspan).1, (checksIn_burst key hspan).2]
    · omega
    · intro v hv
      have hcheck : (v.key, v.time) ∈ burst config key span := by
        have hmem : (v.key, v.time) ∈ (verdicts config (burst config key span)).map fun v =>
            (v.key, v.time) := List.mem_map.mpr ⟨v, hv, rfl⟩
        rwa [verdicts_times] at hmem
      obtain hmem | hmem := List.mem_append.mp hcheck
      · exact .inl (congrArg Prod.snd (List.eq_of_mem_replicate hmem))
      · exact .inr (congrArg Prod.snd (List.eq_of_mem_replicate hmem))

end Memory

/-! ## In Redis -/

section Cluster

open RedisRateLimiter

/-- The processes over a server, and what their checks have been answered. -/
structure Watched (Proc : Type) where
  cluster : Cluster Proc
  log : List Verdict

variable {Proc : Type} [DecidableEq Proc] {ns : PyStr}

variable (config ns) in
/-- A check is answered when it is counted. -/
def Watched.step (w : Watched Proc) (trip : Trips Proc) : Option (Watched Proc) :=
  (Cluster.step config ns w.cluster trip).map fun cluster => {
    cluster
    log := w.log ++ (cluster.counted.drop w.cluster.counted.length).map fun check =>
      { key := check.subject, time := cluster.now, allowed := check.allowed } }

variable (config ns) in
def watched (start : Rat) : Machine (Watched Proc) (Trips Proc) where
  init := { cluster := (cluster config ns start).init, log := [] }
  step := Watched.step config ns

/-- What was answered is what was counted. -/
structure Watched.Inv (config : RateLimit) (ns : PyStr) (w : Watched Proc) : Prop where
  cluster : RedisRateLimiter.Inv config ns w.cluster
  log_eq : ∀ key window, w.log.countP (Verdict.passedIn config key window) =
    allowedIn w.cluster.counted key window

/-- Only the second round trip of a check counts anything. -/
theorem counted_of_step {s s' : Cluster Proc} {trip : Trips Proc}
    (h : Cluster.step config ns s trip = some s') : s'.counted = s.counted ∨
      ∃ proc subject answer, s.waiting proc = some (subject, answer) ∧ s'.now = s.now ∧
        s.now < config.windowEnd (config.window answer) ∧
        s'.counted = s.counted ++ [{
          subject, window := config.window answer
          allowed := (settle config ns s subject answer).1.allowed }] := by
  cases trip with
  | tick now =>
    obtain ⟨-, hs⟩ := Option.ite_none_right_eq_some.mp h
    obtain rfl := Option.some.inj hs
    exact .inl rfl
  | time proc subject =>
    simp only [Cluster.step] at h
    split at h
    · cases h
    · obtain rfl := Option.some.inj h
      exact .inl rfl
  | count proc =>
    obtain ⟨subject, answer, hwaiting, hopen, rfl⟩ := step_count h
    exact .inr ⟨proc, subject, answer, hwaiting, rfl, hopen, rfl⟩

/-- The time of a check that is counted is still in the window it was answered. -/
theorem window_of_open {now answer : Rat} (hle : answer ≤ now)
    (hopen : now < config.windowEnd (config.window answer)) :
    config.window now = config.window answer := by
  refine le_antisymm (not_lt.mp fun hlt => ?_) (config.window_mono hle)
  exact absurd hopen (not_lt.mpr ((config.window_lt_iff answer now).mp hlt))

/-- `Inv` is kept by every round trip. -/
theorem Watched.Inv.step {w w' : Watched Proc} {trip : Trips Proc} (h : w.Inv config ns)
    (hstep : Watched.step config ns w trip = some w') : w'.Inv config ns := by
  obtain ⟨s, hs, rfl⟩ := Option.map_eq_some_iff.mp hstep
  refine ⟨inv_step h.cluster hs, ?_⟩
  intro key window
  obtain hcounted | ⟨proc, subject, answer, hwaiting, hnow, hopen, hcounted⟩ := counted_of_step hs
  · simpa [hcounted] using h.log_eq key window
  · have hwindow : config.window w.cluster.now = config.window answer :=
      window_of_open (h.cluster.answered proc subject answer hwaiting) hopen
    simp only [hcounted, List.drop_left, List.map_cons, List.map_nil, List.countP_append,
      h.log_eq key window, allowedIn_concat, List.countP_singleton]
    simp only [Verdict.passedIn, hnow, hwindow, Bool.and_eq_true, decide_eq_true_eq]
    congr 1
    apply if_congr _ rfl rfl
    tauto

/-- `Inv` holds in every reachable state of the watched cluster. -/
theorem Watched.inv {start : Rat} {w : Watched Proc}
    (h : (watched config ns start).Reachable w) : w.Inv config ns :=
  Machine.ReachableVia.invariant ⟨inv_init start, fun _ _ => rfl⟩
    (fun _ _ _ hinv _ hs => hinv.step hs) h

/-- While a key has some of its limit left, a check of it is allowed. -/
theorem check_allowed {start : Rat} {w : Watched Proc}
    (h : (watched config ns start).Reachable w) {proc : Proc}
    (hidle : w.cluster.waiting proc = none) (key : PyStr)
    (hroom : tally w.cluster.counted key (config.window w.cluster.now) < config.limit) :
    ∃ w', (watched config ns start).Reachable w' ∧ w'.cluster.now = w.cluster.now ∧
      w'.cluster.waiting proc = none ∧
      (∀ window, tally w'.cluster.counted key window = tally w.cluster.counted key window +
        if config.window w.cluster.now = window then 1 else 0) ∧
      w'.log = w.log ++ [{ key, time := w.cluster.now, allowed := true }] := by
  have hwindow : config.window (serverTime w.cluster.now) = config.window w.cluster.now :=
    window_serverTime _
  let asked : Cluster Proc := { w.cluster with
    waiting := fun p =>
      if p = proc then some (key, serverTime w.cluster.now) else w.cluster.waiting p }
  have hwaits : asked.waiting proc = some (key, serverTime w.cluster.now) := if_pos rfl
  have htime : Watched.step config ns w (.time proc key) =
      some { cluster := asked, log := w.log } := by
    simp [Watched.step, Cluster.step, hidle, asked]
  have hused := (((Watched.inv h).cluster.holds key (config.window w.cluster.now)).incr
    (config.lt_windowEnd _) (config.windowEnd_le _)).1
  have hallowed : (settle config ns asked key (serverTime w.cluster.now)).1.allowed = true := by
    rw [settle_eq, config.decide_allowed, hwindow, hused]
    exact hroom
  have hcount : Watched.step config ns { cluster := asked, log := w.log } (.count proc) = some {
      cluster := {
        now := w.cluster.now
        server := (settle config ns asked key (serverTime w.cluster.now)).2
        waiting := fun p => if p = proc then none else asked.waiting p
        counted := w.cluster.counted ++ [{
          subject := key, window := config.window w.cluster.now, allowed := true }] }
      log := w.log ++ [{ key, time := w.cluster.now, allowed := true }] } := by
    simp only [Watched.step, Cluster.step, hwaits, hallowed, hwindow]
    rw [if_pos (config.lt_windowEnd _)]
    simp [asked]
  refine ⟨_, .step (.step h trivial htime) trivial hcount, rfl, ?_, ?_, rfl⟩
  · simp
  · intro window
    simp only [tally_concat, true_and]

/-- As many checks of a key are allowed as it has of its limit left. -/
theorem checks_allowed {start : Rat} {w : Watched Proc}
    (h : (watched config ns start).Reachable w) (proc : Proc)
    (hidle : w.cluster.waiting proc = none) (key : PyStr) (n : Nat)
    (hroom : tally w.cluster.counted key (config.window w.cluster.now) + n ≤ config.limit) :
    ∃ w', (watched config ns start).Reachable w' ∧ w'.cluster.now = w.cluster.now ∧
      w'.cluster.waiting proc = none ∧
      (∀ window, config.window w.cluster.now ≠ window →
        tally w'.cluster.counted key window = tally w.cluster.counted key window) ∧
      w'.log = w.log ++ List.replicate n { key, time := w.cluster.now, allowed := true } := by
  induction n generalizing w with
  | zero => exact ⟨w, h, rfl, hidle, fun _ _ => rfl, (List.append_nil _).symm⟩
  | succ n ih =>
    obtain ⟨next, hnext, hnow, hnextIdle, htally, hlog⟩ := check_allowed h hidle key (by omega)
    have hleft : tally next.cluster.counted key (config.window next.cluster.now) + n ≤
        config.limit := by
      rw [hnow, htally, if_pos rfl]
      omega
    obtain ⟨w', hw', hnow', hidle', htally', hlog'⟩ := ih hnext hnextIdle hleft
    refine ⟨w', hw', hnow'.trans hnow, hidle', ?_, ?_⟩
    · intro window hwindow
      rw [htally' window (hnow ▸ hwindow), htally, if_neg hwindow, Nat.add_zero]
    · rw [hlog', hlog, hnow, List.append_assoc, List.replicate_succ, List.singleton_append]

/-- A reachable state is reachable at any later time. -/
theorem tick_reachable {start : Rat} {w : Watched Proc}
    (h : (watched config ns start).Reachable w) {now : Rat} (hle : w.cluster.now ≤ now) :
    (watched config ns start).Reachable
      { cluster := { w.cluster with now }, log := w.log } := by
  refine .step (e := Trips.tick now) h trivial ?_
  simp [watched, Watched.step, Cluster.step, hle]

/-- Processes that share a server obey the `BurstLaw`, whatever the order of their round trips, and
    one of them may attain its bound. -/
theorem cluster_bursts [Inhabited Proc] (config : RateLimit) (ns : PyStr) (start : Rat) :
    BurstLaw config fun log => ∃ w : Watched Proc,
      (watched config ns start).Reachable w ∧ w.log = log := by
  constructor
  case bounded =>
    rintro _ ⟨w, hreach, rfl⟩ key start span
    apply passed_le
    intro window
    rw [(Watched.inv hreach).log_eq]
    exact ((Watched.inv hreach).cluster.limited key window).trans (min_le_right _ _)
  case reached =>
    intro key span hspan
    -- One burst late in a window and one as the next begins
    let window := config.window start + 1
    have hbefore : config.window (turn config (window + 1) - lead config span) = window :=
      window_lead hspan window
    have hlead : lead config span ≤ config.windowSeconds := min_le_right _ _
    have hstart : start ≤ turn config (window + 1) - lead config span := by
      have hend := config.lt_windowEnd start
      simp only [turn, window]
      push_cast
      linarith
    obtain ⟨w, hw, hnow, hidle, htally, hlog⟩ := checks_allowed
      (tick_reachable (w := (watched config ns start).init) .init hstart) (default : Proc) rfl key
      config.limit (by simp [watched, cluster, tally])
    have hturn : config.window (turn config (window + 1)) = window + 1 := window_turn _
    have hle : w.cluster.now ≤ turn config (window + 1) := by
      rw [hnow]
      exact sub_le_self _ (lead_pos hspan).le
    -- The next window has counted nothing of the key so far
    have hfresh : tally w.cluster.counted key (config.window (turn config (window + 1))) = 0 := by
      rw [hturn, htally]
      · rfl
      · rw [hbefore]
        omega
    obtain ⟨last, hlast, -, -, -, hlastLog⟩ := checks_allowed (tick_reachable hw hle) default hidle
      key config.limit (by rw [hfresh, Nat.zero_add])
    rw [hlog] at hlastLog
    have htimes : last.log = List.replicate config.limit
          { key, time := turn config (window + 1) - lead config span, allowed := true } ++
        List.replicate config.limit
          { key, time := turn config (window + 1), allowed := true } := hlastLog
    refine ⟨_, turn config (window + 1) - lead config span, ⟨last, hlast, rfl⟩, ?_⟩
    rw [passed_of_bursts hspan, htimes]
    · simp only [List.countP_append, List.countP_replicate, Verdict.passedIn, hbefore, hturn,
        decide_true, Bool.and_self]
      simp
      omega
    · intro v hv
      rw [htimes] at hv
      obtain hmem | hmem := List.mem_append.mp hv
      · exact .inl (congrArg Verdict.time (List.eq_of_mem_replicate hmem))
      · exact .inr (congrArg Verdict.time (List.eq_of_mem_replicate hmem))

end Cluster

end Spec.RateBursts

end NexaAssist
