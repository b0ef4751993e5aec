import Mathlib.Data.List.Induction
import Mathlib.Order.Bounds.Defs
import NexaAssist.ForStd.Machine
import NexaAssist.Ratelimit.Windows

/-!
# What the counting limiters promise

In the process the counts are those of the history of checks, whatever was pruned on the way.
In Redis several processes count in two round trips each, and still agree.
-/

namespace NexaAssist

open PyJson

namespace RateLimit

variable (config : RateLimit)

/-- The time a window is over. -/
abbrev windowEnd (window : Int) : Rat := config.windowSeconds * ((window : Rat) + 1)

/-- A later time is in a later window once it has come to the end of the window. -/
theorem window_lt_iff (now later : Rat) :
    config.window now < config.window later ↔
      config.windowSeconds * ((config.window now : Rat) + 1) ≤ later := by
  rw [← Int.add_one_le_iff]
  conv_lhs => rw [window.eq_def config later, Int.le_floor]
  rw [le_div_iff₀' config.seconds_pos]
  push_cast
  rfl

/-- What a refused request is told to wait is the least number of seconds that leaves the
    window. -/
theorem retryAfter_isLeast (now : Rat) :
    IsLeast {r : Nat | 1 ≤ r ∧ config.window now < config.window (now + r)}
      (max 1 ⌈config.windowSeconds - config.elapsed now⌉.toNat) := by
  have hrest : (config.windowSeconds : Rat) - config.elapsed now =
      config.windowSeconds * ((config.window now : Rat) + 1) - now := by
    rw [elapsed]
    ring
  have hleaves (r : Nat) : config.window now < config.window (now + r) ↔
      ⌈(config.windowSeconds : Rat) - config.elapsed now⌉.toNat ≤ r := by
    rw [config.window_lt_iff, Int.toNat_le, Int.ceil_le, hrest, Int.cast_natCast,
      sub_le_iff_le_add']
  constructor
  · exact ⟨le_max_left _ _, (hleaves _).mpr (le_max_right _ _)⟩
  · exact fun r hr => max_le hr.1 ((hleaves r).mp hr.2)

end RateLimit

/-! ## In the process -/

namespace InMemoryRateLimiter

variable (config : RateLimit)

/-- The limiter after some checks. -/
def after (checks : List (PyStr × Rat)) : InMemoryRateLimiter :=
  checks.foldl (fun limiter check => (limiter.check config check.1 check.2).2) empty

/-- How many of some checks of a key were in a window. -/
def checksIn (checks : List (PyStr × Rat)) (key : PyStr) (window : Int) : Nat :=
  checks.countP fun check => check.1 = key ∧ config.window check.2 = window

/-- The times of some checks do not go back. -/
def Clocked (checks : List (PyStr × Rat)) : Prop := (checks.map Prod.snd).Pairwise (· ≤ ·)

variable {config}

/-- Checks in front of a clocked check are clocked, and no later. -/
theorem Clocked.before {checks : List (PyStr × Rat)} {last : PyStr × Rat}
    (h : Clocked (checks ++ [last])) : Clocked checks ∧ ∀ check ∈ checks, check.2 ≤ last.2 := by
  rw [Clocked, List.map_append, List.pairwise_append] at h
  exact ⟨h.1, fun check hmem => h.2.2 _ (List.mem_map_of_mem hmem) _ List.mem_cons_self⟩

/-- Nothing is kept of a window before that of some check. -/
theorem counts_of_lt {checks : List (PyStr × Rat)} (hclock : Clocked checks) {key : PyStr}
    {window : Int} (h : ∃ check ∈ checks, window < config.window check.2) :
    (after config checks).counts (key, window) = none := by
  induction checks using List.reverseRecOn with
  | nil =>
    obtain ⟨_, hmem, _⟩ := h
    exact nomatch hmem
  | append_singleton checks last ih =>
    obtain ⟨hchecks, hlast⟩ := hclock.before
    have hlt : window < config.window last.2 := by
      obtain ⟨check, hmem, hlt⟩ := h
      cases List.mem_append.mp hmem with
      | inl hbefore => exact hlt.trans_le (config.window_mono (hlast check hbefore))
      | inr heq => rwa [List.mem_singleton.mp heq] at hlt
    have hne : ¬ (key, window) = (last.1, config.window last.2) := by
      intro heq
      exact hlt.ne (congrArg Prod.snd heq)
    simp only [after, List.foldl_append, List.foldl_cons, List.foldl_nil, check, if_neg hne, prune,
      if_pos hlt]

/-- `prune` leaves the count of the window it is for. -/
theorem pruned_getD {limiter : InMemoryRateLimiter} {key : PyStr} {window : Int} {n : Nat}
    (h : limiter.counts (key, window) = if n = 0 then none else some n) :
    ((limiter.prune window).counts (key, window)).getD 0 = n := by
  have hkept : (limiter.prune window).counts (key, window) = limiter.counts (key, window) :=
    if_neg (lt_irrefl window)
  rw [hkept, h]
  split
  · rename_i hzero
    exact hzero.symm
  · rfl

/-- What is kept of the last window, or a later one, is its count. -/
theorem counts_of_le {checks : List (PyStr × Rat)} (hclock : Clocked checks) {key : PyStr}
    {window : Int} (h : ∀ check ∈ checks, config.window check.2 ≤ window) :
    (after config checks).counts (key, window) =
      if checksIn config checks key window = 0 then none
      else some (checksIn config checks key window) := by
  induction checks using List.reverseRecOn generalizing key window with
  | nil => rfl
  | append_singleton checks last ih =>
    obtain ⟨hchecks, hlast⟩ := hclock.before
    have hnow : config.window last.2 ≤ window := h last (by simp)
    have hbefore (key : PyStr) {window : Int} (hle : config.window last.2 ≤ window) :
        (after config checks).counts (key, window) =
          if checksIn config checks key window = 0 then none
          else some (checksIn config checks key window) :=
      ih hchecks fun check hmem => (config.window_mono (hlast check hmem)).trans hle
    have hstep : after config (checks ++ [last]) =
        ((after config checks).check config last.1 last.2).2 := by
      simp only [after, List.foldl_append, List.foldl_cons, List.foldl_nil]
    have hcount : checksIn config (checks ++ [last]) key window =
        checksIn config checks key window +
          if last.1 = key ∧ config.window last.2 = window then 1 else 0 := by
      simp [checksIn, List.countP_append, List.countP_cons]
    rw [hstep, hcount]
    by_cases heq : (key, window) = (last.1, config.window last.2)
    · obtain ⟨rfl, rfl⟩ := Prod.mk.inj heq
      simp only [check, pruned_getD (hbefore last.1 le_rfl), and_self, if_true, Nat.succ_ne_zero,
        if_false]
    · have hother : ¬ (last.1 = key ∧ config.window last.2 = window) := by
        rintro ⟨rfl, rfl⟩
        exact heq rfl
      simp only [check, if_neg heq, prune, if_neg (not_lt.mpr hnow), hbefore key hnow,
        if_neg hother, Nat.add_zero]

/-- The law of a check that comes after some others. -/
structure Law (config : RateLimit) (earlier : List (PyStr × Rat)) (key : PyStr) (now : Rat) :
    Prop where
  allowed : ((after config earlier).check config key now).1.allowed = true ↔
    checksIn config earlier key (config.window now) < config.limit
  remaining : (((after config earlier).check config key now).1.remaining : Int) =
    max 0 ((config.limit : Int) -
      checksIn config (earlier ++ [(key, now)]) key (config.window now))
  pruned_current : ∀ other, ((after config earlier).prune (config.window now)).counts
    (other, config.window now) = (after config earlier).counts (other, config.window now)
  pruned_earlier : ∀ other window, window < config.window now →
    (after config (earlier ++ [(key, now)])).counts (other, window) = none
  retry_after : ((after config earlier).check config key now).1.allowed = false →
    IsLeast {r : Nat | 1 ≤ r ∧ config.window now < config.window (now + r)}
      ((after config earlier).check config key now).1.retryAfterSeconds

/-- Every check, after whatever others, obeys the law. -/
theorem check_law (config : RateLimit) (earlier : List (PyStr × Rat)) (key : PyStr) (now : Rat)
    (hclock : Clocked (earlier ++ [(key, now)])) : Law config earlier key now := by
  obtain ⟨hearlier, hlast⟩ := hclock.before
  have hused : (((after config earlier).prune (config.window now)).counts
      (key, config.window now)).getD 0 = checksIn config earlier key (config.window now) :=
    pruned_getD (counts_of_le hearlier fun check hmem => config.window_mono (hlast check hmem))
  have hcheck : ((after config earlier).check config key now).1 =
      config.decide (checksIn config earlier key (config.window now) + 1) now := by
    rw [check, hused]
  have hnow : checksIn config (earlier ++ [(key, now)]) key (config.window now) =
      checksIn config earlier key (config.window now) + 1 := by
    simp [checksIn, List.countP_append]
  constructor
  case allowed =>
    rw [hcheck, config.decide_allowed]
    exact Nat.succ_le_iff
  case remaining =>
    rw [hcheck, hnow, RateLimit.decide]
    split <;> simp only <;> omega
  case pruned_current =>
    intro other
    simp [prune]
  case pruned_earlier =>
    exact fun other window hlt => counts_of_lt hclock ⟨(key, now), by simp, hlt⟩
  case retry_after =>
    intro hrefused
    rw [hcheck, ← Bool.not_eq_true, config.decide_allowed, Nat.not_le] at hrefused
    rw [hcheck, RateLimit.decide, if_pos hrefused]
    exact config.retryAfter_isLeast now

/-- One request a minute. -/
def oneAMinute : RateLimit where
  limit := 1
  windowSeconds := 60
  limit_pos := by decide
  window_pos := by decide

/-- The second request of a minute obeys the law. -/
theorem check_law_second : Law oneAMinute [(lit "key", 0)] (lit "key") 1 :=
  check_law oneAMinute [(lit "key", 0)] (lit "key") 1 (by simp [Clocked])

end InMemoryRateLimiter

/-! ## In Redis -/

namespace RedisRateLimiter

/-- What `TIME` answers: seconds, and microseconds. -/
def serverTime (now : Rat) : Rat := ⌊now * 1000000⌋ / 1000000

/-- A check that was counted: for which key and window, and whether it was allowed. -/
structure Counted where
  subject : PyStr
  window : Int
  allowed : Bool

/-- Processes that share a server. Each waits between its two round trips with what `TIME`
    answered it. -/
structure Cluster (Proc : Type) where
  now : Rat
  server : RedisCounters
  waiting : Proc → Option (PyStr × Rat)
  counted : List Counted

inductive Trips (Proc : Type)
  | tick (now : Rat)
  /-- The first round trip of a check. -/
  | time (proc : Proc) (subject : PyStr)
  /-- The second one, which reaches the server before the window is over. -/
  | count (proc : Proc)

variable {Proc : Type} (config : RateLimit) (ns : PyStr)

/-- What a check does once it knows the time. -/
def settle (s : Cluster Proc) (subject : PyStr) (answer : Rat) :
    RateLimitDecision × RedisCounters :=
  check config ns s.server subject
    { now := s.now, time := some answer, localNow := s.now, outcome := .done }

def Cluster.step [DecidableEq Proc] (s : Cluster Proc) : Trips Proc → Option (Cluster Proc)
  | .tick now => if s.now ≤ now then some { s with now := now } else none
  | .time proc subject =>
    match s.waiting proc with
    | some _ => none
    | none => some { s with waiting := fun p =>
        if p = proc then some (subject, serverTime s.now) else s.waiting p }
  | .count proc =>
    match s.waiting proc with
    | none => none
    | some (subject, answer) =>
      if s.now < config.windowSeconds * ((config.window answer : Rat) + 1) then
        let (decision, server) := settle config ns s subject answer
        some {
          now := s.now
          server
          waiting := fun p => if p = proc then none else s.waiting p
          counted := s.counted ++ [{
            subject, window := config.window answer, allowed := decision.allowed }] }
      else none

/-- The processes over a server that has counted nothing yet. -/
def cluster [DecidableEq Proc] (start : Rat) : Machine (Cluster Proc) (Trips Proc) where
  init := { now := start, server := .empty, waiting := fun _ => none, counted := [] }
  step := Cluster.step config ns

/-- How many checks of a key were counted in a window. -/
def tally (counted : List Counted) (subject : PyStr) (window : Int) : Nat :=
  counted.countP fun check => check.subject = subject ∧ check.window = window

/-- How many of them were allowed. -/
def allowedIn (counted : List Counted) (subject : PyStr) (window : Int) : Nat :=
  counted.countP fun check => check.subject = subject ∧ check.window = window ∧ check.allowed

variable {config ns}

/-- `serverTime` is no later than the time it is taken at. -/
theorem serverTime_le (now : Rat) : serverTime now ≤ now := by
  rw [serverTime, div_le_iff₀ (by norm_num)]
  exact Int.floor_le _

/-- The microseconds that are cut off do not change the window. -/
theorem window_serverTime (now : Rat) : config.window (serverTime now) = config.window now := by
  have hbounds (w : Int) : w ≤ config.window (serverTime now) ↔ w ≤ config.window now := by
    have hmicro : (config.windowSeconds : Rat) * w * 1000000 =
        ((config.windowSeconds * w * 1000000 : Int) : Rat) := by push_cast; rfl
    rw [RateLimit.window, RateLimit.window, Int.le_floor, Int.le_floor,
      le_div_iff₀' config.seconds_pos, le_div_iff₀' config.seconds_pos, serverTime,
      le_div_iff₀ (by norm_num), hmicro, Int.cast_le, Int.le_floor, ← hmicro,
      mul_le_mul_iff_of_pos_right (by norm_num)]
  exact le_antisymm ((hbounds _).mp le_rfl) ((hbounds _).mpr le_rfl)

/-- What holds of the processes and the server after any round trips. -/
structure Inv (config : RateLimit) (ns : PyStr) (s : Cluster Proc) : Prop where
  answered : ∀ proc subject answer, s.waiting proc = some (subject, answer) → answer ≤ s.now
  holds : ∀ subject w, s.server.Holds (key ns subject w) (tally s.counted subject w)
    (config.windowEnd w)
  stored : ∀ k used time, s.server.counters k = some (used, time) → ∃ subject w,
    k = key ns subject w ∧ ∃ expiresAt, time = some expiresAt ∧
      expiresAt ≤ config.windowEnd w + config.windowSeconds
  limited : ∀ subject w,
    allowedIn s.counted subject w ≤ min (tally s.counted subject w) config.limit

/-- `Inv` holds at first. -/
theorem inv_init [DecidableEq Proc] (start : Rat) :
    Inv config ns (cluster config ns start : Machine (Cluster Proc) (Trips Proc)).init where
  answered _ _ _ h := nomatch h
  holds _ _ := .inl ⟨rfl, rfl⟩
  stored _ _ _ h := nomatch h
  limited _ _ := Nat.zero_le _

/-- One more check counts for its subject in its window. -/
theorem tally_concat (counted : List Counted) (check : Counted) (subject : PyStr) (w : Int) :
    tally (counted ++ [check]) subject w = tally counted subject w +
      if check.subject = subject ∧ check.window = w then 1 else 0 := by
  simp [tally, List.countP_append, List.countP_cons]

/-- One more check that is allowed is allowed for its subject in its window. -/
theorem allowedIn_concat (counted : List Counted) (check : Counted) (subject : PyStr) (w : Int) :
    allowedIn (counted ++ [check]) subject w = allowedIn counted subject w +
      if check.subject = subject ∧ check.window = w ∧ check.allowed then 1 else 0 := by
  simp [allowedIn, List.countP_append, List.countP_cons]

/-- The second round trip, of a process that waits with what `TIME` answered it. -/
theorem step_count [DecidableEq Proc] {s s' : Cluster Proc} {proc : Proc}
    (h : Cluster.step config ns s (.count proc) = some s') : ∃ subject answer,
    s.waiting proc = some (subject, answer) ∧ s.now < config.windowEnd (config.window answer) ∧
    s' = {
      now := s.now
      server := (settle config ns s subject answer).2
      waiting := fun p => if p = proc then none else s.waiting p
      counted := s.counted ++ [{
        subject := subject
        window := config.window answer
        allowed := (settle config ns s subject answer).1.allowed }] } := by
  simp only [Cluster.step] at h
  split at h
  · exact nomatch h
  · rename_i subject answer hwaiting
    split at h
    · rename_i hopen
      exact ⟨subject, answer, hwaiting, hopen, (Option.some.inj h).symm⟩
    · exact nomatch h

/-- `settle` counts a check and notes what it answered. -/
theorem settle_eq (s : Cluster Proc) (subject : PyStr) (answer : Rat) :
    settle config ns s subject answer =
      let counted := s.server.incrExpireNx (key ns subject (config.window answer))
        config.windowSeconds s.now
      (config.decide counted.1 answer, counted.2) := rfl

/-- A counter that is stored behind `INCR` and `EXPIRE NX` was stored before, or is the one counted
    up. -/
theorem incr_stored {server : RedisCounters} {k other : PyStr} {seconds used : Nat}
    {now : Rat} {time : Option Rat}
    (h : (server.incrExpireNx k seconds now).2.counters other = some (used, time)) :
    (∃ before, server.counters other = some (before, time)) ∨
      other = k ∧ (time = some (now + seconds) ∨
        ∃ before expiresAt, server.counters k = some (before, some expiresAt) ∧
          time = some expiresAt) := by
  by_cases heq : other = k
  · refine .inr ⟨heq, ?_⟩
    simp only [RedisCounters.incrExpireNx, if_pos heq, Option.some.injEq, Prod.mk.injEq] at h
    obtain ⟨-, rfl⟩ := h
    cases hlive : server.live k now with
    | none => exact .inl rfl
    | some entry =>
      obtain ⟨before, _ | expiresAt⟩ := entry
      · exact .inl rfl
      · exact .inr ⟨before, expiresAt, (Option.filter_eq_some_iff.mp hlive).1, rfl⟩
  · simp only [RedisCounters.incrExpireNx, if_neg heq] at h
    exact .inl ⟨used, h⟩

/-- `Inv` is kept by `count`, which counts a check in the window of its time. -/
theorem Inv.count [DecidableEq Proc] {s s' : Cluster Proc} (h : Inv config ns s) {proc : Proc}
    (hstep : Cluster.step config ns s (.count proc) = some s') : Inv config ns s' := by
  obtain ⟨subject, answer, hwaiting, hopen, rfl⟩ := step_count hstep
  have hanswer := h.answered proc subject answer hwaiting
  have hafter : config.windowEnd (config.window answer) ≤ s.now + config.windowSeconds :=
    (config.windowEnd_le answer).trans (by gcongr)
  obtain ⟨hused, hheld⟩ := (h.holds subject (config.window answer)).incr hopen hafter
  rw [settle_eq]
  constructor
  case answered =>
    intro p other time hp
    simp only at hp
    split at hp
    · exact nomatch hp
    · exact h.answered p other time hp
  -- The counter of one subject and window goes up, and every other is under another key
  case holds =>
    intro other w
    rw [tally_concat]
    by_cases hsame : subject = other ∧ config.window answer = w
    · obtain ⟨rfl, rfl⟩ := hsame
      simpa using hheld
    · rw [if_neg hsame]
      refine (h.holds other w).incr_of_ne fun heq => hsame ?_
      obtain ⟨rfl, rfl⟩ := key_injective heq
      exact ⟨rfl, rfl⟩
  case stored =>
    intro k used time hk
    obtain ⟨before, hbefore⟩ | ⟨rfl, rfl | ⟨before, expiresAt, hbefore, rfl⟩⟩ := incr_stored hk
    · exact h.stored k before time hbefore
    · refine ⟨subject, config.window answer, rfl, _, rfl, ?_⟩
      gcongr
    · exact h.stored _ before _ hbefore
  case limited =>
    intro other w
    rw [tally_concat, allowedIn_concat]
    have hlimited := h.limited other w
    by_cases hsame : subject = other ∧ config.window answer = w
    · obtain ⟨rfl, rfl⟩ := hsame
      simp only [config.decide_allowed, hused, true_and, and_self, if_true]
      split <;> omega
    · rw [if_neg hsame, if_neg (fun hall => hsame ⟨hall.1, hall.2.1⟩)]
      exact hlimited

/-- `Inv` is kept by every round trip. -/
theorem inv_step [DecidableEq Proc] {s s' : Cluster Proc} {e : Trips Proc} (h : Inv config ns s)
    (hstep : Cluster.step config ns s e = some s') : Inv config ns s' := by
  cases e with
  | tick now =>
    simp only [Cluster.step] at hstep
    split at hstep
    · rename_i hle
      obtain rfl := Option.some.inj hstep
      exact { h with
        answered := fun p subject answer hp => (h.answered p subject answer hp).trans hle }
    · exact nomatch hstep
  | time proc subject =>
    simp only [Cluster.step] at hstep
    split at hstep
    · exact nomatch hstep
    · obtain rfl := Option.some.inj hstep
      refine { h with answered := ?_ }
      intro p other answer hp
      simp only at hp
      split at hp
      · obtain ⟨-, rfl⟩ := Prod.mk.inj (Option.some.inj hp)
        exact serverTime_le s.now
      · exact h.answered p other answer hp
  | count proc => exact h.count hstep

/-- What the processes can rely on. -/
structure Shared (config : RateLimit) (ns : PyStr) (s : Cluster Proc) : Prop where
  limited : ∀ subject w, allowedIn s.counted subject w ≤ config.limit
  lasting : ∀ check ∈ s.counted, s.now < config.windowEnd check.window →
    (s.server.live (key ns check.subject check.window) s.now).map (·.1) =
      some (tally s.counted check.subject check.window)
  apart : ∀ subject w other v, key ns subject w = key ns other v → subject = other ∧ w = v
  bounded : ∀ k used time, s.server.counters k = some (used, time) → ∃ subject w,
    k = key ns subject w ∧ ∃ expiresAt, time = some expiresAt ∧
      config.windowEnd w ≤ expiresAt ∧ expiresAt ≤ config.windowEnd w + config.windowSeconds

/-- `Shared` holds in every reachable state of the cluster. -/
theorem cluster_shared [DecidableEq Proc] (start : Rat) {s : Cluster Proc}
    (h : (cluster config ns start).Reachable s) : Shared config ns s := by
  have hinv : Inv config ns s :=
    Machine.ReachableVia.invariant (inv_init start) (fun _ _ _ hi _ hs => inv_step hi hs) h
  constructor
  case limited => exact fun subject w => (hinv.limited subject w).trans (min_le_right _ _)
  case lasting =>
    intro check hmem hopen
    obtain ⟨_, hzero⟩ | ⟨time, hsome, _⟩ := (hinv.holds check.subject check.window).live hopen
    · have hpos : 0 < tally s.counted check.subject check.window :=
        List.countP_pos_iff.mpr ⟨check, hmem, by simp⟩
      omega
    · rw [hsome]
      rfl
  case apart => exact fun _ _ _ _ => key_injective
  case bounded =>
    intro k used time hk
    obtain ⟨subject, w, rfl, expiresAt, rfl, hle⟩ := hinv.stored k used time hk
    refine ⟨subject, w, rfl, expiresAt, rfl, ?_, hle⟩
    obtain ⟨hnone, _⟩ | ⟨time, hsome, hend⟩ := hinv.holds subject w
    · rw [hnone] at hk
      exact nomatch hk
    · rw [hsome] at hk
      obtain ⟨-, htime⟩ := Prod.mk.inj (Option.some.inj hk)
      obtain rfl := Option.some.inj htime
      exact hend

/-- Two processes that ask for the time before either counts. -/
def race : List (Trips Bool) :=
  [.tick 59, .time true (lit "key"), .time false (lit "key"), .count false, .count true]

/-- A race of two processes for one place, which one of them gets. -/
theorem cluster_shared_race : ∃ s : Cluster Bool,
    (cluster InMemoryRateLimiter.oneAMinute (lit "nexaassist:ratelimit") 0).run race = some s ∧
    s.counted.map Counted.allowed = [true, false] ∧
    Shared InMemoryRateLimiter.oneAMinute (lit "nexaassist:ratelimit") s := by
  have hcounted : ((cluster InMemoryRateLimiter.oneAMinute (lit "nexaassist:ratelimit") 0).run
      race).map (fun s => s.counted.map Counted.allowed) = some [true, false] := by
    decide +kernel
  obtain ⟨s, hrun, hallowed⟩ := Option.map_eq_some_iff.mp hcounted
  exact ⟨s, hrun, hallowed, cluster_shared 0 (Machine.reachable_of_run race hrun)⟩

end RedisRateLimiter

end NexaAssist
