import NexaAssist.ForStd.List
import NexaAssist.ForStd.PyNumeral
import NexaAssist.Ratelimit.Limiters

/-!
# Windows and their counters

Where a window ends, that its key in Redis is its own, and how long a counter is held.
-/

namespace NexaAssist

open PyJson

/-! ## Windows -/

namespace RateLimit

variable (config : RateLimit) {now later : Rat}

/-- A window takes some time. -/
theorem seconds_pos : (0 : Rat) < config.windowSeconds := by
  have := config.window_pos
  exact_mod_cast this

/-- A later time is in no earlier window. -/
theorem window_mono (h : now ≤ later) : config.window now ≤ config.window later :=
  Int.floor_le_floor (div_le_div_of_nonneg_right h config.seconds_pos.le)

/-- A time is before the end of its window. -/
theorem lt_windowEnd (now : Rat) : now < config.windowSeconds * (config.window now + 1) := by
  have hlt : now / config.windowSeconds < config.window now + 1 := Int.lt_floor_add_one _
  rwa [div_lt_iff₀' config.seconds_pos] at hlt

/-- A window after `now` has its end more than a window's length after it, or is its own. -/
theorem windowEnd_le (now : Rat) :
    config.windowSeconds * ((config.window now : Rat) + 1) ≤ now + config.windowSeconds := by
  have hle : (config.window now : Rat) ≤ now / config.windowSeconds := Int.floor_le _
  rw [le_div_iff₀' config.seconds_pos] at hle
  linarith

/-- `decide` allows a check just if no more than the limit is used. -/
theorem decide_allowed (used : Nat) (now : Rat) :
    (config.decide used now).allowed = true ↔ used ≤ config.limit := by
  unfold decide
  split <;> simp <;> omega

end RateLimit

/-! ## Keys -/

/-- Subjects and windows are told apart by their keys, whatever a subject is called. -/
theorem RedisRateLimiter.key_injective {ns subject other : PyStr} {w v : Int}
    (h : key ns subject w = key ns other v) : subject = other ∧ w = v := by
  have hcolon (w : Int) : Fin.ofNat 0x110000 ':'.toNat ∉ PyStr.ofString (toString w) := by
    intro hmem
    obtain ⟨c, hc, hcode⟩ := List.mem_map.mp hmem
    obtain hdigit | rfl := mem_toString_int hc
    · have hc' : c = ':' := by
        have := PyStr.ofString_injective (s := String.singleton c) (t := ":")
          (by simpa [PyStr.ofString] using hcode)
        simpa using congrArg String.toList this
      exact absurd hdigit (by rw [hc']; decide)
    · exact absurd hcode (by decide)
  have hparts : (ns ++ lit ":" ++ subject) ++ Fin.ofNat 0x110000 ':'.toNat ::
        PyStr.ofString (toString w) =
      (ns ++ lit ":" ++ other) ++ Fin.ofNat 0x110000 ':'.toNat :: PyStr.ofString (toString v) := by
    simpa [key, lit, PyStr.ofString] using h
  obtain ⟨hsubject, hwindow⟩ :=
    List.append_cons_inj_of_notMem_right (hcolon w) (hcolon v) hparts
  exact ⟨List.append_cancel_left hsubject,
    toString_int_injective (PyStr.ofString_injective hwindow)⟩

/-! ## Counters in Redis -/

namespace RedisCounters

variable {server : RedisCounters} {key other : PyStr} {n seconds : Nat} {upTo now : Rat}

/-- The counter of a key is `n`, and is there up to some time at least. -/
def Holds (server : RedisCounters) (key : PyStr) (n : Nat) (upTo : Rat) : Prop :=
  (server.counters key = none ∧ n = 0) ∨
    ∃ time, server.counters key = some (n, some time) ∧ upTo ≤ time

/-- A counter that is held is live with its count, or has not been written. -/
theorem Holds.live (h : server.Holds key n upTo) (hnow : now < upTo) :
    (server.live key now = none ∧ n = 0) ∨
      ∃ time, server.live key now = some (n, some time) ∧ upTo ≤ time := by
  obtain ⟨hnone, hzero⟩ | ⟨time, hsome, hle⟩ := h
  · exact .inl ⟨by rw [RedisCounters.live, hnone]; rfl, hzero⟩
  · have hlive : now < time := hnow.trans_le hle
    exact .inr ⟨time, by simp [RedisCounters.live, hsome, hlive], hle⟩

/-- While the counter is there, or before it is, it is counted up; and it stays until its time
    is over, which is not before `seconds` from when it was first set. -/
theorem Holds.incr (h : server.Holds key n upTo) (hnow : now < upTo)
    (hafter : upTo ≤ now + seconds) :
    (server.incrExpireNx key seconds now).1 = n + 1 ∧
      (server.incrExpireNx key seconds now).2.Holds key (n + 1) upTo := by
  obtain ⟨hnone, rfl⟩ | ⟨time, hsome, hle⟩ := h.live hnow
  · simp only [incrExpireNx, hnone]
    exact ⟨rfl, .inr ⟨now + seconds, if_pos rfl, hafter⟩⟩
  · simp only [incrExpireNx, hsome]
    exact ⟨rfl, .inr ⟨time, if_pos rfl, hle⟩⟩

/-- `INCR` of another key leaves a counter held. -/
theorem Holds.incr_of_ne (h : server.Holds other n upTo) (hne : other ≠ key) :
    (server.incrExpireNx key seconds now).2.Holds other n upTo := by
  simpa only [Holds, incrExpireNx, if_neg hne] using h

end RedisCounters

end NexaAssist
