import Mathlib.Data.Nat.Fib.Basic
import Transduction.Proofs.Delays.Growing

/-!
# Planned delays

The base delays of a plan are computed in whole milliseconds of 64 bits, each one from its number
alone. The schedule that grows in the same way computes each delay from the one before it, in
nanoseconds up to the largest duration. Both cut numbers on the way, at different places. But a
number is only cut where it is beyond 64 bits of milliseconds, and no plan has a longest delay
beyond them, so every cut is hidden by the cap of the plan.

## Main definitions

* `Growth.multiple`: the exact multiple of the first delay for a retry.
* `Growth.schedule`: the schedule that grows in this way.

## Main results

* `Growth.doubledFrom_eq`, `Growth.fibonacciFrom_eq`: what the loops with early exits compute.
* `Growth.factor_eq`: the exact multiple, cut once.
* `Schedule.read_maxDelay`: a reading through a cap.
* `Backoff.baseDelay_exact`: the base delays of a plan.
-/

namespace Transduction

/-! ### Multiples of the first delay -/

namespace Growth

/-- The exact multiple of the first delay for a retry, counted from zero. -/
def multiple : Growth → Nat → Nat
  | exponential, retry => 2 ^ retry
  | linear, retry => retry + 1
  | constant, _ => 1
  | fibonacci, retry => Nat.fib (retry + 1)

theorem multiple_mono (growth : Growth) {earlier later : Nat} (h : earlier ≤ later) :
    growth.multiple earlier ≤ growth.multiple later := by
  cases growth with
  | exponential => exact Nat.pow_le_pow_right (by decide) h
  | linear => exact Nat.succ_le_succ h
  | constant => exact Nat.le_refl 1
  | fibonacci => exact Nat.fib_mono (Nat.succ_le_succ h)

theorem doubledFrom_eq (n a : Nat) (h : a ≤ cap) : doubledFrom n a = min (a * 2 ^ n) cap := by
  induction n generalizing a with
  | zero =>
    show a = min (a * 1) cap
    omega
  | succ n ih =>
    have hpow : a * 2 ^ (n + 1) = a * 2 * 2 ^ n := by ring
    by_cases hcap : a = cap
    · -- The loop ends early, and all later numbers are beyond the largest one.
      have hbeyond : cap ≤ a * 2 ^ (n + 1) := by
        rw [hcap]
        exact Nat.le_mul_of_pos_right _ (Nat.two_pow_pos _)
      rw [doubledFrom, if_pos hcap]
      omega
    · rw [doubledFrom, if_neg hcap, ih _ (Nat.min_le_right _ _), min_mul_min, hpow]

/-- From two neighbouring Fibonacci numbers, each of them cut, the loop goes on to a later one. -/
theorem fibonacciFrom_eq (n k : Nat) :
    fibonacciFrom n (min (Nat.fib k) cap) (min (Nat.fib (k + 1)) cap) =
      min (Nat.fib (k + n)) cap := by
  induction n generalizing k with
  | zero => rfl
  | succ n ih =>
    by_cases hcap : min (Nat.fib k) cap = cap
    · have hmono : Nat.fib k ≤ Nat.fib (k + (n + 1)) := Nat.fib_mono (Nat.le_add_right _ _)
      rw [fibonacciFrom, if_pos hcap]
      omega
    · have hsum : min (min (Nat.fib k) cap + min (Nat.fib (k + 1)) cap) cap =
          min (Nat.fib (k + 2)) cap := by
        rw [Nat.fib_add_two]
        omega
      have hindex : k + (n + 1) = k + 1 + n := by omega
      rw [fibonacciFrom, if_neg hcap, hsum, hindex, ih]

theorem factor_exponential (retry : Nat) : factor .exponential retry = min (2 ^ retry) cap := by
  rw [factor, doubledFrom_eq _ 1 (by decide), Nat.one_mul]
  rcases Nat.le_total retry exponentCap with hle | hle
  · rw [Nat.min_eq_left hle]
  · -- An exponent that is cut is beyond 64, and so are all powers beyond the largest number.
    have hcut : 2 ^ 64 ≤ 2 ^ exponentCap := Nat.pow_le_pow_right (by decide) (by decide)
    have hexact : 2 ^ exponentCap ≤ 2 ^ retry := Nat.pow_le_pow_right (by decide) hle
    have hcap : cap ≤ 2 ^ 64 := by decide
    rw [Nat.min_eq_right hle]
    omega

theorem factor_fibonacci (retry : Nat) :
    factor .fibonacci retry = min (Nat.fib (retry + 1)) cap := by
  have hloop : factor .fibonacci retry = min (Nat.fib (min (retry + 1) cap)) cap := by
    have hzero : min (Nat.fib 0) cap = 0 := by decide
    have hone : min (Nat.fib (0 + 1)) cap = 1 := by decide
    have hfrom := fibonacciFrom_eq (min (retry + 1) cap) 0
    rwa [hzero, hone, Nat.zero_add] at hfrom
  rw [hloop]
  rcases Nat.le_total (retry + 1) cap with hle | hle
  · rw [Nat.min_eq_left hle]
  · -- From the fifth one on, Fibonacci numbers are as large as their index.
    have hcut : cap ≤ Nat.fib cap := Nat.le_fib_self (by decide)
    have hexact : Nat.fib cap ≤ Nat.fib (retry + 1) := Nat.fib_mono hle
    rw [Nat.min_eq_right hle]
    omega

/-- The multiple that a plan computes is the exact one, cut to 64 bits. -/
theorem factor_eq (growth : Growth) (retry : Nat) :
    growth.factor retry = min (growth.multiple retry) cap := by
  cases growth with
  | exponential => exact factor_exponential retry
  | linear => rfl
  | constant => rfl
  | fibonacci => exact factor_fibonacci retry

/-- The schedule that grows in this way from a first delay. -/
def schedule (base : Duration) : Growth → Schedule
  | exponential => .exponential base 2
  | linear => .linear base
  | constant => .spaced base
  | fibonacci => .fibonacci base

theorem endless_schedule (growth : Growth) (base : Duration) :
    (growth.schedule base).Endless fun n => .clip (base.nanos * growth.multiple n) := by
  cases growth with
  | exponential => exact Schedule.endless_exponential base 2
  | linear => exact Schedule.endless_linear base
  | fibonacci => exact Schedule.endless_fibonacci base
  | constant =>
    have hone : Duration.clip (base.nanos * 1) = base := by rw [Nat.mul_one, Duration.clip_nanos]
    simp only [multiple, hone]
    exact Schedule.endless_spaced base

end Growth

/-! ### Readings through a cap -/

namespace Schedule

variable {schedule : Schedule} {delay : Nat → Duration}

theorem readFrom_maxDelay (cap : Duration) (count : Nat) (pass : schedule.Pass) (dice : Dice) :
    (maxDelay cap schedule).readFrom count pass dice =
      let reading := schedule.readFrom count pass dice
      ⟨reading.delays.map (·.shorter cap), reading.ended, reading.dice⟩ := by
  induction count generalizing pass dice with
  | zero => rfl
  | succ count ih =>
    simp only [readFrom, next?]
    rcases schedule.next? pass dice with ⟨_ | ⟨delay, rest⟩, dice'⟩
    · rfl
    · have hrest := ih rest dice'
      simp only [Option.map_some, hrest, List.map_cons]

/-- A cap shortens the delays of a schedule and changes nothing else. -/
theorem read_maxDelay (cap : Duration) (schedule : Schedule) (count : Nat) (dice : Dice) :
    (maxDelay cap schedule).read count dice =
      let reading := schedule.read count dice
      ⟨reading.delays.map (·.shorter cap), reading.ended, reading.dice⟩ :=
  readFrom_maxDelay cap count schedule.start dice

theorem Endless.maxDelay (h : schedule.Endless delay) (cap : Duration) :
    (Schedule.maxDelay cap schedule).Endless fun n => (delay n).shorter cap := by
  intro count dice
  simp only [read_maxDelay, h count dice, List.map_map]
  rfl

end Schedule

/-! ### The base delays of a plan -/

namespace Duration

theorem ofMillis_le_ofMillis {a b : Nat} (h : a ≤ b) : ofMillis a ≤ ofMillis b :=
  clip_le_clip (Nat.mul_le_mul_right _ h)

/-- All milliseconds of 64 bits are durations. -/
theorem nanos_ofMillis {millis : Nat} (h : millis ≤ Growth.cap) :
    (ofMillis millis).nanos = millis * nanosPerMilli := by
  have hfits : millis * nanosPerMilli ≤ Growth.cap * nanosPerMilli := Nat.mul_le_mul_right _ h
  have hmax : Growth.cap * nanosPerMilli ≤ maxNanos := by decide
  exact Nat.min_eq_left (Nat.le_trans hfits hmax)

end Duration

namespace Backoff

variable (plan : Backoff)

/-- The milliseconds of a base delay, without any cut but the cap of the plan. -/
theorem baseMillisFor_eq (h : plan.maxMillis ≤ Growth.cap) (retry : Nat) :
    plan.baseMillisFor retry = min (plan.baseMillis * plan.growth.multiple retry) plan.maxMillis := by
  have hcut : min (plan.baseMillis * plan.growth.factor retry) Growth.cap =
      min (plan.baseMillis * plan.growth.multiple retry) Growth.cap := by
    rw [Growth.factor_eq, Nat.mul_comm, min_mul_min, Nat.mul_comm]
  rw [baseMillisFor, hcut]
  omega

/-- The base delay of a retry and the delay of the growing schedule that is capped like the plan. -/
theorem baseDelay_eq_shorter (h : plan.maxMillis ≤ Growth.cap) (retry : Nat) :
    plan.baseDelay retry =
      (Duration.clip ((Duration.ofMillis plan.baseMillis).nanos * plan.growth.multiple retry)).shorter
        (.ofMillis plan.maxMillis) := by
  apply Duration.ext_nanos
  have hle : min (plan.baseMillis * plan.growth.multiple retry) plan.maxMillis ≤ Growth.cap :=
    Nat.le_trans (Nat.min_le_right _ _) h
  have hcap : plan.maxMillis * Duration.nanosPerMilli ≤ Duration.maxNanos := by
    rw [← Duration.nanos_ofMillis h]
    exact (Duration.ofMillis plan.maxMillis).nanos_le
  have hproduct : plan.baseMillis * Duration.nanosPerMilli * plan.growth.multiple retry =
      plan.baseMillis * plan.growth.multiple retry * Duration.nanosPerMilli := Nat.mul_right_comm _ _ _
  rw [baseDelay, baseMillisFor_eq plan h, Duration.nanos_ofMillis hle, Duration.nanos_shorter,
    Duration.nanos_ofMillis h, Duration.nanos_clip, Duration.ofMillis, Duration.nanos_clip,
    min_mul_min, hproduct, ← Nat.mul_min_mul_right]
  omega

/-- The base delay of a retry is the first delay of its plan times the exact multiple, but at most
the longest delay of the plan, however large the numbers are. The schedule that grows in the same way
and has the same cap gives the same delays. They never get shorter. -/
theorem baseDelay_exact (h : plan.maxMillis ≤ Growth.cap) :
    (∀ retry, (plan.baseDelay retry).nanos =
        min (plan.baseMillis * plan.growth.multiple retry) plan.maxMillis *
          Duration.nanosPerMilli) ∧
      (Schedule.maxDelay (.ofMillis plan.maxMillis)
        (plan.growth.schedule (.ofMillis plan.baseMillis))).Endless plan.baseDelay ∧
      ∀ earlier later, earlier ≤ later → plan.baseDelay earlier ≤ plan.baseDelay later := by
  refine ⟨fun retry => ?_, ?_, fun earlier later hle => ?_⟩
  · have hfits : plan.baseMillisFor retry ≤ Growth.cap := Nat.le_trans (Nat.min_le_right _ _) h
    rw [baseDelay, Duration.nanos_ofMillis hfits, baseMillisFor_eq plan h]
  · have hendless := (plan.growth.endless_schedule (.ofMillis plan.baseMillis)).maxDelay
      (.ofMillis plan.maxMillis)
    have hdelays : plan.baseDelay = _ := funext (baseDelay_eq_shorter plan h)
    rwa [hdelays]
  · have hproduct : plan.baseMillis * plan.growth.multiple earlier ≤
        plan.baseMillis * plan.growth.multiple later :=
      Nat.mul_le_mul_left _ (plan.growth.multiple_mono hle)
    refine Duration.ofMillis_le_ofMillis ?_
    rw [baseMillisFor_eq plan h, baseMillisFor_eq plan h]
    omega

/-- Fibonacci delays without a cap of their own, for the last retry that can be counted: the index
of the next retry and all numbers on the way are cut, and the delay is the longest one of 64 bits. -/
theorem baseDelay_exact_last :
    let plan : Backoff :=
      { baseMillis := 3, maxMillis := Growth.cap, growth := .fibonacci, jitter := .none }
    plan.maxMillis ≤ Growth.cap ∧ 5 ≤ Growth.cap ∧
      plan.baseDelay 5 ≤ plan.baseDelay Growth.cap ∧
      plan.baseDelay 5 = .ofMillis 24 ∧ plan.baseDelay Growth.cap = .ofMillis Growth.cap := by
  intro plan
  have hcap : plan.maxMillis ≤ Growth.cap := Nat.le_refl _
  have hle : 5 ≤ Growth.cap := by decide
  exact ⟨hcap, hle, (baseDelay_exact plan hcap).2.2 5 Growth.cap hle, by decide, by decide⟩

end Backoff

end Transduction
