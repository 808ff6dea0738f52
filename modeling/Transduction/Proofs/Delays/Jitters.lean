import Transduction.Proofs.Delays.Plans

/-!
# What jitter leaves of a delay

Each strategy leaves a fixed part of a delay and adds a draw to it. So the possible outcomes are all
durations between a least and a greatest one. They are parts of what jitter can count of the delay,
which is less than the delay if that is beyond 64 bits of nanoseconds. Such a delay is shortened by
every strategy, also by the one that leaves nothing to chance, and a plan with long delays and
without jitter does not give its base delays.

## Main results

* `Jitter.exists_apply_iff`: the possible outcomes.
* `Jitter.staysWithin_eq_true`: no draw leaves the bounds of its strategy.
* `Schedule.read_planned_none`: what a plan without jitter gives.
* `Backoff.jitter_stays_within`: the bounds of every strategy.
* `Backoff.none_cuts_delays`: delays that are cut without jitter.
-/

namespace Transduction

namespace Jitter

variable (strategy : Jitter) (delay : Duration)

/-- What jitter counts of a delay is a duration. -/
theorem counted_le_maxNanos : counted delay ≤ Duration.maxNanos :=
  Nat.le_trans (Nat.min_le_left _ _) delay.nanos_le

theorem counted_eq_iff : counted delay = delay.nanos ↔ delay.nanos ≤ cap := by
  rw [counted]
  omega

/-- An outcome is the fixed part of the delay and a draw. -/
theorem nanos_apply (dice : Dice) : (strategy.apply delay dice).1.nanos =
    strategy.least delay + (dice.upTo (strategy.spread delay)).1 := by
  have hmax := counted_le_maxNanos delay
  have hzero : (dice.upTo 0).1 = 0 := Nat.mod_one _
  cases strategy with
  | none =>
    simp only [apply, least, spread, hzero, Duration.nanos_clip]
    omega
  | full =>
    have hdrawn := Dice.upTo_le dice (counted delay)
    by_cases hcounted : counted delay = 0
    · simp [apply, least, spread, hcounted, hzero]
    · simp only [apply, least, spread, if_neg hcounted, Duration.nanos_clip]
      omega
  | equal =>
    have hdrawn := Dice.upTo_le dice (counted delay / 2)
    by_cases hhalf : counted delay / 2 = 0
    · simp only [apply, least, spread, hhalf, if_true, hzero, Duration.nanos_clip]
      omega
    · simp only [apply, least, spread, if_neg hhalf, Duration.nanos_clip]
      omega

/-- The possible outcomes are those from the fixed part of the delay to this part and the most that
is drawn. -/
theorem exists_apply_iff {outcome : Duration} :
    (∃ dice, (strategy.apply delay dice).1 = outcome) ↔
      strategy.least delay ≤ outcome.nanos ∧
        outcome.nanos ≤ strategy.least delay + strategy.spread delay := by
  constructor
  · rintro ⟨dice, rfl⟩
    have hdrawn := Dice.upTo_le dice (strategy.spread delay)
    rw [nanos_apply]
    omega
  · rintro ⟨hleast, hmost⟩
    -- A die that shows what is missing.
    let missing : Nat := outcome.nanos - strategy.least delay
    have hmissing : missing < strategy.spread delay + 1 := by omega
    refine ⟨⟨fun _ => missing, 0⟩, Duration.ext_nanos ?_⟩
    rw [nanos_apply, Dice.upTo, Nat.mod_eq_of_lt hmissing]
    omega

theorem staysWithin_eq_true (count : Nat) (dice : Dice) :
    strategy.staysWithin delay count dice = true := by
  induction count generalizing dice with
  | zero => rfl
  | succ count ih =>
    obtain ⟨hleast, hmost⟩ := (strategy.exists_apply_iff delay).1 ⟨dice, rfl⟩
    simp only [staysWithin, hleast, hmost, ih, decide_true, Bool.and_self]

/-- The fixed part is the least outcome, which comes up where nothing is drawn. -/
theorem forall_le_nanos_apply_iff {n : Nat} :
    (∀ dice, n ≤ (strategy.apply delay dice).1.nanos) ↔ n ≤ strategy.least delay := by
  constructor
  · intro h
    have hnothing := h ⟨fun _ => 0, 0⟩
    rwa [nanos_apply, Dice.upTo, Nat.zero_mod, Nat.add_zero] at hnothing
  · intro h dice
    rw [nanos_apply]
    omega

theorem apply_none (dice : Dice) : none.apply delay dice = (.clip (counted delay), dice) := rfl

/-- Without jitter, the delays that can be counted are kept, and only those. -/
theorem apply_none_eq_self_iff (dice : Dice) :
    (none.apply delay dice).1 = delay ↔ delay.nanos ≤ cap := by
  rw [apply_none, ← counted_eq_iff]
  have hmax := counted_le_maxNanos delay
  constructor
  · intro hclip
    have hnanos : min (counted delay) Duration.maxNanos = delay.nanos :=
      congrArg Duration.nanos hclip
    omega
  · intro hcounted
    rw [hcounted, Duration.clip_nanos]

/-- Half of the delay is kept of those that can be counted, and only of those. -/
theorem half_le_least_equal_iff : delay.nanos / 2 ≤ equal.least delay ↔ delay.nanos ≤ cap := by
  have hcap : cap = 18446744073709551615 := rfl
  by_cases hhalf : counted delay / 2 = 0
  · simp only [least, if_pos hhalf]
    rw [counted] at hhalf ⊢
    omega
  · simp only [least, if_neg hhalf]
    rw [counted] at hhalf ⊢
    omega

end Jitter

/-! ### The delays of a plan -/

namespace Schedule

variable (plan : Backoff)

/-- What a plan gives, from some retry on: jitter applied to the base delays, one after the other. -/
theorem getElem?_readFrom_planned (count retry : Nat) (dice : Dice) {i : Nat} {given : Duration}
    (h : ((planned plan).readFrom count retry dice).delays[i]? = some given) :
    retry + i < plan.maxRetries ∧ ∃ dice, given = (plan.delay (retry + i) dice).1 := by
  induction count generalizing retry dice i with
  | zero => cases h
  | succ count ih =>
    by_cases hretry : retry < plan.maxRetries
    · simp only [readFrom, next?, if_pos hretry] at h
      cases i with
      | zero => exact ⟨hretry, dice, (Option.some.inj h).symm⟩
      | succ i =>
        have hindex : retry + (i + 1) = retry + 1 + i := by omega
        rw [hindex]
        exact ih (retry + 1) _ h
    · simp only [readFrom, next?, if_neg hretry] at h
      cases h

theorem readFrom_planned_none (hnone : plan.jitter = .none) (count retry : Nat) (dice : Dice)
    (hretry : retry ≤ plan.maxRetries) :
    (planned plan).readFrom count retry dice =
      ⟨(List.range (min count (plan.maxRetries - retry))).map fun i =>
        .clip (Jitter.counted (plan.baseDelay (retry + i))),
        decide (plan.maxRetries - retry < count), dice⟩ := by
  have hdelay (k : Nat) : plan.delay k dice =
      (.clip (Jitter.counted (plan.baseDelay k)), dice) := by
    rw [Backoff.delay, hnone, Jitter.apply_none]
  induction count generalizing retry with
  | zero => simp [readFrom]
  | succ count ih =>
    by_cases hmore : retry < plan.maxRetries
    · have hrest := ih (retry + 1) hmore
      have hlength : min (count + 1) (plan.maxRetries - retry) =
          min count (plan.maxRetries - (retry + 1)) + 1 := by omega
      have hended : plan.maxRetries - (retry + 1) < count ↔ plan.maxRetries - retry < count + 1 := by
        omega
      have hindex (i : Nat) : retry + 1 + i = retry + (i + 1) := by omega
      simp only [readFrom, next?, if_pos hmore, hdelay, hrest, hlength, List.range_succ_eq_map,
        List.map_cons, List.map_map, hended, hindex]
      rfl
    · have hover : plan.maxRetries - retry = 0 := by omega
      simp [readFrom, next?, hmore, hover]

/-- A plan without jitter gives what can be counted of its base delays, one for every retry. -/
theorem read_planned_none (hnone : plan.jitter = .none) (count : Nat) (dice : Dice) :
    (planned plan).read count dice =
      ⟨(List.range (min count plan.maxRetries)).map fun retry =>
        .clip (Jitter.counted (plan.baseDelay retry)), decide (plan.maxRetries < count), dice⟩ := by
  have hread := readFrom_planned_none plan hnone count 0 dice (Nat.zero_le _)
  simp only [Nat.zero_add, Nat.sub_zero] at hread
  exact hread

end Schedule

namespace Backoff

theorem baseDelay_le_ofMillis (plan : Backoff) (retry : Nat) :
    plan.baseDelay retry ≤ .ofMillis plan.maxMillis :=
  Duration.ofMillis_le_ofMillis (Nat.min_le_right _ _)

/-- Every strategy has exactly the outcomes from a least to a greatest one, and none is longer than
the delay. Without jitter the delay is kept, and half of it is kept by the strategy that draws the
other half, if and only if the delay can be counted in 64 bits of nanoseconds.

A plan without jitter gives what can be counted of its base delays, so it gives its base delays if
all of them can be counted. No strategy makes a plan give more than its longest delay. -/
theorem jitter_stays_within (delay : Duration) (plan : Backoff) :
    (∀ (strategy : Jitter) outcome, (∃ dice, (strategy.apply delay dice).1 = outcome) ↔
        strategy.least delay ≤ outcome.nanos ∧
          outcome.nanos ≤ strategy.least delay + strategy.spread delay) ∧
      (∀ (strategy : Jitter) dice, (strategy.apply delay dice).1 ≤ delay) ∧
      (∀ dice, (Jitter.none.apply delay dice).1 = delay ↔ delay.nanos ≤ Jitter.cap) ∧
      ((∀ dice, delay.nanos / 2 ≤ (Jitter.equal.apply delay dice).1.nanos) ↔
        delay.nanos ≤ Jitter.cap) ∧
      (plan.jitter = .none → ∀ count dice, (Schedule.planned plan).read count dice =
        ⟨(List.range (min count plan.maxRetries)).map fun retry =>
          .clip (Jitter.counted (plan.baseDelay retry)), decide (plan.maxRetries < count), dice⟩) ∧
      (plan.jitter = .none →
        (∀ retry, retry < plan.maxRetries → (plan.baseDelay retry).nanos ≤ Jitter.cap) →
          ∀ count dice, ((Schedule.planned plan).read count dice).delays =
            (List.range (min count plan.maxRetries)).map plan.baseDelay) ∧
      ∀ count dice, ∀ given ∈ ((Schedule.planned plan).read count dice).delays,
        given ≤ .ofMillis plan.maxMillis := by
  refine ⟨fun strategy outcome => strategy.exists_apply_iff delay, fun strategy dice =>
    strategy.nanos_apply_le delay dice, Jitter.apply_none_eq_self_iff delay, ?_,
    Schedule.read_planned_none plan, fun hnone hcounted count dice => ?_,
    fun count dice given hgiven => ?_⟩
  · rw [Jitter.forall_le_nanos_apply_iff, Jitter.half_le_least_equal_iff]
  · rw [Schedule.read_planned_none plan hnone]
    refine List.map_congr_left fun retry hretry => ?_
    have hlt : retry < plan.maxRetries :=
      Nat.lt_of_lt_of_le (List.mem_range.1 hretry) (Nat.min_le_right _ _)
    exact (Jitter.apply_none_eq_self_iff _ dice).2 (hcounted retry hlt)
  · obtain ⟨retry, hretry⟩ := List.getElem?_of_mem hgiven
    obtain ⟨-, dice', rfl⟩ := Schedule.getElem?_readFrom_planned plan count 0 dice hretry
    have hbase : (plan.delay (0 + retry) dice').1.nanos ≤ (plan.baseDelay (0 + retry)).nanos :=
      plan.delay_le_baseDelay (0 + retry) dice'
    exact Nat.le_trans hbase (plan.baseDelay_le_ofMillis (0 + retry))

/-- A plan of three retries without jitter: all of its delays can be counted, so it gives its base
delays, and the last one is within its cap. -/
theorem jitter_stays_within_three :
    let plan : Backoff := { baseMillis := 100, maxMillis := 5000, jitter := .none }
    let given := ((Schedule.planned plan).read 9 ⟨id, 0⟩).delays
    plan.jitter = .none ∧
      (∀ retry, retry < plan.maxRetries → (plan.baseDelay retry).nanos ≤ Jitter.cap) ∧
      given = [.ofMillis 100, .ofMillis 200, .ofMillis 400] ∧ .ofMillis 400 ∈ given ∧
      Duration.ofMillis 400 ≤ .ofMillis plan.maxMillis := by
  intro plan given
  have hbounds := jitter_stays_within .zero plan
  have hcounted : ∀ retry, retry < plan.maxRetries →
      (plan.baseDelay retry).nanos ≤ Jitter.cap := by decide
  have hgiven : given = (List.range 3).map plan.baseDelay :=
    hbounds.2.2.2.2.2.1 rfl hcounted 9 ⟨id, 0⟩
  have hlast : .ofMillis 400 ∈ given := by rw [hgiven]; decide
  exact ⟨rfl, hcounted, by rw [hgiven]; decide, hlast, hbounds.2.2.2.2.2.2 9 ⟨id, 0⟩ _ hlast⟩

/-- The shortest delay that cannot be counted loses a nanosecond without any jitter, and of the longest
one less than half is kept by the strategy that draws the other half. A plan without jitter does not
give its base delay, either. -/
theorem none_cuts_delays :
    let delay : Duration := .clip (Jitter.cap + 1)
    let plan : Backoff :=
      { maxRetries := 1, baseMillis := Growth.cap, maxMillis := Growth.cap, jitter := .none }
    let dice : Dice := ⟨id, 0⟩
    (Jitter.none.apply delay dice).1 = .clip Jitter.cap ∧
      (Jitter.none.apply delay dice).1 ≠ delay ∧
      (Jitter.equal.apply .max dice).1.nanos < Duration.max.nanos / 2 ∧
      ((Schedule.planned plan).read 1 dice).delays ≠ [plan.baseDelay 0] := by
  decide

end Backoff

end Transduction
