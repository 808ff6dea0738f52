import Transduction.Dice
import Transduction.Duration

/-!
# Jitter

Random shortening of delays, so that many waiters do not wake at once. Jitter counts in
nanoseconds of 64 bits: a longer delay is first cut to the longest it can count, also where
nothing is drawn.

## Main definitions

* `Jitter`: no jitter, a draw between nothing and the delay, or between half of it and all of it.
* `Jitter.apply`: the delay to wait instead.
* `Jitter.fixed?`: the outcome where nothing is drawn.
* `Jitter.least`, `Jitter.spread`: the fixed part of a delay, and the most that is drawn.
* `Jitter.staysWithin`: whether some draws keep to these bounds.

## Main results

* `Jitter.nanos_apply_le`: jitter never lengthens a delay.
-/

namespace Transduction

/-- How much of a delay is left to chance. -/
inductive Jitter where
  /-- Nothing. -/
  | none
  /-- All of it. -/
  | full
  /-- The second half. -/
  | equal
  deriving DecidableEq, Repr

namespace Jitter

/-- The nanoseconds of the longest delay that jitter can count. -/
def cap : Nat := 18446744073709551615

/-- The nanoseconds that jitter counts for a delay. -/
def counted (delay : Duration) : Nat := min delay.nanos cap

/-- The delay to wait instead, with a draw where the strategy asks for one. -/
def apply (strategy : Jitter) (delay : Duration) (dice : Dice) : Duration × Dice :=
  let nanos := counted delay
  let half := nanos / 2
  match strategy with
  | none => (.clip nanos, dice)
  | full =>
    if nanos = 0 then (.clip 0, dice)
    else
      let (drawn, dice) := dice.upTo nanos
      (.clip drawn, dice)
  | equal =>
    if half = 0 then (.clip nanos, dice)
    else
      let (drawn, dice) := dice.upTo half
      (.clip (half + drawn), dice)

/-- The outcome, where it does not depend on chance. -/
def fixed? (strategy : Jitter) (delay : Duration) : Option Duration :=
  let nanos := counted delay
  match strategy with
  | none => some (.clip nanos)
  | full => if nanos = 0 then some (.clip 0) else Option.none
  | equal => if nanos / 2 = 0 then some (.clip nanos) else Option.none

/-- The nanoseconds of a delay that are not left to chance. -/
def least (strategy : Jitter) (delay : Duration) : Nat :=
  match strategy with
  | none => counted delay
  | full => 0
  | equal => if counted delay / 2 = 0 then counted delay else counted delay / 2

/-- The most that is drawn. -/
def spread (strategy : Jitter) (delay : Duration) : Nat :=
  match strategy with
  | none => 0
  | full => counted delay
  | equal => counted delay / 2

/-- Whether a strategy that is applied to a delay a number of times leaves the fixed part of the delay
each time, and no more than the most that is drawn beyond it. -/
def staysWithin (strategy : Jitter) (delay : Duration) : Nat → Dice → Bool
  | 0, _ => true
  | count + 1, dice =>
    let (outcome, dice) := strategy.apply delay dice
    strategy.least delay ≤ outcome.nanos &&
      outcome.nanos ≤ strategy.least delay + strategy.spread delay &&
      strategy.staysWithin delay count dice

theorem nanos_apply_le (strategy : Jitter) (delay : Duration) (dice : Dice) :
    (strategy.apply delay dice).1.nanos ≤ delay.nanos := by
  have hc : counted delay ≤ delay.nanos := Nat.min_le_left _ _
  cases strategy with
  | none => exact Nat.le_trans (Nat.min_le_left _ _) hc
  | full =>
    by_cases h : counted delay = 0
    · simp [apply, h]
    · have hd := Dice.upTo_le dice (counted delay)
      simp only [apply, h, if_false]
      exact Nat.le_trans (Nat.min_le_left _ _) (Nat.le_trans hd hc)
  | equal =>
    by_cases h : counted delay / 2 = 0
    · simp only [apply, h, if_true]
      exact Nat.le_trans (Nat.min_le_left _ _) hc
    · have hd := Dice.upTo_le dice (counted delay / 2)
      simp only [apply, h, if_false]
      exact Nat.le_trans (Nat.min_le_left _ _) (by omega)

/-- Where nothing is drawn, the outcome is the fixed one. -/
theorem apply_of_fixed? {strategy : Jitter} {delay outcome : Duration}
    (h : strategy.fixed? delay = some outcome) (dice : Dice) :
    strategy.apply delay dice = (outcome, dice) := by
  cases strategy with
  | none => cases h; rfl
  | full =>
    simp only [fixed?] at h
    split at h
    · next h0 => cases h; simp [apply, h0]
    · cases h
  | equal =>
    simp only [fixed?] at h
    split at h
    · next h0 => cases h; simp [apply, h0]
    · cases h

end Jitter

end Transduction
