import Transduction.Schedule.Backoff

/-!
# Schedules

A schedule is a description of a finite or endless sequence of delays. A pass reads the sequence
once, one delay at a time; every pass starts again from the first delay.

## Main definitions

* `Schedule`: the descriptions.
* `Schedule.Pass`, `Schedule.start`, `Schedule.next?`: one reading of a schedule.
* `Schedule.read`: the first delays of a pass, and whether the schedule ended before.

## Main results

* `Schedule.length_read_le`: no more delays are read than asked for.
-/

namespace Transduction

/-- A sequence of delays. -/
inductive Schedule where
  /-- No delays. -/
  | never
  /-- One delay. -/
  | once (delay : Duration)
  /-- A number of delays of no time. -/
  | recurs (count : Nat)
  /-- Endless delays of no time. -/
  | forever
  /-- Endless delays of the same length. -/
  | spaced (delay : Duration)
  /-- The given delays. -/
  | durations (delays : List Duration)
  /-- The multiples of a delay. -/
  | linear (base : Duration)
  /-- A delay multiplied by a factor again and again. -/
  | exponential (base : Duration) (factor : Nat)
  /-- Two equal delays, then the sum of the two before. -/
  | fibonacci (base : Duration)
  /-- The delays of a plan. -/
  | planned (plan : Backoff)
  /-- The first delays of a schedule. -/
  | take (count : Nat) (schedule : Schedule)
  /-- The delays of a schedule, none longer than a cap. -/
  | maxDelay (cap : Duration) (schedule : Schedule)
  /-- The delays of a schedule, as long as their sum is within a budget. -/
  | maxCumulative (budget : Duration) (schedule : Schedule)
  /-- All delays of one schedule, then those of another. -/
  | followedBy (first second : Schedule)
  /-- The delays of a schedule with jitter. -/
  | jittered (strategy : Jitter) (schedule : Schedule)

namespace Schedule

/-- What a reading of a schedule has to remember. -/
def Pass : Schedule → Type
  | never => Unit
  | once _ => Bool
  | recurs _ => Nat
  | forever => Unit
  | spaced _ => Unit
  | durations _ => List Duration
  | linear _ => Duration
  | exponential _ _ => Duration
  | fibonacci _ => Duration × Duration
  | planned _ => Nat
  | take _ schedule => Nat × schedule.Pass
  | maxDelay _ schedule => schedule.Pass
  | maxCumulative _ schedule => Duration × schedule.Pass
  | followedBy first second => first.Pass ⊕ second.Pass
  | jittered _ schedule => schedule.Pass

/-- The beginning of a reading. -/
def start : (schedule : Schedule) → schedule.Pass
  | never => ()
  | once _ => true
  | recurs count => count
  | forever => ()
  | spaced _ => ()
  | durations delays => delays
  | linear base => base
  | exponential base _ => base
  | fibonacci base => (base, base)
  | planned _ => (0 : Nat)
  | take count schedule => (count, schedule.start)
  | maxDelay _ schedule => schedule.start
  | maxCumulative _ schedule => (Duration.zero, schedule.start)
  | followedBy first _ => .inl first.start
  | jittered _ schedule => schedule.start

/-- One less, if that is possible. -/
def countDown? : Nat → Option Nat
  | 0 => none
  | n + 1 => some n

/-- The next delay of a reading with the rest of it, if there is one, and the dice after it. -/
def next? : (schedule : Schedule) → schedule.Pass → Dice →
    Option (Duration × schedule.Pass) × Dice
  | never, (), dice => (none, dice)
  | once delay, pending, dice =>
    match (pending : Bool) with
    | true => (some (delay, false), dice)
    | false => (none, dice)
  | recurs _, remaining, dice => ((countDown? remaining).map fun left => (.zero, left), dice)
  | forever, (), dice => (some (.zero, ()), dice)
  | spaced delay, (), dice => (some (delay, ()), dice)
  | durations _, remaining, dice =>
    match (remaining : List Duration) with
    | [] => (none, dice)
    | delay :: rest => (some (delay, rest), dice)
  | linear base, current, dice => (some (current, current.saturatingAdd base), dice)
  | exponential _ factor, current, dice => (some (current, current.saturatingMul factor), dice)
  | fibonacci _, (current, following), dice =>
    (some (current, (following, current.saturatingAdd following)), dice)
  | planned plan, (retry : Nat), dice =>
    if retry < plan.maxRetries then
      let (delay, dice) := plan.delay retry dice
      (some (delay, retry + 1), dice)
    else (none, dice)
  | take _ schedule, (remaining, pass), dice =>
    match countDown? remaining with
    | none => (none, dice)
    | some left =>
      let (found, dice) := schedule.next? pass dice
      (found.map fun (delay, pass) => (delay, (left, pass)), dice)
  | maxDelay cap schedule, pass, dice =>
    let (found, dice) := schedule.next? pass dice
    (found.map fun (delay, pass) => (delay.shorter cap, pass), dice)
  | maxCumulative budget schedule, (spent, pass), dice =>
    match schedule.next? pass dice with
    | (none, dice) => (none, dice)
    | (some (delay, pass), dice) =>
      match spent.add? delay with
      | none => (none, dice)
      | some total => (if total ≤ budget then some (delay, (total, pass)) else none, dice)
  | followedBy first second, .inl pass, dice =>
    match first.next? pass dice with
    | (some (delay, pass), dice) => (some (delay, .inl pass), dice)
    | (none, dice) =>
      let (found, dice) := second.next? second.start dice
      (found.map fun (delay, pass) => (delay, .inr pass), dice)
  | followedBy _ second, .inr pass, dice =>
    let (found, dice) := second.next? pass dice
    (found.map fun (delay, pass) => (delay, .inr pass), dice)
  | jittered strategy schedule, pass, dice =>
    match schedule.next? pass dice with
    | (none, dice) => (none, dice)
    | (some (delay, pass), dice) =>
      let (delay, dice) := strategy.apply delay dice
      (some (delay, pass), dice)

/-- The delays read from a schedule, whether it ended before there were enough, and the dice after
the reading. -/
structure Reading where
  delays : List Duration
  ended : Bool
  dice : Dice

/-- Reads up to a number of delays. -/
def readFrom (schedule : Schedule) : Nat → schedule.Pass → Dice → Reading
  | 0, _, dice => ⟨[], false, dice⟩
  | n + 1, pass, dice =>
    match schedule.next? pass dice with
    | (none, dice) => ⟨[], true, dice⟩
    | (some (delay, pass), dice) =>
      let rest := readFrom schedule n pass dice
      { rest with delays := delay :: rest.delays }

/-- The first delays of a new pass. -/
def read (schedule : Schedule) (count : Nat) (dice : Dice) : Reading :=
  schedule.readFrom count schedule.start dice

/-- The first delays of several passes, one after the other. -/
def readPasses (schedule : Schedule) (count : Nat) : Nat → Dice → List Reading
  | 0, _ => []
  | passes + 1, dice =>
    let reading := schedule.read count dice
    reading :: schedule.readPasses count passes reading.dice

theorem length_readFrom_le (schedule : Schedule) (count : Nat) (pass : schedule.Pass)
    (dice : Dice) : (schedule.readFrom count pass dice).delays.length ≤ count := by
  induction count generalizing pass dice with
  | zero => exact Nat.le_refl 0
  | succ n ih =>
    unfold readFrom
    split
    · exact Nat.zero_le _
    · exact Nat.succ_le_succ (ih _ _)

theorem length_read_le (schedule : Schedule) (count : Nat) (dice : Dice) :
    (schedule.read count dice).delays.length ≤ count :=
  length_readFrom_le _ _ _ _

end Schedule

end Transduction
