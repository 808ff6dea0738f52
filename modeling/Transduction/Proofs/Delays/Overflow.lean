import Transduction.Proofs.Attempts.Budgets
import Transduction.Proofs.Delays.Jitters

/-!
# Arithmetic that cannot overflow

Durations and numbers of 64 bits are bounded, so a sum or a product of them may not fit. An
operation that does not fit has no result. It is harmless where it is guarded, that is where
something else is taken in its place: the largest number, or the end of a schedule. Where it is not
guarded, a computation that relies on it has no result, either.

Reading a schedule is computed here once more, with guarded and unguarded operations in place of the
bounded ones. That reading always has a result, and it is the one of the schedule: every operation
that is not guarded fits. The same is true of plans, of jitter and of the test for a deadline. The
sum of the waits that a sleeper was asked for is not guarded, and it need not fit.

## Main definitions

* `Word.ofNat?`, `Duration.ofNanos?`: exact results, where they fit.
* `Jitter.applyFitting?`, `Backoff.delay?`, `Schedule.nextFitting?`, `Schedule.readFitting?`: delays
  by operations that may not fit.
* `Env.overrunsBefore`: the test for a deadline with a clock that has a latest moment.

## Main results

* `Jitter.applyFitting?_eq`, `Backoff.delay?_eq`, `Schedule.nextFitting?_eq`,
  `Schedule.readFitting?_eq`: all of them have the result that they are to have.
* `Duration.total?_eq_some_iff`: when a sum has a result.
* `Stage.waiting_fits`: the arithmetic of scheduled stages.
* `Stage.total_does_not_fit`: waits whose sum does not fit.
-/

namespace Transduction

variable {σ X κ S A B T : Type} {schedule : Schedule}

/-! ### Results that fit -/

/-- A number, if it has 64 bits. -/
def Word.ofNat? (n : Nat) : Option Nat := if n ≤ Growth.cap then some n else none

theorem Word.ofNat?_of_le {n : Nat} (h : n ≤ Growth.cap) : ofNat? n = some n := if_pos h

/-- A guard that takes the largest number of 64 bits. -/
theorem Word.ofNat?_getD (n : Nat) : (ofNat? n).getD Growth.cap = min n Growth.cap := by
  by_cases h : n ≤ Growth.cap
  · rw [ofNat?_of_le h, Option.getD_some, Nat.min_eq_left h]
  · rw [ofNat?, if_neg h, Option.getD_none, Nat.min_eq_right (Nat.le_of_not_le h)]

namespace Duration

/-- A number of nanoseconds as a duration, if it is one. -/
def ofNanos? (nanos : Nat) : Option Duration :=
  if h : nanos ≤ maxNanos then some ⟨nanos, h⟩ else none

theorem ofNanos?_of_le {nanos : Nat} (h : nanos ≤ maxNanos) :
    ofNanos? nanos = some (clip nanos) := by
  rw [ofNanos?, dif_pos h]
  exact congrArg some (ext_nanos (Nat.min_eq_left h).symm)

/-- All numbers of 64 bits are durations in nanoseconds. -/
theorem ofNanos?_of_word {nanos : Nat} (h : nanos ≤ Growth.cap) :
    ofNanos? nanos = some (clip nanos) :=
  ofNanos?_of_le (Nat.le_trans h (by decide))

/-- A guard that takes the largest duration. -/
theorem ofNanos?_getD (nanos : Nat) : (ofNanos? nanos).getD max = clip nanos := by
  by_cases h : nanos ≤ maxNanos
  · rw [ofNanos?_of_le h, Option.getD_some]
  · rw [ofNanos?, dif_neg h, Option.getD_none]
    exact ext_nanos (Nat.min_eq_right (Nat.le_of_not_le h)).symm

theorem add?_eq_ofNanos? (a b : Duration) : a.add? b = ofNanos? (a.nanos + b.nanos) := rfl

theorem add?_getD (a b : Duration) : (a.add? b).getD max = a.saturatingAdd b := ofNanos?_getD _

/-- From a sum that is a duration, the durations of a list are added up if the exact sum is one. -/
theorem foldl_add? (waits : List Duration) {start : Nat} (h : start ≤ maxNanos) :
    waits.foldl (fun sum d => sum.bind (·.add? d)) (ofNanos? start) =
      ofNanos? (start + sumNanos waits) := by
  induction waits generalizing start with
  | nil => rfl
  | cons wait rest ih =>
    have hadd : (ofNanos? start).bind (·.add? wait) = ofNanos? (start + wait.nanos) := by
      rw [ofNanos?, dif_pos h]
      exact add?_eq_ofNanos? _ _
    rw [List.foldl_cons, hadd, sumNanos_cons, ← Nat.add_assoc]
    by_cases hnext : start + wait.nanos ≤ maxNanos
    · exact ih hnext
    · -- No later sum is a duration again.
      have hlost : ∀ later : List Duration,
          later.foldl (fun (sum : Option Duration) d => sum.bind (·.add? d)) none = none := by
        intro later
        induction later with
        | nil => rfl
        | cons _ _ ih => exact ih
      have hbeyond : ¬ start + wait.nanos + sumNanos rest ≤ maxNanos := by omega
      rw [ofNanos?, dif_neg hnext, ofNanos?, dif_neg hbeyond, hlost]

theorem total?_eq_ofNanos? (waits : List Duration) : total? waits = ofNanos? (sumNanos waits) := by
  have hsum := foldl_add? waits (Nat.zero_le maxNanos)
  rwa [Nat.zero_add] at hsum

/-- A sum has a result if the exact one is a duration. -/
theorem total?_eq_some_iff {waits : List Duration} {sum : Duration} :
    total? waits = some sum ↔ sum.nanos = sumNanos waits := by
  rw [total?_eq_ofNanos?, ofNanos?]
  split
  · exact ⟨fun h => (Option.some.inj h) ▸ rfl, fun h => congrArg some (ext_nanos h.symm)⟩
  · next hbeyond =>
    constructor
    · intro h
      cases h
    · intro h
      exact absurd (h ▸ sum.nanos_le) hbeyond

theorem total?_eq_none_iff {waits : List Duration} :
    total? waits = none ↔ maxNanos < sumNanos waits := by
  rw [total?_eq_ofNanos?, ofNanos?]
  split <;> simp <;> omega

end Duration

/-! ### Jitter and plans -/

/-- The delay to wait instead. Only the number of nanoseconds that jitter counts is guarded. -/
def Jitter.applyFitting? (strategy : Jitter) (delay : Duration) (dice : Dice) :
    Option (Duration × Dice) :=
  let nanos := (Word.ofNat? delay.nanos).getD Growth.cap
  let half := nanos / 2
  match strategy with
  | none => return (← Duration.ofNanos? nanos, dice)
  | full =>
    if nanos = 0 then return (← Duration.ofNanos? 0, dice)
    else do
      let (drawn, dice) := dice.upTo nanos
      return (← Duration.ofNanos? drawn, dice)
  | equal =>
    if half = 0 then return (← Duration.ofNanos? nanos, dice)
    else do
      let (drawn, dice) := dice.upTo half
      return (← Duration.ofNanos? (← Word.ofNat? (half + drawn)), dice)

/-- Half of what is counted and a draw up to this half are no more than what is counted. -/
theorem Jitter.applyFitting?_eq (strategy : Jitter) (delay : Duration) (dice : Dice) :
    strategy.applyFitting? delay dice = some (strategy.apply delay dice) := by
  have hcounted : (Word.ofNat? delay.nanos).getD Growth.cap = counted delay := Word.ofNat?_getD _
  have hword : counted delay ≤ Growth.cap := Nat.min_le_right _ _
  cases strategy with
  | none =>
    simp only [applyFitting?, hcounted, Duration.ofNanos?_of_word hword]
    rfl
  | full =>
    have hdrawn := Dice.upTo_le dice (counted delay)
    simp only [applyFitting?, apply, hcounted]
    split
    · rfl
    · rw [Duration.ofNanos?_of_word (Nat.le_trans hdrawn hword)]
      rfl
  | equal =>
    have hdrawn := Dice.upTo_le dice (counted delay / 2)
    have hsum : counted delay / 2 + (dice.upTo (counted delay / 2)).1 ≤ Growth.cap := by omega
    simp only [applyFitting?, apply, hcounted]
    split
    · rw [Duration.ofNanos?_of_word hword]
      rfl
    · simp only [Word.ofNat?_of_le hsum, Option.bind_eq_bind, Option.bind_some,
        Duration.ofNanos?_of_word hsum]
      rfl

namespace Backoff

variable (plan : Backoff) (retry : Nat) (dice : Dice)

/-- The delay planned before a retry. The multiple of the first delay is guarded, and so is its
product with the first delay. -/
def baseDelay? : Option Duration :=
  let factor := (Word.ofNat? (plan.growth.multiple retry)).getD Growth.cap
  let millis := (Word.ofNat? (plan.baseMillis * factor)).getD Growth.cap
  Duration.ofNanos? (min millis plan.maxMillis * Duration.nanosPerMilli)

/-- The delay before a retry, with jitter. -/
def delay? : Option (Duration × Dice) := do plan.jitter.applyFitting? (← plan.baseDelay? retry) dice

theorem baseDelay?_eq : plan.baseDelay? retry = some (plan.baseDelay retry) := by
  have hfactor : (Word.ofNat? (plan.growth.multiple retry)).getD Growth.cap =
      plan.growth.factor retry := by
    rw [Word.ofNat?_getD, Growth.factor_eq]
  have hword : plan.baseMillisFor retry ≤ Growth.cap :=
    Nat.le_trans (Nat.min_le_left _ _) (Nat.min_le_right _ _)
  have hfits : plan.baseMillisFor retry * Duration.nanosPerMilli ≤ Duration.maxNanos := by
    rw [← Duration.nanos_ofMillis hword]
    exact (Duration.ofMillis _).nanos_le
  simp only [baseDelay?, hfactor, Word.ofNat?_getD]
  exact Duration.ofNanos?_of_le hfits

theorem delay?_eq : plan.delay? retry dice = some (plan.delay retry dice) := by
  rw [delay?, baseDelay?_eq]
  exact Jitter.applyFitting?_eq _ _ dice

end Backoff

/-! ### Schedules -/

namespace Schedule

/-- The next delay of a reading. The steps of a growing schedule are guarded by the largest
duration, and the sum of a budget by the end of the schedule. -/
def nextFitting? : (schedule : Schedule) → schedule.Pass → Dice →
    Option (Option (Duration × schedule.Pass) × Dice)
  | linear base, current, dice =>
    some (some (current, (Duration.add? current base).getD .max), dice)
  | exponential _ factor, current, dice =>
    some (some (current,
      (Duration.ofNanos? (Duration.nanos current * factor)).getD .max), dice)
  | fibonacci _, (current, following), dice =>
    some (some (current, (following, (Duration.add? current following).getD .max)), dice)
  | planned plan, (retry : Nat), dice =>
    if retry < plan.maxRetries then do
      let (delay, dice) ← plan.delay? retry dice
      return (some (delay, retry + 1), dice)
    else some (none, dice)
  | take _ schedule, (remaining, pass), dice =>
    match countDown? remaining with
    | none => some (none, dice)
    | some left => do
      let (found, dice) ← schedule.nextFitting? pass dice
      return (found.map fun (delay, pass) => (delay, (left, pass)), dice)
  | maxDelay cap schedule, pass, dice => do
    let (found, dice) ← schedule.nextFitting? pass dice
    return (found.map fun (delay, pass) => (delay.shorter cap, pass), dice)
  | maxCumulative budget schedule, (spent, pass), dice => do
    match ← schedule.nextFitting? pass dice with
    | (none, dice) => return (none, dice)
    | (some (delay, pass), dice) =>
      match spent.add? delay with
      | none => return (none, dice)
      | some total =>
        return (if total ≤ budget then some (delay, (total, pass)) else none, dice)
  | followedBy first second, .inl pass, dice => do
    match ← first.nextFitting? pass dice with
    | (some (delay, pass), dice) => return (some (delay, .inl pass), dice)
    | (none, dice) =>
      let (found, dice) ← second.nextFitting? second.start dice
      return (found.map fun (delay, pass) => (delay, .inr pass), dice)
  | followedBy _ second, .inr pass, dice => do
    let (found, dice) ← second.nextFitting? pass dice
    return (found.map fun (delay, pass) => (delay, .inr pass), dice)
  | jittered strategy schedule, pass, dice => do
    match ← schedule.nextFitting? pass dice with
    | (none, dice) => return (none, dice)
    | (some (delay, pass), dice) =>
      let (delay, dice) ← strategy.applyFitting? delay dice
      return (some (delay, pass), dice)
  -- The other schedules give what they were made of and compute nothing.
  | schedule, pass, dice => some (schedule.next? pass dice)

/-- Reads up to a number of delays. -/
def readFitting? (schedule : Schedule) : Nat → schedule.Pass → Dice → Option Reading
  | 0, _, dice => some ⟨[], false, dice⟩
  | n + 1, pass, dice => do
    match ← schedule.nextFitting? pass dice with
    | (none, dice) => return ⟨[], true, dice⟩
    | (some (delay, pass), dice) =>
      let rest ← schedule.readFitting? n pass dice
      return { rest with delays := delay :: rest.delays }

/-- A schedule has a next delay, or an end, by operations that fit or are guarded. -/
theorem nextFitting?_eq (schedule : Schedule) (pass : schedule.Pass) (dice : Dice) :
    schedule.nextFitting? pass dice = some (schedule.next? pass dice) := by
  induction schedule generalizing dice with
  | never | once | recurs | forever | spaced | durations => rfl
  | linear base =>
    exact congrArg (fun step => some (some (_, step), dice)) (Duration.add?_getD pass base)
  | exponential base factor =>
    exact congrArg (fun step => some (some (_, step), dice)) (Duration.ofNanos?_getD _)
  | fibonacci base =>
    exact congrArg (fun step => some (some (_, (_, step)), dice)) (Duration.add?_getD pass.1 pass.2)
  | planned plan =>
    have hdelay := plan.delay?_eq pass dice
    simp only [nextFitting?, next?, hdelay]
    split <;> rfl
  | take count schedule ih =>
    obtain ⟨remaining, pass⟩ := pass
    have hnext := ih pass dice
    simp only [nextFitting?, next?, hnext]
    cases countDown? remaining <;> rfl
  | maxDelay cap schedule ih =>
    have hnext := ih pass dice
    simp only [nextFitting?, next?, hnext]
    rfl
  | maxCumulative budget schedule ih =>
    obtain ⟨spent, pass⟩ := pass
    have hnext := ih pass dice
    simp only [nextFitting?, next?, hnext, Option.bind_eq_bind, Option.bind_some]
    rcases schedule.next? pass dice with ⟨_ | ⟨delay, rest⟩, dice'⟩
    · rfl
    · cases htotal : spent.add? delay <;> simp only [htotal] <;> rfl
  | followedBy first second ihFirst ihSecond =>
    cases pass with
    | inl pass =>
      simp only [nextFitting?, next?, ihFirst, ihSecond, Option.bind_eq_bind, Option.bind_some]
      rcases first.next? pass dice with ⟨_ | ⟨delay, rest⟩, dice'⟩ <;> rfl
    | inr pass =>
      simp only [nextFitting?, next?, ihSecond]
      rfl
  | jittered strategy schedule ih =>
    have hnext := ih pass dice
    simp only [nextFitting?, next?, hnext, Jitter.applyFitting?_eq, Option.bind_eq_bind,
      Option.bind_some]
    generalize schedule.next? pass dice = drawn
    rcases drawn with ⟨_ | ⟨delay, rest⟩, dice'⟩ <;> rfl

theorem readFitting?_eq (schedule : Schedule) (count : Nat) (pass : schedule.Pass) (dice : Dice) :
    schedule.readFitting? count pass dice = some (schedule.readFrom count pass dice) := by
  induction count generalizing pass dice with
  | zero => rfl
  | succ n ih =>
    simp only [readFitting?, readFrom, nextFitting?_eq, Option.bind_eq_bind, Option.bind_some]
    rcases schedule.next? pass dice with ⟨_ | ⟨delay, rest⟩, dice'⟩
    · rfl
    · simp only [ih]
      rfl

end Schedule

/-! ### Deadlines -/

/-- Whether a wait from now on would pass the deadline, on a clock that has a latest moment. A wait
that would end after it passes every deadline. -/
def Env.overrunsBefore (latest : Nat) (env : Env σ) (context : Context) (delay : Duration) : Bool :=
  let finish? := if env.now + delay.nanos ≤ latest then some (env.now + delay.nanos) else none
  match context.deadline with
  | some deadline => finish?.all fun finish => deadline < finish
  | none => false

/-- A deadline is a moment of the clock, so the end of a wait that is no such moment is after it. -/
theorem Env.overrunsBefore_eq {latest : Nat} {context : Context}
    (h : ∀ deadline ∈ context.deadline, deadline ≤ latest) (env : Env σ) (delay : Duration) :
    env.overrunsBefore latest context delay = env.wouldOverrun context delay := by
  rw [overrunsBefore, wouldOverrun]
  cases hdeadline : context.deadline with
  | none => rfl
  | some deadline =>
    have hlatest : deadline ≤ latest := h deadline hdeadline
    by_cases hfinish : env.now + delay.nanos ≤ latest
    · simp only [if_pos hfinish, Option.all_some]
    · have hover : deadline < env.now + delay.nanos := by omega
      simp only [if_neg hfinish, Option.all_none, hover, decide_true]

/-! ### Scheduled stages -/

/-- The waits of a tally have a sum if the schedule keeps to a budget. -/
theorem Tally.Follows.exists_total {tally : Tally} (h : tally.Follows schedule)
    {budget : Duration} {whole : Schedule}
    (hadapted : (Schedule.maxCumulative budget whole).Adapted schedule) :
    ∃ total, Duration.total? tally.waits = some total ∧ total ≤ budget := by
  have hwithin := h.sumNanos_le hadapted
  have hfits := Nat.le_trans hwithin budget.nanos_le
  exact ⟨⟨Duration.sumNanos tally.waits, hfits⟩, Duration.total?_eq_some_iff.2 rfl, hwithin⟩

namespace Stage

/-- Of all arithmetic that a scheduled stage relies on, only the sum of its waits may have no
result. The next delay of every schedule, at every point of a pass and for all dice, any number of
delays that are read from it, every planned delay, jitter and the test for a deadline come out the
same if every operation on bounded numbers that is not guarded has to fit.

Any list of waits, by whatever stages and attempts, has a sum if and only if the exact one is a
duration, and it is the exact one. A budget sees to that: the waits that a scheduled stage asks its
sleeper for have a sum within the budget of its schedule, whatever the attempts come to. -/
theorem waiting_fits (fuel : Nat) (inner : Stage σ X A B) (schedule : Schedule)
    (sleeper : Sleeper σ) (context : Context) (acc : S) (a : A) (down : κ) (env : Env σ)
    (accept : Callback σ B Bool) (sink : Sink σ X κ S B) (seed : T) (f : Callback σ (T × B) T)
    (bound : Bound σ T) (foldSink : Sink σ X κ S T) :
    let retried := inner.retryTallied fuel schedule sleeper context a env accept
    let folded := inner.foldTallied fuel schedule sleeper context a env seed f bound
    (∀ pass dice, schedule.nextFitting? pass dice = some (schedule.next? pass dice)) ∧
      (∀ count pass dice, schedule.readFitting? count pass dice =
        some (schedule.readFrom count pass dice)) ∧
      (∀ plan retry dice, Backoff.delay? plan retry dice = some (plan.delay retry dice)) ∧
      (∀ strategy delay dice, Jitter.applyFitting? strategy delay dice =
        some (strategy.apply delay dice)) ∧
      (∀ latest, (∀ deadline ∈ context.deadline, deadline ≤ latest) →
        ∀ (now : Env σ) delay,
          now.overrunsBefore latest context delay = now.wouldOverrun context delay) ∧
      (retry inner schedule sleeper accept).run fuel sink context acc a ((), down) env =
        retried.deliveredTo sink context acc down ∧
      (foldAttempts inner schedule sleeper seed f bound).run fuel foldSink context acc a ((), down)
          env = folded.deliveredTo foldSink context acc down ∧
      (∀ waits : List Duration,
        (∀ total, Duration.total? waits = some total ↔ total.nanos = Duration.sumNanos waits) ∧
          (Duration.total? waits = none ↔ Duration.maxNanos < Duration.sumNanos waits)) ∧
      (∀ budget whole, (Schedule.maxCumulative budget whole).Adapted schedule →
        ∀ waits ∈ [retried.state.1.waits, folded.state.1.waits],
          ∃ total, Duration.total? waits = some total ∧ total ≤ budget) := by
  intro retried folded
  have hretried : retried.state.1.Follows schedule :=
    follows_retryTallied fuel inner schedule sleeper context a env accept
  have hfolded : folded.state.1.Follows schedule :=
    follows_foldTallied fuel inner schedule sleeper context a env seed f bound
  refine ⟨schedule.nextFitting?_eq, schedule.readFitting?_eq, Backoff.delay?_eq,
    Jitter.applyFitting?_eq, fun _ => Env.overrunsBefore_eq,
    run_retry_eq_deliveredTo fuel inner schedule sleeper context acc a down env accept sink,
    run_foldAttempts_eq_deliveredTo fuel inner schedule sleeper context acc a down env seed f bound
      foldSink, fun waits => ⟨fun _ => Duration.total?_eq_some_iff, Duration.total?_eq_none_iff⟩, ?_⟩
  intro budget whole hadapted waits hwaits
  simp only [List.mem_cons, List.not_mem_nil, or_false] at hwaits
  rcases hwaits with rfl | rfl
  · exact hretried.exists_total hadapted
  · exact hfolded.exists_total hadapted

/-- The longest delay again and again, with a budget of the longest delay and a deadline that is the
latest moment of the clock: the stages wait once. The second delay would exceed the budget, by a sum
that is no duration. -/
theorem waiting_fits_longest :
    let inner : Stage Unit Empty Nat Nat := identity
    let whole : Schedule := .spaced .max
    let schedule : Schedule := .maxCumulative .max whole
    let sleeper : Sleeper Unit := .ofFun fun _ => .elapsed
    let context : Context := ⟨.root (.ofNat 0), ⟨0⟩, some Duration.maxNanos⟩
    let env : Env Unit := .start () .fresh ⟨id, 0⟩
    let add : Callback Unit (Nat × Nat) Nat := .ofFun fun (sum, n) => sum + n
    let retried := inner.retryTallied 9 schedule sleeper context 1 env (.ofFun fun _ => false)
    let folded := inner.foldTallied 9 schedule sleeper context 1 env 0 add .unbounded
    (∀ deadline ∈ context.deadline, deadline ≤ Duration.maxNanos) ∧
      (Schedule.maxCumulative .max whole).Adapted schedule ∧
      env.overrunsBefore Duration.maxNanos context .max = env.wouldOverrun context .max ∧
      (∃ total, Duration.total? retried.state.1.waits = some total ∧ total ≤ Duration.max) ∧
      (∃ total, Duration.total? folded.state.1.waits = some total ∧ total ≤ Duration.max) ∧
      retried.state.1.waits = [.max] ∧ folded.state.1.waits = [.max] := by
  intro inner whole schedule sleeper context env add
  have hlatest : ∀ deadline ∈ context.deadline, deadline ≤ Duration.maxNanos := by
    intro deadline hdeadline
    exact Nat.le_of_eq (Option.some.inj hdeadline).symm
  have hadapted : (Schedule.maxCumulative .max whole).Adapted schedule := .refl
  have hfits := waiting_fits 9 inner schedule sleeper context none 1 () env
    (.ofFun fun _ => false) Sink.last 0 add .unbounded Sink.last
  have hdeadline := hfits.2.2.2.2.1 Duration.maxNanos hlatest env .max
  have htotals := hfits.2.2.2.2.2.2.2.2 .max whole hadapted
  have hretried := htotals _ (.head _)
  have hfolded := htotals _ (.tail _ (.head _))
  exact ⟨hlatest, hadapted, hdeadline, hretried, hfolded, by decide +kernel, by decide +kernel⟩

/-- A stage that accepts nothing waits twice for the longest duration. The sum of its waits has no
result, and it is not the largest duration. -/
theorem total_does_not_fit :
    let inner : Stage Unit Empty Nat Nat := identity
    let schedule : Schedule := .take 2 (.spaced .max)
    let sleeper : Sleeper Unit := .ofFun fun _ => .elapsed
    let context : Context := ⟨.root (.ofNat 0), ⟨0⟩, none⟩
    let env : Env Unit := .start () .fresh ⟨id, 0⟩
    let retried := inner.retryTallied 9 schedule sleeper context 1 env (.ofFun fun _ => false)
    retried.state.1.waits = [.max, .max] ∧
      Duration.total? retried.state.1.waits = none ∧
      ¬ Duration.total? retried.state.1.waits =
        some (Duration.clip (Duration.sumNanos retried.state.1.waits)) := by
  intro inner schedule sleeper context env retried
  have hwaits : retried.state.1.waits = [.max, .max] := rfl
  have htotal : Duration.total? retried.state.1.waits = none := by rw [hwaits]; decide
  exact ⟨hwaits, htotal, by rw [htotal]; nofun⟩

end Stage

end Transduction
