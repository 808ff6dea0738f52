import Mathlib.Data.Seq.Basic
import Transduction.Proofs.Attempts.Budgets
import Transduction.Proofs.Delays.Jitters

/-!
# The sequences that schedules stand for

A schedule without jitter stands for one sequence of delays, finite or endless, which is built along
the description of the schedule: adapters are operations on sequences, and the basic schedules are
lists and functions. A pass reads the sequence of its schedule delay by delay, whatever the dice
show, so every pass reads the same.

A pass and a sequence belong together if the pass gives the first delay of the sequence and the rest
of the pass belongs to the rest of the sequence. There may be no end to this, so the argument for an
adapter is a relation between its passes and its sequences that each single draw preserves.

## Main definitions

* `Duration.within`: the longest beginning of a sequence of delays within an amount of time.
* `Schedule.sequence`: the sequence of a schedule.
* `Schedule.IsPlain`: schedules without jitter, and without plans whose delays jitter would cut.
* `Schedule.Gives`: the sequence of a pass.
* `Schedule.Draws`: what a pass gives next, and what follows.

## Main results

* `Schedule.Gives.draws`, `Schedule.Gives.of_draws`: one draw decides.
* `Schedule.IsPlain.gives_sequence`: a new pass gives the sequence of its schedule.
* `Schedule.IsPlain.read_eq_ofSeq`: readings of schedules without jitter.
-/

namespace Transduction

open Stream' (Seq)

/-! ### Beginnings within an amount -/

namespace Duration

theorem sumNanos_take_le (delays : Seq Duration) {m n : Nat} (h : m ≤ n) :
    sumNanos (delays.take m) ≤ sumNanos (delays.take n) := by
  induction m generalizing delays n with
  | zero => exact Nat.zero_le _
  | succ m ih =>
    obtain ⟨n, rfl⟩ : ∃ k, n = k + 1 := ⟨n - 1, by omega⟩
    cases delays with
    | nil => exact Nat.le_refl _
    | cons delay rest =>
      simp only [Seq.take_succ_cons, sumNanos_cons]
      exact Nat.add_le_add_left (ih rest (Nat.le_of_succ_le_succ h)) _

/-- The longest beginning of a sequence of delays whose exact sum is within an amount of
nanoseconds. -/
def within (amount : Nat) (delays : Seq Duration) : Seq Duration where
  val n := if sumNanos (delays.take (n + 1)) ≤ amount then delays.get? n else none
  property := by
    intro n hn
    have hsum := sumNanos_take_le delays (Nat.le_add_right (n + 1) 1)
    beta_reduce at hn ⊢
    split at hn
    · have hnext : delays.get? (n + 1) = none := delays.le_stable (Nat.le_succ n) hn
      rw [hnext, ite_self]
    · exact if_neg (by omega)

theorem get?_within (amount : Nat) (delays : Seq Duration) (n : Nat) :
    (within amount delays).get? n =
      if sumNanos (delays.take (n + 1)) ≤ amount then delays.get? n else none := rfl

theorem within_nil (amount : Nat) : within amount Seq.nil = Seq.nil := by
  ext1 n
  rw [get?_within, Seq.get?_nil, ite_self]

theorem within_cons_of_le {amount : Nat} {delay : Duration} (rest : Seq Duration)
    (h : delay.nanos ≤ amount) :
    within amount (.cons delay rest) = .cons delay (within (amount - delay.nanos) rest) := by
  ext1 n
  rw [get?_within, Seq.take_succ_cons, sumNanos_cons]
  cases n with
  | zero => simpa [sumNanos, totalCost] using h
  | succ n =>
    have hiff : delay.nanos + sumNanos (rest.take (n + 1)) ≤ amount ↔
        sumNanos (rest.take (n + 1)) ≤ amount - delay.nanos := by omega
    simp only [hiff, Seq.get?_cons_succ, get?_within]

theorem within_cons_of_lt {amount : Nat} {delay : Duration} (rest : Seq Duration)
    (h : amount < delay.nanos) : within amount (.cons delay rest) = .nil := by
  ext1 n
  rw [get?_within, Seq.take_succ_cons, sumNanos_cons, if_neg (by omega), Seq.get?_nil]

end Duration

namespace Schedule

variable {schedule : Schedule} {delays : Seq Duration} {dice : Dice}

/-! ### The sequences -/

/-- The sequence of delays that a schedule stands for, before jitter. -/
def sequence : Schedule → Seq Duration
  | never => .nil
  | once delay => .ofList [delay]
  | recurs count => .ofList (.replicate count .zero)
  | forever => .ofStream fun _ => .zero
  | spaced delay => .ofStream fun _ => delay
  | durations delays => .ofList delays
  | linear base => .ofStream fun n => .clip (base.nanos * (n + 1))
  | exponential base factor => .ofStream fun n => .clip (base.nanos * factor ^ n)
  | fibonacci base => .ofStream fun n => .clip (base.nanos * Nat.fib (n + 1))
  | planned plan => .ofList ((List.range plan.maxRetries).map plan.baseDelay)
  | take count schedule => .ofList (schedule.sequence.take count)
  | maxDelay cap schedule => schedule.sequence.map (·.shorter cap)
  | maxCumulative budget schedule => Duration.within budget.nanos schedule.sequence
  | followedBy first second => first.sequence.append second.sequence
  | jittered _ schedule => schedule.sequence

/-- Schedules without jitter. The base delays of a plan are short enough to be counted in 64 bits of
nanoseconds, so that the jitter of the plan keeps them. -/
def IsPlain : Schedule → Prop
  | planned plan => plan.jitter = .none ∧
    ∀ retry < plan.maxRetries, (plan.baseDelay retry).nanos ≤ Jitter.cap
  | take _ schedule => schedule.IsPlain
  | maxDelay _ schedule => schedule.IsPlain
  | maxCumulative _ schedule => schedule.IsPlain
  | followedBy first second => first.IsPlain ∧ second.IsPlain
  | jittered _ _ => False
  | _ => True

/-- The first delays of a sequence as a reading that leaves the dice alone. The reading has ended if
there are fewer of them than asked for. -/
def Reading.ofSeq (delays : Seq Duration) (count : Nat) (dice : Dice) : Reading :=
  ⟨delays.take count, decide ((delays.take count).length < count), dice⟩

theorem Reading.ofSeq_nil_succ (count : Nat) : ofSeq .nil (count + 1) dice = ⟨[], true, dice⟩ := by
  simp [ofSeq]

theorem Reading.ofSeq_cons_succ (delay : Duration) (rest : Seq Duration) (count : Nat) :
    ofSeq (.cons delay rest) (count + 1) dice =
      let reading := ofSeq rest count dice
      { reading with delays := delay :: reading.delays } := by
  simp [ofSeq]

/-! ### The sequence of a pass -/

/-- A pass gives the delays of a sequence, however many are asked for, and leaves the dice alone. -/
def Gives (schedule : Schedule) (dice : Dice) (pass : schedule.Pass) (delays : Seq Duration) :
    Prop :=
  ∀ count, schedule.readFrom count pass dice = .ofSeq delays count dice

/-- What a pass gives next: nothing at the end of its sequence, or else the first delay of it, while
the rest of the pass and the rest of the sequence are related. -/
inductive Draws (dice : Dice) (R : schedule.Pass → Seq Duration → Prop) (pass : schedule.Pass) :
    Seq Duration → Prop where
  | none (hnext : schedule.next? pass dice = (none, dice)) : Draws dice R pass .nil
  | draw {delay : Duration} {later : schedule.Pass} {rest : Seq Duration}
    (hnext : schedule.next? pass dice = (some (delay, later), dice)) (hrest : R later rest) :
    Draws dice R pass (.cons delay rest)

theorem Gives.draws {pass : schedule.Pass} (h : schedule.Gives dice pass delays) :
    Draws dice (schedule.Gives dice) pass delays := by
  cases delays with
  | nil =>
    have hone := h 1
    rw [Reading.ofSeq_nil_succ, readFrom] at hone
    rcases hnext : schedule.next? pass dice with ⟨_ | ⟨delay, later⟩, dice'⟩ <;> rw [hnext] at hone
    · obtain rfl : dice' = dice := congrArg Reading.dice hone
      exact .none hnext
    · cases congrArg Reading.delays hone
  | cons delay rest =>
    have hmore (count : Nat) := h (count + 1)
    simp only [Reading.ofSeq_cons_succ, readFrom] at hmore
    rcases hnext : schedule.next? pass dice with ⟨_ | ⟨delay', later⟩, dice'⟩ <;>
      rw [hnext] at hmore
    · cases congrArg Reading.delays (hmore 0)
    · obtain rfl : dice' = dice := congrArg Reading.dice (hmore 0)
      obtain ⟨rfl, -⟩ := List.cons.inj (congrArg Reading.delays (hmore 0))
      refine .draw hnext fun count => ?_
      have hcount := hmore count
      simp only [Reading.mk.injEq, List.cons.injEq, true_and] at hcount
      exact (Reading.mk.injEq ..).mpr hcount

/-- A relation between passes and sequences that every draw preserves relates passes to what they
give. -/
theorem Gives.of_draws {R : schedule.Pass → Seq Duration → Prop}
    (hdraws : ∀ pass delays, R pass delays → Draws dice R pass delays) {pass : schedule.Pass}
    (h : R pass delays) : schedule.Gives dice pass delays := by
  intro count
  induction count generalizing pass delays with
  | zero => rfl
  | succ count ih =>
    cases hdraws pass delays h with
    | none hnext => rw [readFrom, hnext, Reading.ofSeq_nil_succ]
    | draw hnext hrest => rw [readFrom, hnext, Reading.ofSeq_cons_succ, ← ih hrest]

/-! ### Basic schedules -/

/-- A pass gives a list if it goes through some states and gives an element of the list at each of
them. -/
theorem gives_ofList (state : Nat → schedule.Pass) (delays : List Duration)
    (hnext : ∀ k, schedule.next? (state k) dice =
      (delays[k]?.map fun delay => (delay, state (k + 1)), dice)) :
    schedule.Gives dice (state 0) (.ofList delays) := by
  refine .of_draws (R := fun pass given => ∃ k, pass = state k ∧ given = .ofList (delays.drop k))
    ?_ ⟨0, rfl, rfl⟩
  rintro pass given ⟨k, rfl, rfl⟩
  have hdraw := hnext k
  rcases Nat.lt_or_ge k delays.length with hlt | hge
  · rw [List.getElem?_eq_getElem hlt] at hdraw
    rw [List.drop_eq_getElem_cons hlt, Seq.ofList_cons]
    exact .draw hdraw ⟨k + 1, rfl, rfl⟩
  · rw [List.getElem?_eq_none hge] at hdraw
    rw [List.drop_eq_nil_of_le hge, Seq.ofList_nil]
    exact .none hdraw

theorem Endless.gives {delay : Nat → Duration} (h : schedule.Endless delay) :
    schedule.Gives dice schedule.start (.ofStream delay) := by
  have htake (count : Nat) : (Seq.ofStream delay).take count = (List.range count).map delay := by
    refine List.ext_getElem? fun n => ?_
    rw [Seq.getElem?_take, List.getElem?_map]
    by_cases hn : n < count
    · rw [if_pos hn, List.getElem?_range hn]
      rfl
    · rw [if_neg hn, List.getElem?_eq_none (by simpa using hn), Option.map_none]
  intro count
  have hread := h count dice
  rw [read] at hread
  rw [hread, Reading.ofSeq, htake]
  simp

theorem endless_forever : forever.Endless fun _ => .zero :=
  .of_states (fun _ => ()) rfl fun _ _ => rfl

theorem gives_never : never.Gives dice () .nil := by
  refine .of_draws (R := fun _ given => given = .nil) ?_ rfl
  rintro pass given rfl
  exact .none rfl

theorem gives_durations (delays : List Duration) :
    (durations delays).Gives dice delays (.ofList delays) := by
  refine @gives_ofList (durations delays) dice (fun k => delays.drop k) delays fun k => ?_
  simp only [next?]
  rcases Nat.lt_or_ge k delays.length with hlt | hge
  · rw [List.drop_eq_getElem_cons hlt, List.getElem?_eq_getElem hlt]
    rfl
  · rw [List.drop_eq_nil_of_le hge, List.getElem?_eq_none hge]
    rfl

theorem gives_recurs (count : Nat) :
    (recurs count).Gives dice count (.ofList (.replicate count .zero)) := by
  refine @gives_ofList (recurs count) dice (fun k => count - k) _ fun k => ?_
  rw [List.getElem?_replicate]
  rcases Nat.lt_or_ge k count with hlt | hge
  · obtain ⟨left, hleft⟩ : ∃ left, count - k = left + 1 := ⟨count - k - 1, by omega⟩
    have hrest : count - (k + 1) = left := by omega
    simp only [next?, hleft, hrest, countDown?, if_pos hlt]
    rfl
  · have hnone : count - k = 0 := by omega
    simp only [next?, hnone, countDown?, if_neg (Nat.not_lt.2 hge)]
    rfl

theorem gives_once (delay : Duration) : (once delay).Gives dice true (.ofList [delay]) := by
  refine @gives_ofList (once delay) dice (fun k => decide (k = 0)) _ fun k => ?_
  cases k with
  | zero => rfl
  | succ k => rfl

theorem gives_planned {plan : Backoff} (h : (planned plan).IsPlain) :
    (planned plan).Gives dice (0 : Nat)
      (.ofList ((List.range plan.maxRetries).map plan.baseDelay)) := by
  obtain ⟨hnone, hcounted⟩ := h
  refine @gives_ofList (planned plan) dice (fun k => k) _ fun k => ?_
  simp only [next?, List.getElem?_map]
  rcases Nat.lt_or_ge k plan.maxRetries with hlt | hge
  · have hkept := (Jitter.apply_none_eq_self_iff (plan.baseDelay k) dice).2 (hcounted k hlt)
    have hdelay : plan.delay k dice = (plan.baseDelay k, dice) := by
      rw [Backoff.delay, hnone]
      exact Prod.ext hkept rfl
    rw [if_pos hlt, hdelay, List.getElem?_range hlt]
    rfl
  · rw [if_neg (Nat.not_lt.2 hge), List.getElem?_eq_none (by simpa using hge)]
    rfl

/-! ### Adapters -/

section Adapters

variable {pass : schedule.Pass}

theorem Gives.take (h : schedule.Gives dice pass delays) (count : Nat) :
    (Schedule.take count schedule).Gives dice (count, pass) (.ofList (delays.take count)) := by
  refine .of_draws (R := fun (state : (Schedule.take count schedule).Pass) given =>
    ∃ remaining pass delays, state = (remaining, pass) ∧ schedule.Gives dice pass delays ∧
      given = .ofList (delays.take remaining)) ?_ ⟨count, pass, delays, rfl, h, rfl⟩
  rintro state given ⟨remaining, pass, delays, rfl, h, rfl⟩
  cases remaining with
  | zero => exact .none rfl
  | succ left =>
    cases h.draws with
    | none hnext =>
      refine .none ?_
      simp only [next?, countDown?, hnext, Option.map_none]
    | draw hnext hrest =>
      rw [Seq.take_succ_cons, Seq.ofList_cons]
      refine .draw ?_ ⟨left, _, _, rfl, hrest, rfl⟩
      simp only [next?, countDown?, hnext, Option.map_some]

theorem Gives.maxDelay (h : schedule.Gives dice pass delays) (cap : Duration) :
    (Schedule.maxDelay cap schedule).Gives dice pass (delays.map (·.shorter cap)) := by
  refine .of_draws (R := fun (pass : (Schedule.maxDelay cap schedule).Pass) given =>
    ∃ delays, schedule.Gives dice pass delays ∧ given = delays.map (·.shorter cap))
    ?_ ⟨delays, h, rfl⟩
  rintro pass given ⟨delays, h, rfl⟩
  cases h.draws with
  | none hnext =>
    refine .none ?_
    simp only [next?, hnext, Option.map_none]
  | draw hnext hrest =>
    rw [Seq.map_cons]
    refine .draw ?_ ⟨_, hrest, rfl⟩
    simp only [next?, hnext, Option.map_some]

/-- What is left of the budget bounds the rest of the sequence. -/
theorem Gives.maxCumulative (h : schedule.Gives dice pass delays) (budget : Duration) :
    (Schedule.maxCumulative budget schedule).Gives dice (Duration.zero, pass)
      (Duration.within budget.nanos delays) := by
  refine .of_draws (R := fun (state : (Schedule.maxCumulative budget schedule).Pass) given =>
    ∃ (spent : Duration) (pass : schedule.Pass) (delays : Seq Duration), state = (spent, pass) ∧
      spent.nanos ≤ budget.nanos ∧ schedule.Gives dice pass delays ∧
      given = Duration.within (budget.nanos - spent.nanos) delays)
    ?_ ⟨.zero, pass, delays, rfl, Nat.zero_le _, h, rfl⟩
  rintro state given ⟨spent, pass, delays, rfl, hspent, h, rfl⟩
  cases h.draws with
  | none hnext =>
    rw [Duration.within_nil]
    refine .none ?_
    simp only [next?, hnext]
  | @draw delay later rest hnext hrest =>
    have hbudget : budget.nanos ≤ Duration.maxNanos := budget.nanos_le
    rcases hadd : spent.add? delay with _ | total
    · have hbeyond := Duration.add?_eq_none_iff.1 hadd
      rw [Duration.within_cons_of_lt _ (by omega)]
      refine .none ?_
      simp only [next?, hnext, hadd]
    · have htotal := Duration.add?_eq_some_iff.1 hadd
      by_cases hle : total ≤ budget
      · have hwithin : total.nanos ≤ budget.nanos := hle
        have hleft : budget.nanos - spent.nanos - delay.nanos = budget.nanos - total.nanos := by
          omega
        rw [Duration.within_cons_of_le _ (by omega), hleft]
        refine .draw ?_ ⟨total, later, rest, rfl, hwithin, hrest, rfl⟩
        simp only [next?, hnext, hadd, if_pos hle]
      · have hbeyond : ¬ total.nanos ≤ budget.nanos := hle
        rw [Duration.within_cons_of_lt _ (by omega)]
        refine .none ?_
        simp only [next?, hnext, hadd, if_neg hle]

/-- The second schedule begins where the sequence of the first one is over, and nowhere else. -/
theorem Gives.followedBy {first second : Schedule} {pass : first.Pass} {later : Seq Duration}
    (hfirst : first.Gives dice pass delays) (hsecond : second.Gives dice second.start later) :
    (Schedule.followedBy first second).Gives dice (.inl pass) (delays.append later) := by
  refine .of_draws (R := fun (state : (Schedule.followedBy first second).Pass) given =>
    (∃ pass delays, state = .inl pass ∧ first.Gives dice pass delays ∧
        given = delays.append later) ∨
      ∃ pass, state = .inr pass ∧ second.Gives dice pass given)
    ?_ (.inl ⟨pass, delays, rfl, hfirst, rfl⟩)
  rintro state given (⟨pass, delays, rfl, h, rfl⟩ | ⟨pass, rfl, h⟩)
  · cases h.draws with
    | none hnext =>
      rw [Seq.nil_append]
      cases hsecond.draws with
      | none hbegin =>
        refine .none ?_
        simp only [next?, hnext, hbegin, Option.map_none]
      | draw hbegin hrest =>
        refine .draw ?_ (.inr ⟨_, rfl, hrest⟩)
        simp only [next?, hnext, hbegin, Option.map_some]
    | draw hnext hrest =>
      rw [Seq.cons_append]
      refine .draw ?_ (.inl ⟨_, _, rfl, hrest, rfl⟩)
      simp only [next?, hnext]
  · cases h.draws with
    | none hnext =>
      refine .none ?_
      simp only [next?, hnext, Option.map_none]
    | draw hnext hrest =>
      refine .draw ?_ (.inr ⟨_, rfl, hrest⟩)
      simp only [next?, hnext, Option.map_some]

/-- Behind an endless sequence nothing is reached. -/
theorem Gives.followedBy_endless {first second : Schedule} {pass : first.Pass}
    (h : first.Gives dice pass delays) (hendless : ¬ delays.Terminates) :
    (Schedule.followedBy first second).Gives dice (.inl pass) delays := by
  refine .of_draws (R := fun (state : (Schedule.followedBy first second).Pass) given =>
    ∃ pass, state = .inl pass ∧ first.Gives dice pass given ∧ ¬ given.Terminates)
    ?_ ⟨pass, rfl, h, hendless⟩
  rintro state given ⟨pass, rfl, h, hendless⟩
  cases h.draws with
  | none hnext => exact absurd Seq.terminates_nil hendless
  | draw hnext hrest =>
    rw [Seq.terminates_cons_iff] at hendless
    refine .draw ?_ ⟨_, rfl, hrest, hendless⟩
    simp only [next?, hnext]

end Adapters

/-! ### Readings -/

/-- A new pass gives the sequence of its schedule. -/
theorem IsPlain.gives_sequence (h : schedule.IsPlain) (dice : Dice) :
    schedule.Gives dice schedule.start schedule.sequence := by
  induction schedule with
  | never => exact gives_never
  | once delay => exact gives_once delay
  | recurs count => exact gives_recurs count
  | forever => exact endless_forever.gives
  | spaced delay => exact (endless_spaced delay).gives
  | durations delays => exact gives_durations delays
  | linear base => exact (endless_linear base).gives
  | exponential base factor => exact (endless_exponential base factor).gives
  | fibonacci base => exact (endless_fibonacci base).gives
  | planned plan => exact gives_planned h
  | take count schedule ih => exact (ih h).take count
  | maxDelay cap schedule ih => exact (ih h).maxDelay cap
  | maxCumulative budget schedule ih => exact (ih h).maxCumulative budget
  | followedBy first second ihFirst ihSecond => exact (ihFirst h.1).followedBy (ihSecond h.2)
  | jittered => exact h.elim

theorem Gives.readPasses {delays : Seq Duration} (h : schedule.Gives dice schedule.start delays)
    (count passes : Nat) :
    schedule.readPasses count passes dice = .replicate passes (.ofSeq delays count dice) := by
  induction passes with
  | zero => rfl
  | succ passes ih =>
    have hread : schedule.read count dice = .ofSeq delays count dice := h count
    rw [Schedule.readPasses, hread, List.replicate_succ, ← ih]
    rfl

/-- A schedule without jitter, built in any way from basic schedules and adapters, is read as the
sequence it stands for, however many delays are asked for; every pass reads them from the first one.
Behind an endless sequence no other schedule is reached, and a budget gives the longest beginning
that is within it. -/
theorem IsPlain.read_eq_ofSeq (h : schedule.IsPlain) (count : Nat) (dice : Dice) :
    schedule.read count dice = .ofSeq schedule.sequence count dice ∧
      (∀ passes, schedule.readPasses count passes dice =
        .replicate passes (.ofSeq schedule.sequence count dice)) ∧
      (¬ schedule.sequence.Terminates → ∀ second : Schedule,
        (followedBy schedule second).read count dice = schedule.read count dice) ∧
      ∀ budget : Duration, LongestWithin budget.nanos (schedule.sequence.take count)
        ((maxCumulative budget schedule).sequence.take count) := by
  have hgives := h.gives_sequence dice
  refine ⟨hgives count, hgives.readPasses count, fun hendless second => ?_, fun budget => ?_⟩
  · exact (hgives.followedBy_endless hendless count).trans (hgives count).symm
  · have hlongest := longestWithin_read budget schedule count dice
    have hbudget : (maxCumulative budget schedule).IsPlain := h
    rw [read, read, hgives count, hbudget.gives_sequence dice count] at hlongest
    exact hlongest

/-- A first delay beyond the cap, then the endless multiples of another one: the largest number of
repetitions behind them is not reached, and a budget of eight covers the first two delays. -/
theorem read_eq_ofSeq_once_linear :
    let schedule := maxDelay (.clip 5) (followedBy (once (.clip 9)) (linear (.clip 2)))
    schedule.IsPlain ∧ ¬ schedule.sequence.Terminates ∧
      ((followedBy schedule (recurs 18446744073709551615)).read 4 ⟨id, 0⟩).delays =
        [.clip 5, .clip 2, .clip 4, .clip 5] ∧
      LongestWithin 8 [.clip 5, .clip 2, .clip 4, .clip 5] [.clip 5, .clip 2] := by
  intro schedule
  have hplain : schedule.IsPlain := ⟨trivial, trivial⟩
  have hendless : ¬ schedule.sequence.Terminates := by
    have hlinear : ¬ (linear (.clip 2)).sequence.Terminates := Seq.not_terminates_iff.2 fun _ => rfl
    simpa [schedule, sequence] using hlinear
  have hread := hplain.read_eq_ofSeq 4 ⟨id, 0⟩
  refine ⟨hplain, hendless, ?_, hread.2.2.2 (.clip 8)⟩
  rw [hread.2.2.1 hendless]
  rfl

end Schedule

end Transduction
