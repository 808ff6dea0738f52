import Transduction.Proofs.Attempts.Tallies
import Transduction.Proofs.Emission.Visits

/-!
# The rounds of a scheduled stage

A scheduled stage works in rounds until it has something to deliver. Every round but the last one
makes an attempt, draws the next delay of the pass and waits. In the last round the attempt decides
that the stage stops, or there is no delay, or the run has to stop before the wait is over.

What an attempt shows and what is decided after it is a relation that is left open here. From a
relation that tells what one attempt does, the course of all rounds is a relation that tells what the
loop does, no less and no more.

## Main definitions

* `Pauses`: a wait, and what the sleeper is asked for.
* `Describes`: a relation that tells what an attempt does.
* `RoundsTo`: the rounds of a stage up to the beginning of another one.
* `LastRound`: a round that no other one follows.

## Main results

* `pauses_iff`: the relation is what waits do.
* `tallyRound_cases`: what happened in a round.
* `roundsTo_iff`: the relations are what the loop does.
* `Stage.attempt_last`: an attempt is judged by its last output.
-/

namespace Transduction

variable {σ X κ S A B T O : Type} {schedule : Schedule}

/-! ### Waits -/

/-- A wait in some surroundings: why the run has to stop, if it has to, what the sleeper is asked
for, and the surroundings then. -/
inductive Pauses (sleeper : Sleeper σ) (context : Context) (delay : Duration) (env : Env σ) :
    Option Failure → List Duration → Env σ → Prop
  | elapsed {waited : Env σ} (hmay : env.mayWait context delay = true)
      (h : Step.call sleeper delay () (env.record (.waited delay)) = ⟨.ok .elapsed, (), waited⟩) :
      Pauses sleeper context delay env none [delay] waited
  | cutShort {reason : String} {waited : Env σ} (hmay : env.mayWait context delay = true)
      (h : Step.call sleeper delay () (env.record (.waited delay)) =
        ⟨.ok (.interrupted reason), (), waited⟩) :
      Pauses sleeper context delay env (some ((waited.cancel reason).interruption context)) [delay]
        ((waited.cancel reason).record (.stopped ((waited.cancel reason).interruption context)))
  | refused {failure : Failure} (h : env.interruption? context = some failure) :
      Pauses sleeper context delay env (some failure) [] (env.record (.stopped failure))
  | overrun (hcalm : env.interruption? context = none)
      (h : env.wouldOverrun context delay = true) :
      Pauses sleeper context delay env (some .deadlineExceeded) []
        (env.record (.stopped .deadlineExceeded))

section Waits

variable {sleeper : Sleeper σ} {context : Context} {delay : Duration} {env env' : Env σ}

theorem pauses_iff {tally tally' : Tally} {outcome : Option Failure} :
    tallyPause sleeper context delay (tally, ()) env = ⟨.ok outcome, (tally', ()), env'⟩ ↔
      ∃ asked, Pauses sleeper context delay env outcome asked env' ∧
        tally' = { tally with waits := tally.waits ++ asked } := by
  rw [tallyPause_eq]
  constructor
  · intro h
    cases hstop : env.interruption? context with
    | some failure =>
      simp only [pause_of_interrupted hstop, Env.mayWait, hstop] at h
      cases h
      exact ⟨[], .refused hstop, by simp⟩
    | none =>
      cases hoverrun : env.wouldOverrun context delay with
      | true =>
        simp only [pause_of_overrun sleeper context () env hstop hoverrun, Env.mayWait, hstop,
          hoverrun] at h
        cases h
        exact ⟨[], .overrun hstop hoverrun, by simp⟩
      | false =>
        have hmay : env.mayWait context delay = true := by simp [Env.mayWait, hstop, hoverrun]
        simp only [pause_of_mayWait sleeper context () env hmay, hmay, waitOut, Step.bind_apply,
          Step.update] at h
        rcases hcall : (Step.call sleeper delay : Step σ Unit Rest) ()
          (env.record (.waited delay)) with ⟨_ | rest, _, waited⟩
        · rw [hcall] at h
          cases h
        · rw [hcall] at h
          cases rest with
          | elapsed =>
            cases h
            exact ⟨[delay], .elapsed hmay hcall, rfl⟩
          | interrupted reason =>
            cases h
            exact ⟨[delay], .cutShort hmay hcall, rfl⟩
          | never => cases h
  · rintro ⟨asked, hpauses, rfl⟩
    cases hpauses with
    | elapsed hmay hcall | cutShort hmay hcall =>
      simp only [pause_of_mayWait sleeper context () env hmay, hmay, waitOut, Step.bind_apply,
        Step.update, hcall]
      rfl
    | refused hstop =>
      simp [pause_of_interrupted hstop, Env.mayWait, hstop]
    | overrun hcalm hoverrun =>
      simp [pause_of_overrun sleeper context () env hcalm hoverrun, Env.mayWait, hcalm, hoverrun]

theorem Pauses.asked_of_none {asked : List Duration}
    (h : Pauses sleeper context delay env none asked env') : asked = [delay] := by
  cases h with
  | elapsed => rfl

end Waits

/-! ### The course of the rounds -/

/-- A relation that tells for each attempt what it shows, what is decided after it, and the
surroundings then. -/
def Describes (judges : T → Env σ → O → Decision T (Verdict X S) → Env σ → Prop)
    (judge : T → Step σ Unit (Decision T (Verdict X S))) : Prop :=
  ∀ current env decision env', judge current () env = ⟨.ok decision, (), env'⟩ ↔
    ∃ shown, judges current env shown decision env'

section Course

variable (schedule : Schedule) (sleeper : Sleeper σ) (context : Context)
  (judges : T → Env σ → O → Decision T (Verdict X S) → Env σ → Prop)

/-- The rounds of a stage from the surroundings in which it begins the first one to those in which it
begins another one, with what the attempts have shown, the waits in between, what is left of the pass
and what the stage goes on with. -/
inductive RoundsTo (seed : T) (begun : Env σ) :
    List O → List Duration → schedule.Pass → T → Env σ → Prop
  | first : RoundsTo seed begun [] [] schedule.start seed begun
  | again {showings : List O} {shown : O} {waits : List Duration} {pass rest : schedule.Pass}
      {current next : T} {verdict : Verdict X S} {delay : Duration} {env judged drawn waited : Env σ}
      (before : RoundsTo seed begun showings waits pass current env)
      (hjudges : judges current env shown (.goOn next verdict) judged)
      (hdelay : judged.nextDelay schedule pass = (some (delay, rest), drawn))
      (hpauses : Pauses sleeper context delay drawn none [delay] waited) :
      RoundsTo seed begun (showings ++ [shown]) (waits ++ [delay]) rest next waited

/-- A round that is the last one, with what its attempt shows: the attempt decides it, there are no
more delays, or the run has to stop before or during the wait. -/
inductive LastRound (pass : schedule.Pass) (current : T) (env : Env σ) :
    O → Verdict X S → List Duration → Env σ → Prop
  | decided {shown : O} {verdict : Verdict X S} {judged : Env σ}
      (h : judges current env shown (.stop verdict) judged) :
      LastRound pass current env shown verdict [] judged
  | exhausted {shown : O} {next : T} {verdict : Verdict X S} {judged drawn : Env σ}
      (h : judges current env shown (.goOn next verdict) judged)
      (hdelay : judged.nextDelay schedule pass = (none, drawn)) :
      LastRound pass current env shown verdict [] drawn
  | interrupted {shown : O} {next : T} {verdict : Verdict X S} {delay : Duration}
      {rest : schedule.Pass} {failure : Failure} {asked : List Duration}
      {judged drawn stopped : Env σ} (h : judges current env shown (.goOn next verdict) judged)
      (hdelay : judged.nextDelay schedule pass = (some (delay, rest), drawn))
      (hpauses : Pauses sleeper context delay drawn (some failure) asked stopped) :
      LastRound pass current env shown (.fail failure) asked stopped

variable {schedule sleeper context judges} {judge : T → Step σ Unit (Decision T (Verdict X S))}
  (hdescribes : Describes judges judge) {pass rest : schedule.Pass} {current : T}
  {tally tally' : Tally} {env env' : Env σ}
include hdescribes

/-- What happened in a round that came to an end. -/
theorem tallyRound_cases {outcome : Continuation schedule T (Verdict X S)}
    (h : tallyRound judge sleeper context pass current (tally, ()) env =
      ⟨.ok outcome, (tally', ()), env'⟩) :
    (∃ rest next verdict shown delay judged drawn, outcome = .again rest next ∧
        judges current env shown (.goOn next verdict) judged ∧
        judged.nextDelay schedule pass = (some (delay, rest), drawn) ∧
        Pauses sleeper context delay drawn none [delay] env' ∧
        tally' = tally.attempted.asked delay) ∨
      ∃ verdict shown asked, outcome = .finish verdict ∧
        LastRound schedule sleeper context judges pass current env shown verdict asked env' ∧
        tally' = ⟨tally.attempts + 1, tally.waits ++ asked⟩ := by
  rcases hjudge : judge current () env with ⟨_ | decision, _, judged⟩
  · rw [tallyRound_of_halt sleeper context () env hjudge] at h
    cases h
  · obtain ⟨shown, hjudges⟩ := (hdescribes _ _ _ _).1 hjudge
    cases decision with
    | stop verdict =>
      rw [tallyRound_of_stop sleeper context () env hjudge] at h
      cases h
      exact .inr ⟨verdict, shown, [], rfl, .decided hjudges, by simp [Tally.attempted]⟩
    | goOn next verdict =>
      rcases hdelay : judged.nextDelay schedule pass with ⟨_ | ⟨delay, rest⟩, drawn⟩
      · rw [tallyRound_of_no_delay sleeper context () env hjudge hdelay] at h
        cases h
        exact .inr ⟨verdict, shown, [], rfl, .exhausted hjudges hdelay, by simp [Tally.attempted]⟩
      · rw [tallyRound_of_delay sleeper context () env hjudge hdelay] at h
        rcases hpause : tallyPause sleeper context delay (tally.attempted, ()) drawn with
          ⟨_ | stopped, ⟨counted, _⟩, waited⟩
        · rw [hpause] at h
          cases h
        · rw [hpause] at h
          cases h
          obtain ⟨asked, hpauses, rfl⟩ := pauses_iff.1 hpause
          cases stopped with
          | none =>
            obtain rfl := hpauses.asked_of_none
            exact .inl ⟨rest, next, verdict, shown, delay, judged, drawn, rfl, hjudges, hdelay,
              hpauses, rfl⟩
          | some failure =>
            exact .inr ⟨.fail failure, shown, asked, rfl, .interrupted hjudges hdelay hpauses, rfl⟩

/-- A round in which the stage waits is followed by another one. -/
theorem tallyRound_of_pauses {next : T} {verdict : Verdict X S} {shown : O} {delay : Duration}
    {judged drawn : Env σ} (hjudges : judges current env shown (.goOn next verdict) judged)
    (hdelay : judged.nextDelay schedule pass = (some (delay, rest), drawn))
    (hpauses : Pauses sleeper context delay drawn none [delay] env') :
    tallyRound judge sleeper context pass current (tally, ()) env =
      ⟨.ok (.again rest next), (tally.attempted.asked delay, ()), env'⟩ := by
  have hjudge := (hdescribes _ _ _ _).2 ⟨shown, hjudges⟩
  have hpause : tallyPause sleeper context delay (tally.attempted, ()) drawn =
      ⟨_, (tally.attempted.asked delay, ()), env'⟩ := pauses_iff.2 ⟨[delay], hpauses, rfl⟩
  rw [tallyRound_of_delay sleeper context () env hjudge hdelay, hpause]
  rfl

/-- A round that is the last one ends the loop. -/
theorem tallyRound_of_lastRound {verdict : Verdict X S} {shown : O} {asked : List Duration}
    (h : LastRound schedule sleeper context judges pass current env shown verdict asked env') :
    tallyRound judge sleeper context pass current (tally, ()) env =
      ⟨.ok (.finish verdict), (⟨tally.attempts + 1, tally.waits ++ asked⟩, ()), env'⟩ := by
  cases h with
  | decided hjudges =>
    have hjudge := (hdescribes _ _ _ _).2 ⟨shown, hjudges⟩
    rw [tallyRound_of_stop sleeper context () env hjudge, List.append_nil]
    rfl
  | exhausted hjudges hdelay =>
    have hjudge := (hdescribes _ _ _ _).2 ⟨shown, hjudges⟩
    rw [tallyRound_of_no_delay sleeper context () env hjudge hdelay, List.append_nil]
    rfl
  | interrupted hjudges hdelay hpauses =>
    have hjudge := (hdescribes _ _ _ _).2 ⟨shown, hjudges⟩
    have hpause : tallyPause sleeper context _ (tally.attempted, ()) _ =
        ⟨_, (⟨tally.attempts + 1, tally.waits ++ asked⟩, ()), env'⟩ :=
      pauses_iff.2 ⟨asked, hpauses, rfl⟩
    rw [tallyRound_of_delay sleeper context () env hjudge hdelay, hpause]
    rfl

variable {seed : T} {begun : Env σ} {showings : List O} {waits : List Duration}

/-- The loop reaches every round that the course leads to. -/
theorem repeatRounds_of_roundsTo
    (h : RoundsTo schedule sleeper context judges seed begun showings waits pass current env)
    (fuel : Nat) :
    repeatRounds (tallyRound judge sleeper context) (waits.length + fuel) schedule.start seed
        (.zero, ()) begun =
      repeatRounds (tallyRound judge sleeper context) fuel pass current
        (⟨waits.length, waits⟩, ()) env := by
  induction h generalizing fuel with
  | first => rw [List.length_nil, Nat.zero_add, Tally.zero]
  | @again showings shown waits pass rest current next verdict delay env judged drawn waited before
      hjudges hdelay hpauses ih =>
    have hround : tallyRound judge sleeper context pass current (⟨waits.length, waits⟩, ()) env =
        ⟨.ok (.again rest next), (⟨waits.length + 1, waits ++ [delay]⟩, ()), waited⟩ :=
      tallyRound_of_pauses hdescribes hjudges hdelay hpauses
    have hlength : (waits ++ [delay]).length + fuel = waits.length + (fuel + 1) := by
      simp only [List.length_append, List.length_cons, List.length_nil]
      omega
    rw [hlength, ih, repeatRounds, hround, List.length_append]
    rfl

/-- From a round that the course leads to, the loop either goes on or stops. -/
theorem lastRound_of_repeatRounds {fuel : Nat} {verdict : Verdict X S}
    (hcourse : RoundsTo schedule sleeper context judges seed begun showings waits pass current env)
    (h : repeatRounds (tallyRound judge sleeper context) fuel pass current
      (⟨waits.length, waits⟩, ()) env = ⟨.ok verdict, (tally, ()), env'⟩) :
    ∃ showings' shown waits' pass' current' last asked, waits'.length < waits.length + fuel ∧
      RoundsTo schedule sleeper context judges seed begun showings' waits' pass' current' last ∧
      LastRound schedule sleeper context judges pass' current' last shown verdict asked env' ∧
      tally = ⟨waits'.length + 1, waits' ++ asked⟩ := by
  induction fuel generalizing showings waits pass current env with
  | zero => cases h
  | succ fuel ih =>
    rw [repeatRounds] at h
    rcases hround : tallyRound judge sleeper context pass current (⟨waits.length, waits⟩, ()) env
      with ⟨_ | outcome, ⟨tally', _⟩, env''⟩
    · rw [hround] at h
      cases h
    · rw [hround] at h
      rcases tallyRound_cases hdescribes hround with
        ⟨rest, next, given, shown, delay, judged, drawn, rfl, hjudges, hdelay, hpauses, rfl⟩ |
          ⟨given, shown, asked, rfl, hlast, rfl⟩
      · -- The course is longer by one round and its wait, and so is the tally.
        have hlength : waits.length + 1 = (waits ++ [delay]).length := by simp
        have hlater := ih (hcourse.again hjudges hdelay hpauses) (by rw [← hlength]; exact h)
        rw [← hlength, Nat.add_right_comm] at hlater
        exact hlater
      · cases h
        exact ⟨showings, shown, waits, pass, current, env, asked,
          Nat.lt_add_of_pos_right (Nat.succ_pos fuel), hcourse, hlast, rfl⟩

/-- The loop ends with a verdict if its course leads to a last round with this verdict, and only
then. -/
theorem roundsTo_iff {fuel : Nat} {verdict : Verdict X S} :
    repeatRounds (tallyRound judge sleeper context) fuel schedule.start seed (.zero, ()) begun =
        ⟨.ok verdict, (tally, ()), env'⟩ ↔
      ∃ showings shown waits pass current last asked, waits.length < fuel ∧
        RoundsTo schedule sleeper context judges seed begun showings waits pass current last ∧
        LastRound schedule sleeper context judges pass current last shown verdict asked env' ∧
        tally = ⟨waits.length + 1, waits ++ asked⟩ := by
  constructor
  · intro h
    have hlast := lastRound_of_repeatRounds hdescribes RoundsTo.first h
    rwa [List.length_nil, Nat.zero_add] at hlast
  · rintro ⟨showings, shown, waits, pass, current, last, asked, hfuel, hcourse, hlast, rfl⟩
    obtain ⟨more, rfl⟩ := Nat.exists_eq_add_of_lt hfuel
    rw [Nat.add_assoc, repeatRounds_of_roundsTo hdescribes hcourse, repeatRounds,
      tallyRound_of_lastRound hdescribes hlast]

end Course

/-! ### The last output of an attempt -/

/-- Every call of the sink that keeps the latest value returns the value it was given. -/
theorem Emission.result_of_mem_visits_last {ι : Type} {context : Context}
    (emission : Emission σ ι B (Verdict X Unit)) (acc : Option B)
    {visit : Visit σ X Unit (Option B) B} (h : visit ∈ emission.visits Sink.last context acc ()) :
    visit.ended.result = .ok (.proceed (some visit.value)) := by
  induction emission generalizing acc with
  | ended e => cases h
  | emit value state env rest ih =>
    rcases List.mem_cons.1 h with rfl | hlater
    · rfl
    · exact ih env (some value) hlater

namespace Stage

variable (fuel : Nat) (inner : Stage σ X A B) (context : Context) (a : A)

/-- What an attempt is judged by is its last output. -/
theorem attempt_last (state : κ) (env : Env σ) {verdict : Verdict X (Option B)}
    {produced : Option B}
    (h : (inner.attempt fuel context a state env).result = .ok verdict)
    (hproduced : verdict.acc? = some produced) :
    produced = (inner.visits fuel Sink.last context none a (inner.init, ()) env).getLast?.map
      (·.value) := by
  rw [visits_eq_visits_emission]
  have hresult : ((inner.emission fuel context a inner.init env).play Sink.last context none
      ()).result = .ok verdict := by
    rw [← h, attempt, run_eq_perform]
    rfl
  have hlast := Emission.acc_play Sink.last context _ none () hresult hproduced
  rw [Visit.lastAcc?] at hlast
  cases hvisits : ((inner.emission fuel context a inner.init env).visits Sink.last context none
    ()).getLast? with
  | none =>
    rw [hvisits] at hlast
    exact (Option.some.inj hlast).symm
  | some visit =>
    rw [hvisits] at hlast
    have hmem := List.mem_of_getLast? hvisits
    simp only [Visit.returned?, Emission.result_of_mem_visits_last _ none hmem] at hlast
    exact (Option.some.inj hlast).symm

end Stage

end Transduction
