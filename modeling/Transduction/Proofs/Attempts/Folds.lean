import Mathlib.Data.List.ReduceOption
import Transduction.Proofs.Attempts.Rounds

/-!
# The course of a scheduled fold

A scheduled fold makes one attempt after the other and folds the output of each into a value that
starts at its seed. An attempt without an output leaves the value as it is. The fold stops at the
first attempt that fails or ends on an alternate, whose folded value leaves the bound, or that
completes, after which there is no delay, or after which the run has to stop before the wait is over.

What is delivered is the value at that point. A bound that holds until a test is satisfied discards
the last folded value, and the value before it is delivered.

## Main definitions

* `Lies`: where a folded value lies, by the answer of a test.
* `Absorbs`: what becomes of the output of an attempt.
* `FoldTries`: an attempt and what is decided after it.
* `Folded`: outputs folded into a value one after the other.
* `Ended.deliveries`: the calls of the sink that follow from a loop.

## Main results

* `foldTries_describes`: the relations are what attempts do.
* `RoundsTo.folded`, `LastRound.folded`: the value that a fold goes on with and delivers.
* `Stage.fold_delivers_once`: what a scheduled fold does.
-/

namespace Transduction

variable {σ X κ S A B T : Type} {schedule : Schedule}

/-! ### One attempt -/

/-- Where a folded value lies with a bound, by the answer of its test, and the surroundings then. -/
inductive Lies (folded : T) (env : Env σ) : Bound σ T → Reach → Env σ → Prop
  | unbounded : Lies folded env .unbounded .inside env
  | before {test : Callback σ T Bool} {tested : Env σ}
      (h : Step.call test folded () env = ⟨.ok false, (), tested⟩) :
      Lies folded env (.untilHolds test) .inside tested
  | reached {test : Callback σ T Bool} {tested : Env σ}
      (h : Step.call test folded () env = ⟨.ok true, (), tested⟩) :
      Lies folded env (.untilHolds test) .excluded tested
  | within {test : Callback σ T Bool} {tested : Env σ}
      (h : Step.call test folded () env = ⟨.ok true, (), tested⟩) :
      Lies folded env (.whileHolds test) .inside tested
  | left {test : Callback σ T Bool} {tested : Env σ}
      (h : Step.call test folded () env = ⟨.ok false, (), tested⟩) :
      Lies folded env (.whileHolds test) .included tested

/-- What becomes of the output of an attempt: where the newly folded value lies, the value that the
fold is left with, and the surroundings then. -/
inductive Absorbs (f : Callback σ (T × B) T) (bound : Bound σ T) (current : T) (env : Env σ) :
    Option B → Reach → T → Env σ → Prop
  | nothing : Absorbs f bound current env none .inside current env
  | folded {output : B} {next : T} {reach : Reach} {called tested : Env σ}
      (hcall : Step.call f (current, output) () env = ⟨.ok next, (), called⟩)
      (hlies : Lies next called bound reach tested) (hreach : reach ≠ .excluded) :
      Absorbs f bound current env (some output) reach next tested
  | discarded {output : B} {next : T} {called tested : Env σ}
      (hcall : Step.call f (current, output) () env = ⟨.ok next, (), called⟩)
      (hlies : Lies next called bound .excluded tested) :
      Absorbs f bound current env (some output) .excluded current tested

/-- An attempt in some surroundings with the output that it is known for, what is decided after it,
and the surroundings then. -/
inductive FoldTries (f : Callback σ (T × B) T) (bound : Bound σ T)
    (attempt : Step σ Unit (Verdict X (Option B))) (current : T) (env : Env σ) :
    Option B → Decision T (Verdict X (Option T)) → Env σ → Prop
  | failed {failure : Failure} {tried : Env σ}
      (h : noteAttempt attempt () env = ⟨.ok (.fail failure), (), tried⟩) :
      FoldTries f bound attempt current env none (.stop (.fail failure)) tried
  | alternate {value : X} {tried : Env σ}
      (h : noteAttempt attempt () env = ⟨.ok (.alternate value), (), tried⟩) :
      FoldTries f bound attempt current env none (.stop (.alternate value)) tried
  | leaves {outcome : Verdict X (Option B)} {output : Option B} {reach : Reach} {value : T}
      {tried judged : Env σ} (h : noteAttempt attempt () env = ⟨.ok outcome, (), tried⟩)
      (houtput : outcome.acc? = some output)
      (habsorbs : Absorbs f bound current tried output reach value judged)
      (hreach : reach ≠ .inside) :
      FoldTries f bound attempt current env output (.stop (.proceed (some value))) judged
  | completed {output : Option B} {value : T} {tried judged : Env σ}
      (h : noteAttempt attempt () env = ⟨.ok (.complete output), (), tried⟩)
      (habsorbs : Absorbs f bound current tried output .inside value judged) :
      FoldTries f bound attempt current env output (.stop (.complete (some value))) judged
  | goesOn {output : Option B} {value : T} {tried judged : Env σ}
      (h : noteAttempt attempt () env = ⟨.ok (.proceed output), (), tried⟩)
      (habsorbs : Absorbs f bound current tried output .inside value judged) :
      FoldTries f bound attempt current env output (.goOn value (.proceed (some value))) judged

section Relations

variable {f : Callback σ (T × B) T} {bound : Bound σ T}
  {attempt : Step σ Unit (Verdict X (Option B))} {current value : T} {env env' : Env σ}

theorem lies_iff {folded : T} {reach : Reach} :
    (bound.reach folded : Step σ Unit Reach) () env = ⟨.ok reach, (), env'⟩ ↔
      Lies folded env bound reach env' := by
  cases bound with
  | unbounded =>
    constructor
    · intro h
      cases h
      exact .unbounded
    · rintro ⟨⟩
      rfl
  | untilHolds test =>
    rw [Bound.reach, Step.map_eq_ok_iff]
    constructor
    · rintro ⟨holds, hcall, rfl⟩
      cases holds with
      | false => exact .before hcall
      | true => exact .reached hcall
    · intro h
      cases h with
      | before hcall => exact ⟨false, hcall, rfl⟩
      | reached hcall => exact ⟨true, hcall, rfl⟩
  | whileHolds test =>
    rw [Bound.reach, Step.map_eq_ok_iff]
    constructor
    · rintro ⟨holds, hcall, rfl⟩
      cases holds with
      | false => exact .left hcall
      | true => exact .within hcall
    · intro h
      cases h with
      | within hcall => exact ⟨true, hcall, rfl⟩
      | left hcall => exact ⟨false, hcall, rfl⟩

theorem absorbs_iff {output : Option B} {reach : Reach} :
    (foldInto f bound current output : Step σ Unit (Reach × T)) () env =
        ⟨.ok (reach, value), (), env'⟩ ↔
      Absorbs f bound current env output reach value env' := by
  cases output with
  | none =>
    constructor
    · intro h
      cases h
      exact .nothing
    · rintro ⟨⟩
      rfl
  | some output =>
    simp only [foldInto, Step.bind_eq_ok_iff]
    constructor
    · rintro ⟨next, ⟨⟩, called, hcall, found, ⟨⟩, tested, hlies, h⟩
      have hfound := lies_iff.1 hlies
      cases found with
      | inside | included =>
        cases h
        exact .folded hcall hfound (by decide)
      | excluded =>
        cases h
        exact .discarded hcall hfound
    · intro h
      cases h with
      | folded hcall hlies hreach =>
        refine ⟨value, (), _, hcall, reach, (), env', lies_iff.2 hlies, ?_⟩
        cases reach with
        | inside | included => rfl
        | excluded => exact absurd rfl hreach
      | discarded hcall hlies =>
        exact ⟨_, (), _, hcall, .excluded, (), env', lies_iff.2 hlies, rfl⟩

theorem foldTries_describes :
    Describes (FoldTries f bound attempt) (judgeFold f bound attempt) := by
  intro current env decision env'
  simp only [judgeFold, examineFold, Step.bind_eq_ok_iff]
  constructor
  · rintro ⟨found, ⟨⟩, judged, ⟨outcome, ⟨⟩, tried, hattempt, hfound⟩, hdecision⟩
    cases outcome with
    | fail failure =>
      cases hfound
      cases hdecision
      exact ⟨none, .failed hattempt⟩
    | alternate value =>
      cases hfound
      cases hdecision
      exact ⟨none, .alternate hattempt⟩
    | proceed output =>
      obtain ⟨⟨reach, value⟩, hfold, rfl⟩ := Step.map_eq_ok_iff.1 hfound
      have habsorbs := absorbs_iff.1 hfold
      cases reach with
      | inside =>
        cases hdecision
        exact ⟨output, .goesOn hattempt habsorbs⟩
      | excluded | included =>
        cases hdecision
        exact ⟨output, .leaves hattempt rfl habsorbs (by decide)⟩
    | complete output =>
      obtain ⟨⟨reach, value⟩, hfold, rfl⟩ := Step.map_eq_ok_iff.1 hfound
      have habsorbs := absorbs_iff.1 hfold
      cases reach with
      | inside =>
        cases hdecision
        exact ⟨output, .completed hattempt habsorbs⟩
      | excluded | included =>
        cases hdecision
        exact ⟨output, .leaves hattempt rfl habsorbs (by decide)⟩
  · rintro ⟨output, h⟩
    cases h with
    | failed hattempt | alternate hattempt =>
      exact ⟨_, (), env', ⟨_, (), env', hattempt, rfl⟩, rfl⟩
    | completed hattempt habsorbs | goesOn hattempt habsorbs =>
      exact ⟨_, (), env', ⟨_, (), _, hattempt,
        Step.map_eq_ok_iff.2 ⟨_, absorbs_iff.2 habsorbs, rfl⟩⟩, rfl⟩
    | @leaves outcome _ reach value _ _ hattempt houtput habsorbs hreach =>
      have hfold := absorbs_iff.2 habsorbs
      cases outcome with
      | fail | alternate => cases houtput
      | proceed given | complete given =>
        obtain rfl : given = output := Option.some.inj houtput
        refine ⟨_, (), env', ⟨_, (), _, hattempt,
          Step.map_eq_ok_iff.2 ⟨(reach, value), hfold, rfl⟩⟩, ?_⟩
        cases reach with
        | inside => exact absurd rfl hreach
        | excluded | included => rfl

end Relations

/-! ### The value of a fold -/

/-- Outputs folded one after the other into a value that starts at a seed and stays inside a bound.
An attempt without an output does not change it. -/
inductive Folded (f : Callback σ (T × B) T) (bound : Bound σ T) (seed : T) :
    List (Option B) → T → Prop
  | seed : Folded f bound seed [] seed
  | absorbed {outputs : List (Option B)} {output : Option B} {current value : T} {env env' : Env σ}
      (before : Folded f bound seed outputs current)
      (h : Absorbs f bound current env output .inside value env') :
      Folded f bound seed (outputs ++ [output]) value

section Values

variable {sleeper : Sleeper σ} {context : Context} {f : Callback σ (T × B) T} {bound : Bound σ T}
  {attempt : Step σ Unit (Verdict X (Option B))} {seed current value : T} {env env' : Env σ}
  {outputs : List (Option B)} {output : Option B} {pass : schedule.Pass}

/-- The value that a fold goes on with is made of the outputs so far. -/
theorem RoundsTo.folded {begun : Env σ} {waits : List Duration}
    (h : RoundsTo schedule sleeper context (FoldTries f bound attempt) seed begun outputs waits pass
      current env) : Folded f bound seed outputs current := by
  induction h with
  | first => exact .seed
  | again _ htries _ _ ih =>
    cases htries with
    | goesOn _ habsorbs => exact ih.absorbed habsorbs

/-- What a fold delivers is what is left of its value after the last output. -/
theorem LastRound.absorbs {verdict : Verdict X (Option T)} {asked : List Duration}
    {delivered : Option T}
    (h : LastRound schedule sleeper context (FoldTries f bound attempt) pass current env output
      verdict asked env') (hdelivered : verdict.acc? = some delivered) :
    ∃ value reach tried judged, delivered = some value ∧
      Absorbs f bound current tried output reach value judged := by
  cases h with
  | decided htries =>
    cases htries with
    | failed | alternate => cases hdelivered
    | leaves _ _ habsorbs | completed _ habsorbs =>
      exact ⟨_, _, _, _, (Option.some.inj hdelivered).symm, habsorbs⟩
  | exhausted htries =>
    cases htries with
    | goesOn _ habsorbs => exact ⟨_, _, _, _, (Option.some.inj hdelivered).symm, habsorbs⟩
  | interrupted => cases hdelivered

/-- A value that a plain function folds an output into. -/
theorem Absorbs.eq_of_ofFun {g : T × B → T} {reach : Reach}
    (h : Absorbs (.ofFun g) bound current env output reach value env') :
    value = if reach = .excluded then current
      else output.toList.foldl (fun value b => g (value, b)) current := by
  cases h with
  | nothing | discarded => rfl
  | folded hcall _ hreach =>
    cases hcall
    rw [if_neg hreach]
    rfl

/-- A value that a plain function folds outputs into. -/
theorem Folded.eq_foldl {g : T × B → T} (h : Folded (.ofFun g) bound seed outputs value) :
    value = outputs.reduceOption.foldl (fun value b => g (value, b)) seed := by
  induction h with
  | seed => rfl
  | @absorbed outputs output current value env env' before habsorbs ih =>
    rw [habsorbs.eq_of_ofFun, if_neg Reach.noConfusion, List.reduceOption_append, List.foldl_append,
      ← ih]
    cases output <;> rfl

end Values

/-! ### What a scheduled fold does -/

/-- The calls of a sink that follow from a loop that only notes what it would deliver: one call with
what there is to deliver, or none. -/
def Ended.deliveries (sink : Sink σ X κ S B) (context : Context) (acc : S) (down : κ) :
    Ended σ (Tally × Unit) (Verdict X (Option B)) → List (Visit σ X κ S B)
  | ⟨.error _, _, _⟩ => []
  | ⟨.ok verdict, _, env⟩ =>
    match verdict.acc? with
    | some (some value) => [⟨context, acc, value, sink context acc value down env⟩]
    | _ => []

/-- A sink that logs its calls has logged what was delivered. -/
theorem Ended.log_deliveredTo_logged (sink : Sink σ X κ S B) (context : Context) (acc : S)
    (down : κ) (ended : Ended σ (Tally × Unit) (Verdict X (Option B))) :
    (ended.deliveredTo sink.logged context acc ([], down)).state.2.1.reverse =
      ended.deliveries sink context acc down := by
  rcases ended with ⟨_ | verdict, _, env⟩
  · rfl
  · cases verdict with
    | fail | alternate => rfl
    | proceed produced =>
      cases produced <;> rfl
    | complete produced =>
      cases produced with
      | none => rfl
      | some value =>
        simp only [deliveredTo, Sink.below, Step.zoom, Sink.handOver, map_eq_pure_bind,
          Step.bind_apply, Sink.logged, deliveries, Verdict.acc?]
        generalize sink context acc value down env = called
        rcases called with ⟨_ | _, _, _⟩ <;> rfl

namespace Stage

variable (fuel : Nat) (inner : Stage σ X A B) (context : Context) (a : A)

/-- What a scheduled fold does with a value. Its loop ends with a verdict if and only if its course,
attempt by attempt and wait by wait, leads to a last round. Each attempt is made by a new instance on
the same value, and its output is the last one that it emits. The sink is called once if the last
round neither fails nor ends on an alternate, and otherwise never; what came of the last round is
then what comes of the fold.

The value before the last round is made of all outputs before it and has stayed inside the bound.
What is delivered is this value with the last output folded into it; if the bound excludes that, it
is this value. With a plain function both are folds of lists. -/
theorem fold_delivers_once (schedule : Schedule) (sleeper : Sleeper σ) (acc : S) (down : κ)
    (env : Env σ) (seed : T) (f : Callback σ (T × B) T) (bound : Bound σ T)
    (sink : Sink σ X κ S T) :
    let stage : Stage σ X A T := foldAttempts inner schedule sleeper seed f bound
    let attempt : Step σ Unit (Verdict X (Option B)) := inner.attempt fuel context a
    let tallied := inner.foldTallied fuel schedule sleeper context a env seed f bound
    stage.run fuel sink context acc a ((), down) env = tallied.deliveredTo sink context acc down ∧
      stage.visits fuel sink context acc a ((), down) env =
        tallied.deliveries sink context acc down ∧
      (∀ verdict tally env', tallied = ⟨.ok verdict, (tally, ()), env'⟩ ↔
        ∃ outputs output waits pass current last asked, waits.length < fuel ∧
          RoundsTo schedule sleeper context (FoldTries f bound attempt) seed env outputs waits pass
            current last ∧
          LastRound schedule sleeper context (FoldTries f bound attempt) pass current last output
            verdict asked env' ∧
          tally = ⟨waits.length + 1, waits ++ asked⟩) ∧
      (∀ outputs waits pass current last, RoundsTo schedule sleeper context
        (FoldTries f bound attempt) seed env outputs waits pass current last →
          Folded f bound seed outputs current) ∧
      (∀ pass current last output verdict asked env', LastRound schedule sleeper context
        (FoldTries f bound attempt) pass current last output verdict asked env' →
          ∀ delivered, verdict.acc? = some delivered → ∃ value reach tried judged,
            delivered = some value ∧ Absorbs f bound current tried output reach value judged) ∧
      (∀ g, f = .ofFun g → ∀ outputs output current reach value tried judged,
        Folded f bound seed outputs current →
          Absorbs f bound current tried output reach value judged →
            value = (if reach = .excluded then outputs else outputs ++ [output]).reduceOption.foldl
              (fun value b => g (value, b)) seed) ∧
      tallied.state.1.Follows schedule ∧
      ∀ begun verdict produced, (attempt () begun).result = .ok verdict →
        verdict.acc? = some produced →
          produced = (inner.visits fuel Sink.last context none a (inner.init, ())
            begun).getLast?.map (·.value) := by
  intro stage attempt tallied
  have hvisits : stage.visits fuel sink context acc a ((), down) env =
      tallied.deliveries sink context acc down := by
    rw [← Ended.log_deliveredTo_logged]
    exact congrArg (fun ended => ended.state.2.1.reverse) (run_foldAttempts_eq_deliveredTo fuel inner
      schedule sleeper context acc a ([], down) env seed f bound sink.logged)
  refine ⟨run_foldAttempts_eq_deliveredTo fuel inner schedule sleeper context acc a down env seed f
    bound sink, hvisits, fun verdict tally env' => roundsTo_iff foldTries_describes,
    fun outputs waits pass current last hrounds => hrounds.folded,
    fun pass current last output verdict asked env' hlast delivered => hlast.absorbs, ?_,
    follows_foldTallied fuel inner schedule sleeper context a env seed f bound,
    fun begun verdict produced => attempt_last fuel inner context a () begun⟩
  rintro g rfl outputs output current reach value tried judged hfolded habsorbs
  rw [habsorbs.eq_of_ofFun, hfolded.eq_foldl]
  split
  · rfl
  · rw [List.reduceOption_append, List.foldl_append]
    cases output <;> rfl

/-- A stage that counts its attempts from 1, whose numbers are added up until the sum is 5 or more:
the sums are 1, 3 and 6, and 3 is delivered. -/
theorem fold_delivers_once_until :
    let inner : Stage Nat Empty Unit Nat := map fun _ count => ⟨.ok (count + 1), count + 1, []⟩
    let schedule : Schedule := .spaced (.clip 5)
    let sleeper : Sleeper Nat := .ofFun fun _ => .elapsed
    let add : Nat × Nat → Nat := fun (sum, n) => sum + n
    let bound : Bound Nat Nat := .untilHolds (.ofFun fun sum => 5 ≤ sum)
    let context : Context := ⟨.root (.ofNat 0), ⟨0⟩, none⟩
    let env : Env Nat := .start 0 .fresh ⟨id, 0⟩
    let stage : Stage Nat Empty Unit Nat := foldAttempts inner schedule sleeper 0 (.ofFun add) bound
    let attempt : Step Nat Unit (Verdict Empty (Option Nat)) := inner.attempt 9 context ()
    let tries := FoldTries (.ofFun add) bound attempt
    let tallied := inner.foldTallied 9 schedule sleeper context () env 0 (.ofFun add) bound
    tallied.result = .ok (.proceed (some 3)) ∧ tallied.state.1 = ⟨3, [.clip 5, .clip 5]⟩ ∧
      (stage.visits 9 Sink.all context #[] () ((), ()) env).map (·.value) = [3] ∧
      (∃ outputs output waits pass current last asked env' reach tried judged,
        RoundsTo schedule sleeper context tries 0 env outputs waits pass current last ∧
        Folded (.ofFun add) bound 0 outputs current ∧
        LastRound schedule sleeper context tries pass current last output (.proceed (some 3)) asked
          env' ∧
        Absorbs (.ofFun add) bound current tried output reach 3 judged ∧
        3 = (if reach = .excluded then outputs else outputs ++ [output]).reduceOption.foldl
          (fun value b => add (value, b)) 0) ∧
      (attempt () env).result = .ok (.proceed (some 1)) ∧
      some 1 = (inner.visits 9 Sink.last context none () (inner.init, ()) env).getLast?.map
        (·.value) := by
  intro inner schedule sleeper add bound context env stage attempt tries tallied
  obtain ⟨-, hvisits, hloop, hrounded, hlasts, hvalues, -, houtputs⟩ :=
    fold_delivers_once 9 inner context () schedule sleeper #[] () env 0 (.ofFun add) bound Sink.all
  obtain ⟨outputs, output, waits, pass, current, last, asked, -, hrounds, hlast, -⟩ :=
    (hloop (.proceed (some 3)) tallied.state.1 tallied.env).1 rfl
  have hfolded := hrounded outputs waits pass current last hrounds
  obtain ⟨value, reach, tried, judged, hvalue, habsorbs⟩ :=
    hlasts pass current last output _ asked _ hlast (some 3) rfl
  obtain rfl : 3 = value := Option.some.inj hvalue
  exact ⟨rfl, rfl, by rw [hvisits]; rfl, ⟨outputs, output, waits, pass, current, last, asked, _,
    reach, tried, judged, hrounds, hfolded, hlast, habsorbs,
    hvalues add rfl outputs output current reach 3 tried judged hfolded habsorbs⟩, rfl,
    houtputs env (.proceed (some 1)) (some 1) rfl rfl⟩

end Stage

end Transduction
