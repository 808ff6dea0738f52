import Transduction.Proofs.Attempts.Rounds

/-!
# The course of a retried stage

A retried stage makes one attempt after the other, each with a new instance and on the same value.
An attempt is judged by its last output. As long as that is not accepted, the stage draws the next
delay of its pass, waits, and tries again. It stops at the first attempt that fails, ends on an
alternate, completes or is accepted, or after which there is no delay, or after which the run has to
stop before the wait is over.

The course of the stage up to the beginning of an attempt and the reason to stop after it are
relations that say what happened step by step. Together they are what the loop does, no less and no
more.

## Main definitions

* `Tries`: an attempt and what is decided after it.
* `Retries`: the course of a retried stage up to the beginning of an attempt.
* `Stops`: why a retried stage stops after an attempt, and with what.

## Main results

* `tries_iff`: the relation is what attempts do.
* `retries_iff_roundsTo`: the course of a retried stage is the course of its rounds.
* `retries_iff`: the relations are what the loop does.
* `Stage.retry_follows_schedule`: what a retried stage does.
-/

namespace Transduction

variable {σ X κ S A B : Type} {schedule : Schedule}

/-! ### One attempt -/

/-- An attempt in some surroundings, what is decided after it, and the surroundings then. -/
inductive Tries (accept : Callback σ B Bool) (attempt : Step σ Unit (Verdict X (Option B)))
    (env : Env σ) : Decision Unit (Verdict X (Option B)) → Env σ → Prop
  | failed {failure : Failure} {tried : Env σ}
      (h : noteAttempt attempt () env = ⟨.ok (.fail failure), (), tried⟩) :
      Tries accept attempt env (.stop (.fail failure)) tried
  | alternate {value : X} {tried : Env σ}
      (h : noteAttempt attempt () env = ⟨.ok (.alternate value), (), tried⟩) :
      Tries accept attempt env (.stop (.alternate value)) tried
  | completed {produced : Option B} {tried : Env σ}
      (h : noteAttempt attempt () env = ⟨.ok (.complete produced), (), tried⟩) :
      Tries accept attempt env (.stop (.complete produced)) tried
  | accepted {value : B} {tried judged : Env σ}
      (h : noteAttempt attempt () env = ⟨.ok (.proceed (some value)), (), tried⟩)
      (haccepted : Step.call accept value () tried = ⟨.ok true, (), judged⟩) :
      Tries accept attempt env (.stop (.proceed (some value))) judged
  | rejected {value : B} {tried judged : Env σ}
      (h : noteAttempt attempt () env = ⟨.ok (.proceed (some value)), (), tried⟩)
      (hrejected : Step.call accept value () tried = ⟨.ok false, (), judged⟩) :
      Tries accept attempt env (.goOn () (.proceed (some value))) judged
  | barren {tried : Env σ}
      (h : noteAttempt attempt () env = ⟨.ok (.proceed none), (), tried⟩) :
      Tries accept attempt env (.goOn () (.proceed none)) tried

section Relations

variable {accept : Callback σ B Bool} {attempt : Step σ Unit (Verdict X (Option B))} {env env' : Env σ}

theorem tries_iff {decision : Decision Unit (Verdict X (Option B))} :
    judgeRetry accept attempt () env = ⟨.ok decision, (), env'⟩ ↔
      Tries accept attempt env decision env' := by
  constructor
  · intro h
    simp only [judgeRetry, Step.bind_apply] at h
    rcases hattempt : noteAttempt attempt () env with ⟨_ | outcome, _, tried⟩
    · rw [hattempt] at h
      cases h
    · rw [hattempt] at h
      cases outcome with
      | fail failure =>
        cases h
        exact .failed hattempt
      | alternate value =>
        cases h
        exact .alternate hattempt
      | complete produced =>
        cases h
        exact .completed hattempt
      | proceed produced =>
        cases produced with
        | none =>
          cases h
          exact .barren hattempt
        | some value =>
          simp only [isAccepted, Step.bind_apply] at h
          rcases hcall : (Step.call accept value : Step σ Unit Bool) () tried with
            ⟨_ | _ | _, _, judged⟩
          all_goals
            rw [hcall] at h
            cases h
          · exact .rejected hattempt hcall
          · exact .accepted hattempt hcall
  · intro h
    cases h with
    | failed h | alternate h | completed h | barren h =>
      simp only [judgeRetry, Step.bind_apply, h]
      rfl
    | accepted h hcall | rejected h hcall =>
      simp only [judgeRetry, isAccepted, Step.bind_apply, h, hcall]
      rfl

end Relations

/-! ### The course of a retried stage -/

section Course

variable (schedule : Schedule) (sleeper : Sleeper σ) (context : Context)
  (accept : Callback σ B Bool) (attempt : Step σ Unit (Verdict X (Option B)))

/-- The course of a retried stage from the surroundings in which it begins its first attempt to those
in which it begins another one, with the waits in between and what is left of its pass. -/
inductive Retries (begun : Env σ) : List Duration → schedule.Pass → Env σ → Prop
  | first : Retries begun [] schedule.start begun
  | again {waits : List Duration} {pass rest : schedule.Pass} {verdict : Verdict X (Option B)}
      {delay : Duration} {env judged drawn waited : Env σ} (before : Retries begun waits pass env)
      (htries : Tries accept attempt env (.goOn () verdict) judged)
      (hdelay : judged.nextDelay schedule pass = (some (delay, rest), drawn))
      (hpauses : Pauses sleeper context delay drawn none [delay] waited) :
      Retries begun (waits ++ [delay]) rest waited

/-- Why a retried stage stops after the attempt that it begins in some surroundings, with what is
left of its pass: the attempt decides it, there are no more delays, or the run has to stop before or
during the wait. -/
inductive Stops (pass : schedule.Pass) (env : Env σ) :
    Verdict X (Option B) → List Duration → Env σ → Prop
  | decided {verdict : Verdict X (Option B)} {judged : Env σ}
      (h : Tries accept attempt env (.stop verdict) judged) : Stops pass env verdict [] judged
  | exhausted {verdict : Verdict X (Option B)} {judged drawn : Env σ}
      (h : Tries accept attempt env (.goOn () verdict) judged)
      (hdelay : judged.nextDelay schedule pass = (none, drawn)) : Stops pass env verdict [] drawn
  | interrupted {verdict : Verdict X (Option B)} {delay : Duration} {rest : schedule.Pass}
      {failure : Failure} {asked : List Duration} {judged drawn stopped : Env σ}
      (h : Tries accept attempt env (.goOn () verdict) judged)
      (hdelay : judged.nextDelay schedule pass = (some (delay, rest), drawn))
      (hpauses : Pauses sleeper context delay drawn (some failure) asked stopped) :
      Stops pass env (.fail failure) asked stopped

variable {schedule sleeper context accept attempt}

/-- The course of a retried stage is the course of its rounds, in which attempts show nothing but
what is decided after them. -/
theorem retries_iff_roundsTo {begun env : Env σ} {waits : List Duration} {pass : schedule.Pass} :
    Retries schedule sleeper context accept attempt begun waits pass env ↔
      ∃ showings current, RoundsTo schedule sleeper context
        (fun _ env (_ : Unit) => Tries accept attempt env) () begun showings waits pass current
          env := by
  constructor
  · intro h
    induction h with
    | first => exact ⟨[], (), .first⟩
    | again _ htries hdelay hpauses ih =>
      obtain ⟨showings, _, hrounds⟩ := ih
      exact ⟨showings ++ [()], (), hrounds.again htries hdelay hpauses⟩
  · rintro ⟨showings, current, hrounds⟩
    induction hrounds with
    | first => exact .first
    | again _ htries hdelay hpauses ih => exact ih.again htries hdelay hpauses

theorem stops_iff_lastRound {pass : schedule.Pass} {env env' : Env σ}
    {verdict : Verdict X (Option B)} {asked : List Duration} :
    Stops schedule sleeper context accept attempt pass env verdict asked env' ↔
      LastRound schedule sleeper context (fun _ env (_ : Unit) => Tries accept attempt env) pass ()
        env () verdict asked env' := by
  constructor
  · rintro (htries | ⟨htries, hdelay⟩ | ⟨htries, hdelay, hpauses⟩)
    · exact .decided htries
    · exact .exhausted htries hdelay
    · exact .interrupted htries hdelay hpauses
  · rintro (htries | ⟨htries, hdelay⟩ | ⟨htries, hdelay, hpauses⟩)
    · exact .decided htries
    · exact .exhausted htries hdelay
    · exact .interrupted htries hdelay hpauses

/-- The loop ends with a verdict if its course leads to an attempt after which it stops, and only
then. -/
theorem retries_iff {fuel : Nat} {begun env' : Env σ} {tally : Tally}
    {verdict : Verdict X (Option B)} :
    repeatRounds (tallyRound (fun _ => judgeRetry accept attempt) sleeper context) fuel
        schedule.start () (.zero, ()) begun = ⟨.ok verdict, (tally, ()), env'⟩ ↔
      ∃ waits pass last asked, waits.length < fuel ∧
        Retries schedule sleeper context accept attempt begun waits pass last ∧
        Stops schedule sleeper context accept attempt pass last verdict asked env' ∧
        tally = ⟨waits.length + 1, waits ++ asked⟩ := by
  have hdescribes : Describes (fun _ env (_ : Unit) => Tries accept attempt env)
      (fun _ : Unit => judgeRetry accept attempt) := by
    intro _ env decision env'
    exact tries_iff.trans ⟨fun htries => ⟨(), htries⟩, fun ⟨_, htries⟩ => htries⟩
  rw [roundsTo_iff hdescribes]
  constructor
  · rintro ⟨showings, shown, waits, pass, current, last, asked, hfuel, hrounds, hlast, htally⟩
    exact ⟨waits, pass, last, asked, hfuel, retries_iff_roundsTo.2 ⟨showings, current, hrounds⟩,
      stops_iff_lastRound.2 hlast, htally⟩
  · rintro ⟨waits, pass, last, asked, hfuel, hretries, hstops, htally⟩
    obtain ⟨showings, current, hrounds⟩ := retries_iff_roundsTo.1 hretries
    exact ⟨showings, (), waits, pass, current, last, asked, hfuel, hrounds,
      stops_iff_lastRound.1 hstops, htally⟩

end Course

/-! ### The delays of a schedule that leaves nothing to chance -/

namespace Schedule

/-- A schedule whose delays do not depend on the dice. -/
def IsFixed (schedule : Schedule) : Prop :=
  ∀ pass dice dice', (schedule.next? pass dice).1 = (schedule.next? pass dice').1

theorem IsFixed.readFrom (h : schedule.IsFixed) (n : Nat) (pass : schedule.Pass)
    (dice dice' : Dice) :
    (schedule.readFrom n pass dice).delays = (schedule.readFrom n pass dice').delays := by
  induction n generalizing pass dice dice' with
  | zero => rfl
  | succ n ih =>
    have hnext := h pass dice dice'
    simp only [Schedule.readFrom]
    generalize schedule.next? pass dice = draw at hnext ⊢
    generalize schedule.next? pass dice' = draw' at hnext ⊢
    obtain ⟨found, drawn⟩ := draw
    obtain ⟨found', drawn'⟩ := draw'
    obtain rfl : found = found' := hnext
    cases found with
    | none => rfl
    | some draw => exact congrArg (draw.1 :: ·) (ih draw.2 drawn drawn')

/-- The first delays of a pass are the same in every reading. -/
theorem Reads.eq_read {delays : List Duration} {pass : schedule.Pass}
    (hreads : schedule.Reads delays pass) (h : schedule.IsFixed) (dice : Dice) :
    delays = (schedule.read delays.length dice).delays := by
  -- A longer reading gives these delays first and then what the rest of the pass gives.
  have hmore (n : Nat) : (schedule.readFrom (delays.length + n) schedule.start dice).delays =
      delays ++ (schedule.readFrom n pass dice).delays := by
    induction hreads generalizing n with
    | start => rw [List.length_nil, Nat.zero_add, List.nil_append]
    | @draw delays pass rest delay drawn drawn' before hdraw ih =>
      have hlength : (delays ++ [delay]).length + n = delays.length + (n + 1) := by
        simp only [List.length_append, List.length_cons, List.length_nil]
        omega
      have hrest := h.readFrom n rest drawn' dice
      rw [hlength, ih, h.readFrom (n + 1) pass dice drawn, Schedule.readFrom, hdraw]
      simp only [hrest, List.append_assoc, List.singleton_append]
  have hread := hmore 0
  rw [Nat.add_zero] at hread
  rw [Schedule.read, hread]
  exact (List.append_nil delays).symm

end Schedule

/-! ### What a retried stage does -/

namespace Stage

variable (fuel : Nat) (inner : Stage σ X A B) (context : Context) (a : A)

/-- What a retried stage does with a value. Its sink is called at most once, with what its loop comes
to. The loop ends with a verdict if and only if its course, attempt by attempt and wait by wait,
leads to an attempt after which it stops. Each attempt is made by a new instance on the same value
and is judged by its last output, and it is the output of the last attempt that is delivered.

In every run, also one that is broken off, the sleeper is asked for the first delays of one pass of
the schedule, in order, once after each attempt but perhaps the last one. If the schedule leaves
nothing to chance, these are the delays that any reading of it begins with. -/
theorem retry_follows_schedule (schedule : Schedule) (sleeper : Sleeper σ) (acc : S) (down : κ)
    (env : Env σ) (accept : Callback σ B Bool) (sink : Sink σ X κ S B) :
    let attempt : Step σ Unit (Verdict X (Option B)) := inner.attempt fuel context a
    let tallied := inner.retryTallied fuel schedule sleeper context a env accept
    (retry inner schedule sleeper accept).run fuel sink context acc a ((), down) env =
        tallied.deliveredTo sink context acc down ∧
      (∀ verdict tally env', tallied = ⟨.ok verdict, (tally, ()), env'⟩ ↔
        ∃ waits pass last asked, waits.length < fuel ∧
          Retries schedule sleeper context accept attempt env waits pass last ∧
          Stops schedule sleeper context accept attempt pass last verdict asked env' ∧
          tally = ⟨waits.length + 1, waits ++ asked⟩) ∧
      tallied.state.1.Follows schedule ∧
      (schedule.IsFixed → ∀ dice, tallied.state.1.waits =
        (schedule.read tallied.state.1.waits.length dice).delays) ∧
      ∀ begun verdict produced, (attempt () begun).result = .ok verdict →
        verdict.acc? = some produced →
          produced = (inner.visits fuel Sink.last context none a (inner.init, ())
            begun).getLast?.map (·.value) := by
  intro attempt tallied
  have hfollows : tallied.state.1.Follows schedule :=
    follows_retryTallied fuel inner schedule sleeper context a env accept
  refine ⟨run_retry_eq_deliveredTo fuel inner schedule sleeper context acc a down env accept sink,
    fun verdict tally env' => retries_iff, hfollows, fun hfixed dice => ?_,
    fun begun verdict produced => attempt_last fuel inner context a () begun⟩
  obtain ⟨last, hreads⟩ := hfollows.reads
  exact hreads.eq_read hfixed dice

/-- A stage that counts its attempts and is tried until the number is 2: it makes three attempts with
two waits in between, and its first attempt gives 0. -/
theorem retry_follows_schedule_spaced :
    let inner : Stage Nat Empty Unit Nat := map fun _ count => ⟨.ok count, count + 1, []⟩
    let schedule : Schedule := .spaced (.clip 5)
    let sleeper : Sleeper Nat := .ofFun fun _ => .elapsed
    let accept : Callback Nat Nat Bool := .ofFun fun n => n == 2
    let context : Context := ⟨.root (.ofNat 0), ⟨0⟩, none⟩
    let env : Env Nat := .start 0 .fresh ⟨id, 0⟩
    let attempt : Step Nat Unit (Verdict Empty (Option Nat)) := inner.attempt 9 context ()
    let tallied := inner.retryTallied 9 schedule sleeper context () env accept
    tallied.result = .ok (.proceed (some 2)) ∧ tallied.state.1 = ⟨3, [.clip 5, .clip 5]⟩ ∧
      schedule.IsFixed ∧
      tallied.state.1.waits = (schedule.read tallied.state.1.waits.length ⟨id, 7⟩).delays ∧
      (attempt () env).result = .ok (.proceed (some 0)) ∧
      some 0 = (inner.visits 9 Sink.last context none () (inner.init, ()) env).getLast?.map
        (·.value) := by
  intro inner schedule sleeper accept context env attempt tallied
  have hfixed : schedule.IsFixed := fun _ _ _ => rfl
  have hcourse := retry_follows_schedule 9 inner context () schedule sleeper none () env accept
    Sink.last
  exact ⟨rfl, rfl, hfixed, hcourse.2.2.2.1 hfixed ⟨id, 7⟩, rfl,
    hcourse.2.2.2.2 env (.proceed (some 0)) (some 0) rfl rfl⟩

end Stage

end Transduction
