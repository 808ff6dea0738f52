import Transduction.Stage.Run

/-!
# How the last attempt of a scheduled stage ends

A scheduled stage works on a value in rounds. Each round first finds out what comes of one attempt
and then concludes: it ends the work on the value or waits for another round. A log of what the
rounds found does not change what they do, and its latest entry says which attempt the stage
stopped at.

A retried stage that stops at a completed attempt never asks for more. A scheduled fold does not
either, as long as the folded value stays inside the bound of the fold. If the same attempt
completes and leaves the bound, the bound is looked at first, and the completion is lost.

## Main definitions

* `loggedRound`: a round in two parts, with a log of what the first part found.
* `foldInto`, `examineFold`, `concludeFold`, `concludeRetry`: the two parts of the rounds.
* `Stage.retryFindings`, `Stage.foldFindings`: the loops of scheduled stages, with such a log.

## Main results

* `repeatRounds_loggedRound`: rounds do not notice the log.
* `concludes_of_result`: the loop ends as the latest entry of the log is concluded.
* `Stage.terminal_of_completed_attempt`: what comes of a completed attempt.
* `Stage.completion_lost_at_bound`: a fold that completes and leaves its bound at once.
-/

namespace Transduction

variable {σ X κ S A B T R α : Type} {schedule : Schedule}

/-! ### Rounds in two parts -/

/-- A round in two parts that keeps a log of what the first part found, the latest first. -/
def loggedRound (examine : T → Step σ κ α)
    (conclude : schedule.Pass → α → Step σ κ (Continuation schedule T R)) :
    schedule.Pass → T → Step σ (List α × κ) (Continuation schedule T R) :=
  fun pass current state env =>
    match examine current state.2 env with
    | ⟨.error halt, rest, env⟩ => ⟨.error halt, (state.1, rest), env⟩
    | ⟨.ok found, rest, env⟩ =>
      let ended := conclude pass found rest env
      ⟨ended.result, (found :: state.1, ended.state), ended.env⟩

section Log

variable (examine : T → Step σ κ α)
  (conclude : schedule.Pass → α → Step σ κ (Continuation schedule T R)) (fuel : Nat)
  (pass : schedule.Pass) (current : T) (log : List α) (state : κ) (env : Env σ)

/-- Rounds do the same whether or not a log is kept. -/
theorem repeatRounds_loggedRound :
    repeatRounds (fun pass current => examine current >>= conclude pass) fuel pass current state
      env =
      let logged := repeatRounds (loggedRound examine conclude) fuel pass current (log, state) env
      ⟨logged.result, logged.state.2, logged.env⟩ := by
  refine repeatRounds_eq_logged (fun pass current log state env => ?_) fuel pass current log state
    env
  simp only [loggedRound, Step.bind_apply]
  rcases examine current state env with ⟨_ | found, state', env'⟩ <;> rfl

/-- If rounds end with a result, the latest entry of the log is what the first part of the last
round found, and concluding it gave that result. -/
theorem concludes_of_result {result : R}
    (hresult : (repeatRounds (loggedRound examine conclude) fuel pass current (log, state)
      env).result = .ok result) :
    ∃ found older, (repeatRounds (loggedRound examine conclude) fuel pass current (log, state)
        env).state.1 = found :: older ∧
      (∃ current state env, (examine current state env).result = .ok found) ∧
      ∃ pass state env, (conclude pass found state env).result = .ok (.finish result) := by
  induction fuel generalizing pass current log state env with
  | zero => cases hresult
  | succ fuel ih =>
    simp only [repeatRounds, loggedRound] at hresult ⊢
    rcases hexamine : examine current state env with ⟨_ | found, state', env'⟩
    · rw [hexamine] at hresult
      cases hresult
    · rw [hexamine] at hresult
      simp only at hresult ⊢
      rcases hconclude : conclude pass found state' env' with ⟨_ | next, state'', env''⟩
      · rw [hconclude] at hresult
        cases hresult
      · rw [hconclude] at hresult
        cases next with
        | finish given =>
          obtain rfl := Except.ok.inj hresult
          exact ⟨found, log, rfl, ⟨current, state, env, congrArg Ended.result hexamine⟩,
            pass, state', env', congrArg Ended.result hconclude⟩
        | again pass current => exact ih pass current _ state'' env'' hresult

end Log

theorem Step.result_map (f : α → R) (step : Step σ κ α) (state : κ) (env : Env σ) :
    ((f <$> step : Step σ κ R) state env).result = (step state env).result.map f := by
  simp only [map_eq_pure_bind, bind_apply]
  rcases step state env with ⟨_ | a, _, _⟩ <;> rfl

/-- A round that ends with the answer of a step. -/
theorem result_of_finish {step : Step σ κ R} {state : κ} {env : Env σ} {result : R}
    (h : ((Continuation.finish <$> step : Step σ κ (Continuation schedule T R)) state env).result =
      .ok (.finish result)) : (step state env).result = .ok result := by
  rw [Step.result_map] at h
  generalize (step state env).result = answer at h ⊢
  cases answer with
  | error halt => cases h
  | ok given => exact congrArg Except.ok (Continuation.finish.inj (Except.ok.inj h))

/-- A completed answer is terminal. -/
theorem terminal_of_completed {step : Step σ κ (Verdict X S)} {state : κ} {env : Env σ}
    {verdict : Verdict X S} (h : ((Verdict.completed <$> step) state env).result = .ok verdict) :
    verdict.isTerminal = true := by
  rw [Step.result_map] at h
  generalize (step state env).result = answer at h
  cases answer with
  | error halt => cases h
  | ok given =>
    obtain rfl := Except.ok.inj h
    exact given.isTerminal_completed

/-! ### Retried stages -/

section Rounds

variable (sink : Sink σ X κ S B) (context : Context) (acc : S) (sleeper : Sleeper σ)

/-- What a retried stage does after an attempt. -/
def concludeRetry (accept : Callback σ B Bool) (pass : schedule.Pass) :
    Verdict X (Option B) → Step σ κ (Continuation schedule Unit (Verdict X S))
  | .fail failure => pure (.finish (.fail failure))
  | .alternate value => pure (.finish (.alternate value))
  | .complete produced => .finish <$> Verdict.completed <$> deliver sink context acc produced
  | .proceed produced => do
    if ← isAccepted accept produced then .finish <$> deliver sink context acc produced
    else waitOr sleeper context pass () (deliver sink context acc produced)

/-- An attempt, with a note that it began. -/
def noteAttempt (attempt : Step σ κ α) : Step σ κ α := do
  Step.update (·.record .attempted)
  attempt

theorem retryRound_eq_conclude_note (accept : Callback σ B Bool)
    (attempt : Step σ κ (Verdict X (Option B))) (pass : schedule.Pass) :
    retryRound sink context acc schedule sleeper accept attempt pass =
      noteAttempt attempt >>= concludeRetry sink context acc sleeper accept pass := by
  rw [noteAttempt, bind_assoc]
  refine bind_congr fun _ => bind_congr fun outcome => ?_
  cases outcome <;> rfl

/-! ### Scheduled folds -/

/-- Folds what an attempt produced into a value: where the folded value lies, and the value that the
fold is left with. -/
def foldInto (f : Callback σ (T × B) T) (bound : Bound σ T) (current : T) :
    Option B → Step σ κ (Reach × T)
  | none => pure (.inside, current)
  | some value => do
    let folded ← Step.call f (current, value)
    match ← bound.reach folded with
    | .excluded => return (.excluded, current)
    | .included => return (.included, folded)
    | .inside => return (.inside, folded)

/-- What a scheduled fold finds out from an attempt. -/
def examineFold (f : Callback σ (T × B) T) (bound : Bound σ T)
    (attempt : Step σ κ (Verdict X (Option B))) (current : T) :
    Step σ κ (Verdict X (Reach × T)) := do
  match ← noteAttempt attempt with
  | .fail failure => return .fail failure
  | .alternate value => return .alternate value
  | .proceed produced => .proceed <$> foldInto f bound current produced
  | .complete produced => .complete <$> foldInto f bound current produced

/-- A fold without a bound stays inside it. -/
theorem reach_of_foldInto_unbounded {f : Callback σ (T × B) T} {current value : T}
    {produced : Option B} {reach : Reach} {state : κ} {env : Env σ}
    (h : (foldInto f .unbounded current produced state env).result = .ok (reach, value)) :
    reach = .inside := by
  cases produced with
  | none => exact (Prod.mk.inj (Except.ok.inj h)).1.symm
  | some given =>
    simp only [foldInto, Bound.reach, pure_bind, Step.bind_apply] at h
    generalize (Step.call f (current, given) : Step σ κ T) state env = ended at h
    rcases ended with ⟨_ | folded, _, _⟩
    · cases h
    · exact (Prod.mk.inj (Except.ok.inj h)).1.symm

theorem reach_of_examineFold_unbounded {f : Callback σ (T × B) T} {current value : T}
    {attempt : Step σ κ (Verdict X (Option B))} {reach : Reach} {state : κ} {env : Env σ}
    (h : (examineFold f .unbounded attempt current state env).result =
      .ok (.complete (reach, value))) : reach = .inside := by
  simp only [examineFold, Step.bind_apply] at h
  generalize noteAttempt attempt state env = ended at h
  rcases ended with ⟨_ | outcome, state', env'⟩
  · cases h
  · cases outcome with
    | fail | alternate => cases h
    | proceed produced =>
      rw [Step.result_map] at h
      generalize (foldInto f .unbounded current produced state' env').result = result at h
      cases result <;> cases h
    | complete produced =>
      rw [Step.result_map] at h
      generalize hfold : (foldInto f .unbounded current produced state' env').result = result at h
      rcases result with _ | ⟨given, _⟩
      · cases h
      · cases h
        exact reach_of_foldInto_unbounded hfold

/-- What a scheduled fold does after an attempt. -/
def concludeFold (sink : Sink σ X κ S T) (pass : schedule.Pass) :
    Verdict X (Reach × T) → Step σ κ (Continuation schedule T (Verdict X S))
  | .fail failure => pure (.finish (.fail failure))
  | .alternate value => pure (.finish (.alternate value))
  | .proceed (.inside, value) => waitOr sleeper context pass value (sink context acc value)
  | .complete (.inside, value) => .finish <$> Verdict.completed <$> sink context acc value
  | .proceed (_, value) => .finish <$> sink context acc value
  | .complete (_, value) => .finish <$> sink context acc value

theorem foldRound_eq_conclude_examine (sink : Sink σ X κ S T) (f : Callback σ (T × B) T)
    (bound : Bound σ T) (attempt : Step σ κ (Verdict X (Option B))) (pass : schedule.Pass)
    (current : T) :
    foldRound sink context acc schedule sleeper f bound attempt pass current =
      examineFold f bound attempt current >>= concludeFold context acc sleeper sink pass := by
  simp only [foldRound, examineFold, noteAttempt, bind_assoc]
  refine bind_congr fun _ => bind_congr fun outcome => ?_
  cases outcome with
  | fail | alternate => rfl
  | proceed produced | complete produced =>
    cases produced with
    | none => rfl
    | some value =>
      simp only [foldInto, map_eq_pure_bind, bind_assoc]
      refine bind_congr fun folded => bind_congr fun reach => ?_
      cases reach with
      | excluded | included => rfl
      | inside =>
        simp only [Bool.false_eq_true, if_true, if_false, pure_bind, concludeFold,
          map_eq_pure_bind, bind_assoc]

end Rounds

/-! ### The attempt at which a stage stops -/

namespace Stage

variable (fuel : Nat) (inner : Stage σ X A B) (schedule : Schedule) (sleeper : Sleeper σ)
  (context : Context) (acc : S) (a : A) (down : κ) (env : Env σ)

/-- One attempt of a scheduled stage at a value, by a new instance of the stage inside. -/
def attempt : Step σ κ (Verdict X (Option B)) :=
  Step.isolated (inner.init, ()) (inner.run fuel Sink.last context none a)

/-- The loop of a retried stage on one value, with a log of how its attempts ended. -/
def retryFindings (accept : Callback σ B Bool) (sink : Sink σ X κ S B) :
    Ended σ (List (Verdict X (Option B)) × κ) (Verdict X S) :=
  repeatRounds (loggedRound (fun _ => noteAttempt (inner.attempt fuel context a))
    (concludeRetry sink context acc sleeper accept)) fuel schedule.start () ([], down) env

/-- The loop of a scheduled fold on one value, with a log of what came of its attempts. -/
def foldFindings (seed : T) (f : Callback σ (T × B) T) (bound : Bound σ T)
    (sink : Sink σ X κ S T) : Ended σ (List (Verdict X (Reach × T)) × κ) (Verdict X S) :=
  repeatRounds (loggedRound (examineFold f bound (inner.attempt fuel context a))
    (concludeFold context acc sleeper sink)) fuel schedule.start seed ([], down) env

theorem run_retry_eq_retryFindings (accept : Callback σ B Bool) (sink : Sink σ X κ S B) :
    (retry inner schedule sleeper accept).run fuel sink context acc a ((), down) env =
      let found := inner.retryFindings fuel schedule sleeper context acc a down env accept sink
      ⟨found.result, ((), found.state.2), found.env⟩ := by
  have hround : (fun (pass : schedule.Pass) (_ : Unit) => retryRound sink context acc schedule
      sleeper accept (inner.attempt fuel context a) pass) =
      fun pass _ => noteAttempt (inner.attempt fuel context a) >>=
        concludeRetry sink context acc sleeper accept pass := by
    funext pass _
    exact retryRound_eq_conclude_note sink context acc sleeper accept _ pass
  have hlogged := repeatRounds_loggedRound (fun _ => noteAttempt (inner.attempt fuel context a))
    (concludeRetry sink context acc sleeper accept) fuel schedule.start () [] down env
  rw [← hround] at hlogged
  exact congrArg (fun ended => Ended.mk ended.result ((), ended.state) ended.env) hlogged

theorem run_foldAttempts_eq_foldFindings (seed : T) (f : Callback σ (T × B) T) (bound : Bound σ T)
    (sink : Sink σ X κ S T) :
    (foldAttempts inner schedule sleeper seed f bound).run fuel sink context acc a ((), down) env =
      let found :=
        inner.foldFindings fuel schedule sleeper context acc a down env seed f bound sink
      ⟨found.result, ((), found.state.2), found.env⟩ := by
  have hround : foldRound sink context acc schedule sleeper f bound (inner.attempt fuel context a) =
      fun pass current => examineFold f bound (inner.attempt fuel context a) current >>=
        concludeFold context acc sleeper sink pass := by
    funext pass current
    exact foldRound_eq_conclude_examine context acc sleeper sink f bound _ pass current
  have hlogged := repeatRounds_loggedRound (examineFold f bound (inner.attempt fuel context a))
    (concludeFold context acc sleeper sink) fuel schedule.start seed [] down env
  rw [← hround] at hlogged
  exact congrArg (fun ended => Ended.mk ended.result ((), ended.state) ended.env) hlogged

/-- A scheduled stage that ends with a verdict stopped at an attempt, the latest entry of its log.
If that attempt completed, a retried stage does not ask for more, also if the value of the attempt
is accepted. A scheduled fold does not ask for more either, if it has no bound or the folded value
lies inside its bound; if the attempt left the bound, the verdict is the answer of the sink as it
is. -/
theorem terminal_of_completed_attempt {T : Type} (seed : T) (f : Callback σ (T × B) T)
    (bound : Bound σ T) (accept : Callback σ B Bool) (sink : Sink σ X κ S B)
    (foldSink : Sink σ X κ S T) :
    let retried := inner.retryFindings fuel schedule sleeper context acc a down env accept sink
    let folded := inner.foldFindings fuel schedule sleeper context acc a down env seed f bound
      foldSink
    ((retry inner schedule sleeper accept).run fuel sink context acc a ((), down) env =
        ⟨retried.result, ((), retried.state.2), retried.env⟩ ∧
      ∀ verdict, retried.result = .ok verdict → ∃ last older, retried.state.1 = last :: older ∧
        (last.isComplete = true → verdict.isTerminal = true)) ∧
    (foldAttempts inner schedule sleeper seed f bound).run fuel foldSink context acc a ((), down)
        env = ⟨folded.result, ((), folded.state.2), folded.env⟩ ∧
      ∀ verdict, folded.result = .ok verdict → ∃ last older, folded.state.1 = last :: older ∧
        ∀ reach value, last = .complete (reach, value) →
          (reach = .inside → verdict.isTerminal = true) ∧
          (reach ≠ .inside → bound ≠ .unbounded ∧
            ∃ state env, (foldSink context acc value state env).result = .ok verdict) := by
  intro retried folded
  refine ⟨⟨run_retry_eq_retryFindings fuel inner schedule sleeper context acc a down env accept
    sink, fun verdict hresult => ?_⟩, run_foldAttempts_eq_foldFindings fuel inner schedule sleeper
    context acc a down env seed f bound foldSink, fun verdict hresult => ?_⟩
  · obtain ⟨last, older, hlog, -, pass, state, env, hconclude⟩ :=
      concludes_of_result _ _ _ _ _ _ _ _ hresult
    refine ⟨last, older, hlog, fun hcomplete => ?_⟩
    cases last with
    | complete produced => exact terminal_of_completed (result_of_finish hconclude)
    | proceed | fail | alternate => cases hcomplete
  · obtain ⟨last, older, hlog, ⟨current, before, start, hexamine⟩, pass, state, env, hconclude⟩ :=
      concludes_of_result _ _ _ _ _ _ _ _ hresult
    refine ⟨last, older, hlog, fun reach value hlast => ?_⟩
    subst hlast
    cases reach with
    | inside =>
      exact ⟨fun _ => terminal_of_completed (result_of_finish hconclude),
        fun hnot => absurd rfl hnot⟩
    | excluded | included =>
      refine ⟨fun hinside => Reach.noConfusion hinside, fun hnot =>
        ⟨fun hbound => hnot ?_, state, env, result_of_finish hconclude⟩⟩
      subst hbound
      exact reach_of_examineFold_unbounded hexamine

/-- A single attempt that completes with a value that leaves the bound of the fold: the fold asks
for more, and a source in front of it goes on through all of its items. -/
theorem completion_lost_at_bound :
    let add : Callback Unit (Nat × Nat) Nat := .ofFun fun (sum, n) => sum + n
    let inner : Stage Unit Empty Nat Nat := fold 0 add (.whileHolds (.ofFun fun _ => false))
    let sleeper : Sleeper Unit := .ofFun fun _ => .elapsed
    let bound : Bound Unit Nat := .untilHolds (.ofFun fun _ => true)
    let stage : Stage Unit Empty Nat Nat := foldAttempts inner .never sleeper 0 add bound
    let context : Context := ⟨.root (.ofNat 0), ⟨0⟩, none⟩
    let env : Env Unit := .start () .fresh ⟨id, 0⟩
    (inner.foldFindings 1 .never sleeper context #[] 1 () env 0 add bound Sink.all).state.1 =
        [.complete (.excluded, 0)] ∧
      (stage.run 1 Sink.all context #[] 1 (stage.init, ()) env).result = .ok (.proceed #[0]) ∧
      ((compose each stage).run 1 Sink.all context #[] [1, 2, 3]
        ((compose each stage).init, ()) env).result = .ok (.proceed #[0, 0, 0]) :=
  ⟨rfl, rfl, rfl⟩

end Stage

end Transduction
