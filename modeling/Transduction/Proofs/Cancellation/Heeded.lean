import Transduction.Proofs.Cancellation.Trace

/-!
# Cancellation is heeded

A cancellation is looked for before each item of a source and before each wait of a scheduled stage,
in the middle of whatever else the run does. From the first cancellation on no source anywhere in a
stage hands over an item and no scheduled stage begins to wait. A scheduled stage that works on a
value makes one more attempt at most: the wait before any further one is refused.

The attempts of a scheduled stage on one value are the rounds of a loop. A loop that keeps a log of
the surroundings in which its rounds begin makes them visible without being noticed by the rounds.

## Main definitions

* `logRound`: a round that keeps a log of the surroundings it begins in.
* `cancelledStarts`: in how many of some surroundings the run is cancelled.
* `Stage.retryLogged`, `Stage.foldLogged`: the loops of scheduled stages, with a log.

## Main results

* `Stage.run_retry_eq_retryLogged`, `Stage.run_foldAttempts_eq_foldLogged`: a loop does not notice
  the log.
* `answersOnly_retryRound`, `answersOnly_foldRound`: a round that begins cancelled is the last one.
* `Stage.heeds_cancellation`: whole runs, and the attempts of scheduled stages.
-/

namespace Transduction

variable {σ X κ S A B T R α β : Type}

/-! ### Rounds of a cancelled run -/

/-- A step that leaves a cancelled run cancelled for the same reason. -/
def Step.Stays (step : Step σ κ α) : Prop :=
  ∀ state env reason, env.token.reason = some reason →
    (step state env).env.token.reason = some reason

/-- A step that, in a cancelled run, gives results of a kind only. -/
def Step.AnswersOnly (step : Step σ κ α) (p : α → Prop) : Prop :=
  ∀ state env reason, env.token.reason = some reason → ∀ a, (step state env).result = .ok a → p a

/-- Whether a scheduled stage is through with a value. -/
def Continuation.IsFinish {schedule : Schedule} : Continuation schedule T R → Prop
  | finish _ => True
  | again _ _ => False

namespace Step

theorem Follows.stays {allowed : Disposal σ → Prop} {registry : RegistryId} {step : Step σ κ α}
    (h : step.Follows allowed registry) : step.Stays := fun state env _ hreason =>
  (h state env).reason hreason

theorem stays_call (callback : Callback σ α β) (a : α) : (call callback a : Step σ κ β).Stays :=
  (follows_call callback a : Step.Follows (fun _ => True) ⟨0⟩ _).stays

theorem Stays.bind {first : Step σ κ α} {next : α → Step σ κ β} {p : β → Prop}
    (hfirst : first.Stays) (hnext : ∀ a, (next a).AnswersOnly p) :
    (first >>= next).AnswersOnly p := by
  intro state env reason hreason b hresult
  have hstays := hfirst state env reason hreason
  rw [bind_apply] at hresult
  generalize first state env = ended at hstays hresult
  rcases ended with ⟨_ | a, state', env'⟩
  · cases hresult
  · exact hnext a state' env' reason hstays b hresult

theorem answersOnly_map {step : Step σ κ α} {f : α → β} {p : β → Prop} (h : ∀ a, p (f a)) :
    (f <$> step).AnswersOnly p := by
  intro state env reason _ b hresult
  rw [map_eq_pure_bind, bind_apply] at hresult
  generalize step state env = ended at hresult
  rcases ended with ⟨_ | a, state', env'⟩
  · cases hresult
  · obtain rfl := Except.ok.inj hresult
    exact h a

theorem answersOnly_pure {a : α} {p : α → Prop} (h : p a) :
    (pure a : Step σ κ α).AnswersOnly p := by
  intro state env reason _ b hresult
  obtain rfl := Except.ok.inj hresult
  exact h

end Step

section Rounds

variable {schedule : Schedule} {context : Context} {attempt : Step σ κ (Verdict X (Option B))}
  {acc : S} {sleeper : Sleeper σ}

/-- The wait before another round is refused. -/
theorem answersOnly_waitOr (pass : schedule.Pass) (current : T)
    (exhausted : Step σ κ (Verdict X S)) :
    (waitOr sleeper context pass current exhausted).AnswersOnly Continuation.IsFinish := by
  have hdraw : (Step.modifyGet (·.nextDelay schedule pass) : Step σ κ _).Stays :=
    fun _ _ _ hreason => hreason
  refine hdraw.bind fun found => ?_
  rcases found with _ | ⟨delay, pass⟩
  · exact Step.answersOnly_map fun _ => trivial
  · intro state env reason hreason next hresult
    have hpause := pause_of_interrupted (Env.interruption?_of_cancelled hreason context) sleeper
      delay state
    simp only [Step.bind_of_ok hpause] at hresult
    obtain rfl := Except.ok.inj hresult
    trivial

theorem stays_isAccepted (accept : Callback σ B Bool) (produced : Option B) :
    (isAccepted accept produced : Step σ κ Bool).Stays := by
  cases produced with
  | some value => exact Step.stays_call accept value
  | none => exact fun _ _ _ hreason => hreason

theorem stays_reach (bound : Bound σ T) (folded : T) :
    (bound.reach folded : Step σ κ Reach).Stays :=
  (Step.follows_reach bound folded : Step.Follows (fun _ => True) ⟨0⟩ _).stays

variable (sink : Sink σ X κ S B)

theorem answersOnly_retryRound (hattempt : attempt.Stays) (accept : Callback σ B Bool)
    (pass : schedule.Pass) :
    (retryRound sink context acc schedule sleeper accept attempt pass).AnswersOnly
      Continuation.IsFinish := by
  have hnoted : (Step.update (·.record .attempted) : Step σ κ Unit).Stays :=
    fun _ _ _ hreason => hreason
  refine hnoted.bind fun _ => hattempt.bind fun outcome => ?_
  cases outcome with
  | fail | alternate => exact Step.answersOnly_pure trivial
  | complete produced => exact Step.answersOnly_map fun _ => trivial
  | proceed produced =>
    refine (stays_isAccepted accept produced).bind fun accepted => ?_
    cases accepted with
    | true => exact Step.answersOnly_map fun _ => trivial
    | false => exact answersOnly_waitOr pass () _

theorem answersOnly_foldRound {sink : Sink σ X κ S T} (hattempt : attempt.Stays)
    (f : Callback σ (T × B) T) (bound : Bound σ T) (pass : schedule.Pass) (current : T) :
    (foldRound sink context acc schedule sleeper f bound attempt pass current).AnswersOnly
      Continuation.IsFinish := by
  have hnoted : (Step.update (·.record .attempted) : Step σ κ Unit).Stays :=
    fun _ _ _ hreason => hreason
  have hafter (isLast : Bool) (current : T) : Step.AnswersOnly
      (if isLast then .finish <$> Verdict.completed <$> sink context acc current
        else waitOr sleeper context pass current (sink context acc current))
      Continuation.IsFinish := by
    cases isLast with
    | true => exact Step.answersOnly_map fun _ => trivial
    | false => exact answersOnly_waitOr pass current _
  refine hnoted.bind fun _ => hattempt.bind fun outcome => ?_
  cases outcome with
  | fail | alternate => exact Step.answersOnly_pure trivial
  | proceed produced | complete produced =>
    cases produced with
    | none => exact hafter _ current
    | some value =>
      refine (Step.stays_call f (current, value)).bind fun folded =>
        (stays_reach bound folded).bind fun reach => ?_
      cases reach with
      | excluded | included => exact Step.answersOnly_map fun _ => trivial
      | inside => exact hafter _ folded

end Rounds

/-! ### Rounds with a log -/

/-- A round that keeps a log of the surroundings it begins in, the latest ones first. -/
def logRound {schedule : Schedule}
    (round : schedule.Pass → T → Step σ κ (Continuation schedule T R)) :
    schedule.Pass → T → Step σ (List (Env σ) × κ) (Continuation schedule T R) :=
  fun pass current state env =>
    let ended := round pass current state.2 env
    ⟨ended.result, (env :: state.1, ended.state), ended.env⟩

/-- In how many of some surroundings the run is cancelled. -/
def cancelledStarts (starts : List (Env σ)) : Nat :=
  starts.countP fun start => start.token.isCancelled

section Log

variable {schedule : Schedule} {round : schedule.Pass → T → Step σ κ (Continuation schedule T R)}

/-- Rounds do the same whether or not a log is kept. -/
theorem repeatRounds_logRound (round : schedule.Pass → T → Step σ κ (Continuation schedule T R))
    (fuel : Nat) (pass : schedule.Pass) (current : T) (log : List (Env σ)) (state : κ)
    (env : Env σ) :
    repeatRounds round fuel pass current state env =
      let logged := repeatRounds (logRound round) fuel pass current (log, state) env
      ⟨logged.result, logged.state.2, logged.env⟩ :=
  repeatRounds_eq_logged (fun _ _ _ _ _ => rfl) fuel pass current log state env

/-- If a round that begins cancelled is the last one, one round at most begins cancelled. -/
theorem cancelledStarts_le (h : ∀ pass current, (round pass current).AnswersOnly
    Continuation.IsFinish) (fuel : Nat) (pass : schedule.Pass) (current : T) (log : List (Env σ))
    (state : κ) (env : Env σ) :
    cancelledStarts (repeatRounds (logRound round) fuel pass current (log, state) env).state.1 ≤
      cancelledStarts log + 1 := by
  induction fuel generalizing pass current log state env with
  | zero => exact Nat.le_succ _
  | succ fuel ih =>
    have hstart : cancelledStarts (env :: log) ≤ cancelledStarts log + 1 := by
      rw [cancelledStarts, List.countP_cons, cancelledStarts]
      split <;> omega
    have hround := h pass current state env
    simp only [repeatRounds, logRound]
    rcases hended : round pass current state env with ⟨_ | next, state', env'⟩
    · exact hstart
    · cases next with
      | finish result => exact hstart
      | again pass current =>
        -- Another round begins, so this one did not begin cancelled.
        have hcalm : ¬env.token.isCancelled = true := by
          intro hcancelled
          obtain ⟨reason, hreason⟩ := Option.isSome_iff_exists.1 hcancelled
          rw [hended] at hround
          exact hround reason hreason _ rfl
        have hlog : cancelledStarts (env :: log) = cancelledStarts log :=
          List.countP_cons_of_neg hcalm
        rw [← hlog]
        exact ih pass current (env :: log) state' env'

end Log

namespace Stage

variable (fuel : Nat) (inner : Stage σ X A B) (schedule : Schedule) (sleeper : Sleeper σ)
  (context : Context) (acc : S) (a : A) (down : κ) (env : Env σ)

/-- The loop of a retried stage on one value, with a log of its attempts. -/
def retryLogged (accept : Callback σ B Bool) (sink : Sink σ X κ S B) :
    Ended σ (List (Env σ) × κ) (Verdict X S) :=
  let attempt := Step.isolated (inner.init, ()) (inner.run fuel Sink.last context none a)
  repeatRounds (logRound fun pass _ =>
    retryRound sink context acc schedule sleeper accept attempt pass) fuel schedule.start ()
      ([], down) env

/-- The loop of a scheduled fold on one value, with a log of its attempts. -/
def foldLogged (seed : T) (f : Callback σ (T × B) T) (bound : Bound σ T) (sink : Sink σ X κ S T) :
    Ended σ (List (Env σ) × κ) (Verdict X S) :=
  let attempt := Step.isolated (inner.init, ()) (inner.run fuel Sink.last context none a)
  repeatRounds (logRound (foldRound sink context acc schedule sleeper f bound attempt)) fuel
    schedule.start seed ([], down) env

/-- A retried stage does what its loop with a log does. -/
theorem run_retry_eq_retryLogged (accept : Callback σ B Bool) (sink : Sink σ X κ S B) :
    (retry inner schedule sleeper accept).run fuel sink context acc a ((), down) env =
      let logged := retryLogged fuel inner schedule sleeper context acc a down env accept sink
      ⟨logged.result, ((), logged.state.2), logged.env⟩ := by
  have hlogged := repeatRounds_logRound (fun pass _ => retryRound sink context acc schedule sleeper
    accept (Step.isolated (inner.init, ()) (inner.run fuel Sink.last context none a)) pass)
      fuel schedule.start () [] down env
  exact congrArg (fun ended => Ended.mk ended.result ((), ended.state) ended.env) hlogged

/-- A scheduled fold does what its loop with a log does. -/
theorem run_foldAttempts_eq_foldLogged (seed : T) (f : Callback σ (T × B) T) (bound : Bound σ T)
    (sink : Sink σ X κ S T) :
    (foldAttempts inner schedule sleeper seed f bound).run fuel sink context acc a ((), down) env =
      let logged := foldLogged fuel inner schedule sleeper context acc a down env seed f bound sink
      ⟨logged.result, ((), logged.state.2), logged.env⟩ := by
  have hlogged := repeatRounds_logRound (foldRound sink context acc schedule sleeper f bound
    (Step.isolated (inner.init, ()) (inner.run fuel Sink.last context none a)))
      fuel schedule.start seed [] down env
  exact congrArg (fun ended => Ended.mk ended.result ((), ended.state) ended.env) hlogged

theorem stays_attempt : (Step.isolated (inner.init, ())
    (inner.run fuel Sink.last context none a) : Step σ κ (Verdict X (Option B))).Stays :=
  ((follows_run fuel inner inner.disposes_true Sink.follows_last context none a).isolated _).stays

/-- After a cancellation a retried stage begins one more attempt at most. -/
theorem cancelled_retryLogged_le (accept : Callback σ B Bool) (sink : Sink σ X κ S B) :
    cancelledStarts (retryLogged fuel inner schedule sleeper context acc a down env accept
      sink).state.1 ≤ 1 :=
  cancelledStarts_le (fun pass _ => answersOnly_retryRound sink
    (stays_attempt fuel inner context a) accept pass) fuel schedule.start () [] down env

/-- After a cancellation a scheduled fold begins one more attempt at most. -/
theorem cancelled_foldLogged_le (seed : T) (f : Callback σ (T × B) T) (bound : Bound σ T)
    (sink : Sink σ X κ S T) :
    cancelledStarts (foldLogged fuel inner schedule sleeper context acc a down env seed f bound
      sink).state.1 ≤ 1 :=
  cancelledStarts_le (answersOnly_foldRound (stays_attempt fuel inner context a) f bound) fuel
    schedule.start seed [] down env

/-! ### Whole runs -/

section Runs

variable [TypeNamed X] (stage : Stage σ X A B) (input : A)

theorem traces_runIn {sink : Sink σ X Unit S B} (hsink : sink.Follows fun _ => True) (seed : S)
    (shape : S → Yield B) :
    env.Traces (stage.runIn fuel sink seed shape context input env).2 := by
  have hcourse := stage.follows_run fuel stage.disposes_true hsink context seed input
    (stage.init, ()) env
  exact hcourse.traces.trans (Env.traces_clean _ _)

theorem traces_alone {run : Context → Env σ → Except Halt (Yield B) × Env σ}
    (h : ∀ context (env : Env σ), env.Traces (run context env).2) :
    env.Traces (alone run env).2 := by
  have hopened : env.Traces (env.openContext none).2 := Env.traces_of_eq rfl rfl
  exact (hopened.trans (h _ _)).trans (Env.traces_dropRegistry _ _)

/-- From its first cancellation on, no source in a run hands over an item, no scheduled stage begins
to wait, and a source or a scheduled stage that fails because the run has to stop fails for the
reason that was given first. A scheduled stage that works on a value begins at most one attempt in
a cancelled run. Whoever was told of a cancellation finds the first reason for it, and no empty
one. -/
theorem heeds_cancellation :
    (∀ context, env.Heeds (stage.collectIn fuel context input env).2 ∧
      env.Heeds (stage.firstIn fuel context input env).2) ∧
    (env.Heeds (stage.collect fuel input env).2 ∧ env.Heeds (stage.first fuel input env).2) ∧
    (∀ {A B κ S : Type} (inner : Stage σ X A B) (schedule : Schedule) (sleeper : Sleeper σ)
      (context : Context) (acc : S) (a : A) (down : κ) (env : Env σ) (accept : Callback σ B Bool)
      (sink : Sink σ X κ S B),
      let logged := retryLogged fuel inner schedule sleeper context acc a down env accept sink
      (retry inner schedule sleeper accept).run fuel sink context acc a ((), down) env =
          ⟨logged.result, ((), logged.state.2), logged.env⟩ ∧
        cancelledStarts logged.state.1 ≤ 1) ∧
    (∀ {A B T κ S : Type} (inner : Stage σ X A B) (schedule : Schedule) (sleeper : Sleeper σ)
      (context : Context) (acc : S) (a : A) (down : κ) (env : Env σ) (seed : T)
      (f : Callback σ (T × B) T) (bound : Bound σ T) (sink : Sink σ X κ S T),
      let logged := foldLogged fuel inner schedule sleeper context acc a down env seed f bound sink
      (foldAttempts inner schedule sleeper seed f bound).run fuel sink context acc a ((), down)
          env = ⟨logged.result, ((), logged.state.2), logged.env⟩ ∧
        cancelledStarts logged.state.1 ≤ 1) ∧
    ∀ (env : Env σ) (reason : String) (context : Context),
      (env.cancel reason).interruption? context =
        some (.cancelled (env.token.reason.getD reason)) := by
  have hcollect (context : Context) (env : Env σ) :
      env.Traces (stage.collectIn fuel context input env).2 :=
    traces_runIn fuel context env stage input Sink.follows_all _ _
  have hfirst (context : Context) (env : Env σ) :
      env.Traces (stage.firstIn fuel context input env).2 :=
    traces_runIn fuel context env stage input Sink.follows_first _ _
  refine ⟨fun context => ⟨(hcollect context env).heeds, (hfirst context env).heeds⟩,
    ⟨(traces_alone env hcollect).heeds, (traces_alone env hfirst).heeds⟩,
    fun inner schedule sleeper context acc a down env accept sink =>
      ⟨run_retry_eq_retryLogged fuel inner schedule sleeper context acc a down env accept sink,
        cancelled_retryLogged_le fuel inner schedule sleeper context acc a down env accept sink⟩,
    fun inner schedule sleeper context acc a down env seed f bound sink =>
      ⟨run_foldAttempts_eq_foldLogged fuel inner schedule sleeper context acc a down env seed f
          bound sink,
        cancelled_foldLogged_le fuel inner schedule sleeper context acc a down env seed f bound
          sink⟩,
    fun env reason context => ?_⟩
  exact Env.interruption?_of_cancelled (by rw [Env.token_cancel, Token.reason_cancel]) context

/-- The second number cancels the run, and the third one is not handed over any more. -/
example : let stage : Stage Unit X (List Nat) Nat := compose each (inspect fun n user =>
      ⟨.ok (), user, if n = 2 then [.cancel "two", .cancel "again"] else []⟩)
    let context : Context := ⟨.root (.ofNat 0), ⟨0⟩, none⟩
    let env : Env Unit := .start () .fresh ⟨id, 0⟩
    (stage.run 1 Sink.all context #[] [1, 2, 3] (stage.init, ()) env).env.history =
      [.stopped (.cancelled "two"), .cancelled "two", .handed, .handed] := rfl

end Runs

end Stage

end Transduction
