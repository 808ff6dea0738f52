import Transduction.Proofs.Attempts.Tallies

/-!
# The calls of a sleeper

A sleeper can keep a list of the delays it is called with in the user state. If nothing else touches
this list, it shows what a scheduled stage asked its sleeper for on one value: after the run, the
list has grown by the waits of the tally, in order. This holds however the run ends, also if the
sleeper is what breaks it off.

## Main definitions

* `Callback.Records`: a callback that lists its calls.
* `Callback.Preserves`, `Bound.Preserves`, `Step.Preserves`, `Sink.Preserves`: what leaves a view of
  the user state as it is.

## Main results

* `calls_tallyPause`, `calls_tallyRound`: a wait and a round keep the list and the tally together.
* `calls_repeatRounds`: the loop of a scheduled stage calls its sleeper with the waits of its tally.
* `Stage.calls_run_retry`, `Stage.calls_run_foldAttempts`: what scheduled stages call their sleepers
  with.
-/

namespace Transduction

variable {σ γ X κ S A B T α β : Type} {schedule : Schedule}

/-! ### Views of the user state -/

/-- A callback that adds each of its calls to a list in the user state. -/
def Callback.Records (calls : σ → List α) (callback : Callback σ α β) : Prop :=
  ∀ a user, calls (callback a user).user = calls user ++ [a]

/-- A callback that leaves a view of the user state as it is. -/
def Callback.Preserves (view : σ → γ) (callback : Callback σ α β) : Prop :=
  ∀ a user, view (callback a user).user = view user

/-- A bound whose test leaves a view of the user state as it is. -/
def Bound.Preserves (view : σ → γ) : Bound σ T → Prop
  | unbounded => True
  | untilHolds test => test.Preserves view
  | whileHolds test => test.Preserves view

/-- A step that leaves a view of the user state as it is, however it ends. -/
def Step.Preserves (view : σ → γ) (step : Step σ κ α) : Prop :=
  ∀ state env, view (step state env).env.user = view env.user

/-- A sink that leaves a view of the user state as it is. -/
def Sink.Preserves (view : σ → γ) (sink : Sink σ X κ S A) : Prop :=
  ∀ context acc a, (sink context acc a).Preserves view

/-- Drawing a delay leaves the user state as it is. -/
theorem Env.user_of_nextDelay {env drawn : Env σ} {pass : schedule.Pass}
    {found : Option (Duration × schedule.Pass)} (h : env.nextDelay schedule pass = (found, drawn)) :
    drawn.user = env.user := by
  obtain ⟨-, rfl⟩ := Prod.mk.inj h
  rfl

/-- The user state after a call is the one that the callback left behind. -/
theorem Step.user_call (callback : Callback σ α β) (a : α) (state : κ) (env : Env σ) :
    (Step.call callback a state env).env.user = (callback a env.user).user :=
  Env.user_happenAll _ _

section Views

variable {view : σ → γ}

namespace Step

theorem preserves_pure (a : α) : (pure a : Step σ κ α).Preserves view := fun _ _ => rfl

theorem preserves_attempted : (update (·.record .attempted) : Step σ κ Unit).Preserves view :=
  fun _ _ => rfl

theorem preserves_call {callback : Callback σ α β} (h : callback.Preserves view) (a : α) :
    (call callback a : Step σ κ β).Preserves view := by
  intro state env
  rw [user_call]
  exact h a env.user

theorem Preserves.bind {first : Step σ κ α} {next : α → Step σ κ β} (hfirst : first.Preserves view)
    (hnext : ∀ a, (next a).Preserves view) : (first >>= next).Preserves view := by
  intro state env
  have hleft := hfirst state env
  rw [bind_apply]
  generalize first state env = ended at hleft ⊢
  rcases ended with ⟨_ | a, state', env'⟩
  · exact hleft
  · exact (hnext a state' env').trans hleft

theorem Preserves.map {step : Step σ κ α} (h : step.Preserves view) (f : α → β) :
    (f <$> step).Preserves view := by
  rw [map_eq_pure_bind]
  exact h.bind fun a => preserves_pure (f a)

end Step

/-! ### Attempts and what is decided after them -/

section Judges

variable {attempt : Step σ κ (Verdict X (Option B))} (hattempt : attempt.Preserves view)
include hattempt

theorem preserves_noteAttempt : (noteAttempt attempt).Preserves view :=
  Step.preserves_attempted.bind fun _ => hattempt

theorem preserves_judgeRetry {accept : Callback σ B Bool} (haccept : accept.Preserves view) :
    (judgeRetry accept attempt).Preserves view := by
  refine (preserves_noteAttempt hattempt).bind fun outcome => ?_
  cases outcome with
  | fail | alternate | complete => exact Step.preserves_pure _
  | proceed produced =>
    have haccepted : (isAccepted accept produced : Step σ κ Bool).Preserves view := by
      cases produced with
      | none => exact Step.preserves_pure false
      | some value => exact Step.preserves_call haccept value
    refine haccepted.bind fun accepted => ?_
    cases accepted <;> exact Step.preserves_pure _

omit hattempt in
theorem Bound.Preserves.reach {bound : Bound σ T} (h : bound.Preserves view) (folded : T) :
    (bound.reach folded : Step σ κ Reach).Preserves view := by
  cases bound with
  | unbounded => exact Step.preserves_pure _
  | untilHolds | whileHolds => exact (Step.preserves_call h folded).map _

omit hattempt in
theorem preserves_foldInto {f : Callback σ (T × B) T} (hf : f.Preserves view) {bound : Bound σ T}
    (hbound : bound.Preserves view) (current : T) (produced : Option B) :
    (foldInto f bound current produced : Step σ κ (Reach × T)).Preserves view := by
  cases produced with
  | none => exact Step.preserves_pure _
  | some value =>
    refine (Step.preserves_call hf (current, value)).bind fun folded => ?_
    refine (hbound.reach folded).bind fun reach => ?_
    cases reach <;> exact Step.preserves_pure _

theorem preserves_judgeFold {f : Callback σ (T × B) T} (hf : f.Preserves view) {bound : Bound σ T}
    (hbound : bound.Preserves view) (current : T) :
    (judgeFold f bound attempt current).Preserves view := by
  have hexamine : (examineFold f bound attempt current).Preserves view := by
    refine (preserves_noteAttempt hattempt).bind fun outcome => ?_
    cases outcome with
    | fail | alternate => exact Step.preserves_pure _
    | proceed produced | complete produced =>
      exact (preserves_foldInto hf hbound current produced).map _
  refine hexamine.bind fun outcome => ?_
  rcases outcome with ⟨_ | _ | _, value⟩ | ⟨_ | _ | _, value⟩ | _ | _ <;>
    exact Step.preserves_pure _

end Judges

theorem Sink.Preserves.handOver {sink : Sink σ X κ S B} (h : sink.Preserves view)
    (context : Context) (acc : S) (verdict : Verdict X (Option B)) :
    (sink.handOver context acc verdict).Preserves view := by
  rcases verdict with (_ | value) | (_ | value) | _ | _
  · exact Step.preserves_pure _
  · exact h context acc value
  · exact Step.preserves_pure _
  · exact (h context acc value).map _
  all_goals exact Step.preserves_pure _

theorem Ended.user_deliveredTo {sink : Sink σ X κ S B} (h : sink.Preserves view)
    (context : Context) (acc : S) (down : κ) (ended : Ended σ (Tally × Unit) (Verdict X (Option B))) :
    view (ended.deliveredTo sink context acc down).env.user = view ended.env.user := by
  rcases ended with ⟨_ | verdict, _, env⟩
  · rfl
  · exact h.handOver context acc verdict down env

end Views

/-! ### Waits -/

section Calls

variable {calls : σ → List Duration} {sleeper : Sleeper σ} (hrecords : sleeper.Records calls)
  (context : Context)
include hrecords

/-- A wait calls the sleeper once, however the wait ends. -/
theorem calls_waitOut (delay : Duration) (state : κ) (env : Env σ) :
    calls (waitOut sleeper context delay state env).env.user = calls env.user ++ [delay] := by
  -- The call is listed before it is known how the wait ends.
  have hcalled := congrArg calls
    (Step.user_call sleeper delay state (env.record (.waited delay)))
  rw [hrecords, Env.user_record] at hcalled
  simp only [waitOut, Step.bind_apply, Step.update]
  generalize Step.call sleeper delay state (env.record (.waited delay)) = ended at hcalled ⊢
  rcases ended with ⟨_ | rest, state', waited⟩
  · exact hcalled
  · cases rest with
    | elapsed | never => exact hcalled
    | interrupted reason => exact (congrArg calls (waited.user_cancel reason)).trans hcalled

/-- A wait is refused without a call of the sleeper. -/
theorem calls_pause (delay : Duration) (state : κ) (env : Env σ) :
    calls (pause sleeper context delay state env).env.user =
      if env.mayWait context delay then calls env.user ++ [delay] else calls env.user := by
  cases hmay : env.mayWait context delay with
  | true =>
    rw [pause_of_mayWait sleeper context state env hmay]
    exact calls_waitOut hrecords context delay state env
  | false =>
    cases hstop : env.interruption? context with
    | some failure =>
      rw [pause_of_interrupted hstop]
      rfl
    | none =>
      have hoverrun : env.wouldOverrun context delay = true := by
        simpa [Env.mayWait, hstop] using hmay
      rw [pause_of_overrun sleeper context state env hstop hoverrun]
      rfl

/-! ### Rounds -/

variable {earlier : List Duration}

/-- The list of calls and the tally grow together in a wait. -/
theorem calls_tallyPause (delay : Duration) {tally : Tally} (state : κ) {env : Env σ}
    (h : calls env.user = earlier ++ tally.waits) :
    let ended := tallyPause sleeper context delay (tally, state) env
    calls ended.env.user = earlier ++ ended.state.1.waits := by
  rw [tallyPause_eq]
  simp only [calls_pause hrecords]
  cases env.mayWait context delay <;> simp [h]

variable {judge : T → Step σ κ (Decision T (Verdict X S))}
  (hjudge : ∀ current, (judge current).Preserves calls)
include hjudge

/-- The list of calls and the tally grow together in a round. -/
theorem calls_tallyRound (pass : schedule.Pass) (current : T) {tally : Tally} (state : κ)
    {env : Env σ} (h : calls env.user = earlier ++ tally.waits) :
    let ended := tallyRound judge sleeper context pass current (tally, state) env
    calls ended.env.user = earlier ++ ended.state.1.waits := by
  -- Neither the attempt nor the draw of a delay touches the list; only the wait adds to it.
  have hjudged := (hjudge current state env).trans h
  rcases hended : judge current state env with ⟨_ | decision, state', judged⟩
  all_goals rw [hended] at hjudged
  · rw [tallyRound_of_halt sleeper context state env hended]
    exact hjudged
  · cases decision with
    | stop verdict =>
      rw [tallyRound_of_stop sleeper context state env hended]
      exact hjudged
    | goOn next whenOver =>
      rcases hdelay : judged.nextDelay schedule pass with ⟨_ | ⟨delay, rest⟩, drawn⟩
      all_goals have hdrawn := (congrArg calls (Env.user_of_nextDelay hdelay)).trans hjudged
      · rw [tallyRound_of_no_delay sleeper context state env hended hdelay]
        exact hdrawn
      · rw [tallyRound_of_delay sleeper context state env hended hdelay]
        exact calls_tallyPause hrecords context delay state' hdrawn

/-- A loop calls its sleeper with the waits of its tally, in order, in every run. -/
theorem calls_repeatRounds (fuel : Nat) (pass : schedule.Pass) (current : T) {tally : Tally}
    (state : κ) {env : Env σ} (h : calls env.user = earlier ++ tally.waits) :
    let ended := repeatRounds (tallyRound judge sleeper context) fuel pass current (tally, state) env
    calls ended.env.user = earlier ++ ended.state.1.waits := by
  induction fuel generalizing pass current tally state env with
  | zero => exact h
  | succ fuel ih =>
    have hround := calls_tallyRound hrecords context hjudge pass current state h
    simp only [repeatRounds]
    generalize tallyRound judge sleeper context pass current (tally, state) env = ended at hround ⊢
    rcases ended with ⟨_ | _ | ⟨rest, next⟩, ⟨tally', state'⟩, env'⟩
    · exact hround
    · exact hround
    · exact ih rest next state' hround

end Calls

/-! ### Scheduled stages -/

namespace Stage

variable (fuel : Nat) {inner : Stage σ X A B} (schedule : Schedule) {sleeper : Sleeper σ}
  (context : Context) (acc : S) (a : A) (down : κ) (env : Env σ) {calls : σ → List Duration}
  (hrecords : sleeper.Records calls)
  (hattempt : Step.Preserves calls (inner.attempt fuel context a : Step σ Unit _))
include hrecords hattempt

/-- A retried stage calls its sleeper with the waits of its tally and does not call it again. -/
theorem calls_run_retry {accept : Callback σ B Bool} (haccept : accept.Preserves calls)
    {sink : Sink σ X κ S B} (hsink : sink.Preserves calls) :
    let retried := inner.retryTallied fuel schedule sleeper context a env accept
    calls ((retry inner schedule sleeper accept).run fuel sink context acc a ((), down)
      env).env.user = calls env.user ++ retried.state.1.waits := by
  have hstart : calls env.user = calls env.user ++ Tally.zero.waits := (List.append_nil _).symm
  rw [run_retry_eq_deliveredTo, Ended.user_deliveredTo hsink]
  exact calls_repeatRounds hrecords context (fun _ => preserves_judgeRetry hattempt haccept) fuel _
    () () hstart

/-- A scheduled fold calls its sleeper with the waits of its tally and does not call it again. -/
theorem calls_run_foldAttempts (seed : T) {f : Callback σ (T × B) T} (hf : f.Preserves calls)
    {bound : Bound σ T} (hbound : bound.Preserves calls) {sink : Sink σ X κ S T}
    (hsink : sink.Preserves calls) :
    let folded := inner.foldTallied fuel schedule sleeper context a env seed f bound
    calls ((foldAttempts inner schedule sleeper seed f bound).run fuel sink context acc a
      ((), down) env).env.user = calls env.user ++ folded.state.1.waits := by
  have hstart : calls env.user = calls env.user ++ Tally.zero.waits := (List.append_nil _).symm
  rw [run_foldAttempts_eq_deliveredTo, Ended.user_deliveredTo hsink]
  exact calls_repeatRounds hrecords context (preserves_judgeFold hattempt hf hbound) fuel _ seed ()
    hstart

end Stage

end Transduction
