import Transduction.Proofs.Emission.Basic

/-!
# The emissions of loops

The emitters of the sources, which feed their sink many times for one value, and what a scheduled
stage delivers, which is settled before the sink is called.
-/

namespace Transduction

variable {σ X ι κ S A B T : Type}

/-! ### Sources -/

/-- Goes on unless the run has to stop now. -/
def Emitter.unlessInterrupted (context : Context) (next : Emitter σ ι B (Verdict X Unit)) :
    Emitter σ ι B (Verdict X Unit) := do
  match ← lift (Step.ask (·.interruption? context)) with
  | some failure => return .fail (← lift (Step.stop failure))
  | none => next

/-- Emits a value that a source reads. -/
def Emitter.hand (value : B) : Emitter σ ι B (Verdict X Unit) := do
  lift (Step.update (·.record .handed))
  emit value

/-- Emits the items of a list. -/
def emitAll (context : Context) : List A → Emitter σ ι A (Verdict X Unit)
  | [] => pure (.proceed ())
  | item :: rest => .unlessInterrupted context <| .andProceed (.hand item) (emitAll context rest)

/-- Emits a number of consecutive numbers. -/
def emitCount (context : Context) : Nat → Nat → Emitter σ ι Nat (Verdict X Unit)
  | 0, _ => pure (.proceed ())
  | left + 1, next =>
    .unlessInterrupted context <| .andProceed (.hand next) (emitCount context left (next + 1))

/-- Emits the items of a feed. -/
def emitFeed (lift : A → Except Failure B) (context : Context) (tail : Feed.Tail) :
    List A → Emitter σ ι B (Verdict X Unit)
  | [] => .unlessInterrupted context <| match tail with
    | .over => pure (.proceed ())
    | .idle reason => do
      .lift (Step.update (·.cancel reason))
      return .fail (← .lift (Step.stop (← .lift (Step.ask (·.interruption context)))))
    | .silent => .lift (Step.halt .endless)
  | item :: rest => .unlessInterrupted context <| match lift item with
    | .error failure => pure (.fail failure)
    | .ok value => .andProceed (.hand value) (emitFeed lift context tail rest)

section Sources

variable (sink : Sink σ X κ S B) (context : Context)

theorem Emitter.perform_unlessInterrupted {next : Emitter σ ι B (Verdict X Unit)} {acc : S}
    {step : Step σ κ (Verdict X S)} (h : next.perform sink context acc = Sink.below step) :
    (unlessInterrupted context next).perform sink context acc =
      Sink.below fun state env =>
        match env.interruption? context with
        | some failure => ⟨.ok (.fail failure), state, env.record (.stopped failure)⟩
        | none => step state env := by
  funext state env
  rw [unlessInterrupted, perform_lift_bind, Step.bind_apply]
  simp only [Sink.above, Sink.below, Step.zoom, Step.ask]
  cases env.interruption? context with
  | some failure => rfl
  | none => exact congrFun (congrFun h state) env

/-- Handing a value over, and going on with the rest if the sink asks for more. -/
theorem Emitter.perform_hand_andProceed (value : B) (acc : S)
    {rest : Emitter σ ι B (Verdict X Unit)} {steps : S → Step σ κ (Verdict X S)}
    (h : ∀ acc, rest.perform sink context acc = Sink.below (steps acc)) :
    ((hand value).andProceed rest).perform sink context acc =
      Sink.below fun state env =>
        match sink context acc value state (env.record .handed) with
        | ⟨.ok (.proceed acc), state, env⟩ => steps acc state env
        | ended => ended := by
  funext state env
  have hhand : (hand value).perform sink context acc state env =
      Sink.below (sink context acc value) state (env.record .handed) := by
    rw [hand, perform_lift_bind, Step.bind_apply, perform_emit]
    rfl
  rw [perform_andProceed, hhand]
  simp only [Sink.below, Step.zoom]
  rcases sink context acc value state.2 (env.record .handed) with ⟨_ | verdict, down, env⟩
  · rfl
  · cases verdict with
    | proceed acc => exact congrFun (congrFun (h acc) (state.1, down)) env
    | complete | fail | alternate => rfl

theorem perform_emitAll (items : List B) (acc : S) :
    (emitAll context items : Emitter σ ι B (Verdict X Unit)).perform sink context acc =
      Sink.below (feed sink context items acc) := by
  induction items generalizing acc with
  | nil => rfl
  | cons item rest ih =>
    exact Emitter.perform_unlessInterrupted sink context
      (Emitter.perform_hand_andProceed sink context item acc ih)

theorem perform_emitCount (sink : Sink σ X κ S Nat) (left next : Nat) (acc : S) :
    (emitCount context left next : Emitter σ ι Nat (Verdict X Unit)).perform sink context acc =
      Sink.below (feedCount sink context left next acc) := by
  induction left generalizing next acc with
  | zero => rfl
  | succ left ih =>
    exact Emitter.perform_unlessInterrupted sink context
      (Emitter.perform_hand_andProceed sink context next acc (ih (next + 1)))

theorem perform_emitFeed (lift : A → Except Failure B) (tail : Feed.Tail) (items : List A)
    (acc : S) :
    (emitFeed lift context tail items : Emitter σ ι B (Verdict X Unit)).perform sink context acc =
      Sink.below (drainFeed sink lift context tail items acc) := by
  induction items generalizing acc with
  | nil =>
    refine Emitter.perform_unlessInterrupted sink context ?_
    cases tail <;> rfl
  | cons item rest ih =>
    refine Emitter.perform_unlessInterrupted sink context ?_
    cases lift item with
    | error failure => rfl
    | ok value => exact Emitter.perform_hand_andProceed sink context value acc ih

end Sources

/-! ### Scheduled stages -/

/-- Emits what a scheduled stage delivers in the end. -/
def Emitter.deliver : Verdict X (Option B) → Emitter σ ι B (Verdict X Unit)
  | .proceed (some value) => emit value
  | .proceed none => pure (.proceed ())
  | .complete (some value) => Verdict.completed <$> emit value
  | .complete none => pure (.complete ())
  | .fail failure => pure (.fail failure)
  | .alternate value => pure (.alternate value)

/-- Hands over what a scheduled stage delivers in the end. -/
def Sink.handOver (sink : Sink σ X κ S B) (context : Context) (acc : S) :
    Verdict X (Option B) → Step σ κ (Verdict X S)
  | .proceed (some value) => sink context acc value
  | .proceed none => pure (.proceed acc)
  | .complete (some value) => Verdict.completed <$> sink context acc value
  | .complete none => pure (.complete acc)
  | .fail failure => pure (.fail failure)
  | .alternate value => pure (.alternate value)

/-- A round into a sink, from a round that only notes what it would deliver. -/
def Sink.conclude {schedule : Schedule} (sink : Sink σ X κ S B) (context : Context) (acc : S) :
    Continuation schedule T (Verdict X (Option B)) →
      Step σ κ (Continuation schedule T (Verdict X S))
  | .finish verdict => .finish <$> sink.handOver context acc verdict
  | .again pass current => pure (.again pass current)

theorem Emitter.perform_deliver (sink : Sink σ X κ S B) (context : Context) (acc : S)
    (verdict : Verdict X (Option B)) :
    (Emitter.deliver verdict : Emitter σ ι B (Verdict X Unit)).perform sink context acc =
      Sink.below (sink.handOver context acc verdict) := by
  rcases verdict with (_ | value) | (_ | value) | _ | _
  · rfl
  · exact perform_emit sink context acc value
  · rfl
  · exact (perform_completed_emit sink context acc value).trans (Sink.below_map _ _).symm
  all_goals rfl

/-! ### Rounds -/

section Rounds

variable {schedule : Schedule} (sink : Sink σ X κ S B) (context : Context) (acc : S)

omit sink acc in
theorem isolated_pause (sleeper : Sleeper σ) (delay : Duration) :
    (Step.isolated () (pause sleeper context delay) : Step σ κ (Option Failure)) =
      pause sleeper context delay := by
  simp only [pause, Step.isolated_bind]
  refine bind_congr fun stop => ?_
  cases stop with
  | some failure => rfl
  | none =>
    simp only [Step.isolated_bind]
    refine bind_congr fun overruns => ?_
    cases overruns with
    | true => rfl
    | false =>
      simp only [Bool.false_eq_true, if_false, waitOut, Step.isolated_bind]
      refine bind_congr fun _ => bind_congr fun rest => ?_
      cases rest <;> rfl

/-- The rest of a round is concluded as it is noted, if the last delivery is. -/
theorem waitOr_eq_conclude (sleeper : Sleeper σ) (pass : schedule.Pass) (current : T)
    (verdict : Verdict X (Option B)) :
    waitOr sleeper context pass current (sink.handOver context acc verdict) =
      Step.isolated () (waitOr sleeper context pass current (pure verdict)) >>=
        sink.conclude context acc := by
  simp only [waitOr, Step.isolated_bind, bind_assoc]
  refine bind_congr fun found => ?_
  rcases found with _ | ⟨delay, pass⟩
  · rfl
  · simp only [Step.isolated_bind, bind_assoc, isolated_pause]
    refine bind_congr fun stop => ?_
    cases stop <;> rfl

omit sink acc in
theorem deliver_eq_handOver (sink : Sink σ X κ S B) (acc : S) (produced : Option B) :
    deliver sink context acc produced = sink.handOver context acc (.proceed produced) := by
  cases produced <;> rfl

omit sink acc in
theorem deliver_last (produced : Option B) :
    deliver (Sink.last : Sink σ X Unit (Option B) B) context none produced =
      pure (.proceed produced) := by
  cases produced <;> rfl

theorem retryRound_eq_conclude (sleeper : Sleeper σ) (accept : Callback σ B Bool) (inner : ι)
    (step : Step σ ι (Verdict X (Option B))) (pass : schedule.Pass) :
    retryRound sink context acc schedule sleeper accept (Step.isolated inner step) pass =
      Step.isolated () (retryRound Sink.last context none schedule sleeper accept
        (Step.isolated inner step) pass) >>= sink.conclude context acc := by
  simp only [retryRound, Step.isolated_bind, bind_assoc]
  refine bind_congr fun _ => bind_congr fun outcome => ?_
  cases outcome with
  | fail | alternate => rfl
  | complete produced => cases produced <;> rfl
  | proceed produced =>
    simp only [Step.isolated_bind, bind_assoc]
    have haccept : (Step.isolated () (isAccepted accept produced) : Step σ κ Bool) =
        isAccepted accept produced := by
      cases produced <;> rfl
    rw [haccept]
    refine bind_congr fun accepted => ?_
    cases accepted with
    | true => cases produced <;> rfl
    | false =>
      simp only [Bool.false_eq_true, if_false]
      rw [deliver_last, deliver_eq_handOver]
      exact waitOr_eq_conclude sink context acc sleeper pass () _

omit sink context acc in
theorem isolated_reach (bound : Bound σ T) (folded : T) :
    (Step.isolated () (bound.reach folded) : Step σ κ Reach) = bound.reach folded := by
  cases bound with
  | unbounded => rfl
  | untilHolds test | whileHolds test =>
    simp only [Bound.reach, map_eq_pure_bind, Step.isolated_bind]
    rfl

omit sink context acc in
theorem above_reach (bound : Bound σ T) (folded : T) :
    (Sink.above (bound.reach folded) : Step σ (ι × κ) Reach) = bound.reach folded := by
  cases bound with
  | unbounded => rfl
  | untilHolds test | whileHolds test =>
    simp only [Bound.reach, map_eq_pure_bind, Sink.above_bind]
    rfl

/-- After an attempt that is folded, the last one is delivered as complete and any other is followed
by a wait. -/
theorem lastOrWait_eq_conclude {sink : Sink σ X κ S T} (sleeper : Sleeper σ) (pass : schedule.Pass)
    (isLast : Bool) (current : T) :
    (if isLast then .finish <$> Verdict.completed <$> sink context acc current
      else waitOr sleeper context pass current (sink context acc current)) =
    Step.isolated () (if isLast then
        .finish <$> Verdict.completed <$> Sink.last context none current
      else waitOr sleeper context pass current (Sink.last context none current)) >>=
        sink.conclude context acc := by
  cases isLast with
  | true => rfl
  | false =>
    exact waitOr_eq_conclude sink context acc sleeper pass current (.proceed (some current))

theorem foldRound_eq_conclude {sink : Sink σ X κ S T} (sleeper : Sleeper σ)
    (f : Callback σ (T × B) T) (bound : Bound σ T) (inner : ι)
    (step : Step σ ι (Verdict X (Option B))) (pass : schedule.Pass) (current : T) :
    foldRound sink context acc schedule sleeper f bound (Step.isolated inner step) pass current =
      Step.isolated () (foldRound Sink.last context none schedule sleeper f bound
        (Step.isolated inner step) pass current) >>= sink.conclude context acc := by
  simp only [foldRound, Step.isolated_bind, bind_assoc]
  refine bind_congr fun _ => bind_congr fun outcome => ?_
  cases outcome with
  | fail | alternate => rfl
  | proceed produced =>
    cases produced with
    | none => exact lastOrWait_eq_conclude context acc sleeper pass false current
    | some value =>
      simp only [Step.isolated_bind, bind_assoc, isolated_reach]
      refine bind_congr fun folded => bind_congr fun reach => ?_
      cases reach with
      | excluded | included => rfl
      | inside => exact lastOrWait_eq_conclude context acc sleeper pass false folded
  | complete produced =>
    cases produced with
    | none => exact lastOrWait_eq_conclude context acc sleeper pass true current
    | some value =>
      simp only [Step.isolated_bind, bind_assoc, isolated_reach]
      refine bind_congr fun folded => bind_congr fun reach => ?_
      cases reach with
      | excluded | included => rfl
      | inside => exact lastOrWait_eq_conclude context acc sleeper pass true folded

/-- Rounds into a sink, from rounds that only note what they would deliver. -/
theorem repeatRounds_eq_handOver
    {round : schedule.Pass → T → Step σ κ (Continuation schedule T (Verdict X S))}
    {noted : schedule.Pass → T → Step σ Unit (Continuation schedule T (Verdict X (Option B)))}
    (h : ∀ pass current,
      round pass current = Step.isolated () (noted pass current) >>= sink.conclude context acc)
    (fuel : Nat) (pass : schedule.Pass) (current : T) :
    (repeatRounds round fuel pass current : Step σ κ (Verdict X S)) =
      Step.isolated () (repeatRounds noted fuel pass current) >>= sink.handOver context acc := by
  funext state env
  simp only [Step.bind_apply, Step.isolated]
  induction fuel generalizing pass current env with
  | zero => rfl
  | succ fuel ih =>
    simp only [repeatRounds, h, Step.bind_apply, Step.isolated]
    rcases noted pass current () env with ⟨_ | next, _, env⟩
    · rfl
    · cases next with
      | again pass current => exact ih pass current env
      | finish verdict =>
        simp only [Sink.conclude, map_eq_pure_bind, Step.bind_apply]
        rcases sink.handOver context acc verdict state env with ⟨_ | verdict, _, env⟩ <;> rfl

end Rounds

end Transduction
