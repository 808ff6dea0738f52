import Transduction.Stage.Collect

/-!
# What a run does to its surroundings

All that a run ever does to its surroundings is made of a few acts: foreign code changes the
caller's state and lets things happen, progress is noted, random numbers are drawn, a resource is
opened and registered in the registry of the run, one is released from there, and a scope does the
same with a registry of its own, which is cleaned and dropped when the scope ends. What each of
these acts preserves is preserved by every run, whatever the stage and however the run ends.

## Main definitions

* `Env.Permits`: the progress that a run may note now.
* `Env.Course`: the sequences of acts of a run in a registry.
* `Stage.Disposes`: the stages that open resources with disposals of a kind only.
* `Step.Follows`, `Sink.Follows`: steps and sinks that only do such acts.

## Main results

* `Stage.follows_run`: a stage in front of a sink that only does such acts does only such acts.
-/

namespace Transduction

variable {σ X ι κ S A B T α β : Type}

/-- Whether a run may note its progress by an event now. As soon as it is cancelled it hands over
no more items and begins no more waits, and if it stops, it stops for its cancellation. -/
def Env.Permits (env : Env σ) : Event → Prop
  | .attempted => True
  | .handed => env.token.reason = none
  | .waited _ => env.token.reason = none
  | .stopped failure => failure = env.token.reason.elim .deadlineExceeded .cancelled
  | .registered _ _ => False
  | .disposed _ _ => False
  | .cancelled _ => False

theorem Env.permits_stopped {env : Env σ} {context : Context} {failure : Failure}
    (h : env.interruption? context = some failure) : env.Permits (.stopped failure) := by
  cases hreason : env.token.reason with
  | some reason =>
    rw [interruption?_of_cancelled hreason] at h
    rw [Permits, hreason]
    exact (Option.some.inj h).symm
  | none =>
    rw [interruption?, hreason] at h
    rw [Permits, hreason]
    exact (Option.some.inj (Option.ite_none_right_eq_some.1 h).2).symm

/-- A run that was told to stop stops for the first reason that was given. -/
theorem Env.permits_stopped_cancel (env : Env σ) (reason : String) (context : Context) :
    (env.cancel reason).Permits (.stopped ((env.cancel reason).interruption context)) := by
  have hcancelled : (env.cancel reason).token.reason = some (env.token.reason.getD reason) := by
    rw [token_cancel, Token.reason_cancel]
  rw [Permits, interruption_of_cancelled hcancelled, hcancelled]
  rfl

/-- The surroundings before and after some acts of a run in a registry, which opens resources with
allowed disposals only. -/
inductive Env.Course (allowed : Disposal σ → Prop) : RegistryId → Env σ → Env σ → Prop
  | nothing {registry} (env) : Course allowed registry env env
  | next {registry before between after} (first : Course allowed registry before between)
      (second : Course allowed registry between after) : Course allowed registry before after
  | react {registry} (env : Env σ) (user : σ) (happenings : List Happening) :
      Course allowed registry env (({ env with user } : Env σ).happenAll happenings)
  | cancel {registry} (env : Env σ) (reason : String) :
      Course allowed registry env (env.cancel reason)
  | note {registry} (env : Env σ) {event : Event} (h : env.Permits event) :
      Course allowed registry env (env.record event)
  | draw {registry} (env : Env σ) (dice : Dice) : Course allowed registry env { env with dice }
  | acquire {registry} (env : Env σ) {disposal : Disposal σ} (h : allowed disposal) :
      Course allowed registry env (env.newHandle.2.register ⟨registry, env.newHandle.1, disposal⟩)
  | release {registry} (env : Env σ) (handle : Handle) :
      Course allowed registry env (env.release registry handle).2
  | scope (env : Env σ) (context : Context) {after : Env σ}
      (h : Course allowed (env.nestedContext context).1.registry
        (env.nestedContext context).2 after) :
      Course allowed context.registry env
        ((after.clean (env.nestedContext context).1.registry).2.dropRegistry
          (env.nestedContext context).1.registry)

/-- Whether all resources that a stage opens have allowed disposals. -/
def Stage.Disposes (allowed : Disposal σ → Prop) : {A B : Type} → Stage σ X A B → Prop
  | _, _, acquire _ disposal => ∀ shared, allowed (disposal shared)
  | _, _, compose first second => first.Disposes allowed ∧ second.Disposes allowed
  | _, _, choice first second => first.Disposes allowed ∧ second.Disposes allowed
  | _, _, zip left right => left.Disposes allowed ∧ right.Disposes allowed
  | _, _, flatten outer inner => outer.Disposes allowed ∧ ∀ i, (inner i).Disposes allowed
  | _, _, bimap left right => left.Disposes allowed ∧ right.Disposes allowed
  | _, _, scope inner => inner.Disposes allowed
  | _, _, scopeMany inner => inner.Disposes allowed
  | _, _, bindRight inner => inner.Disposes allowed
  | _, _, retry inner _ _ _ => inner.Disposes allowed
  | _, _, foldAttempts inner _ _ _ _ _ => inner.Disposes allowed
  | _, _, identity => True
  | _, _, map _ => True
  | _, _, filter _ => True
  | _, _, filterMap _ => True
  | _, _, inspect _ => True
  | _, _, constant _ => True
  | _, _, take _ => True
  | _, _, takeWhen _ _ => True
  | _, _, skip _ => True
  | _, _, skipWhen _ _ => True
  | _, _, fold _ _ _ => True
  | _, _, each => True
  | _, _, countUp => True
  | _, _, drain _ => True
  | _, _, reject _ => True
  | _, _, release _ => True
  | _, _, expectRight _ => True
  | _, _, collapse _ _ => True

/-- Any stage opens resources with some disposals. -/
theorem Stage.disposes_true {A B : Type} (stage : Stage σ X A B) :
    stage.Disposes fun _ => True := by
  induction stage with
  | compose _ _ ihFirst ihSecond | choice _ _ ihFirst ihSecond | zip _ _ ihFirst ihSecond
  | flatten _ _ ihFirst ihSecond | bimap _ _ ihFirst ihSecond => exact ⟨ihFirst, ihSecond⟩
  | scope _ ih | scopeMany _ ih | bindRight _ ih | retry _ _ _ _ ih
  | foldAttempts _ _ _ _ _ _ ih => exact ih
  | acquire => exact fun _ => trivial
  | _ => trivial

/-- A step that, however it ends, has only done acts of a run in a registry. -/
def Step.Follows (allowed : Disposal σ → Prop) (registry : RegistryId) (step : Step σ κ α) : Prop :=
  ∀ state env, Env.Course allowed registry env (step state env).env

/-- A sink that only does acts of a run in the registry of the context it is given. -/
def Sink.Follows (allowed : Disposal σ → Prop) (sink : Sink σ X κ S A) : Prop :=
  ∀ context acc a, (sink context acc a).Follows allowed context.registry

variable {allowed : Disposal σ → Prop} {registry : RegistryId} {context : Context}

/-! ### Steps -/

namespace Step

/-- A step that leaves the surroundings as they are. -/
theorem follows_of_env_eq {step : Step σ κ α} (h : ∀ state env, (step state env).env = env) :
    step.Follows allowed registry := by
  intro state env
  rw [h]
  exact .nothing env

theorem follows_pure (a : α) : (pure a : Step σ κ α).Follows allowed registry :=
  follows_of_env_eq fun _ _ => rfl

theorem follows_call (callback : Callback σ α β) (a : α) :
    (call callback a : Step σ κ β).Follows allowed registry := fun _ env =>
  .react env (callback a env.user).user (callback a env.user).happenings

theorem follows_attempted :
    (update (·.record .attempted) : Step σ κ Unit).Follows allowed registry := fun _ env =>
  .note env trivial

namespace Follows

theorem bind {first : Step σ κ α} {next : α → Step σ κ β} (hfirst : first.Follows allowed registry)
    (hnext : ∀ a, (next a).Follows allowed registry) :
    (first >>= next).Follows allowed registry := by
  intro state env
  have hcourse := hfirst state env
  rw [bind_apply]
  generalize first state env = ended at hcourse ⊢
  rcases ended with ⟨_ | a, state', env'⟩
  · exact hcourse
  · exact hcourse.next (hnext a state' env')

theorem map {step : Step σ κ α} (h : step.Follows allowed registry) (f : α → β) :
    (f <$> step).Follows allowed registry := by
  rw [map_eq_pure_bind]
  exact h.bind fun a => follows_pure (f a)

theorem zoom {step : Step σ ι α} (h : step.Follows allowed registry) (view : κ → ι)
    (replace : κ → ι → κ) : (step.zoom view replace).Follows allowed registry :=
  fun state env => h (view state) env

theorem within {step : Step σ (ι × κ) α} (h : step.Follows allowed registry) (inner : ι) :
    (step.within inner).Follows allowed registry := fun state env => h (inner, state) env

theorem isolated {step : Step σ ι α} (h : step.Follows allowed registry) (inner : ι) :
    (step.isolated inner : Step σ κ α).Follows allowed registry := fun _ env => h inner env

theorem below {step : Step σ κ α} (h : step.Follows allowed registry) :
    (Sink.below step : Step σ (ι × κ) α).Follows allowed registry := h.zoom _ _

/-- Opening a resource and registering it is one act. -/
theorem acquire {disposal : Handle → Disposal σ} (h : ∀ handle, allowed (disposal handle))
    {next : Handle → Step σ κ α} (hnext : ∀ handle, (next handle).Follows allowed registry) :
    (do
      let handle ← modifyGet Env.newHandle
      update (·.register ⟨registry, handle, disposal handle⟩)
      next handle : Step σ κ α).Follows allowed registry := fun state env =>
  Env.Course.next (.acquire env (h env.newHandle.1)) (hnext env.newHandle.1 state _)

/-- A step in a scope of its own is one act of the run around it. -/
theorem inScope {step : Context → Step σ κ α}
    (h : ∀ nested : Context, (step nested).Follows allowed nested.registry) :
    (inScope context step).Follows allowed context.registry := fun state env =>
  .scope env context (h (env.nestedContext context).1 state (env.nestedContext context).2)

end Follows

end Step

/-! ### Sources -/

/-- Unless there is a reason to stop, a run is not cancelled and goes on. -/
theorem Step.follows_unlessInterrupted {next : Step σ κ (Verdict X S)}
    (h : ∀ state env, env.token.reason = none →
      Env.Course allowed registry env (next state env).env) :
    Step.Follows allowed registry fun state env =>
      match env.interruption? context with
      | some failure => ⟨.ok (.fail failure), state, env.record (.stopped failure)⟩
      | none => next state env := by
  intro state env
  simp only
  cases hstop : env.interruption? context with
  | some failure => exact .note env (Env.permits_stopped hstop)
  | none => exact h state env (Env.not_cancelled_of_interruption? hstop)

namespace Sink.Follows

/-- Handing an item to a sink, and going on with the rest if the sink asks for more. -/
theorem hand {sink : Sink σ X κ S A} (h : sink.Follows allowed) (item : A) (acc : S)
    {rest : S → Step σ κ (Verdict X S)}
    (hrest : ∀ acc, (rest acc).Follows allowed context.registry) (state : κ) (env : Env σ)
    (hgo : env.token.reason = none) :
    Env.Course allowed context.registry env
      (match sink context acc item state (env.record .handed) with
      | ⟨.ok (.proceed acc), state, env⟩ => rest acc state env
      | ended => ended).env := by
  have hpermitted : env.Permits .handed := hgo
  have hhanded := Env.Course.next (.note env hpermitted)
    (h context acc item state (env.record .handed))
  generalize sink context acc item state (env.record .handed) = ended at hhanded ⊢
  rcases ended with ⟨_ | verdict, state', env'⟩
  · exact hhanded
  · cases verdict with
    | proceed acc => exact hhanded.next (hrest acc state' env')
    | complete | fail | alternate => exact hhanded

theorem feed {sink : Sink σ X κ S A} (h : sink.Follows allowed) (items : List A) (acc : S) :
    Step.Follows allowed context.registry (feed sink context items acc) := by
  induction items generalizing acc with
  | nil => exact Step.follows_pure (Verdict.proceed acc)
  | cons item rest ih => exact Step.follows_unlessInterrupted (h.hand item acc ih)

theorem feedCount {sink : Sink σ X κ S Nat} (h : sink.Follows allowed) (left next : Nat)
    (acc : S) : Step.Follows allowed context.registry (feedCount sink context left next acc) := by
  induction left generalizing next acc with
  | zero => exact Step.follows_pure (Verdict.proceed acc)
  | succ left ih => exact Step.follows_unlessInterrupted (h.hand next acc (ih (next + 1)))

theorem drainFeed {sink : Sink σ X κ S B} (h : sink.Follows allowed) (lift : A → Except Failure B)
    (tail : Feed.Tail) (items : List A) (acc : S) :
    Step.Follows allowed context.registry (drainFeed sink lift context tail items acc) := by
  induction items generalizing acc with
  | nil =>
    refine Step.follows_unlessInterrupted ?_
    intro state env hgo
    rcases tail with _ | reason | _
    · exact .nothing env
    · exact .next (.cancel env reason) (.note _ (Env.permits_stopped_cancel env reason context))
    · exact .nothing env
  | cons item rest ih =>
    refine Step.follows_unlessInterrupted ?_
    intro state env hgo
    cases hread : lift item with
    | error failure => exact .nothing env
    | ok value => exact h.hand value acc ih state env hgo

end Sink.Follows

/-! ### Scheduled stages -/

namespace Step

theorem follows_reach (bound : Bound σ T) (folded : T) :
    (bound.reach folded : Step σ κ Reach).Follows allowed registry := by
  cases bound with
  | unbounded => exact follows_pure _
  | untilHolds test | whileHolds test => exact (follows_call test folded).map _

/-- A run begins to wait only as long as it is not cancelled. -/
theorem course_waitOut (sleeper : Sleeper σ) (delay : Duration) (state : κ) {env : Env σ}
    (hgo : env.token.reason = none) :
    Env.Course allowed registry env (waitOut sleeper context delay state env).env := by
  have hpermitted : env.Permits (.waited delay) := hgo
  refine .next (.note env hpermitted) ((follows_call sleeper delay).bind ?_ state _)
  intro rest
  cases rest with
  | elapsed => exact follows_pure _
  | interrupted reason =>
    intro state env
    exact .next (.cancel env reason) (.note _ (Env.permits_stopped_cancel env reason context))
  | never => exact follows_of_env_eq fun _ _ => rfl

theorem follows_pause (sleeper : Sleeper σ) (delay : Duration) :
    (pause sleeper context delay : Step σ κ (Option Failure)).Follows allowed registry := by
  intro state env
  cases hstop : env.interruption? context with
  | some failure =>
    rw [pause_of_interrupted hstop]
    exact .note env (Env.permits_stopped hstop)
  | none =>
    have hgo : env.token.reason = none := Env.not_cancelled_of_interruption? hstop
    simp only [pause, bind_apply, ask, hstop]
    by_cases hoverrun : env.wouldOverrun context delay = true
    · rw [if_pos hoverrun]
      have hpermitted : env.Permits (.stopped .deadlineExceeded) := by
        rw [Env.Permits, hgo]
        rfl
      exact .note env hpermitted
    · rw [if_neg hoverrun]
      exact course_waitOut sleeper delay state hgo

theorem Follows.waitOr {schedule : Schedule} {exhausted : Step σ κ (Verdict X S)}
    (h : exhausted.Follows allowed registry) (sleeper : Sleeper σ) (pass : schedule.Pass)
    (current : T) :
    (waitOr sleeper context pass current exhausted).Follows allowed registry := by
  refine Follows.bind (fun _ env => .draw env _) fun found => ?_
  rcases found with _ | ⟨delay, pass⟩
  · exact h.map _
  · refine (follows_pause sleeper delay).bind fun stop => ?_
    cases stop <;> exact follows_pure _

theorem Follows.repeatRounds {schedule : Schedule}
    {round : schedule.Pass → T → Step σ κ (Continuation schedule T α)}
    (h : ∀ pass current, (round pass current).Follows allowed registry) (fuel : Nat)
    (pass : schedule.Pass) (current : T) :
    Step.Follows allowed registry (repeatRounds round fuel pass current) := by
  induction fuel generalizing pass current with
  | zero => exact follows_of_env_eq fun _ _ => rfl
  | succ fuel ih =>
    intro state env
    have hround := h pass current state env
    simp only [Transduction.repeatRounds]
    generalize round pass current state env = ended at hround ⊢
    rcases ended with ⟨_ | continuation, state', env'⟩
    · exact hround
    · cases continuation with
      | finish result => exact hround
      | again pass current => exact hround.next (ih pass current state' env')

end Step

namespace Sink.Follows

theorem deliver {sink : Sink σ X κ S B} (h : sink.Follows allowed) (acc : S) (produced : Option B) :
    (deliver sink context acc produced).Follows allowed context.registry := by
  cases produced with
  | some value => exact h context acc value
  | none => exact Step.follows_pure _

theorem retryRound {sink : Sink σ X κ S B} (h : sink.Follows allowed) (acc : S)
    {schedule : Schedule} (sleeper : Sleeper σ) (accept : Callback σ B Bool)
    {attempt : Step σ κ (Verdict X (Option B))}
    (hattempt : attempt.Follows allowed context.registry) (pass : schedule.Pass) :
    (retryRound sink context acc schedule sleeper accept attempt pass).Follows allowed
      context.registry := by
  refine Step.follows_attempted.bind fun _ => hattempt.bind fun outcome => ?_
  cases outcome with
  | fail | alternate => exact Step.follows_pure _
  | complete produced => exact ((h.deliver acc produced).map _).map _
  | proceed produced =>
    have haccept : (isAccepted accept produced : Step σ κ Bool).Follows allowed
        context.registry := by
      cases produced with
      | some value => exact Step.follows_call accept value
      | none => exact Step.follows_pure _
    refine haccept.bind fun accepted => ?_
    cases accepted with
    | true => exact (h.deliver acc produced).map _
    | false => exact (h.deliver acc produced).waitOr sleeper pass ()

theorem foldRound {sink : Sink σ X κ S T} (h : sink.Follows allowed) (acc : S)
    {schedule : Schedule} (sleeper : Sleeper σ) (f : Callback σ (T × B) T) (bound : Bound σ T)
    {attempt : Step σ κ (Verdict X (Option B))}
    (hattempt : attempt.Follows allowed context.registry) (pass : schedule.Pass) (current : T) :
    (foldRound sink context acc schedule sleeper f bound attempt pass current).Follows allowed
      context.registry := by
  have hafter (isLast : Bool) (current : T) : Step.Follows allowed context.registry
      (if isLast then .finish <$> Verdict.completed <$> sink context acc current
        else waitOr sleeper context pass current (sink context acc current)) := by
    cases isLast with
    | true => exact ((h context acc current).map _).map _
    | false => exact (h context acc current).waitOr sleeper pass current
  refine Step.follows_attempted.bind fun _ => hattempt.bind fun outcome => ?_
  cases outcome with
  | fail | alternate => exact Step.follows_pure _
  | proceed produced | complete produced =>
    cases produced with
    | none => exact hafter _ current
    | some value =>
      refine (Step.follows_call f (current, value)).bind fun folded =>
        (Step.follows_reach bound folded).bind fun reach => ?_
      cases reach with
      | excluded => exact (h context acc current).map _
      | included => exact (h context acc folded).map _
      | inside => exact hafter _ folded

end Sink.Follows

/-! ### Stages -/

theorem Sink.follows_own : (Sink.own : Step σ (ι × κ) ι).Follows allowed registry :=
  Step.follows_of_env_eq fun _ _ => rfl

theorem Sink.follows_setOwn (mine : ι) :
    (Sink.setOwn mine : Step σ (ι × κ) Unit).Follows allowed registry :=
  Step.follows_of_env_eq fun _ _ => rfl

/-- The sink of the first of two alternatives acts as the common sink does. -/
theorem Sink.Follows.relay {sink : Sink σ X κ S B} (h : sink.Follows allowed) :
    (relay sink).Follows allowed := by
  intro context acc value
  refine Sink.follows_own.bind fun parked => ?_
  cases parked with
  | stopped verdict => exact Step.follows_pure _
  | holding acc =>
    refine (h context acc value).below.bind fun verdict => ?_
    cases verdict <;> exact (Sink.follows_setOwn _).bind fun _ => Step.follows_pure _

theorem Sink.follows_first : (Sink.first : Sink σ X Unit (Option A) A).Follows allowed :=
  fun _ _ value => Step.follows_pure (Verdict.complete (some value))

theorem Sink.follows_last : (Sink.last : Sink σ X Unit (Option A) A).Follows allowed :=
  fun _ _ value => Step.follows_pure (Verdict.proceed (some value))

theorem Sink.follows_all : (Sink.all : Sink σ X Unit (Array A) A).Follows allowed :=
  fun _ values value => Step.follows_pure (Verdict.proceed (values.push value))

/-- A stage whose resources have allowed disposals only does acts of a run, if its sink does. -/
theorem Stage.follows_run (fuel : Nat) {A B : Type} (stage : Stage σ X A B)
    (hstage : stage.Disposes allowed) {κ S : Type} {sink : Sink σ X κ S B}
    (hsink : sink.Follows allowed) : (stage.run fuel sink).Follows allowed := by
  induction stage generalizing κ S with
  | identity => exact fun context acc a => (hsink context acc a).below
  | map f =>
    intro context acc a
    exact (Step.follows_call f a).bind fun b => (hsink context acc b).below
  | filter test =>
    intro context acc a
    refine (Step.follows_call test a).bind fun holds => ?_
    cases holds with
    | true => exact (hsink context acc a).below
    | false => exact Step.follows_pure _
  | filterMap f =>
    intro context acc a
    refine (Step.follows_call f a).bind fun found => ?_
    cases found with
    | some b => exact (hsink context acc b).below
    | none => exact Step.follows_pure _
  | inspect look =>
    intro context acc a
    exact (Step.follows_call look a).bind fun _ => (hsink context acc a).below
  | constant b => exact fun context acc _ => (hsink context acc b).below
  | compose first second ihFirst ihSecond =>
    intro context acc a
    exact (ihFirst hstage.1 (ihSecond hstage.2 hsink) context acc a).zoom _ _
  | take count =>
    intro context acc a
    refine Sink.follows_own.bind fun remaining : Nat => ?_
    cases remaining with
    | zero => exact Step.follows_pure _
    | succ left =>
      exact (Sink.follows_setOwn _).bind fun _ => (hsink context acc a).below
  | takeWhen answer test =>
    intro context acc a
    refine (Step.follows_call test a).bind fun holds => ?_
    by_cases h : holds = answer
    · rw [if_pos h]
      exact (hsink context acc a).below
    · rw [if_neg h]
      exact Step.follows_pure _
  | skip count =>
    intro context acc a
    refine Sink.follows_own.bind fun remaining : Nat => ?_
    cases remaining with
    | zero => exact (hsink context acc a).below
    | succ left =>
      exact (Sink.follows_setOwn _).bind fun _ => Step.follows_pure _
  | skipWhen answer test =>
    intro context acc a
    refine Sink.follows_own.bind fun skipping : Bool => ?_
    cases skipping with
    | false => exact (hsink context acc a).below
    | true =>
      refine (Step.follows_call test a).bind fun holds => ?_
      by_cases h : holds = answer
      · rw [if_pos h]
        exact Step.follows_pure _
      · rw [if_neg h]
        exact (Sink.follows_setOwn _).bind fun _ => (hsink context acc a).below
  | fold seed f bound =>
    intro context acc a
    refine Sink.follows_own.bind fun current =>
      (Step.follows_call f _).bind fun folded => (Step.follows_reach bound folded).bind ?_
    intro reach
    cases reach with
    | excluded => exact Step.follows_pure _
    | included =>
      exact (Sink.follows_setOwn _).bind fun _ =>
        (hsink context acc folded).below.map _
    | inside =>
      exact (Sink.follows_setOwn _).bind fun _ => (hsink context acc folded).below
  | choice first second ihFirst ihSecond =>
    intro context acc a
    refine (((ihFirst hstage.1 hsink.relay context () a).zoom _ _).within _).bind ?_
    rintro ⟨outcome, parked⟩
    cases parked with
    | stopped verdict => exact Step.follows_pure verdict
    | holding acc =>
      cases outcome with
      | proceed | complete | alternate => exact Step.follows_pure _
      | fail failure => exact (ihSecond hstage.2 hsink context acc a).zoom _ _
  | zip left right ihLeft ihRight =>
    intro context acc a
    refine ((ihLeft hstage.1 Sink.follows_first context none a).zoom _ _).bind fun l =>
      ((ihRight hstage.2 Sink.follows_first context none a).zoom _ _).bind fun r => ?_
    rcases l.both r with (_ | pair) | _ | _ | _
    · exact Step.follows_pure _
    · exact (hsink context acc pair).below
    all_goals exact Step.follows_pure _
  | flatten outer inner ihOuter ihInner =>
    refine ihOuter hstage.1 ?_
    intro context acc i
    exact ((ihInner i (hstage.2 i) hsink context acc ()).within _).map _
  | each => exact fun context acc items => (hsink.feed items acc).below
  | countUp => exact fun context acc n => (hsink.feedCount n 0 acc).below
  | drain lift => exact fun context acc source => (hsink.drainFeed lift source.tail _ acc).below
  | reject failure => exact fun context acc a => (Step.follows_call failure a).map _
  | scope inner ih =>
    intro context acc a
    refine Step.Follows.bind ((Step.Follows.inScope fun nested =>
      ih hstage Sink.follows_first nested none a).zoom _ _) fun outcome => ?_
    rcases outcome with (_ | b) | (_ | b) | _ | _
    · exact Step.follows_pure _
    · exact (hsink context acc b).below
    · exact Step.follows_pure _
    · exact (hsink context acc b).below
    all_goals exact Step.follows_pure _
  | scopeMany inner ih =>
    intro context acc a
    refine Step.Follows.bind ((Step.Follows.inScope fun nested =>
      ih hstage Sink.follows_all nested #[] a).zoom _ _) fun outcome => ?_
    cases outcome with
    | proceed values | complete values => exact (hsink context acc values.toList).below
    | fail | alternate => exact Step.follows_pure _
  | acquire openResource disposal =>
    intro context acc a
    refine (Step.follows_call openResource a).bind fun opened => ?_
    cases opened with
    | error failure => exact Step.follows_pure _
    | ok resource =>
      exact Step.Follows.acquire (fun handle => hstage ⟨handle, resource⟩) fun handle =>
        (hsink context acc ⟨handle, resource⟩).below
  | release handle? =>
    intro context acc a
    rw [run_release]
    cases handle? a with
    | none => exact (hsink context acc a).below
    | some handle =>
      exact Step.Follows.bind (fun _ env => .release env handle) fun _ =>
        (hsink context acc a).below
  | bimap left right ihLeft ihRight =>
    intro context acc value
    cases value with
    | left l =>
      have hleft := ihLeft hstage.1 fun context acc l => hsink context acc (.left l)
      exact (hleft context acc l).zoom _ _
    | right r =>
      have hright := ihRight hstage.2 fun context acc r => hsink context acc (.right r)
      exact (hright context acc r).zoom _ _
    | fail failure => exact Step.follows_pure _
  | bindRight inner ih =>
    intro context acc value
    cases value with
    | right a => exact ih hstage hsink context acc a
    | left l => exact (hsink context acc (.left l)).below
    | fail failure => exact (hsink context acc (.fail failure)).below
  | expectRight toAlternate =>
    intro context acc value
    cases value with
    | right a => exact (hsink context acc a).below
    | left | fail => exact Step.follows_pure _
  | collapse onLeft onRight =>
    intro context acc value
    cases value with
    | left l => exact (Step.follows_call onLeft l).bind fun c => (hsink context acc c).below
    | right r => exact (Step.follows_call onRight r).bind fun c => (hsink context acc c).below
    | fail failure => exact Step.follows_pure _
  | retry inner schedule sleeper accept ih =>
    intro context acc a
    have hattempt := (ih hstage Sink.follows_last context none a).isolated (inner.init, ()) (κ := κ)
    exact (Step.Follows.repeatRounds (fun pass _ =>
      hsink.retryRound acc sleeper accept hattempt pass) fuel schedule.start ()).below
  | foldAttempts inner schedule sleeper seed f bound ih =>
    intro context acc a
    have hattempt := (ih hstage Sink.follows_last context none a).isolated (inner.init, ()) (κ := κ)
    exact (Step.Follows.repeatRounds (hsink.foldRound acc sleeper f bound hattempt) fuel
      schedule.start seed).below

end Transduction
