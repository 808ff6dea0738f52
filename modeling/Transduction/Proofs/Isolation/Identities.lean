import Transduction.Stage.Run

/-!
# The identity of a context

Stages pass the identity of a context on to their sinks, and scopes make new ones from it, but no
stage acts on it. What a stage does in front of a sink that does not look at it depends on the
registry and the deadline of the context only.

## Main definitions

* `Sink.Anonymous`: sinks that do not look at the identity of a context.

## Main results

* `Stage.anonymous_run`: no stage looks at the identity of a context.
-/

namespace Transduction

variable {σ X κ S A B T : Type}

/-- Sinks that do not look at the identity of a context. -/
def Sink.Anonymous (sink : Sink σ X κ S A) : Prop :=
  ∀ context identity, sink { context with identity } = sink context

theorem Sink.anonymous_first : (first : Sink σ X Unit (Option A) A).Anonymous := fun _ _ => rfl

theorem Sink.anonymous_last : (last : Sink σ X Unit (Option A) A).Anonymous := fun _ _ => rfl

theorem Sink.anonymous_all : (all : Sink σ X Unit (Array A) A).Anonymous := fun _ _ => rfl

namespace Sink.Anonymous

variable {sink : Sink σ X κ S A}

/-! ### Sources -/

theorem feed (h : sink.Anonymous) (context : Context) (identity : Identity) (items : List A) :
    Transduction.feed sink { context with identity } items =
      Transduction.feed sink context items := by
  induction items with
  | nil => rfl
  | cons item rest ih =>
    funext acc state env
    simp only [Transduction.feed, h context identity, ih]
    rfl

theorem feedCount {sink : Sink σ X κ S Nat} (h : sink.Anonymous) (context : Context)
    (identity : Identity) (left next : Nat) :
    Transduction.feedCount sink { context with identity } left next =
      Transduction.feedCount sink context left next := by
  induction left generalizing next with
  | zero => rfl
  | succ left ih =>
    funext acc state env
    simp only [Transduction.feedCount, h context identity, ih]
    rfl

theorem drainFeed {C : Type} (h : sink.Anonymous) (lift : C → Except Failure A)
    (context : Context) (identity : Identity) (tail : Feed.Tail) (items : List C) :
    Transduction.drainFeed sink lift { context with identity } tail items =
      Transduction.drainFeed sink lift context tail items := by
  induction items with
  | nil => rfl
  | cons item rest ih =>
    funext acc state env
    simp only [Transduction.drainFeed, h context identity, ih]
    rfl

/-! ### Other parts of stages -/

theorem of_apply
    (h : ∀ context identity acc a, sink { context with identity } acc a = sink context acc a) :
    sink.Anonymous := by
  intro context identity
  funext acc a
  exact h context identity acc a

theorem apply (h : sink.Anonymous) (context : Context) (identity : Identity) (acc : S) (a : A) :
    sink { context with identity } acc a = sink context acc a :=
  congrFun (congrFun (h context identity) acc) a

/-- A call of an anonymous sink, seen from a stage in front of it. -/
theorem below {ι : Type} (h : sink.Anonymous) (context : Context) (identity : Identity) (acc : S)
    (a : A) : (Sink.below (sink { context with identity } acc a) : Step σ (ι × κ) (Verdict X S)) =
      Sink.below (sink context acc a) :=
  congrArg (fun answer => Sink.below (answer acc a)) (h context identity)

theorem comap (h : sink.Anonymous) (f : B → A) :
    Anonymous (fun context acc b => sink context acc (f b)) := by
  intro context identity
  funext acc b
  simp only [h context identity]

theorem relay (h : sink.Anonymous) : (relay sink).Anonymous := by
  intro context identity
  funext _ value
  simp only [Transduction.relay, h context identity]

theorem deliver (h : sink.Anonymous) (context : Context) (identity : Identity) (acc : S) :
    deliver sink { context with identity } acc = deliver sink context acc := by
  funext produced
  cases produced with
  | none => rfl
  | some value => exact congrFun (congrFun (h context identity) acc) value

theorem retryRound (h : sink.Anonymous) (context : Context) (identity : Identity) (acc : S)
    (schedule : Schedule) (sleeper : Sleeper σ) (accept : Callback σ A Bool) :
    Transduction.retryRound sink { context with identity } acc schedule sleeper accept =
      Transduction.retryRound sink context acc schedule sleeper accept := by
  funext attempt pass
  simp only [Transduction.retryRound, h.deliver context identity]
  rfl

theorem foldRound (h : sink.Anonymous) (context : Context) (identity : Identity) (acc : S)
    (schedule : Schedule) (sleeper : Sleeper σ) (f : Callback σ (A × B) A) (bound : Bound σ A) :
    Transduction.foldRound sink { context with identity } acc schedule sleeper f bound =
      Transduction.foldRound sink context acc schedule sleeper f bound := by
  funext attempt pass current
  simp only [Transduction.foldRound, h context identity]
  rfl

end Sink.Anonymous

/-- An anonymous sink in a scope of its own, whatever the identity of the context around it. -/
theorem Sink.Anonymous.inScope {sink : Sink σ X κ S A} (h : sink.Anonymous) (context : Context)
    (identity : Identity) (acc : S) (a : A) :
    inScope { context with identity } (fun nested => sink nested acc a) =
      inScope context fun nested => sink nested acc a := by
  funext state env
  have hnested := h (env.nestedContext context).1
    (env.nestedContext { context with identity }).1.identity
  simp only [Transduction.inScope, Step.bind_apply, Step.modifyGet, Step.ensure]
  rw [← hnested]
  rfl

/-- No stage looks at the identity of its context. -/
theorem Stage.anonymous_run (fuel : Nat) (stage : Stage σ X A B) {sink : Sink σ X κ S B}
    (h : sink.Anonymous) : (stage.run fuel sink).Anonymous := by
  induction stage generalizing κ S with (refine .of_apply fun context identity acc a => ?_)
  | identity | constant => exact h.below context identity acc _
  | map f => exact bind_congr fun b => h.below context identity acc b
  | filter test =>
    refine bind_congr fun holds => ?_
    cases holds with
    | true => exact h.below context identity acc a
    | false => rfl
  | filterMap f =>
    refine bind_congr fun found => ?_
    cases found with
    | some b => exact h.below context identity acc b
    | none => rfl
  | inspect look => exact bind_congr fun _ => h.below context identity acc a
  | compose first second ihFirst ihSecond =>
    rw [run_compose, run_compose, (ihFirst (ihSecond h)).apply context identity acc a]
  | take count =>
    refine bind_congr fun remaining : Nat => ?_
    cases remaining with
    | zero => rfl
    | succ left => exact bind_congr fun _ => h.below context identity acc a
  | takeWhen answer test =>
    refine bind_congr fun holds => ?_
    by_cases hanswer : holds = answer
    · simp only [hanswer, if_true]
      exact h.below context identity acc a
    · simp only [hanswer, if_false]
  | skip count =>
    refine bind_congr fun remaining : Nat => ?_
    cases remaining with
    | zero => exact h.below context identity acc a
    | succ left => rfl
  | skipWhen answer test =>
    refine bind_congr fun skipping : Bool => ?_
    cases skipping with
    | false => exact h.below context identity acc a
    | true =>
      refine bind_congr fun holds => ?_
      by_cases hanswer : holds = answer
      · simp only [hanswer, if_true]
      · simp only [hanswer, if_false]
        exact bind_congr fun _ => h.below context identity acc a
  | fold seed f bound =>
    refine bind_congr fun current => bind_congr fun folded => bind_congr fun reach => ?_
    cases reach with
    | excluded => rfl
    | included =>
      exact bind_congr fun _ => congrArg (Verdict.completed <$> ·)
        (h.below context identity acc folded)
    | inside => exact bind_congr fun _ => h.below context identity acc folded
  | choice first second ihFirst ihSecond =>
    -- The sinks that stages put in front of the one behind them are anonymous as well.
    have htrying := (ihFirst h.relay).apply context identity () a
    refine (congrArg (fun step => Step.within _ (Step.zoom _ _ step) >>= _) htrying).trans ?_
    refine bind_congr fun (outcome, parked) => ?_
    refine congrArg (settleChoice outcome parked) (funext fun acc => ?_)
    exact congrArg (Step.zoom _ _) ((ihSecond h).apply context identity acc a)
  | zip left right ihLeft ihRight =>
    have hleft := (ihLeft Sink.anonymous_first).apply context identity none a
    have hright := (ihRight Sink.anonymous_first).apply context identity none a
    refine (congrArg (fun step => Step.zoom _ _ step >>= _) hleft).trans ?_
    refine bind_congr fun l => ?_
    refine (congrArg (fun step => Step.zoom _ _ step >>= _) hright).trans ?_
    refine bind_congr fun r => ?_
    rcases l.both r with (_ | pair) | _ | _ | _
    · rfl
    · exact h.below context identity acc pair
    all_goals rfl
  | flatten outer inner ihOuter ihInner =>
    have hinner : Sink.Anonymous (fun context acc i => Prod.fst <$> Step.within (inner i).init
        ((inner i).run fuel sink context acc ())) := .of_apply fun context identity acc i => by
      rw [(ihInner i h).apply context identity acc ()]
    exact (ihOuter hinner).apply context identity acc a
  | each => exact congrArg (fun feeding => Sink.below (feeding acc)) (h.feed context identity a)
  | countUp =>
    exact congrArg (fun feeding => Sink.below (feeding acc)) (h.feedCount context identity a 0)
  | drain lift =>
    exact congrArg (fun feeding => Sink.below (feeding acc))
      (h.drainFeed lift context identity a.tail a.items)
  | reject failure => rfl
  | scope inner ih =>
    refine (congrArg (fun step => Step.zoom _ _ step >>= _)
      ((ih Sink.anonymous_first).inScope context identity none a)).trans ?_
    refine bind_congr fun outcome => ?_
    rcases outcome with (_ | b) | (_ | b) | _ | _
    · rfl
    · exact h.below context identity acc b
    · rfl
    · exact h.below context identity acc b
    all_goals rfl
  | scopeMany inner ih =>
    refine (congrArg (fun step => Step.zoom _ _ step >>= _)
      ((ih Sink.anonymous_all).inScope context identity #[] a)).trans ?_
    refine bind_congr fun outcome => ?_
    cases outcome with
    | proceed values | complete values => exact h.below context identity acc values.toList
    | fail | alternate => rfl
  | acquire openResource disposal =>
    refine bind_congr fun opened => ?_
    cases opened with
    | error failure => rfl
    | ok resource =>
      exact bind_congr fun handle => bind_congr fun _ => h.below context identity acc _
  | release handle? =>
    rw [run_release, run_release]
    cases handle? a with
    | none => exact h.below context identity acc a
    | some handle => exact bind_congr fun _ => h.below context identity acc a
  | bimap left right ihLeft ihRight =>
    cases a with
    | left l =>
      have hleft := (ihLeft (h.comap .left)).apply context identity acc l
      exact congrArg (Step.zoom (fun state : (left.State × right.State) × κ =>
        (state.1.1, state.2)) fun old state => ((state.1, old.1.2), state.2)) hleft
    | right r =>
      have hright := (ihRight (h.comap .right)).apply context identity acc r
      exact congrArg (Step.zoom (fun state : (left.State × right.State) × κ =>
        (state.1.2, state.2)) fun old state => ((old.1.1, state.1), state.2)) hright
    | fail failure => rfl
  | bindRight inner ih =>
    cases a with
    | right a => exact (ih h).apply context identity acc a
    | left | fail => exact h.below context identity acc _
  | expectRight toAlternate =>
    cases a with
    | right a => exact h.below context identity acc a
    | left | fail => rfl
  | collapse onLeft onRight =>
    cases a with
    | left | right => exact bind_congr fun c => h.below context identity acc c
    | fail failure => rfl
  | retry inner schedule sleeper accept ih =>
    have hattempt := (ih Sink.anonymous_last).apply context identity none a
    refine (congrArg (fun attempt => Sink.below (repeatRounds
      (fun pass _ => retryRound sink { context with identity } acc schedule sleeper accept
        (Step.isolated (inner.init, ()) attempt) pass) fuel schedule.start ())) hattempt).trans ?_
    let attempt : Step σ κ _ :=
      Step.isolated (inner.init, ()) (inner.run fuel Sink.last context none a)
    exact congrArg (fun round => Sink.below (repeatRounds
      (fun pass _ => round attempt pass) fuel schedule.start ()))
      (h.retryRound context identity acc schedule sleeper accept)
  | foldAttempts inner schedule sleeper seed f bound ih =>
    have hattempt := (ih Sink.anonymous_last).apply context identity none a
    refine (congrArg (fun attempt => Sink.below (repeatRounds
      (foldRound sink { context with identity } acc schedule sleeper f bound
        (Step.isolated (inner.init, ()) attempt)) fuel schedule.start seed)) hattempt).trans ?_
    let attempt : Step σ κ _ :=
      Step.isolated (inner.init, ()) (inner.run fuel Sink.last context none a)
    exact congrArg (fun round => Sink.below (repeatRounds
      (round attempt) fuel schedule.start seed))
      (h.foldRound context identity acc schedule sleeper f bound)

end Transduction
