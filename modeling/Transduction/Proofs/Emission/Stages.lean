import Transduction.Proofs.Emission.Loops

/-!
# The emissions of the stages

For every stage the emitter that its instances run, and the proof that a stage in front of a sink
does what its emitter does in front of that sink.
-/

namespace Transduction

variable {σ X ι κ κ' δ S A B C T α β : Type}

namespace Stage

/-- What an instance of a stage emits for one value, with at most `fuel` attempts of a scheduled
stage. -/
def emission (fuel : Nat) : {A B : Type} → (stage : Stage σ X A B) → Context → A →
    Emitter σ stage.State B (Verdict X Unit)
  | _, _, identity => fun _ a => .emit a
  | _, _, map f => fun _ a => do .emit (← .lift (Step.call f a))
  | _, _, filter test => fun _ a => do
    if ← .lift (Step.call test a) then .emit a else return .proceed ()
  | _, _, filterMap f => fun _ a => do
    match ← .lift (Step.call f a) with
    | some b => .emit b
    | none => return .proceed ()
  | _, _, inspect look => fun _ a => do
    .lift (Step.call look a)
    .emit a
  | _, _, constant b => fun _ _ => .emit b
  | _, _, compose first second => fun context a =>
    (first.emission fuel context a).through (second.emission fuel context)
  | _, _, take _ => fun _ a => do
    let remaining : Nat ← .lift Step.get
    match remaining with
    | 0 => return .complete ()
    | left + 1 =>
      .lift (Step.set left)
      .emit a
  | _, _, takeWhen answer test => fun _ a => do
    if (← .lift (Step.call test a)) = answer then .emit a else return .complete ()
  | _, _, skip _ => fun _ a => do
    let remaining : Nat ← .lift Step.get
    match remaining with
    | 0 => .emit a
    | left + 1 =>
      .lift (Step.set left)
      return .proceed ()
  | _, _, skipWhen answer test => fun _ a => do
    let skipping : Bool ← .lift Step.get
    if skipping then
      if (← .lift (Step.call test a)) = answer then return .proceed ()
      else
        .lift (Step.set false)
        .emit a
    else .emit a
  | _, _, fold _ f bound => fun _ a => do
    let folded ← .lift (Step.call f (← .lift Step.get, a))
    match ← .lift (bound.reach folded) with
    | .excluded => return .complete ()
    | .included =>
      .lift (Step.set folded)
      Verdict.completed <$> .emit folded
    | .inside =>
      .lift (Step.set folded)
      .emit folded
  | _, _, choice first second => fun context a => do
    match ← (first.emission fuel context a).zoom Prod.fst (fun old state => (state, old.2)) with
    | .fail _ => (second.emission fuel context a).zoom Prod.snd fun old state => (old.1, state)
    | verdict => return verdict
  | _, _, zip left right => fun context a => do
    let l ← .lift <| Step.zoom (fun state => (state.1, ())) (fun old state => (state.1, old.2))
      (left.run fuel Sink.first context none a)
    let r ← .lift <| Step.zoom (fun state => (state.2, ())) (fun old state => (old.1, state.1))
      (right.run fuel Sink.first context none a)
    match l.both r with
    | .proceed (some pair) => .emit pair
    | .proceed none => return .proceed ()
    | .complete _ => return .proceed ()
    | .fail failure => return .fail failure
    | .alternate value => return .alternate value
  | _, _, flatten outer inner => fun context a =>
    ((outer.emission fuel context a).through fun i =>
      .isolated (inner i).init ((inner i).emission fuel context ())).zoom
        (fun state => (state, ())) (fun _ state => state.1)
  | _, _, each => fun context items => emitAll context items
  | _, _, countUp => fun context n => emitCount context n 0
  | _, _, drain lift => fun context source => emitFeed lift context source.tail source.items
  | _, _, reject failure => fun _ a => do return .fail (← .lift (Step.call failure a))
  | _, _, scope inner => fun context a => do
    match ← .lift <| Step.zoom (fun state => (state, ())) (fun _ state => state.1)
      (inScope context fun nested => inner.run fuel Sink.first nested none a) with
    | .proceed (some b) => .emit b
    | .complete (some b) => .emit b
    | .proceed none => return .fail .bottom
    | .complete none => return .fail .bottom
    | .fail failure => return .fail failure
    | .alternate value => return .alternate value
  | _, _, scopeMany inner => fun context a => do
    match ← .lift <| Step.zoom (fun state => (state, ())) (fun _ state => state.1)
      (inScope context fun nested => inner.run fuel Sink.all nested #[] a) with
    | .proceed values => .emit values.toList
    | .complete values => .emit values.toList
    | .fail failure => return .fail failure
    | .alternate value => return .alternate value
  | _, _, acquire openResource disposal => fun context a => do
    match ← .lift (Step.call openResource a) with
    | .error failure => return .fail failure
    | .ok resource =>
      let handle ← .lift (Step.modifyGet Env.newHandle)
      .lift (Step.update (·.register ⟨context.registry, handle, disposal ⟨handle, resource⟩⟩))
      .emit ⟨handle, resource⟩
  | _, _, release handle? => fun context a => do
    match handle? a with
    | some handle => .lift (Step.update fun env => (env.release context.registry handle).2)
    | none => pure ()
    .emit a
  | _, _, bimap left right => fun context value =>
    match value with
    | .left l => ((left.emission fuel context l).mapValue .left).zoom Prod.fst
        fun old state => (state, old.2)
    | .right r => ((right.emission fuel context r).mapValue .right).zoom Prod.snd
        fun old state => (old.1, state)
    | .fail failure => pure (.fail failure)
  | _, _, bindRight inner => fun context value =>
    match value with
    | .right a => inner.emission fuel context a
    | .left l => .emit (.left l)
    | .fail failure => .emit (.fail failure)
  | _, _, expectRight toAlternate => fun _ value =>
    match value with
    | .right a => .emit a
    | .left l => pure (.alternate (toAlternate l))
    | .fail failure => pure (.fail failure)
  | _, _, collapse onLeft onRight => fun _ value => do
    match value with
    | .left l => .emit (← .lift (Step.call onLeft l))
    | .right r => .emit (← .lift (Step.call onRight r))
    | .fail failure => return .fail failure
  | _, _, retry inner schedule sleeper accept => fun context a => do
    let attempt := Step.isolated (inner.init, ()) (inner.run fuel Sink.last context none a)
    .deliver (← .lift <| repeatRounds (fun pass _ =>
      retryRound Sink.last context none schedule sleeper accept attempt pass)
      fuel schedule.start ())
  | _, _, foldAttempts inner schedule sleeper seed f bound => fun context a => do
    let attempt := Step.isolated (inner.init, ()) (inner.run fuel Sink.last context none a)
    .deliver (← .lift <| repeatRounds
      (foldRound Sink.last context none schedule sleeper f bound attempt)
      fuel schedule.start seed)

theorem emission_release {fuel : Nat} (handle? : A → Option Handle) (context : Context) (a : A) :
    (release handle? : Stage σ X A A).emission fuel context a = (do
      match handle? a with
      | some handle => .lift (Step.update fun env => (env.release context.registry handle).2)
      | none => pure ()
      .emit a) := rfl

/-- A stage in front of a sink does what it emits in front of that sink. -/
theorem run_eq_perform (fuel : Nat) {A B : Type} (stage : Stage σ X A B) {κ S : Type}
    (sink : Sink σ X κ S B) (context : Context) (acc : S) (a : A) :
    stage.run fuel sink context acc a =
      (stage.emission fuel context a).perform sink context acc := by
  induction stage generalizing κ S context with
  | identity => exact (Emitter.perform_emit sink context acc a).symm
  | map f =>
    refine Eq.trans ?_ (Emitter.perform_lift_bind sink context acc (Step.call f a) _).symm
    exact bind_congr fun b => (Emitter.perform_emit sink context acc b).symm
  | filter test =>
    refine Eq.trans ?_ (Emitter.perform_lift_bind sink context acc (Step.call test a) _).symm
    refine bind_congr fun holds => ?_
    cases holds with
    | true => exact (Emitter.perform_emit sink context acc a).symm
    | false => rfl
  | filterMap f =>
    refine Eq.trans ?_ (Emitter.perform_lift_bind sink context acc (Step.call f a) _).symm
    refine bind_congr fun found => ?_
    cases found with
    | some b => exact (Emitter.perform_emit sink context acc b).symm
    | none => rfl
  | inspect look =>
    refine Eq.trans ?_ (Emitter.perform_lift_bind sink context acc (Step.call look a) _).symm
    exact bind_congr fun _ => (Emitter.perform_emit sink context acc a).symm
  | constant b => exact (Emitter.perform_emit sink context acc b).symm
  | compose first second ihFirst ihSecond =>
    have hsink : second.run fuel sink = Emission.sinkInto (second.emission fuel) sink := by
      funext context acc b
      exact ihSecond sink context acc b
    funext state env
    rw [run_compose, hsink, ihFirst]
    exact (Emission.play_through sink context (second.emission fuel) _ acc state.1.2 state.2).symm
  | take count =>
    refine Eq.trans ?_ (Emitter.perform_lift_bind sink context acc Step.get _).symm
    refine bind_congr fun remaining : Nat => ?_
    cases remaining with
    | zero => rfl
    | succ left =>
      rw [Emitter.perform_lift_bind]
      exact bind_congr fun _ => (Emitter.perform_emit sink context acc a).symm
  | takeWhen answer test =>
    refine Eq.trans ?_ (Emitter.perform_lift_bind sink context acc (Step.call test a) _).symm
    refine bind_congr fun holds => ?_
    by_cases h : holds = answer
    · simp only [h, if_true]
      exact (Emitter.perform_emit sink context acc a).symm
    · simp only [h, if_false]
      rfl
  | skip count =>
    refine Eq.trans ?_ (Emitter.perform_lift_bind sink context acc Step.get _).symm
    refine bind_congr fun remaining : Nat => ?_
    cases remaining with
    | zero => exact (Emitter.perform_emit sink context acc a).symm
    | succ left => rfl
  | skipWhen answer test =>
    refine Eq.trans ?_ (Emitter.perform_lift_bind sink context acc Step.get _).symm
    refine bind_congr fun skipping : Bool => ?_
    cases skipping with
    | false => exact (Emitter.perform_emit sink context acc a).symm
    | true =>
      simp only [if_true, Emitter.perform_lift_bind]
      refine bind_congr fun holds => ?_
      by_cases h : holds = answer
      · simp only [h, if_true]
        rfl
      · simp only [h, if_false, Emitter.perform_lift_bind]
        exact bind_congr fun _ => (Emitter.perform_emit sink context acc a).symm
  | fold seed f bound =>
    refine Eq.trans ?_ (Emitter.perform_lift_bind sink context acc Step.get _).symm
    refine bind_congr fun current => ?_
    rw [Emitter.perform_lift_bind]
    refine bind_congr fun folded => ?_
    rw [Emitter.perform_lift_bind, above_reach]
    refine bind_congr fun reach => ?_
    cases reach with
    | excluded => rfl
    | included =>
      rw [Emitter.perform_lift_bind]
      exact bind_congr fun _ => (Emitter.perform_completed_emit sink context acc folded).symm
    | inside =>
      rw [Emitter.perform_lift_bind]
      exact bind_congr fun _ => (Emitter.perform_emit sink context acc folded).symm
  | choice first second ihFirst ihSecond =>
    funext state env
    refine Eq.trans ?_ (Emission.play_bind sink context
      ((first.emission fuel context a state.1.1 env).mapState fun mine => (mine, state.1.2))
      _ acc state.2).symm
    change (Step.within (Parked.holding acc) (Step.zoom _ _ (first.run fuel (relay sink) context ()
      a)) >>= fun found => settleChoice found.1 found.2 fun acc =>
        Step.zoom _ _ (second.run fuel sink context acc a)) state env = _
    simp only [ihFirst, ihSecond, Step.bind_apply, Step.within, Step.zoom, Emission.play_mapState,
      Emitter.perform]
    rcases (first.emission fuel context a state.1.1 env).play (relay sink) context ()
      (.holding acc, state.2) with ⟨_ | outcome, ⟨mine, parked, down⟩, env⟩
    · rfl
    · cases parked with
      | stopped verdict => cases outcome <;> rfl
      | holding acc =>
        cases outcome with
        | proceed | complete | alternate => rfl
        | fail failure =>
          exact (Emission.play_mapState sink context (fun other => (mine, other)) _ acc down).symm
  | zip left right =>
    refine Eq.trans ?_ (Emitter.perform_lift_bind sink context acc (_) _).symm
    refine bind_congr fun l => ?_
    rw [Emitter.perform_lift_bind]
    refine bind_congr fun r => ?_
    rcases l.both r with (_ | pair) | _ | _ | _
    · rfl
    · exact (Emitter.perform_emit sink context acc pair).symm
    all_goals rfl
  | flatten outer inner ihOuter ihInner =>
    let next : Context → _ → Emitter σ Unit _ (Verdict X Unit) := fun context i =>
      .isolated (inner i).init ((inner i).emission fuel context ())
    have hsink (context : Context) (acc : S) (i) (down : Unit × κ) (env : Env σ) :
        (Prod.fst <$> Step.within (inner i).init ((inner i).run fuel sink context acc ())) down.2
          env = ⟨(Emission.sinkInto next sink context acc i down env).result,
            (Emission.sinkInto next sink context acc i down env).state.2,
            (Emission.sinkInto next sink context acc i down env).env⟩ := by
      rw [ihInner]
      exact (Emitter.within_perform sink context acc (inner i).init _ down.2 env)
    funext state env
    refine (congrFun (congrFun (ihOuter _ context acc a) state) env).trans ?_
    refine (Emission.play_natural Prod.snd (hsink context) _ acc ((), state.2)).trans ?_
    refine Eq.trans ?_ (Emission.play_mapState sink context Prod.fst
      ((outer.emission fuel context a state.1 env).through (next context) ()) acc state.2).symm
    rw [Emission.play_through sink context next]
  | each => exact (perform_emitAll sink context a acc).symm
  | countUp => exact (perform_emitCount context sink a 0 acc).symm
  | drain lift => exact (perform_emitFeed sink context lift a.tail a.items acc).symm
  | reject failure =>
    exact (map_eq_pure_bind _ _).trans (Emitter.perform_lift_bind sink context acc
      (Step.call failure a) fun failure => pure (.fail failure)).symm
  | scope inner =>
    refine Eq.trans ?_ (Emitter.perform_lift_bind sink context acc (_) _).symm
    refine bind_congr fun outcome => ?_
    rcases outcome with (_ | b) | (_ | b) | _ | _
    · rfl
    · exact (Emitter.perform_emit sink context acc b).symm
    · rfl
    · exact (Emitter.perform_emit sink context acc b).symm
    all_goals rfl
  | scopeMany inner =>
    refine Eq.trans ?_ (Emitter.perform_lift_bind sink context acc (_) _).symm
    refine bind_congr fun outcome => ?_
    cases outcome with
    | proceed values | complete values =>
      exact (Emitter.perform_emit sink context acc values.toList).symm
    | fail | alternate => rfl
  | acquire openResource disposal =>
    refine Eq.trans ?_ (Emitter.perform_lift_bind sink context acc
      (Step.call openResource a) _).symm
    refine bind_congr fun opened => ?_
    cases opened with
    | error failure => rfl
    | ok resource =>
      rw [Emitter.perform_lift_bind]
      refine bind_congr fun handle => ?_
      rw [Emitter.perform_lift_bind]
      exact bind_congr fun _ => (Emitter.perform_emit sink context acc _).symm
  | release handle? =>
    rw [run_release, emission_release]
    cases handle? a with
    | none => exact (Emitter.perform_emit sink context acc a).symm
    | some handle =>
      refine Eq.trans ?_ (Emitter.perform_lift_bind sink context acc (Step.update _) _).symm
      exact bind_congr fun _ => (Emitter.perform_emit sink context acc a).symm
  | bimap left right ihLeft ihRight =>
    cases a with
    | left l =>
      refine Eq.trans ?_ (Emitter.perform_zoom sink context acc Prod.fst
        (fun old mine => (mine, old.2)) ((left.emission fuel context l).mapValue .left)).symm
      rw [Emitter.perform_mapValue, ← ihLeft]
      rfl
    | right r =>
      refine Eq.trans ?_ (Emitter.perform_zoom sink context acc Prod.snd
        (fun old mine => (old.1, mine)) ((right.emission fuel context r).mapValue .right)).symm
      rw [Emitter.perform_mapValue, ← ihRight]
      rfl
    | fail failure => rfl
  | bindRight inner ih =>
    cases a with
    | right b => exact ih sink context acc b
    | left l => exact (Emitter.perform_emit sink context acc _).symm
    | fail failure => exact (Emitter.perform_emit sink context acc _).symm
  | expectRight toAlternate =>
    cases a with
    | right b => exact (Emitter.perform_emit sink context acc b).symm
    | left l => rfl
    | fail failure => rfl
  | collapse onLeft onRight =>
    cases a with
    | left l =>
      refine Eq.trans ?_ (Emitter.perform_lift_bind sink context acc (Step.call onLeft l) _).symm
      exact bind_congr fun c => (Emitter.perform_emit sink context acc c).symm
    | right r =>
      refine Eq.trans ?_ (Emitter.perform_lift_bind sink context acc (Step.call onRight r) _).symm
      exact bind_congr fun c => (Emitter.perform_emit sink context acc c).symm
    | fail failure => rfl
  | retry inner schedule sleeper accept =>
    refine Eq.trans ?_ (Emitter.perform_lift_bind sink context acc _ _).symm
    refine (congrArg Sink.below (repeatRounds_eq_handOver sink context acc
      (fun pass _ => retryRound_eq_conclude sink context acc sleeper accept _ _ pass)
      fuel schedule.start ())).trans ?_
    rw [Sink.below_bind]
    exact bind_congr fun verdict => (Emitter.perform_deliver sink context acc verdict).symm
  | foldAttempts inner schedule sleeper seed f bound =>
    refine Eq.trans ?_ (Emitter.perform_lift_bind sink context acc _ _).symm
    refine (congrArg Sink.below (repeatRounds_eq_handOver sink context acc
      (foldRound_eq_conclude context acc sleeper f bound _ _)
      fuel schedule.start seed)).trans ?_
    rw [Sink.below_bind]
    exact bind_congr fun verdict => (Emitter.perform_deliver sink context acc verdict).symm

end Stage

end Transduction
