import Transduction.Proofs.Faults.Watching

/-!
# Failures surface

Without alternatives nothing in a stage swallows an incident: the verdict of a run speaks of what
all the incidents raised in it amount to. Stages that pass a verdict on pass the incident on, a
stage that goes on after a verdict goes on only after one that speaks of none, and the stage that
runs both its sides whatever comes of the first puts their incidents together.

## Main definitions

* `Stage.ChoiceFree`: the stages without alternatives.
* `Stage.incidents`: the incidents of a run.

## Main results

* `Stage.answers_watch`: the verdict of a run speaks of all its incidents.
* `Stage.faults_surface`: what the verdict of a run is, from the failures and alternates raised.
-/

namespace Transduction

variable {σ X κ S A B T : Type}

/-- A watched sink whose verdicts speak of all the incidents it raises. -/
def WatchedSink.Answers (sink : WatchedSink σ X κ S A) : Prop :=
  ∀ context acc a, (sink context acc a).Answers none Verdict.incident?

theorem Sink.answers_watched (sink : Sink σ X κ S A) : sink.watched.Answers := by
  intro context acc a state env
  rw [Option.merge_none_left, Sink.watched, Incident.summary_toList]

/-! ### Loops -/

/-- The incident that the round of a scheduled stage speaks of, if it is the last one. -/
def Continuation.incident? {schedule : Schedule} :
    Continuation schedule T (Verdict X S) → Option (Incident X)
  | finish verdict => verdict.incident?
  | again _ _ => none

namespace Watched.Answers

theorem unlessInterrupted {next : Watched σ X κ (Verdict X S)}
    (h : next.Answers none Verdict.incident?) (context : Context) :
    (unlessInterrupted context next).Answers none Verdict.incident? := by
  refine (answers_lift _).bind fun stop => ?_
  cases stop with
  | some failure => exact (answers_lift _).bind fun _ => answers_fail failure
  | none => exact h

theorem inScope {watched : Context → Watched σ X κ (Verdict X S)}
    (h : ∀ nested, (watched nested).Answers none Verdict.incident?) (context : Context) :
    (inScope context watched).Answers none Verdict.incident? :=
  (answers_lift _).bind fun nested => (h nested).ensure _

theorem repeatRounds {schedule : Schedule}
    {round : schedule.Pass → T → Watched σ X κ (Continuation schedule T (Verdict X S))}
    (h : ∀ pass current, (round pass current).Answers none Continuation.incident?) (fuel : Nat)
    (pass : schedule.Pass) (current : T) :
    (repeatRounds round fuel pass current).Answers none Verdict.incident? := by
  induction fuel generalizing pass current with
  | zero => exact fun _ _ => rfl
  | succ fuel ih =>
    refine (h pass current).bind fun next => ?_
    cases next with
    | finish result => exact answers_pure rfl
    | again pass current => exact ih pass current

theorem waitOr {schedule : Schedule} {exhausted : Watched σ X κ (Verdict X S)}
    (h : exhausted.Answers none Verdict.incident?) (sleeper : Sleeper σ) (context : Context)
    (pass : schedule.Pass) (current : T) :
    (waitOr sleeper context pass current exhausted).Answers none Continuation.incident? := by
  refine (answers_lift _).bind fun found => ?_
  rcases found with _ | ⟨delay, pass⟩
  · exact h.map fun _ => rfl
  · refine (answers_lift _).bind fun stop => ?_
    cases stop with
    | some failure => exact (answers_fail failure).map fun _ => rfl
    | none => exact answers_pure rfl

end Watched.Answers

namespace WatchedSink.Answers

open Watched (answers_lift answers_pure answers_fail)

variable {context : Context}

theorem hand {sink : WatchedSink σ X κ S A} (h : sink.Answers) (item : A) (acc : S)
    {rest : S → Watched σ X κ (Verdict X S)}
    (hrest : ∀ acc, (rest acc).Answers none Verdict.incident?) :
    (Watched.hand sink context item acc rest).Answers none Verdict.incident? := by
  refine (answers_lift _).bind fun _ => (h context acc item).bind fun verdict => ?_
  cases verdict with
  | proceed acc => exact hrest acc
  | complete | fail | alternate => exact answers_pure rfl

theorem feed {sink : WatchedSink σ X κ S A} (h : sink.Answers) (items : List A) (acc : S) :
    (Watched.feed sink context items acc).Answers none Verdict.incident? := by
  induction items generalizing acc with
  | nil => exact answers_pure rfl
  | cons item rest ih => exact (h.hand item acc ih).unlessInterrupted context

theorem feedCount {sink : WatchedSink σ X κ S Nat} (h : sink.Answers) (left next : Nat) (acc : S) :
    (Watched.feedCount sink context left next acc).Answers none Verdict.incident? := by
  induction left generalizing next acc with
  | zero => exact answers_pure rfl
  | succ left ih => exact (h.hand next acc (ih (next + 1))).unlessInterrupted context

theorem drainFeed {sink : WatchedSink σ X κ S B} (h : sink.Answers) (read : A → Except Failure B)
    (tail : Feed.Tail) (items : List A) (acc : S) :
    (Watched.drainFeed sink read context tail items acc).Answers none Verdict.incident? := by
  induction items generalizing acc with
  | nil =>
    refine Watched.Answers.unlessInterrupted ?_ context
    rcases tail with _ | reason | _
    · exact answers_pure rfl
    · exact (answers_lift _).bind fun _ => (answers_lift _).bind fun failure =>
        (answers_lift _).bind fun _ => answers_fail failure
    · exact fun _ _ => rfl
  | cons item rest ih =>
    refine Watched.Answers.unlessInterrupted ?_ context
    cases read item with
    | error failure => exact answers_fail failure
    | ok value => exact h.hand value acc ih

theorem deliver {sink : WatchedSink σ X κ S B} (h : sink.Answers) (acc : S)
    (produced : Option B) :
    (Watched.deliver sink context acc produced).Answers none Verdict.incident? := by
  cases produced with
  | some value => exact h context acc value
  | none => exact answers_pure rfl

variable {schedule : Schedule} {attempt : Watched σ X κ (Verdict X (Option B))}

theorem retryRound {sink : WatchedSink σ X κ S B} (h : sink.Answers) (acc : S)
    (sleeper : Sleeper σ) (accept : Callback σ B Bool)
    (hattempt : attempt.Answers none Verdict.incident?) (pass : schedule.Pass) :
    (Watched.retryRound sink context acc schedule sleeper accept attempt pass).Answers none
      Continuation.incident? := by
  refine (answers_lift _).bind fun _ => hattempt.bind fun outcome => ?_
  cases outcome with
  | fail | alternate => exact answers_pure rfl
  | complete produced =>
    have hdelivered : (Watched.deliver sink context acc produced).Answers none Verdict.incident? :=
      h.deliver acc produced
    exact (hdelivered.map (f := Verdict.completed) Verdict.incident?_completed).map fun _ => rfl
  | proceed produced =>
    refine (answers_lift _).bind fun accepted => ?_
    cases accepted with
    | true => exact (h.deliver acc produced).map fun _ => rfl
    | false => exact (h.deliver acc produced).waitOr sleeper context pass ()

theorem foldRound {sink : WatchedSink σ X κ S T} (h : sink.Answers) (acc : S)
    (sleeper : Sleeper σ) (f : Callback σ (T × B) T) (bound : Bound σ T)
    (hattempt : attempt.Answers none Verdict.incident?) (pass : schedule.Pass) (current : T) :
    (Watched.foldRound sink context acc schedule sleeper f bound attempt pass current).Answers none
      Continuation.incident? := by
  have hafter (isLast : Bool) (current : T) : Watched.Answers none
      (if isLast then .finish <$> Verdict.completed <$> sink context acc current
        else Watched.waitOr sleeper context pass current (sink context acc current))
      Continuation.incident? := by
    cases isLast with
    | true =>
      exact ((h context acc current).map (f := Verdict.completed)
        Verdict.incident?_completed).map fun _ => rfl
    | false => exact (h context acc current).waitOr sleeper context pass current
  refine (answers_lift _).bind fun _ => hattempt.bind fun outcome => ?_
  cases outcome with
  | fail | alternate => exact answers_pure rfl
  | proceed produced | complete produced =>
    cases produced with
    | none => exact hafter _ current
    | some value =>
      refine (answers_lift _).bind fun folded => (answers_lift _).bind fun reach => ?_
      cases reach with
      | excluded => exact (h context acc current).map fun _ => rfl
      | included => exact (h context acc folded).map fun _ => rfl
      | inside => exact hafter _ folded

end WatchedSink.Answers

/-! ### Stages -/

namespace Stage

/-- Whether a stage has no alternatives in it. -/
def ChoiceFree : {A B : Type} → Stage σ X A B → Prop
  | _, _, choice _ _ => False
  | _, _, compose first second => first.ChoiceFree ∧ second.ChoiceFree
  | _, _, zip left right => left.ChoiceFree ∧ right.ChoiceFree
  | _, _, flatten outer inner => outer.ChoiceFree ∧ ∀ i, (inner i).ChoiceFree
  | _, _, bimap left right => left.ChoiceFree ∧ right.ChoiceFree
  | _, _, scope inner => inner.ChoiceFree
  | _, _, scopeMany inner => inner.ChoiceFree
  | _, _, bindRight inner => inner.ChoiceFree
  | _, _, retry inner _ _ _ => inner.ChoiceFree
  | _, _, foldAttempts inner _ _ _ _ _ => inner.ChoiceFree
  | _, _, identity => True
  | _, _, map _ => True
  | _, _, filter _ => True
  | _, _, filterMap _ => True
  | _, _, inspect _ => True
  | _, _, constant _ => True
  | _, _, take _ => True
  | _, _, takeWhen _ _ => True
  | _, _, skip _ => True
  | _, _, skipWhen _ _ => True
  | _, _, fold _ _ _ => True
  | _, _, each => True
  | _, _, countUp => True
  | _, _, drain _ => True
  | _, _, reject _ => True
  | _, _, acquire _ _ => True
  | _, _, release _ => True
  | _, _, expectRight _ => True
  | _, _, collapse _ _ => True

open Watched (answers_lift answers_pure answers_fail answers_alternate)

/-- The verdict of a stage without alternatives speaks of all incidents raised, if the verdicts of
its sink do. -/
theorem answers_watch (fuel : Nat) {A B : Type} {stage : Stage σ X A B} (hstage : stage.ChoiceFree)
    {κ S : Type} {sink : WatchedSink σ X κ S B} (h : sink.Answers) :
    (stage.watch fuel sink).Answers := by
  induction stage generalizing κ S with
  | identity => exact fun context acc a => (h context acc a).below
  | map | inspect =>
    intro context acc a
    exact (answers_lift _).bind fun _ => (h context acc _).below
  | filter test =>
    intro context acc a
    refine (answers_lift _).bind fun holds => ?_
    cases holds with
    | true => exact (h context acc a).below
    | false => exact answers_pure rfl
  | filterMap f =>
    intro context acc a
    refine (answers_lift _).bind fun found => ?_
    cases found with
    | some b => exact (h context acc b).below
    | none => exact answers_pure rfl
  | constant b => exact fun context acc _ => (h context acc b).below
  | compose first second ihFirst ihSecond =>
    exact fun context acc a => (ihFirst hstage.1 (ihSecond hstage.2 h) context acc a).zoom _ _
  | take count =>
    intro context acc a
    refine (answers_lift _).bind fun remaining : Nat => ?_
    cases remaining with
    | zero => exact answers_pure rfl
    | succ left => exact (answers_lift _).bind fun _ => (h context acc a).below
  | takeWhen answer test =>
    intro context acc a
    refine (answers_lift _).bind fun holds => ?_
    by_cases hholds : holds = answer
    · rw [if_pos hholds]
      exact (h context acc a).below
    · rw [if_neg hholds]
      exact answers_pure rfl
  | skip count =>
    intro context acc a
    refine (answers_lift _).bind fun remaining : Nat => ?_
    cases remaining with
    | zero => exact (h context acc a).below
    | succ left => exact (answers_lift _).bind fun _ => answers_pure rfl
  | skipWhen answer test =>
    intro context acc a
    refine (answers_lift _).bind fun skipping : Bool => ?_
    cases skipping with
    | false => exact (h context acc a).below
    | true =>
      refine (answers_lift _).bind fun holds => ?_
      by_cases hholds : holds = answer
      · rw [if_pos hholds]
        exact answers_pure rfl
      · rw [if_neg hholds]
        exact (answers_lift _).bind fun _ => (h context acc a).below
  | fold seed f bound =>
    intro context acc a
    refine (answers_lift _).bind fun current => (answers_lift _).bind fun folded =>
      (answers_lift _).bind fun reach => ?_
    cases reach with
    | excluded => exact answers_pure rfl
    | included =>
      exact (answers_lift _).bind fun _ =>
        (h context acc folded).below.map Verdict.incident?_completed
    | inside => exact (answers_lift _).bind fun _ => (h context acc folded).below
  | choice => exact hstage.elim
  | zip left right ihLeft ihRight =>
    intro context acc a
    have hleft := (ihLeft hstage.1 Sink.first.answers_watched context none a)
    have hright := (ihRight hstage.2 Sink.first.answers_watched context none a)
    refine (hleft.zoom _ _).bind fun l => ((hright.zoom _ _).frame l.incident?).bind fun r => ?_
    -- Both sides have run; what has happened is what the verdict on the two speaks of.
    rw [← Verdict.incident?_both]
    rcases l.both r with (_ | pair) | _ | _ | _
    · exact answers_pure rfl
    · exact (h context acc pair).below
    all_goals exact answers_pure rfl
  | flatten outer inner ihOuter ihInner =>
    refine ihOuter hstage.1 fun context acc i => ?_
    exact ((ihInner i (hstage.2 i) h context acc ()).within _).map fun _ => rfl
  | each => exact fun context acc items => (h.feed items acc).below
  | countUp => exact fun context acc n => (h.feedCount n 0 acc).below
  | drain read => exact fun context acc source => (h.drainFeed read source.tail _ acc).below
  | reject failure =>
    intro context acc a
    exact (answers_lift _).bind fun failure => answers_fail failure
  | scope inner ih =>
    intro context acc a
    refine Watched.Answers.bind ((Watched.Answers.inScope (fun nested =>
      ih hstage Sink.first.answers_watched nested none a) context).zoom _ _) fun outcome => ?_
    rcases outcome with (_ | b) | (_ | b) | _ | _
    · exact answers_fail .bottom
    · exact (h context acc b).below
    · exact answers_fail .bottom
    · exact (h context acc b).below
    all_goals exact answers_pure rfl
  | scopeMany inner ih =>
    intro context acc a
    refine Watched.Answers.bind ((Watched.Answers.inScope (fun nested =>
      ih hstage Sink.all.answers_watched nested #[] a) context).zoom _ _) fun outcome => ?_
    cases outcome with
    | proceed values | complete values => exact (h context acc values.toList).below
    | fail | alternate => exact answers_pure rfl
  | acquire openResource disposal =>
    intro context acc a
    refine (answers_lift _).bind fun opened => ?_
    cases opened with
    | error failure => exact answers_fail failure
    | ok resource =>
      exact (answers_lift _).bind fun handle => (answers_lift _).bind fun _ =>
        (h context acc ⟨handle, resource⟩).below
  | release handle? =>
    intro context acc a
    rw [watch_release]
    cases handle? a with
    | none => exact (h context acc a).below
    | some handle => exact (answers_lift _).bind fun _ => (h context acc a).below
  | bimap left right ihLeft ihRight =>
    intro context acc value
    cases value with
    | left l =>
      have hleft := ihLeft hstage.1 fun context acc l => h context acc (.left l)
      exact (hleft context acc l).zoom _ _
    | right r =>
      have hright := ihRight hstage.2 fun context acc r => h context acc (.right r)
      exact (hright context acc r).zoom _ _
    | fail failure => exact answers_fail failure
  | bindRight inner ih =>
    intro context acc value
    cases value with
    | right a => exact ih hstage h context acc a
    | left l => exact (h context acc (.left l)).below
    | fail failure => exact (h context acc (.fail failure)).below
  | expectRight toAlternate =>
    intro context acc value
    cases value with
    | right a => exact (h context acc a).below
    | left l => exact answers_alternate (toAlternate l)
    | fail failure => exact answers_fail failure
  | collapse onLeft onRight =>
    intro context acc value
    cases value with
    | left | right => exact (answers_lift _).bind fun c => (h context acc c).below
    | fail failure => exact answers_fail failure
  | retry inner schedule sleeper accept ih =>
    intro context acc a
    have hattempt := (ih hstage Sink.last.answers_watched context none a).isolated (κ := κ)
      (inner.init, ())
    exact (Watched.Answers.repeatRounds (fun pass _ =>
      h.retryRound acc sleeper accept hattempt pass) fuel _ _).below
  | foldAttempts inner schedule sleeper seed f bound ih =>
    intro context acc a
    have hattempt := (ih hstage Sink.last.answers_watched context none a).isolated (κ := κ)
      (inner.init, ())
    exact (Watched.Answers.repeatRounds (h.foldRound acc sleeper f bound hattempt) fuel _ _).below

/-- The incidents of a run, in the order in which they are raised. -/
def incidents (fuel : Nat) (stage : Stage σ X A B) (sink : Sink σ X κ S B) (context : Context)
    (acc : S) (a : A) (state : stage.State × κ) (env : Env σ) : List (Incident X) :=
  (stage.watch fuel sink.watched context acc a).incidents state env

/-- A run of a stage without alternatives breaks off where something in it breaks off, and has a
verdict otherwise, which reports everything that was raised: the run goes on or completes only if
nothing was, it fails with all the failures raised, in their order, and without a failure it stops
on the first alternate. -/
theorem faults_surface {stage : Stage σ X A B} (h : stage.ChoiceFree) (fuel : Nat)
    (sink : Sink σ X κ S B) (context : Context) (acc : S) (a : A) (state : stage.State × κ)
    (env : Env σ) :
    let raised := stage.incidents fuel sink context acc a state env
    let result := (stage.run fuel sink context acc a state env).result
    (stage.watch fuel sink.watched context acc a).step = stage.run fuel sink context acc a ∧
    ((∃ reason, result = .error reason ∧ .halted reason ∈ raised) ∨
      ∃ verdict, result = .ok verdict ∧ verdict.Reports raised) := by
  intro raised result
  have hwatched := stage.watches_run fuel sink.watches_watched context acc a
  have hanswers := answers_watch fuel h sink.answers_watched context acc a state env
  rw [Option.merge_none_left, hwatched] at hanswers
  have hsummary : Incident.Summarizes raised (incidentOf Verdict.incident? result) :=
    hanswers ▸ Incident.summarizes_summary raised
  exact ⟨hwatched, hsummary.reports⟩

/-- Two of three sides that run one inside the other fail, and the third one stops on an alternate
value between them. -/
theorem faults_surface_nested :
    let stage : Stage Unit String (Branch String Nat) ((Nat × Nat) × Nat) :=
      zip (zip (reject (.ofFun fun _ => .message "first")) (expectRight id))
        (reject (.ofFun fun _ => .message "last"))
    let result := (stage.run 1 Sink.all ⟨.root (.ofNat 0), ⟨0⟩, none⟩ #[] (.left "aside")
      (stage.init, ()) (.start () .fresh ⟨id, 0⟩)).result
    stage.ChoiceFree ∧ ∃ failure, result = .ok (.fail failure) ∧
      failure.parts = [.message "first", .message "last"] := by
  intro stage result
  have hfree : stage.ChoiceFree := ⟨⟨trivial, trivial⟩, trivial⟩
  obtain ⟨-, ⟨_, hresult, -⟩ | ⟨verdict, hresult, hreports⟩⟩ := faults_surface hfree 1 Sink.all
    ⟨.root (.ofNat 0), ⟨0⟩, none⟩ #[] (.left "aside") (stage.init, ()) (.start () .fresh ⟨id, 0⟩)
  · cases hresult
  · obtain ⟨failure, rfl, hparts, -⟩ := hreports.fails nofun
    exact ⟨hfree, failure, hresult, hparts⟩

/-- An alternative swallows a failure. -/
example :
    let stage : Stage Unit Empty Unit Nat := choice (reject (.ofFun fun _ => .bottom)) (constant 1)
    let context : Context := ⟨.root (.ofNat 0), ⟨0⟩, none⟩
    let env : Env Unit := .start () .fresh ⟨id, 0⟩
    stage.incidents 1 Sink.all context #[] () (stage.init, ()) env = [.failed .bottom] ∧
      (stage.run 1 Sink.all context #[] () (stage.init, ()) env).result = .ok (.proceed #[1]) :=
  ⟨rfl, rfl⟩

end Stage

end Transduction
