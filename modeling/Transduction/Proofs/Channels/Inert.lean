import Transduction.Proofs.Channels.Matching

/-!
# Stages that match

A stage whose callbacks are inert, and which opens and releases no resources, runs alike in all
surroundings that are near each other, in front of any two sinks that match. What remains of the
surroundings is chance: a stage that waits between its attempts draws its delays. It runs alike if
the dice do not decide how many delays there are, and the sleeper does not tell the delays apart.

## Main definitions

* `Schedule.Keeps`, `Schedule.Steady`: passes that stay together whatever the dice show.
* `Sleeper.Inert`: sleepers that do not tell such delays apart.
* `Stage.Inert`: stages all of whose parts are inert.

## Main results

* `Step.Matches.repeatRounds`: rounds of scheduled stages.
* `Stage.matches_run`: inert stages match in front of sinks that match.
-/

namespace Transduction

variable {σ X ι ι' κ κ' S S' A B T T' α α' : Type} {ground : Ground} {context context' : Context}
  {P : κ → κ' → Prop} {R : S → S' → Prop}

/-! ### Alternatives and scopes -/

/-- The parked accumulators of two runs: both are held, or both are used up by verdicts that
correspond. -/
inductive Parked.Corresponds (R : S → S' → Prop) : Parked X S → Parked X S' → Prop
  | holding {acc acc'} (h : R acc acc') : Corresponds R (.holding acc) (.holding acc')
  | stopped {verdict verdict'} (h : Verdict.Corresponds R verdict verdict') :
      Corresponds R (.stopped verdict) (.stopped verdict')

/-- The sinks of the first of two alternatives match if the common sinks do. -/
theorem Sink.Matches.relay {sink : Sink σ X κ S B} {sink' : Sink σ X κ' S' B}
    (h : sink.Matches ground P R sink') :
    (relay sink).Matches ground (Beside (Parked.Corresponds R) P) Eq (relay sink') := by
  intro context context' _ _ value hcontext hcontext' _
  have hstop {verdict : Verdict X S} {verdict' : Verdict X S'}
      (hverdict : Verdict.Corresponds R verdict verdict') :
      Step.Matches ground (Beside (Parked.Corresponds R) P) (Verdict.Corresponds Eq)
        (Sink.setOwn (.stopped verdict) >>= fun _ => pure (.complete ()) :
          Step σ (Parked X S × κ) (Verdict X Unit))
        (Sink.setOwn (.stopped verdict') >>= fun _ => pure (.complete ()) :
          Step σ (Parked X S' × κ') (Verdict X Unit)) :=
    (Step.matches_setOwn (.stopped hverdict)).bind fun _ _ _ => Step.matches_pure (.complete rfl)
  refine Step.matches_own.bind fun parked parked' hparked => ?_
  cases hparked with
  | stopped hverdict => exact Step.matches_pure (.complete rfl)
  | holding hacc =>
    refine (h context context' _ _ value hcontext hcontext' hacc).below.bind ?_
    intro verdict verdict' hverdict
    cases hverdict with
    | proceed hacc =>
      exact (Step.matches_setOwn (.holding hacc)).bind fun _ _ _ => Step.matches_pure (.proceed rfl)
    | complete hacc => exact hstop (.complete hacc)
    | fail failure => exact hstop (.fail failure)
    | alternate value => exact hstop (.alternate value)

namespace Step

theorem matches_settleChoice (outcome : Verdict X Unit) {parked : Parked X S}
    {parked' : Parked X S'} (hparked : Parked.Corresponds R parked parked')
    {second : S → Step σ κ (Verdict X S)} {second' : S' → Step σ κ' (Verdict X S')}
    (hsecond : ∀ acc acc', R acc acc' →
      (second acc).Matches ground P (Verdict.Corresponds R) (second' acc')) :
    (settleChoice outcome parked second).Matches ground P (Verdict.Corresponds R)
      (settleChoice outcome parked' second') := by
  cases hparked with
  | stopped hverdict => exact matches_pure hverdict
  | holding hacc =>
    cases outcome with
    | proceed => exact matches_pure (.proceed hacc)
    | complete => exact matches_pure (.complete hacc)
    | fail failure => exact hsecond _ _ hacc
    | alternate value => exact matches_pure (.alternate value)

/-- Nothing is registered in the registry of a scope, so closing the scope is not noticed. -/
theorem matches_inScope {Q : α → α' → Prop} {step : Context → Step σ κ α}
    {step' : Context → Step σ κ' α'} (hcontext : context.deadline = ground.deadline)
    (hcontext' : context'.deadline = ground.deadline)
    (h : ∀ nested nested' : Context, nested.deadline = ground.deadline →
      nested'.deadline = ground.deadline → (step nested).Matches ground P Q (step' nested')) :
    (inScope context step).Matches ground P Q (inScope context' step') := by
  intro state state' env env' hstate henv
  have hopen (env : Env σ) (hstands : env.Stands ground) (context : Context) :
      (env.nestedContext context).2.Stands ground :=
    hstands.of_eq rfl rfl (Nat.le_succ _)
  have hnested := henv.of_stands (hopen env henv.left context) (hopen env' henv.right context')
    rfl rfl
  have hended := h (env.nestedContext context).1 (env'.nestedContext context').1 hcontext hcontext'
    state state' _ _ hstate hnested
  have hfloor : ground.floor ≤ (env.nestedContext context).1.registry.index := henv.left.opened
  have hfloor' : ground.floor ≤ (env'.nestedContext context').1.registry.index :=
    henv.right.opened
  simp only [inScope, bind_apply, modifyGet, ensure]
  generalize step (env.nestedContext context).1 state _ = ended,
    step' (env'.nestedContext context').1 state' _ = ended' at hended ⊢
  cases hended with
  | ok hresult hstate henv =>
    obtain ⟨hleft, htoken⟩ := henv.left.close hfloor
    obtain ⟨hright, htoken'⟩ := henv.right.close hfloor'
    exact .ok hresult hstate (henv.of_stands hleft hright htoken htoken')
  | halted reason hstate henv =>
    obtain ⟨hleft, htoken⟩ := henv.left.close hfloor
    obtain ⟨hright, htoken'⟩ := henv.right.close hfloor'
    exact .halted reason hstate (henv.of_stands hleft hright htoken htoken')

end Step

/-! ### Waiting -/

/-- Passes that go together stay together whatever the dice show: both end, or both go on with
delays that count as the same. -/
def Schedule.Keeps (schedule : Schedule) (same : Duration → Duration → Prop)
    (together : schedule.Pass → schedule.Pass → Prop) : Prop :=
  ∀ pass pass' dice dice', together pass pass' →
    Option.Rel (fun found found' => same found.1 found'.1 ∧ together found.2 found'.2)
      (schedule.next? pass dice).1 (schedule.next? pass' dice').1

/-- Schedules all of whose passes go together. -/
def Schedule.Steady (schedule : Schedule) (same : Duration → Duration → Prop) : Prop :=
  ∃ together, together schedule.start schedule.start ∧ schedule.Keeps same together

/-- A schedule that leaves nothing to chance always gives the same delays. -/
theorem Schedule.IsFixed.steady {schedule : Schedule} (h : schedule.IsFixed) :
    schedule.Steady Eq := by
  refine ⟨Eq, rfl, ?_⟩
  rintro pass _ dice dice' rfl
  rw [h pass dice dice']
  cases (schedule.next? pass dice').1 with
  | none => exact .none
  | some found => exact .some ⟨rfl, rfl⟩

/-- Jitter leaves the lengths of delays to chance, but not their number. -/
theorem Schedule.Steady.jittered {schedule : Schedule} {same : Duration → Duration → Prop}
    (h : schedule.Steady same) (strategy : Jitter) :
    (jittered strategy schedule).Steady fun _ _ => True := by
  obtain ⟨together, hstart, hkeeps⟩ := h
  refine ⟨together, hstart, fun pass pass' dice dice' hpass => ?_⟩
  have hfound := hkeeps pass pass' dice dice' hpass
  simp only [next?]
  generalize schedule.next? pass dice = drawn, schedule.next? pass' dice' = drawn' at hfound ⊢
  obtain ⟨found, rest⟩ := drawn
  obtain ⟨found', rest'⟩ := drawn'
  cases hfound with
  | none => exact .none
  | some hfound => exact .some ⟨trivial, hfound.2⟩

/-- Sleepers that stages notice nothing of but how a wait ended, which is the same for delays that
count as the same. If there is a deadline, stages compare the delays with it as well. -/
structure Sleeper.Inert (deadline : Option Nat) (same : Duration → Duration → Prop)
    (sleeper : Sleeper σ) : Prop where
  result : ∀ delay delay' user user', same delay delay' →
    (sleeper delay user).result = (sleeper delay' user').result
  happenings : ∀ delay user, ∀ happening ∈ (sleeper delay user).happenings,
    happening.Inert deadline
  compared : deadline ≠ none → ∀ delay delay', same delay delay' → delay = delay'

/-- What two scheduled stages do after an attempt: both end with related results, or both go on with
passes that go together and related states. -/
inductive Continuation.Corresponds {schedule : Schedule}
    (together : schedule.Pass → schedule.Pass → Prop) (Q : T → T' → Prop) (D : α → α' → Prop) :
    Continuation schedule T α → Continuation schedule T' α' → Prop
  | finish {result result'} (h : D result result') :
      Corresponds together Q D (.finish result) (.finish result')
  | again {pass pass' current current'} (hpass : together pass pass') (h : Q current current') :
      Corresponds together Q D (.again pass current) (.again pass' current')

section Waits

variable {same : Duration → Duration → Prop} {sleeper : Sleeper σ} {delay delay' : Duration}

/-- Waits match if the sleeper does not tell their delays apart. -/
theorem Step.matches_waitOut (h : sleeper.Inert ground.deadline same) (hsame : same delay delay')
    (hcontext : context.deadline = ground.deadline)
    (hcontext' : context'.deadline = ground.deadline) :
    (waitOut sleeper context delay : Step σ κ (Option Failure)).Matches ground P Eq
      (waitOut sleeper context' delay' : Step σ κ' (Option Failure)) := by
  -- The calls have different arguments, so they match as calls of the callbacks that wait for one
  -- delay each.
  have hcall : (Step.call sleeper delay : Step σ κ Rest).Matches ground P Eq
      (Step.call sleeper delay' : Step σ κ' Rest) :=
    Step.matches_calls (fun user user' => h.result delay delay' user user' hsame)
      (h.happenings delay) (h.happenings delay')
  refine (Step.matches_update fun _ _ henv => henv.record _ _).bind fun _ _ _ =>
    hcall.bindEq fun rest => ?_
  cases rest with
  | elapsed => exact Step.matches_pure rfl
  | interrupted reason =>
    refine (Step.matches_update fun _ _ henv => henv.cancel reason).bind fun _ _ _ => ?_
    have hask : (Step.ask (·.interruption context) : Step σ κ Failure).Matches ground P Eq
        (Step.ask (·.interruption context')) := Step.matches_ask fun env env' henv => by
      rw [Env.interruption, Env.interruption, henv.interruption? hcontext hcontext']
    exact hask.bindEq fun failure =>
      (Step.matches_stop failure).map fun _ _ hfailure => congrArg some hfailure
  | never => exact Step.matches_halt .endless

/-- Waits inside a run match: both runs see a reason to stop, both would pass the deadline, or both
wait. -/
theorem Step.matches_pause (h : sleeper.Inert ground.deadline same) (hsame : same delay delay')
    (hcontext : context.deadline = ground.deadline)
    (hcontext' : context'.deadline = ground.deadline) :
    (pause sleeper context delay : Step σ κ (Option Failure)).Matches ground P Eq
      (pause sleeper context' delay' : Step σ κ' (Option Failure)) := by
  have hstop : (Step.ask (·.interruption? context) : Step σ κ (Option Failure)).Matches ground P Eq
      (Step.ask (·.interruption? context')) :=
    Step.matches_ask fun env env' henv => henv.interruption? hcontext hcontext'
  have hoverrun : (Step.ask (·.wouldOverrun context delay) : Step σ κ Bool).Matches ground P Eq
      (Step.ask (·.wouldOverrun context' delay')) := Step.matches_ask fun env env' henv => by
    rw [Env.wouldOverrun, Env.wouldOverrun, hcontext, hcontext']
    cases hdeadline : ground.deadline with
    | none => rfl
    | some deadline =>
      have hsome : ground.deadline ≠ none := by simp [hdeadline]
      simp only [henv.left.now hsome, henv.right.now hsome, h.compared hsome delay delay' hsame]
  refine hstop.bindEq fun stop => ?_
  cases stop with
  | some failure =>
    exact (Step.matches_stop failure).map fun _ _ hfailure => congrArg some hfailure
  | none =>
    refine hoverrun.bindEq fun overrun => ?_
    cases overrun with
    | true => exact (Step.matches_stop _).map fun _ _ hfailure => congrArg some hfailure
    | false => exact Step.matches_waitOut h hsame hcontext hcontext'

variable {schedule : Schedule} {together : schedule.Pass → schedule.Pass → Prop}
  {Q : T → T' → Prop}

/-- A wait for the next delays of two passes that go together. -/
theorem Step.Matches.waitOr {exhausted : Step σ κ (Verdict X S)}
    {exhausted' : Step σ κ' (Verdict X S')}
    (hexhausted : exhausted.Matches ground P (Verdict.Corresponds R) exhausted')
    (hkeeps : schedule.Keeps same together) (h : sleeper.Inert ground.deadline same)
    (hcontext : context.deadline = ground.deadline)
    (hcontext' : context'.deadline = ground.deadline) {pass pass' : schedule.Pass}
    (hpass : together pass pass') {current : T} {current' : T'} (hcurrent : Q current current') :
    (waitOr sleeper context pass current exhausted).Matches ground P
      (Continuation.Corresponds together Q (Verdict.Corresponds R))
      (waitOr sleeper context' pass' current' exhausted') := by
  have hdraw : (Step.modifyGet (·.nextDelay schedule pass) : Step σ κ _).Matches ground P
      (Option.Rel fun found found' => same found.1 found'.1 ∧ together found.2 found'.2)
      (Step.modifyGet (·.nextDelay schedule pass')) := fun _ _ env env' hstate henv =>
    .ok (hkeeps pass pass' env.dice env'.dice hpass) hstate
      (henv.of_stands (henv.left.of_eq rfl rfl (Nat.le_refl _))
        (henv.right.of_eq rfl rfl (Nat.le_refl _)) rfl rfl)
  refine hdraw.bind fun found found' hfound => ?_
  cases hfound with
  | none => exact hexhausted.map fun _ _ hverdict => .finish hverdict
  | some hfound =>
    refine (Step.matches_pause h hfound.1 hcontext hcontext').bindEq fun stop => ?_
    cases stop with
    | some failure => exact Step.matches_pure (.finish (.fail failure))
    | none => exact Step.matches_pure (.again hfound.2 hcurrent)

/-- Rounds match if each single one does. -/
theorem Step.Matches.repeatRounds {D : α → α' → Prop}
    {round : schedule.Pass → T → Step σ κ (Continuation schedule T α)}
    {round' : schedule.Pass → T' → Step σ κ' (Continuation schedule T' α')}
    (h : ∀ pass pass' current current', together pass pass' → Q current current' →
      (round pass current).Matches ground P (Continuation.Corresponds together Q D)
        (round' pass' current'))
    (fuel : Nat) {pass pass' : schedule.Pass} (hpass : together pass pass') {current : T}
    {current' : T'} (hcurrent : Q current current') :
    Step.Matches ground P D (repeatRounds round fuel pass current)
      (repeatRounds round' fuel pass' current') := by
  induction fuel generalizing pass pass' current current' with
  | zero => exact fun _ _ _ _ hstate henv => .halted .endless hstate henv
  | succ fuel ih =>
    intro state state' env env' hstate henv
    have hended := h pass pass' current current' hpass hcurrent state state' env env' hstate henv
    simp only [Transduction.repeatRounds]
    generalize round pass current state env = ended,
      round' pass' current' state' env' = ended' at hended ⊢
    cases hended with
    | halted reason hstate henv => exact .halted reason hstate henv
    | ok hcontinuation hstate henv =>
      cases hcontinuation with
      | finish hresult => exact .ok hresult hstate henv
      | again hpass hcurrent => exact ih hpass hcurrent _ _ _ _ hstate henv

end Waits

/-! ### Rounds -/

/-- Whether the test of a bound is inert, if it has one. -/
def Bound.Inert (deadline : Option Nat) : Bound σ T → Prop
  | unbounded => True
  | untilHolds test => Callback.Inert deadline test
  | whileHolds test => Callback.Inert deadline test

theorem Bound.Inert.reach {bound : Bound σ T} (h : bound.Inert ground.deadline) (folded : T) :
    (bound.reach folded : Step σ κ Reach).Matches ground P Eq
      (bound.reach folded : Step σ κ' Reach) := by
  cases bound with
  | unbounded => exact Step.matches_pure rfl
  | untilHolds test | whileHolds test =>
    exact (Step.matches_call h folded).map fun _ _ hholds => hholds ▸ rfl

section Rounds

variable {schedule : Schedule} {same : Duration → Duration → Prop} {sleeper : Sleeper σ}
  {together : schedule.Pass → schedule.Pass → Prop} {acc : S} {acc' : S'}
  {attempt : Step σ κ (Verdict X (Option B))} {attempt' : Step σ κ' (Verdict X (Option B))}
  (hcontext : context.deadline = ground.deadline) (hcontext' : context'.deadline = ground.deadline)
  (hsleeper : sleeper.Inert ground.deadline same)
  (hkeeps : schedule.Keeps same together)
  (hattempt : attempt.Matches ground P (Verdict.Corresponds Eq) attempt')

include hcontext hcontext'

namespace Sink.Matches

theorem deliver {sink : Sink σ X κ S B} {sink' : Sink σ X κ' S' B}
    (h : sink.Matches ground P R sink') (hacc : R acc acc') (produced : Option B) :
    (deliver sink context acc produced).Matches ground P (Verdict.Corresponds R)
      (deliver sink' context' acc' produced) := by
  cases produced with
  | some value => exact h context context' acc acc' value hcontext hcontext' hacc
  | none => exact Step.matches_pure (.proceed hacc)

include hsleeper hkeeps hattempt

theorem retryRound {sink : Sink σ X κ S B} {sink' : Sink σ X κ' S' B}
    (h : sink.Matches ground P R sink') (hacc : R acc acc') {accept : Callback σ B Bool}
    (haccept : accept.Inert ground.deadline) {pass pass' : schedule.Pass}
    (hpass : together pass pass') :
    (retryRound sink context acc schedule sleeper accept attempt pass).Matches ground P
      (Continuation.Corresponds together Eq (Verdict.Corresponds R))
      (retryRound sink' context' acc' schedule sleeper accept attempt' pass') := by
  refine (Step.matches_update fun _ _ henv => henv.record _ _).bind fun _ _ _ =>
    hattempt.bind fun outcome _ houtcome => ?_
  rw [← houtcome.eq]
  cases outcome with
  | fail failure => exact Step.matches_pure (.finish (.fail failure))
  | alternate value => exact Step.matches_pure (.finish (.alternate value))
  | complete produced =>
    exact ((h.deliver hcontext hcontext' hacc produced).map fun _ _ => .completed).map
      fun _ _ => .finish
  | proceed produced =>
    have hdeliver := h.deliver hcontext hcontext' hacc produced
    have haccepted : (isAccepted accept produced : Step σ κ Bool).Matches ground P Eq
        (isAccepted accept produced : Step σ κ' Bool) := by
      cases produced with
      | some value => exact Step.matches_call haccept value
      | none => exact Step.matches_pure rfl
    refine haccepted.bindEq fun accepted => ?_
    cases accepted with
    | true => exact hdeliver.map fun _ _ => .finish
    | false => exact hdeliver.waitOr hkeeps hsleeper hcontext hcontext' hpass rfl

theorem foldRound {sink : Sink σ X κ S T} {sink' : Sink σ X κ' S' T}
    (h : sink.Matches ground P R sink') (hacc : R acc acc') {f : Callback σ (T × B) T}
    (hf : f.Inert ground.deadline) {bound : Bound σ T} (hbound : bound.Inert ground.deadline)
    {pass pass' : schedule.Pass} (hpass : together pass pass') (current : T) :
    (foldRound sink context acc schedule sleeper f bound attempt pass current).Matches ground P
      (Continuation.Corresponds together Eq (Verdict.Corresponds R))
      (foldRound sink' context' acc' schedule sleeper f bound attempt' pass' current) := by
  have hsink (value : T) := h context context' acc acc' value hcontext hcontext' hacc
  have hafter (isLast : Bool) (current : T) : Step.Matches ground P
      (Continuation.Corresponds together Eq (Verdict.Corresponds R))
      (if isLast then .finish <$> Verdict.completed <$> sink context acc current
        else waitOr sleeper context pass current (sink context acc current))
      (if isLast then .finish <$> Verdict.completed <$> sink' context' acc' current
        else waitOr sleeper context' pass' current (sink' context' acc' current)) := by
    cases isLast with
    | true => exact ((hsink current).map fun _ _ => .completed).map fun _ _ => .finish
    | false => exact (hsink current).waitOr hkeeps hsleeper hcontext hcontext' hpass rfl
  refine (Step.matches_update fun _ _ henv => henv.record _ _).bind fun _ _ _ =>
    hattempt.bind fun outcome _ houtcome => ?_
  rw [← houtcome.eq]
  cases outcome with
  | fail failure => exact Step.matches_pure (.finish (.fail failure))
  | alternate value => exact Step.matches_pure (.finish (.alternate value))
  | proceed produced | complete produced =>
    cases produced with
    | none => exact hafter _ current
    | some value =>
      refine (Step.matches_call hf (current, value)).bindEq fun folded =>
        (hbound.reach folded).bindEq fun reach => ?_
      cases reach with
      | excluded => exact (hsink current).map fun _ _ => .finish
      | included => exact (hsink folded).map fun _ _ => .finish
      | inside => exact hafter _ folded

end Sink.Matches

end Rounds

/-! ### Stages -/

namespace Stage

/-- Whether all callbacks of a stage are inert and it opens and releases no resources, as the handle
of a resource tells how many were opened before it. Schedules may leave the lengths of delays to
chance, but not their number. -/
def Inert (deadline : Option Nat) : {A B : Type} → Stage σ X A B → Prop
  | _, _, map f => f.Inert deadline
  | _, _, filter test => test.Inert deadline
  | _, _, filterMap f => f.Inert deadline
  | _, _, inspect look => look.Inert deadline
  | _, _, takeWhen _ test => test.Inert deadline
  | _, _, skipWhen _ test => test.Inert deadline
  | _, _, fold _ f bound => f.Inert deadline ∧ bound.Inert deadline
  | _, _, reject failure => failure.Inert deadline
  | _, _, collapse onLeft onRight => onLeft.Inert deadline ∧ onRight.Inert deadline
  | _, _, compose first second => first.Inert deadline ∧ second.Inert deadline
  | _, _, choice first second => first.Inert deadline ∧ second.Inert deadline
  | _, _, zip left right => left.Inert deadline ∧ right.Inert deadline
  | _, _, bimap left right => left.Inert deadline ∧ right.Inert deadline
  | _, _, flatten outer inner => outer.Inert deadline ∧ ∀ i, (inner i).Inert deadline
  | _, _, scope inner => inner.Inert deadline
  | _, _, scopeMany inner => inner.Inert deadline
  | _, _, bindRight inner => inner.Inert deadline
  | _, _, retry inner schedule sleeper accept =>
    inner.Inert deadline ∧ accept.Inert deadline ∧
      ∃ same, schedule.Steady same ∧ sleeper.Inert deadline same
  | _, _, foldAttempts inner schedule sleeper _ f bound =>
    inner.Inert deadline ∧ f.Inert deadline ∧ bound.Inert deadline ∧
      ∃ same, schedule.Steady same ∧ sleeper.Inert deadline same
  | _, _, acquire _ _ => False
  | _, _, release _ => False
  | _, _, identity => True
  | _, _, constant _ => True
  | _, _, take _ => True
  | _, _, skip _ => True
  | _, _, each => True
  | _, _, countUp => True
  | _, _, drain _ => True
  | _, _, expectRight _ => True

/-- An inert stage matches itself, with equal states of its instances, in front of sinks that
match. -/
theorem matches_run (fuel : Nat) (stage : Stage σ X A B) (hstage : stage.Inert ground.deadline)
    {sink : Sink σ X κ S B} {sink' : Sink σ X κ' S' B} (h : sink.Matches ground P R sink') :
    (stage.run fuel sink).Matches ground (Beside Eq P) R (stage.run fuel sink') := by
  induction stage generalizing κ κ' S S' P R with
    (intro context context' acc acc' a hcontext hcontext' hacc
     have hbelow {I : Type} b := (h context context' acc acc' b hcontext hcontext' hacc).below
       (I := Eq (α := I)))
  | identity | constant => exact hbelow _
  | map f => exact (Step.matches_call hstage a).bindEq hbelow
  | filter test =>
    refine (Step.matches_call hstage a).bindEq fun holds => ?_
    cases holds with
    | true => exact hbelow a
    | false => exact Step.matches_pure (.proceed hacc)
  | filterMap f =>
    refine (Step.matches_call hstage a).bindEq fun found => ?_
    cases found with
    | some b => exact hbelow b
    | none => exact Step.matches_pure (.proceed hacc)
  | inspect look => exact (Step.matches_call hstage a).bindEq fun _ => hbelow a
  | compose first second ihFirst ihSecond =>
    exact (ihFirst hstage.1 (ihSecond hstage.2 h) context context' acc acc' a hcontext hcontext'
      hacc).nested
  | take count =>
    refine Step.matches_own.bindEq fun remaining : Nat => ?_
    cases remaining with
    | zero => exact Step.matches_pure (.complete hacc)
    | succ left => exact (Step.matches_setOwn rfl).bindEq fun _ => hbelow a
  | takeWhen answer test =>
    refine (Step.matches_call hstage a).bindEq fun holds => ?_
    by_cases hanswer : holds = answer
    · rw [if_pos hanswer, if_pos hanswer]
      exact hbelow a
    · rw [if_neg hanswer, if_neg hanswer]
      exact Step.matches_pure (.complete hacc)
  | skip count =>
    refine Step.matches_own.bindEq fun remaining : Nat => ?_
    cases remaining with
    | zero => exact hbelow a
    | succ left =>
      exact (Step.matches_setOwn rfl).bindEq fun _ => Step.matches_pure (.proceed hacc)
  | skipWhen answer test =>
    refine Step.matches_own.bindEq fun skipping : Bool => ?_
    cases skipping with
    | false => exact hbelow a
    | true =>
      refine (Step.matches_call hstage a).bindEq fun holds => ?_
      by_cases hanswer : holds = answer
      · rw [if_pos hanswer, if_pos hanswer]
        exact Step.matches_pure (.proceed hacc)
      · rw [if_neg hanswer, if_neg hanswer]
        exact (Step.matches_setOwn rfl).bindEq fun _ => hbelow a
  | fold seed f bound =>
    refine Step.matches_own.bindEq fun current =>
      (Step.matches_call hstage.1 _).bindEq fun folded =>
        (hstage.2.reach folded).bindEq fun reach => ?_
    cases reach with
    | excluded => exact Step.matches_pure (.complete hacc)
    | included =>
      exact (Step.matches_setOwn rfl).bindEq fun _ => (hbelow folded).map fun _ _ => .completed
    | inside => exact (Step.matches_setOwn rfl).bindEq fun _ => hbelow folded
  | choice first second ihFirst ihSecond =>
    have htrying := ihFirst hstage.1 h.relay context context' () () a hcontext hcontext' rfl
    refine (htrying.besideFirst.within (Parked.Corresponds.holding hacc)).bind ?_
    rintro ⟨outcome, parked⟩ ⟨outcome', parked'⟩ ⟨hverdict, hparked⟩
    obtain rfl : outcome = outcome' := hverdict.eq
    exact Step.matches_settleChoice outcome hparked fun acc acc' hacc =>
      (ihSecond hstage.2 h context context' acc acc' a hcontext hcontext' hacc).onSecond
  | zip left right ihLeft ihRight =>
    have hleft := ihLeft hstage.1 Sink.matches_first context context' none none a hcontext
      hcontext' rfl
    have hright := ihRight hstage.2 Sink.matches_first context context' none none a hcontext
      hcontext' rfl
    refine hleft.atFirst.bind fun l l' hl => hright.atSecond.bind fun r r' hr => ?_
    rw [hl.eq, hr.eq]
    rcases l'.both r' with (_ | pair) | _ | failure | value
    · exact Step.matches_pure (.proceed hacc)
    · exact hbelow pair
    · exact Step.matches_pure (.proceed hacc)
    · exact Step.matches_pure (.fail failure)
    · exact Step.matches_pure (.alternate value)
  | flatten outer inner ihOuter ihInner =>
    refine ihOuter hstage.1 ?_ context context' acc acc' a hcontext hcontext' hacc
    intro context context' acc acc' i hcontext hcontext' hacc
    exact ((ihInner i (hstage.2 i) h context context' acc acc' () hcontext hcontext' hacc).within
      rfl).map fun _ _ hverdict => hverdict.1
  | each => exact (h.feed hcontext hcontext' a hacc).below
  | countUp => exact (h.feedCount hcontext hcontext' a 0 hacc).below
  | drain lift => exact (h.drainFeed hcontext hcontext' lift a.tail a.items hacc).below
  | reject failure =>
    exact (Step.matches_call hstage a).map fun _ _ hfailure => hfailure ▸ .fail _
  | scope inner ih =>
    have hscope := Step.matches_inScope hcontext hcontext' fun nested nested' hnested hnested' =>
      ih hstage Sink.matches_first nested nested' none none a hnested hnested' rfl
    refine hscope.atOwn.bind fun outcome outcome' houtcome => ?_
    rw [houtcome.eq]
    rcases outcome' with (_ | b) | (_ | b) | failure | value
    · exact Step.matches_pure (.fail .bottom)
    · exact hbelow b
    · exact Step.matches_pure (.fail .bottom)
    · exact hbelow b
    · exact Step.matches_pure (.fail failure)
    · exact Step.matches_pure (.alternate value)
  | scopeMany inner ih =>
    have hscope := Step.matches_inScope hcontext hcontext' fun nested nested' hnested hnested' =>
      ih hstage Sink.matches_all nested nested' #[] #[] a hnested hnested' rfl
    refine hscope.atOwn.bind fun outcome outcome' houtcome => ?_
    rw [houtcome.eq]
    cases outcome' with
    | proceed values | complete values => exact hbelow values.toList
    | fail failure => exact Step.matches_pure (.fail failure)
    | alternate value => exact Step.matches_pure (.alternate value)
  | acquire | release => exact hstage.elim
  | bimap left right ihLeft ihRight =>
    cases a with
    | left l =>
      exact (ihLeft hstage.1 (h.comap .left) context context' acc acc' l hcontext hcontext'
        hacc).onFirst
    | right r =>
      exact (ihRight hstage.2 (h.comap .right) context context' acc acc' r hcontext hcontext'
        hacc).onSecond
    | fail failure => exact Step.matches_pure (.fail failure)
  | bindRight inner ih =>
    cases a with
    | right a => exact ih hstage h context context' acc acc' a hcontext hcontext' hacc
    | left | fail => exact hbelow _
  | expectRight toAlternate =>
    cases a with
    | right a => exact hbelow a
    | left l => exact Step.matches_pure (.alternate _)
    | fail failure => exact Step.matches_pure (.fail failure)
  | collapse onLeft onRight =>
    cases a with
    | left l => exact (Step.matches_call hstage.1 l).bindEq hbelow
    | right r => exact (Step.matches_call hstage.2 r).bindEq hbelow
    | fail failure => exact Step.matches_pure (.fail failure)
  | retry inner schedule sleeper accept ih =>
    obtain ⟨hinner, haccept, same, ⟨together, hstart, hkeeps⟩, hsleeper⟩ := hstage
    have hinit : Beside Eq Eq (inner.init, ()) (inner.init, ()) := ⟨rfl, rfl⟩
    have hattempt := (ih hinner Sink.matches_last context context' none none a hcontext hcontext'
      rfl).isolated (P := P) hinit
    refine Step.Matches.below (Step.Matches.repeatRounds (Q := @Eq Unit)
      (fun pass pass' _ _ hpass _ => ?_) fuel hstart rfl)
    exact h.retryRound hcontext hcontext' hsleeper hkeeps hattempt hacc haccept hpass
  | foldAttempts inner schedule sleeper seed f bound ih =>
    obtain ⟨hinner, hf, hbound, same, ⟨together, hstart, hkeeps⟩, hsleeper⟩ := hstage
    have hinit : Beside Eq Eq (inner.init, ()) (inner.init, ()) := ⟨rfl, rfl⟩
    have hattempt := (ih hinner Sink.matches_last context context' none none a hcontext hcontext'
      rfl).isolated (P := P) hinit
    refine Step.Matches.below (Step.Matches.repeatRounds (Q := Eq) ?_ fuel hstart rfl)
    rintro pass pass' current _ hpass rfl
    exact h.foldRound hcontext hcontext' hsleeper hkeeps hattempt hacc hf hbound hpass current

end Stage

end Transduction
