import Transduction.Proofs.Likeness.Basic

/-!
# Grouping alternatives

Three alternatives can be grouped in two ways. If the first two form a group, the accumulator is
parked twice while the first one runs: the relay of the group holds a unit for the relay around it,
which holds the accumulator itself. What the relay of the group holds is determined by the relay
around it, so the two stacked relays are an image of one relay and nothing in front of them can tell
the difference. In the other grouping there is one relay from the start. Either way the alternatives
are tried one after the other, on the same value, until one does not fail by itself.

## Main definitions

* `Parked.outline`, `Ended.stacked`: what there is in front of a second relay.
* `Ended.orElse`: what follows the first of two alternatives.
* `Trial`, `Stage.trials`: the alternatives that are tried on one value, in order.
* `Stage.allTrials`: the alternatives that are tried on several values.

## Main results

* `relay_relay`: two stacked relays are an image of one.
* `Ended.orElse_assoc`: what follows the first of three alternatives.
* `Stage.trials_natural`: the alternatives that are tried do not depend on the form of the sink.
* `Stage.choice_assoc`: the two groupings cannot be told apart.
-/

namespace Transduction

universe u

variable {σ X ι κ κ' δ ε S A B : Type} {T : Type u}

/-! ### Stacked relays -/

/-- What a relay holds in front of another relay, from what that one holds: a unit in place of the
accumulator, and a completion in place of whatever the run was stopped with. -/
def Parked.outline : Parked X S → Parked X Unit
  | holding _ => .holding ()
  | stopped _ => .stopped (.complete ())

/-- A relay in front of a relay answers as that one does and holds its outline. -/
theorem relay_relay (sink : Sink σ X κ S B) (context : Context) (value : B)
    (state : Parked X S × κ) (env : Env σ) :
    let answer := relay sink context () value state env
    relay (relay sink) context () value (state.1.outline, state) env =
      ⟨answer.result, (answer.state.1.outline, answer.state), answer.env⟩ := by
  obtain ⟨parked, down⟩ := state
  cases parked with
  | stopped verdict => rfl
  | holding acc =>
    simp only [relay, Step.bind_apply, Sink.own, Sink.below, Step.zoom, Parked.outline]
    rcases sink context acc value down env with ⟨_ | verdict, down', env'⟩
    · rfl
    · cases verdict <;> rfl

/-- The relays of two sinks, one of which is an image of the other. -/
theorem relay_natural {sink : Sink σ X κ S B} {sink' : Sink σ X κ' S B} (f : κ → κ')
    {context : Context}
    (h : ∀ acc value down env,
      let answer := sink context acc value down env
      sink' context acc value (f down) env = ⟨answer.result, f answer.state, answer.env⟩)
    (acc : Unit) (value : B) (state : Parked X S × κ) (env : Env σ) :
    let answer := relay sink context acc value state env
    relay sink' context acc value (state.1, f state.2) env =
      ⟨answer.result, (answer.state.1, f answer.state.2), answer.env⟩ := by
  obtain ⟨parked, down⟩ := state
  cases parked with
  | stopped verdict => rfl
  | holding acc =>
    simp only [relay, Step.bind_apply, Sink.own, Sink.below, Step.zoom, h]
    rcases sink context acc value down env with ⟨_ | verdict, down', env'⟩
    · rfl
    · cases verdict <;> rfl

/-! ### What follows the first of two alternatives -/

namespace Ended

/-- What follows the first of two alternatives, which was tried in front of a relay: `next` goes on
from the accumulator that is held, if the first one failed by itself. -/
def orElse (tried : Ended σ (ι × Parked X S × κ) (Verdict X Unit)) (other : δ)
    (next : S → Step σ (δ × κ) (Verdict X S)) : Ended σ ((ι × δ) × κ) (Verdict X S) :=
  match tried with
  | ⟨.error halt, (mine, _, down), env⟩ => ⟨.error halt, ((mine, other), down), env⟩
  | ⟨.ok _, (mine, .stopped verdict, down), env⟩ => ⟨.ok verdict, ((mine, other), down), env⟩
  | ⟨.ok (.fail _), (mine, .holding acc, down), env⟩ =>
    let ended := next acc (other, down) env
    ⟨ended.result, ((mine, ended.state.1), ended.state.2), ended.env⟩
  | ⟨.ok outcome, (mine, .holding acc, down), env⟩ =>
    ⟨.ok (outcome.map fun _ => acc), ((mine, other), down), env⟩

/-- What is tried next if the first of two alternatives failed by itself. -/
def ifFailed (tried : Ended σ (ι × Parked X S × κ) (Verdict X Unit))
    (next : S → κ → Env σ → List T) : List T :=
  match tried with
  | ⟨.ok (.fail _), (_, .holding acc, down), env⟩ => next acc down env
  | _ => []

/-- A step in front of a relay, as it is in front of a second relay before that one. -/
def stacked (tried : Ended σ (ι × Parked X S × κ) (Verdict X Unit)) :
    Ended σ (ι × Parked X Unit × Parked X S × κ) (Verdict X Unit) :=
  ⟨tried.result, (tried.state.1, tried.state.2.1.outline, tried.state.2), tried.env⟩

variable (tried : Ended σ (ι × Parked X S × κ) (Verdict X Unit)) (other : δ) (last : ε)
  (second : Step σ (δ × Parked X S × κ) (Verdict X Unit))

/-- Whether the second and the third alternative are a group or the first and the second, the same
follows the first one. -/
theorem orElse_assoc (third : S → Step σ (ε × κ) (Verdict X S)) :
    let ended := (tried.stacked.orElse other fun _ => second).orElse last third
    (tried.orElse (other, last) fun acc state env =>
        (second (state.1.1, .holding acc, state.2) env).orElse state.1.2 third) =
      ⟨ended.result, ((ended.state.1.1.1, ended.state.1.1.2, ended.state.1.2), ended.state.2),
        ended.env⟩ := by
  rcases tried with ⟨_ | outcome, ⟨mine, parked, down⟩, env⟩
  · rfl
  · cases parked with
    | stopped verdict => rfl
    | holding acc =>
      cases outcome with
      | proceed | complete | alternate => rfl
      | fail failure =>
        -- The first one failed by itself, and the second one is in front of one relay either way.
        simp only [orElse, stacked, Parked.outline]
        rcases second (other, .holding acc, down) env with
          ⟨_ | outcome, ⟨mine', parked, down'⟩, env'⟩
        · rfl
        · cases parked with
          | stopped verdict => rfl
          | holding acc' => cases outcome <;> rfl

theorem ifFailed_assoc (more : Parked X S × κ → Env σ → List T)
    (final : S → κ → Env σ → List T) :
    (tried.ifFailed fun acc down env => more (.holding acc, down) env ++
        (second (other, .holding acc, down) env).ifFailed final) =
      (tried.stacked.ifFailed fun _ => more) ++
        (tried.stacked.orElse other fun _ => second).ifFailed final := by
  rcases tried with ⟨_ | outcome, ⟨mine, parked, down⟩, env⟩
  · rfl
  · cases parked with
    | stopped verdict => cases outcome <;> rfl
    | holding acc =>
      cases outcome with
      | proceed | complete | alternate => rfl
      | fail failure =>
        simp only [ifFailed, orElse, stacked, Parked.outline]
        rcases second (other, .holding acc, down) env with
          ⟨_ | outcome, ⟨mine', parked, down'⟩, env'⟩
        · rfl
        · cases parked with
          | stopped verdict => cases outcome <;> rfl
          | holding acc' => cases outcome <;> rfl

end Ended

/-! ### Trials -/

/-- An alternative that is tried: an instance, the value it is run on, and the surroundings that it
finds. -/
structure Trial (σ X A B : Type) : Type 1 where
  stage : Stage σ X A B
  mine : stage.State
  value : A
  env : Env σ

namespace Stage

/-- The alternatives that are tried on one value, in order. A stage that offers none is tried
itself. -/
def trials (fuel : Nat) : {A B : Type} → (stage : Stage σ X A B) → {κ S : Type} →
    Sink σ X κ S B → Context → S → A → stage.State × κ → Env σ → List (Trial σ X A B)
  | _, _, choice first second, _, _, sink, context, acc, a, state, env =>
    let parked := (state.1.1, .holding acc, state.2)
    first.trials fuel (relay sink) context () a parked env ++
      (first.run fuel (relay sink) context () a parked env).ifFailed
        fun acc down env => second.trials fuel sink context acc a (state.1.2, down) env
  | _, _, stage, _, _, _, _, _, a, state, env => [⟨stage, state.1, a, env⟩]

theorem trials_choice (fuel : Nat) (first second : Stage σ X A B) (sink : Sink σ X κ S B)
    (context : Context) (acc : S) (a : A) (mine : first.State) (other : second.State) (down : κ)
    (env : Env σ) :
    (choice first second).trials fuel sink context acc a ((mine, other), down) env =
      first.trials fuel (relay sink) context () a (mine, .holding acc, down) env ++
        (first.run fuel (relay sink) context () a (mine, .holding acc, down) env).ifFailed
          fun acc down env => second.trials fuel sink context acc a (other, down) env := rfl

/-- The alternatives that one instance tries on several values, each fed with a context and an
accumulator of its own and after whatever else happens to the surroundings. -/
def allTrials (fuel : Nat) (stage : Stage σ X A B) (sink : Sink σ X κ S B) :
    List ((Env σ → Env σ) × Context × S × A) → stage.State × κ → Env σ → List (Trial σ X A B)
  | [], _, _ => []
  | (meanwhile, context, acc, a) :: rest, state, env =>
    let ended := stage.run fuel sink context acc a state (meanwhile env)
    stage.trials fuel sink context acc a state (meanwhile env) ++
      stage.allTrials fuel sink rest ended.state ended.env

variable (fuel : Nat) (first second third : Stage σ X A B) (sink : Sink σ X κ S B)
  (context : Context) (acc : S) (a : A)

/-- Two alternatives on one value, from how the first one ends in front of a relay. -/
theorem run_choice_eq_orElse (mine : first.State) (other : second.State) (down : κ) (env : Env σ) :
    (choice first second).run fuel sink context acc a ((mine, other), down) env =
      (first.run fuel (relay sink) context () a (mine, .holding acc, down) env).orElse other
        fun acc => second.run fuel sink context acc a := by
  rw [run_choice]
  simp only [Step.bind_apply, Step.within, Step.zoom]
  rcases first.run fuel (relay sink) context () a (mine, .holding acc, down) env with
    ⟨_ | outcome, ⟨mine', parked, down'⟩, env'⟩
  · rfl
  · cases parked with
    | stopped verdict => cases outcome <;> rfl
    | holding reached => cases outcome <;> rfl

/-- A stage in front of two stacked relays does what it does in front of one. -/
theorem run_relay_relay (mine : first.State) (down : κ) (env : Env σ) :
    first.run fuel (relay (relay sink)) context () a (mine, .holding (), .holding acc, down) env =
      (first.run fuel (relay sink) context () a (mine, .holding acc, down) env).stacked :=
  run_natural fuel first (fun state : Parked X S × κ => (state.1.outline, state))
    (fun _ value state env => relay_relay sink context value state env) () a mine
    (.holding acc, down) env

/-- What is tried in front of a sink is tried in front of any image of it. -/
theorem trials_natural {sink : Sink σ X κ S B} {sink' : Sink σ X κ' S B} (f : κ → κ')
    {context : Context}
    (h : ∀ acc value down env,
      let answer := sink context acc value down env
      sink' context acc value (f down) env = ⟨answer.result, f answer.state, answer.env⟩)
    (stage : Stage σ X A B) (acc : S) (a : A) (mine : stage.State) (down : κ) (env : Env σ) :
    stage.trials fuel sink' context acc a (mine, f down) env =
      stage.trials fuel sink context acc a (mine, down) env := by
  induction stage generalizing κ κ' S env with
  | choice first second ihFirst ihSecond =>
    obtain ⟨mine, other⟩ := mine
    let lifted (state : Parked X S × κ) : Parked X S × κ' := (state.1, f state.2)
    have hrelay := relay_natural f h
    have hrun := run_natural fuel first lifted hrelay () a mine (.holding acc, down) env
    have htrials := ihFirst lifted hrelay () a mine (.holding acc, down) env
    refine (trials_choice fuel first second sink' context acc a mine other (f down) env).trans
      (Eq.trans ?_ (trials_choice fuel first second sink context acc a mine other down env).symm)
    refine congr (congrArg _ htrials) ((congrArg (Ended.ifFailed · _) hrun).trans ?_)
    rcases first.run fuel (relay sink) context () a (mine, .holding acc, down) env with
      ⟨_ | outcome, ⟨mine', parked, down'⟩, env'⟩
    · rfl
    · cases parked with
      | stopped verdict => cases outcome <;> rfl
      | holding reached =>
        cases outcome with
        | fail failure => exact ihSecond f h reached a other down' env'
        | proceed | complete | alternate => rfl
  | _ => rfl

/-- The first of two alternatives tries in front of two stacked relays what it tries in front of
one. -/
theorem trials_relay_relay (mine : first.State) (down : κ) (env : Env σ) :
    first.trials fuel (relay (relay sink)) context () a (mine, .holding (), .holding acc, down)
        env =
      first.trials fuel (relay sink) context () a (mine, .holding acc, down) env :=
  trials_natural fuel (fun state : Parked X S × κ => (state.1.outline, state))
    (fun _ value state env => relay_relay sink context value state env) first () a mine
    (.holding acc, down) env

/-! ### Three alternatives -/

/-- The states of three alternatives, grouped in the other way. -/
def regroup (mine : (choice (choice first second) third).State) :
    (choice first (choice second third)).State := (mine.1.1, mine.1.2, mine.2)

/-- The group of the first two alternatives in front of a relay. -/
theorem run_group (mine : first.State) (other : second.State) (down : κ) (env : Env σ) :
    (choice first second).run fuel (relay sink) context () a ((mine, other), .holding acc, down)
        env =
      (first.run fuel (relay sink) context () a (mine, .holding acc, down) env).stacked.orElse other
        fun _ => second.run fuel (relay sink) context () a :=
  (run_choice_eq_orElse fuel first second (relay sink) context () a mine other
    (.holding acc, down) env).trans
    (congrArg (Ended.orElse · other _)
      (run_relay_relay fuel first sink context acc a mine down env))

/-- Both groupings do the same with one value. -/
theorem run_regroup (mine : (choice (choice first second) third).State) (down : κ) (env : Env σ) :
    let ended := (choice (choice first second) third).run fuel sink context acc a (mine, down) env
    (choice first (choice second third)).run fuel sink context acc a
        (regroup first second third mine, down) env =
      ⟨ended.result, (regroup first second third ended.state.1, ended.state.2), ended.env⟩ := by
  obtain ⟨⟨mf, ms⟩, mt⟩ := mine
  intro ended
  let tried := first.run fuel (relay sink) context () a (mf, .holding acc, down) env
  let next := second.run fuel (relay sink) context () a
  let final := fun acc => third.run fuel sink context acc a
  have hended : ended = (tried.stacked.orElse ms fun _ => next).orElse mt final :=
    (run_choice_eq_orElse fuel (choice first second) third sink context acc a (mf, ms) mt down
      env).trans (congrArg (Ended.orElse · mt final)
        (run_group fuel first second sink context acc a mf ms down env))
  have hnext : (fun acc => (choice second third).run fuel sink context acc a) =
      fun acc state env =>
        (next (state.1.1, .holding acc, state.2) env).orElse state.1.2 final := by
    funext acc state env
    exact run_choice_eq_orElse fuel second third sink context acc a state.1.1 state.1.2 state.2 env
  refine (run_choice_eq_orElse fuel first (choice second third) sink context acc a mf (ms, mt) down
    env).trans ((congrArg (tried.orElse (ms, mt)) hnext).trans ?_)
  rw [hended]
  exact tried.orElse_assoc ms mt next final

/-- What the group of the first two alternatives tries in front of a relay. -/
theorem trials_group (mine : first.State) (other : second.State) (down : κ) (env : Env σ) :
    (choice first second).trials fuel (relay sink) context () a ((mine, other), .holding acc, down)
        env =
      first.trials fuel (relay sink) context () a (mine, .holding acc, down) env ++
        (first.run fuel (relay sink) context () a (mine, .holding acc, down) env).stacked.ifFailed
          fun _ state env => second.trials fuel (relay sink) context () a (other, state) env := by
  rw [trials_choice, trials_relay_relay, run_relay_relay]

/-- Both groupings try the same alternatives on one value. -/
theorem trials_regroup (mine : (choice (choice first second) third).State) (down : κ)
    (env : Env σ) :
    (choice first (choice second third)).trials fuel sink context acc a
        (regroup first second third mine, down) env =
      (choice (choice first second) third).trials fuel sink context acc a (mine, down) env := by
  obtain ⟨⟨mf, ms⟩, mt⟩ := mine
  let tried := first.run fuel (relay sink) context () a (mf, .holding acc, down) env
  have hlater := tried.ifFailed_assoc ms (second.run fuel (relay sink) context () a)
    (fun state env => second.trials fuel (relay sink) context () a (ms, state) env)
    fun acc down env => third.trials fuel sink context acc a (mt, down) env
  have hgroup := trials_group fuel first second sink context acc a mf ms down env
  have hrun := run_group fuel first second sink context acc a mf ms down env
  calc
    _ = first.trials fuel (relay sink) context () a (mf, .holding acc, down) env ++
        tried.ifFailed fun acc down env =>
          (choice second third).trials fuel sink context acc a ((ms, mt), down) env :=
      trials_choice fuel first (choice second third) sink context acc a mf (ms, mt) down env
    _ = _ := congrArg (_ ++ ·) hlater
    _ = _ := (List.append_assoc _ _ _).symm
    _ = (choice first second).trials fuel (relay sink) context () a
          ((mf, ms), .holding acc, down) env ++
        ((choice first second).run fuel (relay sink) context () a
          ((mf, ms), .holding acc, down) env).ifFailed
            fun acc down env => third.trials fuel sink context acc a (mt, down) env := by
      rw [hgroup, hrun]
      rfl
    _ = _ := (trials_choice fuel (choice first second) third sink context acc a (mf, ms) mt down
      env).symm

/-- Choosing between alternatives is associative. The two groupings of three alternatives call their
sink with the same accumulators and values, return the same verdicts and leave the same surroundings
and states behind, for any values fed one after the other, also if some of them fail or panic. On
each value they try the same alternatives in the same order, each one from the same state and in the
same surroundings. -/
theorem choice_assoc :
    (choice (choice first second) third).Alike fuel (choice first (choice second third))
      (regroup first second third) ∧
    ∀ {κ S : Type} (sink : Sink σ X κ S B) (turns : List ((Env σ → Env σ) × Context × S × A))
      (mine : (choice (choice first second) third).State) (down : κ) (env : Env σ),
      (choice first (choice second third)).allTrials fuel sink turns
          (regroup first second third mine, down) env =
        (choice (choice first second) third).allTrials fuel sink turns (mine, down) env := by
  refine ⟨.of_run rfl fun sink context acc a mine down env =>
    run_regroup fuel first second third sink context acc a mine down env, ?_⟩
  intro κ S sink turns mine down env
  induction turns generalizing mine down env with
  | nil => rfl
  | cons turn rest ih =>
    obtain ⟨meanwhile, context, acc, a⟩ := turn
    simp only [allTrials, trials_regroup, run_regroup, ih]

end Stage

end Transduction
