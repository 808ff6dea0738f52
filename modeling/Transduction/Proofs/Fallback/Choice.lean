import Transduction.Proofs.Emission.Visits
import Transduction.Proofs.Fallback.Slot

/-!
# Falling back

Of two alternatives the second one is tried only where the first one itself fails. What the first
one does with a value in front of the common sink decides: if the sink stops the run, or the first
one ends it in any way but a failure, this is the outcome. Otherwise the second one goes on with the
accumulator that the first one reached, so what the first one delivered stays delivered.

## Main definitions

* `Visit.IsTerminal`: calls of a sink that ended the run.
* `Ended.beside`: what the first of two instances did, while the second one stayed as it was.
* `Stage.fallBack`: what follows the outcome of the first of two alternatives.

## Main results

* `Emission.play_bind_cases`: an emission followed by another one, from the first one alone.
* `Stage.choice_cases`: two alternatives do what the first one does, or the second one goes on.
* `Stage.choice_falls_back`: two alternatives on any value, and with a slot on any values.
-/

namespace Transduction

variable {σ X ι κ S A B : Type}

/-- A call of a sink that ended the run. -/
def Visit.IsTerminal (visit : Visit σ X κ S A) : Prop :=
  ∃ verdict, visit.ended.result = .ok verdict ∧ verdict.isTerminal = true

/-- A step of the first of two instances, beside the state of the second one. -/
def Ended.beside {δ α : Type} (ended : Ended σ (ι × κ) α) (other : δ) : Ended σ ((ι × δ) × κ) α :=
  ⟨ended.result, ((ended.state.1, other), ended.state.2), ended.env⟩

namespace Emission

variable (sink : Sink σ X κ S B) (context : Context)

/-- What follows an emission is left out if the emission does not come to its end because the sink
stops the run or foreign code panics. Otherwise it starts from the accumulator reached. -/
theorem play_bind_cases (emission : Emission σ ι B (Verdict X Unit))
    (next : Verdict X Unit → ι → Env σ → Emission σ ι B (Verdict X Unit)) (acc : S) (down : κ) :
    let alone := emission.play sink context acc down
    let visits := emission.visits sink context acc down
    ((∃ visit ∈ visits, visit.IsTerminal) ∨ ∃ halt, alone.result = .error halt) ∧
        (emission.bind next).play sink context acc down = alone ∧
        (emission.bind next).visits sink context acc down = visits ∨
      ∃ outcome reached, (∀ visit ∈ visits, ¬visit.IsTerminal) ∧
        alone.result = .ok (outcome.map fun _ => reached) ∧
        Visit.lastAcc? acc visits = some reached ∧
        (emission.bind next).play sink context acc down =
          (next outcome alone.state.1 alone.env).play sink context reached alone.state.2 ∧
        (emission.bind next).visits sink context acc down = visits ++
          (next outcome alone.state.1 alone.env).visits sink context reached alone.state.2 := by
  induction emission generalizing acc down with
  | ended e =>
    rcases e with ⟨halt | outcome, state, env⟩
    · exact .inl ⟨.inr ⟨halt, rfl⟩, rfl, rfl⟩
    · exact .inr ⟨outcome, acc, List.forall_mem_nil _, rfl, rfl, rfl, rfl⟩
  | emit value state env rest ih =>
    simp only [Emission.bind, play, visits]
    rcases hended : sink context acc value down env with ⟨halt | verdict, down', env'⟩
    · exact .inl ⟨.inr ⟨halt, rfl⟩, rfl, rfl⟩
    · cases verdict with
      | proceed acc' =>
        have hfirst : ¬Visit.IsTerminal (⟨context, acc, value, ⟨.ok (.proceed acc'), down', env'⟩⟩ :
            Visit σ X κ S B) := by
          rintro ⟨_, ⟨⟩, h⟩
          cases h
        rcases ih env' acc' down' with ⟨hstop, hplay, hvisits⟩ |
          ⟨outcome, reached, hnone, hresult, hlast, hplay, hvisits⟩
        · refine .inl ⟨hstop.imp ?_ id, hplay, congrArg _ hvisits⟩
          rintro ⟨visit, hmem, hterminal⟩
          exact ⟨visit, List.mem_cons_of_mem _ hmem, hterminal⟩
        · exact .inr ⟨outcome, reached, List.forall_mem_cons.2 ⟨hfirst, hnone⟩, hresult,
            (Visit.lastAcc?_cons rfl _).trans hlast, hplay, congrArg _ hvisits⟩
      | complete | fail | alternate =>
        exact .inl ⟨.inl ⟨_, List.mem_cons_self, _, rfl, rfl⟩, rfl, rfl⟩

theorem visits_mapState {δ : Type} (f : ι → δ) (emission : Emission σ ι B (Verdict X Unit))
    (acc : S) (down : κ) : (emission.mapState f).visits sink context acc down =
      emission.visits sink context acc down := by
  induction emission generalizing acc down with
  | ended e => rfl
  | emit value state env rest ih =>
    simp only [mapState, visits]
    rcases sink context acc value down env with ⟨_ | verdict, down', env'⟩
    · rfl
    · cases verdict with
      | proceed acc' => exact congrArg _ (ih env' acc' down')
      | complete | fail | alternate => rfl

end Emission

namespace Stage

/-- What follows the outcome of the first of two alternatives. -/
def fallBack (fuel : Nat) (second : Stage σ X A B) (context : Context) (a : A) :
    Verdict X Unit → ι × second.State → Env σ → Emission σ (ι × second.State) B (Verdict X Unit)
  | .fail _, state, env => (second.emission fuel context a state.2 env).mapState (state.1, ·)
  | verdict, state, env => .ended ⟨.ok verdict, state, env⟩

theorem emission_choice (fuel : Nat) (first second : Stage σ X A B) (context : Context) (a : A)
    (state : first.State × second.State) (env : Env σ) :
    (choice first second).emission fuel context a state env =
      ((first.emission fuel context a state.1 env).mapState (·, state.2)).bind
        (second.fallBack fuel context a) := by
  refine congrArg (Emission.bind _) ?_
  funext outcome state env
  cases outcome <;> rfl

variable (fuel : Nat) (first second : Stage σ X A B) (sink : Sink σ X κ S B) (context : Context)
  (acc : S) (a : A) (mine : first.State) (other : second.State) (down : κ) (env : Env σ)

/-- What two alternatives do with a value is what the first one does with it, unless the first one
fails while the sink asks for more. In that case the second one goes on where the first one is. -/
theorem choice_cases :
    let alone := first.run fuel sink context acc a (mine, down) env
    let visits := first.visits fuel sink context acc a (mine, down) env
    let ended := (choice first second).run fuel sink context acc a ((mine, other), down) env
    let made := (choice first second).visits fuel sink context acc a ((mine, other), down) env
    (ended = alone.beside other ∧ made = visits) ∧
        ((∃ visit ∈ visits, visit.IsTerminal) ∨ ∀ failure, alone.result ≠ .ok (.fail failure)) ∨
      ∃ failure reached, (∀ visit ∈ visits, ¬visit.IsTerminal) ∧
        alone.result = .ok (.fail failure) ∧ Visit.lastAcc? acc visits = some reached ∧
        let fallback := second.run fuel sink context reached a (other, alone.state.2) alone.env
        ended = ⟨fallback.result, ((alone.state.1, fallback.state.1), fallback.state.2),
          fallback.env⟩ ∧
        made = visits ++ second.visits fuel sink context reached a (other, alone.state.2)
          alone.env := by
  have hchoice := emission_choice fuel first second context a (mine, other) env
  simp only [visits_eq_visits_emission, run_eq_perform, Emitter.perform, hchoice]
  have hcases := Emission.play_bind_cases sink context ((first.emission fuel context a mine env)
    |>.mapState (·, other)) (second.fallBack fuel context a) acc down
  simp only [Emission.play_mapState, Emission.visits_mapState] at hcases ⊢
  generalize (first.emission fuel context a mine env).play sink context acc down = alone at hcases ⊢
  generalize (first.emission fuel context a mine env).visits sink context acc down = visits
    at hcases ⊢
  rcases hcases with ⟨hstop, hplay, hvisits⟩ |
    ⟨outcome, reached, hnone, hresult, hlast, hplay, hvisits⟩
  · refine .inl ⟨⟨hplay, hvisits⟩, hstop.imp_right ?_⟩
    rintro ⟨halt, hhalt⟩ failure hfail
    cases hhalt.symm.trans hfail
  · cases outcome with
    | fail failure =>
      exact .inr ⟨failure, reached, hnone, hresult, hlast,
        hplay.trans (Emission.play_mapState sink context _ _ reached alone.state.2),
        hvisits.trans (congrArg _ (Emission.visits_mapState sink context _ _ reached _))⟩
    | proceed | complete | alternate =>
      refine .inl ⟨⟨hplay.trans ?_, hvisits.trans (List.append_nil _)⟩,
        .inr fun failure hfail => ?_⟩
      · rw [Ended.beside, hresult]
        rfl
      · cases hresult.symm.trans hfail

/-- The verdict of a call that ended the run is the verdict of the run. -/
theorem result_of_terminal_visit {visit : Visit σ X κ S B} {verdict : Verdict X S}
    (hvisit : visit ∈ first.visits fuel sink context acc a (mine, down) env)
    (hresult : visit.ended.result = .ok verdict) (hterminal : verdict.isTerminal = true) :
    (first.run fuel sink context acc a (mine, down) env).result = .ok verdict := by
  rw [visits_eq_visits_emission] at hvisit
  obtain ⟨earlier, later, hvisits⟩ := List.append_of_mem hvisit
  rw [run_eq_perform]
  exact (Emission.play_of_terminal sink context _ acc down hvisits hresult hterminal).2.1

theorem lastAcc?_visits {verdict : Verdict X S} {final : S}
    (hresult : (first.run fuel sink context acc a (mine, down) env).result = .ok verdict)
    (hfinal : verdict.acc? = some final) :
    Visit.lastAcc? acc (first.visits fuel sink context acc a (mine, down) env) = some final := by
  rw [visits_eq_visits_emission]
  rw [run_eq_perform] at hresult
  exact Emission.acc_play sink context _ acc down hresult hfinal

/-- Two alternatives on one value, from what the first one does with it in front of the same sink.

If the sink ends the run, its verdict is the outcome. Otherwise the first one decides: what it ends
with, if it is not a failure, is the outcome, with the accumulator after all that it delivered. In
both cases, and if foreign code panics, the second one is not run. If the first one fails by itself,
the second one is run on the same value, from the accumulator that the first one reached and in the
surroundings that it left behind, so the calls of the sink by the first one stay as they are, and
those by the second one follow them.

An instance that keeps its accumulator in a slot does the same on any values, whatever an earlier
value left there, and does not find the slot empty when the first alternative has returned. -/
theorem choice_falls_back :
    let alone := first.run fuel sink context acc a (mine, down) env
    let visits := first.visits fuel sink context acc a (mine, down) env
    let ended := (choice first second).run fuel sink context acc a ((mine, other), down) env
    let made := (choice first second).visits fuel sink context acc a ((mine, other), down) env
    (∀ visit ∈ visits, ∀ verdict, visit.ended.result = .ok verdict → verdict.isTerminal = true →
      ended.result = .ok verdict ∧ ended = alone.beside other ∧ made = visits) ∧
    ((∀ visit ∈ visits, ¬visit.IsTerminal) →
      (∀ verdict, alone.result = .ok verdict → verdict.isFail = false →
        ended.result = .ok verdict ∧
        (∀ final, verdict.acc? = some final → Visit.lastAcc? acc visits = some final) ∧
        ended = alone.beside other ∧ made = visits) ∧
      (∀ failure, alone.result = .ok (.fail failure) →
        ∃ reached, Visit.lastAcc? acc visits = some reached ∧
          let fallback := second.run fuel sink context reached a (other, alone.state.2) alone.env
          ended = ⟨fallback.result, ((alone.state.1, fallback.state.1), fallback.state.2),
            fallback.env⟩ ∧
          made = visits ++ second.visits fuel sink context reached a (other, alone.state.2)
            alone.env)) ∧
    (∀ halt, alone.result = .error halt → ended = alone.beside other ∧ made = visits) ∧
    (∀ outcome,
      (first.run fuel (Slot.relay sink) context () a (mine, .holding acc, down) env).result =
        .ok outcome →
      (first.run fuel (Slot.relay sink) context () a (mine, .holding acc, down) env).state.2.1 ≠
        .empty) ∧
    ∀ turns slot, ∃ left,
      let driven := Sink.drive ((choice first second).run fuel sink) turns ((mine, other), down) env
      Sink.drive (first.slottedChoice fuel second sink) turns (slot, (mine, other), down) env =
        (driven.1, (left, driven.2.1), driven.2.2) := by
  intro alone visits ended made
  have hcases := choice_cases fuel first second sink context acc a mine other down env
  refine ⟨fun visit hvisit verdict hresult hterminal => ?_, fun hnone => ⟨?_, ?_⟩,
    fun halt hhalt => ?_,
    fun outcome h => slot_ne_empty fuel sink first context acc a mine down env h,
    fun turns slot =>
      drive_slottedChoice fuel first second sink turns slot ((mine, other), down) env⟩
  · have halone := result_of_terminal_visit fuel first sink context acc a mine down env hvisit
      hresult hterminal
    rcases hcases with ⟨⟨hended, hmade⟩, -⟩ | ⟨failure, reached, hnone, -⟩
    · exact ⟨(congrArg Ended.result hended).trans halone, hended, hmade⟩
    · exact absurd ⟨verdict, hresult, hterminal⟩ (hnone visit hvisit)
  · intro verdict hresult hfail
    rcases hcases with ⟨⟨hended, hmade⟩, -⟩ | ⟨failure, reached, -, hfailed, -⟩
    · exact ⟨(congrArg Ended.result hended).trans hresult, fun final hfinal =>
        lastAcc?_visits fuel first sink context acc a mine down env hresult hfinal, hended, hmade⟩
    · obtain rfl := Except.ok.inj (hresult.symm.trans hfailed)
      cases hfail
  · intro failure hfailed
    rcases hcases with ⟨-, ⟨visit, hvisit, hterminal⟩ | hother⟩ |
      ⟨_, reached, -, -, hlast, hended, hmade⟩
    · exact absurd hterminal (hnone visit hvisit)
    · exact absurd hfailed (hother failure)
    · exact ⟨reached, hlast, hended, hmade⟩
  · rcases hcases with ⟨hsame, -⟩ | ⟨failure, reached, -, hfailed, -⟩
    · exact hsame
    · cases hhalt.symm.trans hfailed

/-- The first alternative delivers two of four numbers and fails on the third one; the second one
adds its own value to the two. -/
theorem choice_falls_back_after_two :
    let first : Stage Unit Empty (List Nat) Nat := flatten each fun n =>
      if n = 3 then reject (.ofFun fun _ => .bottom) else constant n
    let second : Stage Unit Empty (List Nat) Nat := constant 0
    let sink : Sink Unit Empty Unit (List Nat) Nat := fun _ seen n => pure (.proceed (n :: seen))
    let context : Context := ⟨.root (.ofNat 0), ⟨0⟩, none⟩
    let env : Env Unit := .start () .fresh ⟨id, 0⟩
    (first.run 1 sink context [] [1, 2, 3, 4] ((), ()) env).result = .ok (.fail .bottom) ∧
      ((choice first second).run 1 sink context [] [1, 2, 3, 4] (((), ()), ()) env).result =
        .ok (.proceed [0, 2, 1]) := by
  intro first second sink context env
  have hfailed : (first.run 1 sink context [] [1, 2, 3, 4] ((), ()) env).result =
      .ok (.fail .bottom) := rfl
  have hvisits : first.visits 1 sink context [] [1, 2, 3, 4] ((), ()) env =
      [⟨context, [], 1, ⟨.ok (.proceed [1]), (), env.record .handed⟩⟩,
        ⟨context, [1], 2, ⟨.ok (.proceed [2, 1]), (), (env.record .handed).record .handed⟩⟩] := rfl
  have hnone : ∀ visit ∈ first.visits 1 sink context [] [1, 2, 3, 4] ((), ()) env,
      ¬visit.IsTerminal := by
    rw [hvisits, List.forall_mem_cons, List.forall_mem_singleton]
    constructor
    all_goals
      rintro ⟨verdict, ⟨⟩, hterminal⟩
      cases hterminal
  have hfallback := (choice_falls_back 1 first second sink context [] [1, 2, 3, 4] () () () env).2.1
    hnone
  obtain ⟨reached, hreached, hended, -⟩ := hfallback.2 _ hfailed
  obtain rfl : [2, 1] = reached := Option.some.inj hreached
  exact ⟨hfailed, congrArg Ended.result hended⟩

end Stage

end Transduction
