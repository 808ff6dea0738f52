import Transduction.Proofs.Emission.Stages

/-!
# The calls of a sink

While a stage processes one value, it calls its sink any number of times. A sink that logs its own
calls makes them visible without being noticed by the stage. The calls form a chain: each one is
given the accumulator that the one before returned, and the first one that does not ask for more is
the last thing that happens.

## Main definitions

* `Visit`: one call of a sink, with what it was given and how it ended.
* `Sink.logged`: a sink that keeps a log of its calls.
* `Stage.visits`: the calls that a stage makes for one value, in order.
* `Visit.Threaded`: calls that hand an accumulator from each to the next.

## Main results

* `Stage.run_eq_forget_logged`: a stage does not notice the log.
* `Stage.run_of_terminal_visit`: after a call that ended the run nothing happens any more.
* `Stage.visits_threaded`: no accumulator is lost, exchanged or used twice.
-/

namespace Transduction

variable {σ X ι κ S A B : Type}

/-- One call of a sink, with what it was given and how it ended. -/
structure Visit (σ X κ S A : Type) where
  context : Context
  acc : S
  value : A
  ended : Ended σ κ (Verdict X S)

/-- A sink that keeps a log of its calls in front of its state, the latest call first. -/
def Sink.logged (sink : Sink σ X κ S A) : Sink σ X (List (Visit σ X κ S A) × κ) S A :=
  fun context acc value state env =>
    let ended := sink context acc value state.2 env
    ⟨ended.result, (⟨context, acc, value, ended⟩ :: state.1, ended.state), ended.env⟩

/-- The calls of the sink while a stage processes one value, in order. -/
def Stage.visits (fuel : Nat) (stage : Stage σ X A B) (sink : Sink σ X κ S B) (context : Context)
    (acc : S) (a : A) (state : stage.State × κ) (env : Env σ) : List (Visit σ X κ S B) :=
  (stage.run fuel sink.logged context acc a (state.1, [], state.2) env).state.2.1.reverse

namespace Visit

/-- The accumulator that a call returned, where it returned one. -/
def returned? (visit : Visit σ X κ S A) : Option S :=
  match visit.ended.result with
  | .ok verdict => verdict.acc?
  | .error _ => none

/-- The accumulator after some calls, the first of which was given `acc`. -/
def lastAcc? (acc : S) (visits : List (Visit σ X κ S A)) : Option S :=
  match visits.getLast? with
  | none => some acc
  | some visit => visit.returned?

/-- A call that asked for more leaves its accumulator to the calls after it. -/
theorem lastAcc?_cons {visit : Visit σ X κ S A} {acc next : S}
    (h : visit.ended.result = .ok (.proceed next)) (later : List (Visit σ X κ S A)) :
    lastAcc? acc (visit :: later) = lastAcc? next later := by
  have hreturned : visit.returned? = some next := by
    rw [returned?, h]
    rfl
  rw [lastAcc?, lastAcc?, List.getLast?_cons]
  cases later.getLast? with
  | none => exact hreturned
  | some last => rfl

/-- Calls in one context, the first of which was given `acc`, while each later one was given what
the one before returned as it asked for more. -/
def Threaded (context : Context) : S → List (Visit σ X κ S A) → Prop
  | _, [] => True
  | acc, visit :: later => visit.context = context ∧ visit.acc = acc ∧
    (later = [] ∨ ∃ next, visit.ended.result = .ok (.proceed next) ∧ Threaded context next later)

end Visit

/-! ### The calls that an emission makes -/

namespace Emission

/-- The calls of a sink that an emission is played into. -/
def visits (sink : Sink σ X κ S B) (context : Context) :
    Emission σ ι B (Verdict X Unit) → S → κ → List (Visit σ X κ S B)
  | ended _, _, _ => []
  | emit value _ env rest, acc, down =>
    ⟨context, acc, value, sink context acc value down env⟩ ::
      match sink context acc value down env with
      | ⟨.ok (.proceed acc), down, env⟩ => (rest env).visits sink context acc down
      | _ => []

variable (sink : Sink σ X κ S B) (context : Context)

theorem log_play_logged (emission : Emission σ ι B (Verdict X Unit)) (acc : S)
    (log : List (Visit σ X κ S B)) (down : κ) :
    (emission.play sink.logged context acc (log, down)).state.2.1 =
      (emission.visits sink context acc down).reverse ++ log := by
  induction emission generalizing acc log down with
  | ended e => rfl
  | emit value state env rest ih =>
    have hlogged : sink.logged context acc value (log, down) env =
        ⟨(sink context acc value down env).result,
          (⟨context, acc, value, sink context acc value down env⟩ :: log,
            (sink context acc value down env).state), (sink context acc value down env).env⟩ := rfl
    simp only [play, visits, hlogged]
    rcases sink context acc value down env with ⟨_ | verdict, down', env'⟩
    · rfl
    · cases verdict with
      | proceed acc' =>
        simp only [ih, List.reverse_cons, List.append_assoc, List.singleton_append]
      | complete | fail | alternate => rfl

/-- After a call that ended the run there is no other, and the run ends as the call did. -/
theorem play_of_terminal (emission : Emission σ ι B (Verdict X Unit)) (acc : S) (down : κ)
    {earlier later : List (Visit σ X κ S B)} {visit : Visit σ X κ S B} {verdict : Verdict X S}
    (hvisits : emission.visits sink context acc down = earlier ++ visit :: later)
    (hresult : visit.ended.result = .ok verdict) (hterminal : verdict.isTerminal = true) :
    later = [] ∧ (emission.play sink context acc down).result = .ok verdict ∧
      (emission.play sink context acc down).state.2 = visit.ended.state ∧
      (emission.play sink context acc down).env = visit.ended.env := by
  induction emission generalizing acc down earlier with
  | ended e =>
    obtain ⟨_, hnil⟩ := List.append_eq_nil_iff.1 hvisits.symm
    cases hnil
  | emit value state env rest ih =>
    simp only [visits] at hvisits
    simp only [play]
    cases earlier with
    | nil =>
      obtain ⟨rfl, hlater⟩ := List.cons.inj hvisits
      rcases hended : sink context acc value down env with ⟨_ | given, down', env'⟩
      · rw [hended] at hresult
        cases hresult
      · rw [hended] at hresult hlater
        obtain rfl : given = verdict := Except.ok.inj hresult
        cases given with
        | proceed => cases hterminal
        | complete | fail | alternate => exact ⟨hlater.symm, rfl, rfl, rfl⟩
    | cons first earlier =>
      obtain ⟨-, hrest⟩ := List.cons.inj hvisits
      rcases hended : sink context acc value down env with ⟨_ | given, down', env'⟩
      · rw [hended] at hrest
        obtain ⟨_, hnil⟩ := List.append_eq_nil_iff.1 hrest.symm
        cases hnil
      · rw [hended] at hrest
        cases given with
        | proceed acc' => exact ih env' acc' down' hrest
        | complete | fail | alternate =>
          obtain ⟨_, hnil⟩ := List.append_eq_nil_iff.1 hrest.symm
          cases hnil

theorem threaded_visits (emission : Emission σ ι B (Verdict X Unit)) (acc : S) (down : κ) :
    Visit.Threaded context acc (emission.visits sink context acc down) := by
  induction emission generalizing acc down with
  | ended e => trivial
  | emit value state env rest ih =>
    simp only [visits]
    rcases sink context acc value down env with ⟨_ | verdict, down', env'⟩
    · exact ⟨rfl, rfl, .inl rfl⟩
    · cases verdict with
      | proceed acc' => exact ⟨rfl, rfl, .inr ⟨acc', rfl, ih env' acc' down'⟩⟩
      | complete | fail | alternate => exact ⟨rfl, rfl, .inl rfl⟩

/-- A verdict with an accumulator has the one that the last call returned. -/
theorem acc_play (emission : Emission σ ι B (Verdict X Unit)) (acc : S) (down : κ)
    {verdict : Verdict X S} {final : S}
    (hresult : (emission.play sink context acc down).result = .ok verdict)
    (hfinal : verdict.acc? = some final) :
    Visit.lastAcc? acc (emission.visits sink context acc down) = some final := by
  induction emission generalizing acc down with
  | ended e =>
    rcases e with ⟨_ | given, state, env⟩
    · cases hresult
    · obtain rfl : given.map (fun _ => acc) = verdict := Except.ok.inj hresult
      cases given with
      | proceed | complete => exact hfinal
      | fail | alternate => cases hfinal
  | emit value state env rest ih =>
    simp only [play] at hresult
    simp only [visits]
    rcases hended : sink context acc value down env with ⟨_ | given, down', env'⟩
    · rw [hended] at hresult
      cases hresult
    · rw [hended] at hresult
      cases given with
      | complete | fail | alternate =>
        obtain rfl := Except.ok.inj hresult
        exact hfinal
      | proceed acc' =>
        have hlast := ih env' acc' down' hresult
        simp only [Visit.lastAcc?, List.getLast?_cons] at hlast ⊢
        cases hvisits : ((rest env').visits sink context acc' down').getLast? with
        | none =>
          rw [hvisits] at hlast
          exact hlast
        | some last =>
          rw [hvisits] at hlast
          exact hlast

end Emission

/-! ### The calls that a stage makes -/

namespace Stage

variable (fuel : Nat) (stage : Stage σ X A B) (sink : Sink σ X κ S B) (context : Context) (acc : S)
  (a : A) (state : stage.State × κ) (env : Env σ)

/-- A stage does the same whether or not its sink keeps a log. -/
theorem run_eq_forget_logged (log : List (Visit σ X κ S B)) :
    stage.run fuel sink context acc a state env =
      let logged := stage.run fuel sink.logged context acc a (state.1, log, state.2) env
      ⟨logged.result, (logged.state.1, logged.state.2.2), logged.env⟩ := by
  simp only [run_eq_perform, Emitter.perform]
  refine Emission.play_natural Prod.snd ?_ _ acc (log, state.2)
  intro acc value down env
  rfl

theorem visits_eq_visits_emission : stage.visits fuel sink context acc a state env =
    (stage.emission fuel context a state.1 env).visits sink context acc state.2 := by
  rw [visits, run_eq_perform, Emitter.perform, Emission.log_play_logged, List.append_nil,
    List.reverse_reverse]

/-- A call that ended the run is the last one. The verdict of the run is the verdict of that call,
and the surroundings stay as that call left them: nothing else runs, waits or is opened after it. -/
theorem run_of_terminal_visit {earlier later : List (Visit σ X κ S B)} {visit : Visit σ X κ S B}
    {verdict : Verdict X S}
    (hvisits : stage.visits fuel sink context acc a state env = earlier ++ visit :: later)
    (hresult : visit.ended.result = .ok verdict) (hterminal : verdict.isTerminal = true) :
    later = [] ∧
      let ended := stage.run fuel sink context acc a state env
      ended.result = .ok verdict ∧ ended.state.2 = visit.ended.state ∧
        ended.env = visit.ended.env := by
  rw [visits_eq_visits_emission] at hvisits
  rw [run_eq_perform]
  exact Emission.play_of_terminal sink context _ acc state.2 hvisits hresult hterminal

/-- A sink that fails on the second of three numbers: the second alternative is not tried. -/
theorem run_choice_of_failing_sink :
    let stage : Stage Unit Empty (List Nat) Nat := compose each (choice identity (constant 0))
    let sink : Sink Unit Empty Unit Nat Nat := fun _ sum n =>
      pure (if n = 2 then .fail .bottom else .proceed (sum + n))
    let context : Context := ⟨.root (.ofNat 0), ⟨0⟩, none⟩
    let env : Env Unit := .start () .fresh ⟨id, 0⟩
    let first := env.record .handed
    let second := first.record .handed
    stage.visits 1 sink context 0 [1, 2, 3] (stage.init, ()) env =
        [⟨context, 0, 1, ⟨.ok (.proceed 1), (), first⟩⟩] ++
          ⟨context, 1, 2, ⟨.ok (.fail .bottom), (), second⟩⟩ :: [] ∧
      (stage.run 1 sink context 0 [1, 2, 3] (stage.init, ()) env).result = .ok (.fail .bottom) := by
  intro stage sink context env first second
  have hvisits : stage.visits 1 sink context 0 [1, 2, 3] (stage.init, ()) env =
      [⟨context, 0, 1, ⟨.ok (.proceed 1), (), first⟩⟩] ++
        ⟨context, 1, 2, ⟨.ok (.fail .bottom), (), second⟩⟩ :: [] := rfl
  exact ⟨hvisits, (run_of_terminal_visit 1 stage sink context 0 [1, 2, 3] (stage.init, ()) env
    hvisits rfl rfl).2.1⟩

/-- The first call is given the accumulator of the stage, each later one what the call before it
returned, and all of them the context of the stage. If the stage returns an accumulator, it is what
the last call returned, or the one of the stage if there was no call. -/
theorem visits_threaded :
    Visit.Threaded context acc (stage.visits fuel sink context acc a state env) ∧
      ∀ verdict final, (stage.run fuel sink context acc a state env).result = .ok verdict →
        verdict.acc? = some final →
          Visit.lastAcc? acc (stage.visits fuel sink context acc a state env) = some final := by
  rw [visits_eq_visits_emission, run_eq_perform]
  refine ⟨Emission.threaded_visits sink context _ acc state.2, ?_⟩
  intro verdict final hresult hfinal
  exact Emission.acc_play sink context _ acc state.2 hresult hfinal

/-- The first alternative fails on each of three numbers, and the second one passes them on: the sum
goes through the failures unharmed. -/
theorem visits_threaded_choice :
    let stage : Stage Unit Empty (List Nat) Nat := compose each (choice (reject fun _ user =>
      ⟨.ok .bottom, user, []⟩) identity)
    let sink : Sink Unit Empty Unit Nat Nat := fun _ sum n => pure (.proceed (sum + n))
    let context : Context := ⟨.root (.ofNat 0), ⟨0⟩, none⟩
    let env : Env Unit := .start () .fresh ⟨id, 0⟩
    (stage.run 1 sink context 0 [1, 2, 3] (stage.init, ()) env).result = .ok (.proceed 6) ∧
      Visit.lastAcc? 0 (stage.visits 1 sink context 0 [1, 2, 3] (stage.init, ()) env) = some 6 := by
  intro stage sink context env
  have hresult : (stage.run 1 sink context 0 [1, 2, 3] (stage.init, ()) env).result =
      .ok (.proceed 6) := rfl
  exact ⟨hresult, (visits_threaded 1 stage sink context 0 [1, 2, 3] (stage.init, ()) env).2 _ _
    hresult rfl⟩

end Stage

end Transduction
