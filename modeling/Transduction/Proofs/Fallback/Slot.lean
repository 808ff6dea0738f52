import Transduction.Proofs.Emission.Stages

/-!
# The slot of two alternatives

While the first of two alternatives runs, the accumulator lives in a slot that belongs to the
instance. Whoever uses the accumulator takes it out of the slot and has to put something back. If
foreign code panics meanwhile, the slot stays empty, and the next value finds it so. An instance
with such a slot does the same as one that parks the accumulator anew for each value, whatever is
left in the slot, and it never misses the accumulator.

## Main definitions

* `Slot`: what is in the slot.
* `Slot.relay`: the sink of the first alternative, which feeds the common sink from the slot.
* `Stage.slottedChoice`: the sink for inputs of an instance with a slot.
* `Sink.drive`: values fed to one instance, whether or not the run of an earlier one broke off.

## Main results

* `Stage.slot_ne_empty`: the accumulator is never missing.
* `Stage.slottedChoice_eq_run`: one value, whatever is in the slot.
* `Stage.drive_slottedChoice`: any number of values.
-/

namespace Transduction

variable {σ X ι κ S A B : Type}

/-- What is in the slot of two alternatives. -/
inductive Slot (X S : Type) where
  /-- The accumulator was taken out. -/
  | empty
  | holding (acc : S)
  /-- The run was stopped downstream. -/
  | stopped (verdict : Verdict X S)

/-- The slot with what is parked in it. -/
def Parked.slot : Parked X S → Slot X S
  | holding acc => .holding acc
  | stopped verdict => .stopped verdict

/-- The sink of the first of two alternatives. It takes the accumulator out of the slot, puts back
what the common sink makes of it, and feeds nothing more once there is no accumulator. -/
def Slot.relay (sink : Sink σ X κ S B) : Sink σ X (Slot X S × κ) Unit B := fun context _ value => do
  let taken ← Sink.own
  Sink.setOwn .empty
  match taken with
  | .holding acc =>
    match ← Sink.below (sink context acc value) with
    | .proceed acc =>
      Sink.setOwn (.holding acc)
      return .proceed ()
    | verdict =>
      Sink.setOwn (.stopped verdict)
      return .complete ()
  | other =>
    Sink.setOwn other
    return .complete ()

/-- What follows from the outcome of the first of two alternatives and from what it left in the
slot. -/
def Slot.settle {ι : Type} (outcome : Verdict X Unit) (taken : Slot X S)
    (second : S → Step σ ι (Verdict X S)) : Step σ ι (Verdict X S) :=
  match taken, outcome with
  | .stopped verdict, _ => pure verdict
  | .empty, _ => pure (.fail (.message "choice lost its accumulator"))
  | .holding acc, .proceed _ => pure (.proceed acc)
  | .holding acc, .complete _ => pure (.complete acc)
  | .holding _, .alternate value => pure (.alternate value)
  | .holding acc, .fail _ => second acc

/-- The sink for the inputs of two alternatives with a slot of their own, which keeps what is left
in it from one value to the next. -/
def Stage.slottedChoice (fuel : Nat) (first second : Stage σ X A B) (sink : Sink σ X κ S B) :
    Sink σ X (Slot X S × (choice first second).State × κ) S A :=
  let trying := first.run fuel (Slot.relay sink)
  let fallback := second.run fuel sink
  fun context acc a => do
    Sink.setOwn (.holding acc)
    let outcome ← Step.zoom (fun state => (state.2.1.1, (state.1, state.2.2)))
      (fun old state => (state.2.1, ((state.1, old.2.1.2), state.2.2))) (trying context () a)
    let taken ← Sink.own
    Sink.setOwn .empty
    Slot.settle outcome taken fun acc =>
      Step.zoom (fun state => (state.2.1.2, state.2.2))
        (fun old state => (old.1, ((old.2.1.1, state.1), state.2))) (fallback context acc a)

/-- Values fed to one instance, each with a context and an accumulator of its own and after whatever
else happens to the surroundings. An instance is fed the next value also if the run of an earlier
one failed or broke off. The verdicts are listed in order. -/
def Sink.drive (sink : Sink σ X κ S A) :
    List ((Env σ → Env σ) × Context × S × A) → κ → Env σ →
      List (Except Halt (Verdict X S)) × κ × Env σ
  | [], state, env => ([], state, env)
  | (meanwhile, context, acc, a) :: rest, state, env =>
    let ended := sink context acc a state (meanwhile env)
    let (results, last) := drive sink rest ended.state ended.env
    (ended.result :: results, last)

/-! ### One value -/

/-- What is emitted into the two relays. They leave the same behind, except that the slot may be
empty after foreign code panicked. -/
theorem Emission.play_relay_slot (sink : Sink σ X κ S B) (context : Context)
    (emission : Emission σ ι B (Verdict X Unit)) (acc : S) (down : κ) :
    let parked := emission.play (relay sink) context () (.holding acc, down)
    ∃ slot, emission.play (Slot.relay sink) context () (.holding acc, down) =
        ⟨parked.result, (parked.state.1, slot, parked.state.2.2), parked.env⟩ ∧
      ∀ outcome, parked.result = .ok outcome → slot = parked.state.2.1.slot := by
  induction emission generalizing acc down with
  | ended e => exact ⟨.holding acc, rfl, fun _ _ => rfl⟩
  | emit value state env rest ih =>
    simp only [play, relay, Slot.relay, Step.bind_apply, Sink.own, Sink.setOwn, Sink.below,
      Step.zoom]
    rcases sink context acc value down env with ⟨_ | verdict, down', env'⟩
    · exact ⟨.empty, rfl, fun _ h => by cases h⟩
    · cases verdict with
      | proceed acc' => exact ih env' acc' down'
      | complete acc' => exact ⟨.stopped (.complete acc'), rfl, fun _ _ => rfl⟩
      | fail failure => exact ⟨.stopped (.fail failure), rfl, fun _ _ => rfl⟩
      | alternate value => exact ⟨.stopped (.alternate value), rfl, fun _ _ => rfl⟩

namespace Stage

variable (fuel : Nat) (first second : Stage σ X A B) (sink : Sink σ X κ S B)

theorem run_relay_slot (stage : Stage σ X A B) (context : Context) (acc : S) (a : A)
    (mine : stage.State) (down : κ) (env : Env σ) :
    let parked := stage.run fuel (relay sink) context () a (mine, .holding acc, down) env
    ∃ slot, stage.run fuel (Slot.relay sink) context () a (mine, .holding acc, down) env =
        ⟨parked.result, (parked.state.1, slot, parked.state.2.2), parked.env⟩ ∧
      ∀ outcome, parked.result = .ok outcome → slot = parked.state.2.1.slot := by
  simp only [run_eq_perform]
  exact Emission.play_relay_slot sink context _ acc down

/-- The first alternative never returns a verdict without putting something back into the slot. -/
theorem slot_ne_empty (stage : Stage σ X A B) (context : Context) (acc : S) (a : A)
    (mine : stage.State) (down : κ) (env : Env σ) {outcome : Verdict X Unit}
    (h : (stage.run fuel (Slot.relay sink) context () a (mine, .holding acc, down) env).result
      = .ok outcome) :
    (stage.run fuel (Slot.relay sink) context () a (mine, .holding acc, down) env).state.2.1
      ≠ .empty := by
  obtain ⟨slot, hslotted, hslot⟩ := run_relay_slot fuel sink stage context acc a mine down env
  rw [hslotted] at h ⊢
  rw [hslot outcome h]
  cases (stage.run fuel (relay sink) context () a (mine, .holding acc, down) env).state.2.1 with
  | holding | stopped =>
    intro hempty
    cases hempty

/-- Two alternatives with a slot do the same as two alternatives, whatever is left in the slot. -/
theorem slottedChoice_eq_run (context : Context) (acc : S) (a : A) (slot : Slot X S)
    (state : (choice first second).State × κ) (env : Env σ) :
    let ended := (choice first second).run fuel sink context acc a state env
    ∃ left, first.slottedChoice fuel second sink context acc a (slot, state) env =
      ⟨ended.result, (left, ended.state), ended.env⟩ := by
  obtain ⟨left, hslotted, hleft⟩ :=
    run_relay_slot fuel sink first context acc a state.1.1 state.2 env
  simp only [slottedChoice, run_choice, Step.bind_apply, Sink.setOwn, Sink.own, Step.zoom,
    Step.within, hslotted]
  generalize first.run fuel (relay sink) context () a (state.1.1, .holding acc, state.2) env = ended
    at hleft
  rcases ended with ⟨_ | outcome, ⟨mine, parked, down⟩, env'⟩
  · exact ⟨left, rfl⟩
  · obtain rfl := hleft outcome rfl
    refine ⟨.empty, ?_⟩
    cases parked with
    | stopped verdict => cases outcome <;> rfl
    | holding acc' => cases outcome <;> rfl

/-- The same for any number of values, each of which finds in the slot what the one before it left
there. -/
theorem drive_slottedChoice (turns : List ((Env σ → Env σ) × Context × S × A)) (slot : Slot X S)
    (state : (choice first second).State × κ) (env : Env σ) :
    let driven := Sink.drive ((choice first second).run fuel sink) turns state env
    ∃ left, Sink.drive (first.slottedChoice fuel second sink) turns (slot, state) env =
      (driven.1, (left, driven.2.1), driven.2.2) := by
  induction turns generalizing slot state env with
  | nil => exact ⟨slot, rfl⟩
  | cons turn rest ih =>
    obtain ⟨meanwhile, context, acc, a⟩ := turn
    obtain ⟨left, hturn⟩ :=
      slottedChoice_eq_run fuel first second sink context acc a slot state (meanwhile env)
    obtain ⟨last, hrest⟩ := ih left
      ((choice first second).run fuel sink context acc a state (meanwhile env)).state
      ((choice first second).run fuel sink context acc a state (meanwhile env)).env
    refine ⟨last, ?_⟩
    simp only [Sink.drive, hturn, hrest]

end Stage

end Transduction
