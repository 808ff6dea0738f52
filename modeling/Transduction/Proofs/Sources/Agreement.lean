import Transduction.Proofs.Emission.Visits
import Transduction.Stage.Derived

/-!
# The three sources on one list

A list can be handed over as it is, as a feed of its items, or as a feed of its items read as
results. The three sources look for a reason to stop at the same places, before each item; those
that read a feed do so once more when it is over, since they cannot know that nothing follows before
they have asked for it. So the same values are delivered in the same order, and the outcomes differ
in one case only: all items were delivered, the sink asks for more, and the run has to stop by then.

## Main definitions

* `Ended.checked`: an outcome that is looked at once more before the run goes on.

## Main results

* `drainFeed_eq_checked_feed`: a feed that is over after its items, against their list.
* `Stage.sources_agree`: the three sources in front of any stage and any sink.
* `Stage.sources_differ_at_end`: a run that is cancelled while the last item is processed.
-/

namespace Transduction

variable {σ X ι κ S A B C : Type}

/-- A run that would go on is checked for a reason to stop once more. -/
def Ended.checked (ended : Ended σ κ (Verdict X S)) (context : Context) :
    Ended σ κ (Verdict X S) :=
  match ended with
  | ⟨.ok (.proceed acc), state, env⟩ =>
    match env.interruption? context with
    | some failure => ⟨.ok (.fail failure), state, env.record (.stopped failure)⟩
    | none => ⟨.ok (.proceed acc), state, env⟩
  | ended => ended

namespace Ended

variable {ended : Ended σ κ (Verdict X S)} {context : Context}

theorem checked_of_interrupted {acc : S} {failure : Failure}
    (hresult : ended.result = .ok (.proceed acc))
    (hstop : ended.env.interruption? context = some failure) :
    ended.checked context =
      ⟨.ok (.fail failure), ended.state, ended.env.record (.stopped failure)⟩ := by
  rcases ended with ⟨result, state, env⟩
  cases hresult
  simp only [checked, hstop]

/-- The check leaves the states of the stages alone. -/
theorem checked_mapState (f : κ → ι) :
    (⟨ended.result, f ended.state, ended.env⟩ : Ended σ ι (Verdict X S)).checked context =
      let checked := ended.checked context
      ⟨checked.result, f checked.state, checked.env⟩ := by
  rcases ended with ⟨_ | verdict, state, env⟩
  · rfl
  · cases verdict with
    | complete | fail | alternate => rfl
    | proceed acc =>
      simp only [checked]
      cases env.interruption? context <;> rfl

@[simp] theorem state_checked : (ended.checked context).state = ended.state := by
  rcases ended with ⟨_ | verdict, state, env⟩
  · rfl
  · cases verdict with
    | complete | fail | alternate => rfl
    | proceed acc =>
      simp only [checked]
      cases env.interruption? context <;> rfl

/-- Nothing changes if the run has ended anyway or need not stop. -/
theorem checked_of_settled (h : (∀ acc, ended.result ≠ .ok (.proceed acc)) ∨
    ended.env.interruption? context = none) : ended.checked context = ended := by
  rcases ended with ⟨_ | verdict, state, env⟩
  · rfl
  · cases verdict with
    | complete | fail | alternate => rfl
    | proceed acc =>
      have hgo : env.interruption? context = none := h.resolve_left fun hnot => hnot acc rfl
      simp only [checked, hgo]

end Ended

/-- Reading a feed that is over after its items is handing over their list, with a check at the
end. -/
theorem drainFeed_eq_checked_feed (sink : Sink σ X κ S B) {lift : A → Except Failure B} {f : B → A}
    (hlift : ∀ b, lift (f b) = .ok b) (context : Context) (items : List B) (acc : S) (state : κ)
    (env : Env σ) : drainFeed sink lift context .over (items.map f) acc state env =
      (feed sink context items acc state env).checked context := by
  induction items generalizing acc state env with
  | nil => rfl
  | cons item rest ih =>
    simp only [List.map_cons, drainFeed, feed, hlift]
    cases env.interruption? context with
    | some failure => rfl
    | none =>
      simp only
      rcases sink context acc item state (env.record .handed) with ⟨_ | verdict, state', env'⟩
      · rfl
      · cases verdict with
        | proceed acc' => exact ih acc' state' env'
        | complete | fail | alternate => rfl

namespace Stage

section Sources

variable (fuel : Nat) (sink : Sink σ X κ S A) (context : Context) (acc : S) (items : List A)
  (state : Unit × κ) (env : Env σ) {lift : B → Except Failure A} {f : A → B}

/-- A source that reads a feed of the items of a list, against the source that is given the list. -/
theorem run_drain_eq_checked_run_each (hlift : ∀ a, lift (f a) = .ok a) :
    (drain lift).run fuel sink context acc (.ofList (items.map f)) state env =
      (each.run fuel sink context acc items state env).checked context := by
  have hfeed := drainFeed_eq_checked_feed sink hlift context items acc state.2 env
  refine Eq.trans ?_ (Ended.checked_mapState fun down => (state.1, down)).symm
  exact congrArg (fun ended => Ended.mk ended.result (state.1, ended.state) ended.env) hfeed

/-- Both sources call their sink in the same way: the check at the end calls nothing. -/
theorem visits_drain_eq_visits_each (hlift : ∀ a, lift (f a) = .ok a) :
    (drain lift).visits fuel sink context acc (.ofList (items.map f)) state env =
      each.visits fuel sink context acc items state env := by
  have hrun := run_drain_eq_checked_run_each fuel sink.logged context acc items
    (state.1, [], state.2) env hlift
  have hstate := congrArg Ended.state hrun
  rw [Ended.state_checked] at hstate
  exact congrArg (fun state => state.2.1.reverse) hstate

end Sources

/-- The same with a stage behind the sources. -/
theorem run_compose_drain_eq_checked (fuel : Nat) (down : Stage σ X A C) (sink : Sink σ X κ S C)
    (context : Context) (acc : S) (items : List A) (mine : down.State) (rest : κ) (env : Env σ)
    {lift : B → Except Failure A} {f : A → B} (hlift : ∀ a, lift (f a) = .ok a) :
    (compose (drain lift) down).run fuel sink context acc (.ofList (items.map f))
        (((), mine), rest) env =
      ((compose each down).run fuel sink context acc items (((), mine), rest) env).checked
        context := by
  have hrun := run_drain_eq_checked_run_each fuel (down.run fuel sink) context acc items
    ((), mine, rest) env hlift
  refine Eq.trans ?_ (Ended.checked_mapState fun state : Unit × down.State × κ =>
    ((state.1, state.2.1), state.2.2)).symm
  exact congrArg (fun ended => Ended.mk ended.result
    ((ended.state.1, ended.state.2.1), ended.state.2.2) ended.env) hrun

/-- A list, a feed of its items and a feed of its items as results deliver the same values in the
same order to any stage and any sink behind them. The two feeds have the same outcome. The list has
it too, unless all items have been delivered, the sink asks for more, and the run has to stop by
then: in that case the list goes on and the feeds fail. -/
theorem sources_agree (fuel : Nat) (down : Stage σ X A C) (sink : Sink σ X κ S C)
    (context : Context) (acc : S) (items : List A) (mine : down.State) (rest : κ) (env : Env σ) :
    let next := down.run fuel sink
    let fromList := (compose each down).run fuel sink context acc items (((), mine), rest) env
    let fromFeed :=
      (compose stream down).run fuel sink context acc (.ofList items) (((), mine), rest) env
    let fromResults := (compose observe down).run fuel sink context acc
      (.ofList (items.map .ok)) (((), mine), rest) env
    let delivered := each.visits fuel next context acc items ((), mine, rest) env
    (stream.visits fuel next context acc (.ofList items) ((), mine, rest) env = delivered ∧
      observe.visits fuel next context acc (.ofList (items.map .ok)) ((), mine, rest) env =
        delivered) ∧
    fromResults = fromFeed ∧
    ((∀ final, fromList.result ≠ .ok (.proceed final)) ∨
        fromList.env.interruption? context = none → fromFeed = fromList) ∧
    ∀ final failure, fromList.result = .ok (.proceed final) →
      fromList.env.interruption? context = some failure →
        fromFeed =
          ⟨.ok (.fail failure), fromList.state, fromList.env.record (.stopped failure)⟩ := by
  intro next fromList fromFeed fromResults delivered
  have hread : ∀ a : A, (Except.ok (id a) : Except Failure A) = .ok a := fun _ => rfl
  have hresult : ∀ a : A, id (Except.ok a : Except Failure A) = .ok a := fun _ => rfl
  have hchecked : fromFeed = fromList.checked context := by
    have hfeed := run_compose_drain_eq_checked fuel down sink context acc items mine rest env hread
    rw [List.map_id] at hfeed
    exact hfeed
  have hvisits := visits_drain_eq_visits_each fuel next context acc items ((), mine, rest) env hread
  rw [List.map_id] at hvisits
  refine ⟨⟨hvisits,
    visits_drain_eq_visits_each fuel next context acc items ((), mine, rest) env hresult⟩,
    (run_compose_drain_eq_checked fuel down sink context acc items mine rest env hresult).trans
      hchecked.symm, fun hsettled => ?_, fun final failure hfinal hstop => ?_⟩
  · exact hchecked.trans (Ended.checked_of_settled hsettled)
  · exact hchecked.trans (Ended.checked_of_interrupted hfinal hstop)

/-- The last of two numbers cancels the run. Both are delivered by a list and by a feed; the run
over the list goes on with them, the run over the feed fails. -/
theorem sources_differ_at_end :
    let down : Stage Unit Empty Nat Nat := inspect fun n user =>
      ⟨.ok (), user, if n = 2 then [.cancel "enough"] else []⟩
    let context : Context := ⟨.root (.ofNat 0), ⟨0⟩, none⟩
    let env : Env Unit := .start () .fresh ⟨id, 0⟩
    ((compose each down).run 1 Sink.all context #[] [1, 2] (((), ()), ()) env).result =
        .ok (.proceed #[1, 2]) ∧
      ((compose stream down).run 1 Sink.all context #[] (.ofList [1, 2]) (((), ()), ())
          env).result = .ok (.fail (.cancelled "enough")) :=
  ⟨rfl, rfl⟩

end Stage

end Transduction
