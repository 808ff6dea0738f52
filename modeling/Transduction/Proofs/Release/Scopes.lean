import Transduction.Proofs.Release.Nesting
import Transduction.Blueprint.Value

/-!
# What a scope does around it

A stage that runs another one in a scope of its own does so before anything else happens. When it
goes on, and also when it ends because the inner stage failed, ended on an alternate or broke off,
every resource that the inner stage opened was released once, and the registries around the scope
hold what they held before. A resource from outside the scope is not registered inside it, so a
release stage there passes it on and leaves it alone.

## Main definitions

* `Env.Isolated`: what a scope may have changed.
* `Ended.Leaves`: how a stage goes on after a scope.

## Main results

* `Env.Passage.isolated`: the end of a scope.
* `Stage.leaves_inScope`: what follows a scope, for the stages with a scope.
* `Stage.run_release_of_not_contains`: a release stage in a scope, on a resource from outside.
* `Stage.scopes_isolate`: scopes on any value, and the order of releases in whole runs.
-/

namespace Transduction

variable {σ X ι κ S A B C : Type} {before ended after env : Env σ}

namespace Env

/-- What a scope may have changed when it is over, from the surroundings before it and those in
which its inner stage ended: every resource that was opened in it was released once, and the
registries hold what they held before, none of which was released. -/
structure Isolated (before ended after : Env σ) : Prop where
  opened : ∀ handle : Handle, before.handles ≤ handle.index → handle.index < ended.handles →
    after.disposals handle = 1
  entries : after.store.entries = before.store.entries
  disposals : ∀ handle : Handle, handle.index < before.handles →
    after.disposals handle = before.disposals handle

/-- A run registers no resource that was opened before. -/
theorem Passage.registrations_of_lt {registry : RegistryId} (h : Passage registry before after)
    {handle : Handle} (hold : handle.index < before.handles) :
    after.registrations handle.anywhere = before.registrations handle.anywhere := by
  have hcount := h.registrations handle
  rw [if_pos hold, if_pos (Nat.lt_of_lt_of_le hold h.handles_le)] at hcount
  exact Nat.add_right_cancel hcount

/-- The end of a scope releases what is left of the resources that were opened in it. -/
theorem Passage.isolated (henv : env.Formed) (context : Context)
    (h : Passage (env.nestedContext context).1.registry (env.nestedContext context).2 ended) :
    env.Isolated ended ((ended.clean (env.nestedContext context).1.registry).2.dropRegistry
      (env.nestedContext context).1.registry) := by
  obtain ⟨hclosed, hbalanced, hentries⟩ := h.close henv context
  have hbalance (handle : Handle) : ended.registrations handle.anywhere =
      ((ended.clean (env.nestedContext context).1.registry).2.dropRegistry
        (env.nestedContext context).1.registry).disposals handle + env.held handle.anywhere := by
    have hheld := hbalanced handle.anywhere
    rw [hclosed.registrations, held, hentries] at hheld
    exact hheld
  refine ⟨fun handle hnew hopened => ?_, hentries, fun handle hold => ?_⟩
  · have hregistered : ended.registrations handle.anywhere = 1 := by
      have hcount := h.registrations handle
      have hunused : (env.nestedContext context).2.registrations handle.anywhere = 0 :=
        henv.unused handle hnew
      have hnested : ¬handle.index < (env.nestedContext context).2.handles := Nat.not_lt.2 hnew
      rw [if_neg hnested, if_pos hopened, hunused] at hcount
      exact hcount
    have hnone := henv.held_of_le hnew
    have hcount := hbalance handle
    omega
  · have hregistered : ended.registrations handle.anywhere = env.registrations handle.anywhere :=
      h.registrations_of_lt hold
    have hbefore : env.registrations handle.anywhere =
      env.disposals handle + env.held handle.anywhere := henv.balanced handle.anywhere
    have hcount := hbalance handle
    omega

/-- A resource that was opened before a scope is not registered in it. -/
theorem Course.not_contains_of_lt (henv : env.Formed) (context : Context)
    (h : Course Disposal.IsQuiet (env.nestedContext context).1.registry
      (env.nestedContext context).2 ended) {handle : Handle} (hold : handle.index < env.handles) :
    ¬ended.store.contains (env.nestedContext context).1.registry handle = true := by
  have hready := (henv.nestedContext context).1
  have hpassage := h.passage hready
  obtain ⟨later, hhistory, -⟩ := h.nests hready
  have hreleases : env.releases handle.anywhere ≤ ended.releases handle.anywhere := by
    rw [releases, releases, hhistory, List.countP_append]
    exact Nat.le_add_left _ _
  have hregistered : ended.registrations handle.anywhere = env.registrations handle.anywhere :=
    hpassage.registrations_of_lt hold
  -- All registrations of the resource are accounted for outside the scope.
  have hheld := ended.held_anywhere (env.nestedContext context).1.registry handle
  rw [hpassage.elsewhere, (henv.nestedContext context).2] at hheld
  have hbefore : env.registrations handle.anywhere =
    env.releases handle.anywhere + env.held handle.anywhere := henv.balanced handle.anywhere
  have hafter : ended.registrations handle.anywhere =
    ended.releases handle.anywhere + ended.held handle.anywhere :=
      hpassage.ready.balanced handle.anywhere
  have hwithin := hpassage.ready.held_within (env.nestedContext context).1.registry handle
  intro hcontains
  rw [if_pos hcontains] at hwithin
  rw [hwithin] at hheld
  change _ = 1 + env.held handle.anywhere at hheld
  omega

end Env

/-- How a stage goes on after a scope: it calls its sink with a value from the scope, or it ends
without a verdict that has an accumulator. -/
inductive Ended.Leaves (sink : Sink σ X κ S B) (context : Context) (acc : S) (mine : ι) (down : κ)
    (after : Env σ) : Ended σ (ι × κ) (Verdict X S) → Prop
  | delivers (b : B) :
    Leaves sink context acc mine down after (Sink.below (sink context acc b) (mine, down) after)
  | ends {result : Except Halt (Verdict X S)}
      (h : ∀ verdict, result = .ok verdict → verdict.acc? = none) :
    Leaves sink context acc mine down after ⟨result, (mine, down), after⟩

namespace Stage

variable (fuel : Nat) (inner : Stage σ X A B) (context : Context) (acc : S) (a : A)
  (mine : inner.State) (down : κ) (env : Env σ)

/-- A stage in a scope, with whatever is done with its verdict when the scope is over. -/
theorem leaves_inScope {D : Type} (sink : Sink σ X κ S D) (collecting : Sink σ X Unit C B)
    (seed : C) {next : Verdict X C → Step σ (inner.State × κ) (Verdict X S)}
    (hnext : ∀ outcome mine env,
      (next outcome (mine, down) env).Leaves sink context acc mine down env) :
    let nested := env.nestedContext context
    let ended := inner.run fuel collecting nested.1 seed a (mine, ()) nested.2
    let after := (ended.env.clean nested.1.registry).2.dropRegistry nested.1.registry
    let scopedStep : Step σ (inner.State × κ) (Verdict X C) :=
      .zoom (fun state => (state.1, ())) (fun old state => (state.1, old.2))
        (inScope context fun nested => inner.run fuel collecting nested seed a)
    ((scopedStep >>= next) (mine, down) env).Leaves sink context acc ended.state.1 down after := by
  intro nested ended after scopedStep
  have hscope : scopedStep (mine, down) env = ⟨ended.result, (ended.state.1, down), after⟩ := rfl
  cases hresult : ended.result with
  | error halt =>
    rw [hresult] at hscope
    rw [Step.bind_of_error hscope]
    exact .ends fun _ hverdict => by cases hverdict
  | ok outcome =>
    rw [hresult] at hscope
    rw [Step.bind_of_ok hscope]
    exact hnext outcome _ _

theorem leaves_scope (sink : Sink σ X κ S B) :
    let nested := env.nestedContext context
    let ended := inner.run fuel Sink.first nested.1 none a (mine, ()) nested.2
    let after := (ended.env.clean nested.1.registry).2.dropRegistry nested.1.registry
    ((scope inner).run fuel sink context acc a (mine, down) env).Leaves sink context acc
      ended.state.1 down after := by
  refine leaves_inScope fuel inner context acc a mine down env sink Sink.first none
    fun outcome mine env => ?_
  rcases outcome with (_ | b) | (_ | b) | failure | value
  · exact .ends fun _ hverdict => by cases hverdict; rfl
  · exact .delivers b
  · exact .ends fun _ hverdict => by cases hverdict; rfl
  · exact .delivers b
  all_goals exact .ends fun _ hverdict => by cases hverdict; rfl

theorem leaves_scopeMany (sink : Sink σ X κ S (List B)) :
    let nested := env.nestedContext context
    let ended := inner.run fuel Sink.all nested.1 #[] a (mine, ()) nested.2
    let after := (ended.env.clean nested.1.registry).2.dropRegistry nested.1.registry
    ((scopeMany inner).run fuel sink context acc a (mine, down) env).Leaves sink context acc
      ended.state.1 down after := by
  refine leaves_inScope fuel inner context acc a mine down env sink Sink.all #[]
    fun outcome mine env => ?_
  cases outcome with
  | proceed values | complete values => exact .delivers values.toList
  | fail | alternate => exact .ends fun _ hverdict => by cases hverdict; rfl

variable {inner env}

/-- A release stage passes on a resource that is not registered in its registry. -/
theorem run_release_of_not_contains {handle? : A → Option Handle} {handle : Handle}
    (hhandle : handle? a = some handle)
    (h : ¬env.store.contains context.registry handle = true) (sink : Sink σ X κ S A)
    (state : (release handle? : Stage σ X A A).State × κ) :
    (release handle?).run fuel sink context acc a state env =
      Sink.below (sink context acc a) state env := by
  have hrelease : (env.release context.registry handle).2 = env := by
    rw [Env.release, Store.remove_of_not_contains h]
  have hupdate : (Step.update fun env => (env.release context.registry handle).2 : Step σ _ Unit)
      state env = ⟨.ok (), state, env⟩ := congrArg (Ended.mk _ state) hrelease
  rw [run_release, hhandle]
  exact Step.bind_of_ok hupdate _

theorem isolated_inScope (henv : env.Formed) (hinner : inner.Disposes Disposal.IsQuiet)
    {sink : Sink σ X Unit C B} (hsink : sink.Follows Disposal.IsQuiet) (seed : C) :
    let nested := env.nestedContext context
    let ended := inner.run fuel sink nested.1 seed a (mine, ()) nested.2
    env.Isolated ended.env
      ((ended.env.clean nested.1.registry).2.dropRegistry nested.1.registry) := by
  intro nested ended
  have hcourse := inner.follows_run fuel hinner hsink nested.1 seed a (mine, ()) nested.2
  exact (hcourse.passage (henv.nestedContext context).1).isolated henv context

/-- By the time a stage with a scope calls its sink or ends, every resource that was opened in the
scope was released once, and the registries hold what they held before. A release stage inside the
scope, whatever the run did there until then, passes a resource from outside on and leaves it alone.
In a whole run every release, also one at the end of a scope or of the run, comes after the releases
of all that was registered in scopes opened later. -/
theorem scopes_isolate [TypeNamed X] (stage : Stage σ X A B)
    (hstage : stage.Disposes Disposal.IsQuiet) (henv : env.Formed) (mine : stage.State)
    (first : Sink σ X κ S B) (all : Sink σ X κ S (List B)) :
    let nested := env.nestedContext context
    let close (env : Env σ) := (env.clean nested.1.registry).2.dropRegistry nested.1.registry
    let one := stage.run fuel Sink.first nested.1 none a (mine, ()) nested.2
    let many := stage.run fuel Sink.all nested.1 #[] a (mine, ()) nested.2
    (env.Isolated one.env (close one.env) ∧
      ((scope stage).run fuel first context acc a (mine, down) env).Leaves first context acc
        one.state.1 down (close one.env)) ∧
    (env.Isolated many.env (close many.env) ∧
      ((scopeMany stage).run fuel all context acc a (mine, down) env).Leaves all context acc
        many.state.1 down (close many.env)) ∧
    (∀ inside, Env.Course Disposal.IsQuiet nested.1.registry nested.2 inside →
      ∀ (κ S C : Type) (handle? : C → Option Handle) (c : C) (handle : Handle),
        handle? c = some handle → handle.index < env.handles →
        ∀ (sink : Sink σ X κ S C) (acc : S) (state : Unit × κ),
        (release handle?).run fuel sink nested.1 acc c state inside =
          Sink.below (sink nested.1 acc c) state inside) ∧
    (env.Ready context.registry → context.registry.index < nested.1.registry.index ∧
      (∃ later, (stage.collectIn fuel context a env).2.history = later ++ env.history ∧
        Event.InnerFirst later) ∧
      ∃ later, (stage.firstIn fuel context a env).2.history = later ++ env.history ∧
        Event.InnerFirst later) := by
  intro nested close one many
  refine ⟨⟨?_, leaves_scope fuel stage context acc a mine down env first⟩,
    ⟨?_, leaves_scopeMany fuel stage context acc a mine down env all⟩, ?_,
    fun hready => ⟨hready.registry_lt, ?_, ?_⟩⟩
  · exact isolated_inScope fuel context a mine henv hstage Sink.follows_first none
  · exact isolated_inScope fuel context a mine henv hstage Sink.follows_all #[]
  · intro inside hinside κ S C handle? c handle hhandle hold sink acc state
    exact run_release_of_not_contains fuel nested.1 acc c hhandle
      (hinside.not_contains_of_lt henv context hold) sink state
  · exact (stage.follows_run fuel hstage Sink.follows_all context #[] a (stage.init, ())
      env).innerFirst hready
  · exact (stage.follows_run fuel hstage Sink.follows_first context none a (stage.init, ())
      env).innerFirst hready

/-- A run holds a resource and opens another one in a scope: when the scope is over, the second one
was released although its disposal panics, and the first one was not, also not by a release stage in
the scope. -/
theorem scopes_isolate_acquire :
    let stage : Stage Unit Blueprint.Value Nat (Shared Nat) := acquire (.ofFun .ok) fun _ => .panic
    let opened := (Env.start () .fresh ⟨id, 0⟩).openContext none
    let env := opened.2.newHandle.2.register ⟨opened.1.registry, opened.2.newHandle.1, .done⟩
    let nested := env.nestedContext opened.1
    let one := stage.run 1 Sink.first nested.1 none 7 ((), ()) nested.2
    let after := (one.env.clean nested.1.registry).2.dropRegistry nested.1.registry
    (after.disposals ⟨1⟩ = 1 ∧ after.disposals ⟨0⟩ = 0) ∧
    (release fun _ : Nat => some ⟨0⟩ : Stage Unit Blueprint.Value Nat Nat).run 1 Sink.last nested.1
        none 7 ((), ()) nested.2 = ⟨.ok (.proceed (some 7)), ((), ()), nested.2⟩ ∧
    ∃ later, (stage.collectIn 1 opened.1 7 env).2.history = later ++ env.history ∧
      Event.InnerFirst later := by
  intro stage opened env nested one after
  have hstage : stage.Disposes Disposal.IsQuiet := fun _ => trivial
  have hquiet : (Disposal.done : Disposal Unit).IsQuiet := trivial
  have hopened : opened.2.Ready opened.1.registry :=
    ((Env.Formed.start () .fresh ⟨id, 0⟩).nestedContext opened.1).1
  have henv : env.Ready opened.1.registry := (hopened.acquire hquiet).ready
  have hscopes := scopes_isolate 1 opened.1 none 7 () stage hstage henv.toFormed ()
    (Sink.last : Sink Unit Blueprint.Value Unit _ _) fun _ _ _ => pure (.proceed none)
  obtain ⟨⟨hisolated, -⟩, -, hrelease, hruns⟩ := hscopes
  refine ⟨⟨hisolated.opened ⟨1⟩ (Nat.le_refl 1) (Nat.lt_succ_self 1),
    hisolated.disposals ⟨0⟩ Nat.one_pos⟩, ?_, (hruns henv).2.1⟩
  exact hrelease nested.2 (.nothing _) Unit (Option Nat) Nat (fun _ => some ⟨0⟩) 7 ⟨0⟩ rfl
    Nat.one_pos Sink.last none ((), ())

end Stage

end Transduction
