import Transduction.Proofs.Release.Passage
import Transduction.Session.Basic

/-!
# Released exactly once

A run may release a resource at a release stage, at the end of the scope it was opened in, or at its
own end, and the same handle may reach several of these places. However the run ends, each resource
that it opened or found in the registry of its context was released once, and that registry is
empty.

## Main definitions

* `Env.ReleasesOnce`: what was released between the beginning and the end of a run.

## Main results

* `Stage.runIn_releasesOnce`: a run with any sink that acts as a run does.
* `Stage.releases_exactly_once`: collecting runs and runs that stop at the first value.
* `Session.Setting.ready_enter`: the surroundings of a session are ready for the run that begins.
-/

namespace Transduction

variable {σ X S A B : Type} {registry : RegistryId} {before after env : Env σ}

namespace Env

/-- What was released between two moments: once each resource that was opened between them, once
each that was registered in the context, and no other. Nothing is left registered in the context. -/
structure ReleasesOnce (context : Context) (before after : Env σ) : Prop where
  opened : ∀ handle : Handle, before.handles ≤ handle.index → handle.index < after.handles →
    after.disposals handle = 1
  registered : ∀ handle : Handle, handle.index < before.handles →
    after.disposals handle = before.disposals handle +
      if before.store.contains context.registry handle = true then 1 else 0
  empty : after.store.size context.registry = 0

/-- Cleaning the registry at the end of a run releases what is left of it. -/
theorem Passage.releasesOnce {context : Context} (hbefore : before.Ready context.registry)
    (h : Passage context.registry before after) :
    ReleasesOnce context before (after.clean context.registry).2 := by
  obtain ⟨hcleaned, hentries⟩ := h.ready.clean
  have hbalanced := h.ready.balanced.clean context.registry
  -- What is left over is registered elsewhere, and it was so before the run.
  have hleft (handle : Handle) : (after.clean context.registry).2.held handle.anywhere =
      (before.store.elsewhere context.registry).countP fun entry =>
        handle.anywhere entry.registry entry.handle := by
    rw [held, hentries, h.elsewhere]
  have hcount (handle : Handle) : after.registrations handle.anywhere =
      (after.clean context.registry).2.disposals handle +
        (before.store.elsewhere context.registry).countP fun entry =>
          handle.anywhere entry.registry entry.handle := by
    rw [← hcleaned.registrations, ← hleft, disposals_eq_releases]
    exact hbalanced handle.anywhere
  constructor
  · intro handle hnew hopened
    rw [hcleaned.handles] at hopened
    have hregistered := h.registrations handle
    rw [if_neg (Nat.not_lt.2 hnew), if_pos hopened, hbefore.unused handle hnew] at hregistered
    have hnone := hbefore.held_of_le hnew
    rw [before.held_anywhere context.registry] at hnone
    have hbalance := hcount handle
    omega
  · intro handle hold
    have hregistered := h.registrations handle
    rw [if_pos hold, if_pos (Nat.lt_of_lt_of_le hold h.handles_le)] at hregistered
    have hbalance : before.registrations handle.anywhere =
        before.disposals handle + before.held handle.anywhere := hbefore.balanced handle.anywhere
    rw [before.held_anywhere context.registry, hbefore.held_within] at hbalance
    have hafter := hcount handle
    omega
  · rw [Store.size, Store.entriesOf, hentries, Store.elsewhere, List.filter_filter]
    simp

/-- A context for a fresh run is ready as soon as it is opened. -/
theorem Formed.openContext (h : env.Formed) (deadline : Option Nat) :
    (env.openContext deadline).2.Ready (env.openContext deadline).1.registry :=
  (h.nestedContext (env.openContext deadline).1).1

end Env

/-! ### Runs -/

namespace Stage

variable [TypeNamed X] (fuel : Nat) (stage : Stage σ X A B) (context : Context) (input : A)

/-- A run with a sink of its own releases exactly what it opened and what its context held. -/
theorem runIn_releasesOnce {sink : Sink σ X Unit S B} (hstage : stage.Disposes Disposal.IsQuiet)
    (hsink : sink.Follows Disposal.IsQuiet) (seed : S) (shape : S → Yield B)
    (henv : env.Ready context.registry) :
    env.ReleasesOnce context (stage.runIn fuel sink seed shape context input env).2 := by
  have hcourse := stage.follows_run fuel hstage hsink context seed input (stage.init, ()) env
  exact (hcourse.passage henv).releasesOnce henv

/-- After a run the surroundings are well-formed again, so another run may follow. -/
theorem formed_runIn {sink : Sink σ X Unit S B} (hstage : stage.Disposes Disposal.IsQuiet)
    (hsink : sink.Follows Disposal.IsQuiet) (seed : S) (shape : S → Yield B)
    (henv : env.Ready context.registry) :
    (stage.runIn fuel sink seed shape context input env).2.Formed := by
  have hcourse := stage.follows_run fuel hstage hsink context seed input (stage.init, ()) env
  have hready := (hcourse.passage henv).ready
  exact hready.toFormed.of_shrinks hready.clean.1 (hready.balanced.clean context.registry)

/-- However a run ends, every resource that it opened or that was registered in its context has been
released once, no other resource has been released, and its registry is empty. The disposals may
panic, but leave the registries alone. -/
theorem releases_exactly_once (hstage : stage.Disposes Disposal.IsQuiet)
    (henv : env.Ready context.registry) :
    env.ReleasesOnce context (stage.collectIn fuel context input env).2 ∧
      env.ReleasesOnce context (stage.firstIn fuel context input env).2 :=
  ⟨stage.runIn_releasesOnce fuel context input hstage Sink.follows_all _ _ henv,
    stage.runIn_releasesOnce fuel context input hstage Sink.follows_first _ _ henv⟩

/-- A run that opens a resource for each of three numbers and panics at the second: the resource
that was registered before the run is released although the disposals panic too. -/
theorem releases_exactly_once_panicking :
    let stage : Stage Unit Blueprint.Value (List Nat) (Shared Nat) := compose each (compose
      (acquire (.ofFun .ok) fun _ => .panic) (inspect fun shared user =>
        ⟨if shared.resource = 2 then .error "two" else .ok (), user, []⟩))
    let opened := (Env.start () .fresh ⟨id, 0⟩).openContext none
    let env := opened.2.newHandle.2.register ⟨opened.1.registry, opened.2.newHandle.1, .panic⟩
    (stage.collectIn 1 opened.1 [1, 2, 3] env).1 = .error (.panicked "two") ∧
      (stage.collectIn 1 opened.1 [1, 2, 3] env).2.disposals ⟨0⟩ = 1 := by
  intro stage opened env
  have hstage : stage.Disposes Disposal.IsQuiet := ⟨trivial, fun _ => trivial, trivial⟩
  have hquiet : (Disposal.panic : Disposal Unit).IsQuiet := trivial
  have henv : env.Ready opened.1.registry :=
    (((Env.Formed.start () .fresh ⟨id, 0⟩).openContext none).acquire hquiet).ready
  refine ⟨rfl, ?_⟩
  have hcollect := (stage.releases_exactly_once 1 opened.1 [1, 2, 3] hstage henv).1
  exact hcollect.registered ⟨0⟩ Nat.one_pos

end Stage

/-! ### Runs in a session -/

namespace Session

open Blueprint

theorem Setting.passage_acquire (registry : RegistryId) (world : World)
    (h : world.Ready registry) (names : List String) :
    Env.Passage registry world (names.foldl (Setting.acquire registry) world) := by
  induction names generalizing world with
  | nil => exact (Env.SameResources.refl world).passage h
  | cons name rest ih =>
    have hfirst : Env.Passage registry world (Setting.acquire registry world name) :=
      h.acquire (by trivial)
    exact hfirst.trans (ih _ hfirst.ready)

/-- The context that is made for a run is ready for it, with the resources of the setting in it. -/
theorem Setting.ready_enter (setting : Setting) (world : World) (h : world.Formed) :
    (setting.enter world).2.Ready (setting.enter world).1.registry := by
  have hopened (deadline : Option Nat) (world : World) (h : world.Formed) :
      let opened := world.openContext deadline
      let acquired := setting.acquired.foldl (Setting.acquire opened.1.registry) opened.2
      (acquired.happen (.elapse 1)).Ready opened.1.registry := by
    have hacquired := Setting.passage_acquire _ _ (h.openContext deadline) setting.acquired
    exact ((Env.sameResources_happen _ (.elapse 1)).passage hacquired.ready).ready
  obtain ⟨_ | reason, deadline, acquired⟩ := setting
  · exact hopened _ world h
  · have hsame := world.sameResources_cancel reason
    exact hopened _ _ (h.of_shrinks hsame.toSameHoldings.shrinks (hsame.balancedWith h.balanced))

end Session

end Transduction
