import Transduction.Proofs.Release.Passage

/-!
# Inner resources first

A scope gets a registry of its own, which is opened after the registries of all scopes around it,
and it is closed before the run goes on in the scope around it. So whenever a resource is released,
all that was registered in registries opened after its own has been released already: inner
resources first, whether a release stage, the end of a scope or the end of the run releases it. What
is registered in one registry may be released in any order.

## Main definitions

* `Event.InnerFirst`: events in which every release comes after those of inner resources.
* `Event.Nested`: the events of a run in a registry, with those of the scopes inside it.

## Main results

* `Event.InnerFirst.append`: one part of a run after another.
* `Env.Course.nests`: the acts of a run.
* `Env.Course.innerFirst`: the acts of a run and the end of its registry.
-/

namespace Transduction

variable {σ : Type}

namespace Event

/-- Events that, as far as resources are concerned, only release those of one registry. -/
def ReleasesIn (registry : RegistryId) : Event → Prop
  | registered _ _ => False
  | disposed other _ => other = registry
  | handed => True
  | attempted => True
  | waited _ => True
  | cancelled _ => True
  | stopped _ => True

/-- Events, the last one first, in which every release comes after the releases of all that was
registered before it in registries opened later. -/
def InnerFirst (later : List Event) : Prop :=
  ∀ newer registry handle older, later = newer ++ disposed registry handle :: older →
    ∀ inner other, registered inner other ∈ older → registry.index < inner.index →
      disposed inner other ∈ older

/-- The events, the last one first, of a run in a registry, where `opened` registries were opened
before: all other registries in which it releases something are new ones, and what it registers
there is released. -/
structure Nested (registry : RegistryId) (opened : Nat) (later : List Event) : Prop where
  released : ∀ other handle, disposed other handle ∈ later →
    other = registry ∨ opened ≤ other.index
  closed : ∀ other handle, registered other handle ∈ later → other ≠ registry →
    disposed other handle ∈ later
  innerFirst : InnerFirst later

variable {registry : RegistryId} {opened opened' : Nat} {newer older later : List Event}

/-- Of two parts of a run, the second one must not release outer resources before the inner ones of
the first part. -/
theorem InnerFirst.append (hnewer : InnerFirst newer) (holder : InnerFirst older)
    (h : ∀ registry handle, disposed registry handle ∈ newer → ∀ inner other,
      registered inner other ∈ older → registry.index < inner.index →
        disposed inner other ∈ older) : InnerFirst (newer ++ older) := by
  intro front registry handle back hsplit inner other hregistered hinner
  rcases List.append_eq_append_iff.1 hsplit with ⟨between, hfront, holder'⟩ | ⟨rest, hnewer', hback⟩
  · exact holder between registry handle back holder' inner other hregistered hinner
  · cases rest with
    | nil =>
      have holder' : older = [] ++ disposed registry handle :: back := hback.symm
      exact holder [] registry handle back holder' inner other hregistered hinner
    | cons event rest =>
      obtain ⟨rfl, rfl⟩ := List.cons.inj hback
      rcases List.mem_append.1 hregistered with hmem | hmem
      · exact List.mem_append_left _
          (hnewer front registry handle rest hnewer' inner other hmem hinner)
      · have hreleased : disposed registry handle ∈ newer := by
          rw [hnewer']
          exact List.mem_append_right _ List.mem_cons_self
        exact List.mem_append_right _ (h registry handle hreleased inner other hmem hinner)

theorem innerFirst_of_releasesIn (h : ∀ event ∈ later, event.ReleasesIn registry) :
    InnerFirst later := by
  rintro newer other handle older rfl inner resource hregistered -
  have hmem : registered inner resource ∈ newer ++ disposed other handle :: older :=
    List.mem_append_right _ (List.mem_cons_of_mem _ hregistered)
  exact (h _ hmem).elim

theorem nested_of_releasesIn (h : ∀ event ∈ later, event.ReleasesIn registry) :
    Nested registry opened later where
  released _ _ hmem := .inl (h _ hmem)
  closed _ _ hmem := (h _ hmem).elim
  innerFirst := innerFirst_of_releasesIn h

/-- What a run in a registry does next may release what is registered there, as the scopes that were
inside it are closed. -/
theorem Nested.append (hnewer : Nested registry opened' newer)
    (holder : Nested registry opened older) (hregistry : registry.index < opened')
    (hopened : opened ≤ opened') : Nested registry opened (newer ++ older) where
  released other handle hmem := by
    rcases List.mem_append.1 hmem with hmem | hmem
    · exact (hnewer.released other handle hmem).imp_right (Nat.le_trans hopened)
    · exact holder.released other handle hmem
  closed other handle hmem hother := by
    rcases List.mem_append.1 hmem with hmem | hmem
    · exact List.mem_append_left _ (hnewer.closed other handle hmem hother)
    · exact List.mem_append_right _ (holder.closed other handle hmem hother)
  innerFirst := by
    refine hnewer.innerFirst.append holder.innerFirst ?_
    intro other handle hmem inner resource hregistered hinner
    refine holder.closed inner resource hregistered ?_
    rintro rfl
    rcases hnewer.released other handle hmem with rfl | hnew <;> omega

/-- The end of a registry releases only what is registered in it, and the scopes inside it are
closed by then. -/
theorem Nested.innerFirst_append (holder : Nested registry opened older)
    (hnewer : ∀ event ∈ newer, event.ReleasesIn registry) : InnerFirst (newer ++ older) := by
  refine (innerFirst_of_releasesIn hnewer).append holder.innerFirst ?_
  intro other handle hmem inner resource hregistered hinner
  obtain rfl : other = registry := hnewer _ hmem
  refine holder.closed inner resource hregistered ?_
  rintro rfl
  exact Nat.lt_irrefl _ hinner

end Event

namespace Env

variable {registry : RegistryId} {before between after : Env σ}

/-! ### Releases in one registry -/

/-- Between two moments resources of one registry are released, and none is registered. -/
def ReleasesIn (registry : RegistryId) (before after : Env σ) : Prop :=
  ∃ later, after.history = later ++ before.history ∧ ∀ event ∈ later, event.ReleasesIn registry

theorem releasesIn_of_eq (h : after.history = before.history) : before.ReleasesIn registry after :=
  ⟨[], h, List.forall_mem_nil _⟩

theorem ReleasesIn.trans (first : before.ReleasesIn registry between)
    (second : between.ReleasesIn registry after) : before.ReleasesIn registry after := by
  obtain ⟨older, hbetween, holder⟩ := first
  obtain ⟨newer, hafter, hnewer⟩ := second
  refine ⟨newer ++ older, ?_, List.forall_mem_append.2 ⟨hnewer, holder⟩⟩
  rw [hafter, hbetween, List.append_assoc]

theorem releasesIn_record (env : Env σ) {event : Event} (h : event.ReleasesIn registry) :
    env.ReleasesIn registry (env.record event) :=
  ⟨[event], rfl, List.forall_mem_singleton.2 h⟩

theorem releasesIn_cancel (env : Env σ) (reason : String) :
    env.ReleasesIn registry (env.cancel reason) := by
  rw [cancel]
  cases env.token.reason with
  | some _ => exact releasesIn_of_eq rfl
  | none => exact ⟨[.cancelled reason], rfl, List.forall_mem_singleton.2 trivial⟩

theorem releasesIn_happen (env : Env σ) (happening : Happening) :
    env.ReleasesIn registry (env.happen happening) := by
  cases happening with
  | cancel reason => exact env.releasesIn_cancel reason
  | elapse nanos => exact releasesIn_of_eq rfl

theorem releasesIn_happenAll (env : Env σ) (happenings : List Happening) :
    env.ReleasesIn registry (env.happenAll happenings) := by
  induction happenings generalizing env with
  | nil => exact releasesIn_of_eq rfl
  | cons happening rest ih => exact (env.releasesIn_happen happening).trans (ih _)

/-- Settling quiet disposals of entries in one registry. -/
theorem releasesIn_settle {tasks : List (Task σ)}
    (h : ∀ task ∈ tasks, task.IsQuietOf fun entry => entry.registry = registry) (store : Store σ)
    (env : Env σ) : env.ReleasesIn registry (settle tasks { env with store }) := by
  have hstore : env.ReleasesIn registry { env with store } := releasesIn_of_eq rfl
  exact hstore.trans (settle_quiet_preserves (fun _ => releasesIn_of_eq rfl) ReleasesIn.trans
    (fun env _ hentry => env.releasesIn_record hentry) (fun _ _ => releasesIn_of_eq rfl)
    releasesIn_happen h _)

/-- The disposals of what is registered in a registry. -/
theorem releasesIn_settle_entries {env : Env σ} {entries : List (Entry σ)}
    (h : ∀ entry ∈ entries, entry.disposal.IsQuiet ∧ entry.registry = registry) (store : Store σ) :
    env.ReleasesIn registry (settle (entries.map .dispose) { env with store }) :=
  releasesIn_settle (List.forall_mem_map.2 h) store env

theorem Ready.releasesIn_release {env : Env σ} (h : env.Ready registry) (handle : Handle) :
    env.ReleasesIn registry (env.release registry handle).2 := by
  rw [Env.release]
  cases hremove : env.store.remove registry handle with
  | none => exact releasesIn_of_eq rfl
  | some found =>
    obtain ⟨entry, store⟩ := found
    obtain ⟨hregistry, -, front, back, hentries, -⟩ := Store.remove_eq_some hremove
    have hmem : entry ∈ env.store.entriesOf registry := by
      refine List.mem_filter.2 ⟨?_, decide_eq_true hregistry⟩
      rw [hentries]
      exact List.mem_append_right front List.mem_cons_self
    exact releasesIn_settle_entries (List.forall_mem_singleton.2 ⟨h.quiet entry hmem, hregistry⟩)
      store

theorem Ready.releasesIn_clean {env : Env σ} (h : env.Ready registry) :
    env.ReleasesIn registry (env.clean registry).2 := by
  refine releasesIn_settle_entries (fun entry hentry => ⟨h.quiet entry hentry, ?_⟩) _
  exact of_decide_eq_true (List.mem_filter.1 hentry).2

/-- Closing the registry of a scope releases what is left in it. -/
theorem Ready.releasesIn_close {env : Env σ} (h : env.Ready registry) :
    env.ReleasesIn registry ((env.clean registry).2.dropRegistry registry) := by
  refine h.releasesIn_clean.trans (releasesIn_settle_entries (fun entry hentry => ?_) _)
  have hmem : entry ∈ (env.clean registry).2.store.entriesOf registry := hentry
  rw [h.entriesOf_clean] at hmem
  exact absurd hmem List.not_mem_nil

/-! ### Acts of a run -/

/-- The events between two moments of a run in a registry. -/
def Nests (registry : RegistryId) (before after : Env σ) : Prop :=
  ∃ later, after.history = later ++ before.history ∧
    Event.Nested registry before.store.opened later

theorem ReleasesIn.nests (h : before.ReleasesIn registry after) : before.Nests registry after := by
  obtain ⟨later, hhistory, hreleases⟩ := h
  exact ⟨later, hhistory, Event.nested_of_releasesIn hreleases⟩

/-- What a run may note is not about resources. -/
theorem Permits.releasesIn {env : Env σ} {event : Event} (h : env.Permits event) :
    event.ReleasesIn registry := by
  cases event with
  | registered | disposed | cancelled => exact h.elim
  | handed | attempted | waited | stopped => trivial

theorem Nests.trans (first : before.Nests registry between) (second : between.Nests registry after)
    (hregistry : registry.index < between.store.opened)
    (hopened : before.store.opened ≤ between.store.opened) : before.Nests registry after := by
  obtain ⟨older, hbetween, holder⟩ := first
  obtain ⟨newer, hafter, hnewer⟩ := second
  refine ⟨newer ++ older, ?_, hnewer.append holder hregistry hopened⟩
  rw [hafter, hbetween, List.append_assoc]

theorem nests_register (env : Env σ) {entry : Entry σ} (hentry : entry.registry = registry) :
    env.Nests registry (env.register entry) := by
  rw [register]
  split
  · exact (releasesIn_of_eq rfl).nests
  · refine ⟨[.registered entry.registry entry.handle], rfl, ?_, ?_, ?_⟩
    · intro other handle hmem
      cases List.mem_singleton.1 hmem
    · intro other handle hmem hother
      cases List.mem_singleton.1 hmem
      exact absurd hentry hother
    · intro newer other handle older hsplit
      have hmem : Event.disposed other handle ∈ [Event.registered entry.registry entry.handle] := by
        rw [hsplit]
        exact List.mem_append_right _ List.mem_cons_self
      cases List.mem_singleton.1 hmem

/-- If as much is held afterwards, what was registered meanwhile was released. -/
theorem disposed_of_registered {later : List Event} {handle : Handle} (hbefore : before.Balanced)
    (hafter : after.Balanced) (hhistory : after.history = later ++ before.history)
    (hheld : after.held (handle.within registry) = before.held (handle.within registry))
    (hmem : .registered registry handle ∈ later) : .disposed registry handle ∈ later := by
  let meanwhile : Env σ := { before with history := later }
  have hregistrations : after.registrations (handle.within registry) =
      meanwhile.registrations (handle.within registry) +
        before.registrations (handle.within registry) := by
    rw [registrations, hhistory]
    exact List.countP_append
  have hreleases : after.releases (handle.within registry) =
      meanwhile.releases (handle.within registry) + before.releases (handle.within registry) := by
    rw [releases, hhistory]
    exact List.countP_append
  have hregistered : 0 < meanwhile.registrations (handle.within registry) :=
    List.countP_pos_iff.2 ⟨_, hmem, by simp [Handle.within]⟩
  have hbalanceBefore := hbefore (handle.within registry)
  have hbalanceAfter := hafter (handle.within registry)
  have hreleased : 0 < meanwhile.releases (handle.within registry) := by omega
  obtain ⟨event, hevent, hselected⟩ := List.countP_pos_iff.1 hreleased
  cases event with
  | disposed other resource =>
    obtain ⟨hother, hresource⟩ := (Bool.and_eq_true _ _).mp hselected
    rw [← of_decide_eq_true hother, ← of_decide_eq_true hresource]
    exact hevent
  | registered | handed | attempted | waited | cancelled | stopped => cases hselected

/-- A scope is closed when it ends: all that was registered in it and in the scopes inside it was
released. -/
theorem Ready.nests_scope {env : Env σ} (h : env.Ready registry) (context : Context)
    (hscope : Passage (env.nestedContext context).1.registry (env.nestedContext context).2 after)
    (hnests : (env.nestedContext context).2.Nests (env.nestedContext context).1.registry after) :
    env.Nests registry ((after.clean (env.nestedContext context).1.registry).2.dropRegistry
      (env.nestedContext context).1.registry) := by
  obtain ⟨older, hafter, holder⟩ := hnests
  obtain ⟨newer, hclosed, hnewer⟩ := hscope.ready.releasesIn_close
  have hhistory : ((after.clean (env.nestedContext context).1.registry).2.dropRegistry
      (env.nestedContext context).1.registry).history = (newer ++ older) ++ env.history := by
    rw [hclosed, hafter, List.append_assoc]
    rfl
  refine ⟨newer ++ older, hhistory, ?_, ?_, holder.innerFirst_append hnewer⟩
  · intro other handle hmem
    rcases List.mem_append.1 hmem with hmem | hmem
    · obtain rfl : other = (env.nestedContext context).1.registry := hnewer _ hmem
      exact .inr (Nat.le_refl _)
    · rcases holder.released other handle hmem with rfl | hnew
      · exact .inr (Nat.le_refl _)
      · exact .inr (Nat.le_of_succ_le hnew)
  · intro other handle hmem _
    by_cases hother : other = (env.nestedContext context).1.registry
    · -- What is held in the registry of the scope is the same before and after: nothing.
      subst hother
      obtain ⟨-, hbalanced, hentries⟩ := hscope.close h.toFormed context
      refine disposed_of_registered h.balanced hbalanced hhistory ?_ hmem
      rw [held, hentries, held]
    · rcases List.mem_append.1 hmem with hmem | hmem
      · exact (hnewer _ hmem).elim
      · exact List.mem_append_right _ (holder.closed other handle hmem hother)

/-- A run whose resources have quiet disposals releases inner resources first. -/
theorem Course.nests (h : Course Disposal.IsQuiet registry before after)
    (hbefore : before.Ready registry) : before.Nests registry after := by
  induction h with
  | nothing env => exact (releasesIn_of_eq rfl).nests
  | next first second ihFirst ihSecond =>
    have hfirst := first.passage hbefore
    exact (ihFirst hbefore).trans (ihSecond hfirst.ready) hfirst.ready.registry_lt hfirst.opened_le
  | @react registry env user happenings =>
    have huser : env.ReleasesIn registry { env with user } := releasesIn_of_eq rfl
    exact (huser.trans (releasesIn_happenAll _ happenings)).nests
  | cancel env reason => exact (env.releasesIn_cancel reason).nests
  | note env hevent => exact (env.releasesIn_record hevent.releasesIn).nests
  | draw env dice => exact (releasesIn_of_eq rfl).nests
  | acquire env hquiet => exact nests_register env.newHandle.2 rfl
  | release env handle => exact (hbefore.releasesIn_release handle).nests
  | scope env context h ih =>
    have hnested := (hbefore.toFormed.nestedContext context).1
    exact hbefore.nests_scope context (h.passage hnested) (ih hnested)

/-- A run that ends with the release of what is left in its registry releases inner resources
first. -/
theorem Course.innerFirst (h : Course Disposal.IsQuiet registry before after)
    (hbefore : before.Ready registry) :
    ∃ later, (after.clean registry).2.history = later ++ before.history ∧
      Event.InnerFirst later := by
  obtain ⟨older, hafter, holder⟩ := h.nests hbefore
  obtain ⟨newer, hcleaned, hnewer⟩ := (h.passage hbefore).ready.releasesIn_clean
  refine ⟨newer ++ older, ?_, holder.innerFirst_append hnewer⟩
  rw [hcleaned, hafter, List.append_assoc]

end Env

end Transduction
