import Transduction.Proofs.Release.Ledger

/-!
# What a run leaves registered

A run registers in its own registry only, and every resource it opens is registered once. So a run
whose resources are released by quiet disposals, which leave all registries alone, changes nothing
in other registries, and the scopes inside it leave nothing behind at all.

## Main definitions

* `Disposal.IsQuiet`: the disposals that neither register nor release nor clean.
* `Env.Formed`: surroundings whose registries and resources were opened and registered in order.
* `Env.Ready`: surroundings in which a run in a registry can begin.
* `Env.Passage`: what a run in a registry may have changed.

## Main results

* `settle_quiet_preserves`: what settling quiet disposals preserves.
* `settle_quiet`: settling quiet disposals leaves all registries alone.
* `Env.Course.passage`: the acts of a run change nothing but its own registry.
-/

namespace Transduction

variable {σ : Type}

/-- Disposals that leave all registries alone. They may still panic. -/
def Disposal.IsQuiet : Disposal σ → Prop
  | done => True
  | panic => True
  | act _ next => next.IsQuiet
  | branch _ yes no => yes.IsQuiet ∧ no.IsQuiet
  | meanwhile _ next => next.IsQuiet
  | acquire _ _ _ _ => False
  | release _ _ _ _ => False
  | clean _ _ _ => False

/-- Tasks that leave all registries alone. -/
def Task.IsQuiet : Task σ → Prop
  | dispose entry => entry.disposal.IsQuiet
  | resume disposal => disposal.IsQuiet

/-- Tasks that leave all registries alone, of selected entries. -/
def Task.IsQuietOf (p : Entry σ → Prop) : Task σ → Prop
  | dispose entry => entry.disposal.IsQuiet ∧ p entry
  | resume disposal => disposal.IsQuiet

theorem Task.isQuietOf_true {task : Task σ} (h : task.IsQuiet) : task.IsQuietOf fun _ => True := by
  cases task with
  | dispose entry => exact ⟨h, trivial⟩
  | resume disposal => exact h

/-! ### Quiet disposals -/

/-- What the disposals of selected entries, changes of the state and happenings preserve is
preserved by settling quiet disposals of such entries. -/
theorem settle_quiet_preserves {R : Env σ → Env σ → Prop} {p : Entry σ → Prop}
    (hrefl : ∀ env, R env env)
    (htrans : ∀ {before between after}, R before between → R between after → R before after)
    (hdispose : ∀ env entry, p entry → R env (env.record (.disposed entry.registry entry.handle)))
    (huser : ∀ (env : Env σ) (user : σ), R env { env with user })
    (hhappen : ∀ env happening, R env (env.happen happening)) {tasks : List (Task σ)}
    (h : ∀ task ∈ tasks, task.IsQuietOf p) (env : Env σ) : R env (settle tasks env) := by
  induction tasks, env using settle.induct with
  | case1 env => rw [settle]; exact hrefl env
  | case2 env entry rest ih =>
    obtain ⟨⟨hentry, hp⟩, hrest⟩ := List.forall_mem_cons.1 h
    rw [settle]
    exact htrans (hdispose env entry hp) (ih (List.forall_mem_cons.2 ⟨hentry, hrest⟩))
  | case3 env rest ih | case4 env rest ih =>
    rw [settle]
    exact ih (List.forall_mem_cons.1 h).2
  | case5 env change next rest ih =>
    obtain ⟨hnext, hrest⟩ := List.forall_mem_cons.1 h
    rw [settle]
    exact htrans (huser env _) (ih (List.forall_mem_cons.2 ⟨hnext, hrest⟩))
  | case6 env test yes no rest htest ih =>
    obtain ⟨hboth, hrest⟩ := List.forall_mem_cons.1 h
    rw [settle, if_pos htest]
    exact ih (List.forall_mem_cons.2 ⟨hboth.1, hrest⟩)
  | case7 env test yes no rest htest ih =>
    obtain ⟨hboth, hrest⟩ := List.forall_mem_cons.1 h
    rw [settle, if_neg htest]
    exact ih (List.forall_mem_cons.2 ⟨hboth.2, hrest⟩)
  | case8 env happening next rest ih =>
    obtain ⟨hnext, hrest⟩ := List.forall_mem_cons.1 h
    rw [settle]
    exact htrans (hhappen env happening) (ih (List.forall_mem_cons.2 ⟨hnext, hrest⟩))
  | case9 | case10 | case11 | case12 | case13 | case14 | case15 =>
    exact ((List.forall_mem_cons.1 h).1).elim

/-- Settling quiet disposals leaves all registries alone. -/
theorem settle_quiet {tasks : List (Task σ)} (h : ∀ task ∈ tasks, task.IsQuiet) (env : Env σ) :
    Env.SameHoldings env (settle tasks env) := by
  refine settle_quiet_preserves Env.SameHoldings.refl Env.SameHoldings.trans ?_
    (fun _ _ => ⟨rfl, rfl, fun _ => rfl⟩)
    (fun env happening => (env.sameResources_happen happening).toSameHoldings)
    (fun task htask => Task.isQuietOf_true (h task htask)) env
  intro env entry _
  exact ⟨rfl, rfl, fun _ => List.countP_cons_of_neg Bool.false_ne_true⟩

namespace Env

theorem sameHoldings_release {env : Env σ} {registry : RegistryId} {handle : Handle}
    {entry : Entry σ} {store : Store σ}
    (hremove : env.store.remove registry handle = some (entry, store))
    (hquiet : entry.disposal.IsQuiet) :
    SameHoldings { env with store } (env.release registry handle).2 := by
  rw [release, hremove]
  refine settle_quiet (fun task htask => ?_) _
  rw [List.mem_singleton.1 htask]
  exact hquiet

/-- Draining a registry of quiet disposals is all that cleaning it does to the registries. -/
theorem sameHoldings_clean {env : Env σ} {registry : RegistryId}
    (hquiet : ∀ entry ∈ env.store.entriesOf registry, entry.disposal.IsQuiet) :
    SameHoldings { env with store := (env.store.drain registry).2 } (env.clean registry).2 :=
  settle_quiet (List.forall_mem_map.2 hquiet) _

theorem sameHoldings_dropRegistry {env : Env σ} {registry : RegistryId}
    (hquiet : ∀ entry ∈ env.store.entriesOf registry, entry.disposal.IsQuiet) :
    SameHoldings { env with store := ((env.store.close registry).drain registry).2 }
      (env.dropRegistry registry) :=
  settle_quiet (List.forall_mem_map.2 hquiet) _

end Env

/-! ### Well-formed surroundings -/

namespace Env

/-- Surroundings whose registries and resources were opened in order. -/
structure Formed (env : Env σ) : Prop where
  /-- Nothing is registered in a registry that was not opened. -/
  opened : ∀ entry ∈ env.store.entries, entry.registry.index < env.store.opened
  /-- The handles of resources that were not opened were never registered. -/
  unused : ∀ handle : Handle, env.handles ≤ handle.index → env.registrations handle.anywhere = 0
  /-- A resource is registered at most once in a registry. -/
  single : ∀ (registry : RegistryId) (handle : Handle), env.held (handle.within registry) ≤ 1
  balanced : env.Balanced

/-- Well-formed surroundings for a run in a registry whose entries have quiet disposals. -/
structure Ready (registry : RegistryId) (env : Env σ) : Prop extends Formed env where
  registry_lt : registry.index < env.store.opened
  quiet : ∀ entry ∈ env.store.entriesOf registry, entry.disposal.IsQuiet

/-- Surroundings in which nothing was registered, though some resources may be gone. -/
structure Shrinks (before after : Env σ) : Prop where
  entries : after.store.entries.Sublist before.store.entries
  opened_le : before.store.opened ≤ after.store.opened
  handles : after.handles = before.handles
  registrations : ∀ p, after.registrations p = before.registrations p

/-- What a run in a registry may have changed: the entries of that registry, and it may have opened
resources, each of which it registered once. -/
structure Passage (registry : RegistryId) (before after : Env σ) : Prop where
  ready : after.Ready registry
  opened_le : before.store.opened ≤ after.store.opened
  handles_le : before.handles ≤ after.handles
  elsewhere : after.store.elsewhere registry = before.store.elsewhere registry
  registrations : ∀ handle : Handle,
    after.registrations handle.anywhere + (if handle.index < before.handles then 1 else 0) =
      before.registrations handle.anywhere + if handle.index < after.handles then 1 else 0

variable {registry : RegistryId} {before between after env : Env σ}

theorem SameHoldings.shrinks (h : SameHoldings before after) : Shrinks before after where
  entries := by simp only [h.store, List.Sublist.refl]
  opened_le := by simp only [h.store, Nat.le_refl]
  handles := h.handles
  registrations := h.registrations

theorem shrinks_store (store : Store σ) (hentries : store.entries.Sublist env.store.entries)
    (hopened : env.store.opened ≤ store.opened) : Shrinks env { env with store } :=
  ⟨hentries, hopened, rfl, fun _ => rfl⟩

theorem Shrinks.trans (first : Shrinks before between) (second : Shrinks between after) :
    Shrinks before after where
  entries := second.entries.trans first.entries
  opened_le := Nat.le_trans first.opened_le second.opened_le
  handles := second.handles.trans first.handles
  registrations p := (second.registrations p).trans (first.registrations p)

theorem Formed.start (user : σ) (token : Token) (dice : Dice) :
    (Env.start user token dice).Formed where
  opened := fun _ h => absurd h List.not_mem_nil
  unused := fun _ _ => rfl
  single := fun _ _ => Nat.zero_le 1
  balanced := .start user token dice

theorem Formed.of_shrinks (hformed : before.Formed) (h : Shrinks before after)
    (hbalanced : after.Balanced) : after.Formed where
  opened entry hentry := Nat.lt_of_lt_of_le (hformed.opened entry (h.entries.subset hentry))
    h.opened_le
  unused handle hhandle := by
    rw [h.registrations]
    exact hformed.unused handle (h.handles ▸ hhandle)
  single registry handle := Nat.le_trans h.entries.countP_le (hformed.single registry handle)
  balanced := hbalanced

/-- A resource that was not opened is not registered anywhere. -/
theorem Formed.held_of_le (h : env.Formed) {handle : Handle}
    (hhandle : env.handles ≤ handle.index) : env.held handle.anywhere = 0 := by
  have hbalance := h.balanced handle.anywhere
  rw [h.unused handle hhandle] at hbalance
  omega

/-- The entries of a resource are those in one registry and those elsewhere. -/
theorem held_anywhere (env : Env σ) (registry : RegistryId) (handle : Handle) :
    env.held handle.anywhere =
      env.held (handle.within registry) + (env.store.elsewhere registry).countP fun entry =>
        handle.anywhere entry.registry entry.handle := by
  rw [held, env.store.countP_entries registry, Store.entriesOf, List.countP_filter]
  have hwithin : (fun entry : Entry σ => handle.anywhere entry.registry entry.handle &&
      decide (entry.registry = registry)) =
        fun entry => handle.within registry entry.registry entry.handle := by
    funext entry
    exact Bool.and_comm _ _
  rw [hwithin]
  rfl

/-- How often a resource is held in a registry tells whether the registry contains it. -/
theorem Formed.held_within (h : env.Formed) (registry : RegistryId) (handle : Handle) :
    env.held (handle.within registry) =
      if env.store.contains registry handle = true then 1 else 0 := by
  by_cases hcontains : env.store.contains registry handle = true
  · have hpos : 0 < env.held (handle.within registry) := by
      obtain ⟨entry, hentry, hfor⟩ := List.any_eq_true.1 hcontains
      exact List.countP_pos_iff.2 ⟨entry, hentry, hfor⟩
    rw [if_pos hcontains]
    exact Nat.le_antisymm (h.single registry handle) hpos
  · rw [if_neg hcontains]
    refine List.countP_eq_zero.2 fun entry hentry hfor => hcontains ?_
    exact List.any_eq_true.2 ⟨entry, hentry, hfor⟩

/-- Opening a resource and registering it adds one entry at the end. -/
theorem Formed.register_newHandle (h : env.Formed) (registry : RegistryId)
    (disposal : Disposal σ) :
    env.newHandle.2.register ⟨registry, env.newHandle.1, disposal⟩ =
      { env with
        handles := env.handles + 1
        store := { env.store with
          entries := env.store.entries ++ [⟨registry, ⟨env.handles⟩, disposal⟩] }
        history := .registered registry ⟨env.handles⟩ :: env.history } := by
  have hnew : ¬env.store.contains registry ⟨env.handles⟩ = true := by
    intro hcontains
    obtain ⟨entry, hentry, hfor⟩ := List.any_eq_true.1 hcontains
    rw [Entry.isFor, Bool.and_eq_true] at hfor
    have hnone : env.held (Handle.anywhere ⟨env.handles⟩) = 0 := h.held_of_le (Nat.le_refl _)
    exact List.countP_eq_zero.1 hnone entry hentry hfor.2
  exact register_of_not_contains hnew

theorem Formed.registrations_acquire (h : env.Formed) (disposal : Disposal σ)
    (p : RegistryId → Handle → Bool) :
    (env.newHandle.2.register ⟨registry, env.newHandle.1, disposal⟩).registrations p =
      env.registrations p + if p registry ⟨env.handles⟩ then 1 else 0 := by
  rw [h.register_newHandle]
  exact List.countP_cons

theorem Formed.held_acquire (h : env.Formed) (disposal : Disposal σ)
    (p : RegistryId → Handle → Bool) :
    (env.newHandle.2.register ⟨registry, env.newHandle.1, disposal⟩).held p =
      env.held p + if p registry ⟨env.handles⟩ then 1 else 0 := by
  rw [h.register_newHandle, held, List.countP_append, List.countP_singleton]
  rfl

/-- Registering a resource that was just opened. -/
theorem Formed.acquire (h : env.Formed) (hregistry : registry.index < env.store.opened)
    (disposal : Disposal σ) :
    (env.newHandle.2.register ⟨registry, env.newHandle.1, disposal⟩).Formed where
  balanced := by
    have hopened : env.newHandle.2.Balanced := h.balanced
    exact hopened.register _
  opened := by
    rw [h.register_newHandle]
    intro entry hentry
    rcases List.mem_append.1 hentry with hold | hnew
    · exact h.opened entry hold
    · rw [List.mem_singleton.1 hnew]
      exact hregistry
  unused handle hhandle := by
    rw [h.register_newHandle] at hhandle
    rw [h.registrations_acquire, h.unused handle (Nat.le_of_succ_le hhandle), Nat.zero_add]
    refine if_neg fun heq => ?_
    rw [← of_decide_eq_true heq] at hhandle
    exact Nat.not_succ_le_self _ hhandle
  single r handle := by
    rw [h.held_acquire]
    by_cases hnew : handle.within r registry ⟨env.handles⟩ = true
    · obtain ⟨-, heq⟩ := (Bool.and_eq_true _ _).mp hnew
      have hle : env.held (handle.within r) ≤ env.held handle.anywhere :=
        List.countP_mono_left fun entry _ hentry => (Bool.and_eq_true _ _ ▸ hentry).2
      have hnone : env.held handle.anywhere = 0 :=
        h.held_of_le (of_decide_eq_true heq ▸ Nat.le_refl _)
      rw [if_pos hnew]
      omega
    · rw [if_neg hnew]
      exact h.single r handle

/-! ### Passages -/

/-- Taking entries out of one registry only is a passage of a run in it. -/
theorem Shrinks.passage (h : Shrinks before after) (hready : before.Ready registry)
    (hbalanced : after.Balanced)
    (helsewhere : after.store.elsewhere registry = before.store.elsewhere registry) :
    Passage registry before after where
  ready :=
    { hready.toFormed.of_shrinks h hbalanced with
      registry_lt := Nat.lt_of_lt_of_le hready.registry_lt h.opened_le
      quiet := fun entry hentry => hready.quiet entry ((h.entries.filter _).subset hentry) }
  opened_le := h.opened_le
  handles_le := Nat.le_of_eq h.handles.symm
  elsewhere := helsewhere
  registrations handle := by rw [h.registrations, h.handles]

theorem SameResources.passage (h : SameResources before after) (hready : before.Ready registry) :
    Passage registry before after := by
  refine h.toSameHoldings.shrinks.passage hready (h.balancedWith hready.balanced) ?_
  rw [h.store]

theorem Passage.trans (first : Passage registry before between)
    (second : Passage registry between after) : Passage registry before after where
  ready := second.ready
  opened_le := Nat.le_trans first.opened_le second.opened_le
  handles_le := Nat.le_trans first.handles_le second.handles_le
  elsewhere := second.elsewhere.trans first.elsewhere
  registrations handle := by
    have hfirst := first.registrations handle
    have hsecond := second.registrations handle
    omega

theorem Ready.acquire (h : env.Ready registry) {disposal : Disposal σ} (hquiet : disposal.IsQuiet) :
    Passage registry env (env.newHandle.2.register ⟨registry, env.newHandle.1, disposal⟩) where
  ready :=
    { h.toFormed.acquire h.registry_lt disposal with
      registry_lt := by
        rw [h.register_newHandle]
        exact h.registry_lt
      quiet := by
        rw [h.register_newHandle]
        intro entry hentry
        rw [Store.entriesOf, List.filter_append] at hentry
        rcases List.mem_append.1 hentry with hold | hnew
        · exact h.quiet entry hold
        · rw [List.mem_singleton.1 (List.mem_filter.1 hnew).1]
          exact hquiet }
  opened_le := by simp only [h.register_newHandle, Nat.le_refl]
  handles_le := by
    rw [h.register_newHandle]
    exact Nat.le_succ _
  elsewhere := by
    rw [h.register_newHandle, Store.elsewhere, List.filter_append]
    simp [Store.elsewhere]
  registrations handle := by
    rw [h.registrations_acquire, h.register_newHandle]
    by_cases hnew : (⟨env.handles⟩ : Handle) = handle
    · subst hnew
      simp [Handle.anywhere]
    · have hne : handle.index ≠ env.handles := fun hindex => hnew (by rw [← hindex])
      have hother : ¬handle.anywhere registry ⟨env.handles⟩ = true := by
        rwa [Handle.anywhere, decide_eq_true_eq]
      have hiff : handle.index < env.handles + 1 ↔ handle.index < env.handles := by omega
      simp only [if_neg hother, hiff, Nat.add_zero]

theorem Ready.release (h : env.Ready registry) (handle : Handle) :
    Passage registry env (env.release registry handle).2 := by
  have hbalanced := h.balanced.release registry handle
  cases hremove : env.store.remove registry handle with
  | none =>
    rw [Env.release, hremove]
    exact (SameResources.refl env).passage h
  | some found =>
    obtain ⟨entry, store⟩ := found
    obtain ⟨hregistry, -, front, back, hentries, rfl⟩ := Store.remove_eq_some hremove
    have hquiet : entry.disposal.IsQuiet := by
      refine h.quiet entry (List.mem_filter.2 ⟨?_, decide_eq_true hregistry⟩)
      rw [hentries]
      exact List.mem_append_right front List.mem_cons_self
    have hsame := sameHoldings_release hremove hquiet
    have hfewer : (front ++ back).Sublist env.store.entries := by
      rw [hentries]
      exact (List.Sublist.refl front).append (List.sublist_cons_self entry back)
    have hremoved :=
      shrinks_store { env.store with entries := front ++ back } hfewer (Nat.le_refl _)
    refine (hremoved.trans hsame.shrinks).passage h hbalanced ?_
    rw [hsame.store, Store.elsewhere, Store.elsewhere, hentries, List.filter_append,
      List.filter_append, List.filter_cons_of_neg]
    simp [hregistry]

/-- A registry that is drained and whose entries have quiet disposals is empty afterwards, and all
others are as before. -/
theorem Ready.clean (h : env.Ready registry) :
    Shrinks env (env.clean registry).2 ∧
      (env.clean registry).2.store.entries = env.store.elsewhere registry := by
  have hsame := sameHoldings_clean h.quiet
  have hdrained := shrinks_store (env.store.drain registry).2 List.filter_sublist (Nat.le_refl _)
  exact ⟨hdrained.trans hsame.shrinks, congrArg Store.entries hsame.store⟩

theorem Ready.entriesOf_clean (h : env.Ready registry) :
    (env.clean registry).2.store.entriesOf registry = [] := by
  rw [Store.entriesOf, h.clean.2, Store.elsewhere, List.filter_filter]
  simp

/-- Dropping a registry after it was cleaned does nothing more to the entries. -/
theorem Ready.close (h : env.Ready registry) :
    Shrinks env ((env.clean registry).2.dropRegistry registry) ∧
      ((env.clean registry).2.dropRegistry registry).store.entries =
        env.store.elsewhere registry := by
  obtain ⟨hcleaned, hentries⟩ := h.clean
  have hsame : SameHoldings _ ((env.clean registry).2.dropRegistry registry) :=
    sameHoldings_dropRegistry (by rw [h.entriesOf_clean]; exact List.forall_mem_nil _)
  have hdropped := shrinks_store (((env.clean registry).2.store.close registry).drain registry).2
    List.filter_sublist (Nat.le_refl _)
  refine ⟨hcleaned.trans (hdropped.trans hsame.shrinks), ?_⟩
  rw [hsame.store]
  change (env.clean registry).2.store.elsewhere registry = _
  rw [Store.elsewhere, hentries, Store.elsewhere, List.filter_filter]
  simp only [Bool.and_self]

/-- A new scope begins with a registry in which nothing is registered. -/
theorem Formed.nestedContext (h : env.Formed) (context : Context) :
    (env.nestedContext context).2.Ready (env.nestedContext context).1.registry ∧
      (env.nestedContext context).2.store.elsewhere (env.nestedContext context).1.registry =
        env.store.entries := by
  have hopened : Shrinks env (env.nestedContext context).2 :=
    { entries := List.Sublist.refl _
      opened_le := Nat.le_succ _
      handles := rfl
      registrations := fun _ => rfl }
  have hother (entry : Entry σ) (hentry : entry ∈ env.store.entries) :
      ¬entry.registry = (env.nestedContext context).1.registry := by
    intro heq
    have hlt := h.opened entry hentry
    rw [heq] at hlt
    exact Nat.lt_irrefl _ hlt
  refine ⟨{ h.of_shrinks hopened h.balanced with
    registry_lt := Nat.lt_succ_self _
    quiet := fun entry hentry => ?_ }, ?_⟩
  · obtain ⟨hmem, hregistry⟩ := List.mem_filter.1 hentry
    exact absurd (of_decide_eq_true hregistry) (hother entry hmem)
  · refine List.filter_eq_self.2 fun entry hentry => ?_
    rw [Bool.not_eq_true', decide_eq_false_iff_not]
    exact hother entry hentry

/-- When a scope is closed, what was registered before it is registered, and nothing else. -/
theorem Passage.close (henv : env.Formed) (context : Context)
    (h : Passage (env.nestedContext context).1.registry (env.nestedContext context).2 after) :
    Shrinks after ((after.clean (env.nestedContext context).1.registry).2.dropRegistry
        (env.nestedContext context).1.registry) ∧
      ((after.clean (env.nestedContext context).1.registry).2.dropRegistry
        (env.nestedContext context).1.registry).Balanced ∧
      ((after.clean (env.nestedContext context).1.registry).2.dropRegistry
        (env.nestedContext context).1.registry).store.entries = env.store.entries := by
  obtain ⟨hclosed, hentries⟩ := h.ready.close
  have hcleaned := h.ready.balanced.clean (env.nestedContext context).1.registry
  refine ⟨hclosed, hcleaned.dropRegistry _, ?_⟩
  rw [hentries, h.elsewhere, (henv.nestedContext context).2]

/-- A scope that a run opens leaves the registered resources as they were. -/
theorem Ready.scope (h : env.Ready registry) (context : Context)
    (hscope : Passage (env.nestedContext context).1.registry (env.nestedContext context).2 after) :
    Passage registry env ((after.clean (env.nestedContext context).1.registry).2.dropRegistry
      (env.nestedContext context).1.registry) := by
  obtain ⟨hclosed, hbalanced, hentries⟩ := hscope.close h.toFormed context
  have hopened := Nat.le_trans (Nat.le_trans (Nat.le_succ _) hscope.opened_le) hclosed.opened_le
  exact {
    ready :=
      { hscope.ready.toFormed.of_shrinks hclosed hbalanced with
        registry_lt := Nat.lt_of_lt_of_le h.registry_lt hopened
        quiet := by
          rw [Store.entriesOf, hentries]
          exact h.quiet }
    opened_le := hopened
    handles_le := by
      rw [hclosed.handles]
      exact hscope.handles_le
    elsewhere := by
      rw [Store.elsewhere, hentries]
      rfl
    registrations := fun handle => by
      rw [hclosed.registrations, hclosed.handles]
      exact hscope.registrations handle }

end Env

/-- A run whose resources have quiet disposals changes nothing in other registries, and registers
every resource that it opens once. -/
theorem Env.Course.passage {registry : RegistryId} {before after : Env σ}
    (h : Course Disposal.IsQuiet registry before after) (hbefore : before.Ready registry) :
    Passage registry before after := by
  induction h with
  | nothing env => exact (SameResources.refl env).passage hbefore
  | next first second ihFirst ihSecond =>
    have hfirst := ihFirst hbefore
    exact hfirst.trans (ihSecond hfirst.ready)
  | react env user happenings =>
    have huser : SameResources env { env with user } := ⟨⟨rfl, rfl, fun _ => rfl⟩, fun _ => rfl⟩
    exact (huser.trans (sameResources_happenAll _ happenings)).passage hbefore
  | cancel env reason => exact (sameResources_cancel env reason).passage hbefore
  | note env hevent => exact (sameResources_record env hevent).passage hbefore
  | draw env dice =>
    have hdice : SameResources env { env with dice } := ⟨⟨rfl, rfl, fun _ => rfl⟩, fun _ => rfl⟩
    exact hdice.passage hbefore
  | acquire env hquiet => exact hbefore.acquire hquiet
  | release env handle => exact hbefore.release handle
  | scope env context h ih =>
    exact hbefore.scope context (ih (hbefore.toFormed.nestedContext context).1)

end Transduction
