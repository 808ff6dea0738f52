import Transduction.Proofs.Release.Course

/-!
# The ledger of registered resources

The history of a run tells how often resources were registered and released, and the store tells
which ones are still held. At any time every registration is accounted for: it was either released
or is still held. While disposals run there is a third kind, the entries that were taken out of the
store and wait for their disposals. This holds for all disposals, also for those that register,
release or clean on their own.

## Main definitions

* `Env.registrations`, `Env.releases`, `Env.held`, `Task.pending`: the counts, over selected
  resources.
* `Env.Balanced`: every registration was either released or is still held.

## Main results

* `settle_balanced`: working through a list of tasks releases each waiting entry once.
* `Env.Course.balanced`: no act of a run loses or doubles a release.
-/

namespace Transduction

variable {σ : Type}

/-! ### The operations on the store -/

namespace Store

/-- Taking an entry out leaves all others in order. -/
theorem extract?_eq_some {registry : RegistryId} {handle : Handle} {entries rest : List (Entry σ)}
    {entry : Entry σ} (h : extract? registry handle entries = some (entry, rest)) :
    entry.isFor registry handle = true ∧
      ∃ front back, entries = front ++ entry :: back ∧ rest = front ++ back := by
  induction entries generalizing rest with
  | nil => cases h
  | cons first entries ih =>
    rw [extract?] at h
    by_cases hfirst : first.isFor registry handle = true
    · rw [if_pos hfirst] at h
      obtain ⟨rfl, rfl⟩ := Prod.mk.inj (Option.some.inj h)
      exact ⟨hfirst, [], entries, rfl, rfl⟩
    · rw [if_neg hfirst] at h
      obtain ⟨⟨found, others⟩, hfound, heq⟩ := Option.map_eq_some_iff.1 h
      obtain ⟨rfl, rfl⟩ := Prod.mk.inj heq
      obtain ⟨hfor, front, back, rfl, rfl⟩ := ih hfound
      exact ⟨hfor, first :: front, back, rfl, rfl⟩

/-- Removing a resource takes out one entry for it. -/
theorem remove_eq_some {store rest : Store σ} {registry : RegistryId} {handle : Handle}
    {entry : Entry σ} (h : store.remove registry handle = some (entry, rest)) :
    entry.registry = registry ∧ entry.handle = handle ∧
      ∃ front back, store.entries = front ++ entry :: back ∧
        rest = { store with entries := front ++ back } := by
  obtain ⟨⟨found, others⟩, hfound, heq⟩ := Option.map_eq_some_iff.1 h
  obtain ⟨rfl, rfl⟩ := Prod.mk.inj heq
  obtain ⟨hfor, front, back, hentries, rfl⟩ := extract?_eq_some hfound
  rw [Entry.isFor, Bool.and_eq_true, decide_eq_true_eq, decide_eq_true_eq] at hfor
  exact ⟨hfor.1, hfor.2, front, back, hentries, rfl⟩

/-- A resource that can be taken out of a registry is registered in it. -/
theorem contains_of_remove {store : Store σ} {registry : RegistryId} {handle : Handle}
    {found : Entry σ × Store σ} (h : store.remove registry handle = some found) :
    store.contains registry handle = true := by
  obtain ⟨hregistry, hhandle, front, back, hentries, -⟩ := remove_eq_some h
  refine List.any_eq_true.2 ⟨found.1, ?_, ?_⟩
  · rw [hentries]
    exact List.mem_append_right front List.mem_cons_self
  · rw [Entry.isFor, hregistry, hhandle, decide_eq_true rfl, decide_eq_true rfl]
    rfl

/-- A resource that is not registered in a registry cannot be taken out of it. -/
theorem remove_of_not_contains {store : Store σ} {registry : RegistryId} {handle : Handle}
    (h : ¬store.contains registry handle = true) : store.remove registry handle = none := by
  cases hremove : store.remove registry handle with
  | none => rfl
  | some found => exact absurd (contains_of_remove hremove) h

/-- A resource that cannot be taken out of a registry is not registered in it. -/
theorem not_contains_of_remove {store : Store σ} {registry : RegistryId} {handle : Handle}
    (h : store.remove registry handle = none) : ¬store.contains registry handle = true := by
  have hextract : extract? registry handle store.entries = none := Option.map_eq_none_iff.1 h
  rw [contains]
  generalize store.entries = entries at hextract ⊢
  induction entries with
  | nil => exact Bool.false_ne_true
  | cons first entries ih =>
    rw [extract?] at hextract
    by_cases hfirst : first.isFor registry handle = true
    · rw [if_pos hfirst] at hextract
      cases hextract
    · rw [if_neg hfirst] at hextract
      rw [List.any_cons, Bool.or_eq_true, not_or]
      exact ⟨hfirst, ih (Option.map_eq_none_iff.1 hextract)⟩

/-- The entries of all other registries. -/
def elsewhere (store : Store σ) (registry : RegistryId) : List (Entry σ) :=
  store.entries.filter fun entry => !decide (entry.registry = registry)

/-- Every entry is either in a registry or elsewhere. -/
theorem countP_entries (store : Store σ) (registry : RegistryId) (p : Entry σ → Bool) :
    store.entries.countP p =
      (store.entriesOf registry).countP p + (store.elsewhere registry).countP p := by
  rw [← List.countP_append]
  exact ((List.filter_append_perm _ store.entries).countP_eq p).symm

end Store

/-- Registering a resource that is not registered yet adds one entry at the end. -/
theorem Env.register_of_not_contains {env : Env σ} {entry : Entry σ}
    (h : ¬env.store.contains entry.registry entry.handle = true) :
    env.register entry =
      { env with
        store := { env.store with entries := env.store.entries ++ [entry] }
        history := .registered entry.registry entry.handle :: env.history } := by
  rw [register, if_neg h, Store.insert, if_neg h]

/-! ### The counts -/

/-- Selects one resource, wherever it is registered. -/
def Handle.anywhere (handle : Handle) : RegistryId → Handle → Bool := fun _ h => h = handle

/-- Selects one resource in one registry. -/
def Handle.within (handle : Handle) (registry : RegistryId) : RegistryId → Handle → Bool :=
  fun r h => r = registry && h = handle

namespace Env

/-- How many registrations of selected resources there were. -/
def registrations (env : Env σ) (p : RegistryId → Handle → Bool) : Nat :=
  env.history.countP fun
    | .registered registry handle => p registry handle
    | _ => false

/-- How many releases of selected resources began. -/
def releases (env : Env σ) (p : RegistryId → Handle → Bool) : Nat :=
  env.history.countP fun
    | .disposed registry handle => p registry handle
    | _ => false

/-- How many selected resources are registered. -/
def held (env : Env σ) (p : RegistryId → Handle → Bool) : Nat :=
  env.store.entries.countP fun entry => p entry.registry entry.handle

end Env

/-- How many selected resources wait for their disposals. -/
def Task.pending (p : RegistryId → Handle → Bool) : List (Task σ) → Nat
  | [] => 0
  | .dispose entry :: rest => (if p entry.registry entry.handle then 1 else 0) + pending p rest
  | .resume _ :: rest => pending p rest

/-- Every registration was released, is still held, or waits for its disposal. -/
def Env.BalancedWith (tasks : List (Task σ)) (env : Env σ) : Prop :=
  ∀ p, env.registrations p = env.releases p + env.held p + Task.pending p tasks

/-- Every registration was either released or is still held. -/
def Env.Balanced (env : Env σ) : Prop := env.BalancedWith []

theorem Env.disposals_eq_releases (env : Env σ) (handle : Handle) :
    env.disposals handle = env.releases handle.anywhere := rfl

theorem Task.pending_append (p : RegistryId → Handle → Bool) (first second : List (Task σ)) :
    pending p (first ++ second) = pending p first + pending p second := by
  induction first with
  | nil => rw [List.nil_append, pending, Nat.zero_add]
  | cons task rest ih =>
    cases task with
    | dispose entry => rw [List.cons_append, pending, pending, ih, Nat.add_assoc]
    | resume disposal => rw [List.cons_append, pending, pending, ih]

theorem Task.pending_map_dispose (p : RegistryId → Handle → Bool) (entries : List (Entry σ)) :
    pending p (entries.map dispose) =
      entries.countP fun entry => p entry.registry entry.handle := by
  induction entries with
  | nil => rfl
  | cons entry rest ih => rw [List.map_cons, pending, ih, List.countP_cons, Nat.add_comm]

/-! ### Acts that touch no resource -/

namespace Env

variable (env : Env σ)

/-- Surroundings in which the same resources are registered, and as many were opened. -/
structure SameHoldings (before after : Env σ) : Prop where
  store : after.store = before.store
  handles : after.handles = before.handles
  registrations : ∀ p, after.registrations p = before.registrations p

theorem SameHoldings.refl : SameHoldings env env := ⟨rfl, rfl, fun _ => rfl⟩

theorem SameHoldings.trans {before between after : Env σ} (first : SameHoldings before between)
    (second : SameHoldings between after) : SameHoldings before after :=
  ⟨second.store.trans first.store, second.handles.trans first.handles,
    fun p => (second.registrations p).trans (first.registrations p)⟩

/-- Surroundings that differ in nothing that concerns resources. -/
structure SameResources (before after : Env σ) : Prop extends SameHoldings before after where
  releases : ∀ p, after.releases p = before.releases p

theorem SameResources.refl : SameResources env env := ⟨.refl env, fun _ => rfl⟩

theorem SameResources.trans {before between after : Env σ} (first : SameResources before between)
    (second : SameResources between after) : SameResources before after :=
  ⟨first.toSameHoldings.trans second.toSameHoldings,
    fun p => (second.releases p).trans (first.releases p)⟩

theorem SameResources.balancedWith {before after : Env σ} (h : SameResources before after)
    {tasks : List (Task σ)} (hbefore : before.BalancedWith tasks) : after.BalancedWith tasks := by
  intro p
  rw [h.registrations, h.releases, held, h.store]
  exact hbefore p

theorem sameResources_cancel (reason : String) : SameResources env (env.cancel reason) := by
  rw [cancel]
  cases env.token.reason with
  | some _ => exact .refl env
  | none => exact ⟨⟨rfl, rfl, fun p => List.countP_cons_of_neg Bool.false_ne_true⟩,
      fun p => List.countP_cons_of_neg Bool.false_ne_true⟩

theorem sameResources_happen (happening : Happening) :
    SameResources env (env.happen happening) := by
  cases happening with
  | cancel reason => exact sameResources_cancel env reason
  | elapse nanos => exact ⟨⟨rfl, rfl, fun _ => rfl⟩, fun _ => rfl⟩

theorem sameResources_happenAll (happenings : List Happening) :
    SameResources env (env.happenAll happenings) := by
  induction happenings generalizing env with
  | nil => exact .refl env
  | cons happening rest ih => exact (sameResources_happen env happening).trans (ih _)

theorem sameResources_record {event : Event} (h : env.Permits event) :
    SameResources env (env.record event) := by
  cases event with
  | registered | disposed | cancelled => exact h.elim
  | handed | attempted | waited | stopped =>
    exact ⟨⟨rfl, rfl, fun p => List.countP_cons_of_neg Bool.false_ne_true⟩,
    fun p => List.countP_cons_of_neg Bool.false_ne_true⟩

end Env

/-! ### Settling -/

namespace Env.BalancedWith

variable {env : Env σ} {tasks : List (Task σ)}

/-- A new registration is held; registering again changes nothing. -/
theorem register (h : env.BalancedWith tasks) (entry : Entry σ) :
    (env.register entry).BalancedWith tasks := by
  by_cases hcontains : env.store.contains entry.registry entry.handle = true
  · rw [Env.register, if_pos hcontains]
    exact h
  · rw [register_of_not_contains hcontains]
    intro p
    have hbefore := h p
    simp only [registrations, releases, held, List.countP_append, List.countP_cons, List.countP_nil,
      Bool.false_eq_true, if_false] at hbefore ⊢
    omega

/-- A resource that is taken out of the store waits for its disposal. -/
theorem remove (h : env.BalancedWith tasks) {registry : RegistryId} {handle : Handle}
    {entry : Entry σ} {store : Store σ} (hremove : env.store.remove registry handle =
      some (entry, store)) : BalancedWith (.dispose entry :: tasks) { env with store } := by
  intro p
  obtain ⟨-, -, front, back, hentries, rfl⟩ := Store.remove_eq_some hremove
  have hbefore := h p
  simp only [registrations, releases, held, hentries, Task.pending, List.countP_append,
    List.countP_cons] at hbefore ⊢
  omega

/-- The resources of a registry that is drained wait for their disposals. -/
theorem drain (h : env.BalancedWith tasks) (registry : RegistryId) :
    BalancedWith ((env.store.drain registry).1.map .dispose ++ tasks)
      { env with store := (env.store.drain registry).2 } := by
  intro p
  have hbefore := h p
  rw [held, env.store.countP_entries registry] at hbefore
  rw [Task.pending_append, Task.pending_map_dispose]
  change env.registrations p = env.releases p + (env.store.elsewhere registry).countP _ +
    ((env.store.entriesOf registry).countP _ + _)
  omega

/-- The disposal of a waiting resource is its release. -/
theorem dispose {entry : Entry σ} (h : env.BalancedWith (.dispose entry :: tasks)) :
    (env.record (.disposed entry.registry entry.handle)).BalancedWith
      (.resume entry.disposal :: tasks) := by
  intro p
  have hbefore := h p
  simp only [registrations, releases, held, Env.record, Task.pending, List.countP_cons,
    Bool.false_eq_true, if_false] at hbefore ⊢
  omega

end Env.BalancedWith

/-- Settling releases every waiting resource, and whatever the disposals themselves do keeps the
balance. -/
theorem settle_balanced {tasks : List (Task σ)} {env : Env σ} (h : env.BalancedWith tasks) :
    (settle tasks env).Balanced := by
  induction tasks, env using settle.induct with
  | case1 env => rw [settle]; exact h
  | case2 env entry rest ih => rw [settle]; exact ih h.dispose
  | case3 env rest ih | case4 env rest ih => rw [settle]; exact ih h
  | case5 env change next rest ih => rw [settle]; exact ih h
  | case6 env test yes no rest htest ih => rw [settle, if_pos htest]; exact ih h
  | case7 env test yes no rest htest ih => rw [settle, if_neg htest]; exact ih h
  | case8 env happening next rest ih =>
    rw [settle]
    exact ih ((Env.sameResources_happen env happening).balancedWith h)
  | case9 env registry handle disposal next rest hlive ih =>
    rw [settle, if_pos hlive]
    exact ih (h.register _)
  | case10 env registry handle disposal next rest hlive ih => rw [settle, if_neg hlive]; exact ih h
  | case11 env registry handle note next rest hlive entry store hremove ih =>
    have hrest : env.BalancedWith (.resume (.act (note true) next) :: rest) := h
    rw [settle, if_pos hlive]
    split
    · next hfound =>
      obtain ⟨rfl, rfl⟩ := Prod.mk.inj (Option.some.inj (hremove.symm.trans hfound))
      exact ih (hrest.remove hremove)
    · next hfound => cases hremove.symm.trans hfound
  | case12 env registry handle note next rest hlive hremove ih =>
    rw [settle, if_pos hlive]
    split
    · next hfound => cases hremove.symm.trans hfound
    · exact ih h
  | case13 env registry handle note next rest hlive ih => rw [settle, if_neg hlive]; exact ih h
  | case14 env registry note next rest hlive drained ih =>
    have hrest : env.BalancedWith (.resume (.act (note drained.1.length) next) :: rest) := h
    rw [settle, if_pos hlive]
    exact ih (hrest.drain registry)
  | case15 env registry note next rest hlive ih => rw [settle, if_neg hlive]; exact ih h

/-! ### Acts of a run -/

namespace Env.Balanced

variable {env : Env σ}

theorem start (user : σ) (token : Token) (dice : Dice) : (Env.start user token dice).Balanced :=
  fun _ => rfl

theorem register (h : env.Balanced) (entry : Entry σ) : (env.register entry).Balanced :=
  BalancedWith.register h entry

theorem release (h : env.Balanced) (registry : RegistryId) (handle : Handle) :
    (env.release registry handle).2.Balanced := by
  rw [Env.release]
  cases hremove : env.store.remove registry handle with
  | none => exact h
  | some found => exact settle_balanced (BalancedWith.remove h hremove)

theorem clean (h : env.Balanced) (registry : RegistryId) : (env.clean registry).2.Balanced := by
  have hdrained := BalancedWith.drain h registry
  rw [List.append_nil] at hdrained
  exact settle_balanced hdrained

theorem dropRegistry (h : env.Balanced) (registry : RegistryId) :
    (env.dropRegistry registry).Balanced := by
  have hclosed : BalancedWith [] { env with store := env.store.close registry } := h
  have hdrained := hclosed.drain registry
  rw [List.append_nil] at hdrained
  exact settle_balanced hdrained

end Env.Balanced

/-- The acts of a run keep the balance, whatever the disposals of its resources do. -/
theorem Env.Course.balanced {allowed : Disposal σ → Prop} {registry : RegistryId}
    {before after : Env σ} (h : Course allowed registry before after) (hbefore : before.Balanced) :
    after.Balanced := by
  induction h with
  | nothing env => exact hbefore
  | next first second ihFirst ihSecond => exact ihSecond (ihFirst hbefore)
  | react env user happenings =>
    exact (sameResources_happenAll { env with user } happenings).balancedWith hbefore
  | cancel env reason => exact (sameResources_cancel env reason).balancedWith hbefore
  | note env hevent => exact (sameResources_record env hevent).balancedWith hbefore
  | draw env dice => exact hbefore
  | acquire env hallowed =>
    have hopened : env.newHandle.2.Balanced := hbefore
    exact hopened.register _
  | release env handle => exact hbefore.release _ handle
  | scope env context h ih =>
    have hnested : (env.nestedContext context).2.Balanced := hbefore
    exact ((ih hnested).clean _).dropRegistry _

end Transduction
