import Transduction.Blueprint.Value
import Transduction.Proofs.Conservation.Histories

/-!
# What a clean leaves registered

A clean takes what is registered when it is called and disposes of that. A disposal that it runs may
register something in the same registry, and the clean does not come back for it: unless another
disposal happens to release it, it is still registered when the clean is over. So the registry is
empty after a clean if no disposal registers anything in it, and not in general. Nothing is lost in
either case, since every registration has been disposed of once or is still held, and cleaning again
takes what was left.

## Main definitions

* `Disposal.Avoids`: the disposals that register nothing in a registry.
* `Env.CleansTo`: the ways in which a clean may go.
* `Env.CleanLeaves`: what is left when a clean is over.
* `Env.cleanTimes`: cleaning several times.

## Main results

* `Moment.Next.weight_lt`: every step uses up weight, so every way to go on comes to an end.
* `Moment.Next.owes`: an entry that waits is not forgotten.
* `Moment.Next.avoids`, `Moment.Next.registered_of_avoids`: nothing is registered in a registry that
  all disposals avoid.
* `Env.CleansTo.leaves`: what every clean leaves.
* `Env.size_cleanTimes`: cleaning often enough empties a registry.
* `Stage.cleans_at_end`: the cleans by callers and at the end of runs.
-/

namespace Transduction

variable {σ X A B S : Type} {registry : RegistryId}

/-! ### Disposals that avoid a registry -/

/-- Disposals that register nothing in a registry, and nothing elsewhere whose disposal would. They
may release from it and clean it. -/
def Disposal.Avoids (registry : RegistryId) : Disposal σ → Prop
  | done => True
  | panic => True
  | act _ next => next.Avoids registry
  | branch _ yes no => yes.Avoids registry ∧ no.Avoids registry
  | meanwhile _ next => next.Avoids registry
  | acquire other _ disposal next =>
    other ≠ registry ∧ disposal.Avoids registry ∧ next.Avoids registry
  | release _ _ _ next => next.Avoids registry
  | clean _ _ next => next.Avoids registry

/-- Tasks that register nothing in a registry. -/
def Task.Avoids (registry : RegistryId) : Task σ → Prop
  | dispose entry => entry.disposal.Avoids registry
  | resume disposal => disposal.Avoids registry

/-- All disposals that may still run register nothing in a registry. -/
def Store.Avoids (registry : RegistryId) (store : Store σ) : Prop :=
  ∀ entry ∈ store.entries, entry.disposal.Avoids registry

theorem Env.avoids_register {env : Env σ} {entry : Entry σ} (henv : env.store.Avoids registry)
    (hentry : entry.disposal.Avoids registry) : (env.register entry).store.Avoids registry := by
  by_cases hcontains : env.store.contains entry.registry entry.handle = true
  · rw [register, if_pos hcontains]
    exact henv
  · rw [register_of_not_contains hcontains]
    intro other hother
    rcases List.mem_append.1 hother with hold | hnew
    · exact henv other hold
    · rw [List.mem_singleton.1 hnew]
      exact hentry

theorem Store.Avoids.remove {store rest : Store σ} {cleaned : RegistryId} {handle : Handle}
    {entry : Entry σ} (h : store.Avoids registry)
    (hremove : store.remove cleaned handle = some (entry, rest)) :
    entry.disposal.Avoids registry ∧ rest.Avoids registry := by
  obtain ⟨-, -, front, back, hentries, rfl⟩ := remove_eq_some hremove
  rw [Avoids, hentries] at h
  refine ⟨h entry (List.mem_append_right front List.mem_cons_self), fun other hother => ?_⟩
  exact h other (((List.sublist_cons_self entry back).append_left front).subset hother)

theorem Store.Avoids.drain {store : Store σ} (h : store.Avoids registry) (cleaned : RegistryId) :
    (∀ entry ∈ store.entriesOf cleaned, entry.disposal.Avoids registry) ∧
      (store.drain cleaned).2.Avoids registry :=
  ⟨fun entry hentry => h entry (List.mem_filter.1 hentry).1,
    fun entry hentry => h entry (List.mem_filter.1 hentry).1⟩

/-- Nothing is left of a registry whose entries were taken out. -/
theorem Store.size_drain (store : Store σ) (registry : RegistryId) :
    (store.drain registry).2.size registry = 0 := by
  refine congrArg List.length (List.filter_eq_nil_iff.2 fun entry hentry hin => ?_)
  have hother := (List.mem_filter.1 hentry).2
  rw [hin] at hother
  cases hother

/-- The order of some entries does not matter for their weight. -/
theorem Entry.total_perm {first second : List (Entry σ)} (h : first.Perm second) :
    total first = total second := by
  induction h with
  | nil => rfl
  | cons entry _ ih => rw [total_cons, total_cons, ih]
  | swap => simp only [total_cons, Nat.add_left_comm]
  | trans _ _ first second => exact first.trans second

namespace Moment

variable {before after : Moment σ}

/-- Nothing that is left to do or held registers anything in a registry. -/
structure Avoids (registry : RegistryId) (moment : Moment σ) : Prop where
  tasks : ∀ task ∈ moment.tasks, task.Avoids registry
  held : moment.env.store.Avoids registry

theorem Next.avoids (h : before.Next after) (hbefore : before.Avoids registry) :
    after.Avoids registry := by
  obtain ⟨htasks, hheld⟩ := hbefore
  cases h with
  | dispose | act | miss =>
    obtain ⟨hfirst, hrest⟩ := List.forall_mem_cons.1 htasks
    exact ⟨List.forall_mem_cons.2 ⟨hfirst, hrest⟩, hheld⟩
  | done | panic | gone => exact ⟨(List.forall_mem_cons.1 htasks).2, hheld⟩
  | branch test yes no rest env =>
    obtain ⟨⟨hyes, hno⟩, hrest⟩ := List.forall_mem_cons.1 htasks
    refine ⟨List.forall_mem_cons.2 ⟨?_, hrest⟩, hheld⟩
    cases test env.user with
    | true => exact hyes
    | false => exact hno
  | meanwhile happening next rest env =>
    obtain ⟨hnext, hrest⟩ := List.forall_mem_cons.1 htasks
    refine ⟨List.forall_mem_cons.2 ⟨hnext, hrest⟩, ?_⟩
    rw [Env.store_happen]
    exact hheld
  | acquire =>
    obtain ⟨⟨-, hdisposal, hnext⟩, hrest⟩ := List.forall_mem_cons.1 htasks
    exact ⟨List.forall_mem_cons.2 ⟨hnext, hrest⟩, Env.avoids_register hheld hdisposal⟩
  | release _ _ _ _ _ _ _ _ _ hremove =>
    obtain ⟨hnext, hrest⟩ := List.forall_mem_cons.1 htasks
    obtain ⟨hentry, hothers⟩ := hheld.remove hremove
    exact ⟨List.forall_mem_cons.2 ⟨hentry, List.forall_mem_cons.2 ⟨hnext, hrest⟩⟩, hothers⟩
  | @clean cleaned note next rest env registered invoked order hlive horder =>
    obtain ⟨hnext, hrest⟩ := List.forall_mem_cons.1 htasks
    obtain ⟨hdrained, hothers⟩ := hheld.drain cleaned
    have hwaiting : ∀ task ∈ order.map Task.dispose, Task.Avoids registry task :=
      List.forall_mem_map.2 fun entry hentry => hdrained entry (horder.mem_iff.1 hentry)
    exact ⟨List.forall_mem_append.2 ⟨hwaiting, List.forall_mem_cons.2 ⟨hnext, hrest⟩⟩, hothers⟩

/-- In one step nothing is registered in a registry that everything avoids. -/
theorem Next.registered_of_avoids (h : before.Next after) (hbefore : before.Avoids registry) :
    after.registered.filter (Entry.isIn registry) =
      before.registered.filter (Entry.isIn registry) := by
  cases h with
  | dispose | done | panic | act | branch | meanwhile | release | miss | clean | gone => rfl
  | acquire other handle disposal next rest env registered =>
    obtain ⟨⟨hother, -⟩, -⟩ := List.forall_mem_cons.1 hbefore.tasks
    have hadded : (env.added ⟨other, handle, disposal⟩).filter (Entry.isIn registry) = [] := by
      refine List.filter_eq_nil_iff.2 fun entry hentry hin => ?_
      rw [Env.added] at hentry
      split at hentry
      · cases hentry
      · rw [List.mem_singleton.1 hentry] at hin
        exact hother (of_decide_eq_true hin)
    rw [List.filter_append, hadded, List.nil_append]

theorem Avoids.later (hbefore : before.Avoids registry)
    (h : Relation.ReflTransGen Next before after) : after.Avoids registry ∧
      after.registered.filter (Entry.isIn registry) =
        before.registered.filter (Entry.isIn registry) := by
  induction h with
  | refl => exact ⟨hbefore, rfl⟩
  | tail _ hnext ih =>
    exact ⟨hnext.avoids ih.1, (hnext.registered_of_avoids ih.1).trans ih.2⟩

/-! ### Entries that wait -/

/-- The entries whose disposals have begun, and those that wait for it. -/
def owed (moment : Moment σ) : List (Entry σ) := moment.invoked ++ Task.waiting moment.tasks

/-- In one step no entry that waits is forgotten. -/
theorem Next.owes (h : before.Next after) : ∃ more, after.owed.Perm (before.owed ++ more) := by
  have hsame {first second : List (Entry σ)} (h : second.Perm first) :
      ∃ more, second.Perm (first ++ more) := ⟨[], by rwa [List.append_nil]⟩
  cases h with
  | dispose => exact hsame List.perm_middle.symm
  | done | panic | act | branch | meanwhile | acquire | miss | gone =>
    exact hsame (List.Perm.refl _)
  | @release _ _ _ _ _ _ _ _ entry =>
    refine ⟨[entry], List.perm_middle.trans ?_⟩
    exact (List.perm_append_singleton entry _).symm
  | @clean _ _ _ _ _ _ _ order =>
    refine ⟨order, ?_⟩
    rw [owed, Task.waiting_map_dispose_append, owed, List.append_assoc]
    exact List.perm_append_comm.append_left _

theorem owes_of_later (h : Relation.ReflTransGen Next before after) :
    ∃ more, after.owed.Perm (before.owed ++ more) := by
  induction h with
  | refl => exact ⟨[], by rw [List.append_nil]⟩
  | tail _ hnext ih =>
    obtain ⟨older, holder⟩ := ih
    obtain ⟨newer, hnewer⟩ := hnext.owes
    refine ⟨older ++ newer, hnewer.trans ?_⟩
    rw [← List.append_assoc]
    exact holder.append_right newer

/-! ### Weight -/

/-- A bound on the steps that can still follow. -/
def weight (moment : Moment σ) : Nat := Task.total moment.tasks + moment.env.store.weight

/-- Every step uses up weight. -/
theorem Next.weight_lt (h : before.Next after) : after.weight < before.weight := by
  cases h with
  | dispose | done | panic | act | miss =>
    simp only [weight, Task.total_cons, Task.weight, Entry.weight, Disposal.weight, Env.record]
    omega
  | branch test yes no rest env =>
    simp only [weight, Task.total_cons, Task.weight, Disposal.weight]
    cases test env.user <;> simp only [if_true, Bool.false_eq_true, if_false] <;> omega
  | meanwhile =>
    simp only [weight, Task.total_cons, Task.weight, Disposal.weight, Env.store_happen]
    omega
  | acquire other handle disposal next rest env =>
    have hregister := env.weight_register_le ⟨other, handle, disposal⟩
    simp only [weight, Task.total_cons, Task.weight, Disposal.weight, Entry.weight] at hregister ⊢
    omega
  | release _ _ _ _ _ _ _ _ _ hremove =>
    have hremoved := Store.weight_remove hremove
    simp only [weight, Task.total_cons, Task.weight, Disposal.weight]
    omega
  | clean cleaned note next rest env _ _ _ horder =>
    have hdrained : Entry.total (env.store.entriesOf cleaned) +
        (env.store.drain cleaned).2.weight = env.store.weight := env.store.weight_drain cleaned
    simp only [weight, Task.total_append, Task.total_map_dispose, Task.total_cons, Task.weight,
      Disposal.weight, Entry.total_perm horder]
    omega
  | gone disposal =>
    have hpos := disposal.weight_pos
    simp only [weight, Task.total_cons, Task.weight]
    omega

theorem weight_le_of_later (h : Relation.ReflTransGen Next before after) :
    after.weight ≤ before.weight := by
  induction h with
  | refl => exact Nat.le_refl _
  | tail _ hnext ih => exact Nat.le_trans (Nat.le_of_lt hnext.weight_lt) ih

end Moment

/-! ### Cleaning -/

namespace Env

variable {before after env : Env σ} {registered disposed : List (Entry σ)}

/-- One way in which a clean may go, with what is registered and what is disposed of meanwhile,
latest first. What is registered at the beginning is taken out at once and disposed of in some
order. -/
def CleansTo (registry : RegistryId) (before after : Env σ) (registered disposed : List (Entry σ)) :
    Prop :=
  ∃ order : List (Entry σ), order.Perm (before.store.entriesOf registry) ∧
    Relation.ReflTransGen Moment.Next
      ⟨order.map .dispose, { before with store := (before.store.drain registry).2 },
        before.store.entries, []⟩
      ⟨[], after, registered ++ before.store.entries, disposed⟩

/-- What is left when a clean is over. -/
structure CleanLeaves (registry : RegistryId) (before after : Env σ)
    (registered disposed : List (Entry σ)) : Prop where
  /-- Everything that was registered before the clean or during it, in whatever registry, has been
  disposed of once or is still registered. -/
  ledger : (before.store.entries ++ registered).Perm (disposed ++ after.store.entries)
  /-- The history tells of what was registered and of what was disposed of. -/
  told : ∀ p, after.registrations p =
      before.registrations p + registered.countP (Entry.isSelected p) ∧
    after.releases p = before.releases p + disposed.countP (Entry.isSelected p)
  /-- In the registry that is cleaned, everything that was registered before has been disposed of.
  What was registered in it meanwhile has been disposed of in part, and the rest is all that is
  registered in it now. -/
  inside : ∃ again : List (Entry σ),
    (disposed.filter (Entry.isIn registry)).Perm (before.store.entriesOf registry ++ again) ∧
    (registered.filter (Entry.isIn registry)).Perm (again ++ after.store.entriesOf registry)
  /-- So the registry is empty if and only if everything that was registered in it before or
  meanwhile has been disposed of. -/
  empty : after.store.size registry = 0 ↔
    (before.store.entriesOf registry ++ registered.filter (Entry.isIn registry)).Perm
      (disposed.filter (Entry.isIn registry))
  /-- It is empty if no disposal registers anything in it. -/
  avoided : before.store.Avoids registry → after.store.size registry = 0

/-- Cleaning is one of the ways. -/
theorem cleansTo_clean (env : Env σ) (registry : RegistryId) :
    ∃ registered disposed, env.CleansTo registry (env.clean registry).2 registered disposed := by
  let drained : Env σ := { env with store := (env.store.drain registry).2 }
  obtain ⟨all, disposed, hlater⟩ := Moment.settles
    ((env.store.entriesOf registry).map .dispose) drained env.store.entries []
  obtain ⟨registered, hall, -⟩ := (Moment.extends_of_later hlater).registered
  exact ⟨registered, disposed, _, List.Perm.refl _, hall ▸ hlater⟩

theorem CleansTo.ledger (h : CleansTo registry before after registered disposed) :
    (before.store.entries ++ registered).Perm (disposed ++ after.store.entries) := by
  obtain ⟨order, horder, hlater⟩ := h
  have hidle : Moment.Balances ⟨[], before, before.store.entries, []⟩ := by
    rw [Moment.Balances]
    exact List.Perm.of_eq (List.append_nil _).symm
  have hbegun := hidle.drain horder
  rw [List.append_nil] at hbegun
  have hended : List.Perm _ (_ ++ []) := Moment.balances_of_later hlater hbegun
  rw [List.append_nil] at hended
  exact List.perm_append_comm.trans hended

theorem CleansTo.ledger_within (h : CleansTo registry before after registered disposed) :
    (before.store.entriesOf registry ++ registered.filter (Entry.isIn registry)).Perm
      (disposed.filter (Entry.isIn registry) ++ after.store.entriesOf registry) := by
  have hfiltered := h.ledger.filter (Entry.isIn registry)
  rwa [List.filter_append, List.filter_append] at hfiltered

/-- A clean disposes of everything that was registered when it began. -/
theorem CleansTo.disposes (h : CleansTo registry before after registered disposed) :
    ∃ more, disposed.Perm (before.store.entriesOf registry ++ more) := by
  obtain ⟨order, horder, hlater⟩ := h
  obtain ⟨more, howed⟩ := Moment.owes_of_later hlater
  rw [Moment.owed, Moment.owed, List.nil_append, Task.waiting_map_dispose] at howed
  refine ⟨more, List.Perm.trans ?_ (howed.trans (horder.append_right more))⟩
  exact List.Perm.of_eq (List.append_nil disposed).symm

theorem CleansTo.inside (h : CleansTo registry before after registered disposed) :
    ∃ again : List (Entry σ),
      (disposed.filter (Entry.isIn registry)).Perm (before.store.entriesOf registry ++ again) ∧
      (registered.filter (Entry.isIn registry)).Perm (again ++ after.store.entriesOf registry) := by
  obtain ⟨more, hmore⟩ := h.disposes
  have hdisposed := hmore.filter (Entry.isIn registry)
  have hsame : (before.store.entriesOf registry).filter (Entry.isIn registry) =
      before.store.entriesOf registry :=
    List.filter_eq_self.2 fun entry hentry => (List.mem_filter.1 hentry).2
  rw [List.filter_append, hsame] at hdisposed
  -- What was registered before was disposed of, so it cancels out of the ledger.
  have hboth := h.ledger_within.trans (hdisposed.append_right _)
  rw [List.append_assoc] at hboth
  exact ⟨more.filter (Entry.isIn registry), hdisposed, (List.perm_append_left_iff _).1 hboth⟩

/-- Nothing is registered in the registry meanwhile if all disposals avoid it. -/
theorem CleansTo.registered_of_avoids (h : CleansTo registry before after registered disposed)
    (hbefore : before.store.Avoids registry) : registered.filter (Entry.isIn registry) = [] := by
  obtain ⟨order, horder, hlater⟩ := h
  obtain ⟨hdrained, hothers⟩ := hbefore.drain registry
  have hbegun : Moment.Avoids registry ⟨order.map .dispose,
      { before with store := (before.store.drain registry).2 }, before.store.entries, []⟩ :=
    ⟨List.forall_mem_map.2 fun entry hentry => hdrained entry (horder.mem_iff.1 hentry), hothers⟩
  have hnothing := (hbegun.later hlater).2
  rw [List.filter_append] at hnothing
  exact List.append_cancel_right (hnothing.trans (List.nil_append _).symm)

/-- Whatever the disposals do, a clean loses and doubles nothing, and what it leaves registered has
been registered while it went on. -/
theorem CleansTo.leaves (h : CleansTo registry before after registered disposed) :
    CleanLeaves registry before after registered disposed where
  ledger := h.ledger
  told p := by
    obtain ⟨order, -, hlater⟩ := h
    have htold := Moment.tells_of_later hlater
    refine ⟨?_, htold.releases p⟩
    have hregistrations := htold.registrations p
    simp only [List.countP_append] at hregistrations
    have hsame : Env.registrations { before with store := (before.store.drain registry).2 } p =
      before.registrations p := rfl
    omega
  inside := h.inside
  empty := by
    have hledger := h.ledger_within
    constructor
    · intro hsize
      have hnone : after.store.entriesOf registry = [] := List.eq_nil_of_length_eq_zero hsize
      rwa [hnone, List.append_nil] at hledger
    · intro hall
      have hlength := (hall.symm.trans hledger).length_eq
      rw [List.length_append] at hlength
      rw [Store.size]
      omega
  avoided hbefore := by
    obtain ⟨again, -, hregistered⟩ := h.inside
    rw [h.registered_of_avoids hbefore] at hregistered
    exact congrArg List.length (List.append_eq_nil_iff.1 hregistered.symm.eq_nil).2

/-! ### Cleaning several times -/

/-- A clean of a registry in which something is registered uses up weight. -/
theorem CleansTo.weight_lt (h : CleansTo registry before after registered disposed)
    (hsize : before.store.size registry ≠ 0) : after.store.weight < before.store.weight := by
  obtain ⟨order, horder, hlater⟩ := h
  have hdrained : Entry.total (before.store.entriesOf registry) +
      (before.store.drain registry).2.weight = before.store.weight :=
    before.store.weight_drain registry
  rcases hlater.cases_head with hsame | ⟨next, hnext, hlater⟩
  · have horder' : order = [] := List.map_eq_nil_iff.1 (congrArg Moment.tasks hsame)
    rw [horder'] at horder
    exact absurd (congrArg List.length horder.nil_eq.symm) hsize
  · have hfirst := hnext.weight_lt
    have hothers : after.store.weight ≤ next.weight :=
      Nat.le_trans (Nat.le_add_left _ _) (Moment.weight_le_of_later hlater)
    simp only [Moment.weight, Task.total_map_dispose, Entry.total_perm horder] at hfirst hothers
    omega

/-- Cleaning a registry in which nothing is registered leaves it so. -/
theorem size_clean_of_size_eq_zero (h : env.store.size registry = 0) :
    (env.clean registry).2.store.size registry = 0 := by
  have hnone : env.store.entriesOf registry = [] := List.eq_nil_of_length_eq_zero h
  have hclean : (env.clean registry).2 = settle ((env.store.entriesOf registry).map .dispose)
      { env with store := (env.store.drain registry).2 } := rfl
  rw [hclean, hnone, List.map_nil, settle]
  exact env.store.size_drain registry

/-- What is left after cleaning a registry several times. -/
def cleanTimes (env : Env σ) (registry : RegistryId) : Nat → Env σ
  | 0 => env
  | count + 1 => (env.clean registry).2.cleanTimes registry count

theorem size_cleanTimes_of_size_eq_zero (count : Nat) (h : env.store.size registry = 0) :
    (env.cleanTimes registry count).store.size registry = 0 := by
  induction count generalizing env with
  | zero => exact h
  | succ count ih => exact ih (size_clean_of_size_eq_zero h)

/-- Cleaning often enough empties a registry, whatever the disposals register. -/
theorem size_cleanTimes {count : Nat} (h : env.store.weight ≤ count) :
    (env.cleanTimes registry count).store.size registry = 0 := by
  induction count generalizing env with
  | zero =>
    have hnone : env.store.entries = [] := by
      cases hentries : env.store.entries with
      | nil => rfl
      | cons entry rest =>
        rw [Store.weight, hentries, Entry.total_cons, Entry.weight] at h
        omega
    rw [cleanTimes, Store.size, Store.entriesOf, hnone]
    rfl
  | succ count ih =>
    by_cases hsize : env.store.size registry = 0
    · exact size_cleanTimes_of_size_eq_zero (count + 1) hsize
    · obtain ⟨registered, disposed, hclean⟩ := env.cleansTo_clean registry
      exact ih (Nat.le_of_lt_succ (Nat.lt_of_lt_of_le (hclean.weight_lt hsize) h))

/-! ### Runs -/

/-- Settling tasks that avoid a registry leaves a store that avoids it. -/
theorem avoids_settle {tasks : List (Task σ)} (htasks : ∀ task ∈ tasks, task.Avoids registry)
    (h : env.store.Avoids registry) : (settle tasks env).store.Avoids registry := by
  obtain ⟨_, _, hlater⟩ := Moment.settles tasks env [] []
  have hbegun : Moment.Avoids registry ⟨tasks, env, [], []⟩ := ⟨htasks, h⟩
  exact (hbegun.later hlater).1.held

theorem avoids_release (h : env.store.Avoids registry) (cleaned : RegistryId) (handle : Handle) :
    (env.release cleaned handle).2.store.Avoids registry := by
  rw [release]
  cases hremove : env.store.remove cleaned handle with
  | none => exact h
  | some found =>
    obtain ⟨hentry, hrest⟩ := h.remove hremove
    exact avoids_settle (List.forall_mem_singleton.2 hentry) hrest

theorem avoids_clean (env : Env σ) (h : env.store.Avoids registry) (cleaned : RegistryId) :
    (env.clean cleaned).2.store.Avoids registry := by
  obtain ⟨hdrained, hrest⟩ := h.drain cleaned
  exact avoids_settle (List.forall_mem_map.2 hdrained) hrest

/-- A registry is dropped as it is cleaned, only that it is closed first. -/
theorem avoids_dropRegistry (env : Env σ) (h : env.store.Avoids registry) (dropped : RegistryId) :
    (env.dropRegistry dropped).store.Avoids registry :=
  avoids_clean { env with store := env.store.close dropped } h dropped

/-- A run whose resources have disposals that avoid a registry leaves a store that avoids it. -/
theorem Course.avoids {inside : RegistryId}
    (h : Course (Disposal.Avoids registry) inside before after)
    (hbefore : before.store.Avoids registry) : after.store.Avoids registry := by
  induction h with
  | nothing | note | draw => exact hbefore
  | next _ _ first second => exact second (first hbefore)
  | react env user happenings =>
    rw [(sameResources_happenAll { env with user } happenings).store]
    exact hbefore
  | cancel env reason =>
    rw [(sameResources_cancel env reason).store]
    exact hbefore
  | acquire env hdisposal => exact avoids_register hbefore hdisposal
  | release env handle => exact avoids_release hbefore _ handle
  | scope env context _ ih =>
    exact avoids_dropRegistry _ (avoids_clean _ (ih hbefore) _) _

end Env

namespace Stage

variable [TypeNamed X] (fuel : Nat) (stage : Stage σ X A B) (context : Context) (input : A)
  (env : Env σ)

/-- A run with a sink of its own ends with a clean of its registry. -/
theorem cleanLeaves_runIn (sink : Sink σ X Unit S B) (seed : S) (shape : S → Yield B) :
    ∃ registered disposed, Env.CleanLeaves context.registry
      (stage.run fuel sink context seed input (stage.init, ()) env).env
      (stage.runIn fuel sink seed shape context input env).2 registered disposed := by
  obtain ⟨registered, disposed, hclean⟩ := Env.cleansTo_clean
    (stage.run fuel sink context seed input (stage.init, ()) env).env context.registry
  exact ⟨registered, disposed, hclean.leaves⟩

/-- Nothing is left registered after a run if no disposal registers anything in its registry. -/
theorem size_runIn_of_avoids {sink : Sink σ X Unit S B} (seed : S) (shape : S → Yield B)
    (hstage : stage.Disposes (Disposal.Avoids context.registry))
    (hsink : sink.Follows (Disposal.Avoids context.registry))
    (henv : env.store.Avoids context.registry) :
    (stage.runIn fuel sink seed shape context input env).2.store.size context.registry = 0 := by
  have hcourse := stage.follows_run fuel hstage hsink context seed input (stage.init, ()) env
  obtain ⟨_, _, hleaves⟩ := stage.cleanLeaves_runIn fuel context input env sink seed shape
  exact hleaves.avoided (hcourse.avoids henv)

/-- A clean disposes of everything that was registered when it began, in whatever order, and of
everything once. What its disposals register meanwhile in the same registry is disposed of too or
is left registered, and so the registry is empty if they register nothing in it. Cleaning often
enough empties it in any case. Runs end with a clean of their registry. -/
theorem cleans_at_end :
    (∀ (before : Env σ) (registry : RegistryId),
      (∃ registered disposed,
        before.CleansTo registry (before.clean registry).2 registered disposed) ∧
      (∀ after registered disposed, before.CleansTo registry after registered disposed →
        before.CleanLeaves registry after registered disposed) ∧
      ∀ count, before.store.weight ≤ count →
        (before.cleanTimes registry count).store.size registry = 0) ∧
    (∃ registered disposed, Env.CleanLeaves context.registry
      (stage.run fuel Sink.all context #[] input (stage.init, ()) env).env
      (stage.collectIn fuel context input env).2 registered disposed) ∧
    (∃ registered disposed, Env.CleanLeaves context.registry
      (stage.run fuel Sink.first context none input (stage.init, ()) env).env
      (stage.firstIn fuel context input env).2 registered disposed) ∧
    (stage.Disposes (Disposal.Avoids context.registry) → env.store.Avoids context.registry →
      (stage.collectIn fuel context input env).2.store.size context.registry = 0 ∧
        (stage.firstIn fuel context input env).2.store.size context.registry = 0) := by
  refine ⟨fun before registry => ⟨before.cleansTo_clean registry, fun _ _ _ h => h.leaves,
    fun count h => Env.size_cleanTimes h⟩, stage.cleanLeaves_runIn fuel context input env _ _ _,
    stage.cleanLeaves_runIn fuel context input env _ _ _, fun hstage henv => ⟨?_, ?_⟩⟩
  · exact stage.size_runIn_of_avoids fuel context input env _ _ hstage Sink.follows_all henv
  · exact stage.size_runIn_of_avoids fuel context input env _ _ hstage Sink.follows_first henv

/-- A run over two numbers whose resources release one another and clean the registry. After it
nothing is registered. Of a chain of three resources, each registered by the disposal of the one
before it, nothing is left after as many cleans as the chain has weight. -/
theorem cleans_at_end_releasing :
    let opened := (Env.start () .fresh ⟨id, 0⟩).openContext none
    let registry := opened.1.registry
    let stage : Stage Unit Blueprint.Value (List Nat) (Shared Nat) := compose each
      (acquire (.ofFun .ok) fun _ => .release registry ⟨1⟩ (fun _ user => user)
        (.clean registry (fun _ user => user) .done))
    let chain : Disposal Unit := .acquire registry ⟨1⟩ (.acquire registry ⟨2⟩ .done .done) .done
    let held := opened.2.register ⟨registry, ⟨0⟩, chain⟩
    (stage.collectIn 1 opened.1 [1, 2] opened.2).2.store.size registry = 0 ∧
      (held.cleanTimes registry 8).store.size registry = 0 := by
  intro opened registry stage chain held
  have hstage : stage.Disposes (Disposal.Avoids registry) := ⟨trivial, fun _ => trivial⟩
  have henv : opened.2.store.Avoids registry := nofun
  have hweight : held.store.weight ≤ 8 := by decide
  obtain ⟨hcleans, -, -, hruns⟩ := stage.cleans_at_end 1 opened.1 [1, 2] opened.2
  exact ⟨(hruns hstage henv).1, (hcleans held registry).2.2 8 hweight⟩

/-- A resource whose disposal registers another one in the same registry: when the clean that
disposes of the first one is over, the second one is registered and has not been disposed of. The
same is left by runs that open the first one. -/
theorem clean_leaves_registered :
    let opened := (Env.start () .fresh ⟨id, 0⟩).openContext none
    let registry := opened.1.registry
    let again : Disposal Unit := .acquire registry ⟨1⟩ .done .done
    let stage : Stage Unit Blueprint.Value Nat (Shared Nat) := acquire (.ofFun .ok) fun _ => again
    let cleaned := ((opened.2.register ⟨registry, ⟨0⟩, again⟩).clean registry).2
    (cleaned.store.size registry = 1 ∧ cleaned.disposals ⟨0⟩ = 1 ∧ cleaned.disposals ⟨1⟩ = 0) ∧
      (stage.collectIn 1 opened.1 7 opened.2).2.store.size registry = 1 ∧
      (stage.firstIn 1 opened.1 7 opened.2).2.store.size registry = 1 := by
  decide +kernel

end Stage

end Transduction
