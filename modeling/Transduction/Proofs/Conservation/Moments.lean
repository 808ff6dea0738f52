import Mathlib.Logic.Relation
import Transduction.Proofs.Release.Ledger

/-!
# Moments of releasing

While disposals run there is always something left to do: entries that were taken out of the store
and wait for their disposals, and the rest of the disposals that have begun. A disposal may act on
any open registry in the middle of this. A moment is what there is between two steps, together with
all registrations made and all disposals begun so far, entry by entry.

The steps are those of settling, except that a clean may put the entries it takes out in any order.
Settling takes them in the order of registration, and so it is one of the ways to go on.

## Main definitions

* `Task.waiting`: the entries whose disposals have not begun.
* `Moment`, `Moment.Next`: a moment, and one step of whatever comes first.
* `Moment.Balances`: every registration has been invoked, is held, or waits.
* `Moment.Extends`: what a later moment has in common with an earlier one.
* `Moment.Tells`: the history tells of everything that happened between two moments.
* `Moment.EndsIn`: how a moment may come to an end.

## Main results

* `Moment.Next.balances`: one step loses and doubles nothing.
* `Moment.Next.extends`, `Moment.extends_of_later`: what is held later was held before, or has been
  registered since.
* `Moment.Next.tells`: one step is told of.
* `Moment.settles`: settling is a way to go on until nothing is left to do.
-/

namespace Transduction

variable {σ : Type}

/-- The entries among some tasks whose disposals have not begun. -/
def Task.waiting (tasks : List (Task σ)) : List (Entry σ) :=
  tasks.filterMap fun
    | .dispose entry => some entry
    | .resume _ => none

theorem Task.waiting_dispose (entry : Entry σ) (tasks : List (Task σ)) :
    waiting (.dispose entry :: tasks) = entry :: waiting tasks := rfl

theorem Task.waiting_map_dispose_append (entries : List (Entry σ)) (tasks : List (Task σ)) :
    waiting (entries.map .dispose ++ tasks) = entries ++ waiting tasks := by
  induction entries with
  | nil => rfl
  | cons entry rest ih => exact congrArg (entry :: ·) ih

theorem Task.waiting_map_dispose (entries : List (Entry σ)) :
    waiting (entries.map .dispose) = entries := by
  have happend := waiting_map_dispose_append entries []
  rw [List.append_nil] at happend
  exact happend.trans (List.append_nil entries)

/-- The registry that a disposal acts on next, if it acts on one. -/
def Disposal.target? : Disposal σ → Option RegistryId
  | acquire registry _ _ _ => some registry
  | release registry _ _ _ => some registry
  | clean registry _ _ => some registry
  | done | panic | act _ _ | branch _ _ _ | meanwhile _ _ => none

/-- The registrations that an entry makes: none if its resource is registered already. -/
def Env.added (env : Env σ) (entry : Entry σ) : List (Entry σ) :=
  if env.store.contains entry.registry entry.handle then [] else [entry]

/-- Selects entries by their registries and handles. -/
def Entry.isSelected (p : RegistryId → Handle → Bool) (entry : Entry σ) : Bool :=
  p entry.registry entry.handle

/-- What there is between two steps of releasing resources. -/
structure Moment (σ : Type) where
  /-- What is left to do. -/
  tasks : List (Task σ)
  env : Env σ
  /-- The registrations so far, latest first. -/
  registered : List (Entry σ)
  /-- The entries whose disposals have begun, latest first. -/
  invoked : List (Entry σ)

namespace Moment

/-- One step of the first task. -/
inductive Next : Moment σ → Moment σ → Prop
  | dispose (entry : Entry σ) (rest env registered invoked) :
      Next ⟨.dispose entry :: rest, env, registered, invoked⟩
        ⟨.resume entry.disposal :: rest, env.record (.disposed entry.registry entry.handle),
          registered, entry :: invoked⟩
  | done (rest env registered invoked) :
      Next ⟨.resume .done :: rest, env, registered, invoked⟩ ⟨rest, env, registered, invoked⟩
  | panic (rest env registered invoked) :
      Next ⟨.resume .panic :: rest, env, registered, invoked⟩ ⟨rest, env, registered, invoked⟩
  | act (change next rest env registered invoked) :
      Next ⟨.resume (.act change next) :: rest, env, registered, invoked⟩
        ⟨.resume next :: rest, { env with user := change env.user }, registered, invoked⟩
  | branch (test yes no rest env registered invoked) :
      Next ⟨.resume (.branch test yes no) :: rest, env, registered, invoked⟩
        ⟨.resume (if test env.user then yes else no) :: rest, env, registered, invoked⟩
  | meanwhile (happening next rest env registered invoked) :
      Next ⟨.resume (.meanwhile happening next) :: rest, env, registered, invoked⟩
        ⟨.resume next :: rest, env.happen happening, registered, invoked⟩
  | acquire (registry handle disposal next rest env registered invoked)
      (hlive : env.store.isLive registry = true) :
      Next ⟨.resume (.acquire registry handle disposal next) :: rest, env, registered, invoked⟩
        ⟨.resume next :: rest, env.register ⟨registry, handle, disposal⟩,
          env.added ⟨registry, handle, disposal⟩ ++ registered, invoked⟩
  | release (registry handle note next rest) (env : Env σ) (registered invoked) {entry store}
      (hlive : env.store.isLive registry = true)
      (hremove : env.store.remove registry handle = some (entry, store)) :
      Next ⟨.resume (.release registry handle note next) :: rest, env, registered, invoked⟩
        ⟨.dispose entry :: .resume (.act (note true) next) :: rest, { env with store }, registered,
          invoked⟩
  | miss (registry handle note next rest) (env : Env σ) (registered invoked)
      (hlive : env.store.isLive registry = true)
      (hremove : env.store.remove registry handle = none) :
      Next ⟨.resume (.release registry handle note next) :: rest, env, registered, invoked⟩
        ⟨.resume next :: rest, { env with user := note false env.user }, registered, invoked⟩
  | clean (registry note next rest) (env : Env σ) (registered invoked)
      {order : List (Entry σ)} (hlive : env.store.isLive registry = true)
      (horder : order.Perm (env.store.entriesOf registry)) :
      Next ⟨.resume (.clean registry note next) :: rest, env, registered, invoked⟩
        ⟨order.map .dispose ++ .resume (.act (note (env.store.size registry)) next) :: rest,
          { env with store := (env.store.drain registry).2 }, registered, invoked⟩
  | gone (disposal : Disposal σ) (rest env registered invoked) {registry}
      (htarget : disposal.target? = some registry) (hlive : ¬env.store.isLive registry = true) :
      Next ⟨.resume disposal :: rest, env, registered, invoked⟩ ⟨rest, env, registered, invoked⟩

/-- Every registration has been invoked, is held in a registry, or waits for its disposal. -/
def Balances (moment : Moment σ) : Prop :=
  moment.registered.Perm
    (moment.invoked ++ moment.env.store.entries ++ Task.waiting moment.tasks)

/-- What a later moment has in common with an earlier one: the registries that are open, and
whatever is held later was held before or has been registered since, in an open registry. -/
structure Extends (before after : Moment σ) : Prop where
  live : after.env.store.live = before.env.store.live
  registered : ∃ new, after.registered = new ++ before.registered ∧
    (∀ entry ∈ new, before.env.store.isLive entry.registry = true) ∧
    ∀ entry ∈ after.env.store.entries, entry ∈ before.env.store.entries ∨ entry ∈ new

/-! ### What a step keeps -/

namespace Balances

variable {tasks : List (Task σ)} {env : Env σ} {registered invoked : List (Entry σ)}

/-- A new registration is held. -/
theorem register (h : Balances ⟨tasks, env, registered, invoked⟩) (entry : Entry σ) :
    Balances ⟨tasks, env.register entry, env.added entry ++ registered, invoked⟩ := by
  by_cases hcontains : env.store.contains entry.registry entry.handle = true
  · rw [Env.register, Env.added, if_pos hcontains, if_pos hcontains]
    exact h
  · rw [Env.register_of_not_contains hcontains, Env.added, if_neg hcontains]
    have hcons : (entry :: registered).Perm
        (entry :: (invoked ++ env.store.entries ++ Task.waiting tasks)) := h.cons entry
    refine hcons.trans (List.perm_middle.symm.trans ?_)
    simp only [List.append_assoc, List.cons_append, List.nil_append]
    exact List.Perm.refl _

/-- An entry that is taken out of the store waits for its disposal. -/
theorem remove (h : Balances ⟨tasks, env, registered, invoked⟩) {registry : RegistryId}
    {handle : Handle} {entry : Entry σ} {store : Store σ}
    (hremove : env.store.remove registry handle = some (entry, store)) :
    Balances ⟨.dispose entry :: tasks, { env with store }, registered, invoked⟩ := by
  obtain ⟨-, -, front, back, hentries, rfl⟩ := Store.remove_eq_some hremove
  have hbefore : registered.Perm
      (invoked ++ (front ++ entry :: back) ++ Task.waiting tasks) := hentries ▸ h
  refine hbefore.trans ?_
  simp only [Task.waiting_dispose, List.append_assoc, List.cons_append]
  exact (List.perm_middle.symm.append_left front).append_left invoked

/-- The entries of a registry that are taken out of the store wait for their disposals, in whatever
order. -/
theorem drain (h : Balances ⟨tasks, env, registered, invoked⟩) {registry : RegistryId}
    {order : List (Entry σ)} (horder : order.Perm (env.store.entriesOf registry)) :
    Balances ⟨order.map .dispose ++ tasks, { env with store := (env.store.drain registry).2 },
      registered, invoked⟩ := by
  have hsplit : env.store.entries.Perm (env.store.elsewhere registry ++ order) :=
    calc
      env.store.entries.Perm (env.store.entriesOf registry ++ env.store.elsewhere registry) :=
        (List.filter_append_perm _ env.store.entries).symm
      List.Perm _ (order ++ env.store.elsewhere registry) := horder.symm.append_right _
      List.Perm _ (env.store.elsewhere registry ++ order) := List.perm_append_comm
  refine h.trans ?_
  simp only [Task.waiting_map_dispose_append, List.append_assoc]
  refine List.Perm.append_left invoked ?_
  rw [← List.append_assoc]
  exact hsplit.append_right _

/-- The disposal that begins first belongs to an entry that waited. -/
theorem dispose {entry : Entry σ}
    (h : Balances ⟨.dispose entry :: tasks, env, registered, invoked⟩) :
    Balances ⟨.resume entry.disposal :: tasks,
      env.record (.disposed entry.registry entry.handle), registered, entry :: invoked⟩ :=
  h.trans List.perm_middle

end Balances

/-- One step loses and doubles no registration. -/
theorem Next.balances {before after : Moment σ} (h : before.Next after)
    (hbefore : before.Balances) : after.Balances := by
  cases h with
  | dispose => exact hbefore.dispose
  | done | panic | act | branch | miss | gone => exact hbefore
  | meanwhile happening =>
    rw [Balances, Env.store_happen]
    exact hbefore
  | acquire => exact Balances.register hbefore _
  | release registry handle note next rest env registered invoked hlive hremove =>
    have hrest : Balances ⟨.resume (.act (note true) next) :: rest, env, registered, invoked⟩ :=
      hbefore
    exact hrest.remove hremove
  | clean registry note next rest env registered invoked hlive horder =>
    have hrest : Balances ⟨.resume (.act (note (env.store.size registry)) next) :: rest, env,
      registered, invoked⟩ := hbefore
    exact hrest.drain horder

theorem balances_of_later {before after : Moment σ} (h : Relation.ReflTransGen Next before after)
    (hbefore : before.Balances) : after.Balances := by
  induction h with
  | refl => exact hbefore
  | tail _ hnext ih => exact hnext.balances ih

namespace Extends

variable {before between after : Moment σ}

theorem refl (moment : Moment σ) : moment.Extends moment :=
  ⟨rfl, [], rfl, nofun, fun _ h => .inl h⟩

theorem trans (first : before.Extends between) (second : between.Extends after) :
    before.Extends after := by
  obtain ⟨older, hbetween, hopen, hheld⟩ := first.registered
  obtain ⟨newer, hafter, hopen', hheld'⟩ := second.registered
  refine ⟨second.live.trans first.live, newer ++ older, ?_, fun entry h => ?_, fun entry h => ?_⟩
  · rw [hafter, hbetween, List.append_assoc]
  · rcases List.mem_append.1 h with h | h
    · rw [Store.isLive, ← first.live]
      exact hopen' entry h
    · exact hopen entry h
  · rcases hheld' entry h with h | h
    · rcases hheld entry h with h | h
      · exact .inl h
      · exact .inr (List.mem_append_right _ h)
    · exact .inr (List.mem_append_left _ h)

end Extends

/-- Steps that register nothing and hold no more than before. -/
theorem extends_of_entries {before after : Moment σ}
    (hlive : after.env.store.live = before.env.store.live)
    (hregistered : after.registered = before.registered)
    (hentries : ∀ entry ∈ after.env.store.entries, entry ∈ before.env.store.entries) :
    before.Extends after :=
  ⟨hlive, [], hregistered, nofun, fun entry h => .inl (hentries entry h)⟩

theorem extends_register (tasks tasks' : List (Task σ)) (env : Env σ)
    (registered invoked : List (Entry σ)) {entry : Entry σ}
    (hlive : env.store.isLive entry.registry = true) :
    Extends ⟨tasks, env, registered, invoked⟩
      ⟨tasks', env.register entry, env.added entry ++ registered, invoked⟩ := by
  by_cases hcontains : env.store.contains entry.registry entry.handle = true
  · rw [Env.register, Env.added, if_pos hcontains, if_pos hcontains]
    exact extends_of_entries rfl rfl fun _ h => h
  · rw [Env.register_of_not_contains hcontains, Env.added, if_neg hcontains]
    refine ⟨rfl, [entry], rfl, ?_, fun other h => List.mem_append.1 h⟩
    intro other hother
    rw [List.mem_singleton.1 hother]
    exact hlive

/-- In one step the store gains only what is registered in it. -/
theorem Next.extends {before after : Moment σ} (h : before.Next after) : before.Extends after := by
  cases h with
  | dispose | done | panic | act | branch | miss | gone =>
    exact extends_of_entries rfl rfl fun _ h => h
  | meanwhile happening next rest env =>
    exact extends_of_entries (congrArg Store.live (env.store_happen happening)) rfl
      fun entry h => env.store_happen happening ▸ h
  | acquire _ _ _ _ _ _ _ _ hlive => exact extends_register _ _ _ _ _ hlive
  | release _ _ _ _ _ _ _ _ _ hremove =>
    obtain ⟨-, -, front, back, hentries, rfl⟩ := Store.remove_eq_some hremove
    refine extends_of_entries rfl rfl fun entry h => ?_
    rw [hentries]
    exact ((List.sublist_cons_self _ back).append_left front).subset h
  | clean => exact extends_of_entries rfl rfl fun entry h => (List.mem_filter.1 h).1

theorem extends_of_later {before after : Moment σ}
    (h : Relation.ReflTransGen Next before after) : before.Extends after := by
  induction h with
  | refl => exact .refl before
  | tail _ hnext ih => exact ih.trans hnext.extends

/-! ### What the history tells -/

/-- Between two moments the history tells of as many registrations and disposals of selected
resources as there were. -/
structure Tells (before after : Moment σ) : Prop where
  registrations : ∀ p, after.env.registrations p + before.registered.countP (Entry.isSelected p) =
    before.env.registrations p + after.registered.countP (Entry.isSelected p)
  releases : ∀ p, after.env.releases p + before.invoked.countP (Entry.isSelected p) =
    before.env.releases p + after.invoked.countP (Entry.isSelected p)

theorem Tells.trans {before between after : Moment σ} (first : before.Tells between)
    (second : between.Tells after) : before.Tells after := by
  refine ⟨fun p => ?_, fun p => ?_⟩
  · have hfirst := first.registrations p
    have hsecond := second.registrations p
    omega
  · have hfirst := first.releases p
    have hsecond := second.releases p
    omega

/-- Nothing is registered or disposed of, and the history does not tell of it. -/
theorem tells_of_eq {before after : Moment σ} (hhistory : after.env.history = before.env.history)
    (hregistered : after.registered = before.registered)
    (hinvoked : after.invoked = before.invoked) : before.Tells after := by
  refine ⟨fun p => ?_, fun p => ?_⟩
  · rw [Env.registrations, hhistory, hregistered]
    rfl
  · rw [Env.releases, hhistory, hinvoked]
    rfl

theorem tells_register (tasks tasks' : List (Task σ)) (env : Env σ)
    (registered invoked : List (Entry σ)) (entry : Entry σ) :
    Tells ⟨tasks, env, registered, invoked⟩
      ⟨tasks', env.register entry, env.added entry ++ registered, invoked⟩ := by
  by_cases hcontains : env.store.contains entry.registry entry.handle = true
  · rw [Env.register, Env.added, if_pos hcontains, if_pos hcontains]
    exact tells_of_eq rfl rfl rfl
  · rw [Env.register_of_not_contains hcontains, Env.added, if_neg hcontains]
    refine ⟨fun p => ?_, fun p => ?_⟩
    · rw [List.singleton_append, List.countP_cons, Env.registrations, List.countP_cons]
      exact (Nat.add_right_comm _ _ _).trans (Nat.add_assoc _ _ _)
    · simp only [Env.releases, List.countP_cons, Bool.false_eq_true, if_false, Nat.add_zero]

theorem Next.tells {before after : Moment σ} (h : before.Next after) : before.Tells after := by
  cases h with
  | dispose entry rest env registered invoked =>
    refine ⟨fun p => ?_, fun p => ?_⟩
    · simp only [Env.registrations, Env.record, List.countP_cons, Bool.false_eq_true, if_false,
        Nat.add_zero]
    · rw [List.countP_cons, Env.releases, Env.record, List.countP_cons]
      exact (Nat.add_right_comm _ _ _).trans (Nat.add_assoc _ _ _)
  | done | panic | act | branch | release | miss | clean | gone => exact tells_of_eq rfl rfl rfl
  | meanwhile happening next rest env =>
    have hsame := env.sameResources_happen happening
    exact ⟨fun p => congrArg (· + _) (hsame.registrations p),
      fun p => congrArg (· + _) (hsame.releases p)⟩
  | acquire => exact tells_register ..

theorem tells_of_later {before after : Moment σ} (h : Relation.ReflTransGen Next before after) :
    before.Tells after := by
  induction h with
  | refl => exact tells_of_eq rfl rfl rfl
  | tail _ hnext ih => exact ih.trans hnext.tells

/-! ### Settling -/

/-- Whether one way to go on from a moment ends with nothing left to do, in given surroundings. -/
def EndsIn (moment : Moment σ) (env : Env σ) : Prop :=
  ∃ registered invoked, Relation.ReflTransGen Next moment ⟨[], env, registered, invoked⟩

theorem Next.endsIn {before after : Moment σ} {env : Env σ} (h : before.Next after)
    (hafter : after.EndsIn env) : before.EndsIn env := by
  obtain ⟨registered, invoked, hlater⟩ := hafter
  exact ⟨registered, invoked, hlater.head h⟩

/-- Settling is a way to go on: its steps are steps of the first task, and it takes what a clean
takes out in the order of registration. -/
theorem settles (tasks : List (Task σ)) (env : Env σ) (registered invoked : List (Entry σ)) :
    EndsIn ⟨tasks, env, registered, invoked⟩ (settle tasks env) := by
  induction tasks, env using settle.induct generalizing registered invoked with
  | case1 env => rw [settle]; exact ⟨registered, invoked, .refl⟩
  | case2 env entry rest ih => rw [settle]; exact (Next.dispose ..).endsIn (ih ..)
  | case3 env rest ih => rw [settle]; exact (Next.done ..).endsIn (ih ..)
  | case4 env rest ih => rw [settle]; exact (Next.panic ..).endsIn (ih ..)
  | case5 env change next rest ih => rw [settle]; exact (Next.act ..).endsIn (ih ..)
  | case6 env test yes no rest htest ih =>
    have hnext := Next.branch test yes no rest env registered invoked
    rw [if_pos htest] at hnext
    rw [settle, if_pos htest]
    exact hnext.endsIn (ih ..)
  | case7 env test yes no rest htest ih =>
    have hnext := Next.branch test yes no rest env registered invoked
    rw [if_neg htest] at hnext
    rw [settle, if_neg htest]
    exact hnext.endsIn (ih ..)
  | case8 env happening next rest ih => rw [settle]; exact (Next.meanwhile ..).endsIn (ih ..)
  | case9 env registry handle disposal next rest hlive ih =>
    rw [settle, if_pos hlive]
    exact (Next.acquire _ _ _ _ _ _ _ _ hlive).endsIn (ih ..)
  | case10 env registry handle disposal next rest hlive ih
  | case13 env registry handle note next rest hlive ih
  | case15 env registry note next rest hlive ih =>
    rw [settle, if_neg hlive]
    exact (Next.gone _ _ _ _ _ rfl hlive).endsIn (ih ..)
  | case11 env registry handle note next rest hlive entry store hremove ih =>
    rw [settle, if_pos hlive]
    split
    · next hfound =>
      obtain ⟨rfl, rfl⟩ := Prod.mk.inj (Option.some.inj (hremove.symm.trans hfound))
      exact (Next.release _ _ _ _ _ _ _ _ hlive hremove).endsIn (ih ..)
    · next hfound => cases hremove.symm.trans hfound
  | case12 env registry handle note next rest hlive hremove ih =>
    rw [settle, if_pos hlive]
    split
    · next hfound => cases hremove.symm.trans hfound
    · exact (Next.miss _ _ _ _ _ _ _ _ hlive hremove).endsIn (ih ..)
  | case14 env registry note next rest hlive drained ih =>
    rw [settle, if_pos hlive]
    exact (Next.clean _ _ _ _ _ _ _ hlive (List.Perm.refl _)).endsIn (ih ..)

end Moment

end Transduction
