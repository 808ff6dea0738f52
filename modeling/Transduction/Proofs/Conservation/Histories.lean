import Transduction.Proofs.Conservation.Moments
import Transduction.Proofs.Cancellation.Trace

/-!
# Conservation of registrations

A registry is used from outside by a finite history of calls, and from inside by the disposals that
the calls cause, to any depth. At every moment of such a history each registration has been invoked
once, is still held, or was taken out and waits for its turn. When a call is over nothing waits, and
when the registry was dropped nothing is held in it either, so everything has been invoked.

## Main definitions

* `Call`, `Env.perform`: a call on a registry, and what it does to the surroundings.
* `Call.Begins`: the beginning of a call.
* `Reached`: the moments of a history of calls.
* `Cleaned`: the beginning of a clean, by a call or inside a disposal.
* `Moment.Conserves`: what is true at every moment.

## Main results

* `Reached.balances`, `Reached.tells`, `Reached.isClosed`: what a whole history keeps.
* `Reached.perform`: performing a call leads to a moment of the history.
* `Moment.not_contains_of_later`: what is not registered stays so until it is registered again.
* `Reached.conserves`: conservation at every moment.
-/

namespace Transduction

variable {σ : Type}

/-! ### Calls -/

/-- A call on a registry. -/
inductive Call (σ : Type) where
  /-- Registers a resource. -/
  | acquire (handle : Handle) (disposal : Disposal σ)
  /-- Releases a resource. -/
  | release (handle : Handle)
  /-- Releases everything. -/
  | clean
  /-- Drops the registry. -/
  | drop

/-- What a call on a registry does to the surroundings. -/
def Env.perform (env : Env σ) (registry : RegistryId) : Call σ → Env σ
  | .acquire handle disposal => env.register ⟨registry, handle, disposal⟩
  | .release handle => (env.release registry handle).2
  | .clean => (env.clean registry).2
  | .drop => env.dropRegistry registry

/-- The beginning of a call on a registry: what is registered at once, and what is left to do. -/
inductive Call.Begins (registry : RegistryId) (moment : Moment σ) : Call σ → Moment σ → Prop
  | acquire (handle disposal) :
      Begins registry moment (.acquire handle disposal)
        { moment with
          env := moment.env.register ⟨registry, handle, disposal⟩
          registered := moment.env.added ⟨registry, handle, disposal⟩ ++ moment.registered }
  | release (handle) {entry store}
      (hremove : moment.env.store.remove registry handle = some (entry, store)) :
      Begins registry moment (.release handle)
        { moment with tasks := [.dispose entry], env := { moment.env with store } }
  | miss (handle) (hremove : moment.env.store.remove registry handle = none) :
      Begins registry moment (.release handle) moment
  | clean {order : List (Entry σ)} (horder : order.Perm (moment.env.store.entriesOf registry)) :
      Begins registry moment .clean
        { moment with
          tasks := order.map .dispose
          env := { moment.env with store := (moment.env.store.drain registry).2 } }
  | drop {order : List (Entry σ)} (horder : order.Perm (moment.env.store.entriesOf registry)) :
      Begins registry moment .drop
        { moment with
          tasks := order.map .dispose
          env := { moment.env with
            store := ((moment.env.store.close registry).drain registry).2 } }

/-- The moments of a history of calls on a registry, the latest call first. A call is made when
nothing is left to do, and on an open registry. What is registered at the start counts as
registered. -/
inductive Reached (registry : RegistryId) (start : Env σ) : List (Call σ) → Moment σ → Prop
  | start : Reached registry start [] ⟨[], start, start.store.entries, []⟩
  | call {calls call before after} (h : Reached registry start calls before)
      (hidle : before.tasks = []) (hlive : before.env.store.isLive registry = true)
      (hbegins : Call.Begins registry before call after) :
      Reached registry start (call :: calls) after
  | next {calls before after} (h : Reached registry start calls before)
      (hnext : before.Next after) : Reached registry start calls after

variable {registry : RegistryId} {start : Env σ} {calls : List (Call σ)} {call : Call σ}
  {before moment after : Moment σ}

/-! ### The ledger -/

/-- The beginning of a call loses and doubles no registration. -/
theorem Call.Begins.balances (h : Begins registry moment call after) (hidle : moment.tasks = [])
    (hbefore : moment.Balances) : after.Balances := by
  obtain ⟨tasks, env, registered, invoked⟩ := moment
  subst hidle
  cases h with
  | acquire => exact hbefore.register _
  | release _ hremove => exact hbefore.remove hremove
  | miss => exact hbefore
  | clean horder =>
    have hdrained := hbefore.drain horder
    rwa [List.append_nil] at hdrained
  | drop horder =>
    have hclosed : Moment.Balances ⟨[], { env with store := env.store.close registry }, registered,
      invoked⟩ := hbefore
    have hleft : List.Perm _ ((env.store.close registry).entriesOf registry) := horder
    have hdrained := hclosed.drain hleft
    rwa [List.append_nil] at hdrained

/-- The history tells of the registration that a call makes at once. -/
theorem Call.Begins.tells (h : Begins registry moment call after) : moment.Tells after := by
  cases h with
  | acquire => exact Moment.tells_register ..
  | release | miss | clean | drop => exact Moment.tells_of_eq rfl rfl rfl

/-- The history tells of everything since the start. -/
theorem Reached.tells (h : Reached registry start calls moment) :
    Moment.Tells ⟨[], start, start.store.entries, []⟩ moment := by
  induction h with
  | start => exact Moment.tells_of_eq rfl rfl rfl
  | call _ _ _ hbegins ih => exact ih.trans hbegins.tells
  | next _ hnext ih => exact ih.trans hnext.tells

/-- At every moment every registration has been invoked, is held, or waits. -/
theorem Reached.balances (h : Reached registry start calls moment) : moment.Balances := by
  induction h with
  | start => simp [Moment.Balances, Task.waiting]
  | call _ hidle _ hbegins ih => exact hbegins.balances hidle ih
  | next _ hnext ih => exact hnext.balances ih

/-! ### Dropped registries -/

/-- A registry that is gone, with nothing left in it. -/
def Moment.IsClosed (registry : RegistryId) (moment : Moment σ) : Prop :=
  ¬moment.env.store.isLive registry = true ∧
    ∀ entry ∈ moment.env.store.entries, entry.registry ≠ registry

theorem Call.Begins.isClosed (h : Begins registry moment .drop after) :
    after.IsClosed registry := by
  cases h
  refine ⟨?_, fun entry hentry => ?_⟩
  · simp [Store.isLive, Store.drain, Store.close]
  · simpa using (List.mem_filter.1 hentry).2

/-- Nothing is registered any more in a registry that is gone. -/
theorem Moment.Extends.isClosed (h : before.Extends after) (hbefore : before.IsClosed registry) :
    after.IsClosed registry := by
  obtain ⟨hlive, hentries⟩ := hbefore
  obtain ⟨new, -, hopen, hheld⟩ := h.registered
  refine ⟨by rwa [Store.isLive, h.live], fun entry hentry => ?_⟩
  rcases hheld entry hentry with hold | hnew
  · exact hentries entry hold
  · rintro rfl
    exact hlive (hopen entry hnew)

theorem Reached.isClosed (h : Reached registry start calls moment) (hdrop : .drop ∈ calls) :
    moment.IsClosed registry := by
  induction h with
  | start => cases hdrop
  | call _ _ hlive hbegins ih =>
    rcases List.mem_cons.1 hdrop with rfl | hdrop
    · exact hbegins.isClosed
    · exact absurd hlive (ih hdrop).1
  | next _ hnext ih => exact hnext.extends.isClosed (ih hdrop)

/-! ### Whole calls -/

theorem Reached.later (h : Reached registry start calls before)
    (hlater : Relation.ReflTransGen Moment.Next before after) :
    Reached registry start calls after := by
  induction hlater with
  | refl => exact h
  | tail _ hnext ih => exact ih.next hnext

theorem Reached.endsIn {env : Env σ} (h : Reached registry start calls moment)
    (hends : moment.EndsIn env) :
    ∃ registered invoked, Reached registry start calls ⟨[], env, registered, invoked⟩ := by
  obtain ⟨registered, invoked, hlater⟩ := hends
  exact ⟨registered, invoked, h.later hlater⟩

/-- Performing a call is one way for it to go, and leads to a moment at which it is over. -/
theorem Reached.perform (h : Reached registry start calls moment) (hidle : moment.tasks = [])
    (hlive : moment.env.store.isLive registry = true) (call : Call σ) :
    ∃ registered invoked, Reached registry start (call :: calls)
      ⟨[], moment.env.perform registry call, registered, invoked⟩ := by
  have hbegun {after : Moment σ} (hbegins : Call.Begins registry moment call after) :=
    h.call hidle hlive hbegins
  have hends (tasks : List (Task σ)) (store : Store σ) :=
    Moment.settles tasks { moment.env with store } moment.registered moment.invoked
  cases call with
  | acquire handle disposal =>
    have hregistered := hbegun (.acquire handle disposal)
    rw [hidle] at hregistered
    exact ⟨_, _, hregistered⟩
  | release handle =>
    rw [Env.perform, Env.release]
    cases hremove : moment.env.store.remove registry handle with
    | none =>
      obtain ⟨tasks, env, registered, invoked⟩ := moment
      subst hidle
      exact ⟨registered, invoked, hbegun (.miss handle hremove)⟩
    | some found => exact (hbegun (.release handle hremove)).endsIn (hends _ _)
  | clean => exact (hbegun (.clean (List.Perm.refl _))).endsIn (hends _ _)
  | drop => exact (hbegun (.drop (List.Perm.refl _))).endsIn (hends _ _)

/-- A release from outside either invokes the disposal of the resource or finds nothing. -/
theorem Env.release_cases (env : Env σ) (registry : RegistryId) (handle : Handle) :
    (env.store.contains registry handle = true ∧ (env.release registry handle).1 = true ∧
      ∃ later, (env.release registry handle).2.history =
        later ++ .disposed registry handle :: env.history) ∨
    (env.store.contains registry handle = false ∧ env.release registry handle = (false, env)) := by
  rw [release]
  cases hremove : env.store.remove registry handle with
  | none => exact .inr ⟨Bool.eq_false_iff.2 (Store.not_contains_of_remove hremove), rfl⟩
  | some found =>
    obtain ⟨entry, store⟩ := found
    obtain ⟨rfl, rfl, -⟩ := Store.remove_eq_some hremove
    obtain ⟨later, hhistory, -⟩ := settle_traces [.resume entry.disposal]
      (({ env with store } : Env σ).record (.disposed entry.registry entry.handle))
    have hsettle : settle [.dispose entry] { env with store } = settle [.resume entry.disposal]
        (({ env with store } : Env σ).record (.disposed entry.registry entry.handle)) := by
      rw [settle]
    exact .inl ⟨Store.contains_of_remove hremove, rfl, later,
      (congrArg Env.history hsettle).trans hhistory⟩

/-! ### Calls inside disposals -/

namespace Moment

variable {handle : Handle} {next : Disposal σ} {rest : List (Task σ)}

/-- A release inside a disposal either puts the disposal of the resource first, and the one it is
inside of is told so, or finds nothing and goes on. -/
theorem Next.release_cases {note : Bool → σ → σ} (h : moment.Next after)
    (htasks : moment.tasks = .resume (.release registry handle note next) :: rest)
    (hlive : moment.env.store.isLive registry = true) :
    (moment.env.store.contains registry handle = true ∧
      ∃ entry ∈ moment.env.store.entries, entry.registry = registry ∧ entry.handle = handle ∧
        after.tasks = .dispose entry :: .resume (.act (note true) next) :: rest) ∨
    (moment.env.store.contains registry handle = false ∧
      after = { moment with
        tasks := .resume next :: rest
        env := { moment.env with user := note false moment.env.user } }) := by
  obtain ⟨tasks, env, registered, invoked⟩ := moment
  subst htasks
  cases h with
  | release _ _ _ _ _ _ _ _ _ hremove =>
    obtain ⟨hregistry, hhandle, front, back, hentries, -⟩ := Store.remove_eq_some hremove
    have hmem : _ ∈ env.store.entries := hentries ▸ List.mem_append_right front List.mem_cons_self
    exact .inl ⟨Store.contains_of_remove hremove, _, hmem, hregistry, hhandle, rfl⟩
  | miss _ _ _ _ _ _ _ _ _ hremove =>
    exact .inr ⟨Bool.eq_false_iff.2 (Store.not_contains_of_remove hremove), rfl⟩
  | gone _ _ _ _ _ htarget hgone =>
    obtain rfl := Option.some.inj htarget
    exact absurd hlive hgone

/-- A clean inside a disposal takes out everything that is registered and is told how much. -/
theorem Next.clean_cases {note : Nat → σ → σ} (h : moment.Next after)
    (htasks : moment.tasks = .resume (.clean registry note next) :: rest)
    (hlive : moment.env.store.isLive registry = true) :
    ∃ order : List (Entry σ), order.Perm (moment.env.store.entriesOf registry) ∧
      after = { moment with
        tasks := order.map .dispose ++
          .resume (.act (note (moment.env.store.size registry)) next) :: rest
        env := { moment.env with store := (moment.env.store.drain registry).2 } } := by
  obtain ⟨tasks, env, registered, invoked⟩ := moment
  subst htasks
  cases h with
  | clean _ _ _ _ _ _ _ _ horder => exact ⟨_, horder, rfl⟩
  | gone _ _ _ _ _ htarget hgone =>
    obtain rfl := Option.some.inj htarget
    exact absurd hlive hgone

/-- A resource that is not registered stays so until it is registered again. -/
theorem not_contains_of_later {new : List (Entry σ)}
    (h : Relation.ReflTransGen Next before after)
    (hbefore : ¬before.env.store.contains registry handle = true)
    (hregistered : after.registered = new ++ before.registered)
    (hnew : ∀ entry ∈ new, ¬entry.isFor registry handle = true) :
    ¬after.env.store.contains registry handle = true := by
  obtain ⟨others, hothers, -, hheld⟩ := (extends_of_later h).registered
  obtain rfl : new = others := List.append_cancel_right (hregistered.symm.trans hothers)
  intro hcontains
  obtain ⟨entry, hentry, hfor⟩ := List.any_eq_true.1 hcontains
  rcases hheld entry hentry with hold | hmade
  · exact hbefore (List.any_eq_true.2 ⟨entry, hold, hfor⟩)
  · exact hnew entry hmade hfor

end Moment

/-- The beginning of a clean of a registry, by a call or inside a disposal. -/
inductive Cleaned (registry : RegistryId) (before after : Moment σ) : Prop
  | call (hbegins : Call.Begins registry before .clean after)
  | inside {note next rest} (htasks : before.tasks = .resume (.clean registry note next) :: rest)
      (hlive : before.env.store.isLive registry = true) (hnext : before.Next after)

/-- Nothing is registered in a registry when its clean has begun. -/
theorem Cleaned.not_contains (h : Cleaned registry before after) (handle : Handle) :
    ¬after.env.store.contains registry handle = true := by
  have hdrained : after.env.store = (before.env.store.drain registry).2 := by
    cases h with
    | call hbegins =>
      cases hbegins
      rfl
    | inside htasks hlive hnext =>
      obtain ⟨order, -, rfl⟩ := hnext.clean_cases htasks hlive
      rfl
  rw [hdrained]
  intro hcontains
  obtain ⟨entry, hentry, hfor⟩ := List.any_eq_true.1 hcontains
  have hother := (List.mem_filter.1 hentry).2
  simp only [Entry.isFor, Bool.and_eq_true] at hfor
  simp [hfor.1] at hother

/-! ### Conservation -/

/-- Selects the entries of a registry. -/
def Entry.isIn (registry : RegistryId) (entry : Entry σ) : Bool := entry.registry = registry

/-- What is true at a moment of a history of calls on a registry. -/
structure Moment.Conserves (registry : RegistryId) (start : Env σ) (calls : List (Call σ))
    (moment : Moment σ) : Prop where
  /-- Every registration, entry by entry, has been invoked, is held, or waits for its turn. -/
  ledger : moment.registered.Perm
    (moment.invoked ++ moment.env.store.entries ++ Task.waiting moment.tasks)
  /-- So the numbers agree in the registry. -/
  counted : moment.registered.countP (Entry.isIn registry) =
    moment.invoked.countP (Entry.isIn registry) + moment.env.store.size registry +
      (Task.waiting moment.tasks).countP (Entry.isIn registry)
  /-- When a call is over, every registration has been invoked or is held. -/
  finished : moment.tasks = [] → moment.registered.countP (Entry.isIn registry) =
    moment.invoked.countP (Entry.isIn registry) + moment.env.store.size registry
  /-- The registrations and invocations are those that the history tells of, besides what was
  registered at the start. -/
  told : ∀ p, moment.env.registrations p + start.held p =
      start.registrations p + moment.registered.countP (Entry.isSelected p) ∧
    moment.env.releases p = start.releases p + moment.invoked.countP (Entry.isSelected p)
  /-- When the registry was dropped, every registration in it has been invoked. -/
  dropped : .drop ∈ calls → moment.tasks = [] → moment.env.store.size registry = 0 ∧
    (moment.registered.filter (Entry.isIn registry)).Perm
      (moment.invoked.filter (Entry.isIn registry))
  /-- A resource that is registered is not registered again. -/
  again : ∀ handle disposal, moment.env.store.contains registry handle = true →
    moment.env.register ⟨registry, handle, disposal⟩ = moment.env ∧
      moment.env.added ⟨registry, handle, disposal⟩ = []
  /-- A release says so if and only if it has invoked the disposal of the resource. -/
  released : ∀ handle, (moment.env.store.contains registry handle = true ∧
      (moment.env.release registry handle).1 = true ∧
      ∃ later, (moment.env.release registry handle).2.history =
        later ++ .disposed registry handle :: moment.env.history) ∨
    (moment.env.store.contains registry handle = false ∧
      moment.env.release registry handle = (false, moment.env))
  /-- A release inside a disposal says so if and only if it puts the disposal of the resource
  first. -/
  releasing : ∀ {handle note next rest after},
    moment.tasks = .resume (.release registry handle note next) :: rest →
    moment.env.store.isLive registry = true → moment.Next after →
    (moment.env.store.contains registry handle = true ∧
      ∃ entry ∈ moment.env.store.entries, entry.registry = registry ∧ entry.handle = handle ∧
        after.tasks = .dispose entry :: .resume (.act (note true) next) :: rest) ∨
    (moment.env.store.contains registry handle = false ∧
      after = { moment with
        tasks := .resume next :: rest
        env := { moment.env with user := note false moment.env.user } })
  /-- A clean says how much was registered when it was called. -/
  cleaned : (moment.env.clean registry).1 = moment.env.store.size registry
  /-- A clean inside a disposal takes out all that is registered, in some order, and says how much
  it was. -/
  cleaning : ∀ {note next rest after},
    moment.tasks = .resume (.clean registry note next) :: rest →
    moment.env.store.isLive registry = true → moment.Next after →
    ∃ order : List (Entry σ), order.Perm (moment.env.store.entriesOf registry) ∧
      after = { moment with
        tasks := order.map .dispose ++
          .resume (.act (note (moment.env.store.size registry)) next) :: rest
        env := { moment.env with store := (moment.env.store.drain registry).2 } }
  /-- An entry that a clean takes out is not released again by a disposal, unless its resource has
  been registered again meanwhile. -/
  once : ∀ {begun later after note next rest new}, Cleaned registry moment begun →
    ∀ entry ∈ moment.env.store.entriesOf registry, Relation.ReflTransGen Moment.Next begun later →
    later.registered = new ++ begun.registered →
    (∀ other ∈ new, ¬other.isFor registry entry.handle = true) →
    later.tasks = .resume (.release registry entry.handle note next) :: rest →
    later.env.store.isLive registry = true → later.Next after →
    after = { later with
      tasks := .resume next :: rest
      env := { later.env with user := note false later.env.user } }
  /-- The surroundings that are left when everything is settled belong to a moment of the
  history. -/
  settled : ∃ registered invoked, Reached registry start calls
    ⟨[], settle moment.tasks moment.env, registered, invoked⟩
  /-- So do the surroundings after one more call. -/
  performed : moment.tasks = [] → moment.env.store.isLive registry = true → ∀ call,
    ∃ registered invoked, Reached registry start (call :: calls)
      ⟨[], moment.env.perform registry call, registered, invoked⟩

theorem Moment.Balances.counted (h : moment.Balances) (registry : RegistryId) :
    moment.registered.countP (Entry.isIn registry) =
      moment.invoked.countP (Entry.isIn registry) + moment.env.store.size registry +
        (Task.waiting moment.tasks).countP (Entry.isIn registry) := by
  rw [h.countP_eq, List.countP_append, List.countP_append, Store.size, Store.entriesOf,
    ← List.countP_eq_length_filter]
  rfl

/-- Every registration in a registry is conserved, at every moment of every history of calls on it,
whatever the disposals do that run meanwhile. -/
theorem Reached.conserves (h : Reached registry start calls moment) :
    moment.Conserves registry start calls where
  ledger := h.balances
  counted := h.balances.counted registry
  finished hidle := by
    have hcounted := h.balances.counted registry
    rw [hidle] at hcounted
    exact hcounted
  told p := ⟨h.tells.registrations p, h.tells.releases p⟩
  dropped hdrop hidle := by
    have hnone : moment.env.store.entries.filter (Entry.isIn registry) = [] :=
      List.filter_eq_nil_iff.2 fun entry hentry hin =>
        (h.isClosed hdrop).2 entry hentry (of_decide_eq_true hin)
    refine ⟨congrArg List.length hnone, ?_⟩
    have hledger := h.balances.filter (Entry.isIn registry)
    rw [hidle, List.filter_append, List.filter_append, hnone] at hledger
    simpa [Task.waiting] using hledger
  again handle disposal hcontains := ⟨if_pos hcontains, if_pos hcontains⟩
  released handle := moment.env.release_cases registry handle
  releasing htasks hlive hnext := hnext.release_cases htasks hlive
  cleaned := moment.env.clean_size registry
  cleaning htasks hlive hnext := hnext.clean_cases htasks hlive
  once hbegun entry _ hlater hregistered hnew htasks hlive hnext := by
    have hmissing := Moment.not_contains_of_later hlater (hbegun.not_contains entry.handle)
      hregistered hnew
    rcases hnext.release_cases htasks hlive with ⟨hcontains, -⟩ | ⟨-, hafter⟩
    · exact absurd hcontains hmissing
    · exact hafter
  settled := h.endsIn (Moment.settles _ _ _ _)
  performed hidle hlive call := h.perform hidle hlive call

/-- The first of two disposals of a clean is about to release the resource of the second one, which
panics: two registrations, one of them invoked, and the other one waiting. -/
theorem Reached.conserves_inside_clean :
    let registry : RegistryId := ⟨0⟩
    let start : Env Unit := (Env.start () .fresh ⟨id, 0⟩).openRegistry.2
    let first : Entry Unit := ⟨registry, ⟨0⟩, .release registry ⟨1⟩ (fun _ user => user) .done⟩
    let second : Entry Unit := ⟨registry, ⟨1⟩, .panic⟩
    let calls := [.clean, .acquire second.handle second.disposal,
      .acquire first.handle first.disposal]
    ∃ moment, Reached registry start calls moment ∧ moment.Conserves registry start calls ∧
      moment.tasks = [.resume first.disposal, .dispose second] ∧
      moment.registered.length = 2 ∧ moment.invoked.length = 1 ∧
      moment.env.store.size registry = 0 ∧ (Task.waiting moment.tasks).length = 1 := by
  intro registry start first second calls
  have hacquired : Reached registry start _ _ :=
    .call (.call .start rfl rfl (.acquire first.handle first.disposal)) rfl rfl
      (.acquire second.handle second.disposal)
  have hcleaned : Reached registry start calls _ :=
    hacquired.call rfl rfl (.clean (List.Perm.refl [first, second]))
  have hbegun := hcleaned.next (.dispose first [.dispose second] _ _ _)
  exact ⟨_, hbegun, hbegun.conserves, rfl, rfl, rfl, rfl, rfl⟩

end Transduction
