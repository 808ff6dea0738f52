import Transduction.Proofs.Release.Course

/-!
# Events and cancellation

The history of a run shows when the run was cancelled. Read from its beginning, it also shows that
the run heeds the cancellation: each event either may happen in a cancelled run or happens before
the cancellation, there is one cancellation at most, and a run that stops stops for the reason of
the cancellation as soon as there is one. This holds for what disposals do as well, and it carries
over from the acts of a run to the run.

## Main definitions

* `Event.Turns`: how an event changes why the run is cancelled.
* `Event.Trace`: the events between two moments, with why the run is cancelled at both.
* `Event.MayFollow`: the events of a cancelled run.
* `Event.Heeded`, `Env.Heeds`: events, and moments of a run, between which a cancellation is heeded.

## Main results

* `Env.Course.traces`: the events of a run form a trace.
* `Event.Trace.heeded`: in a trace every cancellation is heeded.
-/

namespace Transduction

variable {σ : Type}

namespace Event

/-- How an event changes why the run is cancelled, if it is. -/
def Turns : Event → Option String → Option String → Prop
  | handed, before, after => before = none ∧ after = none
  | waited _, before, after => before = none ∧ after = none
  | cancelled reason, before, after => before = none ∧ after = some reason
  | stopped failure, before, after =>
    failure = before.elim .deadlineExceeded .cancelled ∧ after = before
  | attempted, before, after => after = before
  | registered _ _, before, after => after = before
  | disposed _ _, before, after => after = before

/-- Events, the last one first, that lead from one reason for cancellation to another. -/
inductive Trace (start : Option String) : List Event → Option String → Prop
  | nil : Trace start [] start
  | cons {event : Event} {older : List Event} {now last : Option String}
      (h : Trace start older now) (hevent : event.Turns now last) :
      Trace start (event :: older) last

/-- The events of a run that was cancelled for a reason: it hands over no items and begins no waits,
it is not cancelled again, and if it stops, it stops for that reason. -/
def MayFollow (reason : String) : Event → Prop
  | handed => False
  | waited _ => False
  | cancelled _ => False
  | stopped failure => failure = .cancelled reason
  | attempted => True
  | registered _ _ => True
  | disposed _ _ => True

/-- Events, the last one first, between two moments at which a run is cancelled for given reasons,
if it is. From the first cancellation on nothing happens that may not follow it. -/
structure Heeded (start : Option String) (later : List Event) (last : Option String) : Prop where
  /-- The run is already cancelled. -/
  already : ∀ reason, start = some reason →
    last = some reason ∧ ∀ event ∈ later, event.MayFollow reason
  /-- The run is cancelled meanwhile. -/
  meanwhile : ∀ newer reason older, later = newer ++ cancelled reason :: older →
    last = some reason ∧ ∀ event ∈ newer, event.MayFollow reason
  /-- A failure for a cancellation carries the reason of the cancellation. -/
  stopped : ∀ reason, stopped (.cancelled reason) ∈ later → last = some reason
  /-- A cancellation is an event. -/
  noted : ∀ reason, last = some reason → start = some reason ∨ cancelled reason ∈ later

namespace Trace

variable {start now last : Option String} {newer older later : List Event} {reason : String}

theorem append (hnewer : Trace now newer last) (holder : Trace start older now) :
    Trace start (newer ++ older) last := by
  induction hnewer with
  | nil => exact holder
  | cons _ hevent ih => exact .cons ih hevent

theorem split (h : Trace start (newer ++ older) last) :
    ∃ now, Trace start older now ∧ Trace now newer last := by
  induction newer generalizing last with
  | nil => exact ⟨last, h, .nil⟩
  | cons event newer ih =>
    cases h with
    | cons h hevent =>
      obtain ⟨now, holder, hnewer⟩ := ih h
      exact ⟨now, holder, .cons hnewer hevent⟩

/-- The first cancellation is the last one, and it is heeded from then on. -/
theorem mayFollow (h : Trace (some reason) later last) :
    last = some reason ∧ ∀ event ∈ later, event.MayFollow reason := by
  induction h with
  | nil => exact ⟨rfl, List.forall_mem_nil _⟩
  | @cons event _ _ _ _ hevent ih =>
    obtain ⟨rfl, holder⟩ := ih
    cases event with
    | handed | waited | cancelled => cases hevent.1
    | stopped failure => exact ⟨hevent.2, List.forall_mem_cons.2 ⟨hevent.1, holder⟩⟩
    | attempted | registered | disposed =>
      exact ⟨hevent, List.forall_mem_cons.2 ⟨trivial, holder⟩⟩

theorem noted (h : Trace start later last) (hlast : last = some reason) :
    start = some reason ∨ cancelled reason ∈ later := by
  induction h with
  | nil => exact .inl hlast
  | @cons event _ _ _ _ hevent ih =>
    cases event with
    | handed | waited => cases hevent.2.symm.trans hlast
    | cancelled given =>
      obtain rfl := Option.some.inj (hevent.2.symm.trans hlast)
      exact .inr List.mem_cons_self
    | stopped => exact (ih (hevent.2.symm.trans hlast)).imp_right (List.mem_cons_of_mem _)
    | attempted | registered | disposed =>
      exact (ih (hevent.symm.trans hlast)).imp_right (List.mem_cons_of_mem _)

theorem heeded (h : Trace start later last) : Heeded start later last where
  already reason hstart := by
    subst hstart
    exact h.mayFollow
  meanwhile newer reason older hlater := by
    subst hlater
    obtain ⟨now, holder, hnewer⟩ := h.split
    cases holder with
    | cons _ hevent =>
      obtain ⟨-, rfl⟩ := hevent
      exact hnewer.mayFollow
  stopped reason hmem := by
    obtain ⟨newer, older, rfl⟩ := List.append_of_mem hmem
    obtain ⟨now, holder, hnewer⟩ := h.split
    cases holder with
    | @cons _ _ before _ _ hevent =>
      obtain ⟨hfailure, rfl⟩ := hevent
      cases now with
      | none => cases hfailure
      | some given =>
        obtain rfl := Failure.cancelled.inj hfailure
        exact hnewer.mayFollow.1
  noted reason hlast := h.noted hlast

end Trace

end Event

namespace Env

/-- The events between two moments form a trace. -/
def Traces (before after : Env σ) : Prop :=
  ∃ later, after.history = later ++ before.history ∧
    Event.Trace before.token.reason later after.token.reason

/-- Between two moments every cancellation is heeded. -/
def Heeds (before after : Env σ) : Prop :=
  ∃ later, after.history = later ++ before.history ∧
    Event.Heeded before.token.reason later after.token.reason

variable {before between after : Env σ} (env : Env σ)

theorem Traces.heeds (h : before.Traces after) : before.Heeds after := by
  obtain ⟨later, hhistory, htrace⟩ := h
  exact ⟨later, hhistory, htrace.heeded⟩

theorem Traces.trans (first : before.Traces between) (second : between.Traces after) :
    before.Traces after := by
  obtain ⟨older, hbetween, holder⟩ := first
  obtain ⟨newer, hafter, hnewer⟩ := second
  refine ⟨newer ++ older, ?_, hnewer.append holder⟩
  rw [hafter, hbetween, List.append_assoc]

/-- Changes that are no events and cancel nothing. -/
theorem traces_of_eq (hhistory : after.history = before.history)
    (htoken : after.token = before.token) : before.Traces after := by
  refine ⟨[], hhistory, ?_⟩
  rw [htoken]
  exact .nil

theorem traces_record {event : Event} (h : event.Turns env.token.reason env.token.reason) :
    env.Traces (env.record event) :=
  ⟨[event], rfl, .cons .nil h⟩

theorem traces_cancel (reason : String) : env.Traces (env.cancel reason) := by
  rw [cancel]
  cases hreason : env.token.reason with
  | some _ => exact traces_of_eq rfl rfl
  | none =>
    refine ⟨[.cancelled reason], rfl, ?_⟩
    rw [hreason, Token.reason_cancel, hreason]
    exact .cons .nil ⟨rfl, rfl⟩

theorem traces_happen (happening : Happening) : env.Traces (env.happen happening) := by
  cases happening with
  | cancel reason => exact env.traces_cancel reason
  | elapse nanos => exact traces_of_eq rfl rfl

theorem traces_happenAll (happenings : List Happening) : env.Traces (env.happenAll happenings) := by
  induction happenings generalizing env with
  | nil => exact traces_of_eq rfl rfl
  | cons happening rest ih => exact (env.traces_happen happening).trans (ih _)

theorem traces_register (entry : Entry σ) : env.Traces (env.register entry) := by
  rw [register]
  split
  · exact traces_of_eq rfl rfl
  · exact ⟨[.registered entry.registry entry.handle], rfl, .cons .nil rfl⟩

/-- What a run may note makes a trace of one event. -/
theorem Permits.turns {env : Env σ} {event : Event} (h : env.Permits event) :
    event.Turns env.token.reason env.token.reason := by
  cases event with
  | registered | disposed | cancelled => exact h.elim
  | handed | waited => exact ⟨h, h⟩
  | attempted => exact rfl
  | stopped failure => exact ⟨h, rfl⟩

end Env

/-- Settling heeds a cancellation, also one by a disposal. -/
theorem settle_traces (tasks : List (Task σ)) (env : Env σ) : env.Traces (settle tasks env) := by
  induction tasks, env using settle.induct with
  | case1 env => rw [settle]; exact Env.traces_of_eq rfl rfl
  | case2 env entry rest ih =>
    have hevent : (Event.disposed entry.registry entry.handle).Turns env.token.reason
        env.token.reason := rfl
    rw [settle]
    exact (env.traces_record hevent).trans ih
  | case3 env rest ih | case4 env rest ih => rw [settle]; exact ih
  | case5 env change next rest ih =>
    rw [settle]
    exact (Env.traces_of_eq rfl rfl).trans ih
  | case6 env test yes no rest htest ih => rw [settle, if_pos htest]; exact ih
  | case7 env test yes no rest htest ih => rw [settle, if_neg htest]; exact ih
  | case8 env happening next rest ih =>
    rw [settle]
    exact (env.traces_happen happening).trans ih
  | case9 env registry handle disposal next rest hlive ih =>
    rw [settle, if_pos hlive]
    exact (env.traces_register _).trans ih
  | case10 env registry handle disposal next rest hlive ih => rw [settle, if_neg hlive]; exact ih
  | case11 env registry handle note next rest hlive entry store hremove ih =>
    rw [settle, if_pos hlive]
    split
    · next hfound =>
      obtain ⟨rfl, rfl⟩ := Prod.mk.inj (Option.some.inj (hremove.symm.trans hfound))
      exact (Env.traces_of_eq rfl rfl).trans ih
    · next hfound => cases hremove.symm.trans hfound
  | case12 env registry handle note next rest hlive hremove ih =>
    rw [settle, if_pos hlive]
    split
    · next hfound => cases hremove.symm.trans hfound
    · exact (Env.traces_of_eq rfl rfl).trans ih
  | case13 env registry handle note next rest hlive ih => rw [settle, if_neg hlive]; exact ih
  | case14 env registry note next rest hlive drained ih =>
    rw [settle, if_pos hlive]
    exact (Env.traces_of_eq rfl rfl).trans ih
  | case15 env registry note next rest hlive ih => rw [settle, if_neg hlive]; exact ih

namespace Env

variable (env : Env σ)

theorem traces_settle_with (tasks : List (Task σ)) (store : Store σ) :
    env.Traces (settle tasks { env with store }) :=
  (traces_of_eq rfl rfl).trans (settle_traces tasks { env with store })

theorem traces_release (registry : RegistryId) (handle : Handle) :
    env.Traces (env.release registry handle).2 := by
  rw [release]
  split
  · exact env.traces_settle_with _ _
  · exact traces_of_eq rfl rfl

theorem traces_clean (registry : RegistryId) : env.Traces (env.clean registry).2 :=
  env.traces_settle_with _ _

theorem traces_dropRegistry (registry : RegistryId) : env.Traces (env.dropRegistry registry) :=
  env.traces_settle_with _ _

/-- The events of a run form a trace. -/
theorem Course.traces {allowed : Disposal σ → Prop} {registry : RegistryId} {before after : Env σ}
    (h : Course allowed registry before after) : before.Traces after := by
  induction h with
  | nothing env => exact traces_of_eq rfl rfl
  | next _ _ ihFirst ihSecond => exact ihFirst.trans ihSecond
  | react env user happenings =>
    have huser : env.Traces { env with user } := traces_of_eq rfl rfl
    exact huser.trans (traces_happenAll _ happenings)
  | cancel env reason => exact env.traces_cancel reason
  | note env hevent => exact env.traces_record hevent.turns
  | draw env dice => exact traces_of_eq rfl rfl
  | acquire env =>
    have hopened : env.Traces env.newHandle.2 := traces_of_eq rfl rfl
    exact hopened.trans (traces_register _ _)
  | release env handle => exact env.traces_release _ handle
  | @scope env context after _ ih =>
    have hnested : env.Traces (env.nestedContext context).2 := traces_of_eq rfl rfl
    exact (hnested.trans ih).trans ((after.traces_clean _).trans (traces_dropRegistry _ _))

/-- A cancelled run stays cancelled for the same reason. -/
theorem Course.reason {allowed : Disposal σ → Prop} {registry : RegistryId} {before after : Env σ}
    (h : Course allowed registry before after) {reason : String}
    (hreason : before.token.reason = some reason) : after.token.reason = some reason := by
  obtain ⟨later, -, htrace⟩ := h.traces
  rw [hreason] at htrace
  exact htrace.mayFollow.1

end Env

end Transduction
