import Transduction.Stage.Run

/-!
# Incidents

What can go wrong in a run is that something fails, that something stops on an alternate value, or
that the run breaks off. The verdict of a run speaks of one incident at most. Of several incidents
one after the other it speaks of what they amount to: a run that broke off has no verdict, failures
come before alternates, several failures are combined, and of several alternates the first one
counts.

A watched step is a step together with the incidents it raises, in the order in which it raises
them. Watched steps are sequenced as steps are, and their incidents are appended.

## Main definitions

* `Incident`, `Incident.join`, `Incident.summary`: incidents, and what several of them amount to.
* `Verdict.incident?`: the incident that a verdict speaks of.
* `Watched`: steps with the incidents they raise.
* `Watched.Answers`: a watched step whose result speaks of all incidents up to its end.

## Main results

* `Incident.summary_append`: incidents of two parts of a run amount to what both parts amount to.
* `Incident.summarizes_summary`: what a list of incidents amounts to.
* `Verdict.incident?_both`: the verdict on a value fed to two stages speaks of both sides.
* `Watched.Answers.bind`, `Watched.Answers.frame`: sequencing, and incidents before a step.
-/

namespace Transduction

variable {σ X ι κ S A B C T α β : Type}

/-! ### Incidents -/

/-- What can go wrong in a run. -/
inductive Incident (X : Type) where
  /-- Something fails. -/
  | failed (failure : Failure)
  /-- Something stops on an alternate value. -/
  | alternated (value : X)
  /-- The run breaks off. -/
  | halted (reason : Halt)

namespace Incident

/-- What two incidents amount to, one after the other. -/
def join : Incident X → Incident X → Incident X
  | _, halted reason => halted reason
  | halted reason, _ => halted reason
  | failed first, failed second => failed (first.combine second)
  | failed failure, alternated _ => failed failure
  | alternated _, failed failure => failed failure
  | alternated value, alternated _ => alternated value

instance : Std.Associative (join : Incident X → Incident X → Incident X) where
  assoc a b c := by
    cases a <;> cases b <;> cases c <;> simp only [join, Failure.combine_assoc]

/-- Whatever happened before, a run that breaks off has no verdict. -/
@[simp] theorem merge_halted (before : Option (Incident X)) (reason : Halt) :
    Option.merge join before (some (halted reason)) = some (halted reason) := by
  cases before with
  | none => rfl
  | some incident => cases incident <;> rfl

theorem merge_assoc (a b c : Option (Incident X)) :
    Option.merge join (Option.merge join a b) c = Option.merge join a (Option.merge join b c) :=
  Std.Associative.assoc a b c

/-- What some incidents amount to. -/
def summary : List (Incident X) → Option (Incident X)
  | [] => none
  | incident :: rest => Option.merge join (some incident) (summary rest)

theorem summary_append (before after : List (Incident X)) :
    summary (before ++ after) = Option.merge join (summary before) (summary after) := by
  induction before with
  | nil => exact Option.merge_none_left.symm
  | cons incident rest ih =>
    rw [List.cons_append, summary, summary, ih]
    exact (merge_assoc _ _ _).symm

theorem summary_toList (incident? : Option (Incident X)) :
    summary incident?.toList = incident? := by
  cases incident? <;> rfl

/-- The failures among some incidents. -/
def failures (incidents : List (Incident X)) : List Failure :=
  incidents.filterMap fun
    | failed failure => some failure
    | _ => none

/-- The alternates among some incidents. -/
def alternates (incidents : List (Incident X)) : List X :=
  incidents.filterMap fun
    | alternated value => some value
    | _ => none

/-- Whether a run breaks off. -/
def Halts (incidents : List (Incident X)) : Prop := ∃ reason, halted reason ∈ incidents

/-- What it means that some incidents amount to an incident, or to none. -/
inductive Summarizes : List (Incident X) → Option (Incident X) → Prop
  | nothing : Summarizes [] none
  | halts {incidents reason} (h : halted reason ∈ incidents) :
      Summarizes incidents (some (halted reason))
  | fails {incidents failure} (hruns : ¬Halts incidents) (hsome : failures incidents ≠ [])
      (hparts : failure.parts = (failures incidents).flatMap Failure.parts)
      (hsole : ∀ sole, failures incidents = [sole] → failure = sole) :
      Summarizes incidents (some (failed failure))
  | alternates {incidents value rest} (hruns : ¬Halts incidents) (hnone : failures incidents = [])
      (hfirst : alternates incidents = value :: rest) :
      Summarizes incidents (some (alternated value))

theorem not_halts_cons {incident : Incident X} {rest : List (Incident X)}
    (hincident : ∀ reason, incident ≠ halted reason) (hrest : ¬Halts rest) :
    ¬Halts (incident :: rest) := by
  rintro ⟨reason, h⟩
  rcases List.mem_cons.1 h with h | h
  · exact hincident reason h.symm
  · exact hrest ⟨reason, h⟩

theorem not_halts_nil : ¬Halts ([] : List (Incident X)) := fun ⟨_, h⟩ => nomatch h

/-- What a list of incidents amounts to. -/
theorem summarizes_summary (incidents : List (Incident X)) :
    Summarizes incidents (summary incidents) := by
  induction incidents with
  | nil => exact .nothing
  | cons incident rest ih =>
    rw [summary]
    generalize summary rest = amount at ih ⊢
    cases incident with
    | halted reason =>
      cases ih with
      | halts h => exact .halts (List.mem_cons_of_mem _ h)
      | nothing | fails | alternates => exact .halts List.mem_cons_self
    | failed failure =>
      have hcons : failures (failed failure :: rest) = failure :: failures rest := rfl
      have hruns : ¬Halts rest → ¬Halts (failed failure :: rest) := not_halts_cons nofun
      -- A failure with no other failure behind it is the only one.
      have hlone (hrest : ¬Halts rest) (hnone : failures rest = []) :
          Summarizes (failed failure :: rest) (some (failed failure)) := by
        rw [hnone] at hcons
        refine .fails (hruns hrest) (by simp [hcons]) (by simp [hcons]) fun sole hsole => ?_
        exact (List.cons.inj (hcons.symm.trans hsole)).1
      cases ih with
      | nothing => exact hlone not_halts_nil rfl
      | halts h => exact .halts (List.mem_cons_of_mem _ h)
      | fails hrest hsome hparts _ =>
        refine .fails (hruns hrest) (by simp [hcons]) ?_ fun sole hsole => ?_
        · rw [Failure.parts_combine, hcons, List.flatMap_cons, hparts]
        · exact absurd (List.cons.inj (hcons.symm.trans hsole)).2 hsome
      | alternates hrest hnone _ => exact hlone hrest hnone
    | alternated value =>
      have hcons : failures (alternated value :: rest) = failures rest := rfl
      have hruns : ¬Halts rest → ¬Halts (alternated value :: rest) := not_halts_cons nofun
      cases ih with
      | nothing => exact .alternates (hruns not_halts_nil) rfl rfl
      | halts h => exact .halts (List.mem_cons_of_mem _ h)
      | fails hrest hsome hparts hsole => exact .fails (hruns hrest) hsome hparts hsole
      | alternates hrest hnone _ => exact .alternates (hruns hrest) hnone rfl

end Incident

/-! ### What a verdict speaks of -/

open Incident (join summary)

/-- The incident that a verdict speaks of. -/
def Verdict.incident? : Verdict X S → Option (Incident X)
  | proceed _ => none
  | complete _ => none
  | fail failure => some (.failed failure)
  | alternate value => some (.alternated value)

/-- The incident that a result speaks of, from the one that its value speaks of. -/
def incidentOf (speaks : α → Option (Incident X)) : Except Halt α → Option (Incident X)
  | .ok a => speaks a
  | .error reason => some (.halted reason)

namespace Verdict

@[simp] theorem incident?_completed (verdict : Verdict X S) :
    verdict.completed.incident? = verdict.incident? := by
  cases verdict <;> rfl

/-- The verdict on a value fed to two stages speaks of the incidents of both sides. -/
theorem incident?_both (left : Verdict X (Option B)) (right : Verdict X (Option C)) :
    (left.both right).incident? = Option.merge join left.incident? right.incident? := by
  rcases left with (_ | _) | (_ | _) | _ | _ <;> rcases right with (_ | _) | (_ | _) | _ | _ <;> rfl

end Verdict

/-- What a verdict says about a run in which some incidents were raised. -/
structure Verdict.Reports (verdict : Verdict X S) (raised : List (Incident X)) : Prop where
  /-- The run did not break off. -/
  runs : ¬Incident.Halts raised
  /-- The run goes on or completes if and only if nothing was raised. -/
  clear : raised = [] ↔ ∃ acc, verdict = .proceed acc ∨ verdict = .complete acc
  /-- If something failed, the run fails. Its failure stands for what all failures raised stand for,
  in the order in which they were raised, and is the one that was raised if there was one only. -/
  fails : Incident.failures raised ≠ [] → ∃ failure, verdict = .fail failure ∧
    failure.parts = (Incident.failures raised).flatMap Failure.parts ∧
    ∀ sole, Incident.failures raised = [sole] → failure = sole
  /-- If nothing failed, the run stops on the first alternate raised. -/
  alternates : Incident.failures raised = [] → ∀ first rest,
    Incident.alternates raised = first :: rest → verdict = .alternate first

/-- A result that speaks of what some incidents amount to reports them, or is none. -/
theorem Incident.Summarizes.reports {raised : List (Incident X)}
    {result : Except Halt (Verdict X S)}
    (h : Summarizes raised (incidentOf Verdict.incident? result)) :
    (∃ reason, result = .error reason ∧ .halted reason ∈ raised) ∨
      ∃ verdict, result = .ok verdict ∧ verdict.Reports raised := by
  rcases result with reason | verdict
  · cases h with
    | halts hmem => exact .inl ⟨reason, rfl, hmem⟩
  · refine .inr ⟨verdict, rfl, ?_⟩
    cases verdict with
    | proceed acc | complete acc =>
      cases h
      exact ⟨not_halts_nil, by simp, fun hsome => absurd rfl hsome,
        fun _ _ _ hfirst => nomatch hfirst⟩
    | fail failure =>
      cases h with
      | fails hruns hsome hparts hsole =>
        have hraised : raised ≠ [] := fun hnil => hsome (hnil ▸ rfl)
        exact ⟨hruns, by simp [hraised], fun _ => ⟨failure, rfl, hparts, hsole⟩,
          fun hnone => absurd hnone hsome⟩
    | alternate value =>
      cases h with
      | alternates hruns hnone hfirst =>
        have hraised : raised ≠ [] := by
          rintro rfl
          cases hfirst
        exact ⟨hruns, by simp [hraised], fun hsome => absurd hnone hsome, fun _ _ _ hother =>
          congrArg Verdict.alternate (List.cons.inj (hfirst.symm.trans hother)).1⟩

/-! ### Watched steps -/

/-- A step together with the incidents it raises. -/
structure Watched (σ X κ α : Type) where
  step : Step σ κ α
  incidents : κ → Env σ → List (Incident X)

/-- A continuation together with the incidents it raises. -/
def WatchedSink (σ X κ S A : Type) : Type := Context → S → A → Watched σ X κ (Verdict X S)

namespace Watched

/-- A step that raises nothing, unless it breaks off. -/
def lift (step : Step σ κ α) : Watched σ X κ α where
  step := step
  incidents state env := (incidentOf (fun _ => none) (step state env).result).toList

/-- One watched step after another; the incidents of the second follow those of the first. -/
protected def bind (first : Watched σ X κ α) (next : α → Watched σ X κ β) : Watched σ X κ β where
  step := first.step >>= fun a => (next a).step
  incidents state env :=
    first.incidents state env ++
      match first.step state env with
      | ⟨.ok a, state, env⟩ => (next a).incidents state env
      | ⟨.error _, _, _⟩ => []

instance : Monad (Watched σ X κ) where
  pure a := lift (pure a)
  bind := Watched.bind

/-- Fails. -/
def fail (failure : Failure) : Watched σ X κ (Verdict X S) where
  step := pure (.fail failure)
  incidents _ _ := [.failed failure]

/-- Stops on an alternate value. -/
def alternate (value : X) : Watched σ X κ (Verdict X S) where
  step := pure (.alternate value)
  incidents _ _ := [.alternated value]

/-- Runs foreign code. -/
def call (callback : Callback σ α β) (a : α) : Watched σ X κ β := lift (Step.call callback a)

/-- A watched step on one part of a larger state. -/
def zoom (view : κ → ι) (replace : κ → ι → κ) (watched : Watched σ X ι α) : Watched σ X κ α where
  step := watched.step.zoom view replace
  incidents state env := watched.incidents (view state) env

/-- A watched step with an additional state of its own, which it starts with and gives back. -/
def within (inner : ι) (watched : Watched σ X (ι × κ) α) : Watched σ X κ (α × ι) where
  step := watched.step.within inner
  incidents state env := watched.incidents (inner, state) env

/-- A watched step on a state of its own, which is forgotten at its end. -/
def isolated (inner : ι) (watched : Watched σ X ι α) : Watched σ X κ α where
  step := watched.step.isolated inner
  incidents _ env := watched.incidents inner env

/-- A watched step followed by a change of the surroundings, also if the step breaks off. -/
def ensure (watched : Watched σ X κ α) (cleanUp : Env σ → Env σ) : Watched σ X κ α where
  step := watched.step.ensure cleanUp
  incidents := watched.incidents

/-- A watched step of what is downstream. -/
def below (watched : Watched σ X κ α) : Watched σ X (ι × κ) α :=
  watched.zoom Prod.snd fun state down => (state.1, down)

theorem step_bind (first : Watched σ X κ α) (next : α → Watched σ X κ β) :
    (first >>= next).step = first.step >>= fun a => (next a).step := rfl

theorem step_lift (step : Step σ κ α) : (lift step : Watched σ X κ α).step = step := rfl

/-! ### Incidents up to the end of a step -/

/-- If some incidents happened before a watched step, its result speaks of those and of the
incidents it raises itself. -/
def Answers (before : Option (Incident X)) (watched : Watched σ X κ α)
    (speaks : α → Option (Incident X)) : Prop :=
  ∀ state env, Option.merge join before (summary (watched.incidents state env)) =
    incidentOf speaks (watched.step state env).result

variable {before : Option (Incident X)} {speaks : α → Option (Incident X)}

theorem answers_lift (step : Step σ κ α) :
    (lift step : Watched σ X κ α).Answers before fun _ => before := by
  intro state env
  rw [lift, Incident.summary_toList]
  rcases (step state env).result with reason | a
  · exact Incident.merge_halted before reason
  · exact Option.merge_none_right

theorem answers_pure {a : α} (h : speaks a = before) :
    (pure a : Watched σ X κ α).Answers before speaks := by
  intro _ _
  rw [← h]
  exact Option.merge_none_right

theorem answers_fail (failure : Failure) :
    (fail failure : Watched σ X κ (Verdict X S)).Answers none Verdict.incident? :=
  fun _ _ => rfl

theorem answers_alternate (value : X) :
    (alternate value : Watched σ X κ (Verdict X S)).Answers none Verdict.incident? :=
  fun _ _ => rfl

namespace Answers

/-- The second step takes the place of the first one in what has happened so far. -/
theorem bind {speaks' : β → Option (Incident X)} {first : Watched σ X κ α}
    {next : α → Watched σ X κ β} (hfirst : first.Answers before speaks)
    (hnext : ∀ a, (next a).Answers (speaks a) speaks') :
    (first >>= next).Answers before speaks' := by
  intro state env
  have hfirst := hfirst state env
  have happend := Incident.summary_append (first.incidents state env)
  change Option.merge join before (summary (first.incidents state env ++ _)) =
    incidentOf speaks' ((first.step >>= fun a => (next a).step) state env).result
  rw [happend, ← Incident.merge_assoc, hfirst, Step.bind_apply]
  generalize first.step state env = ended
  rcases ended with ⟨reason | a, state', env'⟩
  · rfl
  · exact hnext a state' env'

theorem map {speaks' : β → Option (Incident X)} {watched : Watched σ X κ α} {f : α → β}
    (h : watched.Answers before speaks) (hf : ∀ a, speaks' (f a) = speaks a) :
    (f <$> watched).Answers before speaks' :=
  h.bind fun a => answers_pure (hf a)

/-- Incidents before a step come before those of the step. -/
theorem frame {watched : Watched σ X κ α} (h : watched.Answers none speaks)
    (before : Option (Incident X)) :
    watched.Answers before fun a => Option.merge join before (speaks a) := by
  intro state env
  have h := h state env
  rw [Option.merge_none_left] at h
  rw [h]
  rcases (watched.step state env).result with reason | a
  · exact Incident.merge_halted before reason
  · rfl

theorem zoom {watched : Watched σ X ι α} (h : watched.Answers before speaks) (view : κ → ι)
    (replace : κ → ι → κ) : (watched.zoom view replace).Answers before speaks :=
  fun state env => h (view state) env

theorem within {watched : Watched σ X (ι × κ) α} (h : watched.Answers before speaks) (inner : ι) :
    (watched.within inner).Answers before fun pair => speaks pair.1 := by
  intro state env
  refine (h (inner, state) env).trans ?_
  simp only [Watched.within, Step.within]
  rcases (watched.step (inner, state) env).result with _ | _ <;> rfl

theorem isolated {watched : Watched σ X ι α} (h : watched.Answers before speaks) (inner : ι) :
    (watched.isolated inner : Watched σ X κ α).Answers before speaks := fun _ env => h inner env

theorem ensure {watched : Watched σ X κ α} (h : watched.Answers before speaks)
    (cleanUp : Env σ → Env σ) : (watched.ensure cleanUp).Answers before speaks := h

theorem below {watched : Watched σ X κ α} (h : watched.Answers before speaks) :
    (watched.below : Watched σ X (ι × κ) α).Answers before speaks := h.zoom _ _

end Answers

end Watched

end Transduction
