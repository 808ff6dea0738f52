import Transduction.Proofs.Emission.Visits
import Transduction.Proofs.Faults.Incidents
import Transduction.Stage.Derived

/-!
# Trees of paired stages

Pairing two stages, with or without a function for the pairs, can be nested to any depth. An inner
pair feeds a sink that keeps its first value and stops, and every level makes one verdict of two. So
neither the order of the work nor the outcome of a whole tree can be read off one of its levels.

They are those of a flat list. What a tree does with a value is a harvest: every leaf is fed the
value once, from left to right, whatever the others did with it, and the functions are called in
between, wherever there is a value from both sides. The outcome of the whole follows from the
verdicts of the leaves alone.

## Main definitions

* `ZipTree`, `ZipTree.stage`: trees of paired stages, and the stage that each of them describes.
* `ZipTree.harvest`: feeding all leaves.
* `Job`, `Job.InTurn`, `ZipTree.jobs`: the work of a tree as a flat list, and doing it in order.
* `Harvest.Settles`: what follows from a harvest.

## Main results

* `ZipTree.inTurn_harvest`: a harvest does the work of a tree in order.
* `ZipTree.harvestsFirst`: a tree that is asked for its first value.
* `ZipTree.run_eq_into`: a tree in front of a sink, by its harvest.
* `ZipTree.run_settles`: the outcome of a tree.
-/

namespace Transduction

variable {σ X κ ι S A B C D : Type}

/-- Trees of paired stages that are fed the same values. -/
inductive ZipTree (σ X A : Type) : Type → Type 1 where
  /-- Any stage. -/
  | leaf {B : Type} (stage : Stage σ X A B) : ZipTree σ X A B
  /-- The pairs of the first values of two trees. -/
  | zip {B C : Type} (left : ZipTree σ X A B) (right : ZipTree σ X A C) : ZipTree σ X A (B × C)
  /-- The first values of two trees, joined by a function. -/
  | map2 {B C D : Type} (left : ZipTree σ X A B) (right : ZipTree σ X A C)
    (f : Callback σ (B × C) D) : ZipTree σ X A D

/-! ### Harvests -/

/-- The verdicts of some stages on a value, with whether each of them passed on anything, and the
value that they make together, if there is one. -/
structure Harvest (X B : Type) where
  verdicts : List (Verdict X Bool)
  value? : Option B

namespace Harvest

/-- Two harvests, one after the other. -/
def pair (left : Harvest X B) (right : Harvest X C) : Harvest X (B × C) where
  verdicts := left.verdicts ++ right.verdicts
  value? := do return (← left.value?, ← right.value?)

/-- The incidents that the verdicts of a harvest speak of, in order. -/
def incidents (harvest : Harvest X B) : List (Incident X) :=
  harvest.verdicts.filterMap Verdict.incident?

/-- A verdict that stands for a harvest: it speaks of what all incidents amount to, and there is a
value if all stages passed one on, and nowhere else. -/
structure StandsFor (harvest : Harvest X B) (verdict : Verdict X (Option B)) : Prop where
  incident : verdict.incident? = Incident.summary harvest.incidents
  value : verdict.acc?.join = harvest.value?
  whole : harvest.value?.isSome = true ↔ ∀ verdict ∈ harvest.verdicts, verdict.acc? = some true

/-- A single verdict stands for itself. -/
theorem standsFor_singleton (verdict : Verdict X (Option B)) :
    StandsFor ⟨[verdict.map Option.isSome], verdict.acc?.join⟩ verdict := by
  cases verdict with
  | proceed value? | complete value? =>
    exact ⟨rfl, rfl, by cases value? <;> simp [Verdict.map, Verdict.acc?]⟩
  | fail failure | alternate value => exact ⟨rfl, rfl, by simp [Verdict.map, Verdict.acc?]⟩

theorem StandsFor.both {left : Harvest X B} {right : Harvest X C} {l : Verdict X (Option B)}
    {r : Verdict X (Option C)} (hleft : left.StandsFor l) (hright : right.StandsFor r) :
    (left.pair right).StandsFor (l.both r) where
  incident := by
    rw [Verdict.incident?_both, hleft.incident, hright.incident, ← Incident.summary_append, pair,
      incidents, incidents, incidents, List.filterMap_append]
  value := by
    have hvalue : (l.both r).acc?.join = do return (← l.acc?.join, ← r.acc?.join) := by
      rcases l with (_ | _) | (_ | _) | _ | _ <;> rcases r with (_ | _) | (_ | _) | _ | _ <;> rfl
    rw [hvalue, hleft.value, hright.value]
    rfl
  whole := by
    have hpair : (left.pair right).value?.isSome = true ↔
        left.value?.isSome = true ∧ right.value?.isSome = true := by
      rcases left with ⟨_, _ | _⟩ <;> rcases right with ⟨_, _ | _⟩ <;> simp [pair]
    rw [hpair, hleft.whole, hright.whole, pair, List.forall_mem_append]

/-- Another value may take the place of the value, and none the place of none. -/
theorem StandsFor.replace {verdicts : List (Verdict X Bool)} {value? : Option B}
    {other? : Option C} {verdict : Verdict X (Option B)} (h : StandsFor ⟨verdicts, value?⟩ verdict)
    (hsome : other?.isSome = value?.isSome) :
    StandsFor ⟨verdicts, other?⟩ (verdict.map fun _ => other?) where
  incident := by
    have hincident : (verdict.map fun _ => other?).incident? = verdict.incident? := by
      cases verdict <;> rfl
    rw [hincident]
    exact h.incident
  value := by
    cases verdict with
    | proceed | complete => rfl
    | fail | alternate =>
      have hvalue : none = value? := h.value
      rw [← hvalue] at hsome
      exact (Option.isNone_iff_eq_none.1 (by simpa using hsome)).symm
  whole := hsome ▸ h.whole

/-- What follows from a harvest in front of a sink: its value is passed on, or else it ends with
what its incidents amount to. -/
def settle (sink : Sink σ X κ S B) (context : Context) (acc : S) (harvest : Harvest X B) :
    Step σ (ι × κ) (Verdict X S) :=
  match harvest.value?, Incident.summary harvest.incidents with
  | some value, _ => Sink.below (sink context acc value)
  | none, some (.failed failure) => pure (.fail failure)
  | none, some (.alternated value) => pure (.alternate value)
  | none, _ => pure (.proceed acc)

theorem settle_of_standsFor (sink : Sink σ X κ S B) (context : Context) (acc : S)
    {harvest : Harvest X B} {verdict : Verdict X (Option B)} : harvest.StandsFor verdict →
    (harvest.settle sink context acc : Step σ (ι × κ) (Verdict X S)) =
      match verdict with
      | .fail failure => pure (.fail failure)
      | .alternate value => pure (.alternate value)
      | .proceed value? | .complete value? =>
        match value? with
        | some value => Sink.below (sink context acc value)
        | none => pure (.proceed acc) := by
  intro h
  rw [settle, ← h.value, ← h.incident]
  rcases verdict with (_ | _) | (_ | _) | _ | _ <;> rfl

/-- A harvest in front of a sink. -/
def into (harvest : Step σ ι (Harvest X B)) (sink : Sink σ X κ S B) (context : Context) (acc : S) :
    Step σ (ι × κ) (Verdict X S) :=
  Sink.above harvest >>= settle sink context acc

theorem into_apply (harvest : Step σ ι (Harvest X B)) (sink : Sink σ X κ S B) (context : Context)
    (acc : S) (mine : ι) (down : κ) (env : Env σ) :
    into harvest sink context acc (mine, down) env =
      match harvest mine env with
      | ⟨.ok harvest, mine, env⟩ => harvest.settle sink context acc (mine, down) env
      | ⟨.error reason, mine, env⟩ => ⟨.error reason, (mine, down), env⟩ := by
  simp only [into, Step.bind_apply, Sink.above, Step.zoom]
  rcases harvest mine env with ⟨_ | _, _, _⟩ <;> rfl

/-- A harvest and a verdict that stands for it, or both broken off. -/
inductive EndsAs : Ended σ κ (Harvest X B) → Ended σ (κ × Unit) (Verdict X (Option B)) → Prop
  | halted (reason : Halt) (mine : κ) (env : Env σ) :
      EndsAs ⟨.error reason, mine, env⟩ ⟨.error reason, (mine, ()), env⟩
  | stands {harvest : Harvest X B} {verdict : Verdict X (Option B)} (h : harvest.StandsFor verdict)
      (mine : κ) (env : Env σ) : EndsAs ⟨.ok harvest, mine, env⟩ ⟨.ok verdict, (mine, ()), env⟩

end Harvest

theorem Verdict.both_ne_complete (left : Verdict X (Option B)) (right : Verdict X (Option C))
    (value? : Option (B × C)) : left.both right ≠ .complete value? := by
  rcases left with (_ | _) | (_ | _) | _ | _ <;> rcases right with (_ | _) | (_ | _) | _ | _ <;>
    exact nofun

namespace ZipTree

/-- The stage that a tree describes. -/
def stage : {B : Type} → ZipTree σ X A B → Stage σ X A B
  | _, leaf stage => stage
  | _, zip left right => .zip left.stage right.stage
  | _, map2 left right f => .map2 left.stage right.stage f

/-- Whether a tree is a single stage. -/
def IsLeaf : ZipTree σ X A B → Prop
  | leaf _ => True
  | _ => False

section Harvests

variable (fuel : Nat) (context : Context) (a : A)

/-- Feeds a value to a stage and keeps the first value that it passes on. -/
def harvestLeaf (stage : Stage σ X A B) : Step σ stage.State (Harvest X B) := do
  let verdict ← Step.zoom (fun mine => (mine, ())) (fun _ state => state.1)
    (stage.run fuel Sink.first context none a)
  return ⟨[verdict.map Option.isSome], verdict.acc?.join⟩

/-- One harvest after another, on the two parts of a state. -/
def harvestBoth (left : Step σ κ (Harvest X B)) (right : Step σ ι (Harvest X C)) :
    Step σ (κ × ι) (Harvest X (B × C)) := do
  let l ← Sink.above left
  let r ← Sink.below right
  return l.pair r

theorem harvestBoth_apply (left : Step σ κ (Harvest X B)) (right : Step σ ι (Harvest X C)) (ml : κ)
    (mr : ι) (env : Env σ) : harvestBoth left right (ml, mr) env =
      match left ml env with
      | ⟨.error reason, ml, env⟩ => ⟨.error reason, (ml, mr), env⟩
      | ⟨.ok l, ml, env⟩ =>
        match right mr env with
        | ⟨.error reason, mr, env⟩ => ⟨.error reason, (ml, mr), env⟩
        | ⟨.ok r, mr, env⟩ => ⟨.ok (l.pair r), (ml, mr), env⟩ := by
  simp only [harvestBoth, Step.bind_apply, Sink.above, Sink.below, Step.zoom]
  rcases left ml env with ⟨_ | l, ml', env'⟩
  · rfl
  · simp only
    rcases right mr env' with ⟨_ | r, mr', env''⟩ <;> rfl

/-- Applies a function to the value of a harvest, if there is one. -/
def harvestMap (f : Callback σ B C) (harvest : Harvest X B) : Step σ κ (Harvest X C) :=
  match harvest.value? with
  | some value => do return ⟨harvest.verdicts, some (← Step.call f value)⟩
  | none => return ⟨harvest.verdicts, none⟩

/-- A harvest whose value goes through a function, on the state of a stage and of the function
behind it. -/
def harvestMapped (harvest : Step σ κ (Harvest X B)) (f : Callback σ B C) :
    Step σ (κ × Unit) (Harvest X C) :=
  Sink.above harvest >>= harvestMap f

/-- What a tree makes of one value: each leaf is fed once, from left to right, and the function of a
node is called after its leaves, if there is a value from both sides. -/
def harvest : {B : Type} → (tree : ZipTree σ X A B) → Step σ tree.stage.State (Harvest X B)
  | _, leaf stage => harvestLeaf fuel context a stage
  | _, zip left right => harvestBoth left.harvest right.harvest
  | _, map2 left right f => harvestMapped (harvestBoth left.harvest right.harvest) f

/-- A stage that is asked for its first value does what a harvest does, and its verdict stands for
the harvest. -/
def HarvestsFirst (stage : Stage σ X A B) (harvest : Step σ stage.State (Harvest X B)) : Prop :=
  ∀ mine env, Harvest.EndsAs (harvest mine env)
    (stage.run fuel Sink.first context none a (mine, ()) env)

theorem harvestsFirst_leaf (stage : Stage σ X A B) :
    HarvestsFirst fuel context a stage (harvestLeaf fuel context a stage) := by
  intro mine env
  simp only [harvestLeaf, Step.bind_apply, Step.zoom]
  rcases stage.run fuel Sink.first context none a (mine, ()) env with
    ⟨reason | verdict, ⟨mine', _⟩, env'⟩
  · exact .halted reason mine' env'
  · exact .stands (Harvest.standsFor_singleton verdict) mine' env'

theorem run_map (f : Callback σ A B) (sink : Sink σ X κ S B) (acc : S) :
    (Stage.map f).run fuel sink context acc a =
      (do let b ← Step.call f a; Sink.below (sink context acc b)) := rfl

theorem run_zip (left : Stage σ X A B) (right : Stage σ X A C) (sink : Sink σ X κ S (B × C))
    (acc : S) : (Stage.zip left right).run fuel sink context acc a = (do
      let l ← Step.zoom (fun state => (state.1.1, ()))
        (fun old state => ((state.1, old.1.2), old.2)) (left.run fuel Sink.first context none a)
      let r ← Step.zoom (fun state => (state.1.2, ()))
        (fun old state => ((old.1.1, state.1), old.2)) (right.run fuel Sink.first context none a)
      match l.both r with
      | .proceed (some pair) => Sink.below (sink context acc pair)
      | .proceed none => return .proceed acc
      | .complete _ => return .proceed acc
      | .fail failure => return .fail failure
      | .alternate value => return .alternate value) := rfl

theorem into_harvestMapped (harvest : Step σ ι (Harvest X B)) (f : Callback σ B C)
    (sink : Sink σ X κ S C) (acc : S) (mine : ι) (down : κ) (env : Env σ) :
    Harvest.into (harvestMapped harvest f) sink context acc ((mine, ()), down) env =
      let mapping := (Stage.map f).run fuel sink
      let ended := Harvest.into harvest mapping context acc (mine, (), down) env
      ⟨ended.result, ((ended.state.1, ended.state.2.1), ended.state.2.2), ended.env⟩ := by
  simp only [Harvest.into_apply, harvestMapped, Step.bind_apply, Sink.above, Step.zoom]
  rcases harvest mine env with ⟨_ | ⟨verdicts, value?⟩, mine', env'⟩
  · rfl
  · cases value? with
    | none =>
      simp only [harvestMap, Step.pure_apply, Harvest.settle, Harvest.incidents]
      rcases Incident.summary (verdicts.filterMap Verdict.incident?) with _ | _ | _ | _ <;> rfl
    | some value =>
      simp only [harvestMap, Harvest.settle, Step.bind_apply, Step.call, Sink.below, Step.zoom,
        run_map, Step.pure_apply]
      rcases (f value env'.user).result with _ | _
      · rfl
      · rfl

section Both

variable {left : Stage σ X A B} {right : Stage σ X A C}
  {harvestLeft : Step σ left.State (Harvest X B)} {harvestRight : Step σ right.State (Harvest X C)}

/-- Two stages whose first values are paired, in front of a sink. -/
theorem run_zip_eq_into (hleft : HarvestsFirst fuel context a left harvestLeft)
    (hright : HarvestsFirst fuel context a right harvestRight) (sink : Sink σ X κ S (B × C))
    (acc : S) : (Stage.zip left right).run fuel sink context acc a =
      Harvest.into (harvestBoth harvestLeft harvestRight) sink context acc := by
  funext state env
  obtain ⟨⟨ml, mr⟩, down⟩ := state
  refine Eq.trans ?_ (Harvest.into_apply _ sink context acc (ml, mr) down env).symm
  rw [harvestBoth_apply]
  have hl := hleft ml env
  simp only [run_zip, Step.bind_apply, Step.zoom]
  generalize harvestLeft ml env = harvested, left.run fuel Sink.first context none a (ml, ()) env =
    ended at hl ⊢
  cases hl with
  | halted reason ml' env' => rfl
  | @stands l v hv ml' env' =>
    have hr := hright mr env'
    simp only
    generalize harvestRight mr env' = harvested,
      right.run fuel Sink.first context none a (mr, ()) env' = ended at hr ⊢
    cases hr with
    | halted reason mr' env'' => rfl
    | @stands r w hw mr' env'' =>
      simp only [Harvest.settle_of_standsFor sink context acc (hv.both hw)]
      cases hverdict : v.both w with
      | complete value? => exact absurd hverdict (Verdict.both_ne_complete v w value?)
      | proceed value? => cases value? <;> rfl
      | fail failure | alternate value => rfl

/-- Two stages whose first values are joined by a function, in front of a sink. -/
theorem run_map2_eq_into (hleft : HarvestsFirst fuel context a left harvestLeft)
    (hright : HarvestsFirst fuel context a right harvestRight) (f : Callback σ (B × C) D)
    (sink : Sink σ X κ S D) (acc : S) : (Stage.map2 left right f).run fuel sink context acc a =
      Harvest.into (harvestMapped (harvestBoth harvestLeft harvestRight) f) sink context acc := by
  funext state env
  obtain ⟨⟨mine, _⟩, down⟩ := state
  refine Eq.trans ?_ (into_harvestMapped fuel context _ f sink acc mine down env).symm
  simp only [Stage.map2, Stage.run_compose, Step.zoom, run_zip_eq_into fuel context a hleft hright]
  rfl

end Both

/-- All harvests that a step gives are those that some verdict stands for. -/
def Stands (harvest : Step σ ι (Harvest X B)) : Prop :=
  ∀ mine env mine' env' given, harvest mine env = ⟨.ok given, mine', env'⟩ →
    ∃ verdict, given.StandsFor verdict

theorem HarvestsFirst.stands {fuel : Nat} {context : Context} {a : A} {stage : Stage σ X A B}
    {harvest : Step σ stage.State (Harvest X B)} (h : HarvestsFirst fuel context a stage harvest) :
    Stands harvest := by
  intro mine env mine' env' given hgiven
  have hends := h mine env
  rw [hgiven] at hends
  generalize stage.run fuel Sink.first context none a (mine, ()) env = ended at hends
  cases hends with
  | stands hstands => exact ⟨_, hstands⟩

theorem stands_harvestBoth {left : Step σ κ (Harvest X B)} {right : Step σ ι (Harvest X C)}
    (hleft : Stands left) (hright : Stands right) : Stands (harvestBoth left right) := by
  rintro ⟨ml, mr⟩ env mine' env' given hgiven
  rw [harvestBoth_apply] at hgiven
  rcases hl : left ml env with ⟨_ | l, ml', between⟩ <;> rw [hl] at hgiven
  · cases hgiven
  · simp only at hgiven
    rcases hr : right mr between with ⟨_ | r, mr', after⟩ <;> rw [hr] at hgiven
    · cases hgiven
    · cases hgiven
      obtain ⟨v, hv⟩ := hleft _ _ _ _ _ hl
      obtain ⟨w, hw⟩ := hright _ _ _ _ _ hr
      exact ⟨v.both w, hv.both hw⟩

theorem harvestMapped_eq_ok {harvest : Step σ ι (Harvest X B)} {f : Callback σ B C}
    {mine mine' : ι × Unit} {env env' : Env σ} {given : Harvest X C}
    (h : harvestMapped harvest f mine env = ⟨.ok given, mine', env'⟩) :
    ∃ first amid, harvest mine.1 env = ⟨.ok first, mine'.1, amid⟩ ∧
      (first.value? = none ∧ given = ⟨first.verdicts, none⟩ ∧ env' = amid ∨
        ∃ value other, first.value? = some value ∧ given = ⟨first.verdicts, some other⟩ ∧
          (Step.call f value : Step σ Unit C) () amid = ⟨.ok other, (), env'⟩) := by
  simp only [harvestMapped, Step.bind_apply, Sink.above, Step.zoom] at h
  rcases hharvest : harvest mine.1 env with ⟨_ | first, between, amid⟩ <;> rw [hharvest] at h
  · cases h
  · simp only [harvestMap] at h
    cases hvalue : first.value? with
    | none =>
      rw [hvalue] at h
      cases h
      exact ⟨first, _, rfl, .inl ⟨hvalue, rfl, rfl⟩⟩
    | some value =>
      rw [hvalue] at h
      obtain ⟨other, _, _, hcall, hother⟩ := Step.bind_eq_ok_iff.1 h
      cases hother
      -- A call does not look at the state of the stage that makes it.
      obtain rfl : (between, mine.2) = mine' := congrArg Ended.state hcall
      have halone := congrArg (fun ended : Ended σ _ C => Ended.mk ended.result () ended.env) hcall
      exact ⟨first, amid, rfl, .inr ⟨value, other, hvalue, rfl, halone⟩⟩

theorem stands_harvestMapped {harvest : Step σ ι (Harvest X B)} (h : Stands harvest)
    (f : Callback σ B C) : Stands (harvestMapped harvest f) := by
  intro mine env mine' env' given hgiven
  obtain ⟨first, amid, hfirst, hrest⟩ := harvestMapped_eq_ok hgiven
  obtain ⟨verdict, hverdict⟩ := h _ _ _ _ _ hfirst
  rcases hrest with ⟨hnone, rfl, -⟩ | ⟨value, other, hsome, rfl, -⟩
  · exact ⟨_, hverdict.replace (hnone ▸ rfl)⟩
  · exact ⟨_, hverdict.replace (hsome ▸ rfl)⟩

/-- What a harvest that is passed on to the sink for first values ends with stands for it. -/
theorem endsAs_into_first {harvest : Step σ ι (Harvest X B)} (h : Stands harvest) (mine : ι)
    (env : Env σ) :
    Harvest.EndsAs (harvest mine env)
      (Harvest.into harvest Sink.first context none (mine, ()) env) := by
  rw [Harvest.into_apply]
  rcases hgiven : harvest mine env with ⟨reason | given, mine', env'⟩
  · exact .halted reason mine' env'
  · obtain ⟨verdict, hstands⟩ := h _ _ _ _ _ hgiven
    simp only [Harvest.settle_of_standsFor Sink.first context none hstands]
    have hends {last : Verdict X (Option B)} (hincident : last.incident? = verdict.incident?)
        (hvalue : last.acc?.join = verdict.acc?.join) :
        Harvest.EndsAs ⟨.ok given, mine', env'⟩ ⟨.ok last, (mine', ()), env'⟩ :=
      .stands ⟨hincident.trans hstands.incident, hvalue.trans hstands.value, hstands.whole⟩ _ _
    rcases verdict with (_ | value) | (_ | value) | failure | other <;> exact hends rfl rfl

end Harvests

variable (fuel : Nat) (context : Context) (a : A)

/-- A tree that is asked for its first value does what its harvest does. -/
theorem harvestsFirst (tree : ZipTree σ X A B) :
    HarvestsFirst fuel context a tree.stage (tree.harvest fuel context a) := by
  induction tree with
  | leaf stage => exact harvestsFirst_leaf fuel context a stage
  | zip left right ihLeft ihRight =>
    intro mine env
    have hstands := stands_harvestBoth ihLeft.stands ihRight.stands
    have hends := endsAs_into_first context hstands mine env
    rwa [← run_zip_eq_into fuel context a ihLeft ihRight] at hends
  | map2 left right f ihLeft ihRight =>
    intro mine env
    have hstands := stands_harvestMapped (stands_harvestBoth ihLeft.stands ihRight.stands) f
    have hends := endsAs_into_first context hstands mine env
    rwa [← run_map2_eq_into fuel context a ihLeft ihRight] at hends

/-- A tree that is not a single stage, in front of a sink. -/
theorem run_eq_into (tree : ZipTree σ X A B) (h : ¬ tree.IsLeaf) (sink : Sink σ X κ S B) (acc : S) :
    tree.stage.run fuel sink context acc a =
      Harvest.into (tree.harvest fuel context a) sink context acc := by
  cases tree with
  | leaf stage => exact absurd trivial h
  | zip left right =>
    exact run_zip_eq_into fuel context a (harvestsFirst fuel context a left)
      (harvestsFirst fuel context a right) sink acc
  | map2 left right f =>
    exact run_map2_eq_into fuel context a (harvestsFirst fuel context a left)
      (harvestsFirst fuel context a right) f sink acc

end ZipTree

/-! ### The order of work -/

/-- A piece of the work on a value: an instance of a stage that is fed the value, or a function that
may be called. -/
inductive Job (σ X A : Type) : Type 1 where
  | feed {B : Type} (stage : Stage σ X A B) (mine : stage.State)
  | call {B C : Type} (f : Callback σ B C)

/-- Some work is done in order, from some surroundings to others, with the verdicts of the stages.
Every stage is fed once and leaves a new state behind; a function is called once or left out. -/
inductive Job.InTurn (fuel : Nat) (context : Context) (a : A) :
    List (Job σ X A) → Env σ → List (Job σ X A) → List (Verdict X Bool) → Env σ → Prop where
  | done (env : Env σ) : InTurn fuel context a [] env [] [] env
  | feed {B : Type} {stage : Stage σ X A B} {mine mine' : stage.State} {env env' last : Env σ}
    {verdict : Verdict X (Option B)} {rest rest' : List (Job σ X A)}
    {verdicts : List (Verdict X Bool)}
    (hrun : stage.run fuel Sink.first context none a (mine, ()) env =
      ⟨.ok verdict, (mine', ()), env'⟩)
    (hrest : InTurn fuel context a rest env' rest' verdicts last) :
    InTurn fuel context a (.feed stage mine :: rest) env (.feed stage mine' :: rest')
      (verdict.map Option.isSome :: verdicts) last
  | call {B C : Type} {f : Callback σ B C} {b : B} {c : C} {env env' last : Env σ}
    {rest rest' : List (Job σ X A)} {verdicts : List (Verdict X Bool)}
    (hcall : (Step.call f b : Step σ Unit C) () env = ⟨.ok c, (), env'⟩)
    (hrest : InTurn fuel context a rest env' rest' verdicts last) :
    InTurn fuel context a (.call f :: rest) env (.call f :: rest') verdicts last
  | leaveOut {B C : Type} {f : Callback σ B C} {env last : Env σ} {rest rest' : List (Job σ X A)}
    {verdicts : List (Verdict X Bool)}
    (hrest : InTurn fuel context a rest env rest' verdicts last) :
    InTurn fuel context a (.call f :: rest) env (.call f :: rest') verdicts last

theorem Job.InTurn.append {fuel : Nat} {context : Context} {a : A}
    {first first' second second' : List (Job σ X A)} {verdicts later : List (Verdict X Bool)}
    {env between last : Env σ} (hfirst : InTurn fuel context a first env first' verdicts between)
    (hsecond : InTurn fuel context a second between second' later last) :
    InTurn fuel context a (first ++ second) env (first' ++ second') (verdicts ++ later) last := by
  induction hfirst with
  | done env => exact hsecond
  | feed hrun _ ih => exact .feed hrun (ih hsecond)
  | call hcall _ ih => exact .call hcall (ih hsecond)
  | leaveOut _ ih => exact .leaveOut (ih hsecond)

namespace ZipTree

/-- The work of a tree on one value, from left to right: its leaves, and its functions after the
leaves below them. -/
def jobs : {B : Type} → (tree : ZipTree σ X A B) → tree.stage.State → List (Job σ X A)
  | _, leaf stage, mine => [.feed stage mine]
  | _, zip left right, mine => left.jobs (Prod.fst mine) ++ right.jobs (Prod.snd mine)
  | _, map2 left right f, mine =>
    let both : left.stage.State × right.stage.State := Prod.fst mine
    left.jobs both.1 ++ right.jobs both.2 ++ [.call f]

variable (fuel : Nat) (context : Context) (a : A)

theorem inTurn_harvestBoth {left : ZipTree σ X A B} {right : ZipTree σ X A C}
    (ihLeft : ∀ mine env mine' env' given, left.harvest fuel context a mine env =
      ⟨.ok given, mine', env'⟩ → Job.InTurn fuel context a (left.jobs mine) env (left.jobs mine')
        given.verdicts env')
    (ihRight : ∀ mine env mine' env' given, right.harvest fuel context a mine env =
      ⟨.ok given, mine', env'⟩ → Job.InTurn fuel context a (right.jobs mine) env
        (right.jobs mine') given.verdicts env')
    {ml ml' : left.stage.State} {mr mr' : right.stage.State} {env env' : Env σ}
    {given : Harvest X (B × C)}
    (h : harvestBoth (left.harvest fuel context a) (right.harvest fuel context a) (ml, mr) env =
      ⟨.ok given, (ml', mr'), env'⟩) :
    Job.InTurn fuel context a (left.jobs ml ++ right.jobs mr) env
      (left.jobs ml' ++ right.jobs mr') given.verdicts env' := by
  rw [harvestBoth_apply] at h
  rcases hl : left.harvest fuel context a ml env with ⟨_ | l, ml'', between⟩ <;> rw [hl] at h
  · cases h
  · simp only at h
    rcases hr : right.harvest fuel context a mr between with ⟨_ | r, mr'', after⟩ <;> rw [hr] at h
    · cases h
    · cases h
      exact (ihLeft _ _ _ _ _ hl).append (ihRight _ _ _ _ _ hr)

/-- A harvest does the work of a tree in order. -/
theorem inTurn_harvest (tree : ZipTree σ X A B) (mine : tree.stage.State) (env : Env σ)
    (mine' : tree.stage.State) (env' : Env σ) (given : Harvest X B)
    (h : tree.harvest fuel context a mine env = ⟨.ok given, mine', env'⟩) :
    Job.InTurn fuel context a (tree.jobs mine) env (tree.jobs mine') given.verdicts env' := by
  induction tree generalizing env env' with
  | leaf stage =>
    obtain ⟨verdict, between, amid, hrun, hgiven⟩ := Step.bind_eq_ok_iff.1 h
    cases hgiven
    rcases hfed : stage.run fuel Sink.first context none a (mine, ()) env with
      ⟨_ | verdict', ⟨mine'', _⟩, after⟩ <;> simp only [Step.zoom] at hrun <;> rw [hfed] at hrun
    · cases hrun
    · cases hrun
      exact .feed hfed (.done _)
  | zip left right ihLeft ihRight => exact inTurn_harvestBoth fuel context a ihLeft ihRight h
  | map2 left right f ihLeft ihRight =>
    obtain ⟨first, amid, hfirst, hrest⟩ := harvestMapped_eq_ok h
    have hleaves := inTurn_harvestBoth fuel context a ihLeft ihRight hfirst
    rcases hrest with ⟨-, rfl, rfl⟩ | ⟨value, other, -, rfl, hcall⟩
    · have hall := hleaves.append (.leaveOut (f := f) (.done _))
      rwa [List.append_nil] at hall
    · have hall := hleaves.append (.call hcall (.done env'))
      rwa [List.append_nil] at hall

end ZipTree

/-! ### The outcome -/

namespace Harvest

/-- What a harvest leads to in front of a sink in the state `down`: how it ends, and the calls of
the sink on the way. -/
structure Settles (harvest : Harvest X B) (sink : Sink σ X κ S B) (context : Context) (acc : S)
    (down : κ) (env : Env σ) (ended : Ended σ κ (Verdict X S)) (visits : List (Visit σ X κ S B)) :
    Prop where
  /-- If any stage failed or stopped on an alternate, the sink is not called, and the verdict
  reports what all stages came to. -/
  faulty : harvest.incidents ≠ [] → visits = [] ∧
    ∃ verdict, ended = ⟨.ok verdict, down, env⟩ ∧ verdict.Reports harvest.incidents
  /-- Otherwise, if any stage passed on nothing, the sink is not called, and the next value is asked
  for. -/
  missing : harvest.incidents = [] → (∃ verdict ∈ harvest.verdicts, verdict.acc? = some false) →
    visits = [] ∧ ended = ⟨.ok (.proceed acc), down, env⟩
  /-- Otherwise the sink is called once with the value of the harvest, and has the last word. -/
  whole : harvest.incidents = [] → (∀ verdict ∈ harvest.verdicts, verdict.acc? = some true) →
    ∃ value, harvest.value? = some value ∧
      visits = [⟨context, acc, value, sink context acc value down env⟩] ∧
      ended = sink context acc value down env

variable {harvest : Harvest X B} {verdict : Verdict X (Option B)}

/-- A harvest without a value ends with a verdict that speaks of its incidents. -/
theorem settle_of_none (hvalue : harvest.value? = none) (h : harvest.StandsFor verdict)
    (sink : Sink σ X κ S B) (context : Context) (acc : S) :
    ∃ last : Verdict X S, (harvest.settle sink context acc : Step σ (ι × κ) _) = pure last ∧
      last.incident? = Incident.summary harvest.incidents ∧
      (harvest.incidents = [] → last = .proceed acc) := by
  rw [settle, hvalue, ← h.incident]
  have hempty (incident : Incident X) (hincident : verdict.incident? = some incident) :
      harvest.incidents ≠ [] := by
    intro hnil
    rw [h.incident, hnil] at hincident
    cases hincident
  cases verdict with
  | proceed | complete => exact ⟨.proceed acc, rfl, rfl, fun _ => rfl⟩
  | fail failure => exact ⟨.fail failure, rfl, rfl, fun hnil => absurd hnil (hempty _ rfl)⟩
  | alternate value => exact ⟨.alternate value, rfl, rfl, fun hnil => absurd hnil (hempty _ rfl)⟩

theorem StandsFor.incidents_of_some (h : harvest.StandsFor verdict) {value : B}
    (hvalue : harvest.value? = some value) : harvest.incidents = [] := by
  have hjoin := h.value
  have hsummary := Incident.summarizes_summary harvest.incidents
  rw [← h.incident] at hsummary
  rw [hvalue] at hjoin
  generalize harvest.incidents = incidents at hsummary ⊢
  cases verdict with
  | proceed | complete =>
    cases hsummary
    rfl
  | fail | alternate => cases hjoin

theorem settles_of_settle (h : harvest.StandsFor verdict) (sink : Sink σ X κ S B)
    (context : Context) (acc : S) (mine : ι) (down : κ) (env : Env σ) :
    let ended := harvest.settle sink context acc (mine, down) env
    let logged := harvest.settle sink.logged context acc (mine, [], down) env
    ended.state.1 = mine ∧ harvest.Settles sink context acc down env
      ⟨ended.result, ended.state.2, ended.env⟩ logged.state.2.1.reverse := by
  cases hvalue : harvest.value? with
  | none =>
    obtain ⟨last, hlast, hincident, hclear⟩ := settle_of_none (ι := ι) hvalue h sink context acc
    obtain ⟨_, hlogged, -⟩ := settle_of_none (ι := ι) hvalue h sink.logged context acc
    simp only [hlast, hlogged, Step.pure_apply, List.reverse_nil]
    refine ⟨trivial, fun hsome => ⟨rfl, ?_⟩, fun hnil _ => ⟨rfl, by rw [hclear hnil]⟩, ?_⟩
    · have hsummary := Incident.summarizes_summary harvest.incidents
      rw [← hincident] at hsummary
      have hreports : Incident.Summarizes harvest.incidents
        (incidentOf Verdict.incident? (.ok last)) := hsummary
      obtain ⟨_, hbroken, -⟩ | ⟨_, hresult, hreports⟩ := hreports.reports
      · cases hbroken
      · cases hresult
        exact ⟨last, rfl, hreports⟩
    · intro _ hall
      have hsome := h.whole.2 hall
      rw [hvalue] at hsome
      cases hsome
  | some value =>
    have hnil := h.incidents_of_some hvalue
    have hall := h.whole.1 (by rw [hvalue]; rfl)
    have hsettle {κ : Type} (sink : Sink σ X κ S B) :
        (harvest.settle sink context acc : Step σ (ι × κ) _) =
          Sink.below (sink context acc value) := by
      rw [settle, hvalue]
    simp only [hsettle, Sink.below, Step.zoom]
    refine ⟨trivial, fun hsome => absurd hnil hsome, fun _ hmissing => ?_, fun _ _ => ?_⟩
    · obtain ⟨other, hmem, hfalse⟩ := hmissing
      rw [hall other hmem] at hfalse
      cases hfalse
    · exact ⟨value, hvalue, rfl, rfl⟩

end Harvest

/-- What a tree that is not a single stage does with a value.

Unless it breaks off, the work of the whole tree is done in order: every leaf is fed the value
exactly once, from left to right, whatever the others do with it. Then the harvest settles the
outcome. If any leaf failed, the tree fails with all failures of its leaves in order. Otherwise, if
any leaf stopped on an alternate, the tree stops on the first one. Otherwise, if any leaf passed on
nothing, the tree passes on nothing and asks for more. Otherwise it calls its sink once with what
the leaves make together, and returns what the sink says. -/
theorem ZipTree.run_settles (fuel : Nat) (tree : ZipTree σ X A B) (h : ¬ tree.IsLeaf)
    (sink : Sink σ X κ S B) (context : Context) (acc : S) (a : A) (mine : tree.stage.State)
    (down : κ) (env : Env σ) :
    let ended := tree.stage.run fuel sink context acc a (mine, down) env
    match tree.harvest fuel context a mine env with
    | ⟨.error reason, mine', env'⟩ => ended = ⟨.error reason, (mine', down), env'⟩
    | ⟨.ok harvest, mine', env'⟩ =>
      Job.InTurn fuel context a (tree.jobs mine) env (tree.jobs mine') harvest.verdicts env' ∧
        ended.state.1 = mine' ∧
        harvest.Settles sink context acc down env' ⟨ended.result, ended.state.2, ended.env⟩
          (tree.stage.visits fuel sink context acc a (mine, down) env) := by
  intro ended
  simp only [ended, Stage.visits, run_eq_into fuel context a tree h, Harvest.into_apply]
  rcases hharvest : tree.harvest fuel context a mine env with ⟨reason | harvest, mine', env'⟩
  · rfl
  · obtain ⟨verdict, hstands⟩ := (harvestsFirst fuel context a tree).stands _ _ _ _ _ hharvest
    exact ⟨inTurn_harvest fuel context a tree _ _ _ _ _ hharvest,
      Harvest.settles_of_settle hstands sink context acc mine' down env'⟩

/-- Four leaves that write down their numbers, the second and the third of which fail: all four are
fed, the sink is not called, and the tree fails with both failures in order. -/
theorem ZipTree.run_settles_failing :
    let write (n : Nat) : Callback (List Nat) Nat Nat := fun a log => ⟨.ok (a + n), log ++ [n], []⟩
    let deny (n : Nat) : Callback (List Nat) Nat Failure := fun _ log =>
      ⟨.ok (.message (toString n)), log ++ [n], []⟩
    let tree : ZipTree (List Nat) Empty Nat (Nat × Nat × Nat) :=
      .zip (.map2 (.leaf (.map (write 1))) (.leaf (.reject (deny 2)))
        (.ofFun fun pair : Nat × Nat => pair.1))
        (.zip (.leaf (.reject (deny 3))) (.leaf (.map (write 4))))
    let context : Context := ⟨.root (.ofNat 0), ⟨0⟩, none⟩
    let env : Env (List Nat) := .start [] .fresh ⟨id, 0⟩
    let ended := tree.stage.run 1 Sink.first context none 5 (tree.stage.init, ()) env
    ¬ tree.IsLeaf ∧ ended.env.user = [1, 2, 3, 4] ∧
      tree.stage.visits 1 Sink.first context none 5 (tree.stage.init, ()) env = [] ∧
      ∃ failure, ended.result = .ok (.fail failure) ∧
        failure.parts = [.message "2", .message "3"] := by
  intro write deny tree context env ended
  have hjoined : ¬ tree.IsLeaf := id
  obtain ⟨-, -, hsettles⟩ := ZipTree.run_settles 1 tree hjoined Sink.first context none 5
    tree.stage.init () env
  obtain ⟨hvisits, verdict, hended, hreports⟩ := hsettles.faulty (List.cons_ne_nil _ _)
  obtain ⟨failure, rfl, hparts, -⟩ := hreports.fails (List.cons_ne_nil _ _)
  exact ⟨hjoined, rfl, hvisits, failure, congrArg Ended.result hended, hparts⟩

end Transduction
