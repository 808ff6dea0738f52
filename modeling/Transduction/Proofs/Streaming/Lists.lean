import Mathlib.Data.List.TakeWhile
import Transduction.Proofs.Streaming.Collecting
import Transduction.Stage.Collect
import Transduction.Blueprint.Value

/-!
# Streaming is a function on lists

A chain of elementary stages processes its values one at a time, and each stage remembers a counter,
a flag or a running value. Run on the items of a list, the chain yields what the composition of
plain functions on lists makes of that list. Each stage may end the run, at different items and in
the middle of what an earlier stage makes of one, without a value being lost, repeated or exchanged.

## Main definitions

* `runningFold`, `takeThrough`: all values of a fold, and a prefix with the first value
  beyond it.
* `Stage.Streams`: the chains, with the functions on lists that they stand for.

## Main results

* `Stage.Streams.exists_collects`: the function of a chain, started in any state of an instance.
* `Stage.collect_each_compose`: a run on the items of a list yields the function of that list.
-/

namespace Transduction

variable {σ X ι κ A B C T : Type}

/-- The values of a fold after each item of a list, without the seed. -/
def runningFold (f : T × A → T) (seed : T) (items : List A) : List T :=
  (items.scanl (fun folded item => f (folded, item)) seed).tail

/-- The longest prefix that satisfies a test, and the first item after it. -/
def takeThrough (p : A → Bool) (items : List A) : List A :=
  items.takeWhile p ++ (items.dropWhile p).take 1

theorem runningFold_cons (f : T × A → T) (seed : T) (item : A) (items : List A) :
    runningFold f seed (item :: items) =
      f (seed, item) :: runningFold f (f (seed, item)) items := by
  rw [runningFold, List.scanl_cons, List.tail_cons]
  cases items with
  | nil => rw [List.scanl_nil]; rfl
  | cons next rest => rw [runningFold, List.scanl_cons]; rfl

theorem takeThrough_cons (p : A → Bool) (item : A) (items : List A) :
    takeThrough p (item :: items) = item :: if p item then takeThrough p items else [] := by
  cases h : p item <;> simp [takeThrough, h]

/-- The chains of elementary stages that stand for a function on lists. -/
inductive Stage.Streams : {A B : Type} → Stage σ X A B → (List A → List B) → Prop
  | identity {A : Type} : Streams (identity : Stage σ X A A) fun items => items
  | map {A B : Type} {callback : Callback σ A B} {f : A → B} (h : callback.Computes f) :
      Streams (map callback) (List.map f)
  | filter {A : Type} {test : Callback σ A Bool} {p : A → Bool} (h : test.Computes p) :
      Streams (filter test) (List.filter p)
  | filterMap {A B : Type} {callback : Callback σ A (Option B)} {f : A → Option B}
      (h : callback.Computes f) : Streams (filterMap callback) (List.filterMap f)
  | inspect {A : Type} {look : Callback σ A Unit} (h : look.Computes fun _ => ()) :
      Streams (inspect look) fun items => items
  | constant {A B : Type} (b : B) : Streams (constant b : Stage σ X A B) (List.map fun _ => b)
  | each {A : Type} : Streams (each : Stage σ X (List A) A) List.flatten
  | take {A : Type} (count : Nat) : Streams (take count : Stage σ X A A) (List.take count)
  | skip {A : Type} (count : Nat) : Streams (skip count : Stage σ X A A) (List.drop count)
  | takeWhen {A : Type} (answer : Bool) {test : Callback σ A Bool} {p : A → Bool}
      (h : test.Computes p) :
      Streams (takeWhen answer test) (List.takeWhile fun item => p item = answer)
  | skipWhen {A : Type} (answer : Bool) {test : Callback σ A Bool} {p : A → Bool}
      (h : test.Computes p) :
      Streams (skipWhen answer test) (List.dropWhile fun item => p item = answer)
  | fold {A T : Type} (seed : T) {callback : Callback σ (T × A) T} {f : T × A → T}
      (h : callback.Computes f) :
      Streams (fold seed callback .unbounded) (runningFold f seed)
  | foldUntil {A T : Type} (seed : T) {callback : Callback σ (T × A) T} {f : T × A → T}
      {test : Callback σ T Bool} {p : T → Bool} (h : callback.Computes f)
      (htest : test.Computes p) :
      Streams (fold seed callback (.untilHolds test)) fun items =>
        (runningFold f seed items).takeWhile fun folded => !p folded
  | foldWhile {A T : Type} (seed : T) {callback : Callback σ (T × A) T} {f : T × A → T}
      {test : Callback σ T Bool} {p : T → Bool} (h : callback.Computes f)
      (htest : test.Computes p) :
      Streams (fold seed callback (.whileHolds test)) fun items =>
        takeThrough p (runningFold f seed items)
  | compose {A I B : Type} {first : Stage σ X A I} {second : Stage σ X I B}
      {f : List A → List I} {g : List I → List B} (hfirst : Streams first f)
      (hsecond : Streams second g) : Streams (compose first second) fun items => g (f items)

/-! ### One stage in front of a sink -/

/-- What an instance in front of a sink makes of values, from what the two make of them. -/
def inFront (F : ι → List A → List B) (G : κ → List B → List C) : ι × κ → List A → List C :=
  fun state items => G state.2 (F state.1 items)

/-- An instance of a stage makes of values what a function of its state makes of them: in front of a
sink that collects a function of its values, it collects the composition of the two. -/
structure Stage.Realizes (fuel : Nat) (stage : Stage σ X A B)
    (F : stage.State → List A → List B) : Prop where
  nil : ∀ mine, F mine [] = []
  step : ∀ {κ C : Type} {sink : Sink σ X κ (Array C) B} {G : κ → List B → List C},
    sink.Collects G → ∀ context acc a mine down env,
      (stage.run fuel sink context acc a (mine, down) env).Continues context env (inFront F G)
        fun rest => acc.toList ++ G down (F mine (a :: rest))

theorem Stage.Realizes.collects {fuel : Nat} {stage : Stage σ X A B}
    {F : stage.State → List A → List B} {sink : Sink σ X κ (Array C) B} {G : κ → List B → List C}
    (hstage : stage.Realizes fuel F) (h : sink.Collects G) :
    (stage.run fuel sink).Collects (inFront F G) where
  nil state := by rw [inFront, hstage.nil, h.nil]
  step context acc a state env := hstage.step h context acc a state.1 state.2 env

section InFront

variable {F : ι → List A → List B} {G : κ → List B → List C} {context : Context} {env : Env σ}
  {mine : ι} {made : List A → List B} {acc : Array C} {down : κ}

/-- What a sink does below an instance, seen from the instance. -/
theorem Ended.Continues.lift {ended : Ended σ κ (Verdict X (Array C))}
    {future : List B → List C} (h : ended.Continues context env G future) (mine : ι) :
    Ended.Continues context env (inFront F G) (fun rest => future (F mine rest))
      (⟨ended.result, (mine, ended.state), ended.env⟩ : Ended σ (ι × κ) (Verdict X (Array C))) := by
  obtain ⟨hlapse, hkeeps⟩ := h
  refine ⟨hlapse, fun hcalm => ?_⟩
  cases hkeeps hcalm with
  | proceed hfuture => exact .proceed fun rest => hfuture (F mine rest)
  | complete hfuture => exact .complete fun rest => hfuture (F mine rest)

/-- The instance drops a value. -/
theorem Ended.Continues.drop (hmade : ∀ rest, made rest = F mine rest) :
    Ended.Continues context env (inFront F G)
      (fun rest => acc.toList ++ G down (made rest))
      (⟨.ok (.proceed acc), (mine, down), env⟩ : Ended σ (ι × κ) (Verdict X (Array C))) := by
  refine ⟨.refl env, fun _ => .proceed fun rest => ?_⟩
  rw [hmade]
  rfl

variable {sink : Sink σ X κ (Array C) B} (h : sink.Collects G)

include h

/-- The instance passes a value on. -/
theorem Sink.Collects.below {b : B} (hmade : ∀ rest, made rest = b :: F mine rest) :
    (Sink.below (sink context acc b) (mine, down) env).Continues context env (inFront F G)
      fun rest => acc.toList ++ G down (made rest) := by
  simp only [hmade]
  exact (h.step context acc b down env).lift mine

/-- The instance passes a last value on. -/
theorem Sink.Collects.completed_below (mine : ι) {b : B} (hmade : ∀ rest, made rest = [b]) :
    ((Verdict.completed <$> Sink.below (sink context acc b)) (mine, down) env).Continues context
      env (inFront F G) fun rest => acc.toList ++ G down (made rest) := by
  obtain ⟨hlapse, hkeeps⟩ := h.step context acc b down env
  simp only [hmade, map_eq_pure_bind, Step.bind_apply, Sink.below, Step.zoom]
  generalize sink context acc b down env = ended at hlapse hkeeps ⊢
  rcases ended with ⟨_ | verdict, down', env'⟩
  · exact ⟨hlapse, fun hcalm => by cases hkeeps hcalm⟩
  · refine ⟨hlapse, fun hcalm => ?_⟩
    cases hkeeps hcalm with
    | proceed hfuture =>
      refine .complete fun _ => ?_
      rw [hfuture, h.nil, List.append_nil]
    | complete hfuture => exact .complete fun _ => hfuture []

/-- The instance ends the run. -/
theorem Sink.Collects.stop (hmade : ∀ rest, made rest = []) :
    Ended.Continues context env (inFront F G)
      (fun rest => acc.toList ++ G down (made rest))
      (⟨.ok (.complete acc), (mine, down), env⟩ : Ended σ (ι × κ) (Verdict X (Array C))) := by
  refine ⟨.refl env, fun _ => .complete fun rest => ?_⟩
  rw [hmade, h.nil, List.append_nil]

end InFront

/-! ### The function of each stage -/

namespace Stage

variable {fuel : Nat}

theorem realizes_identity :
    (identity : Stage σ X A A).Realizes fuel fun _ items => items where
  nil _ := rfl
  step h _ _ _ _ _ _ := h.below fun _ => rfl

theorem realizes_map {callback : Callback σ A B} {f : A → B} (hf : callback.Computes f) :
    (map callback : Stage σ X A B).Realizes fuel fun _ => List.map f where
  nil _ := rfl
  step h _ _ a _ _ env := hf.continues a (fun _ => h.below fun _ => rfl) env

theorem realizes_filter {test : Callback σ A Bool} {p : A → Bool} (hp : test.Computes p) :
    (filter test : Stage σ X A A).Realizes fuel fun _ => List.filter p where
  nil _ := rfl
  step h _ _ a _ _ env := by
    refine hp.continues a (fun env => ?_) env
    cases ha : p a with
    | true => exact h.below fun rest => by rw [List.filter_cons, if_pos ha]
    | false => exact .drop fun rest => by rw [List.filter_cons, ha]; rfl

theorem realizes_filterMap {callback : Callback σ A (Option B)} {f : A → Option B}
    (hf : callback.Computes f) :
    (filterMap callback : Stage σ X A B).Realizes fuel fun _ => List.filterMap f where
  nil _ := rfl
  step h _ _ a _ _ env := by
    refine hf.continues a (fun env => ?_) env
    cases ha : f a with
    | some b => exact h.below fun rest => List.filterMap_cons_some ha
    | none => exact .drop fun rest => List.filterMap_cons_none ha

theorem realizes_inspect {look : Callback σ A Unit} (hlook : look.Computes fun _ => ()) :
    (inspect look : Stage σ X A A).Realizes fuel fun _ items => items where
  nil _ := rfl
  step h _ _ a _ _ env := hlook.continues a (fun _ => h.below fun _ => rfl) env

theorem realizes_constant (b : B) :
    (constant b : Stage σ X A B).Realizes fuel fun _ => List.map fun _ => b where
  nil _ := rfl
  step h _ _ _ _ _ _ := h.below fun _ => rfl

/-- The sink may end the run at any item of a list. -/
theorem realizes_each :
    (each : Stage σ X (List A) A).Realizes fuel fun _ => List.flatten where
  nil _ := rfl
  step h _ acc items mine down env := (h.feed items acc down env).lift mine

theorem realizes_take (count : Nat) :
    (take count : Stage σ X A A).Realizes fuel fun left items => items.take left where
  nil _ := List.take_nil
  step h _ _ _ (mine : Nat) _ _ := by
    cases mine with
    | zero => exact h.stop fun _ => List.take_zero
    | succ left => exact h.below fun _ => List.take_succ_cons

theorem realizes_skip (count : Nat) :
    (skip count : Stage σ X A A).Realizes fuel fun left items => items.drop left where
  nil _ := List.drop_nil
  step h _ _ _ (mine : Nat) _ _ := by
    cases mine with
    | zero => exact h.below fun _ => rfl
    | succ left => exact .drop fun _ => List.drop_succ_cons

theorem realizes_takeWhen (answer : Bool) {test : Callback σ A Bool} {p : A → Bool}
    (hp : test.Computes p) :
    (takeWhen answer test : Stage σ X A A).Realizes fuel
      fun _ => List.takeWhile fun item => p item = answer where
  nil _ := rfl
  step h _ _ a _ _ env := by
    refine hp.continues a (fun env => ?_) env
    by_cases ha : p a = answer
    · rw [if_pos ha]
      exact h.below fun rest => List.takeWhile_cons_of_pos (decide_eq_true ha)
    · rw [if_neg ha]
      exact h.stop fun rest => List.takeWhile_cons_of_neg (by simpa using ha)

theorem realizes_skipWhen (answer : Bool) {test : Callback σ A Bool} {p : A → Bool}
    (hp : test.Computes p) :
    (skipWhen answer test : Stage σ X A A).Realizes fuel fun (skipping : Bool) items =>
      if skipping then items.dropWhile fun item => p item = answer else items where
  nil mine := by split <;> rfl
  step h _ _ a (mine : Bool) _ env := by
    cases mine with
    | false => exact h.below fun rest => rfl
    | true =>
      refine hp.continues a (fun env => ?_) env
      by_cases ha : p a = answer
      · rw [if_pos ha]
        exact .drop fun rest => by simp [ha]
      · rw [if_neg ha]
        exact h.below fun rest => by simp [ha]

section Fold

variable {callback : Callback σ (T × A) T} {f : T × A → T} {test : Callback σ T Bool} {p : T → Bool}

theorem realizes_fold (seed : T) (hf : callback.Computes f) :
    (fold seed callback .unbounded : Stage σ X A T).Realizes fuel (runningFold f) where
  nil _ := rfl
  step h _ _ a (current : T) _ env :=
    hf.continues (current, a) (fun _ => h.below fun rest => runningFold_cons f current a rest) env

/-- The first folded value beyond the bound is left out. -/
theorem realizes_foldUntil (seed : T) (hf : callback.Computes f) (hp : test.Computes p) :
    (fold seed callback (.untilHolds test) : Stage σ X A T).Realizes fuel fun current items =>
      (runningFold f current items).takeWhile fun folded => !p folded where
  nil _ := rfl
  step h _ _ a (current : T) _ env := by
    refine hf.continues (current, a) (fun env => ?_) env
    simp only [Bound.reach, bind_map_left]
    refine hp.continues _ (fun env => ?_) env
    cases hreach : p (f (current, a)) with
    | true => exact h.stop fun rest => by simp [runningFold_cons, hreach]
    | false => exact h.below fun rest => by simp [runningFold_cons, hreach]

/-- The first folded value beyond the bound is passed on. -/
theorem realizes_foldWhile (seed : T) (hf : callback.Computes f) (hp : test.Computes p) :
    (fold seed callback (.whileHolds test) : Stage σ X A T).Realizes fuel fun current items =>
      takeThrough p (runningFold f current items) where
  nil _ := rfl
  step h _ _ a (current : T) _ env := by
    refine hf.continues (current, a) (fun env => ?_) env
    simp only [Bound.reach, bind_map_left]
    refine hp.continues _ (fun env => ?_) env
    cases hreach : p (f (current, a)) with
    | true => exact h.below fun rest => by simp [runningFold_cons, takeThrough_cons, hreach]
    | false =>
      refine h.completed_below (f (current, a)) fun rest => ?_
      simp [runningFold_cons, takeThrough_cons, hreach]

end Fold

/-- Two instances in front of a sink, one behind the other. -/
theorem Realizes.compose {first : Stage σ X A B} {second : Stage σ X B C}
    {F : first.State → List A → List B} {F' : second.State → List B → List C}
    (hfirst : first.Realizes fuel F) (hsecond : second.Realizes fuel F') :
    (compose first second).Realizes fuel fun mine items => F' mine.2 (F mine.1 items) where
  nil mine := by rw [hfirst.nil, hsecond.nil]
  step h context acc a mine down env := by
    obtain ⟨hlapse, hkeeps⟩ :=
      hfirst.step (hsecond.collects h) context acc a mine.1 (mine.2, down) env
    refine ⟨hlapse, fun hcalm => ?_⟩
    rw [run_compose] at hcalm ⊢
    simp only [Step.zoom] at hcalm ⊢
    generalize first.run fuel (second.run fuel _) context acc a _ env = ended at hkeeps hcalm ⊢
    cases hkeeps hcalm with
    | proceed hfuture => exact .proceed hfuture
    | complete hfuture => exact .complete hfuture

/-- The function of a chain, whatever the state of its instance. -/
theorem Streams.exists_realizes {stage : Stage σ X A B} {g : List A → List B}
    (h : stage.Streams g) (fuel : Nat) : ∃ F, stage.Realizes fuel F ∧ F stage.init = g := by
  induction h with
  | identity => exact ⟨_, realizes_identity, rfl⟩
  | map h => exact ⟨_, realizes_map h, rfl⟩
  | filter h => exact ⟨_, realizes_filter h, rfl⟩
  | filterMap h => exact ⟨_, realizes_filterMap h, rfl⟩
  | inspect h => exact ⟨_, realizes_inspect h, rfl⟩
  | constant b => exact ⟨_, realizes_constant b, rfl⟩
  | each => exact ⟨_, realizes_each, rfl⟩
  | take count => exact ⟨_, realizes_take count, rfl⟩
  | skip count => exact ⟨_, realizes_skip count, rfl⟩
  | takeWhen answer h => exact ⟨_, realizes_takeWhen answer h, rfl⟩
  | skipWhen answer h => exact ⟨_, realizes_skipWhen answer h, rfl⟩
  | fold seed h => exact ⟨_, realizes_fold seed h, rfl⟩
  | foldUntil seed h htest => exact ⟨_, realizes_foldUntil seed h htest, rfl⟩
  | foldWhile seed h htest => exact ⟨_, realizes_foldWhile seed h htest, rfl⟩
  | compose _ _ ihfirst ihsecond =>
    obtain ⟨F, hfirst, rfl⟩ := ihfirst
    obtain ⟨F', hsecond, rfl⟩ := ihsecond
    exact ⟨_, hfirst.compose hsecond, rfl⟩

/-! ### Whole runs -/

/-- A run that need not stop yields what the function of its stage makes of the input. -/
theorem Realizes.collectIn [TypeNamed X] {stage : Stage σ X A B}
    {F : stage.State → List A → List B} (h : stage.Realizes fuel F) {context : Context} {input : A}
    {env : Env σ} (hcalm : (stage.run fuel Sink.all context #[] input
      (stage.init, ()) env).env.interruption? context = none) :
    (stage.collectIn fuel context input env).1 = .ok (.ofList (F stage.init [input])) := by
  have hkeeps := (h.step Sink.collects_all context #[] input stage.init () env).keeps hcalm
  simp only [Stage.collectIn, runIn, Step.ensure]
  generalize stage.run fuel Sink.all context #[] input (stage.init, ()) env = ended at hkeeps ⊢
  cases hkeeps with
  | @proceed acc state _ hfuture =>
    have hvalues : F stage.init [input] = acc.toList := by
      simpa [inFront, h.nil] using hfuture []
    rw [hvalues]
    rfl
  | @complete acc _ _ hfuture =>
    have hvalues : F stage.init [input] = acc.toList := hfuture []
    rw [hvalues]
    rfl

/-- A run of a chain on the items of a list yields what the function of the chain makes of that
list, in order: in any context if the run need not stop, and in a context of its own if it is not
cancelled to begin with. -/
theorem collect_each_compose [TypeNamed X] {chain : Stage σ X A B} {g : List A → List B}
    (h : chain.Streams g) (fuel : Nat) (items : List A) (env : Env σ) :
    (∀ context, ((each.compose chain).run fuel Sink.all context #[] items
        (((), chain.init), ()) env).env.interruption? context = none →
      ((each.compose chain).collectIn fuel context items env).1 = .ok (.ofList (g items))) ∧
    (env.token.reason = none →
      ((each.compose chain).collect fuel items env).1 = .ok (.ofList (g items))) := by
  obtain ⟨F, hchain, rfl⟩ := h.exists_realizes fuel
  have hstage := realizes_each.compose hchain
  have hyield (env : Env σ) (context : Context)
      (hcalm : ((each.compose chain).run fuel Sink.all context #[] items
        (((), chain.init), ()) env).env.interruption? context = none) :
      ((each.compose chain).collectIn fuel context items env).1 =
        .ok (.ofList (F chain.init items)) := by
    rw [hstage.collectIn hcalm, List.flatten_singleton]
    rfl
  refine ⟨hyield env, fun hcalm => hyield (env.openContext none).2 _ ?_⟩
  have hrun := hstage.step Sink.collects_all (env.openContext none).1 #[] items
    ((), chain.init) () (env.openContext none).2
  exact hrun.lapse.interruption?_eq_none hcalm rfl

/-- Running sums of the numbers from two on, until one of them is not below nine. A sum takes a
nanosecond, and the deadline is not reached. -/
theorem collect_each_compose_sums :
    let sum : Callback Unit (Nat × Nat) Nat := fun (total, n) user =>
      ⟨.ok (total + n), user, [.elapse 1]⟩
    let chain : Stage Unit Blueprint.Value Nat Nat :=
      compose (compose (skipWhen true (.ofFun (decide <| · < 2)))
        (fold 0 sum (.whileHolds (.ofFun (decide <| · < 9))))) (take 5)
    let context : Context := ⟨.root (.ofNat 0), ⟨0⟩, some 5⟩
    let env : Env Unit := .start () .fresh ⟨id, 0⟩
    ((each.compose chain).collectIn 1 context [1, 2, 3, 4, 5, 6] env).1 =
        .ok (.many [2, 5, 9]) ∧
      ((each.compose chain).collect 1 [1, 2, 3, 4, 5, 6] env).1 = .ok (.many [2, 5, 9]) := by
  intro sum chain context env
  have hsum : sum.Computes fun (total, n) => total + n :=
    ⟨fun _ _ => rfl, fun _ _ _ h => ⟨_, List.mem_singleton.1 h⟩⟩
  have hchain : chain.Streams _ :=
    .compose (.compose (.skipWhen true (Callback.computes_ofFun _))
      (.foldWhile 0 hsum (Callback.computes_ofFun _))) (.take 5)
  have hcalm : ((each.compose chain).run 1 Sink.all context #[] [1, 2, 3, 4, 5, 6]
      (((), chain.init), ()) env).env.interruption? context = none := by
    decide +kernel
  have hcollect := collect_each_compose hchain 1 [1, 2, 3, 4, 5, 6] env
  exact ⟨hcollect.1 context hcalm, hcollect.2 rfl⟩

end Stage

end Transduction
