import Transduction.Proofs.Sharing.Locks
import Transduction.Proofs.Fallback.Slot

/-!
# Stages with locks

Alternatives, stages on two channels, stages on right values and stages that run others for each
value feed their sink from several places. They share it under a lock, which is made with the
instance. An instance that is made while a run goes on, for a value or for an attempt, gets locks of
its own then.

A stage with locks is the stage with its sinks shared. No call of a shared sink comes from within a
call of the same sink. For the locks of an instance are made after those that its sink needs: a sink
never needs a lock under which it is shared. So every lock is free when it is asked for, and locks
make no difference to what a stage does.

## Main definitions

* `Stage.Wiring`, `Stage.wire`: the locks of an instance, and making them.
* `Stage.connect`: making the locks of an instance while a run goes on.
* `Stage.runLocked`: the sink for inputs, with locks.

## Main results

* `Stage.unhindered_run`: one value.
* `Stage.never_waits_for_itself`: any number of values.
-/

namespace Transduction

variable {σ X ι κ S A B α : Type}

namespace Stage

/-! ### Locks of an instance -/

/-- The locks of an instance: those of its own shared sink and those of its parts. -/
def Wiring : {A B : Type} → Stage σ X A B → Type
  | _, _, compose first second => first.Wiring × second.Wiring
  | _, _, choice first second => Nat × first.Wiring × second.Wiring
  | _, _, zip left right => left.Wiring × right.Wiring
  | _, _, flatten outer _ => Nat × outer.Wiring
  | _, _, scope inner => inner.Wiring
  | _, _, scopeMany inner => inner.Wiring
  | _, _, bimap left right => Nat × left.Wiring × right.Wiring
  | _, _, bindRight inner => Nat × inner.Wiring
  | _, _, identity => Unit
  | _, _, map _ => Unit
  | _, _, filter _ => Unit
  | _, _, filterMap _ => Unit
  | _, _, inspect _ => Unit
  | _, _, constant _ => Unit
  | _, _, take _ => Unit
  | _, _, takeWhen _ _ => Unit
  | _, _, skip _ => Unit
  | _, _, skipWhen _ _ => Unit
  | _, _, fold _ _ _ => Unit
  | _, _, each => Unit
  | _, _, countUp => Unit
  | _, _, drain _ => Unit
  | _, _, reject _ => Unit
  | _, _, acquire _ _ => Unit
  | _, _, release _ => Unit
  | _, _, expectRight _ => Unit
  | _, _, collapse _ _ => Unit
  | _, _, retry _ _ _ _ => Unit
  | _, _, foldAttempts _ _ _ _ _ _ => Unit

/-- Makes the locks of an instance, which are numbered from a number on, and gives the next number
after them. -/
def wire : {A B : Type} → (stage : Stage σ X A B) → Nat → stage.Wiring × Nat
  | _, _, compose first second, made =>
    let (behind, made) := second.wire made
    let (front, made) := first.wire made
    ((front, behind), made)
  | _, _, choice first second, lock =>
    let (trying, made) := first.wire (lock + 1)
    let (fallback, made) := second.wire made
    ((lock, trying, fallback), made)
  | _, _, zip left right, made =>
    let (l, made) := left.wire made
    let (r, made) := right.wire made
    ((l, r), made)
  | _, _, flatten outer _, lock =>
    let (wiring, made) := outer.wire (lock + 1)
    ((lock, wiring), made)
  | _, _, scope inner, made => inner.wire made
  | _, _, scopeMany inner, made => inner.wire made
  | _, _, bimap left right, lock =>
    let (l, made) := left.wire (lock + 1)
    let (r, made) := right.wire made
    ((lock, l, r), made)
  | _, _, bindRight inner, lock =>
    let (wiring, made) := inner.wire (lock + 1)
    ((lock, wiring), made)
  | _, _, identity, made => ((), made)
  | _, _, map _, made => ((), made)
  | _, _, filter _, made => ((), made)
  | _, _, filterMap _, made => ((), made)
  | _, _, inspect _, made => ((), made)
  | _, _, constant _, made => ((), made)
  | _, _, take _, made => ((), made)
  | _, _, takeWhen _ _, made => ((), made)
  | _, _, skip _, made => ((), made)
  | _, _, skipWhen _ _, made => ((), made)
  | _, _, fold _ _ _, made => ((), made)
  | _, _, each, made => ((), made)
  | _, _, countUp, made => ((), made)
  | _, _, drain _, made => ((), made)
  | _, _, reject _, made => ((), made)
  | _, _, acquire _ _, made => ((), made)
  | _, _, release _, made => ((), made)
  | _, _, expectRight _, made => ((), made)
  | _, _, collapse _ _, made => ((), made)
  | _, _, retry _ _ _ _, made => ((), made)
  | _, _, foldAttempts _ _ _ _ _ _, made => ((), made)

/-- Makes the locks of a new instance while a run goes on. -/
def connect (stage : Stage σ X A B) : Step σ (Locks × κ) stage.Wiring := fun state env =>
  let (wiring, made) := stage.wire state.1.made
  ⟨.ok wiring, ({ state.1 with made }, state.2), env⟩

/-! ### Running stages with locks -/

/-- The sink for the inputs of a stage with locks, from the sink for its outputs. A stage that feeds
its sink from several places shares it. -/
def runLocked (fuel : Nat) : {A B : Type} → (stage : Stage σ X A B) → stage.Wiring →
    {κ S : Type} → LockedSink σ X κ S B → LockedSink σ X (stage.State × κ) S A
  | _, _, compose first second, wiring, _, _, sink =>
    let inner := first.runLocked fuel wiring.1 (second.runLocked fuel wiring.2 sink)
    fun context acc a =>
      Step.zoomLocked (fun state => (state.1.1, (state.1.2, state.2)))
        (fun _ state => ((state.1, state.2.1), state.2.2)) (inner context acc a)
  | _, _, choice first second, wiring, _, _, sink =>
    let shared := LockedSink.shared wiring.1 sink
    let trying := first.runLocked fuel wiring.2.1 (LockedSink.relay shared)
    let fallback := second.runLocked fuel wiring.2.2 shared
    fun context acc a => do
      let (outcome, parked) ← Step.withinLocked (Parked.holding acc) <|
        Step.zoomLocked (fun state => (state.2.1.1, (state.1, state.2.2)))
          (fun old state => (state.2.1, ((state.1, old.2.1.2), state.2.2))) (trying context () a)
      settleChoice outcome parked fun acc =>
        Step.zoomLocked (fun state => (state.1.2, state.2))
          (fun old state => ((old.1.1, state.1), state.2)) (fallback context acc a)
  | _, _, zip left right, wiring, _, _, sink =>
    let leftFirst := left.runLocked fuel wiring.1 Sink.first.lockless
    let rightFirst := right.runLocked fuel wiring.2 Sink.first.lockless
    fun context acc a => do
      let l ← Step.zoomLocked (fun state => (state.1.1, ()))
        (fun old state => ((state.1, old.1.2), old.2)) (leftFirst context none a)
      let r ← Step.zoomLocked (fun state => (state.1.2, ()))
        (fun old state => ((old.1.1, state.1), old.2)) (rightFirst context none a)
      match l.both r with
      | .proceed (some pair) => Step.belowLocked (sink context acc pair)
      | .proceed none => return .proceed acc
      | .complete _ => return .proceed acc
      | .fail failure => return .fail failure
      | .alternate value => return .alternate value
  | _, _, flatten outer inner, wiring, _, _, sink =>
    let shared := LockedSink.shared wiring.1 sink
    outer.runLocked fuel wiring.2 fun context acc i => do
      let wiring ← (inner i).connect
      Prod.fst <$> Step.withinLocked (inner i).init
        ((inner i).runLocked fuel wiring shared context acc ())
  | _, _, scope inner, wiring, _, _, sink =>
    let innerFirst := inner.runLocked fuel wiring Sink.first.lockless
    fun context acc a => do
      match ← Step.zoomLocked (fun state => (state.1, ())) (fun old state => (state.1, old.2))
        (inScope context fun nested => innerFirst nested none a) with
      | .proceed (some b) => Step.belowLocked (sink context acc b)
      | .complete (some b) => Step.belowLocked (sink context acc b)
      | .proceed none => return .fail .bottom
      | .complete none => return .fail .bottom
      | .fail failure => return .fail failure
      | .alternate value => return .alternate value
  | _, _, scopeMany inner, wiring, _, _, sink =>
    let innerAll := inner.runLocked fuel wiring Sink.all.lockless
    fun context acc a => do
      match ← Step.zoomLocked (fun state => (state.1, ())) (fun old state => (state.1, old.2))
        (inScope context fun nested => innerAll nested #[] a) with
      | .proceed values => Step.belowLocked (sink context acc values.toList)
      | .complete values => Step.belowLocked (sink context acc values.toList)
      | .fail failure => return .fail failure
      | .alternate value => return .alternate value
  | _, _, bimap left right, wiring, _, _, sink =>
    let shared := LockedSink.shared wiring.1 sink
    let intoLeft := left.runLocked fuel wiring.2.1 fun context acc l => shared context acc (.left l)
    let intoRight := right.runLocked fuel wiring.2.2
      fun context acc r => shared context acc (.right r)
    fun context acc value =>
      match value with
      | .left l => Step.zoomLocked (fun state => (state.1.1, state.2))
        (fun old state => ((state.1, old.1.2), state.2)) (intoLeft context acc l)
      | .right r => Step.zoomLocked (fun state => (state.1.2, state.2))
        (fun old state => ((old.1.1, state.1), state.2)) (intoRight context acc r)
      | .fail failure => pure (.fail failure)
  | _, _, bindRight inner, wiring, _, _, sink =>
    let shared := LockedSink.shared wiring.1 sink
    let onRight := inner.runLocked fuel wiring.2 shared
    fun context acc value =>
      match value with
      | .right a => onRight context acc a
      | .left l => Step.belowLocked (shared context acc (.left l))
      | .fail failure => Step.belowLocked (shared context acc (.fail failure))
  | _, _, retry inner schedule sleeper accept, _, _, _, sink => fun context acc a =>
    Step.belowLocked <|
      let attempt := do
        let wiring ← inner.connect
        Step.isolatedLocked (inner.init, ())
          (inner.runLocked fuel wiring Sink.last.lockless context none a)
      repeatRounds (fun pass _ => retryRound sink context acc schedule sleeper accept attempt pass)
        fuel schedule.start ()
  | _, _, foldAttempts inner schedule sleeper seed f bound, _, _, _, sink => fun context acc a =>
    Step.belowLocked <|
      let attempt := do
        let wiring ← inner.connect
        Step.isolatedLocked (inner.init, ())
          (inner.runLocked fuel wiring Sink.last.lockless context none a)
      repeatRounds (foldRound sink context acc schedule sleeper f bound attempt)
        fuel schedule.start seed
  -- The other stages are not made of stages, and each of them is the only one to feed its sink.
  | _, _, stage, _, _, _, sink => fun context acc a => (stage.run fuel sink context acc a).exchange

/-! ### Locks that are needed -/

theorem le_wire (stage : Stage σ X A B) (made : Nat) : made ≤ (stage.wire made).2 := by
  induction stage generalizing made with
  | compose first second ihFirst ihSecond =>
    exact Nat.le_trans (ihSecond made) (ihFirst _)
  | zip left right ihLeft ihRight =>
    exact Nat.le_trans (ihLeft made) (ihRight _)
  | choice first second ihFirst ihSecond | bimap first second ihFirst ihSecond =>
    exact Nat.le_trans (Nat.le_succ made) (Nat.le_trans (ihFirst _) (ihSecond _))
  | flatten inner _ ih _ | bindRight inner ih =>
    exact Nat.le_trans (Nat.le_succ made) (ih _)
  | scope inner ih | scopeMany inner ih => exact ih made
  | _ => exact Nat.le_refl made

section Needs

variable {needs : Set Nat} {made amid later last : Nat}

theorem lt_of_mem_parts (hneeds : ∀ lock ∈ needs, lock < made) (hlater : made ≤ later) :
    ∀ lock ∈ needs ∪ Set.Ico made later, lock < later := by
  rintro lock (hneeded | hown)
  · exact Nat.lt_of_lt_of_le (hneeds lock hneeded) hlater
  · exact hown.2

theorem lt_of_mem_shared (hneeds : ∀ lock ∈ needs, lock < made) (hlater : made < later) :
    ∀ lock ∈ insert made needs, lock < later := by
  rintro lock (rfl | hneeded)
  · exact hlater
  · exact Nat.lt_trans (hneeds lock hneeded) hlater

theorem parts_subset (hamid : made ≤ amid) (hlater : amid ≤ later) :
    needs ∪ Set.Ico made amid ∪ Set.Ico amid later ⊆ needs ∪ Set.Ico made later := by
  rw [Set.union_assoc, Set.Ico_union_Ico_eq_Ico hamid hlater]

theorem part_subset (hamid : made ≤ amid) (hlater : later ≤ last) :
    needs ∪ Set.Ico amid later ⊆ needs ∪ Set.Ico made last :=
  Set.union_subset_union_right needs (Set.Ico_subset_Ico hamid hlater)

theorem shared_subset (hlast : made < last) : insert made needs ⊆ needs ∪ Set.Ico made last :=
  Set.insert_subset (Or.inr ⟨Nat.le_refl made, hlast⟩) Set.subset_union_left

theorem shared_part_subset (hlast : made < last) (hamid : made ≤ amid) (hlater : later ≤ last) :
    insert made needs ∪ Set.Ico amid later ⊆ needs ∪ Set.Ico made last :=
  Set.union_subset (shared_subset hlast)
    (Set.subset_union_of_subset_right (Set.Ico_subset_Ico hamid hlater) needs)

/-- A sink that is shared under the next lock. -/
theorem unhindered_shared {locked : LockedSink σ X κ S A} {sink : Sink σ X κ S A}
    (h : locked.Unhindered needs sink) (hneeds : ∀ lock ∈ needs, lock < made) :
    (locked.shared made).Unhindered (insert made needs) sink :=
  h.shared fun hmem => Nat.lt_irrefl made (hneeds made hmem)

end Needs

/-! ### One value -/

/-- An instance that is made while a run goes on has locks that are not needed by anything else. -/
theorem unhindered_connect {needs : Set Nat} (stage : Stage σ X A B)
    {locked : stage.Wiring → Step σ (Locks × κ) α} {step : Step σ κ α}
    (h : ∀ made, (∀ lock ∈ needs, lock < made) →
      (locked (stage.wire made).1).Unhindered (needs ∪ Set.Ico made (stage.wire made).2) step) :
    (stage.connect >>= locked).Unhindered needs step := by
  intro locks state env hfree
  have hle := stage.le_wire locks.made
  obtain ⟨after, hserved, hstep⟩ :=
    h locks.made hfree.lt_of_needed _ state env (hfree.makeUpTo hle)
  exact ⟨after, hserved.of_makeUpTo hle, hstep⟩

/-- The same for an instance that is forgotten after it was used. -/
theorem unhindered_attempt {needs : Set Nat} (stage : Stage σ X A B) (start : ι)
    (locked : stage.Wiring → Step σ (Locks × ι) α) {step : Step σ ι α}
    (h : ∀ made, (∀ lock ∈ needs, lock < made) →
      (locked (stage.wire made).1).Unhindered (needs ∪ Set.Ico made (stage.wire made).2) step) :
    (stage.connect >>= fun wiring => Step.isolatedLocked start (locked wiring) :
      Step σ (Locks × κ) α).Unhindered needs (step.isolated start) :=
  unhindered_connect stage fun made hmade => (h made hmade).isolated start

/-- A stage with locks does what the stage does, and every lock is free when it is asked for. It
needs the locks that its sink needs and those of its own, which are made later. -/
theorem unhindered_run (fuel : Nat) {A B : Type} (stage : Stage σ X A B) {κ S : Type}
    {needs : Set Nat} {locked : LockedSink σ X κ S B} {sink : Sink σ X κ S B}
    (h : locked.Unhindered needs sink) (made : Nat) (hneeds : ∀ lock ∈ needs, lock < made) :
    (stage.runLocked fuel (stage.wire made).1 locked).Unhindered
      (needs ∪ Set.Ico made (stage.wire made).2) (stage.run fuel sink) := by
  induction stage generalizing κ S needs made with
  | compose first second ihFirst ihSecond =>
    have hmade := second.le_wire made
    have hmade' := first.le_wire (second.wire made).2
    have hsecond := ihSecond h made hneeds
    have hfirst := ihFirst hsecond (second.wire made).2 (lt_of_mem_parts hneeds hmade)
    intro context acc a
    refine Step.Unhindered.mono ?_ (parts_subset hmade hmade')
    exact (hfirst context acc a).zoom (fun state => (state.1.1, (state.1.2, state.2)))
      fun _ state => ((state.1, state.2.1), state.2.2)
  | choice first second ihFirst ihSecond =>
    have hmade := first.le_wire (made + 1)
    have hmade' := second.le_wire (first.wire (made + 1)).2
    have hshared := unhindered_shared h hneeds
    have hneeds' := lt_of_mem_shared hneeds (Nat.lt_succ_self made)
    have hfirst := ihFirst hshared.relay (made + 1) hneeds'
    have hsecond := ihSecond hshared (first.wire (made + 1)).2 (lt_of_mem_shared hneeds hmade)
    have hlast := Nat.le_trans hmade hmade'
    intro context acc a
    have htrying := ((hfirst context () a).zoom (fun state => (state.2.1.1, (state.1, state.2.2)))
      fun (old : Parked X S × (first.State × second.State) × κ) state =>
        (state.2.1, ((state.1, old.2.1.2), state.2.2))).within (.holding acc)
    refine (htrying.mono (shared_part_subset hlast (Nat.le_succ made) hmade')).bind fun found => ?_
    refine .settleChoice found.1 found.2 fun acc => ?_
    refine Step.Unhindered.mono ?_ (shared_part_subset hlast (Nat.le_of_lt hmade) (Nat.le_refl _))
    exact (hsecond context acc a).zoom (fun state => (state.1.2, state.2))
      fun old state => ((old.1.1, state.1), state.2)
  | zip left right ihLeft ihRight =>
    have hmade := left.le_wire made
    have hmade' := right.le_wire (left.wire made).2
    have hlast := Nat.le_trans hmade hmade'
    have hleft := ihLeft (.lockless Sink.first) made hneeds
    have hright := ihRight (.lockless Sink.first) (left.wire made).2
      (fun lock hlock => Nat.lt_of_lt_of_le (hneeds lock hlock) hmade)
    intro context acc a
    have hl := (hleft context none a).zoom (fun state => (state.1.1, ()))
      fun (old : (left.State × right.State) × κ) state => ((state.1, old.1.2), old.2)
    have hr := (hright context none a).zoom (fun state => (state.1.2, ()))
      fun (old : (left.State × right.State) × κ) state => ((old.1.1, state.1), old.2)
    refine (hl.mono (part_subset (Nat.le_refl made) hmade')).bind fun l => ?_
    refine (hr.mono (part_subset hmade (Nat.le_refl _))).bind fun r => ?_
    rcases l.both r with (_ | pair) | _ | _ | _
    · exact .pure _
    · exact (h context acc pair).below.mono Set.subset_union_left
    all_goals exact .pure _
  | flatten outer inner ihOuter ihInner =>
    have hmade := outer.le_wire (made + 1)
    have hshared := unhindered_shared h hneeds
    have hneeds' := lt_of_mem_shared hneeds (Nat.lt_succ_self made)
    refine LockedSink.Unhindered.mono (ihOuter ?_ (made + 1) hneeds')
      (shared_part_subset hmade (Nat.le_succ made) (Nat.le_refl _))
    -- What is run for a value is made then, so its locks are new.
    intro context acc i
    refine unhindered_connect (inner i) fun later hlater => ?_
    exact ((ihInner i hshared later hlater context acc ()).within (inner i).init).map Prod.fst
  | scope inner ih =>
    have hinner := ih (.lockless Sink.first) made hneeds
    intro context acc a
    have hscope := (Step.Unhindered.inScope context fun nested => hinner nested none a).zoom
      (fun state => (state.1, ())) fun (old : inner.State × κ) state => (state.1, old.2)
    refine hscope.bind fun outcome => ?_
    rcases outcome with (_ | b) | (_ | b) | _ | _
    · exact .pure _
    · exact (h context acc b).below.mono Set.subset_union_left
    · exact .pure _
    · exact (h context acc b).below.mono Set.subset_union_left
    all_goals exact .pure _
  | scopeMany inner ih =>
    have hinner := ih (.lockless Sink.all) made hneeds
    intro context acc a
    have hscope := (Step.Unhindered.inScope context fun nested => hinner nested #[] a).zoom
      (fun state => (state.1, ())) fun (old : inner.State × κ) state => (state.1, old.2)
    refine hscope.bind fun outcome => ?_
    cases outcome with
    | proceed values | complete values =>
      exact (h context acc values.toList).below.mono Set.subset_union_left
    | fail | alternate => exact .pure _
  | bimap left right ihLeft ihRight =>
    have hmade := left.le_wire (made + 1)
    have hmade' := right.le_wire (left.wire (made + 1)).2
    have hlast := Nat.le_trans hmade hmade'
    have hshared := unhindered_shared h hneeds
    have hneeds' := lt_of_mem_shared hneeds (Nat.lt_succ_self made)
    have hleft := ihLeft (fun context acc l => hshared context acc (.left l)) (made + 1) hneeds'
    have hright := ihRight (fun context acc r => hshared context acc (.right r))
      (left.wire (made + 1)).2 (lt_of_mem_shared hneeds hmade)
    intro context acc value
    cases value with
    | left l =>
      refine Step.Unhindered.mono ?_ (shared_part_subset hlast (Nat.le_succ made) hmade')
      exact (hleft context acc l).zoom (fun state => (state.1.1, state.2))
        fun old state => ((state.1, old.1.2), state.2)
    | right r =>
      refine Step.Unhindered.mono ?_
        (shared_part_subset hlast (Nat.le_of_lt hmade) (Nat.le_refl _))
      exact (hright context acc r).zoom (fun state => (state.1.2, state.2))
        fun old state => ((old.1.1, state.1), state.2)
    | fail failure => exact .pure _
  | bindRight inner ih =>
    have hmade := inner.le_wire (made + 1)
    have hshared := unhindered_shared h hneeds
    have hneeds' := lt_of_mem_shared hneeds (Nat.lt_succ_self made)
    have hinner := (ih hshared (made + 1) hneeds').mono
      (shared_part_subset hmade (Nat.le_succ made) (Nat.le_refl _))
    intro context acc value
    cases value with
    | right a => exact hinner context acc a
    | left l => exact (hshared context acc (.left l)).below.mono (shared_subset hmade)
    | fail failure => exact (hshared context acc (.fail failure)).below.mono (shared_subset hmade)
  | retry inner schedule sleeper accept ih =>
    intro context acc a
    refine .mono (.below (.repeatRounds
      (fun pass _ => .retryRound h ?_ context acc sleeper accept pass) fuel schedule.start ()))
      Set.subset_union_left
    exact unhindered_attempt inner (inner.init, ())
      (fun wiring => inner.runLocked fuel wiring Sink.last.lockless context none a)
      fun later hlater => ih (.lockless Sink.last) later hlater context none a
  | foldAttempts inner schedule sleeper seed f bound ih =>
    intro context acc a
    refine .mono (.below (.repeatRounds (.foldRound h ?_ context acc sleeper f bound)
      fuel schedule.start seed)) Set.subset_union_left
    exact unhindered_attempt inner (inner.init, ())
      (fun wiring => inner.runLocked fuel wiring Sink.last.lockless context none a)
      fun later hlater => ih (.lockless Sink.last) later hlater context none a
  | _ => exact (h.run fuel).mono Set.subset_union_left

/-! ### Any number of values -/

theorem unhindered_drive {needs : Set Nat} {locked : LockedSink σ X κ S A} {sink : Sink σ X κ S A}
    (h : locked.Unhindered needs sink) (turns : List ((Env σ → Env σ) × Context × S × A))
    (locks : Locks) (state : κ) (env : Env σ) (hfree : locks.Free needs) :
    let driven := Sink.drive sink turns state env
    ∃ after, locks.Served after ∧ Sink.drive locked turns (locks, state) env =
      (driven.1, (after, driven.2.1), driven.2.2) := by
  induction turns generalizing locks state env with
  | nil => exact ⟨locks, .refl locks, rfl⟩
  | cons turn rest ih =>
    obtain ⟨meanwhile, context, acc, a⟩ := turn
    obtain ⟨amid, hserved, hcall⟩ := h context acc a locks state (meanwhile env) hfree
    obtain ⟨after, hserved', hrest⟩ := ih amid (sink context acc a state (meanwhile env)).state
      (sink context acc a state (meanwhile env)).env (hfree.of_served hserved)
    refine ⟨after, hserved.trans hserved', ?_⟩
    simp only [Sink.drive, hcall, Ended.withLocks, hrest]

/-- No stage waits for itself, however it is made of stages, and no matter which stages are run for
the values and attempts of a run. Its shared sinks have locks of their own, and a call of a shared
sink that came while another call of the same sink is in progress would wait without end. Whatever
values an instance is fed, in whatever state it is, and also if runs fail or break off, each lock is
free whenever it is asked for, and all have been given back in the end. The results, the state and
the surroundings are those of the stage without locks. -/
theorem never_waits_for_itself (fuel : Nat) (stage : Stage σ X A B) (sink : Sink σ X κ S B)
    (turns : List ((Env σ → Env σ) × Context × S × A)) (mine : stage.State) (down : κ)
    (env : Env σ) :
    let wired := stage.wire 0
    let locked := Sink.drive (stage.runLocked fuel wired.1 sink.lockless) turns
      (⟨wired.2, [], []⟩, mine, down) env
    let driven := Sink.drive (stage.run fuel sink) turns (mine, down) env
    (∀ request ∈ locked.2.1.1.requests, request.granted = true) ∧
      locked.2.1.1.held = [] ∧
      locked.1 = driven.1 ∧ locked.2.1.2 = driven.2.1 ∧ locked.2.2 = driven.2.2 := by
  intro wired locked driven
  have hrun : (stage.runLocked fuel wired.1 sink.lockless).Unhindered (∅ ∪ Set.Ico 0 wired.2)
      (stage.run fuel sink) :=
    unhindered_run fuel stage (.lockless sink) 0 nofun
  have hfree : (⟨wired.2, [], []⟩ : Locks).Free (∅ ∪ Set.Ico 0 wired.2) :=
    ⟨nofun, lt_of_mem_parts nofun (Nat.zero_le _), fun _ _ => nofun⟩
  obtain ⟨after, hserved, hdriven⟩ := unhindered_drive hrun turns _ (mine, down) env hfree
  obtain ⟨requests, hrequests, hgranted⟩ := hserved.granted
  have hlocked : locked = (driven.1, (after, driven.2.1), driven.2.2) := hdriven
  refine ⟨fun request hrequest => hgranted request ?_, ?_, ?_, ?_, ?_⟩
  · rw [hlocked, hrequests] at hrequest
    exact hrequest
  · rw [hlocked]
    exact hserved.held_eq
  all_goals rw [hlocked]

/-- The second alternative of a stage that is made for a value asks for the lock of the
alternatives, and then for the lock that all stages made for values share. -/
example :
    let inner : Stage Unit Empty Unit Nat := choice (reject (.ofFun fun _ => .bottom)) (constant 7)
    let stage : Stage Unit Empty Nat Nat := flatten identity fun _ => inner
    let context : Context := ⟨.root (.ofNat 0), ⟨0⟩, none⟩
    let wired := stage.wire 0
    let ended := stage.runLocked 9 wired.1 Sink.last.lockless context none 1
      (⟨wired.2, [], []⟩, stage.init, ()) (.start () .fresh ⟨id, 0⟩)
    ended.result = .ok (.proceed (some 7)) ∧
      ended.state.1 = ⟨2, [], [⟨1, true⟩, ⟨0, true⟩]⟩ :=
  ⟨rfl, rfl⟩

end Stage

end Transduction
