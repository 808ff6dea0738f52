import Transduction.Failure

/-!
# Combined failures

A combination opens one level of each of its sides. Sides that are single failures, or several
single ones, make a combination of single failures. A side whose members are several failures
themselves is not opened any further: the combination is nested as deep as the deeper one of its
sides. At any depth, however, the single failures inside a combination are those inside both sides,
in order, and none of them is lost or repeated.

## Main definitions

* `Failure.IsSingle`: failures that are not several.
* `Failure.leaves`: the single failures inside a failure, at any depth.
* `Failure.depth`: how deep the single failures are nested.
* `Failure.Assembled`: failures made of single ones by combining.

## Main results

* `Failure.leaves_combine`, `Failure.depth_combine`: the leaves and the depth of a combination.
* `Failure.parts_combine_eq_leaves_iff`: when a combination has its leaves for its parts.
* `Failure.combine_keeps_leaves`: what a combination consists of.
* `Failure.combine_not_flat`: a combination that is not one level deep.
-/

namespace Transduction.Failure

/-- A failure that is not several failures. -/
def IsSingle : Failure → Prop
  | many _ => False
  | _ => True

mutual

/-- The single failures inside a failure, at any depth, in order. -/
def leaves : Failure → List Failure
  | many failures => leavesOfAll failures
  | failure => [failure]

/-- The single failures inside a list of failures, in order. -/
def leavesOfAll : List Failure → List Failure
  | [] => []
  | failure :: rest => failure.leaves ++ leavesOfAll rest

end

mutual

/-- How many levels of several failures there are, one inside the other. -/
def depth : Failure → Nat
  | many failures => depthOfAll failures + 1
  | _ => 0

/-- The greatest depth in a list of failures. -/
def depthOfAll : List Failure → Nat
  | [] => 0
  | failure :: rest => max failure.depth (depthOfAll rest)

end

/-- Failures made of single ones by combining them, in whatever order they are bracketed. -/
inductive Assembled : Failure → Prop
  | single {failure : Failure} (h : failure.IsSingle) : Assembled failure
  | combine {first second : Failure} (hfirst : Assembled first) (hsecond : Assembled second) :
      Assembled (first.combine second)

/-! ### Leaves -/

theorem leavesOfAll_append (failures others : List Failure) :
    leavesOfAll (failures ++ others) = leavesOfAll failures ++ leavesOfAll others := by
  induction failures with
  | nil => rfl
  | cons failure rest ih => simp only [List.cons_append, leavesOfAll, ih, List.append_assoc]

theorem leaves_of_isSingle {failure : Failure} (h : failure.IsSingle) :
    failure.leaves = [failure] := by
  cases failure with
  | many => exact h.elim
  | _ => rfl

/-- Opening one level of a failure loses none of the leaves. -/
theorem leavesOfAll_parts (failure : Failure) : leavesOfAll failure.parts = failure.leaves := by
  cases failure with
  | many => rfl
  | _ => exact List.append_nil _

theorem leaves_combine (first second : Failure) :
    (first.combine second).leaves = first.leaves ++ second.leaves := by
  rw [combine, leaves, leavesOfAll_append, leavesOfAll_parts, leavesOfAll_parts]

/-- Single failures are their own leaves. -/
theorem leavesOfAll_of_isSingle {failures : List Failure} (h : ∀ f ∈ failures, f.IsSingle) :
    leavesOfAll failures = failures := by
  induction failures with
  | nil => rfl
  | cons failure rest ih =>
    obtain ⟨hfailure, hrest⟩ := List.forall_mem_cons.1 h
    rw [leavesOfAll, leaves_of_isSingle hfailure, ih hrest, List.singleton_append]

mutual

/-- The leaves of a failure are single. -/
theorem isSingle_of_mem_leaves : (failure : Failure) → ∀ leaf ∈ failure.leaves, leaf.IsSingle
  | many failures => isSingle_of_mem_leavesOfAll failures
  | message _ | fault _ | bottom | unexpectedAlternate _ | cancelled _ | deadlineExceeded => by
    simp [leaves, IsSingle]

theorem isSingle_of_mem_leavesOfAll :
    (failures : List Failure) → ∀ leaf ∈ leavesOfAll failures, leaf.IsSingle
  | [] => nofun
  | failure :: rest => List.forall_mem_append.2
    ⟨isSingle_of_mem_leaves failure, isSingle_of_mem_leavesOfAll rest⟩

end

/-! ### Depth -/

theorem depthOfAll_append (failures others : List Failure) :
    depthOfAll (failures ++ others) = max (depthOfAll failures) (depthOfAll others) := by
  induction failures with
  | nil => exact (Nat.zero_max _).symm
  | cons failure rest ih => simp only [List.cons_append, depthOfAll, ih, Nat.max_assoc]

theorem depth_eq_zero_iff {failure : Failure} : failure.depth = 0 ↔ failure.IsSingle := by
  cases failure <;> simp [depth, IsSingle]

theorem depthOfAll_eq_zero_iff {failures : List Failure} :
    depthOfAll failures = 0 ↔ ∀ f ∈ failures, f.IsSingle := by
  induction failures with
  | nil => exact iff_of_true rfl nofun
  | cons failure rest ih =>
    rw [depthOfAll, List.forall_mem_cons, ← ih, ← depth_eq_zero_iff]
    omega

/-- Opening a failure takes one level off. -/
theorem depthOfAll_parts (failure : Failure) : depthOfAll failure.parts = failure.depth - 1 := by
  cases failure <;> rfl

theorem depth_combine (first second : Failure) :
    (first.combine second).depth = max 1 (max first.depth second.depth) := by
  rw [combine, depth, depthOfAll_append, depthOfAll_parts, depthOfAll_parts]
  omega

/-- The parts of a failure are single if it is one level deep at most. -/
theorem forall_parts_isSingle_iff (failure : Failure) :
    (∀ part ∈ failure.parts, part.IsSingle) ↔ failure.depth ≤ 1 := by
  rw [← depthOfAll_eq_zero_iff, depthOfAll_parts]
  omega

/-! ### Combinations -/

/-- A combination has single parts if both of its sides have. -/
theorem forall_parts_combine_isSingle_iff (first second : Failure) :
    (∀ part ∈ (first.combine second).parts, part.IsSingle) ↔
      first.depth ≤ 1 ∧ second.depth ≤ 1 := by
  rw [forall_parts_isSingle_iff, depth_combine]
  omega

/-- A combination has its leaves for its parts if it is not nested, and in no other case. -/
theorem parts_combine_eq_leaves_iff (first second : Failure) :
    (first.combine second).parts = first.leaves ++ second.leaves ↔
      first.depth ≤ 1 ∧ second.depth ≤ 1 := by
  rw [← forall_parts_combine_isSingle_iff, ← leaves_combine, ← leavesOfAll_parts]
  constructor
  · intro h part hpart
    rw [h] at hpart
    exact isSingle_of_mem_leavesOfAll _ part hpart
  · intro h
    exact (leavesOfAll_of_isSingle h).symm

/-- Combining single failures never makes more than one level. -/
theorem Assembled.depth_le_one {failure : Failure} (h : failure.Assembled) : failure.depth ≤ 1 := by
  induction h with
  | single hsingle =>
    rw [depth_eq_zero_iff.2 hsingle]
    exact Nat.zero_le 1
  | combine _ _ ihFirst ihSecond =>
    rw [depth_combine]
    omega

/-- A combination is several failures, the parts of its first side and then those of its second
side. The single failures inside it are those inside the first side and then those inside the second
one, however deep they are nested: none is lost, repeated or moved.

It is nested as deep as the deeper side is, and one level at least. So its parts are single, and are
all the single failures inside both sides in order, if and only if neither side is nested deeper
than one level. That holds for all sides that are single failures or made of them by combining. -/
theorem combine_keeps_leaves (first second : Failure) :
    first.combine second = many (first.parts ++ second.parts) ∧
      (first.combine second).leaves = first.leaves ++ second.leaves ∧
      (∀ leaf ∈ (first.combine second).leaves, leaf.IsSingle) ∧
      (first.combine second).depth = max 1 (max first.depth second.depth) ∧
      ((∀ part ∈ (first.combine second).parts, part.IsSingle) ↔
        first.depth ≤ 1 ∧ second.depth ≤ 1) ∧
      (first.combine second = many (first.leaves ++ second.leaves) ↔
        first.depth ≤ 1 ∧ second.depth ≤ 1) ∧
      (first.Assembled → second.Assembled →
        first.combine second = many (first.leaves ++ second.leaves) ∧
          ∀ part ∈ (first.combine second).parts, part.IsSingle) := by
  have hflat : first.combine second = many (first.leaves ++ second.leaves) ↔
      first.depth ≤ 1 ∧ second.depth ≤ 1 := by
    rw [← parts_combine_eq_leaves_iff, parts_combine, combine, many.injEq]
  refine ⟨rfl, leaves_combine first second, isSingle_of_mem_leaves _, depth_combine first second,
    forall_parts_combine_isSingle_iff first second, hflat, fun hfirst hsecond => ?_⟩
  have hdepth : first.depth ≤ 1 ∧ second.depth ≤ 1 := ⟨hfirst.depth_le_one, hsecond.depth_le_one⟩
  exact ⟨hflat.2 hdepth, (forall_parts_combine_isSingle_iff first second).2 hdepth⟩

/-- Three single failures, two of which are combined first. -/
theorem combine_keeps_leaves_of_three :
    let first : Failure := (message "a").combine bottom
    let second : Failure := cancelled "b"
    first.Assembled ∧ second.Assembled ∧
      first.combine second = many [message "a", bottom, cancelled "b"] ∧
      ∀ part ∈ (first.combine second).parts, part.IsSingle := by
  intro first second
  have hfirst : first.Assembled := .combine (.single trivial) (.single trivial)
  have hsecond : second.Assembled := .single trivial
  obtain ⟨hflat, hsingle⟩ :=
    (combine_keeps_leaves first second).2.2.2.2.2.2 hfirst hsecond
  exact ⟨hfirst, hsecond, hflat, hsingle⟩

/-- A side that is nested two levels deep leaves several failures among the parts of the
combination, which are not the single failures inside both sides. -/
theorem combine_not_flat :
    let first : Failure := many [many [message "a"]]
    let second : Failure := message "b"
    first.combine second = many [many [message "a"], message "b"] ∧
      ¬ (∀ part ∈ (first.combine second).parts, part.IsSingle) ∧
      first.combine second ≠ many (first.leaves ++ second.leaves) := by
  refine ⟨rfl, fun h => ?_, fun h => ?_⟩
  · exact h (many [message "a"]) List.mem_cons_self
  · cases h

end Transduction.Failure
