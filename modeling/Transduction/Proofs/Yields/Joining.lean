import Transduction.Yield

/-!
# Joining yields

Joining is associative, and yielding nothing is neutral for it, so a list of yields has one joined
yield, however it is bracketed. Reading its values compares with collecting the values of all yields
in order: both give the same values if no yield failed. If some did, collecting stops at the first
of them and returns its failure, while joining goes on and keeps all failures side by side.

## Main definitions

* `Failure.alongside`: a failure combined with those that came after it.

## Main results

* `Yield.append_assoc`: joining is associative.
* `Yield.values_joined`: the values of a joined yield, or all failures side by side.
* `Yield.collect_eq`: the values that are collected, or the first failure.
* `Yield.joining_agrees_with_collecting`: the laws, and what joining and collecting have in common.
-/

namespace Transduction

variable {α : Type}

/-- A failure combined with those that came after it; alone it stays as it is. -/
def Failure.alongside (failure : Failure) : List Failure → Failure
  | [] => failure
  | next :: rest => failure.combine (next.alongside rest)

/-- Combining keeps the parts of all failures, in order. -/
theorem Failure.parts_alongside (failure : Failure) (later : List Failure) :
    (failure.alongside later).parts = (failure :: later).flatMap parts := by
  induction later generalizing failure with
  | nil => exact (List.append_nil _).symm
  | cons next rest ih =>
    rw [alongside, parts_combine, ih]
    rfl

namespace Yield

/-! ### The laws of joining -/

theorem append_assoc (first second third : Yield α) :
    (first.append second).append third = first.append (second.append third) := by
  cases first with
  | none => rw [none_append, none_append]
  | one value | many values =>
    cases second with
    | none => rw [append_none, none_append]
    | one value' | many values' =>
      cases third with
      | none => rfl
      | one | many => exact congrArg many (List.append_assoc _ _ _)
      | fail => rfl
    | fail failure => cases third <;> rfl
  | fail failure =>
    cases second with
    | none => rw [append_none, none_append]
    | one | many => cases third <;> rfl
    | fail failure' =>
      cases third with
      | none | one | many => rfl
      | fail failure'' => exact congrArg fail (Failure.combine_assoc _ _ _)

instance : Std.Associative (append (α := α)) := ⟨append_assoc⟩

/-- The joined yield of a list is its first yield joined with that of the rest. -/
theorem foldl_append_cons (first : Yield α) (rest : List (Yield α)) :
    (first :: rest).foldl append none = first.append (rest.foldl append none) :=
  calc
    rest.foldl append (none.append first) = rest.foldl append (first.append none) := by
      rw [none_append, append_none]
    _ = first.append (rest.foldl append none) := List.foldl_assoc

/-! ### Reading values -/

/-- Values in front of a yield come before its values, if it did not fail. -/
theorem values_append_of_not_failed {first : Yield α} (h : first.failure? = .none)
    (second : Yield α) : (first.append second).values = (first.toList ++ ·) <$> second.values := by
  cases first with
  | fail failure => cases h
  | none => cases second <;> rfl
  | one | many =>
    cases second with
    | none => exact congrArg Except.ok (List.append_nil _).symm
    | one | many | fail => rfl

/-- A failure in front of a yield is kept, with the failure of that one if it failed too. -/
theorem values_append_of_failed {first : Yield α} {failure : Failure}
    (h : first.failure? = some failure) (second : Yield α) :
    (first.append second).values = .error (match second.values with
      | .ok _ => failure
      | .error next => failure.combine next) := by
  cases first with
  | none | one | many => cases h
  | fail failure' =>
    obtain rfl := Option.some.inj h
    cases second <;> rfl

/-- The values of all yields of a list, or the failures of those that failed side by side. -/
theorem values_joined (yields : List (Yield α)) :
    (yields.foldl append none).values = match yields.filterMap failure? with
      | [] => .ok (yields.flatMap toList)
      | first :: later => .error (first.alongside later) := by
  induction yields with
  | nil => rfl
  | cons yield rest ih =>
    rw [foldl_append_cons]
    cases h : yield.failure? with
    | none =>
      rw [values_append_of_not_failed h, ih, List.filterMap_cons_none h]
      cases rest.filterMap failure? <;> rfl
    | some failure =>
      rw [values_append_of_failed h, ih, List.filterMap_cons_some h]
      cases rest.filterMap failure? <;> rfl

/-- The values of all yields of a list, or the failure of the first that failed. -/
theorem collect_eq (yields : List (Yield α)) :
    collect yields = match yields.filterMap failure? with
      | [] => .ok (yields.flatMap toList)
      | first :: _ => .error first := by
  induction yields with
  | nil => rfl
  | cons yield rest ih =>
    rw [collect, ih]
    cases yield with
    | fail failure => rfl
    | none | one | many =>
      rw [List.filterMap_cons_none rfl]
      cases rest.filterMap failure? <;> rfl

theorem failures_eq_nil_iff (yields : List (Yield α)) :
    yields.filterMap failure? = [] ↔ ∀ yield ∈ yields, yield.isFail = false := by
  rw [List.filterMap_eq_nil_iff]
  refine forall₂_congr fun yield _ => ?_
  cases yield with
  | none | one | many => exact ⟨fun _ => rfl, fun _ => rfl⟩
  | fail failure => exact ⟨nofun, nofun⟩

/-- Joining is associative, and yielding nothing is neutral for it.

The values of the joined yield of a list are read with success if and only if no yield of the list
failed, and so are they collected. In that case both give the values of all yields in order. If some
yields failed, collecting gives the failure of the first of them as it is. Joining gives a failure
whose parts are those of all their failures in order, and the failure itself if there is one
only. -/
theorem joining_agrees_with_collecting :
    (∀ first second third : Yield α,
      (first.append second).append third = first.append (second.append third)) ∧
    (∀ yield : Yield α, none.append yield = yield ∧ yield.append none = yield) ∧
    ∀ yields : List (Yield α),
      let joined := yields.foldl append none
      let failures := yields.filterMap failure?
      ((∃ values, joined.values = .ok values) ↔ ∀ yield ∈ yields, yield.isFail = false) ∧
      ((∃ values, collect yields = .ok values) ↔ ∀ yield ∈ yields, yield.isFail = false) ∧
      ((∀ yield ∈ yields, yield.isFail = false) →
        joined.values = .ok (yields.flatMap toList) ∧
        collect yields = .ok (yields.flatMap toList)) ∧
      ∀ failure later, failures = failure :: later →
        collect yields = .error failure ∧
        ∃ combined, joined.values = .error combined ∧
          combined.parts = failures.flatMap Failure.parts ∧
          (later = [] → combined = failure) := by
  refine ⟨append_assoc, fun yield => ⟨none_append yield, append_none yield⟩, ?_⟩
  intro yields
  have hjoined := values_joined yields
  have hcollected := collect_eq yields
  simp only [← failures_eq_nil_iff]
  cases hfailures : yields.filterMap failure? with
  | nil =>
    simp only [hfailures] at hjoined hcollected
    exact ⟨iff_of_true ⟨_, hjoined⟩ rfl, iff_of_true ⟨_, hcollected⟩ rfl,
      fun _ => ⟨hjoined, hcollected⟩, nofun⟩
  | cons failure later =>
    simp only [hfailures] at hjoined hcollected
    refine ⟨iff_of_false ?_ nofun, iff_of_false ?_ nofun, nofun, ?_⟩
    · rintro ⟨values, hvalues⟩
      cases hjoined.symm.trans hvalues
    · rintro ⟨values, hvalues⟩
      cases hcollected.symm.trans hvalues
    · rintro _ _ ⟨⟩
      refine ⟨hcollected, _, hjoined, failure.parts_alongside later, ?_⟩
      rintro rfl
      rfl

/-- Of four yields two failed, one of them with two failures at once: collecting gives the first
failure, and joining keeps all three. -/
theorem joining_agrees_with_collecting_two_failed :
    let first : Failure := .message "a"
    let second : Failure := .many [.bottom, .cancelled "b"]
    let yields : List (Yield Nat) := [many [], fail first, one 1, fail second]
    collect yields = .error first ∧
      ∃ combined, (yields.foldl append none).values = .error combined ∧
        combined.parts = [.message "a", .bottom, .cancelled "b"] := by
  intro first second yields
  obtain ⟨hcollected, combined, hjoined, hparts, -⟩ :=
    (joining_agrees_with_collecting.2.2 yields).2.2.2 first [second] rfl
  exact ⟨hcollected, combined, hjoined, hparts⟩

end Yield

end Transduction
