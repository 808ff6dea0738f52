import Mathlib.Data.Nat.Fib.Basic
import Transduction.Schedule.Basic

/-!
# Growing delays

The schedules that grow compute each delay from the one before it, which may already have been cut to
the largest duration. A duration is a number of nanoseconds cut from above, and cutting early or late
makes no difference to sums and products. So every delay is an exact multiple of the first one, cut
once.

## Main definitions

* `Schedule.Endless`: schedules that give the values of a function and never end.
* `Schedule.Rises`: schedules whose delays never get shorter.

## Main results

* `min_mul_min`, `Duration.clip_saturatingAdd_clip`, `Duration.clip_saturatingMul`: cutting early and
  late.
* `Schedule.Endless.of_states`: what a pass gives, from what it gives at each of its points.
* `Schedule.growing_exact`: the delays of the growing schedules.
-/

namespace Transduction

/-! ### Numbers cut from above -/

/-- A product of a number that was cut already is cut like the exact product. -/
theorem min_mul_min (a factor limit : Nat) :
    min (min a limit * factor) limit = min (a * factor) limit := by
  rcases Nat.le_total a limit with hle | hle
  · rw [Nat.min_eq_left hle]
  · rcases Nat.eq_zero_or_pos factor with rfl | hpos
    · simp
    · -- Both products are beyond the limit.
      have hlimit : limit ≤ limit * factor := Nat.le_mul_of_pos_right _ hpos
      have hexact : limit ≤ a * factor := Nat.le_trans hle (Nat.le_mul_of_pos_right _ hpos)
      rw [Nat.min_eq_right hle]
      omega

namespace Duration

theorem clip_saturatingAdd_clip (a b : Nat) : (clip a).saturatingAdd (clip b) = clip (a + b) := by
  apply ext_nanos
  simp only [nanos_saturatingAdd, nanos_clip]
  omega

theorem clip_saturatingMul (a factor : Nat) : (clip a).saturatingMul factor = clip (a * factor) :=
  ext_nanos (min_mul_min a factor maxNanos)

theorem clip_le_clip {a b : Nat} (h : a ≤ b) : clip a ≤ clip b := by
  show min a maxNanos ≤ min b maxNanos
  omega

/-- Nothing is longer than the largest duration. -/
theorem eq_max_of_le {a : Duration} (h : max ≤ a) : a = max :=
  ext_nanos (Nat.le_antisymm a.nanos_le h)

end Duration

namespace Schedule

variable {schedule : Schedule} {delay : Nat → Duration}

/-! ### Endless schedules -/

/-- A schedule that never ends and gives the values of a function, one after the other, whatever the
dice show. -/
def Endless (schedule : Schedule) (delay : Nat → Duration) : Prop :=
  ∀ count dice, schedule.read count dice = ⟨(List.range count).map delay, false, dice⟩

/-- A schedule is endless if its pass goes through some states and gives a delay at each of them. -/
theorem Endless.of_states (state : Nat → schedule.Pass) (hstart : schedule.start = state 0)
    (hnext : ∀ k dice, schedule.next? (state k) dice = (some (delay k, state (k + 1)), dice)) :
    schedule.Endless delay := by
  -- A reading that begins somewhere in the pass gives the delays from there on.
  have hfrom (count k : Nat) (dice : Dice) : schedule.readFrom count (state k) dice =
      ⟨(List.range count).map fun i => delay (k + i), false, dice⟩ := by
    induction count generalizing k with
    | zero => rfl
    | succ count ih =>
      simp only [readFrom, hnext, ih, List.range_succ_eq_map, List.map_cons, List.map_map]
      congr 2
      refine List.map_congr_left fun i _ => congrArg delay ?_
      omega
  intro count dice
  have hread := hfrom count 0 dice
  simp only [Nat.zero_add] at hread
  rw [read, hstart, hread]

/-! ### Rising schedules -/

/-- A schedule whose delays never get shorter, and stay at the largest duration once they are
there. -/
def Rises (schedule : Schedule) : Prop :=
  ∀ count dice, (schedule.read count dice).delays.Pairwise fun earlier later =>
    earlier ≤ later ∧ (earlier = .max → later = .max)

theorem Endless.rises (h : schedule.Endless delay) (hmono : ∀ m n, m ≤ n → delay m ≤ delay n) :
    schedule.Rises := by
  intro count dice
  rw [h, List.pairwise_map]
  refine List.pairwise_lt_range.imp fun {m n} hlt => ?_
  have hle : delay m ≤ delay n := hmono m n (Nat.le_of_lt hlt)
  refine ⟨hle, fun hmax => Duration.eq_max_of_le ?_⟩
  rwa [← hmax]

/-- A schedule that gives growing multiples of a delay rises. -/
theorem Endless.rises_of_multiple {base : Duration} {multiple : Nat → Nat}
    (h : schedule.Endless fun n => .clip (base.nanos * multiple n))
    (hmono : ∀ m n, m ≤ n → multiple m ≤ multiple n) : schedule.Rises :=
  h.rises fun m n hle => Duration.clip_le_clip (Nat.mul_le_mul_left _ (hmono m n hle))

/-! ### The growing schedules -/

section Growing

variable (base : Duration)

theorem endless_spaced : (spaced base).Endless fun _ => base :=
  .of_states (fun _ => ()) rfl fun _ _ => rfl

theorem endless_linear : (linear base).Endless fun n => .clip (base.nanos * (n + 1)) := by
  refine .of_states (fun n => Duration.clip (base.nanos * (n + 1))) ?_ fun k dice => ?_
  · show base = Duration.clip (base.nanos * 1)
    rw [Nat.mul_one, Duration.clip_nanos]
  · have hsum : (Duration.clip (base.nanos * (k + 1))).saturatingAdd base =
        Duration.clip (base.nanos * (k + 1 + 1)) := by
      conv_lhs => rw [← Duration.clip_nanos base]
      rw [Duration.clip_saturatingAdd_clip, Duration.clip_nanos, ← Nat.mul_succ]
    simp only [next?, hsum]

theorem endless_exponential (factor : Nat) :
    (exponential base factor).Endless fun n => .clip (base.nanos * factor ^ n) := by
  refine .of_states (fun n => Duration.clip (base.nanos * factor ^ n)) ?_ fun k dice => ?_
  · show base = Duration.clip (base.nanos * 1)
    rw [Nat.mul_one, Duration.clip_nanos]
  · have hproduct : (Duration.clip (base.nanos * factor ^ k)).saturatingMul factor =
        Duration.clip (base.nanos * factor ^ (k + 1)) := by
      rw [Duration.clip_saturatingMul, Nat.mul_assoc, ← Nat.pow_succ]
    simp only [next?, hproduct]

theorem endless_fibonacci :
    (fibonacci base).Endless fun n => .clip (base.nanos * Nat.fib (n + 1)) := by
  -- A pass remembers two neighbouring delays, each of them cut.
  let delay (n : Nat) : Duration := .clip (base.nanos * Nat.fib (n + 1))
  refine .of_states (fun n => (delay n, delay (n + 1))) ?_ fun k dice => ?_
  · have hone : delay 0 = base := by simp [delay, Duration.clip_nanos]
    have htwo : delay 1 = base := by simp [delay, Duration.clip_nanos]
    show (base, base) = (delay 0, delay 1)
    rw [hone, htwo]
  · have hsum : (delay k).saturatingAdd (delay (k + 1)) = delay (k + 2) := by
      simp only [delay]
      rw [Duration.clip_saturatingAdd_clip, ← Nat.mul_add, ← Nat.fib_add_two]
    simp only [next?, hsum]
    rfl

/-- The growing schedules give exact multiples of their first delay, cut to the largest duration: one
more of it each time, a power of the factor, or a Fibonacci number of it. They never end and never
get shorter, and once at the largest duration they stay there. Only a factor of zero makes the
second delay and all later ones no time at all. -/
theorem growing_exact (factor : Nat) :
    (linear base).Endless (fun n => .clip (base.nanos * (n + 1))) ∧
      (exponential base factor).Endless (fun n => .clip (base.nanos * factor ^ n)) ∧
      (fibonacci base).Endless (fun n => .clip (base.nanos * Nat.fib (n + 1))) ∧
      (linear base).Rises ∧ (1 ≤ factor → (exponential base factor).Rises) ∧
      (fibonacci base).Rises := by
  have hlinear := endless_linear base
  have hexponential := endless_exponential base factor
  have hfibonacci := endless_fibonacci base
  refine ⟨hlinear, hexponential, hfibonacci, ?_, fun hfactor => ?_, ?_⟩
  · exact hlinear.rises_of_multiple fun m n hle => Nat.succ_le_succ hle
  · exact hexponential.rises_of_multiple fun m n hle => Nat.pow_le_pow_right hfactor hle
  · exact hfibonacci.rises_of_multiple fun m n hle => Nat.fib_mono (Nat.succ_le_succ hle)

/-- Thirds of the largest duration: the second doubling is cut, and all delays after it are the
largest duration. -/
theorem growing_exact_thirds :
    let base : Duration := .clip (Duration.maxNanos / 3)
    1 ≤ 2 ∧ (exponential base 2).Rises ∧
      ((exponential base 2).read 4 ⟨id, 0⟩).delays =
        [base, .clip (Duration.maxNanos / 3 * 2), .max, .max] := by
  intro base
  have hone : 1 ≤ 2 := by decide
  have hrises : (exponential base 2).Rises := (growing_exact base 2).2.2.2.2.1 hone
  exact ⟨hone, hrises, by decide⟩

end Growing

end Schedule

end Transduction
