/-!
# Durations

A duration is a whole number of nanoseconds up to a largest one: 2^64 - 1 seconds and one
nanosecond less than a second. Arithmetic either stops at the largest duration or says that the
result does not fit.

## Main definitions

* `Duration`: a bounded number of nanoseconds.
* `Duration.clip`: the duration nearest to any number of nanoseconds.
* `Duration.saturatingAdd`, `Duration.saturatingMul`: arithmetic that stops at the largest one.
* `Duration.add?`: the sum, if it fits.
* `Duration.total?`: the sum of a list, if every partial sum fits.

## Main results

* `Duration.nanos_saturatingAdd`, `Duration.nanos_saturatingMul`: the exact values.
* `Duration.add?_eq_some_iff`: when a sum fits, and what it is.
-/

namespace Transduction

/-- The nanoseconds of the largest duration. -/
def Duration.maxNanos : Nat := 18446744073709551615999999999

/-- A duration in whole nanoseconds. -/
structure Duration where
  nanos : Nat
  nanos_le : nanos ≤ Duration.maxNanos := by decide
  deriving DecidableEq

namespace Duration

/-- The number of nanoseconds in a second. -/
def nanosPerSecond : Nat := 1000000000

/-- The number of nanoseconds in a millisecond. -/
def nanosPerMilli : Nat := 1000000

/-- The duration nearest to a number of nanoseconds. -/
def clip (nanos : Nat) : Duration := ⟨min nanos maxNanos, Nat.min_le_right _ _⟩

/-- No time at all. -/
def zero : Duration := clip 0

/-- The largest duration. -/
def max : Duration := clip maxNanos

/-- A number of milliseconds, or the largest duration if that is less. -/
def ofMillis (millis : Nat) : Duration := clip (millis * nanosPerMilli)

/-- Whole seconds and the nanoseconds left over, as one duration. -/
def ofParts (seconds nanos : Nat) : Duration := clip (seconds * nanosPerSecond + nanos)

/-- The whole seconds of a duration. -/
def seconds (duration : Duration) : Nat := duration.nanos / nanosPerSecond

/-- The nanoseconds beyond the whole seconds. -/
def subsecondNanos (duration : Duration) : Nat := duration.nanos % nanosPerSecond

instance : LE Duration := ⟨fun a b => a.nanos ≤ b.nanos⟩

instance : LT Duration := ⟨fun a b => a.nanos < b.nanos⟩

instance (a b : Duration) : Decidable (a ≤ b) := inferInstanceAs (Decidable (a.nanos ≤ b.nanos))

instance (a b : Duration) : Decidable (a < b) := inferInstanceAs (Decidable (a.nanos < b.nanos))

/-- The shorter of two durations. -/
def shorter (a b : Duration) : Duration := if a ≤ b then a else b

/-- The sum, or the largest duration if that is less. -/
def saturatingAdd (a b : Duration) : Duration := clip (a.nanos + b.nanos)

/-- The product, or the largest duration if that is less. -/
def saturatingMul (a : Duration) (factor : Nat) : Duration := clip (a.nanos * factor)

/-- The sum, if it is a duration. -/
def add? (a b : Duration) : Option Duration :=
  if h : a.nanos + b.nanos ≤ maxNanos then some ⟨a.nanos + b.nanos, h⟩ else none

/-- The sum of a list of durations, if it is a duration. -/
def total? (durations : List Duration) : Option Duration :=
  durations.foldl (fun sum d => sum.bind (·.add? d)) (some zero)

theorem ext_nanos {a b : Duration} (h : a.nanos = b.nanos) : a = b := by
  cases a; cases b; simp_all

@[simp] theorem nanos_clip (n : Nat) : (clip n).nanos = min n maxNanos := rfl

@[simp] theorem nanos_zero : zero.nanos = 0 := rfl

@[simp] theorem nanos_max : max.nanos = maxNanos := rfl

theorem clip_nanos (a : Duration) : clip a.nanos = a :=
  ext_nanos (Nat.min_eq_left a.nanos_le)

@[simp] theorem nanos_saturatingAdd (a b : Duration) :
    (a.saturatingAdd b).nanos = min (a.nanos + b.nanos) maxNanos := rfl

@[simp] theorem nanos_saturatingMul (a : Duration) (factor : Nat) :
    (a.saturatingMul factor).nanos = min (a.nanos * factor) maxNanos := rfl

theorem nanos_shorter (a b : Duration) : (a.shorter b).nanos = min a.nanos b.nanos := by
  by_cases h : a.nanos ≤ b.nanos
  · have h' : a ≤ b := h
    simp [shorter, h', Nat.min_eq_left h]
  · have h' : ¬ a ≤ b := h
    simp [shorter, h', Nat.min_eq_right (Nat.le_of_lt (Nat.lt_of_not_le h))]

theorem add?_eq_some_iff {a b c : Duration} :
    a.add? b = some c ↔ c.nanos = a.nanos + b.nanos := by
  constructor
  · intro h
    unfold add? at h
    split at h
    · cases h; rfl
    · cases h
  · intro h
    have hle : a.nanos + b.nanos ≤ maxNanos := h ▸ c.nanos_le
    simp only [add?, hle, dite_true, Option.some.injEq]
    exact ext_nanos h.symm

theorem add?_eq_none_iff {a b : Duration} : a.add? b = none ↔ maxNanos < a.nanos + b.nanos := by
  by_cases h : a.nanos + b.nanos ≤ maxNanos
  · simp [add?, h, Nat.not_lt.2 h]
  · simp [add?, h, Nat.lt_of_not_le h]

end Duration

end Transduction
