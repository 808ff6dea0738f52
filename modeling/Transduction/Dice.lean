/-!
# Dice

A source of random numbers: an endless sequence fixed in advance, of which some numbers have been
used. A draw up to a bound takes the next number modulo the size of the range, so that every number
in the range can come up and no other.

## Main definitions

* `Dice`: the sequence and the position in it.
* `Dice.upTo`: the next draw from `0` to a bound, both included.

## Main results

* `Dice.upTo_le`: a draw stays in its range.
-/

namespace Transduction

/-- A sequence of random numbers and how many of them are used up. -/
structure Dice where
  sequence : Nat → Nat
  used : Nat

namespace Dice

/-- The next draw from `0` to a bound, both included. -/
def upTo (dice : Dice) (bound : Nat) : Nat × Dice :=
  (dice.sequence dice.used % (bound + 1), { dice with used := dice.used + 1 })

theorem upTo_le (dice : Dice) (bound : Nat) : (dice.upTo bound).1 ≤ bound :=
  Nat.le_of_lt_succ (Nat.mod_lt _ (Nat.succ_pos bound))

end Dice

end Transduction
