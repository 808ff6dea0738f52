import Transduction.Failure

/-!
# Feeds

What a source reads: items that are there already, and what comes after them. A feed can be over,
or it can fall silent, in which case the reader waits until the run is cancelled.

## Main definitions

* `Feed.Tail`: what comes after the items.
* `Feed`: items and a tail.
* `Feed.ofList`: a feed of the items of a list, and over after them.
-/

namespace Transduction

/-- What comes after the items of a feed. -/
inductive Feed.Tail where
  /-- The feed is over. -/
  | over
  /-- Nothing comes until the run is cancelled for the given reason. -/
  | idle (reason : String)
  /-- Nothing ever comes. -/
  | silent
  deriving DecidableEq, Repr

/-- What a source reads. -/
structure Feed (A : Type) where
  items : List A
  tail : Feed.Tail

namespace Feed

variable {A B : Type}

/-- A feed of the items of a list. -/
def ofList (items : List A) : Feed A := ⟨items, .over⟩

/-- Applies a function to every item. -/
def map (f : A → B) (feed : Feed A) : Feed B := ⟨feed.items.map f, feed.tail⟩

end Feed

end Transduction
