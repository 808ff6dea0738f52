import Transduction.Blueprint.Value
import Transduction.Duration
import Transduction.Step

/-!
# Journals

The state that the functions of written pipelines act on: the log of what happened, the counters
that belong to places in the text of a pipeline, how often labelled stages were called, how often
each resource was released, and the waits recorded by sleepers.

## Main definitions

* `Tally`: counts by number.
* `Note`: an entry of the log.
* `Journal`: the state.
* `Effect`: an effectful computation on a journal that may panic.
* `Journal.takeLog`: the log since it was last taken, with neighbouring releases in order.
-/

namespace Transduction.Blueprint

/-! ### Counts -/

/-- Counts by number; a number that is not there counts nothing. -/
structure Tally where
  counts : Array Nat

namespace Tally

def empty : Tally := ⟨#[]⟩

/-- The count for a number. -/
def get (tally : Tally) (i : Nat) : Nat := tally.counts[i]?.getD 0

/-- Counts one more for a number. -/
def bump (tally : Tally) (i : Nat) : Tally :=
  if h : i < tally.counts.size then ⟨tally.counts.set i (tally.counts[i] + 1)⟩
  else ⟨(tally.counts ++ Array.replicate (i - tally.counts.size) 0).push 1⟩

end Tally

/-! ### The log -/

/-- An entry of the log. -/
inductive Note where
  /-- A value passed a labelled stage. -/
  | passed (label : String) (value : Value)
  /-- The run was asked to cancel. -/
  | cancel (reason : String)
  /-- A resource was opened. -/
  | opened (name : String)
  /-- Something happened while a resource was released. -/
  | dropped (text : String)
  /-- A value reached the end of a pipeline, with the number of registered resources. -/
  | ended (value : Value) (registered : Nat)

/-- The text of an entry about a release. -/
def Note.dropped? : Note → Option String
  | dropped text => some text
  | _ => none

/-- Sorts each group of neighbouring entries about releases by their texts. -/
def Note.arrange : List Note → List String → List Note
  | [], group => (group.mergeSort (· ≤ ·)).map dropped
  | note :: rest, group =>
    match note.dropped? with
    | some text => arrange rest (text :: group)
    | none => (group.mergeSort (· ≤ ·)).map dropped ++ note :: arrange rest []

/-! ### Journals -/

/-- The state that the functions of written pipelines act on. -/
structure Journal where
  /-- The log, last entry first. -/
  notes : List Note
  /-- How often the functions at each place were called. -/
  counters : Tally
  /-- How often the stages with each label were called. -/
  calls : List (String × Nat)
  /-- How often each resource was released. -/
  releases : Tally
  /-- The recorded waits. -/
  sleeps : Array Duration

namespace Journal

/-- A journal in which nothing has happened, for stages with the given labels. -/
def start (labels : List String) : Journal :=
  ⟨[], .empty, labels.map (·, 0), .empty, #[]⟩

/-- Adds an entry to the log. -/
def write (journal : Journal) (note : Note) : Journal :=
  { journal with notes := note :: journal.notes }

/-- How often a resource was released. -/
def releasesOf (journal : Journal) (handle : Handle) : Nat := journal.releases.get handle.index

/-- Counts a release of a resource. -/
def countRelease (journal : Journal) (handle : Handle) : Journal :=
  { journal with releases := journal.releases.bump handle.index }

/-- Counts a call of a labelled stage. -/
def countCall (journal : Journal) (label : String) : Journal :=
  { journal with
    calls := journal.calls.map fun (l, n) => if l = label then (l, n + 1) else (l, n) }

/-- Records a wait. -/
def recordSleep (journal : Journal) (delay : Duration) : Journal :=
  { journal with sleeps := journal.sleeps.push delay }

/-- Counts a call at a place, and says which call it was, from one on. -/
def bump (journal : Journal) (place : Nat) : Nat × Journal :=
  (journal.counters.get place + 1, { journal with counters := journal.counters.bump place })

/-- A value with up-to-date release counts. -/
def stamp (journal : Journal) (value : Value) : Value := value.stamped journal.releasesOf

/-- The log since it was last taken. -/
def takeLog (journal : Journal) : List Note × Journal :=
  (Note.arrange journal.notes.reverse [], { journal with notes := [] })

end Journal

/-! ### Effects -/

/-- An effectful computation on a journal that may panic. -/
abbrev Effect : Type → Type := ExceptT String (StateM Journal)

/-- An effectful function as foreign code, with what happens to the surroundings meanwhile. -/
def Effect.callback {α β : Type} (f : α → Effect (β × List Happening)) : Callback Journal α β :=
  fun a journal =>
    match (f a).run.run journal with
    | (.ok (b, happenings), journal) => ⟨.ok b, journal, happenings⟩
    | (.error message, journal) => ⟨.error message, journal, []⟩

/-- An effectful function as foreign code that leaves the surroundings alone. -/
def Effect.plain {α β : Type} (f : α → Effect β) : Callback Journal α β :=
  Effect.callback fun a => (·, []) <$> f a

/-- Counts a call at a place, and says which call it was, from one on. -/
def Effect.bump (place : Nat) : Effect Nat := modifyGet (·.bump place)

/-- Adds an entry to the log. -/
def Effect.write (note : Note) : Effect Unit := modify (·.write note)

end Transduction.Blueprint
