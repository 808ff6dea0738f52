import Transduction.Blueprint.Pipeline

/-!
# Sessions

A session runs written pipelines one after the other in common surroundings: one token, one clock
and one journal last for the whole session. Each run has a context of its own, made from a
setting.

## Main definitions

* `Setting`: how the context of a run is made.
* `Setting.enter`: makes the context.
* `begin`: the surroundings of a new session.
* `takeLog`: the log since it was last taken.
-/

namespace Transduction.Session

open Blueprint

/-- The surroundings of a session. -/
abbrev World : Type := Env Journal

/-- How often a scheduled stage may try one value before its run counts as endless. -/
def patience : Nat := 18446744073709551616

/-- Dice that always show the least number. -/
def leastDice : Dice := ⟨fun _ => 0, 0⟩

/-- The surroundings of a new session, for stages with the given labels. -/
def begin (labels : List String) : World := .start (.start labels) .fresh leastDice

/-- How the context of a run is made. -/
structure Setting where
  /-- A reason to cancel the session before the run. -/
  cancelled : Option String
  /-- The deadline in seconds from now. -/
  deadline : Option Int
  /-- The names of resources to register before the run. -/
  acquired : List String

namespace Setting

/-- Nothing special. -/
def plain : Setting := ⟨none, none, []⟩

/-- Registers a named resource, whose release is logged and counted. -/
def acquire (registry : RegistryId) (world : World) (name : String) : World :=
  let (handle, world) := world.newHandle
  world.register ⟨registry, handle, Pipeline.disposing handle name .done⟩

/-- The time on the clock a number of seconds from now; a number that is not positive is now. -/
def deadlineFrom (now : Nat) (seconds : Int) : Nat :=
  now + seconds.toNat * Duration.nanosPerSecond

/-- Makes the context of a run. A moment passes before the run begins. -/
def enter (setting : Setting) (world : World) : Context × World :=
  let world := match setting.cancelled with
    | some reason => world.cancel reason
    | none => world
  let (context, world) := world.openContext (setting.deadline.map (deadlineFrom world.now))
  let world := setting.acquired.foldl (acquire context.registry) world
  (context, world.happen (.elapse 1))

end Setting

/-- The log since it was last taken. -/
def takeLog (world : World) : List Note × World :=
  let (log, journal) := world.user.takeLog
  (log, { world with user := journal })

/-- What remains of a session: the recorded waits, and how often labelled stages were called. -/
structure Tail where
  sleeps : List Duration
  calls : List (String × Nat)

/-- What remains of a session. -/
def Tail.of (world : World) : Tail := ⟨world.user.sleeps.toList, world.user.calls⟩

/-- Brings the release counts in what a run yields up to date. -/
def stampYield (world : World) (yield : Yield Value) : Yield Value := yield.map world.user.stamp

/-- Brings the release counts in a verdict up to date. -/
def stampVerdict (world : World) : Verdict Value (List Value) → Verdict Value (List Value)
  | .alternate value => .alternate (world.user.stamp value)
  | verdict => verdict.map (·.map world.user.stamp)

end Transduction.Session
