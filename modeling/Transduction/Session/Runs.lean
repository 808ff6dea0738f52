import Transduction.Session.Basic

/-!
# Whole runs in a session

A pipeline is run on several inputs in turn. With a setting, every run has a context of its own
that shares the token of the session; without one, every run stands alone and cannot be cancelled.
A run is driven by an event loop or blocks its caller, and only an event loop has a timer.

## Main definitions

* `Extent`: whether a run collects all outputs or stops at the first.
* `Drive`: what makes a run go on.
* `Outcome`: what one run gave.
* `runEach`: the runs of a pipeline.
-/

namespace Transduction.Session

open Blueprint

/-- Whether a run collects all outputs or stops at the first. -/
inductive Extent where
  | all
  | first
  deriving DecidableEq, Repr

/-- What makes a run go on. -/
inductive Drive where
  /-- An event loop, which has a timer. -/
  | eventLoop
  /-- The caller alone, who has none. -/
  | caller
  deriving DecidableEq, Repr

/-- Whether there is a timer to wait on. -/
def Drive.hasTimer : Drive → Bool
  | eventLoop => true
  | caller => false

/-- What one run gave: what it yielded, the log, and for a run in a setting how many resources are
registered after it. -/
structure Outcome where
  result : Except Halt (Yield Value)
  log : List Note
  registered : Option Nat

/-- One run in a given context. -/
def Extent.runIn (extent : Extent) (stage : Pipe) (context : Context) (input : Value)
    (world : World) : Except Halt (Yield Value) × World :=
  match extent with
  | all => stage.collectIn patience context input world
  | first => stage.firstIn patience context input world

/-- One run that stands alone. -/
def Extent.runAlone (extent : Extent) (stage : Pipe) (input : Value) (world : World) :
    Except Halt (Yield Value) × World :=
  match extent with
  | all => stage.collect patience input world
  | first => stage.first patience input world

/-- One run of a pipeline. -/
def runOne (extent : Extent) (drive : Drive) (pipeline : Pipeline) (setting : Option Setting)
    (input : Value) (world : World) : Outcome × World :=
  match setting with
  | some setting =>
    let (context, world) := setting.enter world
    let (result, world) := extent.runIn (pipeline.build ⟨true, drive.hasTimer⟩) context input world
    let registered := world.store.size context.registry
    let result := result.map (stampYield world)
    let (log, world) := takeLog world
    (⟨result, log, some registered⟩, world.dropRegistry context.registry)
  | none =>
    let (result, world) := extent.runAlone (pipeline.build ⟨false, drive.hasTimer⟩) input world
    let result := result.map (stampYield world)
    let (log, world) := takeLog world
    (⟨result, log, none⟩, world)

/-- Runs of a pipeline on several inputs in turn. -/
def runEach (extent : Extent) (drive : Drive) (pipeline : Pipeline) (setting : Option Setting) :
    List Value → World → List Outcome × World
  | [], world => ([], world)
  | input :: rest, world =>
    let (outcome, world) := runOne extent drive pipeline setting input world
    let (outcomes, world) := runEach extent drive pipeline setting rest world
    (outcome :: outcomes, world)

/-- A session that runs a pipeline on several inputs. -/
def runs (extent : Extent) (drive : Drive) (pipeline : Pipeline) (labels : List String)
    (setting : Option Setting) (inputs : List Value) : List Outcome × Tail :=
  let (outcomes, world) := runEach extent drive pipeline setting inputs (begin labels)
  (outcomes, .of world)

end Transduction.Session
