import Transduction.Session.Basic

/-!
# Contexts in a session

A value travels together with a context and a token, and is changed step by step: the value is
replaced, the context nested, the token replaced or cancelled, resources registered and released.

## Main definitions

* `Traveller`: a value with its context and its token.
* `ContextOp`: a change.
* `contexts`: what is seen after each change.
-/

namespace Transduction.Session

open Blueprint

/-- A value with its context and the number of its token. -/
structure Traveller where
  value : Value
  context : Context
  token : Nat

/-- A change. -/
inductive ContextOp where
  | setValue (value : Value)
  /-- Replaces the value and nests the context. -/
  | setValueScoped (value : Value)
  /-- Puts a copy aside. -/
  | push
  /-- Takes back what was last put aside. -/
  | pop
  /-- Takes value and context apart, and puts a list of the value back. -/
  | split
  /-- Takes the value out, and puts a list of it into the same context. -/
  | unwrap
  | nested
  | newToken
  | deadline (seconds : Int)
  | cancel (reason : String)
  | acquire (name : String)
  | release (name : String)
  | clean

/-- The answer to a change. -/
inductive ContextAnswer where
  | nothing
  | value (value : Value)
  | flag (flag : Bool)
  | count (n : Nat)

/-- A session with a traveller: all tokens, the named resources, what was put aside, and the
registries and scopes seen so far in order of first appearance. -/
structure Journey where
  world : World
  current : Traveller
  aside : List Traveller
  tokens : List Token
  handles : List (String × Handle)
  registries : List RegistryId
  scopes : List Uuid

namespace Journey

/-- The beginning of a session. -/
def fresh (value : Value) : Journey :=
  let (context, world) := (begin []).openContext none
  ⟨world, ⟨value, context, 0⟩, [], [.fresh], [], [], []⟩

/-- The handle of a named resource, made if the name is new. -/
def handleOf (journey : Journey) (name : String) : Handle × Journey :=
  match journey.handles.lookup name with
  | some handle => (handle, journey)
  | none =>
    let (handle, world) := journey.world.newHandle
    (handle, { journey with handles := journey.handles ++ [(name, handle)], world })

/-- Nests the context of the traveller. -/
def nest (journey : Journey) (value : Value) : Journey :=
  let (context, world) := journey.world.nestedContext journey.current.context
  { journey with current := { journey.current with value, context }, world }

/-- Replaces the value of the traveller. -/
def withValue (journey : Journey) (value : Value) : Journey :=
  { journey with current := { journey.current with value } }

/-- The token of the traveller. -/
def token (journey : Journey) : Token := journey.tokens[journey.current.token]?.getD .fresh

/-- Makes a change. -/
def apply (journey : Journey) : ContextOp → ContextAnswer × Journey
  | .setValue value => (.nothing, journey.withValue value)
  | .setValueScoped value => (.nothing, journey.nest value)
  | .push => (.nothing, { journey with aside := journey.current :: journey.aside })
  | .pop =>
    match journey.aside with
    | [] => (.nothing, journey)
    | last :: rest => (.nothing, { journey with current := last, aside := rest })
  | .split =>
    (.value journey.current.value, journey.withValue (.list [journey.current.value]))
  | .unwrap => (.nothing, journey.withValue (.list [journey.current.value]))
  | .nested => (.nothing, journey.nest journey.current.value)
  | .newToken =>
    (.nothing, { journey with
      current := { journey.current with token := journey.tokens.length }
      tokens := journey.tokens ++ [.fresh] })
  | .deadline seconds =>
    let deadline := Setting.deadlineFrom journey.world.now seconds
    let context := { journey.current.context with deadline := some deadline }
    (.nothing, { journey with current := { journey.current with context } })
  | .cancel reason =>
    (.nothing, { journey with
      tokens := journey.tokens.set journey.current.token (journey.token.cancel reason) })
  | .acquire name =>
    let (handle, journey) := journey.handleOf name
    let entry : Entry Journal :=
      ⟨journey.current.context.registry, handle, Pipeline.disposing handle name .done⟩
    (.nothing, { journey with world := journey.world.register entry })
  | .release name =>
    let (handle, journey) := journey.handleOf name
    let (released, world) := journey.world.release journey.current.context.registry handle
    (.flag released, { journey with world })
  | .clean =>
    let (n, world) := journey.world.clean journey.current.context.registry
    (.count n, { journey with world })

end Journey

/-- The position of an item in a list, which is put at the end if it is new. -/
def position {α : Type} [BEq α] (item : α) (seen : List α) : Nat × List α :=
  match seen.idxOf? item with
  | some i => (i, seen)
  | none => (seen.length, seen ++ [item])

/-- What is seen after a change. -/
structure ContextReading where
  answer : ContextAnswer
  value : Value
  registry : Nat
  scope : Nat
  isRoot : Bool
  sameRun : Bool
  registered : Nat
  hasDeadline : Bool
  cancelled : Option String
  interruption : Option Failure
  log : List Note

/-- What is seen after a change, in a session that began with a given run. -/
def Journey.reading (journey : Journey) (run : Uuid) (answer : ContextAnswer) :
    ContextReading × Journey :=
  let { value, context, .. } := journey.current
  let (registry, registries) := position context.registry journey.registries
  let (scope, scopes) := position context.identity.scope journey.scopes
  let token := journey.token
  let (log, world) := takeLog journey.world
  ({ answer, value, registry, scope, log
     isRoot := context.identity.isRoot
     sameRun := context.identity.run == run
     registered := world.store.size context.registry
     hasDeadline := context.deadline.isSome
     cancelled := token.reason
     interruption := ({ world with token } : World).interruption? context },
    { journey with registries, scopes, world })

/-- What is seen after several changes. -/
def Journey.readings (run : Uuid) : List ContextOp → Journey → List ContextReading
  | [], _ => []
  | op :: rest, journey =>
    let (answer, journey) := journey.apply op
    let (reading, journey) := journey.reading run answer
    reading :: readings run rest journey

/-- A session with a value in a fresh context: what is seen at first and after each change. -/
def contexts (value : Value) (ops : List ContextOp) : List ContextReading :=
  let journey := Journey.fresh value
  let run := journey.current.context.identity.run
  let (first, journey) := journey.reading run .nothing
  first :: journey.readings run ops

end Transduction.Session
