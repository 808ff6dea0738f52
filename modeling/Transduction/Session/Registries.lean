import Transduction.Session.Basic

/-!
# Registries in a session

Operations on numbered registries and named resources. A named resource gets its handle when its
name first occurs in an order, whether or not the operation makes use of it. The release of a
resource is logged and counted, and may go on to act on a registry itself.

## Main definitions

* `Sequel`: what a release goes on to do.
* `RegistryOp`, `RegistryOrder`: an operation, and an operation with the names that occur with it.
* `registries`: the readings after each operation, and the log of dropping what is left.

## Main results

* `Catalogue.lookup_handleOf`, `Catalogue.handleOf_of_lookup`: a name gets a handle once.
-/

namespace Transduction.Session

open Blueprint

/-- What the release of a resource goes on to do. -/
inductive Sequel where
  | panic
  | release (registry : Nat) (name : String)
  | acquire (registry : Nat) (name : String)
  | clean (registry : Nat)

/-- An operation on a registry. -/
inductive RegistryOp.Act where
  | acquire (name : String) (sequel : Option Sequel)
  | release (name : String)
  | contains (name : String)
  | clean
  | drop

/-- Opening a registry, or an operation on a numbered one. -/
inductive RegistryOp where
  | openNew
  | on (registry : Nat) (act : RegistryOp.Act)

/-- An operation with the names that occur with it. -/
structure RegistryOrder where
  names : List String
  op : RegistryOp

/-- The answer to an operation. -/
inductive RegistryAnswer where
  | nothing
  | gone
  | flag (value : Bool)
  | count (n : Nat)

/-- The registries and names of a session. -/
structure Catalogue where
  registries : List RegistryId
  handles : List (String × Handle)
  world : World

namespace Catalogue

/-- The handle of a named resource, made if the name is new. -/
def handleOf (catalogue : Catalogue) (name : String) : Handle × Catalogue :=
  match catalogue.handles.lookup name with
  | some handle => (handle, catalogue)
  | none =>
    let (handle, world) := catalogue.world.newHandle
    (handle, { catalogue with handles := catalogue.handles ++ [(name, handle)], world })

theorem handleOf_of_lookup {catalogue : Catalogue} {name : String} {handle : Handle}
    (h : catalogue.handles.lookup name = some handle) :
    catalogue.handleOf name = (handle, catalogue) := by
  simp [handleOf, h]

theorem lookup_handleOf (catalogue : Catalogue) (name : String) :
    (catalogue.handleOf name).2.handles.lookup name = some (catalogue.handleOf name).1 := by
  rw [handleOf]
  split
  · assumption
  · next h => simp [List.lookup_append, h]

/-- Makes the handles of the names that are new. -/
def mention (catalogue : Catalogue) (names : List String) : Catalogue :=
  names.foldl (fun catalogue name => (catalogue.handleOf name).2) catalogue

/-- Opens a registry. -/
def openNew (catalogue : Catalogue) : Catalogue :=
  let (registry, world) := catalogue.world.openRegistry
  { catalogue with registries := catalogue.registries ++ [registry], world }

/-- A session with one registry. -/
def fresh : Catalogue := openNew ⟨[], [], begin []⟩

/-- The numbered registry, if it has not been dropped. -/
def find? (catalogue : Catalogue) (registry : Nat) : Option RegistryId :=
  catalogue.registries[registry]?.filter catalogue.world.store.isLive

/-- Logs something that happened during a release. -/
def noting (text : String) (journal : Journal) : Journal := journal.write (.dropped text)

/-- The text of a truth value. -/
def flagText (flag : Bool) : String := if flag then "true" else "false"

/-- The rest of the disposal of a named resource; it does nothing in a registry that was never
opened. -/
def sequelDisposal (catalogue : Catalogue) (name : String) :
    Option Sequel → Disposal Journal × Catalogue
  | none => (.done, catalogue)
  | some .panic => (.panic, catalogue)
  | some (.release registry other) =>
    let (handle, catalogue) := catalogue.handleOf other
    let note (released : Bool) :=
      noting (name ++ " released " ++ other ++ ": " ++ flagText released)
    (match catalogue.registries[registry]? with
      | some target => .release target handle note .done
      | none => .done, catalogue)
  | some (.acquire registry other) =>
    let (handle, catalogue) := catalogue.handleOf other
    (match catalogue.registries[registry]? with
      | some target => .acquire target handle (Pipeline.disposing handle other .done) .done
      | none => .done, catalogue)
  | some (.clean registry) =>
    (match catalogue.registries[registry]? with
      | some target => .clean target (fun n => noting (name ++ " cleaned " ++ toString n)) .done
      | none => .done, catalogue)

/-- Does an operation on a numbered registry. Dropping what is no longer there is no fault. -/
def act (catalogue : Catalogue) (registry : Nat) :
    RegistryOp.Act → RegistryAnswer × Catalogue
  | .acquire name sequel =>
    let (handle, catalogue) := catalogue.handleOf name
    let (rest, catalogue) := catalogue.sequelDisposal name sequel
    match catalogue.find? registry with
    | none => (.gone, catalogue)
    | some id =>
      let entry : Entry Journal := ⟨id, handle, Pipeline.disposing handle name rest⟩
      (.flag true, { catalogue with world := catalogue.world.register entry })
  | .release name =>
    let (handle, catalogue) := catalogue.handleOf name
    match catalogue.find? registry with
    | none => (.gone, catalogue)
    | some id =>
      let (released, world) := catalogue.world.release id handle
      (.flag released, { catalogue with world })
  | .contains name =>
    let (handle, catalogue) := catalogue.handleOf name
    match catalogue.find? registry with
    | none => (.gone, catalogue)
    | some id => (.flag (catalogue.world.store.contains id handle), catalogue)
  | .clean =>
    match catalogue.find? registry with
    | none => (.gone, catalogue)
    | some id =>
      let (n, world) := catalogue.world.clean id
      (.count n, { catalogue with world })
  | .drop =>
    match catalogue.find? registry with
    | none => (.nothing, catalogue)
    | some id => (.nothing, { catalogue with world := catalogue.world.dropRegistry id })

/-- Does an operation, once all names that occur with it have their handles. -/
def apply (catalogue : Catalogue) (order : RegistryOrder) : RegistryAnswer × Catalogue :=
  let catalogue := catalogue.mention order.names
  match order.op with
  | .openNew => (.nothing, catalogue.openNew)
  | .on registry act => catalogue.act registry act

end Catalogue

/-- What is seen after an operation: the answer, the size of each registry that is left, the
releases of each named resource, and the log. -/
structure RegistryReading where
  answer : RegistryAnswer
  sizes : List (Option Nat)
  releases : List (String × Nat)
  log : List Note

/-- What is seen after an operation. -/
def Catalogue.reading (catalogue : Catalogue) (answer : RegistryAnswer) :
    RegistryReading × Catalogue :=
  let store := catalogue.world.store
  let (log, world) := takeLog catalogue.world
  (⟨answer,
    catalogue.registries.map fun id => if store.isLive id then some (store.size id) else none,
    catalogue.handles.map fun (name, handle) => (name, world.user.releasesOf handle), log⟩,
    { catalogue with world })

/-- A registry as text. -/
def describeRegistry (size : Nat) : String := "Resources \x7b len: " ++ toString size ++ " \x7d"

/-- The readings after several operations. -/
def Catalogue.readings : List RegistryOrder → Catalogue → List RegistryReading × Catalogue
  | [], catalogue => ([], catalogue)
  | order :: rest, catalogue =>
    let (answer, catalogue) := catalogue.apply order
    let (reading, catalogue) := catalogue.reading answer
    let (readings, catalogue) := readings rest catalogue
    (reading :: readings, catalogue)

/-- A session of operations on registries, with the log of dropping what is left at the end. -/
def registries (orders : List RegistryOrder) : List RegistryReading × List Note :=
  let (readings, catalogue) := Catalogue.readings orders .fresh
  let world := catalogue.registries.foldl (fun world id => world.dropRegistry id) catalogue.world
  (readings, (takeLog world).1)

end Transduction.Session
