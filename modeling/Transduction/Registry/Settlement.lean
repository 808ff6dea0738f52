import Transduction.Env

/-!
# Settlement

Running disposals. A disposal may register, release and clean while it runs, so what is left to do
is a list of tasks, the innermost first, and settling works through the list. A release or a clean
inside a disposal takes its entries out of the store and puts them in front of the rest of that
disposal. Each step uses up some of the weight of the tasks and the store together, so settling
ends. A panic drops the disposal it happens in and leaves the other tasks alone, and so does
registering, releasing or cleaning in a registry that is gone.

## Main definitions

* `Task`: an entry whose disposal has not begun, or the rest of a disposal.
* `settle`: works through a list of tasks.
* `Env.register`, `Env.release`, `Env.clean`, `Env.dropRegistry`: the operations on a registry.

## Main results

* `Env.clean_size`: cleaning reports how many resources were registered when it was called.
-/

namespace Transduction

variable {σ : Type}

/-- Something left to do while releasing resources. -/
inductive Task (σ : Type) where
  /-- Run the disposal of an entry that was taken out of the store. -/
  | dispose (entry : Entry σ)
  /-- Go on with a disposal. -/
  | resume (disposal : Disposal σ)

/-- A bound on the steps that a task can cause. -/
def Task.weight : Task σ → Nat
  | dispose entry => entry.weight
  | resume disposal => disposal.weight

/-- A bound on the steps that some tasks can cause. -/
def Task.total : List (Task σ) → Nat
  | [] => 0
  | task :: rest => task.weight + total rest

@[simp] theorem Task.total_cons (task : Task σ) (tasks : List (Task σ)) :
    total (task :: tasks) = task.weight + total tasks := rfl

theorem Task.total_append (first second : List (Task σ)) :
    total (first ++ second) = total first + total second := by
  induction first with
  | nil => simp [total]
  | cons t ts ih => simp [ih, Nat.add_assoc]

theorem Task.total_map_dispose (entries : List (Entry σ)) :
    total (entries.map dispose) = Entry.total entries := by
  induction entries with
  | nil => rfl
  | cons e es ih => simp [Entry.total, weight, ih]

/-- Registers a resource; a registered resource keeps its first entry. -/
def Env.register (env : Env σ) (entry : Entry σ) : Env σ :=
  if env.store.contains entry.registry entry.handle then env
  else { env with
    store := env.store.insert entry
    history := .registered entry.registry entry.handle :: env.history }

theorem Env.weight_register_le (env : Env σ) (entry : Entry σ) :
    (env.register entry).store.weight ≤ env.store.weight + entry.weight := by
  unfold register
  split
  · omega
  · exact Store.weight_insert_le _ _

/-- Works through a list of tasks, the first one first. -/
def settle (tasks : List (Task σ)) (env : Env σ) : Env σ :=
  match tasks with
  | [] => env
  | .dispose entry :: rest =>
    settle (.resume entry.disposal :: rest) (env.record (.disposed entry.registry entry.handle))
  | .resume .done :: rest => settle rest env
  | .resume .panic :: rest => settle rest env
  | .resume (.act change next) :: rest =>
    settle (.resume next :: rest) { env with user := change env.user }
  | .resume (.branch test yes no) :: rest =>
    if test env.user then settle (.resume yes :: rest) env else settle (.resume no :: rest) env
  | .resume (.meanwhile happening next) :: rest =>
    settle (.resume next :: rest) (env.happen happening)
  | .resume (.acquire registry handle disposal next) :: rest =>
    if env.store.isLive registry then
      settle (.resume next :: rest) (env.register ⟨registry, handle, disposal⟩)
    else settle rest env
  | .resume (.release registry handle note next) :: rest =>
    if env.store.isLive registry then
      match _found : env.store.remove registry handle with
      | some (entry, store) =>
        settle (.dispose entry :: .resume (.act (note true) next) :: rest) { env with store }
      | none => settle (.resume next :: rest) { env with user := note false env.user }
    else settle rest env
  | .resume (.clean registry note next) :: rest =>
    if env.store.isLive registry then
      let drained := env.store.drain registry
      settle (drained.1.map .dispose ++ .resume (.act (note drained.1.length) next) :: rest)
        { env with store := drained.2 }
    else settle rest env
termination_by Task.total tasks + env.store.weight
decreasing_by
  · simp only [Task.total_cons, Task.weight, Entry.weight, Env.record]; omega
  · simp only [Task.total_cons, Task.weight, Disposal.weight]; omega
  · simp only [Task.total_cons, Task.weight, Disposal.weight]; omega
  · simp only [Task.total_cons, Task.weight, Disposal.weight]; omega
  · simp only [Task.total_cons, Task.weight, Disposal.weight]; omega
  · simp only [Task.total_cons, Task.weight, Disposal.weight]; omega
  · simp only [Task.total_cons, Task.weight, Disposal.weight, Env.store_happen]; omega
  · have := Env.weight_register_le env ⟨registry, handle, disposal⟩
    simp only [Task.total_cons, Task.weight, Disposal.weight, Entry.weight] at this ⊢; omega
  · simp only [Task.total_cons, Task.weight, Disposal.weight]; omega
  · have := Store.weight_remove _found
    simp only [Task.total_cons, Task.weight, Disposal.weight]; omega
  · simp only [Task.total_cons, Task.weight, Disposal.weight]; omega
  · simp only [Task.total_cons, Task.weight, Disposal.weight]; omega
  · have := Store.weight_drain env.store registry
    simp only [Task.total_append, Task.total_map_dispose, Task.total_cons, Task.weight,
      Disposal.weight]; omega
  · simp only [Task.total_cons, Task.weight, Disposal.weight]; omega

namespace Env

/-- Releases one resource before its registry is cleaned; says whether it was registered. -/
def release (env : Env σ) (registry : RegistryId) (handle : Handle) : Bool × Env σ :=
  match env.store.remove registry handle with
  | some (entry, store) => (true, settle [.dispose entry] { env with store })
  | none => (false, env)

/-- Releases everything that is registered when this is called, in the order of registration; says
how much it was. -/
def clean (env : Env σ) (registry : RegistryId) : Nat × Env σ :=
  let drained := env.store.drain registry
  (drained.1.length, settle (drained.1.map .dispose) { env with store := drained.2 })

/-- Drops a registry: from now on it is gone, and what is registered in it is released. -/
def dropRegistry (env : Env σ) (registry : RegistryId) : Env σ :=
  let drained := (env.store.close registry).drain registry
  settle (drained.1.map .dispose) { env with store := drained.2 }

/-- Opens a new registry. -/
def openRegistry (env : Env σ) : RegistryId × Env σ :=
  let (registry, store) := env.store.openNew
  (registry, { env with store })

theorem clean_size (env : Env σ) (registry : RegistryId) :
    (env.clean registry).1 = env.store.size registry := rfl

end Env

end Transduction
