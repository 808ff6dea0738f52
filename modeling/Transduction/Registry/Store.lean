import Transduction.Registry.Disposal

/-!
# The store of registered resources

All registries of a run in one value: the entries of all of them in the order of registration,
and which registries are open. A resource is registered at most once in a registry; registering
it again keeps the first entry.

## Main definitions

* `Entry`: one registered resource with its disposal.
* `Store`: the entries and the open registries.
* `Store.insert`, `Store.remove`, `Store.drain`, `Store.openNew`, `Store.close`: the operations.
* `Store.contains`, `Store.size`: the readings.
* `Store.weight`: a bound on the steps that the entries can cause.

## Main results

* `Store.weight_insert_le`, `Store.weight_remove`, `Store.weight_drain`: what the operations do to
  the weight, which is why releasing ends.
-/

namespace Transduction

variable {σ : Type}

/-- One registered resource. -/
structure Entry (σ : Type) where
  registry : RegistryId
  handle : Handle
  disposal : Disposal σ

/-- Whether an entry is the one for a resource in a registry. -/
def Entry.isFor (entry : Entry σ) (registry : RegistryId) (handle : Handle) : Bool :=
  entry.registry = registry && entry.handle = handle

/-- A bound on the steps that releasing an entry can cause. -/
def Entry.weight (entry : Entry σ) : Nat := entry.disposal.weight + 1

/-- A bound on the steps that releasing some entries can cause. -/
def Entry.total : List (Entry σ) → Nat
  | [] => 0
  | entry :: rest => entry.weight + total rest

theorem Entry.total_cons (entry : Entry σ) (entries : List (Entry σ)) :
    total (entry :: entries) = entry.weight + total entries := rfl

theorem Entry.total_append (first second : List (Entry σ)) :
    total (first ++ second) = total first + total second := by
  induction first with
  | nil => simp [total]
  | cons e es ih => simp [total, ih, Nat.add_assoc]

/-- Splitting entries in two keeps the bound. -/
theorem Entry.total_filter_add (p : Entry σ → Bool) (entries : List (Entry σ)) :
    total (entries.filter p) + total (entries.filter (!p ·)) = total entries := by
  induction entries with
  | nil => rfl
  | cons e es ih =>
    cases h : p e <;> simp [List.filter, h, total_cons] <;> omega

/-- The registries of a run. -/
structure Store (σ : Type) where
  /-- The entries of all registries, in the order of registration. -/
  entries : List (Entry σ)
  /-- The registries that are open. -/
  live : List RegistryId
  /-- How many registries were ever opened. -/
  opened : Nat

namespace Store

/-- No registries. -/
def empty : Store σ := ⟨[], [], 0⟩

/-- Whether a registry is open. -/
def isLive (store : Store σ) (registry : RegistryId) : Bool := store.live.contains registry

/-- Opens a new registry. -/
def openNew (store : Store σ) : RegistryId × Store σ :=
  let id : RegistryId := ⟨store.opened⟩
  (id, { store with live := id :: store.live, opened := store.opened + 1 })

/-- Marks a registry as gone; its entries stay until they are drained. -/
def close (store : Store σ) (registry : RegistryId) : Store σ :=
  { store with live := store.live.filter (· ≠ registry) }

/-- Whether a resource is registered. -/
def contains (store : Store σ) (registry : RegistryId) (handle : Handle) : Bool :=
  store.entries.any (·.isFor registry handle)

/-- The entries of one registry, in the order of registration. -/
def entriesOf (store : Store σ) (registry : RegistryId) : List (Entry σ) :=
  store.entries.filter (·.registry = registry)

/-- How many resources are registered in a registry. -/
def size (store : Store σ) (registry : RegistryId) : Nat := (store.entriesOf registry).length

/-- Registers a resource, unless it is registered already. -/
def insert (store : Store σ) (entry : Entry σ) : Store σ :=
  if store.contains entry.registry entry.handle then store
  else { store with entries := store.entries ++ [entry] }

/-- Takes the entry of a resource out of a list of entries. -/
def extract? (registry : RegistryId) (handle : Handle) :
    List (Entry σ) → Option (Entry σ × List (Entry σ))
  | [] => none
  | entry :: rest =>
    if entry.isFor registry handle then some (entry, rest)
    else (extract? registry handle rest).map fun found => (found.1, entry :: found.2)

/-- Takes the entry of a resource out of the store. -/
def remove (store : Store σ) (registry : RegistryId) (handle : Handle) :
    Option (Entry σ × Store σ) :=
  (extract? registry handle store.entries).map fun found =>
    (found.1, { store with entries := found.2 })

/-- Takes all entries of one registry out of the store. -/
def drain (store : Store σ) (registry : RegistryId) : List (Entry σ) × Store σ :=
  (store.entriesOf registry,
    { store with entries := store.entries.filter fun entry => !decide (entry.registry = registry) })

/-- A bound on the steps that releasing everything can cause. -/
def weight (store : Store σ) : Nat := Entry.total store.entries

theorem weight_insert_le (store : Store σ) (entry : Entry σ) :
    (store.insert entry).weight ≤ store.weight + entry.weight := by
  unfold insert
  split
  · omega
  · simp [weight, Entry.total_append, Entry.total]

theorem total_extract? {registry : RegistryId} {handle : Handle} {entries rest : List (Entry σ)}
    {entry : Entry σ} (h : extract? registry handle entries = some (entry, rest)) :
    Entry.total entries = entry.weight + Entry.total rest := by
  induction entries generalizing rest with
  | nil => cases h
  | cons e es ih =>
    unfold extract? at h
    split at h
    · cases h; rfl
    · obtain ⟨found, hf, heq⟩ := Option.map_eq_some_iff.1 h
      cases heq
      have hrest : Entry.total es = found.1.weight + Entry.total found.2 := ih hf
      rw [Entry.total_cons, Entry.total_cons, hrest]
      omega

theorem weight_remove {store rest : Store σ} {registry : RegistryId} {handle : Handle}
    {entry : Entry σ} (h : store.remove registry handle = some (entry, rest)) :
    store.weight = entry.weight + rest.weight := by
  obtain ⟨found, hf, heq⟩ := Option.map_eq_some_iff.1 h
  cases heq
  exact total_extract? hf

theorem weight_drain (store : Store σ) (registry : RegistryId) :
    Entry.total (store.drain registry).1 + (store.drain registry).2.weight = store.weight :=
  Entry.total_filter_add _ store.entries

@[simp] theorem weight_close (store : Store σ) (registry : RegistryId) :
    (store.close registry).weight = store.weight := rfl

end Store

end Transduction
