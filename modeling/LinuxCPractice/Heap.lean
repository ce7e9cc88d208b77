import Mathlib.Data.List.Basic
import Mathlib.Logic.Function.Basic

/-!
# Objects and their lifetimes

The live objects of a process, each with its content. Reading, writing and
freeing an object that is not live has no result. A list of addresses can be
freed in turn exactly when they are live and no address comes twice.
-/

namespace LinuxCPractice

/-- The content of each live object. -/
@[ext] structure Heap (Address Value : Type*) where
  read : Address → Option Value

namespace Heap

variable {Address Value : Type*}

/-- No object is live. -/
def empty : Heap Address Value where
  read := fun _ => none

/-- An object is allocated at an address. -/
def Live (heap : Heap Address Value) (address : Address) : Prop :=
  heap.read address ≠ none

@[simp] theorem read_empty (address : Address) :
    (empty : Heap Address Value).read address = none := rfl

theorem not_live_iff {heap : Heap Address Value} {address : Address} :
    ¬heap.Live address ↔ heap.read address = none := not_not

/-- An address with content is live. -/
theorem Live.of_read {heap : Heap Address Value} {address : Address}
    {value : Value}
    (content : heap.read address = some value) : heap.Live address := by
  rw [Live, content]
  exact Option.some_ne_none value

/-- A live address has content. -/
theorem Live.exists_read {heap : Heap Address Value} {address : Address}
    (live : heap.Live address) : ∃ value, heap.read address = some value :=
  Option.ne_none_iff_exists'.mp live

section Operations

variable [DecidableEq Address]

/-- Put a content at an address, as that of a new object or of the live one. -/
def store (heap : Heap Address Value) (address : Address) (value : Value) :
    Heap Address Value where
  read := Function.update heap.read address (some value)

/-- Change the content of a live object. -/
def write (heap : Heap Address Value) (address : Address) (value : Value) :
    Option (Heap Address Value) :=
  (heap.read address).map fun _ => heap.store address value

/-- The object at an address is freed. -/
def remove (heap : Heap Address Value) (address : Address) :
    Heap Address Value where
  read := Function.update heap.read address none

/-- End the life of an object. -/
def free (heap : Heap Address Value) (address : Address) :
    Option (Heap Address Value) :=
  (heap.read address).map fun _ => heap.remove address

/-- Free the objects of a list in turn. -/
def freeAll (heap : Heap Address Value) :
    List Address → Option (Heap Address Value)
  | [] => some heap
  | address :: addresses =>
      (heap.free address).bind fun left => left.freeAll addresses

@[simp] theorem read_store_self (heap : Heap Address Value) (address : Address)
    (value : Value) :
    (heap.store address value).read address = some value := by
  simp [store]

/-- A store leaves the other addresses. -/
theorem read_store_of_ne {heap : Heap Address Value} {address other : Address}
    (different : other ≠ address) (value : Value) :
    (heap.store address value).read other = heap.read other := by
  simp [store, different]

theorem read_remove (heap : Heap Address Value) (address other : Address) :
    (heap.remove address).read other = if other = address then none
      else heap.read other :=
  Function.update_apply heap.read address none other

/-- A store makes its address live. -/
theorem live_store_iff {heap : Heap Address Value} {address other : Address}
    {value : Value} :
    (heap.store address value).Live other ↔
      other = address ∨ heap.Live other := by
  by_cases same : other = address
  · subst same
    simp [Live]
  · rw [Live, read_store_of_ne same]
    simp [same, Live]

/-- An object that comes and goes leaves no trace. -/
theorem remove_store_of_dead {heap : Heap Address Value} {address : Address}
    (value : Value)
    (dead : heap.read address = none) :
    (heap.store address value).remove address = heap := by
  ext1
  funext other
  rw [read_remove]
  split
  · rename_i same
    rw [same, dead]
  · rename_i different
    exact read_store_of_ne different value

/-- A write succeeds exactly at live addresses. -/
theorem write_eq_some_iff {heap written : Heap Address Value}
    {address : Address}
    {value : Value} :
    heap.write address value = some written ↔
      heap.Live address ∧ written = heap.store address value := by
  constructor
  · intro result
    obtain ⟨old, content, rfl⟩ := Option.map_eq_some_iff.mp result
    exact ⟨.of_read content, rfl⟩
  · rintro ⟨live, rfl⟩
    obtain ⟨old, content⟩ := live.exists_read
    rw [write, content, Option.map_some]

/-- Freeing succeeds exactly at live addresses. -/
theorem free_eq_some_iff {heap left : Heap Address Value} {address : Address} :
    heap.free address = some left ↔
      heap.Live address ∧ left = heap.remove address := by
  constructor
  · intro freed
    obtain ⟨value, content, rfl⟩ := Option.map_eq_some_iff.mp freed
    exact ⟨.of_read content, rfl⟩
  · rintro ⟨live, rfl⟩
    obtain ⟨value, content⟩ := live.exists_read
    rw [free, content, Option.map_some]

/-- Freeing leaves the other addresses. -/
theorem read_of_free {heap left : Heap Address Value} {address : Address}
    (freed : heap.free address = some left) (other : Address) :
    left.read other = if other = address then none else heap.read other := by
  obtain ⟨_, rfl⟩ := free_eq_some_iff.mp freed
  exact heap.read_remove address other

/-- Freeing takes its address from the live ones. -/
theorem live_of_free_iff {heap left : Heap Address Value}
    {address other : Address}
    (freed : heap.free address = some left) :
    left.Live other ↔ other ≠ address ∧ heap.Live other := by
  rw [Live, read_of_free freed]
  by_cases same : other = address
  · simp [same]
  · simp [same, Live]

/-- What is left after a list of objects has been freed: all of them were live,
each was freed once, and nothing else has changed. -/
theorem freeAll_eq_some_iff {heap left : Heap Address Value}
    {addresses : List Address} :
    heap.freeAll addresses = some left ↔
      addresses.Nodup ∧ (∀ address ∈ addresses, heap.Live address) ∧
        ∀ other, left.read other = if other ∈ addresses then none
          else heap.read other := by
  induction addresses generalizing heap with
  | nil =>
      simp only [freeAll, Option.some.injEq, List.nodup_nil, List.not_mem_nil,
        if_false, false_implies, implies_true, true_and]
      constructor
      · rintro rfl other
        rfl
      · intro same
        ext1
        funext other
        exact (same other).symm
  | cons address addresses inductionHypothesis =>
      rw [freeAll, Option.bind_eq_some_iff, List.nodup_cons,
        List.forall_mem_cons]
      constructor
      · rintro ⟨middle, freed, rest⟩
        obtain ⟨distinct, live, same⟩ := inductionHypothesis.mp rest
        have alive : ∀ other ∈ addresses, other ≠ address ∧ heap.Live other :=
          fun other isLater => (live_of_free_iff freed).mp (live other isLater)
        refine ⟨⟨fun again => (alive address again).1 rfl, distinct⟩,
          ⟨(free_eq_some_iff.mp freed).1, fun other isLater =>
            (alive other isLater).2⟩, ?_⟩
        intro other
        rw [same, read_of_free freed]
        by_cases isLater : other ∈ addresses <;> simp [isLater]
      · rintro ⟨⟨once, distinct⟩, ⟨live, rest⟩, same⟩
        have freed := free_eq_some_iff.mpr ⟨live, rfl⟩
        refine ⟨_, freed, inductionHypothesis.mpr ⟨distinct, ?_, ?_⟩⟩
        · intro other isLater
          exact (live_of_free_iff freed).mpr
            ⟨ne_of_mem_of_not_mem isLater once, rest other isLater⟩
        · intro other
          rw [same, read_of_free freed]
          by_cases isLater : other ∈ addresses <;> simp [isLater]

end Operations

end Heap
end LinuxCPractice
