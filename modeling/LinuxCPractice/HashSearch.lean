import LinuxCPractice.Heap
import Mathlib.Data.List.AList
import Mathlib.Data.List.Nodup

/-!
# The hash table of loop counters

`main` of `hash.c`, with the lifetimes of its variables. Each declaration of a
loop counter makes an object of its own, which ends with the loop. The insertion
loop stores the address of its counter with every key, so that all entries point
at one object, and that object is gone when the lookup loop reads through them.
-/

namespace LinuxCPractice
namespace HashSearch

variable {Key : Type*} [DecidableEq Key]

/-- The table of `hcreate`, with the `data` pointer of each key. -/
structure Table (Key : Type*) where
  capacity : Nat
  entries : AList fun _ : Key => Nat

namespace Table

/-- `hsearch` with `ENTER`. A key that is there already keeps its data, and a
full table takes no new key. -/
def enter (table : Table Key) (key : Key) (data : Nat) : Option (Table Key) :=
  if key ∈ table.entries then some table
  else if table.entries.entries.length < table.capacity then
    some { table with entries := table.entries.insert key data }
  else none

/-- `hsearch` with `FIND`. -/
def find (table : Table Key) (key : Key) : Option Nat :=
  table.entries.lookup key

end Table

/-- The objects of type `int`, numbered in the order in which they come to life,
and the table. -/
structure Process (Key : Type*) where
  objects : Heap Nat Nat
  declared : Nat
  table : Table Key

/-- What is printed about a key: the key of the entry found and the number
behind its data pointer. There is no number when the object behind it is not
live. -/
structure Line (Key : Type*) where
  key : Key
  entry : Option Key
  number : Option Nat
  deriving DecidableEq

namespace Process

/-- The program before its first insertion. -/
def start (capacity : Nat) : Process Key where
  objects := .empty
  declared := 0
  table := ⟨capacity, ∅⟩

/-- A new object, whose address is `declared`. -/
def declare (process : Process Key) (value : Nat) : Process Key :=
  { process with
    objects := process.objects.store process.declared value
    declared := process.declared + 1 }

/-- The block that declares the object is left. -/
def leave (process : Process Key) (address : Nat) : Option (Process Key) :=
  (process.objects.free address).map fun objects =>
    { process with objects := objects }

/-- `i++` on the object at an address. -/
def increment (process : Process Key) (address : Nat) : Option (Process Key) :=
  (process.objects.read address).bind fun value =>
    (process.objects.write address (value + 1)).map fun objects =>
      { process with objects := objects }

/-- The insertion loop with its counter at address `i`. A full table ends the
program. -/
def insertLoop (data : List Key) (bound i : Nat) :
    Nat → Process Key → Option (Process Key)
  | 0, process => some process
  | rounds + 1, process =>
      (process.objects.read i).bind fun index =>
        if index < bound then
          data[index]?.bind fun key =>
            (process.table.enter key i).bind fun table =>
              (({ process with table := table } : Process Key).increment i).bind
                (insertLoop data bound i rounds)
        else some process

/-- `e.key = data[i]`, `FIND` and `printf`. -/
def line (process : Process Key) (key : Key) : Line Key :=
  match process.table.find key with
  | some pointer => ⟨key, some key, process.objects.read pointer⟩
  | none => ⟨key, none, some 0⟩

/-- The lookup loop with its counter at address `i`. -/
def lookupLoop (data : List Key) (bound i : Nat) :
    Nat → Process Key → Option (List (Line Key))
  | 0, _ => some []
  | rounds + 1, process =>
      (process.objects.read i).bind fun index =>
        if index < bound then
          data[index]?.bind fun key =>
            (process.increment i).bind fun next =>
              (lookupLoop data bound i rounds next).map fun lines =>
                process.line key :: lines
        else some []

/-- The insertion of the first `count` keys. -/
def insertion (data : List Key) (count : Nat) (process : Process Key) :
    Option (Process Key) :=
  (insertLoop data count process.declared count (process.declare 0)).bind
    fun entered =>
    entered.leave process.declared

/-- The lines for the keys from `low` to `high`. -/
def lookup (data : List Key) (low high : Nat) (process : Process Key) :
    Option (List (Line Key)) :=
  lookupLoop data high process.declared (high - low) (process.declare low)

end Process

/-- `main` with the bounds of its two loops: what it prints. -/
def main (data : List Key) (capacity count low high : Nat) :
    Option (List (Line Key)) :=
  (Process.insertion data count (.start capacity)).bind fun process =>
    process.lookup data low high

/-! ## The table -/

/-- The table holds these keys, all with one data pointer. -/
structure Table.Holds (table : Table Key) (keys : List Key)
    (data : Nat) : Prop where
  size : table.entries.entries.length = keys.length
  found : ∀ key, table.find key = if key ∈ keys then some data else none

/-- A new key enters the table while there is room. -/
theorem Table.Holds.enter {table : Table Key} {keys : List Key} {data : Nat}
    {key : Key}
    (holds : table.Holds keys data) (new : key ∉ keys)
    (room : keys.length < table.capacity) :
    ∃ entered, table.enter key data = some entered ∧
      entered.capacity = table.capacity ∧
      entered.Holds (keys ++ [key]) data := by
  have absent : key ∉ table.entries := by
    have none := holds.found key
    rw [if_neg new] at none
    exact AList.lookup_eq_none.mp none
  refine ⟨{ table with entries := table.entries.insert key data }, ?_, rfl,
    ?_, ?_⟩
  · rw [Table.enter, if_neg absent, if_pos (by rw [holds.size]; exact room)]
  · simp [AList.insert_of_notMem absent, holds.size]
  · intro other
    rw [Table.find]
    by_cases same : other = key
    · subst same
      simp [AList.lookup_insert]
    · rw [AList.lookup_insert_ne same]
      refine (holds.found other).trans ?_
      simp [same]

/-! ## The insertion loop -/

namespace Process

omit [DecidableEq Key] in
/-- The object at the address is incremented. -/
theorem increment_eq {process : Process Key} {address value : Nat}
    (content : process.objects.read address = some value) :
    process.increment address =
      some { process with objects := process.objects.store address (value + 1) } := by
  rw [increment, content, Option.bind_some,
    Heap.write_eq_some_iff.mpr ⟨.of_read content, rfl⟩, Option.map_some]

/-- What the loop has done when its counter stands at `index`. -/
structure Entered (data : List Key) (i index : Nat)
    (process : Process Key) : Prop where
  counter : process.objects.read i = some index
  others : ∀ address, address ≠ i → process.objects.read address = none
  holds : process.table.Holds (data.take index) i

/-- The loop enters the keys up to its bound. -/
theorem exists_insertLoop {data : List Key} {i index rounds : Nat}
    {process : Process Key}
    (distinct : data.Nodup) (entered : process.Entered data i index)
    (inside : index + rounds ≤ data.length)
    (room : index + rounds ≤ process.table.capacity) :
    ∃ final, insertLoop data (index + rounds) i rounds process = some final ∧
      final.Entered data i (index + rounds) ∧
      final.declared = process.declared := by
  induction rounds generalizing index process with
  | zero => exact ⟨process, rfl, entered, rfl⟩
  | succ rounds inductionHypothesis =>
      have before : index < data.length := by omega
      have shorter : (data.take index).length = index := by
        rw [List.length_take]
        omega
      have new : data[index] ∉ data.take index := by
        intro again
        have front := distinct.sublist (List.take_sublist (index + 1) data)
        rw [List.take_succ_eq_append_getElem before, List.nodup_append] at front
        exact front.2.2 _ again _ (List.mem_singleton_self _) rfl
      obtain ⟨table, enters, capacity, holds⟩ :=
        entered.holds.enter new (by rw [shorter]; omega)
      have next : Entered data i (index + 1)
          { process with
            table := table
            objects := process.objects.store i (index + 1) } := by
        refine ⟨Heap.read_store_self _ _ _, ?_, ?_⟩
        · intro address other
          rw [Heap.read_store_of_ne other]
          exact entered.others address other
        · rw [List.take_succ_eq_append_getElem before]
          exact holds
      have added : index + 1 + rounds = index + (rounds + 1) := by omega
      have fits : index + 1 + rounds ≤ table.capacity := by omega
      obtain ⟨final, ran, after, declared⟩ :=
        inductionHypothesis next (by omega) fits
      rw [added] at ran after
      have counter :
          ({ process with table := table } : Process Key).objects.read i =
          some index := entered.counter
      refine ⟨final, ?_, after, declared⟩
      rw [insertLoop, entered.counter, Option.bind_some, if_pos (by omega),
        List.getElem?_eq_getElem before, Option.bind_some, enters,
        Option.bind_some, increment_eq counter, Option.bind_some]
      exact ran

/-- Behind the insertion all entries point at the counter, which is gone. -/
theorem exists_insertion {data : List Key} {count capacity : Nat}
    (distinct : data.Nodup)
    (inside : count ≤ data.length) (room : count ≤ capacity) :
    ∃ process, insertion data count (.start capacity) = some process ∧
      process.objects = .empty ∧ process.declared = 1 ∧
      process.table.Holds (data.take count) 0 := by
  have entered :
      Entered data 0 0 ((start capacity : Process Key).declare 0) := by
    refine ⟨Heap.read_store_self _ _ _, fun address other => ?_,
      ⟨rfl, fun key => ?_⟩⟩
    · exact Heap.read_store_of_ne other _
    · simp [Table.find, declare, start]
  have whole : 0 + count ≤ data.length := by omega
  have fits : 0 + count ≤
      ((start capacity : Process Key).declare 0).table.capacity := by
    rw [Nat.zero_add]
    exact room
  obtain ⟨final, ran, after, declared⟩ :=
    exists_insertLoop distinct entered whole fits
  rw [Nat.zero_add] at ran after
  have freed := Heap.free_eq_some_iff.mpr ⟨.of_read after.counter, rfl⟩
  refine ⟨{ final with objects := final.objects.remove 0 }, ?_, ?_, declared,
    after.holds⟩
  · rw [insertion]
    change (insertLoop data count 0 count _).bind
      (fun entered => entered.leave 0) = _
    rw [ran, Option.bind_some, leave, freed, Option.map_some]
  · ext1
    funext address
    rw [Heap.read_remove]
    split
    · rfl
    · rename_i other
      exact after.others address other

/-- The lookup loop, when the data pointers are not those of its own counter. -/
theorem lookupLoop_eq {data keys : List Key} {i index rounds pointer : Nat}
    {process : Process Key} (holds : process.table.Holds keys pointer)
    (counter : process.objects.read i = some index)
    (gone : process.objects.read pointer = none)
    (inside : index + rounds ≤ data.length) :
    lookupLoop data (index + rounds) i rounds process =
      some (((data.zipIdx.drop index).take rounds).map fun (key, _) =>
        if key ∈ keys then ⟨key, some key, none⟩ else ⟨key, none, some 0⟩) := by
  induction rounds generalizing index process with
  | zero => simp [lookupLoop]
  | succ rounds inductionHypothesis =>
      have before : index < data.length := by omega
      have different : pointer ≠ i := by
        intro same
        rw [same, counter] at gone
        cases gone
      have added : index + 1 + rounds = index + (rounds + 1) := by omega
      have front : (data.zipIdx.drop index).take (rounds + 1) =
          (data[index], index) ::
            (data.zipIdx.drop (index + 1)).take rounds := by
        rw [List.drop_eq_getElem_cons (by simpa using before),
          List.take_succ_cons, List.getElem_zipIdx, Nat.zero_add]
      have rest := @inductionHypothesis (index + 1)
        { process with objects := process.objects.store i (index + 1) } holds
        (Heap.read_store_self _ _ _)
        (by rw [Heap.read_store_of_ne different, gone]) (by omega)
      rw [added] at rest
      rw [lookupLoop, counter, Option.bind_some, if_pos (by omega),
        List.getElem?_eq_getElem before, Option.bind_some, increment_eq counter,
        Option.bind_some,
        rest, Option.map_some, front, List.map_cons, line, holds.found]
      by_cases isEntered : data[index] ∈ keys
      · simp [isEntered, gone]
      · simp [isEntered]

end Process

/-! ## What is printed -/

/-- The line for the key at an index of the data: its index if it has been
inserted, and otherwise that there is no entry. -/
def properLine (count : Nat) : Key × Nat → Line Key
  | (key, index) => if index < count then ⟨key, some key, some index⟩
        else ⟨key, none, some 0⟩

/-- The lookups from `low` to `high` print these lines. -/
def PrintsIndices (data : List Key) (capacity count low high : Nat) : Prop :=
  main data capacity count low high =
    some (((data.zipIdx.drop low).take (high - low)).map (properLine count))

instance (data : List Key) (capacity count low high : Nat) :
    Decidable (PrintsIndices data capacity count low high) :=
  inferInstanceAs (Decidable (_ = _))

omit [DecidableEq Key] in
/-- A key and its index are in the slice of the data between two bounds. -/
theorem mem_slice_iff {data : List Key} {key : Key} {index low count : Nat} :
    (key, index) ∈ (data.zipIdx.drop low).take count ↔
      data[index]? = some key ∧ low ≤ index ∧ index < low + count := by
  rw [List.mem_iff_getElem?]
  constructor
  · rintro ⟨place, found⟩
    rw [List.getElem?_take] at found
    split at found
    · rw [List.getElem?_drop, List.getElem?_zipIdx] at found
      obtain ⟨other, isOther, same⟩ := Option.map_eq_some_iff.mp found
      simp only [Prod.mk.injEq, Nat.zero_add] at same
      obtain ⟨rfl, rfl⟩ := same
      exact ⟨isOther, by omega, by omega⟩
    · cases found
  · rintro ⟨found, lower, upper⟩
    refine ⟨index - low, ?_⟩
    rw [List.getElem?_take_of_lt (by omega), List.getElem?_drop,
      Nat.add_sub_cancel' lower, List.getElem?_zipIdx, found]
    simp

omit [DecidableEq Key] in
/-- Among distinct keys the place of a key tells whether it is one of the
first. -/
theorem mem_take_iff {data : List Key} {key : Key} {index count : Nat}
    (distinct : data.Nodup)
    (found : data[index]? = some key) :
    key ∈ data.take count ↔ index < count := by
  obtain ⟨inside, rfl⟩ := List.getElem?_eq_some_iff.mp found
  rw [List.mem_take_iff_getElem]
  constructor
  · rintro ⟨other, before, same⟩
    have place := (distinct.getElem_inj_iff).mp same
    omega
  · intro before
    exact ⟨index, by omega, rfl⟩

/-- What `main` prints. An inserted key is found, but there is no live object
behind its data pointer. -/
theorem main_eq {data : List Key} {capacity count low high : Nat}
    (distinct : data.Nodup)
    (inside : count ≤ data.length) (room : count ≤ capacity)
    (upper : high ≤ data.length) :
    main data capacity count low high =
      some (((data.zipIdx.drop low).take (high - low)).map fun (key, index) =>
        if index < count then ⟨key, some key, none⟩
        else ⟨key, none, some 0⟩) := by
  obtain ⟨process, inserted, objects, declared, holds⟩ :=
    Process.exists_insertion distinct inside room
  rw [main, inserted, Option.bind_some, Process.lookup, declared]
  by_cases order : low ≤ high
  · have whole : low + (high - low) = high := by omega
    have counter : (process.declare low).objects.read 1 = some low := by
      rw [Process.declare, declared]
      exact Heap.read_store_self _ _ _
    have gone : (process.declare low).objects.read 0 = none := by
      rw [Process.declare, declared, objects]
      rfl
    have known : (process.declare low).table.Holds (data.take count) 0 := holds
    have lines :=
      Process.lookupLoop_eq known counter gone (by rw [whole]; exact upper)
    rw [whole] at lines
    rw [lines]
    congr 1
    apply List.map_congr_left
    intro ⟨key, index⟩ isLine
    simp only [mem_take_iff distinct (mem_slice_iff.mp isLine).1]
  · have none : high - low = 0 := by omega
    simp [none, Process.lookupLoop]

/-- The lookups print the indices of the inserted keys, and NULL for the other
ones, exactly when no inserted key is among those looked up. -/
theorem printsIndices_iff {data : List Key} {capacity count low high : Nat}
    (distinct : data.Nodup) (inside : count ≤ data.length)
    (room : count ≤ capacity)
    (upper : high ≤ data.length) :
    PrintsIndices data capacity count low high ↔ count ≤ low ∨ high ≤ low := by
  rw [PrintsIndices, main_eq distinct inside room upper, Option.some_inj,
    List.map_inj_left]
  constructor
  · intro proper
    by_contra inserted
    have before : low < data.length := by omega
    have isLine : (data[low], low) ∈ (data.zipIdx.drop low).take (high - low) :=
      mem_slice_iff.mpr ⟨List.getElem?_eq_getElem before, Nat.le_refl low,
        by omega⟩
    have same := proper _ isLine
    have isInserted : low < count := by omega
    simp [properLine, isInserted] at same
  · intro notInserted ⟨key, index⟩ isLine
    obtain ⟨_, lower, upper⟩ := mem_slice_iff.mp isLine
    have isOther : ¬index < count := by omega
    simp [properLine, isOther]

/-- A key that was not inserted is not found. -/
theorem printsIndices_iff_second : PrintsIndices [[97], [98, 99]] 30 1 1 2 :=
  (printsIndices_iff (by decide) (by decide) (by decide) (by decide)).mpr
    (.inl (by decide))

/-- The entry of the only key inserted points at a counter that is gone. -/
theorem not_printsIndices_of_inserted :
    ¬∀ (data : List (List UInt8)) (capacity count low high : Nat), data.Nodup →
      count ≤ data.length → count ≤ capacity → high ≤ data.length →
      PrintsIndices data capacity count low high := by
  intro claimed
  exact absurd (claimed [[97]] 30 1 0 1 (by decide) (by decide) (by decide)
    (by decide))
    (by decide)

end HashSearch
end LinuxCPractice
