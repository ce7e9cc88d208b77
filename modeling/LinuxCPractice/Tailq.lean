import LinuxCPractice.TailQueue

/-!
# Traversals of a tail queue

`main` in `tailq.c`. It builds a queue with the insertion and removal macros,
numbers its entries from the front, prints the numbers from the back and frees
the entries. The numbers come from an `int`, which cannot count any further
behind 2147483647.
-/

namespace LinuxCPractice
namespace Tailq

open TailQueue Memory

variable {Address : Type} [DecidableEq Address]

/-! ## Building a queue -/

/-- The operations with which a queue is built. A `malloc` comes with the
address and the content that it happens to return. -/
inductive Operation (Address : Type)
  | malloc (elm : Address) (content : Entry Address Int)
  | insertHead (elm : Address)
  | insertTail (elm : Address)
  | insertAfter (listelm elm : Address)
  | insertBefore (listelm elm : Address)
  | remove (elm : Address)
  | free (elm : Address)

/-- What an operation does to the memory. There is no result when it is
undefined. -/
def perform (memory : Memory Address Int) :
    Operation Address → Option (Memory Address Int)
  | .malloc elm content =>
      if memory.entries.read elm = none then
        some { memory with entries := memory.entries.store elm content }
      else none
  | .insertHead elm => tailqInsertHead memory elm
  | .insertTail elm => tailqInsertTail memory elm
  | .insertAfter listelm elm => tailqInsertAfter memory listelm elm
  | .insertBefore listelm elm => tailqInsertBefore memory listelm elm
  | .remove elm => tailqRemove memory elm
  | .free elm => (memory.entries.free elm).map fun entries =>
      { memory with entries := entries }

/-- What an operation makes of a queue when it is used as it should be: an entry
is inserted when it is allocated and not in the queue, next to one that is in
the queue, and only an entry of the queue is removed and none of them freed. -/
inductive Effect (memory : Memory Address Int) :
    Operation Address → List Address → List Address → Prop
  | malloc {elm : Address} {content : Entry Address Int} {nodes : List Address}
      (unused : memory.entries.read elm = none) :
        Effect memory (.malloc elm content) nodes nodes
  | insertHead {elm : Address} {nodes : List Address}
      (live : memory.entries.Live elm)
      (apart : elm ∉ nodes) :
        Effect memory (.insertHead elm) nodes (elm :: nodes)
  | insertTail {elm : Address} {nodes : List Address}
      (live : memory.entries.Live elm)
      (apart : elm ∉ nodes) :
        Effect memory (.insertTail elm) nodes (nodes ++ [elm])
  | insertAfter {listelm elm : Address} {before after : List Address}
      (live : memory.entries.Live elm)
      (apart : elm ∉ before ++ listelm :: after) :
      Effect memory (.insertAfter listelm elm) (before ++ listelm :: after)
        (before ++ listelm :: elm :: after)
  | insertBefore {listelm elm : Address} {before after : List Address}
      (live : memory.entries.Live elm)
      (apart : elm ∉ before ++ listelm :: after) :
      Effect memory (.insertBefore listelm elm) (before ++ listelm :: after)
        (before ++ elm :: listelm :: after)
  | remove {elm : Address} {before after : List Address} :
      Effect memory (.remove elm) (before ++ elm :: after) (before ++ after)
  | free {elm : Address} {nodes : List Address} (live : memory.entries.Live elm)
      (apart : elm ∉ nodes) : Effect memory (.free elm) nodes nodes

/-- The queues that are well-formed, as the one of `TAILQ_INIT` is, and those
that the operations make of them. -/
inductive Built : Memory Address Int → List Address → Prop
  | wellFormed {memory : Memory Address Int} {nodes : List Address}
      (queue : memory.IsQueue nodes) : Built memory nodes
  | perform {memory written : Memory Address Int} {nodes left : List Address}
      {operation : Operation Address} (built : Built memory nodes)
      (effect : Effect memory operation nodes left)
      (performed : perform memory operation = some written) : Built written left

section Building

variable {memory written : Memory Address Int} {nodes left : List Address}
  {elm : Address}

omit [DecidableEq Address] in
/-- A place to insert at is not beside the entry itself. -/
theorem apart_of_notMem {before after : List Address}
    (apart : elm ∉ before ++ after) :
    after.head? ≠ some elm :=
  fun same => apart (List.mem_append_right _ (List.mem_of_head? same))

omit [DecidableEq Address] in
/-- The allocation and the release of another entry do not touch the queue. -/
theorem isQueue_of_read (queue : memory.IsQueue nodes) (apart : elm ∉ nodes)
    {entries : Heap Address (Entry Address Int)}
    (same : ∀ other, other ≠ elm →
      entries.read other = memory.entries.read other) :
    ({ memory with entries := entries } : Memory Address Int).IsQueue
      nodes := by
  refine queue.congr fun member inside => ?_
  cases member with
  | none => exact ⟨rfl, rfl⟩
  | some node =>
      have unchanged := same node fun isElm => apart (isElm ▸ inside node rfl)
      simp [Memory.load, Memory.back, Link.of, unchanged]

/-- Each operation that is used as it should be comes to its end and keeps the
queue well-formed. -/
theorem exists_perform {operation : Operation Address}
    (queue : memory.IsQueue nodes)
    (effect : Effect memory operation nodes left) :
    ∃ written, perform memory operation = some written ∧
      written.IsQueue left := by
  cases effect with
  | @malloc elm content _ unused =>
      refine ⟨_, by rw [perform, if_pos unused],
        isQueue_of_read queue (fun inside => ?_)
        fun other different => Heap.read_store_of_ne different content⟩
      exact queue.live inside unused
  | @insertHead elm _ live apart =>
      have whole : memory.IsQueue ([] ++ nodes) := queue
      have apartWhole : elm ∉ [] ++ nodes := apart
      obtain ⟨written, performed, inserted⟩ :=
        exists_tailqInsertHead live (apart_of_notMem apartWhole) whole.edge rfl
      exact ⟨written, performed, whole.insert apartWhole inserted⟩
  | @insertTail elm _ live apart =>
      have whole : memory.IsQueue (nodes ++ []) := by simpa using queue
      obtain ⟨written, performed, inserted⟩ :=
        exists_tailqInsertTail live (by simp) whole.edge rfl
      exact ⟨written, performed, whole.insert (by simpa using apart) inserted⟩
  | @insertAfter listelm elm before after live apart =>
      have behind : memory.IsQueue ((before ++ [listelm]) ++ after) := by
        simpa using queue
      have apartBehind : elm ∉ (before ++ [listelm]) ++ after := by
        simpa using apart
      obtain ⟨written, performed, inserted⟩ := exists_tailqInsertAfter live
        (apart_of_notMem apartBehind) behind.edge List.getLast?_concat
      exact ⟨written, performed,
        by simpa using behind.insert apartBehind inserted⟩
  | @insertBefore listelm elm before after live apart =>
      obtain ⟨written, performed, inserted⟩ :=
        exists_tailqInsertBefore live (apart_of_notMem apart) queue.edge rfl
      exact ⟨written, performed, queue.insert apart inserted⟩
  | @remove elm before after =>
      have behind : memory.IsQueue ((before ++ [elm]) ++ after) := by
        simpa using queue
      have fromElm := behind.edge
      rw [List.getLast?_concat] at fromElm
      obtain ⟨written, performed, removed⟩ :=
        exists_tailqRemove queue.edge fromElm
      exact ⟨written, performed, queue.remove removed⟩
  | @free elm _ live apart =>
      have freed := Heap.free_eq_some_iff.mpr ⟨live, rfl⟩
      refine ⟨_, by rw [perform, freed, Option.map_some],
        isQueue_of_read queue apart ?_⟩
      intro other different
      rw [Heap.read_of_free freed, if_neg different]

/-- The queue that has been built. -/
theorem Built.isQueue (built : Built memory nodes) : memory.IsQueue nodes := by
  induction built with
  | wellFormed queue => exact queue
  | perform _ effect performed inductionHypothesis =>
      obtain ⟨written, alsoPerformed, queue⟩ :=
        exists_perform inductionHypothesis effect
      rw [performed] at alsoPerformed
      cases alsoPerformed
      exact queue

end Building

/-! ## The traversals -/

/-- `i++`, which has no result when `i` is `INT_MAX`. -/
def increment (i : Int) : Option Int := if i < 2147483647 then some (i + 1)
    else none

/-- The loop `TAILQ_FOREACH` around `np->data = i++`. -/
def storeIndices : Nat → Memory Address Int → Option Address → Int →
      Option (Memory Address Int)
  | 0, _, _, _ => none
  | _ + 1, memory, none, _ => some memory
  | fuel + 1, memory, some np, i => do
      let memory ← memory.modify np fun content => { content with data := i }
      let i ← increment i
      let next ← memory.load (.next np)
      storeIndices fuel memory next i

/-- The loop `TAILQ_FOREACH_REVERSE` around `printf("%i\n", np->data)`, with the
numbers that it prints. -/
def printReverse (memory : Memory Address Int) :
    Nat → Option Address → Option (List Int)
  | 0, _ => none
  | _ + 1, none => some []
  | fuel + 1, some np => do
      let content ← memory.entries.read np
      let previous ← tailqPrev memory (.next np)
      let printed ← printReverse memory fuel previous
      some (content.data :: printed)

/-- The loop that frees the entries, with the addresses in the order in which it
frees them. -/
def deleteAll : Nat → Memory Address Int → Option Address →
    Option (List Address × Memory Address Int)
  | 0, _, _ => none
  | _ + 1, memory, none => some ([], memory)
  | fuel + 1, memory, some n1 => do
      let n2 ← memory.load (.next n1)
      let entries ← memory.entries.free n1
      let (freed, left) ← deleteAll fuel { memory with entries := entries } n2
      some (n1 :: freed, left)

/-- The memory behind each of the loops, what the second one prints and what the
third one frees. -/
structure Outcome (Address : Type) where
  numbered : Memory Address Int
  printed : List Int
  freed : List Address
  final : Memory Address Int

/-- `main` behind the building of the queue, each loop with at most `fuel`
rounds. -/
def traverse (fuel : Nat) (memory : Memory Address Int) :
    Option (Outcome Address) := do
  let numbered ← storeIndices fuel memory memory.tqh_first 0
  let last ← tailqPrev numbered .head
  let printed ← printReverse numbered fuel last
  let (freed, left) ← deleteAll fuel numbered numbered.tqh_first
  some ⟨numbered, printed, freed, tailqInit left⟩

/-- The number of an entry. -/
def data (memory : Memory Address Int) (np : Address) : Option Int :=
  (memory.entries.read np).map Entry.data

/-- The entries are numbered from the front, the numbers printed from the back,
and each entry, but nothing else, is freed once. -/
structure Outcome.Correct (outcome : Outcome Address)
    (memory : Memory Address Int)
    (nodes : List Address) : Prop where
  numbered : nodes.map (data outcome.numbered) =
    (List.range nodes.length).map fun index : Nat => some (index : Int)
  printed : outcome.printed = ((List.range nodes.length).map Int.ofNat).reverse
  freed : outcome.freed = nodes ∧ nodes.Nodup
  live : ∀ np, outcome.final.entries.Live np ↔
    memory.entries.Live np ∧ np ∉ nodes
  empty : outcome.final.IsQueue []

section Traversal

variable {memory : Memory Address Int} {nodes : List Address}

/-! ### Numbering -/

/-- What the numbering of some entries from `i` on changes. -/
structure Numbered (memory : Memory Address Int) (nodes : List Address)
    (i : Int)
    (numbered : Memory Address Int) : Prop where
  load : numbered.load = memory.load
  back : numbered.back = memory.back
  numbers : nodes.map (data numbered) =
    (List.range nodes.length).map fun index : Nat => some (i + index)
  others : ∀ np ∉ nodes, data numbered np = data memory np

/-- A live entry can be numbered. -/
theorem exists_numbered {np : Address} (live : memory.entries.Live np)
    (i : Int) :
    ∃ numbered, (memory.modify np fun content => { content with data := i }) =
      some numbered ∧
      Numbered memory [np] i numbered := by
  obtain ⟨content, read⟩ := live.exists_read
  refine ⟨_, by rw [Memory.modify, read, Option.map_some], ?_, ?_,
    by simp [data], ?_⟩
  · funext link
    rw [load_store]
    split
    · rename_i same
      rw [same, Memory.load, read, Option.map_some]
    · rfl
  · funext link
    rw [back_store]
    split
    · rename_i same
      rw [same, Memory.back, read, Option.map_some]
    · rfl
  · intro other different
    rw [data, Heap.read_store_of_ne (by simpa using different)]
    rfl

/-- Below `INT_MAX` the counter can be incremented. -/
theorem increment_of_lt {i : Int} (small : i < 2147483647) :
    increment i = some (i + 1) :=
  if_pos small

/-- The entries of a queue get the numbers from `i` on. -/
theorem storeIndices_eq {fuel : Nat} {i : Int} (forward : memory.Forward nodes)
    (distinct : nodes.Nodup) (fits : i + nodes.length ≤ 2147483647)
    (enough : nodes.length < fuel) :
    ∃ numbered, storeIndices fuel memory nodes.head? i = some numbered ∧
      Numbered memory nodes i numbered := by
  induction nodes generalizing memory fuel i with
  | nil =>
      obtain ⟨fuel, rfl⟩ := Nat.exists_eq_add_one.mpr enough
      exact ⟨memory, rfl, rfl, rfl, rfl, fun _ _ => rfl⟩
  | cons np rest inductionHypothesis =>
      obtain ⟨fuel, rfl⟩ := Nat.exists_eq_add_one.mpr (Nat.zero_lt_of_lt enough)
      rw [List.length_cons] at fits enough
      obtain ⟨apart, distinctRest⟩ := List.nodup_cons.mp distinct
      have live : memory.entries.Live np :=
        live_next_iff.mpr (by rw [forward.1]; exact Option.some_ne_none _)
      obtain ⟨middle, modified, first⟩ := exists_numbered live i
      have forwardRest : middle.Forward rest :=
        forward.2.congr fun node _ => congrFun first.load _
      have fitsRest : i + 1 + rest.length ≤ 2147483647 := by
        push_cast at fits; omega
      obtain ⟨numbered, stored, later⟩ :=
        inductionHypothesis forwardRest distinctRest fitsRest
          (Nat.lt_of_succ_lt_succ enough)
      have small : i < 2147483647 := by push_cast at fits; omega
      have next : middle.load (.next np) = some rest.head? := by
        rw [first.load, forward.1]
      have own : data numbered np = some i := by
        rw [later.others np apart]
        simpa using first.numbers
      refine ⟨numbered, ?_, later.load.trans first.load,
        later.back.trans first.back, ?_, ?_⟩
      · simp [storeIndices, modified, increment_of_lt small, next, stored]
      · rw [List.map_cons, own, later.numbers, List.length_cons,
          List.range_succ_eq_map]
        simp only [List.map_cons, List.map_map, Int.natCast_zero, Int.add_zero,
          List.cons.injEq, true_and]
        refine List.map_congr_left fun index _ => congrArg some ?_
        rw [Int.natCast_succ, Int.add_assoc, Int.add_comm 1]
      · intro other outside
        obtain ⟨different, outsideRest⟩ :=
          not_or.mp (mt List.mem_cons.mpr outside)
        rw [later.others other outsideRest,
          first.others other (by simpa using different)]

/-- Behind `INT_MAX` there is no number left. -/
theorem storeIndices_eq_none {fuel : Nat} {i : Int}
    (forward : memory.Forward nodes)
    (possible : i ≤ 2147483647) (exceeds : 2147483647 < i + nodes.length) :
    storeIndices fuel memory nodes.head? i = none := by
  induction nodes generalizing memory fuel i with
  | nil => simp at exceeds; omega
  | cons np rest inductionHypothesis =>
      cases fuel with
      | zero => rfl
      | succ fuel =>
          have live : memory.entries.Live np :=
            live_next_iff.mpr (by rw [forward.1]; exact Option.some_ne_none _)
          obtain ⟨middle, modified, first⟩ := exists_numbered live i
          have next : middle.load (.next np) = some rest.head? := by
            rw [first.load, forward.1]
          have forwardRest : middle.Forward rest :=
            forward.2.congr fun node _ => congrFun first.load _
          by_cases last : i = 2147483647
          · simp [storeIndices, increment, last]
          · have small : i < 2147483647 := by omega
            have later : storeIndices fuel middle rest.head? (i + 1) = none :=
              inductionHypothesis forwardRest (by omega)
                (by rw [List.length_cons] at exceeds; push_cast at exceeds; omega)
            simp [storeIndices, modified, increment_of_lt small, next, later]

/-! ### Printing -/

omit [DecidableEq Address] in
/-- The entries in front of a place are printed from the place to the front. -/
theorem printReverse_eq {before after : List Address} {fuel : Nat}
    (queue : memory.IsQueue (before ++ after)) (enough : before.length < fuel) :
    ∃ printed, printReverse memory fuel before.getLast? = some printed ∧
      printed.map some = (before.map (data memory)).reverse := by
  induction before using List.reverseRecOn generalizing after fuel with
  | nil =>
      obtain ⟨fuel, rfl⟩ := Nat.exists_eq_add_one.mpr enough
      exact ⟨[], rfl, rfl⟩
  | append_singleton front np inductionHypothesis =>
      obtain ⟨fuel, rfl⟩ := Nat.exists_eq_add_one.mpr (Nat.zero_lt_of_lt enough)
      rw [List.length_append, List.length_singleton] at enough
      have split : memory.IsQueue (front ++ np :: after) := by simpa using queue
      have live := split.live (List.mem_append_right _ List.mem_cons_self)
      obtain ⟨content, read⟩ := live.exists_read
      obtain ⟨printed, later, numbers⟩ :=
        inductionHypothesis split (Nat.lt_of_succ_lt_succ enough)
      have previous : tailqPrev memory (.next np) = some front.getLast? :=
        split.tailqPrev_eq
      refine ⟨content.data :: printed, ?_, ?_⟩
      · simp [printReverse, read, previous, later]
      · simp [numbers, data, read]

/-! ### Freeing -/

/-- The loop frees the entries as a list of objects, each when its link has been
read. -/
theorem deleteAll_eq {fuel : Nat} (forward : memory.Forward nodes)
    (distinct : nodes.Nodup)
    (enough : nodes.length < fuel) :
    deleteAll fuel memory nodes.head? =
      (memory.entries.freeAll nodes).map fun entries =>
        (nodes, { memory with entries := entries }) := by
  induction nodes generalizing memory fuel with
  | nil =>
      obtain ⟨fuel, rfl⟩ := Nat.exists_eq_add_one.mpr enough
      rfl
  | cons n1 rest inductionHypothesis =>
      obtain ⟨fuel, rfl⟩ := Nat.exists_eq_add_one.mpr (Nat.zero_lt_of_lt enough)
      obtain ⟨apart, distinctRest⟩ := List.nodup_cons.mp distinct
      have live : memory.entries.Live n1 :=
        live_next_iff.mpr (by rw [forward.1]; exact Option.some_ne_none _)
      have freed := Heap.free_eq_some_iff.mpr ⟨live, rfl⟩
      have forwardRest : ({ memory with entries := memory.entries.remove n1 } :
          Memory Address Int).Forward rest := by
        refine forward.2.congr fun node inside => ?_
        rw [Memory.load, Memory.load, Heap.read_of_free freed,
          if_neg (ne_of_mem_of_not_mem inside apart)]
      have later := inductionHypothesis forwardRest distinctRest
        (Nat.lt_of_succ_lt_succ enough)
      rw [Heap.freeAll, freed]
      simp only [List.head?_cons, deleteAll, forward.1, freed, later,
        Option.bind_eq_bind, Option.bind_some]
      cases (memory.entries.remove n1).freeAll rest <;> rfl

/-! ### The three loops -/

omit [DecidableEq Address] in
/-- Numbering changes no link. -/
theorem Numbered.isQueue {i : Int} {numbered : Memory Address Int}
    (numbering : Numbered memory nodes i numbered)
    (queue : memory.IsQueue nodes) :
    numbered.IsQueue nodes :=
  queue.congr fun _ _ => ⟨congrFun numbering.load _, congrFun numbering.back _⟩

/-- The loops do their work on every queue whose entries an `int` can count. -/
theorem traverse_correct (built : Built memory nodes)
    (fits : nodes.length ≤ 2147483647)
    {fuel : Nat} (enough : nodes.length < fuel) :
    ∃ outcome, traverse fuel memory = some outcome ∧
      outcome.Correct memory nodes := by
  have queue := built.isQueue
  obtain ⟨numbered, stored, numbering⟩ :=
    storeIndices_eq queue.forward queue.distinct
      (by omega : (0 : Int) + nodes.length ≤ _) enough
  have numberedQueue := numbering.isQueue queue
  have last : tailqPrev numbered .head = some nodes.getLast? := by
    have whole : numbered.IsQueue (nodes ++ []) := by simpa using numberedQueue
    exact whole.tailqPrev_eq
  obtain ⟨printed, prints, numbers⟩ :=
    printReverse_eq
      (by simpa using numberedQueue : numbered.IsQueue (nodes ++ [])) enough
  let left : Heap Address (Entry Address Int) :=
    ⟨fun np => if np ∈ nodes then none else numbered.entries.read np⟩
  have freed : numbered.entries.freeAll nodes = some left :=
    Heap.freeAll_eq_some_iff.mpr
      ⟨queue.distinct, fun np inside => numberedQueue.live inside, fun _ => rfl⟩
  have deleted := deleteAll_eq numberedQueue.forward queue.distinct enough
  rw [freed, Option.map_some] at deleted
  refine ⟨⟨numbered, printed, nodes,
    tailqInit { numbered with entries := left }⟩, ?_, ?_, ?_,
    ⟨rfl, queue.distinct⟩, ?_, isQueue_tailqInit _⟩
  · simp [traverse, queue.tqh_first_eq, stored, last, prints,
      numberedQueue.tqh_first_eq, deleted]
  · simpa using numbering.numbers
  · apply List.map_injective_iff.mpr (Option.some_injective Int)
    rw [numbers, numbering.numbers, List.map_reverse, List.map_map]
    simp [Function.comp_def]
  · intro np
    have same : numbered.entries.Live np ↔ memory.entries.Live np := by
      rw [live_next_iff, live_next_iff, numbering.load]
    rw [← same]
    by_cases inside : np ∈ nodes <;> simp [left, tailqInit, Heap.Live, inside]

/-- On a longer queue the numbers run out. -/
theorem traverse_eq_none (queue : memory.IsQueue nodes)
    (exceeds : 2147483647 < nodes.length)
    (fuel : Nat) : traverse fuel memory = none := by
  have numbering : storeIndices fuel memory nodes.head? 0 = none :=
    storeIndices_eq_none queue.forward (by decide) (by omega)
  rw [traverse, queue.tqh_first_eq, numbering]
  rfl

end Traversal

/-! ## Queues of any length -/

/-- An entry as it may come from `malloc`. -/
def blank : Entry Nat Int := ⟨0, none, .head⟩

/-- The queue before its first operation. -/
def start : Memory Nat Int := tailqInit ⟨none, .head, Heap.empty⟩

/-- Entries can be allocated and inserted at the head without end. -/
theorem exists_built (count : Nat) :
    ∃ (memory : Memory Nat Int) (nodes : List Nat), Built memory nodes ∧
      nodes.length = count ∧
      (∀ elm ∈ nodes, elm < count) ∧ ∀ elm, memory.entries.Live elm →
      elm < count := by
  induction count with
  | zero =>
      exact ⟨start, [], .wellFormed (isQueue_tailqInit _), rfl, by simp,
        by simp [start, tailqInit, Heap.Live]⟩
  | succ count inductionHypothesis =>
      obtain ⟨memory, nodes, built, length, small, below⟩ := inductionHypothesis
      have unused : memory.entries.read count = none :=
        Heap.not_live_iff.mp fun live => Nat.lt_irrefl _ (below count live)
      let larger : Memory Nat Int :=
        { memory with entries := memory.entries.store count blank }
      have allocated : perform memory (.malloc count blank) = some larger :=
        if_pos unused
      have builtNext := Built.perform built (.malloc unused) allocated
      have live : larger.Live (.next count) :=
        Heap.live_store_iff.mpr (.inl rfl)
      have apart : count ∉ [] ++ nodes := fun inside =>
        Nat.lt_irrefl _ (small count inside)
      have whole : larger.IsQueue ([] ++ nodes) := builtNext.isQueue
      obtain ⟨written, inserted, inserting⟩ :=
        exists_tailqInsertHead live (apart_of_notMem apart) whole.edge rfl
      refine ⟨written, count :: nodes,
        .perform builtNext (.insertHead live apart) inserted,
        by rw [List.length_cons, length], ?_, fun elm isLive => ?_⟩
      · exact List.forall_mem_cons.mpr ⟨Nat.lt_succ_self _,
          fun elm inside => Nat.lt_succ_of_lt (small elm inside)⟩
      · rcases Heap.live_store_iff.mp ((inserting.live (.next elm)).mp isLive)
          with rfl | isOld
        · exact Nat.lt_succ_self _
        · exact Nat.lt_succ_of_lt (below elm isOld)

/-- A queue of 2147483648 entries can be built, but not be numbered. -/
theorem not_traverse_correct :
    ¬∀ (memory : Memory Nat Int) (nodes : List Nat), Built memory nodes →
      ∃ fuel outcome, traverse fuel memory = some outcome ∧
        outcome.Correct memory nodes := by
  intro claimed
  obtain ⟨memory, nodes, built, length, _⟩ := exists_built 2147483648
  obtain ⟨fuel, outcome, traversed, _⟩ := claimed memory nodes built
  rw [traverse_eq_none built.isQueue (by omega) fuel] at traversed
  cases traversed

/-! ## The queue of the program -/

/-- How `main` builds its queue. -/
def building : List (Operation Nat) :=
  [.malloc 1 blank, .insertHead 1, .malloc 2 blank, .insertTail 2,
    .malloc 3 blank,
    .insertAfter 2 3, .malloc 4 blank, .insertBefore 3 4, .remove 3, .free 3]

/-- A queue of three entries, from which a fourth has been removed. -/
theorem traverse_correct_building :
    ∃ memory, building.foldlM perform start = some memory ∧
      ∃ outcome, traverse 4 memory = some outcome ∧
        outcome.Correct memory [1, 2, 4] := by
  have built : ∃ memory ∈ building.foldlM perform start,
    memory.IsQueue [1, 2, 4] := by decide
  obtain ⟨memory, made, queue⟩ := built
  exact ⟨memory, made, traverse_correct (.wellFormed queue) (by decide)
    (by decide)⟩

end Tailq
end LinuxCPractice
