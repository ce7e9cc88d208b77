import LinuxCPractice.ForkPipe.Arguments
import LinuxCPractice.Heap

/-!
# What `dealloc_all` frees

The vector and the words of the copied arguments are blocks of a heap. The loop
of `dealloc_all` takes its bound from `argc`, which is known from the start, and
its entries from the vector, which is there only later. A call before the vector
is allocated reads through a null pointer, and every later one frees just what
`calloc` has given out.
-/

namespace LinuxCPractice
namespace ForkPipe

/-- What a block from `calloc` holds. -/
inductive Cells
  | pointers (entries : List (Option Block))
  | chars (word : List UInt8)
  deriving DecidableEq

/-- The globals that `dealloc_all` reads, the heap and the calls of `free`. -/
structure Memory where
  argcDup : Nat
  argsDup : Option Block
  heap : Heap Block Cells
  freed : List Block

namespace Memory

/-- `args_dup[index]`. There is no result where the access is outside a live
object. -/
def entry (memory : Memory) (index : Nat) : Option (Option Block) :=
  memory.argsDup.bind fun pointer =>
    match memory.heap.read pointer with
    | some (.pointers entries) => entries[index]?
    | some (.chars _) | none => none

/-- A block is freed, which is undefined unless it is allocated. -/
def free (memory : Memory) (block : Block) : Option Memory :=
  (memory.heap.free block).map fun heap =>
    { memory with heap := heap, freed := memory.freed ++ [block] }

/-- One round of the loop. -/
def freeEntry (memory : Memory) (index : Nat) : Option Memory :=
  (memory.entry index).bind fun
    | some block => memory.free block
    | none => some memory

/-- `dealloc_all`, without a result when it touches memory it must not touch. -/
def deallocAll (memory : Memory) : Option Memory :=
  ((List.range memory.argcDup).foldlM freeEntry memory).bind fun left =>
    match left.argsDup with
    | some pointer => left.free pointer
    | none => some left

end Memory

namespace Tracker

/-- The vector has `argc` entries, and those without a word yet are NULL. -/
def entries (argc : Nat) (words : List (List UInt8)) : List (Option Block) :=
  (List.range words.length).map (fun index => some (.word index)) ++
    List.replicate (argc - words.length) none

/-- The memory of the tracker, as far as `dealloc_all` goes. The tracker
allocates nothing behind `fork`, so that this is the child's copy as well. -/
def memory (tracker : Tracker) : Memory where
  argcDup := tracker.args.length
  argsDup := tracker.argsDup.map fun _ => .vector
  heap := {
    read := fun block =>
      tracker.argsDup.bind fun words =>
        match block with
        | .vector => some (.pointers (entries tracker.args.length words))
        | .word index => words[index]?.map .chars }
  freed := []

end Tracker

/-- The blocks given out by the successful calls of `calloc`: first the vector,
then the words. -/
def allocated (events : List Event) : List Block :=
  match events.count (.calloc true) with
  | 0 => []
  | words + 1 => .vector :: (List.range words).map .word

/-- Who calls `print_error_and_exit`, or `dealloc_all` and `exit`. -/
inductive Caller
  | tracker
  | child
  deriving DecidableEq

namespace World

/-- The process that leaves by a call of `print_error_and_exit` or of
`dealloc_all` in the step to come, with the status that is meant for its
exit. -/
def exitCall (world : World) : Event → Option (Caller × Int)
  | .main =>
      if world.tracker.pc = .checkArguments ∧ world.tracker.args.length < 2 then
        some (.tracker, 2)
      else none
  | .pipe none | .calloc false | .fork none => some (.tracker, 2)
  | .waitpid _ =>
      if world.tracker.childpid ≠
        (waitpid world.child world.tracker.childpid).1 then
        some (.tracker, 2)
      else some (.tracker, 0)
  | .execvp false => some (.child, 2)
  | _ => none

/-- The status a process has exited with. -/
def exitStatus (world : World) : Caller → Option Int
  | .tracker =>
      match world.tracker.ended with
      | some (.exited status) => some status
      | some .crashed | none => none
  | .child =>
      world.child.bind fun child =>
        match child.pc with
        | .ended (.exited code) => some code.toNat
        | _ => none

end World

/-! ## The loop -/

namespace Tracker

variable {argc index : Nat} {words : List (List UInt8)}

/-- The first entries of the vector point to the words. -/
theorem getElem?_entries_of_lt (isWord : index < words.length) :
    (entries argc words)[index]? = some (some (.word index)) := by
  rw [entries, List.getElem?_append_left (by simpa using isWord),
    List.getElem?_map, List.getElem?_range isWord, Option.map_some]

/-- The entries behind the words are null. -/
theorem getElem?_entries_of_le (isNull : words.length ≤ index)
    (inside : index < argc) :
    (entries argc words)[index]? = some none := by
  have behind : index - words.length < argc - words.length := by omega
  rw [entries, List.getElem?_append_right (by simpa using isNull),
    List.length_map, List.length_range, List.getElem?_replicate_of_lt behind]

end Tracker

namespace Memory

variable {argc index count : Nat} {words : List (List UInt8)}

/-- The memory with a vector of `argc` entries for these words, after `count`
rounds of the loop. -/
def afterRounds (argc : Nat) (words : List (List UInt8))
    (count : Nat) : Memory where
  argcDup := argc
  argsDup := some .vector
  heap := {
    read := fun
      | .vector => some (.pointers (Tracker.entries argc words))
      | .word index =>
          if index < count then none else words[index]?.map .chars }
  freed := (List.range (min count words.length)).map .word

/-- The memory behind `dealloc_all`. -/
def released (argc : Nat) (words : List (List UInt8)) : Memory where
  argcDup := argc
  argsDup := some .vector
  heap := .empty
  freed := (List.range words.length).map .word ++ [.vector]

/-- One more round frees one more word. -/
theorem heap_afterRounds_succ :
    (afterRounds argc words (index + 1)).heap =
      (afterRounds argc words index).heap.remove (.word index) := by
  ext1
  funext block
  rw [Heap.read_remove]
  cases block with
  | vector => rfl
  | word other =>
      change (if other < index + 1 then none
        else words[other]?.map Cells.chars) =
        if _ then none else if other < index then none
        else words[other]?.map Cells.chars
      by_cases same : other = index
      · rw [if_pos (by omega), if_pos (by rw [same])]
      · have order : other < index + 1 ↔ other < index := by omega
        have different : Block.word other ≠ .word index := by simpa using same
        simp only [order, different, if_false]

/-- A word whose round has not come can be freed. -/
theorem free_afterRounds (isWord : index < words.length) :
    (afterRounds argc words index).free (.word index) =
      some (afterRounds argc words (index + 1)) := by
  have live : (afterRounds argc words index).heap.Live (.word index) := by
    simp [Heap.Live, afterRounds, isWord]
  have first : min index words.length = index := by omega
  have second : min (index + 1) words.length = index + 1 := by omega
  rw [free, Heap.free_eq_some_iff.mpr ⟨live, rfl⟩, Option.map_some,
    ← heap_afterRounds_succ]
  simp [afterRounds, first, second, List.range_succ]

/-- A round at a null entry frees nothing. -/
theorem afterRounds_succ_of_le (isNull : words.length ≤ index) :
    afterRounds argc words (index + 1) = afterRounds argc words index := by
  have same : (afterRounds argc words (index + 1)).heap =
      (afterRounds argc words index).heap := by
    rw [heap_afterRounds_succ]
    ext1
    funext block
    rw [Heap.read_remove]
    split
    · rename_i isEntry
      simp [isEntry, afterRounds, isNull]
    · rfl
  have first : min index words.length = words.length := by omega
  have second : min (index + 1) words.length = words.length := by omega
  simp only [afterRounds, first, second] at same ⊢
  rw [same]

/-- Each round does what it should. -/
theorem freeEntry_afterRounds (words : List (List UInt8))
    (inside : index < argc) :
    (afterRounds argc words index).freeEntry index =
      some (afterRounds argc words (index + 1)) := by
  rw [freeEntry]
  by_cases isWord : index < words.length
  · have found : (afterRounds argc words index).entry index =
        some (some (.word index)) :=
      Tracker.getElem?_entries_of_lt isWord
    rw [found]
    exact free_afterRounds isWord
  · have found : (afterRounds argc words index).entry index = some none :=
      Tracker.getElem?_entries_of_le (not_lt.mp isWord) inside
    rw [found, afterRounds_succ_of_le (not_lt.mp isWord)]
    rfl

/-- The rounds up to one of them free the words up to it. -/
theorem foldlM_freeEntry (words : List (List UInt8)) (inside : count ≤ argc) :
    (List.range count).foldlM freeEntry (afterRounds argc words 0) =
      some (afterRounds argc words count) := by
  induction count with
  | zero => rfl
  | succ count inductionHypothesis =>
      rw [List.range_succ, List.foldlM_append, inductionHypothesis (by omega)]
      simp [freeEntry_afterRounds words (show count < argc by omega)]

/-- Behind the rounds the vector can be freed. -/
theorem free_vector (fits : words.length ≤ argc) :
    (afterRounds argc words argc).free .vector = some
      (released argc words) := by
  have live : (afterRounds argc words argc).heap.Live .vector := by
    simp [Heap.Live, afterRounds]
  have nothing : (afterRounds argc words argc).heap.remove .vector =
      .empty := by
    ext1
    funext block
    rw [Heap.read_remove]
    cases block with
    | vector => rfl
    | word index =>
        have short : argc ≤ index → words.length ≤ index := by omega
        simpa [afterRounds] using short
  have bound : min argc words.length = words.length := by omega
  rw [free, Heap.free_eq_some_iff.mpr ⟨live, rfl⟩, nothing]
  simp only [Option.map_some, afterRounds, released, bound]

end Memory

section Calls

variable {tracker : Tracker} {words : List (List UInt8)}

/-- The memory in front of the rounds. -/
theorem Tracker.memory_eq (vector : tracker.argsDup = some words) :
    tracker.memory = .afterRounds tracker.args.length words 0 := by
  have same : tracker.memory.heap =
      (Memory.afterRounds tracker.args.length words 0).heap := by
    ext1
    funext block
    cases block <;> simp [memory, vector, Memory.afterRounds]
  simp only [memory, vector, Memory.afterRounds] at same ⊢
  rw [same]
  simp

/-- With a vector everything is freed, first the words and then the vector. -/
theorem Tracker.deallocAll_memory (vector : tracker.argsDup = some words)
    (fits : words.length ≤ tracker.args.length) :
    tracker.memory.deallocAll = some (.released tracker.args.length words) := by
  have loop := Memory.foldlM_freeEntry words (Nat.le_refl tracker.args.length)
  rw [tracker.memory_eq vector, Memory.deallocAll]
  change ((List.range tracker.args.length).foldlM Memory.freeEntry _).bind _ = _
  rw [loop]
  exact Memory.free_vector fits

/-- Without a vector the loop reads through a null pointer, unless it has no
round. -/
theorem Tracker.deallocAll_memory_none (vector : tracker.argsDup = none) :
    tracker.memory.deallocAll = if tracker.args = [] then some tracker.memory
      else none := by
  have null : ∀ index, tracker.memory.freeEntry index = none := by
    intro index
    rw [Memory.freeEntry, Memory.entry]
    simp [memory, vector]
  cases given : tracker.args with
  | nil => simp [Memory.deallocAll, memory, given, vector]
  | cons arg args =>
      have rounds : tracker.memory.argcDup = args.length + 1 := by
        simp [memory, given]
      rw [Memory.deallocAll, rounds, List.range_succ_eq_map,
        List.foldlM_cons, null]
      rfl

end Calls

/-! ## The allocations of a run -/

/-- The end of the tracker leaves the vector. -/
theorem Tracker.Quits.argsDup {tracker next : Tracker}
    (quits : tracker.Quits next) :
    next.argsDup = tracker.argsDup := by
  obtain ⟨_, _, _, rfl⟩ := quits
  rfl

theorem Tracker.argsDup_main {tracker next : Tracker}
    (moved : tracker.main = some next) :
    next.argsDup = tracker.argsDup := by
  unfold Tracker.main at moved
  split at moved
  · split at moved <;> cases moved
    · exact (tracker.quits_printErrorAndExit _).argsDup
    · rfl
  all_goals try (split at moved)
  all_goals cases moved
  all_goals rfl

theorem Tracker.argsDup_pipe {tracker next : Tracker} {which : Pipe}
    {result : Option (Int × Int)}
    (moved : tracker.pipe which result = some next) :
    next.argsDup = tracker.argsDup := by
  cases result with
  | none =>
      cases moved
      exact (tracker.quits_printErrorAndExit _).argsDup
  | some ends =>
      simp only [Tracker.pipe] at moved
      split at moved
      · cases which <;> cases moved <;> rfl
      · cases moved

theorem Tracker.argsDup_calloc_false {tracker next : Tracker}
    (moved : tracker.calloc false = some next) :
    next.argsDup = tracker.argsDup := by
  unfold Tracker.calloc at moved
  split at moved
  · cases moved
    exact (tracker.quits_printErrorAndExit _).argsDup
  · obtain ⟨_, _, rfl⟩ := Option.map_eq_some_iff.mp moved
    exact (tracker.quits_printErrorAndExit _).argsDup
  · cases moved

theorem World.argsDup_fgetc {world next : World}
    (stepped : world.fgetc = some next) :
    next.tracker.argsDup = world.tracker.argsDup := by
  unfold World.fgetc at stepped
  (repeat' split at stepped) <;> cases stepped <;> rfl

theorem World.argsDup_fork {world next : World} {result : Option Int}
    (stepped : world.fork result = some next) :
    next.tracker.argsDup = world.tracker.argsDup := by
  unfold World.fork at stepped
  split at stepped
  · cases stepped
    exact (Tracker.quits_printErrorAndExit { world.tracker with
        childpid := -1 } .fork).argsDup
  · split at stepped <;> cases stepped
    rfl

theorem World.argsDup_mainStep {world next : World} {event : Event}
    (stepped : world.mainStep event = some next)
    (other : event ≠ .calloc true) :
    next.tracker.argsDup = world.tracker.argsDup := by
  unfold World.mainStep at stepped
  split at stepped
  · split at stepped
    · exact argsDup_fgetc stepped
    · obtain ⟨tracker, moved, rfl⟩ := Option.map_eq_some_iff.mp stepped
      exact Tracker.argsDup_main moved
    · obtain ⟨tracker, moved, rfl⟩ := Option.map_eq_some_iff.mp stepped
      exact Tracker.argsDup_pipe moved
    · rename_i succeeds
      cases succeeds with
      | true => exact absurd rfl other
      | false =>
          obtain ⟨tracker, moved, rfl⟩ := Option.map_eq_some_iff.mp stepped
          exact Tracker.argsDup_calloc_false moved
    · exact argsDup_fork stepped
    · cases stepped
  · cases stepped

theorem World.argsDup_collectZombie {world next : World} {garbage : Nat}
    (stepped : world.collectZombie garbage = some next) :
    next.tracker.argsDup = world.tracker.argsDup := by
  unfold World.collectZombie at stepped
  split at stepped
  · split at stepped <;> cases stepped <;>
      exact (world.tracker.quits_collectZombie _ _).argsDup
  · cases stepped

/-- Only a successful `calloc` changes the vector. -/
theorem World.argsDup_step {capacity : Nat} {program : Program}
    {world next : World}
    {event : Event} (stepped : world.step capacity program event = some next)
    (other : event ≠ .calloc true) :
    next.tracker.argsDup = world.tracker.argsDup := by
  unfold World.step at stepped
  split at stepped
  all_goals try exact argsDup_mainStep stepped other
  · unfold World.deliver at stepped
    split at stepped
    · obtain ⟨cause, _, rfl⟩ := Option.map_eq_some_iff.mp stepped
      rfl
    · cases stepped
  · exact argsDup_collectZombie stepped
  all_goals
    obtain ⟨child, _, moved⟩ := Option.bind_eq_some_iff.mp stepped
    try (split at moved; cases moved)
    first
      | exact congrArg Tracker.argsDup (tracker_childEvent moved)
      | exact congrArg Tracker.argsDup (tracker_jobControl moved)

/-- The first allocation is that of the vector, every later one that of a
word. -/
theorem World.argsDup_calloc {capacity : Nat} {program : Program}
    {world next : World}
    (stepped : world.step capacity program (.calloc true) = some next) :
    (world.tracker.pc = .callocVector ∧ next.tracker.argsDup = some []) ∨
      ∃ words word, world.tracker.argsDup = some words ∧
        next.tracker.argsDup = some (words ++ [word]) := by
  rw [step, mainStep] at stepped
  split at stepped
  · obtain ⟨tracker, moved, rfl⟩ := Option.map_eq_some_iff.mp stepped
    unfold Tracker.calloc at moved
    split at moved
    · rename_i pc
      cases moved
      exact .inl ⟨pc, rfl⟩
    · rename_i words _ vector
      obtain ⟨arg, _, rfl⟩ := Option.map_eq_some_iff.mp moved
      exact .inr ⟨words, _, vector, rfl⟩
    · cases moved
  · cases stepped

/-- The places of `main` before the vector is allocated. -/
def Pc.beforeVector : Pc → Bool
  | .checkArguments | .sigaction | .pipe _ | .callocVector => true
  | .callocWord | .fork | .storeChildpid _ | .closeChildRead | .closeChildWrite
  | .fgetc
  | .putchar | .fclose | .sleep | .closeParentWrite | .closeParentRead => false

/-- Behind the allocation of the vector `main` does not come back. -/
theorem Tracker.Moves.beforeVector {tracker next : Tracker}
    (moves : tracker.Moves next)
    (before : next.pc.beforeVector = true) :
    tracker.pc.beforeVector = true ∧ next.argsDup = tracker.argsDup := by
  cases moves with
  | argumentsFailed | pipeFailed | callocFailed =>
      have quits := tracker.quits_printErrorAndExit
      rw [(quits _).pc] at before
      exact ⟨before, (quits _).argsDup⟩
  | argumentsChecked pc | installed pc | writepipeOpened pc
  | readpipeOpened pc =>
      exact ⟨by rw [pc]; rfl, rfl⟩
  | wordAllocated pc =>
      simp only [pc] at before
      cases before
  | _ => cases before

/-- No event brings `main` back in front of that allocation. -/
theorem World.Moves.beforeVector {capacity : Nat} {program : Program}
    {world next : World}
    {event : Event} (moves : world.Moves capacity program event next)
    (before : next.tracker.pc.beforeVector = true) :
    world.tracker.pc.beforeVector = true ∧
      next.tracker.argsDup = world.tracker.argsDup := by
  cases moves with
  | tracker _ _ moves => exact moves.beforeVector before
  | buffered | reachedEnd | notReadable | forked => cases before
  | forkFailed =>
      have quits := Tracker.quits_printErrorAndExit { world.tracker with
          childpid := -1 } .fork
      rw [quits.pc] at before
      exact ⟨before, quits.argsDup⟩
  | collected | reaped =>
      have quits := world.tracker.quits_collectZombie
      rw [(quits _ _).pc] at before
      exact ⟨before, (quits _ _).argsDup⟩
  | stopped | continued | terminated =>
      simpa only [World.terminate, World.signal_tracker, and_true] using before
  | refilled | delivered | child | transferred | pipeBroken | received
  | readReturned =>
      exact ⟨before, rfl⟩

/-- The number of blocks the tracker has from `calloc`. -/
def Tracker.blocks (tracker : Tracker) : Nat :=
  match tracker.argsDup with
  | none => 0
  | some words => words.length + 1

section Runs

variable {capacity : Nat} {program : Program} {args : List (List UInt8)}
  {inherited : List Int}
  {events : List Event} {world : World}

theorem argsDup_of_beforeVector
    (ran : (World.step capacity program).run
      (World.start args inherited) events = some world)
    (before : world.tracker.pc.beforeVector = true) :
    world.tracker.argsDup = none := by
  revert before
  refine Machine.run_invariant (fun visited => visited.tracker.pc.beforeVector =
    true →
    visited.tracker.argsDup = none) ?_ (fun _ => rfl) ran
  intro world event next none stepped before
  obtain ⟨earlier, same⟩ := (step_moves stepped).beforeVector before
  rw [same, none earlier]

/-- As many blocks are allocated as allocations have succeeded. -/
theorem count_calloc
    (ran : (World.step capacity program).run
      (World.start args inherited) events = some world) :
    events.count (.calloc true) = world.tracker.blocks := by
  refine Machine.run_invariant_past (fun past visited =>
    past.count (.calloc true) = visited.tracker.blocks) rfl ?_ ran
  intro past world event next ranPast count stepped
  rw [List.count_append, count]
  by_cases isCalloc : event = .calloc true
  · subst isCalloc
    rw [List.count_singleton_self]
    rcases World.argsDup_calloc stepped with ⟨pc, vector⟩
      | ⟨words, word, before, after⟩
    · have none := argsDup_of_beforeVector ranPast (by rw [pc]; rfl)
      simp only [Tracker.blocks, none, vector, List.length_nil]
    · simp only [Tracker.blocks, before, after, List.length_append,
        List.length_singleton]
  · have same := World.argsDup_step stepped isCalloc
    rw [List.count_singleton, if_neg (by simpa using isCalloc)]
    simp only [Tracker.blocks, same, Nat.add_zero]

/-- The words are no more than the arguments. -/
theorem length_le_of_run {words : List (List UInt8)}
    (ran : (World.step capacity program).run
      (World.start args inherited) events = some world)
    (vector : world.tracker.argsDup = some words) :
    words.length ≤ world.tracker.args.length := by
  obtain ⟨same, place⟩ := Tracker.Copies.of_run ran
  have short : (Tracker.copied args).length ≤ args.length := by
    rw [Tracker.copied, List.length_map, List.length_tail]
    omega
  have isPrefix : words <+: Tracker.copied args := by
    have behind : world.tracker.pc.beforeVector ≠ true := by
      intro before
      rw [argsDup_of_beforeVector ran before] at vector
      cases vector
    split at place
    all_goals try
      rename_i pc
      exact absurd (by rw [pc]; rfl) behind
    · obtain ⟨found, allocated, isPrefix⟩ := place
      obtain rfl := Option.some.inj (vector.symm.trans allocated)
      exact isPrefix
    · obtain rfl := Option.some.inj (vector.symm.trans place)
      exact List.prefix_refl _
  rw [same]
  exact isPrefix.length_le.trans short

/-- The coarse `dealloc_all` of the tracker is the one on its memory. -/
theorem deallocAll_eq
    (ran : (World.step capacity program).run
      (World.start args inherited) events = some world) :
    world.tracker.deallocAll =
      world.tracker.memory.deallocAll.map fun left => left.freed.map .free := by
  cases vector : world.tracker.argsDup with
  | none =>
      simp only [Tracker.deallocAll_memory_none vector, Tracker.deallocAll,
        vector]
      split <;> rfl
  | some words =>
      rw [Tracker.deallocAll_memory vector (length_le_of_run ran vector),
        Tracker.deallocAll, vector]
      simp [Memory.released, Function.comp_def]

/-- The blocks given out by `calloc` are the live ones. -/
theorem mem_allocated_iff
    (ran : (World.step capacity program).run
      (World.start args inherited) events = some world)
    (block : Block) :
    block ∈ allocated events ↔ world.tracker.memory.heap.Live block := by
  rw [allocated, count_calloc ran]
  cases vector : world.tracker.argsDup with
  | none => simp [Tracker.blocks, vector, Heap.Live, Tracker.memory]
  | some words =>
      cases block <;> simp [Tracker.blocks, vector, Heap.Live, Tracker.memory]

end Runs

/-! ## Leaving -/

theorem Tracker.deallocAll_congr {first second : Tracker}
    (words : first.argsDup = second.argsDup)
    (args : first.args = second.args) :
    first.deallocAll = second.deallocAll := by
  rw [deallocAll, deallocAll, words, args]

/-- Leaving exits with its status exactly if `dealloc_all` is defined. -/
theorem Tracker.ended_leave_iff (tracker : Tracker) (status : Int) :
    (tracker.leave status).ended = some (.exited status) ↔
      tracker.deallocAll ≠ none := by
  unfold leave
  split <;> rename_i deallocated <;> simp [deallocated, finish]

namespace World

variable {capacity : Nat} {program : Program} {world next : World}
  {event : Event} {status : Int}

/-- The exit status of a tracker that has ended. -/
theorem exitStatus_tracker_iff {ending : Ending}
    (ended : world.tracker.ended = some ending) :
    world.exitStatus .tracker = some status ↔
      world.tracker.ended = some (.exited status) := by
  rw [exitStatus, ended]
  cases ending <;> simp

theorem mainStep_pipe {result : Option (Int × Int)}
    (stepped : world.mainStep (.pipe result) = some next) :
    ∃ which, (world.tracker.pipe which result).map
      (fun tracker => { world with tracker := tracker }) = some next := by
  generalize same : Event.pipe result = call at stepped
  unfold mainStep at stepped
  split at stepped
  · split at stepped <;> cases same
    · exact ⟨_, stepped⟩
    · cases stepped
  · cases stepped

theorem mainStep_fork {result : Option Int}
    (stepped : world.mainStep (.fork result) = some next) :
    world.tracker.pc = .fork ∧ world.fork result = some next := by
  generalize same : Event.fork result = call at stepped
  unfold mainStep at stepped
  split at stepped
  · split at stepped <;> cases same
    · rename_i pc
      exact ⟨pc, stepped⟩
    · cases stepped
  · cases stepped

/-- The tracker leaves by `leave` on the memory it has. -/
theorem exits_tracker (calls : world.exitCall event = some (.tracker, status))
    (stepped : world.step capacity program event = some next) :
    ∃ leaving : Tracker, leaving.argsDup = world.tracker.argsDup ∧
      leaving.args = world.tracker.args ∧
      next.tracker = leaving.leave status := by
  unfold exitCall at calls
  split at calls
  · split at calls <;> cases calls
    rename_i condition
    simp only [step, mainStep, condition.1, Tracker.main, condition.2, if_true,
      Option.map_some] at stepped
    split at stepped <;> cases stepped
    exact ⟨world.tracker.record (.error .arguments), rfl, rfl, rfl⟩
  · cases calls
    obtain ⟨which, moved⟩ := mainStep_pipe stepped
    cases moved
    exact ⟨world.tracker.record (.error .pipe), rfl, rfl, rfl⟩
  · cases calls
    simp only [step, mainStep] at stepped
    split at stepped
    · obtain ⟨tracker, moved, rfl⟩ := Option.map_eq_some_iff.mp stepped
      unfold Tracker.calloc at moved
      split at moved
      · cases moved
        exact ⟨world.tracker.record (.error .calloc), rfl, rfl, rfl⟩
      · obtain ⟨_, _, rfl⟩ := Option.map_eq_some_iff.mp moved
        exact ⟨world.tracker.record (.error .calloc), rfl, rfl, rfl⟩
      · cases moved
    · cases stepped
  · cases calls
    cases (mainStep_fork stepped).2
    exact ⟨{ world.tracker with childpid := -1 }.record (.error .fork), rfl,
      rfl, rfl⟩
  · rename_i garbage
    obtain ⟨ret, status', same, leaves⟩ : ∃ ret status',
        ret = (waitpid world.child world.tracker.childpid).1 ∧
          next.tracker = world.tracker.collectZombie ret status' := by
      simp only [step, collectZombie] at stepped
      split at stepped
      · split at stepped <;> cases stepped <;> rename_i result
        · exact ⟨_, _, (congrArg Prod.fst result).symm, rfl⟩
        · exact ⟨_, _, (congrArg Prod.fst result).symm, rfl⟩
      · cases stepped
    rw [leaves, Tracker.collectZombie]
    rw [← same] at calls
    split at calls <;> cases calls <;> rename_i differs
    · exact ⟨world.tracker.record (.error (.waitpid ret)), rfl, rfl, by
        rw [if_pos differs, Tracker.printErrorAndExit]⟩
    · rw [if_neg differs]
      split
      · exact ⟨world.tracker.record (.report _), rfl, rfl, rfl⟩
      · exact ⟨world.tracker, rfl, rfl, rfl⟩
  · cases calls
  · cases calls

/-- A failing `execvp` of the child, which has a complete vector. -/
theorem exits_child (calls : world.exitCall event = some (.child, status))
    (stepped : world.step capacity program event = some next) :
    world.child ≠ none ∧ next.exitStatus .child = some status := by
  unfold exitCall at calls
  split at calls
  · split at calls <;> cases calls
  · cases calls
  · cases calls
  · cases calls
  · split at calls <;> cases calls
  · cases calls
    obtain ⟨child, isChild, moved⟩ := Option.bind_eq_some_iff.mp stepped
    split at moved
    · cases moved
    · simp only [childEvent, execvp, Bool.false_eq_true, if_false] at moved
      split at moved <;> cases moved
      refine ⟨by simp [isChild], ?_⟩
      simp [exitStatus, terminate, Child.terminate]
  · cases calls

end World

section Runs

variable {capacity : Nat} {program : Program} {args : List (List UInt8)}
  {inherited : List Int}
  {past rest : List Event} {forking world : World} {child : Child}

/-- The tracker's memory is still the one that the child has got from `fork`. -/
theorem memory_eq_of_forked {pid : Int}
    (ranPast : (World.step capacity program).run
      (World.start args inherited) past =
      some forking)
    (ran : (World.step capacity program).run (World.start args inherited)
      (past ++ .fork (some pid) :: rest) = some world)
    (isChild : world.child = some child) :
    world.tracker.memory = forking.tracker.memory := by
  have forks := ran
  rw [Machine.run_append, ranPast, Option.bind_some, Machine.run_cons] at forks
  obtain ⟨after, stepped, _⟩ := Option.bind_eq_some_iff.mp forks
  obtain ⟨first, place⟩ := Tracker.Copies.of_run ranPast
  rw [(World.mainStep_fork stepped).1] at place
  rw [Tracker.memory, Tracker.memory, argsDup_of_run ran isChild,
    (Tracker.Copies.of_run ran).1, place, first]

/-- The process exits with the status that was meant exactly when `dealloc_all`
returns. -/
theorem exitStatus_iff {event : Event} {next : World} {caller : Caller}
    {status : Int}
    (ran : (World.step capacity program).run (World.start args inherited) past =
      some world)
    (calls : world.exitCall event = some (caller, status))
    (stepped : world.step capacity program event = some next) :
    next.exitStatus caller = some status ↔ world.tracker.deallocAll ≠ none := by
  cases caller with
  | tracker =>
      obtain ⟨leaving, words, given, left⟩ := World.exits_tracker calls stepped
      have ended : ∃ ending, next.tracker.ended = some ending := by
        obtain ⟨_, ending, _, quits⟩ := leaving.quits_leave status
        exact ⟨ending, by rw [left, quits]⟩
      obtain ⟨ending, ended⟩ := ended
      rw [World.exitStatus_tracker_iff ended, left, Tracker.ended_leave_iff,
        Tracker.deallocAll_congr words given]
  | child =>
      obtain ⟨launched, exited⟩ := World.exits_child calls stepped
      obtain ⟨child, isChild⟩ := Option.ne_none_iff_exists'.mp launched
      have vector := argsDup_of_run ran isChild
      simp [exited, Tracker.deallocAll, vector]

end Runs

/-- Whoever calls `dealloc_all`, and wherever, the call touches only live
memory, frees what has been allocated, each block once, and leaves with the
status that was meant, exactly when the vector has been allocated before or
`argc` is 0. -/
theorem deallocAll_frees_allocated_iff (capacity : Nat) (program : Program)
    {args : List (List UInt8)} {inherited : List Int} {events : List Event}
    {event : Event}
    {world next : World} {caller : Caller} {status : Int}
    (ran : (World.step capacity program).run
      (World.start args inherited) events = some world)
    (calls : world.exitCall event = some (caller, status))
    (stepped : world.step capacity program event = some next) :
    ((∃ left, world.tracker.memory.deallocAll = some left ∧ left.freed.Nodup ∧
        ∀ block, block ∈ left.freed ↔ block ∈ allocated events) ∧
      next.exitStatus caller = some status) ↔
        .calloc true ∈ events ∨ args = [] := by
  have same := (Tracker.Copies.of_run ran).1
  have exits := exitStatus_iff ran calls stepped
  have count := count_calloc ran
  have successful : .calloc true ∈ events ↔ world.tracker.argsDup ≠ none := by
    rw [← List.count_pos_iff, count, Tracker.blocks]
    cases world.tracker.argsDup <;> simp
  rw [exits, successful, deallocAll_eq ran, ← same]
  cases vector : world.tracker.argsDup with
  | none =>
      have none : allocated events = [] := by
        rw [allocated, count, Tracker.blocks, vector]
      rw [Tracker.deallocAll_memory_none vector, none]
      by_cases given : world.tracker.args = []
      · simp [given, Tracker.memory]
      · simp [given]
  | some words =>
      have all : allocated events =
          .vector :: (List.range words.length).map .word := by
        rw [allocated, count, Tracker.blocks, vector]
      have order :
          ((List.range words.length).map Block.word ++ [Block.vector]).Perm
          (.vector :: (List.range words.length).map .word) :=
            List.perm_append_singleton _ _
      have distinct :
          (Block.vector :: (List.range words.length).map Block.word).Nodup := by
        rw [List.nodup_cons]
        refine ⟨by simp, ?_⟩
        exact List.nodup_range.map fun _ _ same => Block.word.inj same
      rw [Tracker.deallocAll_memory vector (length_le_of_run ran vector), all]
      simp only [Option.some.injEq, exists_eq_left', Memory.released,
        order.nodup_iff, distinct,
        order.mem_iff, implies_true, and_self, ne_eq, Option.map_some,
        reduceCtorEq, not_false_eq_true, true_or]

/-- The handler that collects the child of `readFirst` frees the vector and its
one word. -/
theorem deallocAll_frees_allocated_iff_readFirst :
    ∃ world next,
      (World.step 65536 writesTwo).run (World.start [[], [108, 115]] [0, 1, 2])
        readFirst.dropLast = some world ∧
      world.step 65536 writesTwo (.waitpid 0) = some next ∧
      next.exitStatus .tracker = some 0 := by
  have reached :
      ((World.step 65536 writesTwo).run (World.start [[], [108, 115]] [0, 1, 2])
        readFirst.dropLast).map (fun world => (world.exitCall (.waitpid 0),
          (world.step 65536 writesTwo (.waitpid 0)).isSome)) =
      some (some (.tracker, 0), true) := by decide
  obtain ⟨world, ran, ends⟩ := Option.map_eq_some_iff.mp reached
  simp only [Prod.mk.injEq] at ends
  obtain ⟨next, stepped⟩ := Option.isSome_iff_exists.mp ends.2
  have frees :=
    (deallocAll_frees_allocated_iff 65536 writesTwo ran ends.1 stepped).mpr
    (.inl (by decide))
  exact ⟨world, next, ran, stepped, frees.2⟩

/-- Started without an argument the tracker crashes where it should exit with
2. -/
theorem not_deallocAll_frees_without_vector :
    ¬∀ (capacity : Nat) (program : Program) (args : List (List UInt8))
      (inherited : List Int)
      (events : List Event) (event : Event) (world next : World)
      (caller : Caller) (status : Int),
      (World.step capacity program).run (World.start args inherited) events =
        some world →
      world.exitCall event = some (caller, status) →
      world.step capacity program event = some next →
      (∃ left, world.tracker.memory.deallocAll = some left ∧ left.freed.Nodup ∧
          ∀ block, block ∈ left.freed ↔ block ∈ allocated events) ∧
        next.exitStatus caller = some status := by
  intro claimed
  have exits :=
    (claimed 65536 writesTwo [[]] [0, 1, 2] [] .main
      (.start [[]] [0, 1, 2]) _ .tracker
      2 rfl (by decide) rfl).2
  exact absurd exits (by decide)

end ForkPipe
end LinuxCPractice
