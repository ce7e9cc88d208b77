import LinuxCPractice.ForkPipe.Ends
import LinuxCPractice.ForkPipe.Launch
import Mathlib.Data.List.TakeDrop

/-!
# What the child hands to `execvp`

The tracker copies its arguments word by word into a zeroed vector of `argc`
entries, each word into a block of `WORDS_SIZE` bytes. So the vector has as many
words as there are arguments and ends with a NULL, but a word keeps no more than
the first bytes of a long argument.
-/

namespace LinuxCPractice
namespace ForkPipe

/-! ## The vector -/

namespace Tracker

/-- The entries of `args_dup`: the words, and NULL where `calloc` has left
it. -/
def vector (tracker : Tracker) : List (Option (List UInt8)) :=
  match tracker.argsDup with
  | none => []
  | some words =>
      words.map some ++ List.replicate (tracker.args.length - words.length) none

/-- The first entry of the vector. -/
def binFile (tracker : Tracker) : Option (List UInt8) :=
  tracker.vector.head?.join

/-- What `strncpy` makes of the arguments. -/
def copied (args : List (List UInt8)) : List (List UInt8) :=
  args.tail.map (List.take (wordsSize - 1))

/-- How far the tracker has come with the vector, by the place of `main`. -/
def Copies (args : List (List UInt8)) (tracker : Tracker) : Prop :=
  tracker.args = args ∧
    match tracker.pc with
    | .checkArguments | .sigaction | .pipe _ | .callocVector => True
    | .callocWord =>
        ∃ words, tracker.argsDup = some words ∧ words <+: copied args
    | _ => tracker.argsDup = some (copied args)

end Tracker

/-- In front of `execvp` the child's copy of the vector holds the arguments of
the tracker, and a NULL behind them. The tracker does not write to the vector
behind `fork`, so that its own stands for the copy. -/
def World.HandsOver (args : List (List UInt8)) (world : World) : Prop :=
  ∀ child, world.child = some child → child.pc = .execvp →
    world.tracker.binFile = args[1]? ∧
    world.tracker.vector = args.tail.map some ++ [none]

/-! ## The copy -/

/-- The copies are the arguments exactly if each of them fits. -/
theorem Tracker.copied_eq_tail_iff {args : List (List UInt8)} :
    copied args = args.tail ↔ ∀ arg ∈ args.tail, arg.length < wordsSize := by
  have identity : copied args = args.tail ↔
      args.tail.map (List.take (wordsSize - 1)) = args.tail.map id := by
    rw [List.map_id, copied]
  rw [identity, List.map_inj_left]
  apply forall₂_congr
  intro arg _
  rw [id, List.take_eq_self_iff, wordsSize]
  omega

/-- The program that is executed is the first argument. -/
theorem Tracker.binFile_of_vector {args : List (List UInt8)} {tracker : Tracker}
    (vector : tracker.vector = args.tail.map some ++ [none]) :
    tracker.binFile = args[1]? := by
  rw [binFile, vector]
  match args with
  | [] | [_] | _ :: _ :: _ => rfl

/-- The next word continues the copy. -/
theorem Tracker.concat_prefix_copied {args words : List (List UInt8)}
    {arg : List UInt8}
    (isPrefix : words <+: copied args)
    (isNext : args[words.length + 1]? = some arg) :
    words ++ [arg.take (wordsSize - 1)] <+: copied args := by
  have found :
      (copied args)[words.length]? = some (arg.take (wordsSize - 1)) := by
    rw [copied, List.getElem?_map, List.getElem?_tail, isNext, Option.map_some]
  have whole : (copied args).take (words.length + 1) =
      words ++ [arg.take (wordsSize - 1)] := by
    rw [List.take_add_one, found, ← List.prefix_iff_eq_take.mp isPrefix,
      Option.toList_some]
  rw [← whole]
  exact List.take_prefix _ _

/-- The end of the tracker changes no copy. -/
theorem Tracker.Copies.quits {args : List (List UInt8)} {tracker next : Tracker}
    (copies : tracker.Copies args) (quits : tracker.Quits next) :
    next.Copies args := by
  obtain ⟨_, _, _, rfl⟩ := quits
  exact copies

/-- The tracker copies its arguments in their order. -/
theorem Tracker.Moves.copies {args : List (List UInt8)} {tracker next : Tracker}
    (moves : tracker.Moves next) (copies : tracker.Copies args) :
    next.Copies args := by
  cases moves with
  | argumentsFailed | pipeFailed | callocFailed =>
      exact copies.quits (tracker.quits_printErrorAndExit _)
  | argumentsChecked | installed | writepipeOpened | readpipeOpened =>
      exact ⟨copies.1, trivial⟩
  | vectorAllocated => exact ⟨copies.1, [], rfl, List.nil_prefix⟩
  | @wordAllocated words arg pc allocated isNext =>
      simp only [Tracker.Copies, pc, allocated, Option.some.injEq,
        exists_eq_left'] at copies ⊢
      refine ⟨copies.1, Tracker.concat_prefix_copied copies.2 ?_⟩
      rw [← copies.1]
      exact isNext
  | wordsAllocated pc all =>
      simp only [Tracker.Copies, pc] at copies
      obtain ⟨same, words, allocated, isPrefix⟩ := copies
      have long : (Tracker.copied args).length ≤ words.length := by
        rw [same, allocated, Option.getD_some] at all
        rw [Tracker.copied, List.length_map, List.length_tail]
        omega
      exact ⟨same,
        allocated.trans (congrArg some (isPrefix.eq_of_length_le long))⟩
  | stored pc | closedChildRead pc | closedChildWrite pc | put pc
  | closedStream pc | slept pc
  | closedParentWrite pc | returned pc =>
      simp only [Tracker.Copies, pc] at copies
      exact copies

/-- No event changes the copies but the tracker. -/
theorem World.Moves.copies {args : List (List UInt8)} {capacity : Nat}
    {program : Program}
    {world next : World} {event : Event}
    (moves : world.Moves capacity program event next)
    (copies : world.tracker.Copies args) : next.tracker.Copies args := by
  cases moves with
  | tracker _ _ moves => exact moves.copies copies
  | buffered _ pc | reachedEnd _ pc | notReadable _ pc | forked _ pc =>
      simp only [Tracker.Copies, pc] at copies
      exact copies
  | forkFailed =>
      have renamed :
          Tracker.Copies args { world.tracker with childpid := -1 } := copies
      exact renamed.quits (Tracker.quits_printErrorAndExit _ _)
  | collected | reaped =>
      exact copies.quits (world.tracker.quits_collectZombie _ _)
  | stopped | continued | terminated =>
      simpa only [World.terminate, World.signal_tracker] using copies
  | refilled | delivered | child | transferred | pipeBroken | received
  | readReturned =>
      exact copies

/-! ## Runs -/

section Runs

variable {capacity : Nat} {program : Program} {args : List (List UInt8)}
  {inherited : List Int}
  {events : List Event} {world : World}

/-- In every run the tracker holds copies of its arguments. -/
theorem Tracker.Copies.of_run
    (ran : (World.step capacity program).run
      (World.start args inherited) events = some world) :
    world.tracker.Copies args :=
  Machine.run_invariant (fun visited => visited.tracker.Copies args)
    (fun _ _ _ copies stepped => (step_moves stepped).copies copies)
    ⟨rfl, trivial⟩ ran

/-- While there is a child, all words are copied. -/
theorem argsDup_of_run {child : Child}
    (ran : (World.step capacity program).run
      (World.start args inherited) events = some world)
    (isChild : world.child = some child) :
    world.tracker.argsDup = some (Tracker.copied args) := by
  have forked : world.tracker.pc.beforeFork ≠ true := by
    intro before
    have none := (run_invariant ran).launched.mpr before
    rw [isChild] at none
    cases none
  obtain ⟨_, place⟩ := Tracker.Copies.of_run ran
  split at place
  all_goals first
    | exact place
    | simp_all [Pc.beforeFork]

/-- While there is a child, the vector is the complete copy. -/
theorem vector_of_run {child : Child}
    (ran : (World.step capacity program).run
      (World.start args inherited) events = some world)
    (isChild : world.child = some child) (given : args ≠ []) :
    world.tracker.vector = (Tracker.copied args).map some ++ [none] := by
  have same := (Tracker.Copies.of_run ran).1
  have allocated := argsDup_of_run ran isChild
  have left : args.length - (Tracker.copied args).length = 1 := by
    have positive := List.length_pos_iff.mpr given
    rw [Tracker.copied, List.length_map, List.length_tail]
    omega
  rw [Tracker.vector, allocated, same]
  simp only [left, List.replicate_one]

/-- The words are handed over unchanged when none of them is too long for its
block. -/
theorem handsOver_iff {child : Child}
    (ran : (World.step capacity program).run
      (World.start args inherited) events = some world)
    (isChild : world.child = some child) (pc : child.pc = .execvp)
    (given : args ≠ []) :
    world.HandsOver args ↔ ∀ arg ∈ args.tail,
      arg.length < Tracker.wordsSize := by
  have vector := vector_of_run ran isChild given
  rw [← Tracker.copied_eq_tail_iff]
  constructor
  · intro handsOver
    have same := (handsOver child isChild pc).2
    rw [vector, List.append_left_inj] at same
    exact (List.map_injective_iff.mpr (Option.some_injective _)) same
  · intro same other _ _
    rw [same] at vector
    exact ⟨Tracker.binFile_of_vector vector, vector⟩

/-- Every child gets the arguments as they are exactly when each of them fits
into its block with a NUL. -/
theorem handsOver_iff_short (capacity : Nat) (program : Program)
    {args : List (List UInt8)}
    (given : 2 ≤ args.length) (inherited : List Int) :
    (∀ events world,
      (World.step capacity program).run (World.start args inherited) events =
        some world →
        world.HandsOver args) ↔ ∀ arg ∈ args.tail,
          arg.length < Tracker.wordsSize := by
  have nonempty : args ≠ [] := List.ne_nil_of_length_pos (by omega)
  constructor
  · intro handsOver
    obtain ⟨world, child, ⟨events, ran⟩, isChild, pc⟩ :=
      exists_run_to_execvp capacity program inherited given
    exact (handsOver_iff ran isChild pc nonempty).mp
      (handsOver events world ran)
  · intro short events world ran child isChild pc
    exact (handsOver_iff ran isChild pc nonempty).mpr short child isChild pc

end Runs

/-- The program `ls` without arguments. -/
theorem handsOver_iff_short_ls :
    ∃ world, (World.step 65536 writesTwo).run
      (World.start [[], [108, 115]] [0, 1, 2])
        launched.dropLast = some world ∧
      world.child.map Child.pc = some .execvp ∧
      world.HandsOver [[], [108, 115]] := by
  have reached :
      ((World.step 65536 writesTwo).run (World.start [[], [108, 115]] [0, 1, 2])
        launched.dropLast).map (fun world => world.child.map Child.pc) =
      some (some .execvp) := by decide
  obtain ⟨world, ran, pc⟩ := Option.map_eq_some_iff.mp reached
  have handsOver :=
    (handsOver_iff_short 65536 writesTwo (by decide) [0, 1, 2]).mpr
      (by decide) _ world ran
  exact ⟨world, ran, pc, handsOver⟩

/-- An argument of 32 bytes loses its last one. -/
theorem not_handsOver_of_long :
    ¬∀ (capacity : Nat) (program : Program) (args : List (List UInt8))
      (inherited : List Int)
      (events : List Event) (world : World), 2 ≤ args.length →
      (World.step capacity program).run (World.start args inherited) events =
        some world →
      world.HandsOver args := by
  intro claimed
  have reached : ((World.step 65536 writesTwo).run
      (World.start [[], List.replicate 32 97] [0, 1, 2]) launched.dropLast).map
        (fun world => (world.child.map Child.pc, world.tracker.vector)) =
      some (some .execvp, [some (List.replicate 31 97), none]) := by decide
  obtain ⟨world, ran, ends⟩ := Option.map_eq_some_iff.mp reached
  simp only [Prod.mk.injEq] at ends
  obtain ⟨child, isChild, pc⟩ := Option.map_eq_some_iff.mp ends.1
  have complete := (claimed _ _ _ _ _ world (by decide) ran child isChild pc).2
  rw [ends.2] at complete
  exact absurd complete (by decide)

end ForkPipe
end LinuxCPractice
