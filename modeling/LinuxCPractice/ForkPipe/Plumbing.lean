import LinuxCPractice.ForkPipe.Ends
import LinuxCPractice.ForkPipe.Launch

/-!
# The plumbing of the child

The descriptors of both processes that refer to a pipe, place by place. `pipe`
gives out the lowest free numbers, so that the numbers of the pipe ends depend
on what the tracker has inherited. The child redirects its standard input and
output as intended exactly when the tracker has inherited an open descriptor 0:
else the read end of `writepipe` is descriptor 0 already, `dup2` does nothing
and the following `close` takes the standard input away.
-/

namespace LinuxCPractice
namespace ForkPipe

open DescriptorTable

/-- The ends of both pipes. -/
def pipeEnds : Set File := {file | file ≠ .other}

namespace Tracker

/-! ## The intended plumbing -/

/-- The end of the first pipe that the child reads. -/
def childReadEnd (tracker : Tracker) : Int × File :=
  (tracker.childRead, .readEnd .writepipe)
/-- The end of the first pipe that the tracker writes. -/
def parentWriteEnd (tracker : Tracker) : Int × File :=
  (tracker.parentWrite, .writeEnd .writepipe)
/-- The end of the second pipe that the tracker reads. -/
def parentReadEnd (tracker : Tracker) : Int × File :=
  (tracker.parentRead, .readEnd .readpipe)
/-- The end of the second pipe that the child writes. -/
def childWriteEnd (tracker : Tracker) : Int × File :=
  (tracker.childWrite, .writeEnd .readpipe)

@[simp] theorem childReadEnd_fst (tracker : Tracker) :
    tracker.childReadEnd.1 = tracker.childRead := rfl

@[simp] theorem parentWriteEnd_fst (tracker : Tracker) :
    tracker.parentWriteEnd.1 = tracker.parentWrite := rfl

@[simp] theorem parentReadEnd_fst (tracker : Tracker) :
    tracker.parentReadEnd.1 = tracker.parentRead := rfl

@[simp] theorem childWriteEnd_fst (tracker : Tracker) :
    tracker.childWriteEnd.1 = tracker.childWrite := rfl

/-- The tracker holds its two ends and no other. -/
def Plumbed (tracker : Tracker) : Prop :=
  tracker.descriptors.within pipeEnds =
    {tracker.parentWriteEnd, tracker.parentReadEnd}

end Tracker

/-- The child holds its two ends as standard input and output and no other. -/
def Child.Plumbed (child : Child) : Prop :=
  child.descriptors.within pipeEnds =
    {(0, .readEnd .writepipe), (1, .writeEnd .readpipe)}

/-- The child is plumbed in front of `execvp` and the tracker in
`read_from_pipe`. -/
def World.Plumbed (world : World) : Prop :=
  (∀ child, world.child = some child → child.pc = .execvp → child.Plumbed) ∧
    (world.tracker.ended = none → world.tracker.pc = .fgetc →
      world.tracker.Plumbed)

/-! ## The ends by place -/

/-- What is known of the numbers `pipe` gives for the ends of the two pipes. -/
structure Assignment (inherited : List Int)
    (childRead parentWrite parentRead childWrite : Int) :
    Prop where
  ownWrite : parentWrite ≠ childRead
  ownRead : childWrite ≠ parentRead
  laterRead : parentRead ≠ childRead ∧ parentRead ≠ parentWrite
  laterWrite : childWrite ≠ childRead ∧ childWrite ≠ parentWrite
  standard : childWrite ≠ 0 ∧ childWrite ≠ 1
  stdin : childRead = 0 ↔ 0 ∉ inherited

/-- The numbers the tracker has stored. -/
abbrev Tracker.Assigned (inherited : List Int) (tracker : Tracker) : Prop :=
  Assignment inherited tracker.childRead tracker.parentWrite tracker.parentRead
    tracker.childWrite

/-- The ends the tracker holds, by the place of `main`. -/
def Tracker.Holds (inherited : List Int) (tracker : Tracker) : Prop :=
  match tracker.pc with
  | .checkArguments | .sigaction | .pipe .writepipe =>
      tracker.descriptors.within pipeEnds = ∅ ∧ (0 ∈ tracker.descriptors ↔
        0 ∈ inherited)
  | .pipe .readpipe =>
      tracker.descriptors.within pipeEnds =
        {tracker.parentWriteEnd, tracker.childReadEnd} ∧
        tracker.parentWrite ≠ tracker.childRead ∧
        (tracker.childRead = 0 ↔ 0 ∉ inherited) ∧
        0 ∈ tracker.descriptors ∧ 1 ∈ tracker.descriptors
  | .callocVector | .callocWord | .fork | .storeChildpid _ | .closeChildRead =>
      tracker.descriptors.within pipeEnds =
          {tracker.childWriteEnd, tracker.parentReadEnd, tracker.parentWriteEnd,
            tracker.childReadEnd} ∧
        tracker.Assigned inherited
  | .closeChildWrite =>
      tracker.descriptors.within pipeEnds =
          {tracker.childWriteEnd, tracker.parentReadEnd,
            tracker.parentWriteEnd} ∧
        tracker.Assigned inherited
  | .fgetc | .putchar | .fclose =>
      tracker.Plumbed ∧ tracker.Assigned inherited
  | .sleep | .closeParentWrite =>
      tracker.descriptors.within pipeEnds = {tracker.parentWriteEnd}
  | .closeParentRead => tracker.descriptors.within pipeEnds = ∅

/-- The ends the child holds, by its place. -/
def Child.Holds (tracker : Tracker) (child : Child) : Prop :=
  match child.pc with
  | .closeParentWrite =>
      child.descriptors.within pipeEnds =
        {tracker.childWriteEnd, tracker.parentReadEnd, tracker.parentWriteEnd,
          tracker.childReadEnd}
  | .closeParentRead =>
      child.descriptors.within pipeEnds =
        {tracker.childWriteEnd, tracker.parentReadEnd, tracker.childReadEnd}
  | .dupChildRead =>
      child.descriptors.within pipeEnds =
        {tracker.childWriteEnd, tracker.childReadEnd}
  | .closeChildRead =>
      child.descriptors.within pipeEnds =
        {(0, .readEnd .writepipe), tracker.childWriteEnd, tracker.childReadEnd}
  | .dupChildWrite =>
      child.descriptors.within pipeEnds =
        insert tracker.childWriteEnd
          (without {(0, .readEnd .writepipe)} tracker.childRead)
  | .closeChildWrite =>
      child.descriptors.within pipeEnds =
        insert (1, .writeEnd .readpipe) (insert tracker.childWriteEnd
          (without {(0, .readEnd .writepipe)} tracker.childRead))
  | .execvp =>
      child.descriptors.within pipeEnds =
        insert (1, .writeEnd .readpipe)
          (without {(0, .readEnd .writepipe)} tracker.childRead)
  | .running | .reading | .writing _ | .ended _ => True

/-! ## The tracker alone -/

/-- Both ends of `writepipe` and the numbers 0 and 1 are open when `readpipe` is
created. -/
theorem Assignment.of_lowest {inherited : List Int} {table : Table}
    {childRead parentWrite readFd writeFd : Int}
    (lowestRead : table.Lowest readFd)
    (lowestWrite : Lowest (table.insert readFd (.readEnd .readpipe)) writeFd)
    (own : parentWrite ≠ childRead) (stdin : childRead = 0 ↔ 0 ∉ inherited)
    (readOpen : childRead ∈ table) (writeOpen : parentWrite ∈ table)
    (zero : (0 : Int) ∈ table) (one : (1 : Int) ∈ table) :
    Assignment inherited childRead parentWrite readFd writeFd := by
  have freeRead := lowestRead.2.1
  have freeWrite := lowestWrite.2.1
  rw [AList.mem_insert, not_or] at freeWrite
  have readDiffers : ∀ fd ∈ table, readFd ≠ fd := fun fd opened same =>
    freeRead (same ▸ opened)
  have writeDiffers : ∀ fd ∈ table, writeFd ≠ fd :=
    fun fd opened same => freeWrite.2 (same ▸ opened)
  exact
    { ownWrite := own
      ownRead := freeWrite.1
      laterRead := ⟨readDiffers _ readOpen, readDiffers _ writeOpen⟩
      laterWrite := ⟨writeDiffers _ readOpen, writeDiffers _ writeOpen⟩
      standard := ⟨writeDiffers _ zero, writeDiffers _ one⟩
      stdin := stdin }

/-- At the start the tracker holds no end. -/
theorem Tracker.holds_start (args : List (List UInt8)) (inherited : List Int) :
    (start args inherited).Holds inherited :=
  ⟨within_ofList (by simp [pipeEnds]) inherited, mem_ofList_iff⟩

/-- The tracker holds the ends that its place requires. -/
theorem Tracker.Moves.holds {inherited : List Int} {tracker next : Tracker}
    (moves : tracker.Moves next) (holds : tracker.Holds inherited)
    (alive : next.ended = none) :
    next.Holds inherited := by
  cases moves with
  | argumentsFailed | pipeFailed | callocFailed =>
      exact absurd alive (tracker.quits_printErrorAndExit _).ended
  | argumentsChecked pc | installed pc | put pc | slept pc =>
      simp only [Tracker.Holds, pc] at holds
      exact holds
  | @writepipeOpened readFd writeFd pc lowestRead lowestWrite =>
      simp only [Tracker.Holds, pc] at holds
      obtain ⟨empty, stdin⟩ := holds
      have freeWrite := lowestWrite.2.1
      rw [AList.mem_insert, not_or] at freeWrite
      have filled := Lowest.mem_insert lowestWrite (.writeEnd .writepipe)
        (Lowest.mem_insert lowestRead (.readEnd .writepipe)
          fun number below => absurd below (Nat.not_lt_zero number))
      refine ⟨?_, freeWrite.1, ?_, filled 0 (by decide), filled 1 (by decide)⟩
      · refine (within_insert_of_notMem
          (by simp [pipeEnds]) lowestWrite.2.1).trans ?_
        rw [within_insert_of_notMem (by simp [pipeEnds]) lowestRead.2.1, empty,
          insert_empty_eq]
        rfl
      · rw [← stdin]
        constructor
        · rintro rfl
          exact lowestRead.2.1
        · intro closed
          exact le_antisymm
            (Lowest.le_of_notMem lowestRead le_rfl closed) lowestRead.1
  | @readpipeOpened readFd writeFd pc lowestRead lowestWrite =>
      simp only [Tracker.Holds, pc] at holds
      obtain ⟨ends, different, stdin, zero, one⟩ := holds
      have readOpen : tracker.childReadEnd.1 ∈ tracker.descriptors :=
        mem_of_mem_within (by rw [ends]; exact .inr rfl)
      have writeOpen : tracker.parentWriteEnd.1 ∈ tracker.descriptors :=
        mem_of_mem_within (by rw [ends]; exact .inl rfl)
      refine ⟨?_,
        Assignment.of_lowest lowestRead lowestWrite different stdin readOpen
          writeOpen zero one⟩
      refine (within_insert_of_notMem
        (by simp [pipeEnds]) lowestWrite.2.1).trans ?_
      rw [within_insert_of_notMem (by simp [pipeEnds]) lowestRead.2.1, ends]
      rfl
  | vectorAllocated pc | wordAllocated pc | wordsAllocated pc | stored pc =>
      simp only [Tracker.Holds, pc] at holds ⊢
      exact holds
  | closedChildRead pc =>
      simp only [Tracker.Holds, pc] at holds
      obtain ⟨ends, assigned⟩ := holds
      refine ⟨?_, assigned⟩
      show within (tracker.descriptors.erase tracker.childRead) pipeEnds =
        {tracker.childWriteEnd, tracker.parentReadEnd, tracker.parentWriteEnd}
      rw [within_erase, ends]
      simp [without_insert, without_singleton, assigned.ownWrite,
        assigned.laterRead.1, assigned.laterWrite.1]
  | closedChildWrite pc =>
      simp only [Tracker.Holds, pc] at holds
      obtain ⟨ends, assigned⟩ := holds
      refine ⟨?_, assigned⟩
      show within (tracker.descriptors.erase tracker.childWrite) pipeEnds =
        {tracker.parentWriteEnd, tracker.parentReadEnd}
      rw [within_erase, ends]
      simp [without_insert, without_singleton, assigned.ownRead.symm,
        assigned.laterWrite.2.symm, Set.pair_comm]
  | closedStream pc =>
      simp only [Tracker.Holds, pc] at holds
      obtain ⟨plumbed, assigned⟩ := holds
      show within (tracker.descriptors.erase tracker.parentRead) pipeEnds =
        {tracker.parentWriteEnd}
      rw [within_erase, plumbed]
      simp [without_insert, without_singleton, assigned.laterRead.2.symm]
  | closedParentWrite pc =>
      simp only [Tracker.Holds, pc] at holds
      refine (within_erase _ _ _).trans ?_
      rw [holds]
      simp [without_singleton]
  | returned => cases alive

/-! ## The child alone -/

/-- The child holds the ends that its place requires. -/
theorem Child.Moves.holds {inherited : List Int} {program : Program}
    {tracker : Tracker}
    {child next : Child} (moves : child.Moves program tracker next)
    (assigned : tracker.Assigned inherited)
    (holds : child.Holds tracker) : next.Holds tracker := by
  cases moves with
  | closedParentWrite pc =>
      simp only [Child.Holds, pc] at holds
      show within (child.descriptors.erase tracker.parentWrite) pipeEnds =
        {tracker.childWriteEnd, tracker.parentReadEnd, tracker.childReadEnd}
      rw [within_erase, holds]
      simp [without_insert, without_singleton, assigned.ownWrite.symm,
        assigned.laterRead.2, assigned.laterWrite.2]
  | closedParentRead pc =>
      simp only [Child.Holds, pc] at holds
      show within (child.descriptors.erase tracker.parentRead) pipeEnds =
        {tracker.childWriteEnd, tracker.childReadEnd}
      rw [within_erase, holds]
      simp [without_insert, without_singleton, assigned.laterRead.1.symm,
        assigned.ownRead]
  | dupedChildRead pc =>
      simp only [Child.Holds, pc] at holds
      have opened :
          tracker.childReadEnd ∈ child.descriptors.within pipeEnds := by
        rw [holds]
        exact .inr rfl
      refine (within_dup2 opened ?_).trans (by rw [holds])
      rw [holds]
      rintro entry (rfl | rfl) zero
      · exact absurd zero assigned.standard.1
      · rfl
  | closedChildRead pc =>
      simp only [Child.Holds, pc] at holds
      show within (child.descriptors.erase tracker.childRead) pipeEnds =
        insert tracker.childWriteEnd
          (without {(0, .readEnd .writepipe)} tracker.childRead)
      rw [within_erase, holds, Set.insert_comm, Set.pair_comm]
      simp [without_insert, assigned.laterWrite.1]
  | dupedChildWrite pc =>
      simp only [Child.Holds, pc] at holds
      have opened :
          tracker.childWriteEnd ∈ child.descriptors.within pipeEnds := by
        rw [holds]
        exact .inl rfl
      refine (within_dup2 opened ?_).trans (by rw [holds])
      rw [holds]
      rintro entry (rfl | ⟨rfl, _⟩) one
      · rfl
      · cases one
  | closedChildWrite pc =>
      simp only [Child.Holds, pc] at holds
      have elsewhere :
          without (without {(0, File.readEnd .writepipe)} tracker.childRead)
          tracker.childWrite =
            without {(0, .readEnd .writepipe)} tracker.childRead := by
        apply without_eq_self
        rintro entry ⟨rfl, _⟩
        exact assigned.standard.1.symm
      refine (within_erase _ _ _).trans ?_
      rw [holds, Set.insert_comm, without_insert, without_insert, elsewhere]
      simp [assigned.standard.2.symm]
  | started | reads | writes | wrote | writeFailed | closedStdin
  | closedStdout =>
      trivial

/-- The child comes to `execvp` as intended when descriptor 0 was open
before. -/
theorem Child.Holds.plumbed_iff {inherited : List Int} {tracker : Tracker}
    {child : Child}
    (holds : child.Holds tracker)
    (assigned : tracker.Assigned inherited)
    (pc : child.pc = .execvp) : child.Plumbed ↔ 0 ∈ inherited := by
  simp only [Child.Holds, pc] at holds
  rw [Child.Plumbed, holds, without_singleton]
  constructor
  · intro plumbed
    by_contra closed
    have same : 0 = tracker.childRead := (assigned.stdin.mpr closed).symm
    rw [if_pos same, insert_empty_eq] at plumbed
    have lost : ((0 : Int), File.readEnd .writepipe) ∈
        ({(1, .writeEnd .readpipe)} : Set (Int × File)) := by
      rw [plumbed]
      exact .inl rfl
    cases lost
  · intro opened
    have differs : 0 ≠ tracker.childRead := fun same =>
      assigned.stdin.mp same.symm opened
    rw [if_neg differs, Set.pair_comm]

/-! ## Both processes -/

theorem Tracker.Assigned.congr {inherited : List Int} {tracker next : Tracker}
    (assigned : tracker.Assigned inherited)
    (writepipe : next.writepipe = tracker.writepipe)
    (readpipe : next.readpipe = tracker.readpipe) :
    next.Assigned inherited := by
  unfold Assigned childRead parentWrite parentRead childWrite at *
  rwa [writepipe, readpipe]

/-- The child's part needs only the numbers of the tracker. -/
theorem Child.Holds.congr {tracker next : Tracker} {child : Child}
    (holds : child.Holds tracker)
    (writepipe : next.writepipe = tracker.writepipe)
    (readpipe : next.readpipe = tracker.readpipe) : child.Holds next := by
  unfold Child.Holds Tracker.childReadEnd Tracker.parentWriteEnd
    Tracker.parentReadEnd
    Tracker.childWriteEnd Tracker.childRead Tracker.parentWrite
      Tracker.parentRead
    Tracker.childWrite at *
  rwa [writepipe, readpipe]

/-- What holds of both processes in every reachable state. -/
structure World.Holding (inherited : List Int) (world : World) : Prop where
  assigned : world.child ≠ none →
    world.tracker.Assigned inherited
  tracker : world.tracker.ended = none → world.tracker.Holds inherited
  child : ∀ child, world.child = some child → child.Holds world.tracker

namespace World.Holding

variable {inherited : List Int} {world next : World}

theorem start (args : List (List UInt8)) (inherited : List Int) :
    (World.start args inherited).Holding inherited where
  assigned present := absurd rfl present
  tracker _ := Tracker.holds_start args inherited
  child := nofun

/-- The tracker changes while its numbers stay. -/
theorem setTracker (holding : world.Holding inherited) {tracker : Tracker}
    (numbers : world.child ≠ none →
      tracker.writepipe = world.tracker.writepipe ∧
      tracker.readpipe = world.tracker.readpipe)
    (holds : tracker.ended = none → tracker.Holds inherited)
    (content : Pipe → List UInt8)
    (pending : Option Cause) :
    Holding inherited
      { tracker := tracker, child := world.child, content := content,
        pending := pending }
    where
  assigned present :=
    (holding.assigned present).congr (numbers present).1 (numbers present).2
  tracker := holds
  child child isChild := by
    have same := numbers (by simp_all)
    exact (holding.child child isChild).congr same.1 same.2

/-- The child changes. -/
theorem setChild (holding : world.Holding inherited) {old child : Child}
    (isChild : world.child = some old)
    (holds : old.Holds world.tracker → child.Holds world.tracker)
    (content : Pipe → List UInt8) (pending : Option Cause) :
    Holding inherited
      { tracker := world.tracker, child := some child, content := content,
        pending := pending }
    where
  assigned _ := holding.assigned (by simp [isChild])
  tracker := holding.tracker
  child := by
    rintro _ ⟨⟩
    exact holds (holding.child old isChild)

/-- The tracker ends. -/
theorem quits (holding : world.Holding inherited) {tracker : Tracker}
    (quits : world.tracker.Quits tracker) :
    Holding inherited { world with tracker := tracker } := by
  refine holding.setTracker (fun _ => ?_)
    (fun alive => absurd alive quits.ended) _ _
  obtain ⟨_, _, _, rfl⟩ := quits
  exact ⟨rfl, rfl⟩

theorem signal (holding : world.Holding inherited) (cause : Cause) :
    (world.signal cause).Holding inherited := by
  unfold World.signal
  split
  · exact ⟨holding.assigned, holding.tracker, holding.child⟩
  · exact holding

end World.Holding

/-- Every event leaves the processes with the ends they should hold. -/
theorem World.Moves.holding {inherited : List Int} {capacity : Nat}
    {program : Program}
    {world next : World} {event : Event}
    (moves : world.Moves capacity program event next)
    (invariant : world.Invariant) (holding : world.Holding inherited) :
    next.Holding inherited := by
  cases moves with
  | tracker runs _ moves =>
      refine holding.setTracker ?_ (moves.holds (holding.tracker runs.1)) _ _
      intro present
      exact moves.numbers (by simpa using mt invariant.launched.mpr present)
  | buffered runs pc | reachedEnd runs pc | notReadable runs pc =>
      have holds := holding.tracker runs.1
      simp only [Tracker.Holds, pc] at holds
      apply holding.setTracker
      · exact fun _ => ⟨rfl, rfl⟩
      · exact fun _ => holds
  | refilled | delivered =>
      apply holding.setTracker
      · exact fun _ => ⟨rfl, rfl⟩
      · exact holding.tracker
  | forkFailed =>
      have renamed :
          ({ world with tracker := { world.tracker with childpid := -1 } } :
            World).Holding inherited := by
        apply holding.setTracker
        · exact fun _ => ⟨rfl, rfl⟩
        · exact holding.tracker
      exact renamed.quits (Tracker.quits_printErrorAndExit _ _)
  | forked runs pc =>
      have holds := holding.tracker runs.1
      simp only [Tracker.Holds, pc] at holds
      refine ⟨fun _ => holds.2, fun _ => holds, ?_⟩
      rintro _ ⟨⟩
      exact holds.1
  | collected => exact holding.quits (world.tracker.quits_collectZombie _ _)
  | reaped _ _ isChild =>
      refine (holding.quits (world.tracker.quits_collectZombie _ _)).setChild
        isChild ?_ _ _
      exact fun holds => holds
  | child isChild _ moves =>
      exact holding.setChild isChild
        (moves.holds (holding.assigned (by simp [isChild]))) _ _
  | @terminated _ child termination isChild =>
      apply World.Holding.signal
      apply holding.setChild isChild
      exact fun _ =>
        show (child.terminate termination).Holds world.tracker from trivial
  | transferred isChild | pipeBroken isChild | received isChild
  | readReturned isChild =>
      apply holding.setChild isChild
      exact fun _ => trivial
  | stopped isChild | continued isChild =>
      apply World.Holding.signal
      apply holding.setChild isChild
      exact fun holds => holds

/-! ## Runs -/

section Runs

variable {capacity : Nat} {program : Program} {args : List (List UInt8)}
  {inherited : List Int}
  {events : List Event} {world : World}

/-- In every run the processes hold the ends they should. -/
theorem World.Holding.of_run
    (ran : (World.step capacity program).run
      (World.start args inherited) events = some world) :
    world.Holding inherited := by
  have both : world.Invariant ∧ world.Holding inherited := by
    refine Machine.run_invariant
      (fun visited => visited.Invariant ∧ visited.Holding inherited) ?_
      ⟨World.Invariant.start args inherited,
        World.Holding.start args inherited⟩ ran
    rintro visited event next ⟨invariant, holding⟩ stepped
    have moves := step_moves stepped
    exact ⟨moves.invariant invariant, moves.holding invariant holding⟩
  exact both.2

/-- The tracker comes to `read_from_pipe` with its two ends, whatever was
open. -/
theorem tracker_plumbed
    (ran : (World.step capacity program).run
      (World.start args inherited) events = some world)
    (alive : world.tracker.ended = none) (pc : world.tracker.pc = .fgetc) :
    world.tracker.Plumbed := by
  have holds := (World.Holding.of_run ran).tracker alive
  simp only [Tracker.Holds, pc] at holds
  exact holds.1

/-- The child is plumbed at `execvp` exactly if the tracker was started with a
standard input. -/
theorem child_plumbed_iff {child : Child}
    (ran : (World.step capacity program).run
      (World.start args inherited) events = some world)
    (isChild : world.child = some child) (pc : child.pc = .execvp) :
    child.Plumbed ↔ 0 ∈ inherited := by
  have holding := World.Holding.of_run ran
  exact (holding.child child isChild).plumbed_iff
    (holding.assigned (by simp [isChild])) pc

/-- Both processes are plumbed in every run exactly when descriptor 0 was open
before. -/
theorem plumbed_iff_stdin_open (capacity : Nat) (program : Program)
    {args : List (List UInt8)}
    (given : 2 ≤ args.length) (inherited : List Int) :
    (∀ events world,
      (World.step capacity program).run (World.start args inherited) events =
        some world →
        world.Plumbed) ↔ 0 ∈ inherited := by
  constructor
  · intro plumbed
    obtain ⟨world, child, ⟨events, ran⟩, isChild, pc⟩ :=
      exists_run_to_execvp capacity program inherited given
    exact (child_plumbed_iff ran isChild pc).mp
      ((plumbed events world ran).1 child isChild pc)
  · intro opened events world ran
    exact ⟨fun child isChild pc =>
      (child_plumbed_iff ran isChild pc).mpr opened,
      tracker_plumbed ran⟩

end Runs

/-- The tracker is started with the three standard descriptors. -/
theorem plumbed_iff_stdin_open_standard :
    ∃ world, (World.step 65536 writesTwo).run
      (World.start [[], [108, 115]] [0, 1, 2])
        launched.dropLast = some world ∧
      world.child.map Child.pc = some .execvp ∧ world.Plumbed := by
  have reached :
      ((World.step 65536 writesTwo).run (World.start [[], [108, 115]] [0, 1, 2])
        launched.dropLast).map (fun world => world.child.map Child.pc) =
      some (some .execvp) := by decide
  obtain ⟨world, ran, pc⟩ := Option.map_eq_some_iff.mp reached
  have plumbed :=
    (plumbed_iff_stdin_open 65536 writesTwo (by decide) [0, 1, 2]).mpr
      (by decide) _ world ran
  exact ⟨world, ran, pc, plumbed⟩

/-- The child comes to `execvp` when the tracker was started without descriptor
0. -/
def stdinClosed : List Event :=
  [.main, .main, .pipe (some (0, 3)), .pipe (some (4, 5)), .calloc true,
    .calloc true, .main, .fork (some 100)] ++ List.replicate 6 .child

/-- Then the child has no standard input. -/
theorem not_plumbed_of_closed_stdin :
    ¬∀ (capacity : Nat) (program : Program) (args : List (List UInt8))
      (inherited : List Int) (events : List Event) (world : World),
      (World.step capacity program).run (World.start args inherited) events =
        some world →
      world.Plumbed := by
  intro claimed
  have reached :
      ((World.step 65536 writesTwo).run (World.start [[], [108, 115]] [1, 2])
        stdinClosed).map (fun world => world.child.map fun child =>
          (child.pc, child.descriptors.lookup 0)) = some (some
            (.execvp, none)) := by decide
  obtain ⟨world, ran, view⟩ := Option.map_eq_some_iff.mp reached
  obtain ⟨child, isChild, ends⟩ := Option.map_eq_some_iff.mp view
  simp only [Prod.mk.injEq] at ends
  have plumbed := (claimed _ _ _ _ _ world ran).1 child isChild ends.1
  have stdin : ((0 : Int), File.readEnd .writepipe) ∈
      child.descriptors.within pipeEnds := by
    rw [plumbed]
    exact .inl rfl
  have found : child.descriptors.lookup 0 = some (.readEnd .writepipe) :=
    stdin.2
  rw [ends.2] at found
  cases found

end ForkPipe
end LinuxCPractice
