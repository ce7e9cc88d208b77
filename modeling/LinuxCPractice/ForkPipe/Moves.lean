import LinuxCPractice.ForkPipe.Defs

/-!
# The moves of the tracker and its child

Every step of the machine is one of the moves below: a move of the tracker
alone, a move of the child alone, or one of the few moves in which a process
meets the pipes, the other process or a signal. Later proofs go by cases on them
and never unfold the step function.
-/

namespace LinuxCPractice
namespace ForkPipe

/-- The tracker executes `main`. -/
abbrev Tracker.Runs (tracker : Tracker) : Prop :=
  tracker.ended = none ∧ tracker.handling = none

/-! ## Signals -/

namespace World

@[simp] theorem signal_tracker (world : World) (cause : Cause) :
    (world.signal cause).tracker = world.tracker := by
  unfold signal
  split <;> rfl

@[simp] theorem signal_child (world : World) (cause : Cause) :
    (world.signal cause).child = world.child := by
  unfold signal
  split <;> rfl

@[simp] theorem signal_content (world : World) (cause : Cause) :
    (world.signal cause).content = world.content := by
  unfold signal
  split <;> rfl

end World

/-! ## The end of the tracker -/

/-- The byte an entry of the log has put out. -/
def Entry.byte : Entry → Option UInt8
  | .putchar byte => some byte
  | _ => none

/-- The tracker's process ends, with nothing more put out. -/
def Tracker.Quits (tracker next : Tracker) : Prop :=
  ∃ quiet ending, quiet.filterMap Entry.byte = [] ∧
    next = { tracker with
      log := tracker.log ++ quiet, ended := some ending, descriptors := ∅ }

namespace Tracker.Quits

variable {tracker next : Tracker}

theorem pc (quits : tracker.Quits next) : next.pc = tracker.pc := by
  obtain ⟨_, _, _, rfl⟩ := quits
  rfl

theorem handling (quits : tracker.Quits next) :
    next.handling = tracker.handling := by
  obtain ⟨_, _, _, rfl⟩ := quits
  rfl

theorem ended (quits : tracker.Quits next) : next.ended ≠ none := by
  obtain ⟨_, _, _, rfl⟩ := quits
  simp

theorem descriptors (quits : tracker.Quits next) : next.descriptors = ∅ := by
  obtain ⟨_, _, _, rfl⟩ := quits
  rfl

/-- A quiet line before the end changes nothing about it. -/
theorem of_record {entry : Entry} (quits : (tracker.record entry).Quits next)
    (quiet : entry.byte = none) : tracker.Quits next := by
  obtain ⟨rest, ending, restQuiet, rfl⟩ := quits
  refine ⟨entry :: rest, ending, ?_, by simp [Tracker.record]⟩
  rw [List.filterMap_cons_none quiet, restQuiet]

end Tracker.Quits

/-- Leaving ends the tracker. -/
theorem Tracker.quits_leave (tracker : Tracker) (status : Int) :
    tracker.Quits (tracker.leave status) := by
  unfold Tracker.leave
  split
  · exact ⟨[], .crashed, rfl, by simp [Tracker.finish]⟩
  · rename_i freed deallocated
    refine ⟨freed, .exited status, ?_, rfl⟩
    unfold Tracker.deallocAll at deallocated
    split at deallocated
    · split at deallocated <;> cases deallocated
      rfl
    · cases deallocated
      simp [Entry.byte]

/-- An error message ends the tracker. -/
theorem Tracker.quits_printErrorAndExit (tracker : Tracker)
    (failure : Failure) :
    tracker.Quits (tracker.printErrorAndExit failure) :=
  (quits_leave (tracker.record (.error failure)) 2).of_record rfl

/-- The handler ends the tracker behind `waitpid`. -/
theorem Tracker.quits_collectZombie (tracker : Tracker) (ret : Int)
    (status : Nat) :
    tracker.Quits (tracker.collectZombie ret status) := by
  unfold Tracker.collectZombie
  split
  · exact tracker.quits_printErrorAndExit _
  · split
    · exact (quits_leave (tracker.record _) 0).of_record rfl
    · exact tracker.quits_leave 0

/-! ## The moves -/

/-- What `main` of the tracker does by itself. -/
inductive Tracker.Moves (tracker : Tracker) : Tracker → Prop
  | argumentsFailed (pc : tracker.pc = .checkArguments) :
      Moves tracker (tracker.printErrorAndExit .arguments)
  | argumentsChecked (pc : tracker.pc = .checkArguments) :
      Moves tracker (tracker.goto .sigaction)
  | installed (pc : tracker.pc = .sigaction) :
      Moves tracker (tracker.goto (.pipe .writepipe))
  | pipeFailed {which} (pc : tracker.pc = .pipe which) :
      Moves tracker (tracker.printErrorAndExit .pipe)
  | writepipeOpened {readFd writeFd} (pc : tracker.pc = .pipe .writepipe)
      (lowestRead : tracker.descriptors.Lowest readFd)
      (lowestWrite : DescriptorTable.Lowest
        (tracker.descriptors.insert readFd (.readEnd .writepipe)) writeFd) :
      Moves tracker
        { tracker with
          descriptors :=
            (tracker.descriptors.insert readFd (.readEnd .writepipe)).insert
              writeFd
            (.writeEnd .writepipe)
          writepipe := (readFd, writeFd)
          pc := .pipe .readpipe }
  | readpipeOpened {readFd writeFd} (pc : tracker.pc = .pipe .readpipe)
      (lowestRead : tracker.descriptors.Lowest readFd)
      (lowestWrite : DescriptorTable.Lowest
        (tracker.descriptors.insert readFd (.readEnd .readpipe)) writeFd) :
      Moves tracker
        { tracker with
          descriptors :=
            (tracker.descriptors.insert readFd (.readEnd .readpipe)).insert
              writeFd
            (.writeEnd .readpipe)
          readpipe := (readFd, writeFd)
          pc := .callocVector }
  | vectorAllocated (pc : tracker.pc = .callocVector) :
      Moves tracker { tracker with argsDup := some [], pc := .callocWord }
  | wordAllocated {words arg} (pc : tracker.pc = .callocWord)
      (allocated : tracker.argsDup = some words)
      (next : tracker.args[words.length + 1]? = some arg) :
      Moves tracker
        { tracker with
            argsDup := some (words ++ [arg.take (Tracker.wordsSize - 1)]) }
  | callocFailed (pc : tracker.pc = .callocVector ∨ tracker.pc = .callocWord) :
      Moves tracker (tracker.printErrorAndExit .calloc)
  | wordsAllocated (pc : tracker.pc = .callocWord)
      (all : tracker.args.length ≤ (tracker.argsDup.getD []).length + 1) :
      Moves tracker (tracker.goto .fork)
  | stored {result} (pc : tracker.pc = .storeChildpid result) :
      Moves tracker { tracker with childpid := result, pc := .closeChildRead }
  | closedChildRead (pc : tracker.pc = .closeChildRead) :
      Moves tracker (tracker.close tracker.childRead .closeChildWrite)
  | closedChildWrite (pc : tracker.pc = .closeChildWrite) :
      Moves tracker (tracker.close tracker.childWrite .fgetc)
  | put (pc : tracker.pc = .putchar) :
      Moves tracker ((tracker.record (.putchar tracker.c)).goto .fgetc)
  | closedStream (pc : tracker.pc = .fclose) :
      Moves tracker (tracker.close tracker.parentRead .sleep)
  | slept (pc : tracker.pc = .sleep) :
      Moves tracker (tracker.goto .closeParentWrite)
  | closedParentWrite (pc : tracker.pc = .closeParentWrite) :
      Moves tracker (tracker.close tracker.parentWrite .closeParentRead)
  | returned (pc : tracker.pc = .closeParentRead) :
      Moves tracker ((tracker.close tracker.parentRead .closeParentRead).finish
        (.exited 0))

/-- What the child does by itself, with the numbers of the pipe ends that it has
from the tracker. -/
inductive Child.Moves (program : Program) (tracker : Tracker) (child : Child) :
    Child → Prop
  | closedParentWrite (pc : child.pc = .closeParentWrite) :
      Moves program tracker child
        (child.close tracker.parentWrite .closeParentRead)
  | closedParentRead (pc : child.pc = .closeParentRead) :
      Moves program tracker child (child.close tracker.parentRead .dupChildRead)
  | dupedChildRead (pc : child.pc = .dupChildRead) :
      Moves program tracker child
        (child.dup2 tracker.childRead 0 .closeChildRead)
  | closedChildRead (pc : child.pc = .closeChildRead) :
      Moves program tracker child (child.close tracker.childRead .dupChildWrite)
  | dupedChildWrite (pc : child.pc = .dupChildWrite) :
      Moves program tracker child
        (child.dup2 tracker.childWrite 1 .closeChildWrite)
  | closedChildWrite (pc : child.pc = .closeChildWrite) :
      Moves program tracker child (child.close tracker.childWrite .execvp)
  | started (pc : child.pc = .execvp) :
      Moves program tracker child { child with pc := .running }
  | reads (pc : child.pc = .running) (act : program child.outcomes = .read) :
      Moves program tracker child { child with pc := .reading }
  | writes {bytes} (pc : child.pc = .running)
      (act : program child.outcomes = .write bytes) :
      Moves program tracker child { child with pc := .writing bytes }
  | closedStdin (pc : child.pc = .running)
      (act : program child.outcomes = .closeStdin) :
      Moves program tracker child ((child.close 0 .running).answer .closed)
  | closedStdout (pc : child.pc = .running)
      (act : program child.outcomes = .closeStdout) :
      Moves program tracker child ((child.close 1 .running).answer .closed)
  | wrote {rest} (pc : child.pc = .writing rest) :
      Moves program tracker child (child.answer .wrote)
  | writeFailed {rest} (pc : child.pc = .writing rest)
      (target : ∀ pipe, child.descriptors.lookup 1 ≠ some (.writeEnd pipe)) :
      Moves program tracker child (child.answer .failed)

/-- All steps of both processes. -/
inductive World.Moves (capacity : Nat) (program : Program) (world : World) :
    Event → World → Prop
  | tracker {event tracker} (runs : world.tracker.Runs)
      (isMain : event.isWaitpid = false)
      (moves : world.tracker.Moves tracker) :
      Moves capacity program world event { world with tracker := tracker }
  | buffered {byte rest} (runs : world.tracker.Runs)
      (pc : world.tracker.pc = .fgetc)
      (stream : world.tracker.stream = byte :: rest) :
      Moves capacity program world .main
        { world with tracker := { world.tracker with c := byte, stream := rest, pc := .putchar } }
  | refilled {pipe} (runs : world.tracker.Runs) (pc : world.tracker.pc = .fgetc)
      (stream : world.tracker.stream = [])
      (source : world.tracker.descriptors.lookup world.tracker.parentRead =
        some (.readEnd pipe))
      (nonempty : world.content pipe ≠ []) :
      Moves capacity program world .main
        { world with
          tracker :=
            { world.tracker with stream := (world.content pipe).take bufsiz }
          content := Function.update world.content pipe
            ((world.content pipe).drop bufsiz) }
  | reachedEnd {pipe} (runs : world.tracker.Runs)
      (pc : world.tracker.pc = .fgetc)
      (stream : world.tracker.stream = [])
      (source : world.tracker.descriptors.lookup world.tracker.parentRead =
        some (.readEnd pipe))
      (empty : world.content pipe = [])
      (noWriter : ¬world.IsOpen (.writeEnd pipe)) :
      Moves capacity program world .main
        { world with tracker := world.tracker.goto .fclose }
  | notReadable (runs : world.tracker.Runs) (pc : world.tracker.pc = .fgetc)
      (stream : world.tracker.stream = [])
      (source : ∀ pipe,
        world.tracker.descriptors.lookup world.tracker.parentRead ≠
        some (.readEnd pipe)) :
      Moves capacity program world .main
        { world with tracker := world.tracker.goto .fclose }
  | forkFailed (runs : world.tracker.Runs) (pc : world.tracker.pc = .fork) :
      Moves capacity program world (.fork none)
        { world with
          tracker :=
            { world.tracker with childpid := -1 }.printErrorAndExit .fork }
  | forked {pid} (runs : world.tracker.Runs) (pc : world.tracker.pc = .fork)
      (positive : 0 < pid) :
      Moves capacity program world (.fork (some pid))
        { world with
          tracker := world.tracker.goto (.storeChildpid pid)
          child := some (.start pid world.tracker.descriptors) }
  | delivered {cause} (runs : world.tracker.Runs)
      (pending : world.pending = some cause) :
      Moves capacity program world .deliver
        { world with
          tracker := { world.tracker with handling := some cause }
          pending := none }
  | collected {garbage ret} (alive : world.tracker.ended = none)
      (handling : world.tracker.handling ≠ none)
      (result : waitpid world.child world.tracker.childpid = (ret, none)) :
      Moves capacity program world (.waitpid garbage)
        { world with tracker := world.tracker.collectZombie ret garbage }
  | reaped {garbage ret status child} (alive : world.tracker.ended = none)
      (handling : world.tracker.handling ≠ none)
      (isChild : world.child = some child)
      (result : waitpid world.child world.tracker.childpid =
        (ret, some status)) :
      Moves capacity program world (.waitpid garbage)
        { world with
          tracker := world.tracker.collectZombie ret status
          child := some { child with reaped := true } }
  | child {event child next} (isChild : world.child = some child)
      (isOther : event.isWaitpid = false)
      (moves : child.Moves program world.tracker next) :
      Moves capacity program world event { world with child := some next }
  | terminated {event child} (termination : Termination)
      (isChild : world.child = some child)
      (isOther : event.isWaitpid = false) (alive : child.isEnded = false) :
      Moves capacity program world event (world.terminate child termination)
  | transferred {child rest pipe count} (isChild : world.child = some child)
      (pc : child.pc = .writing rest)
      (target : child.descriptors.lookup 1 = some (.writeEnd pipe))
      (reader : world.IsOpen (.readEnd pipe)) (fits : count ≤ rest.length)
      (room : (world.content pipe).length + count ≤ capacity) :
      Moves capacity program world (.transfer count)
        { world with
          child := some { child with
            pc := .writing (rest.drop count)
            written :=
              if pipe = .readpipe then child.written ++ rest.take count
              else child.written }
          content := Function.update world.content pipe
            (world.content pipe ++ rest.take count) }
  | pipeBroken {child rest pipe} (isChild : world.child = some child)
      (pc : child.pc = .writing rest)
      (target : child.descriptors.lookup 1 = some (.writeEnd pipe))
      (noReader : ¬world.IsOpen (.readEnd pipe)) :
      Moves capacity program world (.brokenPipe true)
        { world with child := some (child.answer .failed) }
  | received {child pipe bytes} (isChild : world.child = some child)
      (pc : child.pc = .reading)
      (source : child.descriptors.lookup 0 = some (.readEnd pipe))
      (available : bytes <+: world.content pipe) :
      Moves capacity program world (.childRead (.data bytes))
        { world with
          child := some (child.answer (.data bytes))
          content := Function.update world.content pipe
            ((world.content pipe).drop bytes.length) }
  | readReturned {child outcome} (isChild : world.child = some child)
      (pc : child.pc = .reading)
      (notWrote : outcome ≠ .wrote) :
      Moves capacity program world (.childRead outcome)
        { world with child := some (child.answer outcome) }
  | stopped {child} (isChild : world.child = some child) :
      Moves capacity program world .stop
        ({ world with child := some { child with stopped := true } }.signal
          .stopped)
  | continued {child} (isChild : world.child = some child) :
      Moves capacity program world .continue
        ({ world with child := some { child with stopped := false } }.signal
          .continued)

/-- What the handler's call of `waitpid` does. -/
theorem World.Moves.of_waitpid {capacity : Nat} {program : Program}
    {world next : World}
    {event : Event} (moves : world.Moves capacity program event next)
    (handler : event.isWaitpid = true) :
    world.tracker.ended = none ∧ world.tracker.handling ≠ none ∧
      ((∃ ret garbage,
        waitpid world.child world.tracker.childpid = (ret, none) ∧
          next = { world with
              tracker := world.tracker.collectZombie ret garbage }) ∨
        ∃ ret status child, world.child = some child ∧
          waitpid world.child world.tracker.childpid = (ret, some status) ∧
          next = { world with
            tracker := world.tracker.collectZombie ret status
            child := some { child with reaped := true } }) := by
  cases moves with
  | tracker _ isMain => exact absurd handler (by simp [isMain])
  | child _ isOther | terminated _ _ isOther => exact absurd handler (by simp [isOther])
  | collected alive handling result =>
      exact ⟨alive, handling, .inl ⟨_, _, result, rfl⟩⟩
  | reaped alive handling isChild result =>
      exact ⟨alive, handling, .inr ⟨_, _, _, isChild, result, rfl⟩⟩
  | _ => cases handler

/-! ## The step function makes only these moves -/

private theorem tracker_moves {tracker next : Tracker}
    (moved : tracker.main = some next) :
    tracker.Moves next := by
  unfold Tracker.main at moved
  split at moved
  · rename_i pc
    split at moved <;> cases moved
    · exact .argumentsFailed pc
    · exact .argumentsChecked pc
  · rename_i pc
    cases moved
    exact .installed pc
  · rename_i pc
    split at moved
    · rename_i all
      cases moved
      exact .wordsAllocated pc all
    · cases moved
  · rename_i pc
    cases moved
    exact .stored pc
  · rename_i pc
    cases moved
    exact .closedChildRead pc
  · rename_i pc
    cases moved
    exact .closedChildWrite pc
  · rename_i pc
    cases moved
    exact .put pc
  · rename_i pc
    cases moved
    exact .closedStream pc
  · rename_i pc
    cases moved
    exact .slept pc
  · rename_i pc
    cases moved
    exact .closedParentWrite pc
  · rename_i pc
    cases moved
    exact .returned pc
  all_goals cases moved

private theorem pipe_moves {tracker next : Tracker} {which : Pipe}
    {result : Option (Int × Int)}
    (pc : tracker.pc = .pipe which)
    (moved : tracker.pipe which result = some next) :
    tracker.Moves next := by
  cases result with
  | none =>
      cases moved
      exact .pipeFailed pc
  | some ends =>
      simp only [Tracker.pipe] at moved
      split at moved
      · rename_i lowest
        cases which <;> cases moved
        · exact .writepipeOpened pc lowest.1 lowest.2
        · exact .readpipeOpened pc lowest.1 lowest.2
      · cases moved

private theorem calloc_moves {tracker next : Tracker} {succeeds : Bool}
    (moved : tracker.calloc succeeds = some next) : tracker.Moves next := by
  unfold Tracker.calloc at moved
  split at moved
  · rename_i pc
    split at moved <;> cases moved
    · exact .vectorAllocated pc
    · exact .callocFailed (.inl pc)
  · rename_i pc allocated
    obtain ⟨arg, isNext, rfl⟩ := Option.map_eq_some_iff.mp moved
    split
    · exact .wordAllocated pc allocated isNext
    · exact .callocFailed (.inr pc)
  · cases moved

private theorem fgetc_moves {capacity : Nat} {program : Program}
    {world next : World}
    (runs : world.tracker.Runs) (pc : world.tracker.pc = .fgetc)
    (moved : world.fgetc = some next) : world.Moves capacity program .main next := by
  unfold World.fgetc at moved
  split at moved
  · rename_i stream
    cases moved
    exact .buffered runs pc stream
  · rename_i stream
    split at moved
    · rename_i pipe source
      split at moved
      · rename_i nonempty
        cases moved
        exact .refilled runs pc stream source nonempty
      · rename_i empty
        split at moved
        · cases moved
        · rename_i noWriter
          cases moved
          exact .reachedEnd runs pc stream source (not_not.mp empty) noWriter
    · rename_i source
      cases moved
      exact .notReadable runs pc stream source

private theorem main_moves {capacity : Nat} {program : Program} {world next : World}
    {event : Event} (isMain : event.isWaitpid = false)
    (moved : world.mainStep event = some next) :
    world.Moves capacity program event next := by
  unfold World.mainStep at moved
  split at moved
  · rename_i runs
    split at moved
    · rename_i pc
      exact fgetc_moves runs pc moved
    · obtain ⟨tracker, trackerMoved, rfl⟩ := Option.map_eq_some_iff.mp moved
      exact .tracker runs isMain (tracker_moves trackerMoved)
    · rename_i pc
      obtain ⟨tracker, trackerMoved, rfl⟩ := Option.map_eq_some_iff.mp moved
      exact .tracker runs isMain (pipe_moves pc trackerMoved)
    · obtain ⟨tracker, trackerMoved, rfl⟩ := Option.map_eq_some_iff.mp moved
      exact .tracker runs isMain (calloc_moves trackerMoved)
    · rename_i result pc
      cases result with
      | none =>
          cases moved
          exact .forkFailed runs pc
      | some pid =>
          simp only [World.fork] at moved
          split at moved
          · rename_i positive
            cases moved
            exact .forked runs pc positive
          · cases moved
    · cases moved
  · cases moved

private theorem collect_moves {capacity : Nat} {program : Program} {world next : World}
    {garbage : Nat} (moved : world.collectZombie garbage = some next) :
    world.Moves capacity program (.waitpid garbage) next := by
  unfold World.collectZombie at moved
  split at moved
  · rename_i handling
    split at moved
    · rename_i result
      cases moved
      exact .collected handling.1 handling.2 result
    · rename_i status result
      cases moved
      cases isChild : world.child with
      | none =>
          rw [isChild] at result
          cases result
      | some child => exact .reaped handling.1 handling.2 isChild result
  · cases moved

private theorem child_moves {capacity : Nat} {program : Program} {world next : World}
    {child : Child} (isChild : world.child = some child)
    (moved : world.childStep program child = some next) :
    world.Moves capacity program .child next := by
  unfold World.childStep at moved
  have isOther : Event.child.isWaitpid = false := rfl
  split at moved
  · rename_i pc
    cases moved
    exact .child isChild isOther (.closedParentWrite pc)
  · rename_i pc
    cases moved
    exact .child isChild isOther (.closedParentRead pc)
  · rename_i pc
    cases moved
    exact .child isChild isOther (.dupedChildRead pc)
  · rename_i pc
    cases moved
    exact .child isChild isOther (.closedChildRead pc)
  · rename_i pc
    cases moved
    exact .child isChild isOther (.dupedChildWrite pc)
  · rename_i pc
    cases moved
    exact .child isChild isOther (.closedChildWrite pc)
  · rename_i pc
    split at moved
    · rename_i act
      cases moved
      exact .child isChild isOther (.reads pc act)
    · rename_i act
      cases moved
      exact .child isChild isOther (.writes pc act)
    · rename_i act
      cases moved
      exact .child isChild isOther (.closedStdin pc act)
    · rename_i act
      cases moved
      exact .child isChild isOther (.closedStdout pc act)
    · cases moved
      exact .terminated _ isChild isOther (by simp [Child.isEnded, pc])
  · rename_i pc
    split at moved
    · split at moved <;> cases moved
      exact .child isChild isOther (.wrote pc)
    · cases moved
      exact .child isChild isOther (.wrote pc)
    · rename_i target
      cases moved
      exact .child isChild isOther (.writeFailed pc (by simp [target]))
    · rename_i target
      cases moved
      exact .child isChild isOther (.writeFailed pc (by simp [target]))
  all_goals cases moved

private theorem execvp_moves {capacity : Nat} {program : Program} {world next : World}
    {child : Child} {succeeds : Bool} (isChild : world.child = some child)
    (moved : world.execvp child succeeds = some next) :
    world.Moves capacity program (.execvp succeeds) next := by
  unfold World.execvp at moved
  split at moved
  · rename_i pc
    split at moved <;> cases moved
    · exact .child isChild rfl (.started pc)
    · exact .terminated _ isChild rfl (by simp [Child.isEnded, pc])
  · cases moved

private theorem transfer_moves {capacity : Nat} {program : Program} {world next : World}
    {child : Child} {count : Nat} (isChild : world.child = some child)
    (moved : world.transfer capacity child count = some next) :
    world.Moves capacity program (.transfer count) next := by
  unfold World.transfer at moved
  split at moved
  · rename_i pc target
    split at moved
    · rename_i allowed
      cases moved
      exact .transferred isChild pc target allowed.1 allowed.2.2.1 allowed.2.2.2
    · cases moved
  · cases moved

private theorem brokenPipe_moves {capacity : Nat} {program : Program} {world next : World}
    {child : Child} {ignored : Bool} (isChild : world.child = some child)
    (moved : world.brokenPipe child ignored = some next) :
    world.Moves capacity program (.brokenPipe ignored) next := by
  unfold World.brokenPipe at moved
  split at moved
  · rename_i pc target
    split at moved
    · rename_i broken
      cases ignored <;> cases moved
      · exact .terminated _ isChild rfl (by simp [Child.isEnded, pc])
      · exact .pipeBroken isChild pc target broken.2
    · cases moved
  · cases moved

private theorem childRead_moves {capacity : Nat} {program : Program} {world next : World}
    {child : Child} {outcome : Outcome} (isChild : world.child = some child)
    (moved : world.childRead child outcome = some next) :
    world.Moves capacity program (.childRead outcome) next := by
  unfold World.childRead at moved
  split at moved
  · rename_i pc
    split at moved
    · rename_i source
      split at moved
      · rename_i available
        cases moved
        exact .received isChild pc source available.2
      · cases moved
    · split at moved <;> cases moved
      exact .readReturned isChild pc nofun
    all_goals first
      | cases moved
        exact .readReturned isChild pc nofun
      | cases moved
  · cases moved

private theorem jobControl_moves {capacity : Nat} {program : Program} {world next : World}
    {child : Child} {event : Event} (isChild : world.child = some child)
    (moved : world.jobControl child event = some next) :
    world.Moves capacity program event next := by
  unfold World.jobControl at moved
  split at moved
  · split at moved <;> cases moved
    exact .stopped isChild
  · split at moved <;> cases moved
    exact .continued isChild
  · split at moved <;> cases moved
    exact .terminated _ isChild rfl (by simp_all)
  · cases moved

/-- Every step is one of the listed moves. -/
theorem step_moves {capacity : Nat} {program : Program} {world next : World} {event : Event}
    (stepped : world.step capacity program event = some next) :
    world.Moves capacity program event next := by
  unfold World.step at stepped
  split at stepped
  all_goals try exact main_moves rfl stepped
  · unfold World.deliver at stepped
    split at stepped
    · rename_i runs
      obtain ⟨cause, pending, rfl⟩ := Option.map_eq_some_iff.mp stepped
      exact .delivered runs pending
    · cases stepped
  · exact collect_moves stepped
  all_goals
    obtain ⟨child, isChild, moved⟩ := Option.bind_eq_some_iff.mp stepped
    try (split at moved; cases moved)
  · exact child_moves isChild moved
  · exact execvp_moves isChild moved
  · exact transfer_moves isChild moved
  · exact brokenPipe_moves isChild moved
  · exact childRead_moves isChild moved
  all_goals exact jobControl_moves isChild moved

/-! ## Steps of the child -/

/-- An event of the child leaves the tracker. -/
theorem World.tracker_childEvent {capacity : Nat} {program : Program}
    {world next : World}
    {child : Child} {event : Event}
    (moved : world.childEvent capacity program child event = some next) :
    next.tracker = world.tracker := by
  unfold World.childEvent at moved
  split at moved
  · unfold World.childStep at moved
    (repeat' split at moved) <;> cases moved <;> simp only
    [World.terminate, World.signal_tracker]
  · unfold World.execvp at moved
    (repeat' split at moved) <;> cases moved <;> simp only
    [World.terminate, World.signal_tracker]
  · unfold World.transfer at moved
    (repeat' split at moved) <;> cases moved <;> rfl
  · unfold World.brokenPipe at moved
    (repeat' split at moved) <;> cases moved <;> simp only
    [World.terminate, World.signal_tracker]
  · unfold World.childRead at moved
    (repeat' split at moved) <;> cases moved <;> rfl
  · cases moved

/-- What befalls the child leaves the tracker. -/
theorem World.tracker_jobControl {world next : World} {child : Child}
    {event : Event}
    (moved : world.jobControl child event = some next) :
    next.tracker = world.tracker := by
  unfold World.jobControl at moved
  split at moved
  all_goals try (split at moved)
  all_goals cases moved
  all_goals simp only [World.terminate, World.signal_tracker]

end ForkPipe
end LinuxCPractice
