import LinuxCPractice.ForkPipe.Ends

/-!
# What becomes of the child's output

A byte the child has written is in the pipe, in the buffer of the stream, in the
variable `c` or has been put out. The read loop ends only when all of it is out,
but the handler ends the tracker wherever the bytes happen to be.
-/

namespace LinuxCPractice
namespace ForkPipe

open DescriptorTable

/-! ## Where a byte can be -/

/-- The bytes passed to `putchar`. -/
def Tracker.output (tracker : Tracker) : List UInt8 :=
  tracker.log.filterMap Entry.byte

/-- The byte between `fgetc` and `putchar`. -/
def Tracker.inHand (tracker : Tracker) : List UInt8 :=
  if tracker.pc = .putchar then [tracker.c] else []

/-- The bytes the child has written to its standard output. -/
def World.written (world : World) : List UInt8 :=
  match world.child with
  | none => []
  | some child => child.written

/-- The bytes that are still on their way. -/
def World.undelivered (world : World) : List UInt8 :=
  world.tracker.inHand ++ world.tracker.stream ++ world.content .readpipe

/-- The places of `main` behind the read loop. -/
def Pc.behindLoop : Pc → Bool
  | .fclose | .sleep | .closeParentWrite | .closeParentRead => true
  | _ => false

/-- No byte is lost or reordered, and behind the read loop none can follow. -/
structure World.Conserves (world : World) : Prop where
  total : world.tracker.output ++ world.undelivered = world.written
  behind : world.tracker.pc.behindLoop = true → world.undelivered = [] ∧
    ∀ child, world.child = some child →
      child.descriptors.OnlyAt (.writeEnd .readpipe) ∅

/-! ## Moves that leave the bytes where they are -/

/-- The end of the tracker prints nothing more. -/
theorem Tracker.Quits.output {tracker next : Tracker}
    (quits : tracker.Quits next) :
    next.output = tracker.output ∧ next.inHand = tracker.inHand ∧
      next.stream = tracker.stream := by
  obtain ⟨quiet, _, silent, rfl⟩ := quits
  refine ⟨?_, rfl, rfl⟩
  rw [Tracker.output, List.filterMap_append, silent, List.append_nil]
  rfl

/-- What has not been printed by then stays undelivered. -/
theorem Tracker.Quits.undelivered {world : World} {tracker : Tracker}
    (quits : world.tracker.Quits tracker) (child : Option Child) :
    World.undelivered { world with tracker := tracker, child := child } =
      world.undelivered := by
  obtain ⟨_, inHand, stream⟩ := quits.output
  simp only [World.undelivered, inHand, stream]

/-- `main` ends the tracker only before `fork` or behind the read loop. -/
theorem Tracker.Moves.ends_outside {tracker next : Tracker}
    (moves : tracker.Moves next)
    (alive : tracker.ended = none) (ended : next.ended ≠ none) :
    next.pc.beforeFork = true ∨ next.pc.behindLoop = true := by
  cases moves with
  | argumentsFailed pc | pipeFailed pc =>
      rw [(tracker.quits_printErrorAndExit _).pc, pc]
      exact .inl rfl
  | callocFailed pc =>
      rw [(tracker.quits_printErrorAndExit _).pc]
      rcases pc with pc | pc <;> rw [pc] <;> exact .inl rfl
  | returned => exact .inr rfl
  | _ => exact absurd alive ended

/-- A byte leaves the hand of the tracker only into its output. -/
theorem Tracker.Moves.output {tracker next : Tracker}
    (moves : tracker.Moves next) :
    next.output ++ next.inHand = tracker.output ++ tracker.inHand ∧
      next.stream = tracker.stream ∧
      next.pc.behindLoop = tracker.pc.behindLoop := by
  cases moves with
  | argumentsFailed | pipeFailed | callocFailed =>
      rw [(tracker.quits_printErrorAndExit _).output.1,
        (tracker.quits_printErrorAndExit _).output.2.1,
        (tracker.quits_printErrorAndExit _).output.2.2,
        (tracker.quits_printErrorAndExit _).pc]
      exact ⟨rfl, rfl, rfl⟩
  | put pc =>
      simp [Tracker.output, Tracker.inHand, Tracker.goto, Tracker.record,
        Entry.byte, Pc.behindLoop, pc]
  | argumentsChecked pc | installed pc | writepipeOpened pc | readpipeOpened pc
  | vectorAllocated pc | wordAllocated pc | wordsAllocated pc | stored pc
  | closedChildRead pc
  | closedChildWrite pc | closedStream pc | slept pc | closedParentWrite pc
  | returned pc =>
      simp [Tracker.output, Tracker.inHand, Tracker.goto, Tracker.close,
        Tracker.finish, Tracker.record, Entry.byte, Pc.behindLoop, pc]

/-- A child that moves without the pipe writes nothing. -/
theorem Child.Moves.written {program : Program} {tracker : Tracker}
    {child next : Child}
    (moves : child.Moves program tracker next) :
    next.written = child.written := by
  cases moves <;> rfl

/-- A child without the write end does not get it back. -/
theorem Child.Moves.onlyAt {program : Program} {tracker : Tracker}
    {child next : Child}
    (moves : child.Moves program tracker next)
    (none : child.descriptors.OnlyAt (.writeEnd .readpipe) ∅) :
    next.descriptors.OnlyAt (.writeEnd .readpipe) ∅ := by
  cases moves with
  | closedParentWrite | closedParentRead | closedChildRead | closedChildWrite
  | closedStdin
  | closedStdout => exact none.erase_subset _
  | dupedChildRead | dupedChildWrite => exact none.dup2_of_notMem _ (by simp)
  | started | reads | writes | wrote | writeFailed => exact none

/-- Behind its loop the tracker has no byte in hand. -/
theorem Tracker.inHand_of_behindLoop {tracker : Tracker}
    (behind : tracker.pc.behindLoop = true) : tracker.inHand = [] := by
  unfold Tracker.inHand
  split
  · rename_i pc
    rw [pc] at behind
    cases behind
  · rfl

/-! ## Every move conserves the bytes -/

namespace World.Conserves

variable {world : World}

theorem start (args : List (List UInt8)) (inherited : List Int) :
    (World.start args inherited).Conserves where
  total := rfl
  behind := by simp [World.start, Tracker.start, Pc.behindLoop]

/-- Before the child exists nothing is on its way. -/
theorem undelivered_of_none (conserves : world.Conserves)
    (none : world.child = none) :
    world.undelivered = [] := by
  have total := conserves.total
  rw [written, none] at total
  exact (List.append_eq_nil_iff.mp total).2

/-- The tracker changes without taking a byte out of its stream. -/
theorem setTracker (conserves : world.Conserves) {tracker : Tracker}
    (output : tracker.output ++ tracker.inHand =
      world.tracker.output ++ world.tracker.inHand)
    (stream : tracker.stream = world.tracker.stream)
    (behind : tracker.pc.behindLoop = world.tracker.pc.behindLoop)
    (pending : Option Cause) :
    Conserves
      { tracker := tracker, child := world.child, content := world.content,
        pending := pending }
    where
  total := by
    refine Eq.trans ?_ conserves.total
    simp only [undelivered, stream, ← List.append_assoc, output]
  behind isBehind := by
    obtain ⟨empty, noWriter⟩ := conserves.behind (behind ▸ isBehind)
    refine ⟨?_, noWriter⟩
    unfold undelivered at *
    rw [Tracker.inHand_of_behindLoop isBehind, stream]
    exact List.append_eq_nil_iff.mpr
      ⟨(List.append_eq_nil_iff.mp (List.append_eq_nil_iff.mp empty).1).2,
        (List.append_eq_nil_iff.mp empty).2⟩

/-- The child changes without writing to its standard output. -/
theorem setChild (conserves : world.Conserves) {old child : Child}
    (isChild : world.child = some old) (written : child.written = old.written)
    (onlyAt : old.descriptors.OnlyAt (.writeEnd .readpipe) ∅ →
      child.descriptors.OnlyAt (.writeEnd .readpipe) ∅)
    {content : Pipe → List UInt8}
    (same : content .readpipe = world.content .readpipe)
    (pending : Option Cause) :
    Conserves
      { tracker := world.tracker, child := some child, content := content,
        pending := pending }
    where
  total := by
    have total := conserves.total
    unfold undelivered World.written at *
    rw [isChild] at total
    simp only [same, written]
    exact total
  behind isBehind := by
    obtain ⟨empty, noWriter⟩ := conserves.behind isBehind
    unfold undelivered at *
    refine ⟨by simpa only [same] using empty, ?_⟩
    rintro _ ⟨⟩
    exact onlyAt (noWriter old isChild)

/-- The child changes with the descriptors it has, and what it has written,
kept. -/
theorem keepChild (conserves : world.Conserves) {old child : Child}
    (isChild : world.child = some old) (written : child.written = old.written)
    (descriptors : child.descriptors = old.descriptors)
    {content : Pipe → List UInt8}
    (same : content .readpipe = world.content .readpipe)
    (pending : Option Cause) :
    Conserves
      { tracker := world.tracker, child := some child, content := content,
        pending := pending } :=
  conserves.setChild isChild written
    (fun only => descriptors ▸ only) same pending

/-- The tracker ends. -/
theorem quits (conserves : world.Conserves) {tracker : Tracker}
    (quits : world.tracker.Quits tracker) :
    Conserves { world with tracker := tracker } := by
  obtain ⟨output, inHand, stream⟩ := quits.output
  exact conserves.setTracker (by rw [output, inHand]) stream
    (by rw [quits.pc]) _

theorem signal (conserves : world.Conserves) (cause : Cause) :
    (world.signal cause).Conserves := by
  unfold World.signal
  split
  · exact ⟨conserves.total, conserves.behind⟩
  · exact conserves

end World.Conserves

/-- At the end of the file nothing is on its way, and nobody can write again. -/
theorem World.Conserves.reachedEnd {world : World} (conserves : world.Conserves)
    (pc : world.tracker.pc = .fgetc) (stream : world.tracker.stream = [])
    (empty : world.content .readpipe = [])
    (noWriter : ¬world.IsOpen (.writeEnd .readpipe)) :
    Conserves { world with tracker := world.tracker.goto .fclose } := by
  have none : world.undelivered = [] := by
    simp [undelivered, Tracker.inHand, pc, stream, empty]
  refine ⟨?_, fun _ => ⟨?_, ?_⟩⟩
  · refine Eq.trans ?_ conserves.total
    simp [undelivered, Tracker.output, Tracker.inHand, Tracker.goto, pc]
  · simpa [undelivered, Tracker.inHand, Tracker.goto, pc] using none
  · intro child isChild fd found
    exact noWriter (.inr ⟨child, isChild, fd, found⟩)

/-- Every move conserves the bytes. -/
theorem World.Moves.conserves {capacity : Nat} {program : Program}
    {world next : World}
    {event : Event} (moves : world.Moves capacity program event next)
    (invariant : world.Invariant) (conserves : world.Conserves) :
    next.Conserves := by
  cases moves with
  | tracker runs _ moves =>
      obtain ⟨output, stream, behind⟩ := moves.output
      exact conserves.setTracker output stream behind _
  | @buffered byte rest runs pc stream =>
      refine ⟨?_, ?_⟩
      · refine Eq.trans ?_ conserves.total
        simp [undelivered, Tracker.output, Tracker.inHand, stream, pc]
      · simp [Pc.behindLoop]
  | @refilled pipe runs pc stream source =>
      obtain rfl : pipe = .readpipe := by
        simpa using source.symm.trans (invariant.lookup_parentRead runs pc)
      refine ⟨?_, ?_⟩
      · refine Eq.trans ?_ conserves.total
        simp [undelivered, Tracker.output, Tracker.inHand, stream, pc]
      · simp [Pc.behindLoop, pc]
  | @reachedEnd pipe runs pc stream source empty noWriter =>
      obtain rfl : pipe = .readpipe := by
        simpa using source.symm.trans (invariant.lookup_parentRead runs pc)
      exact conserves.reachedEnd pc stream empty noWriter
  | notReadable runs pc _ source =>
      exact absurd (invariant.lookup_parentRead runs pc) (source _)
  | forkFailed runs pc =>
      have renamed :
          ({ world with tracker := { world.tracker with childpid := -1 } } :
            World).Conserves := by
        apply conserves.setTracker
        · rfl
        · rfl
        · rfl
      exact renamed.quits (Tracker.quits_printErrorAndExit _ _)
  | forked runs pc =>
      have none := invariant.launched.mpr (by rw [pc]; rfl)
      have total := conserves.total
      rw [written, none] at total
      refine ⟨?_, by simp [Tracker.goto, Pc.behindLoop]⟩
      refine Eq.trans ?_ total
      simp [undelivered, Tracker.output, Tracker.inHand, Tracker.goto, pc]
  | delivered =>
      apply conserves.setTracker
      · rfl
      · rfl
      · rfl
  | collected => exact conserves.quits (world.tracker.quits_collectZombie _ _)
  | @reaped garbage ret status child _ _ isChild =>
      have left :=
        conserves.quits (world.tracker.quits_collectZombie ret status)
      apply left.keepChild isChild
      · rfl
      · rfl
      · rfl
  | child isChild _ moves =>
      exact conserves.setChild isChild moves.written moves.onlyAt rfl _
  | @terminated _ child termination isChild =>
      have left : ({ world with child := some (child.terminate termination) } :
          World).Conserves := by
        apply conserves.setChild isChild
        · rfl
        · exact fun _ => onlyAt_empty _ _
        · rfl
      exact left.signal _
  | @transferred child rest pipe count isChild pc target reader =>
      cases pipe with
      | writepipe =>
          apply conserves.keepChild isChild
          · rfl
          · rfl
          · exact Function.update_of_ne (by decide) _ _
      | readpipe =>
          refine ⟨?_, fun isBehind => ?_⟩
          · have total := conserves.total
            rw [written, isChild] at total
            simp [written, undelivered, ← total]
          · exact absurd target ((conserves.behind isBehind).2 child isChild 1)
  | pipeBroken isChild | readReturned isChild =>
      apply conserves.keepChild isChild
      · rfl
      · rfl
      · rfl
  | @received child pipe bytes isChild pc source =>
      cases pipe with
      | writepipe =>
          apply conserves.keepChild isChild
          · rfl
          · rfl
          · exact Function.update_of_ne (by decide) _ _
      | readpipe =>
          exact absurd source ((invariant.child_onlyAt isChild (.inl pc)).1 0)
  | stopped isChild | continued isChild =>
      apply World.Conserves.signal
      apply conserves.keepChild isChild
      · rfl
      · rfl
      · rfl

section Runs

variable {capacity : Nat} {program : Program} {args : List (List UInt8)}
  {inherited : List Int}

/-- In every run the bytes written are conserved. -/
theorem run_conserves {events : List Event} {world : World}
    (ran : (World.step capacity program).run
      (World.start args inherited) events = some world) :
    world.Conserves :=
  Machine.run_invariant_past (fun _ world => world.Conserves)
    (World.Conserves.start args inherited)
    (fun _ _ _ _ ranPast conserves stepped =>
      (step_moves stepped).conserves (run_invariant ranPast) conserves)
    ran

/-! ## The end of the tracker -/

/-- Once the tracker has ended, the bytes on their way stay there. -/
theorem World.Moves.frozen {world next : World} {event : Event}
    (moves : world.Moves capacity program event next)
    (invariant : world.Invariant)
    (ended : world.tracker.ended ≠ none) :
    next.tracker.ended ≠ none ∧ next.undelivered = world.undelivered := by
  cases moves with
  | tracker runs | buffered runs | refilled runs | reachedEnd runs
  | notReadable runs
  | forkFailed runs | forked runs | delivered runs => exact absurd runs.1 ended
  | collected alive | reaped alive => exact absurd alive ended
  | child | pipeBroken | readReturned => exact ⟨ended, rfl⟩
  | terminated | stopped | continued =>
      exact ⟨by simpa [terminate] using ended, by simp [terminate, undelivered]⟩
  | @transferred child rest pipe count isChild pc target reader =>
      cases pipe with
      | writepipe => exact ⟨ended, by simp [undelivered]⟩
      | readpipe =>
          exfalso
          rcases reader with ⟨fd, found⟩ | ⟨other, isOther, fd, found⟩
          · rw [invariant.gone ended] at found
            exact not_refers_empty _ ⟨fd, found⟩
          · obtain rfl : child = other := by simpa [isChild] using isOther
            exact (invariant.child_onlyAt isChild (.inr ⟨rest, pc⟩)).1 fd found
  | @received child pipe bytes isChild pc source =>
      cases pipe with
      | writepipe => exact ⟨ended, by simp [undelivered]⟩
      | readpipe =>
          exact absurd source ((invariant.child_onlyAt isChild (.inl pc)).1 0)

/-- When the tracker has ended what is undelivered stays so. -/
theorem run_frozen {events : List Event} {world next : World}
    (ran : (World.step capacity program).run world events = some next)
    (invariant : world.Invariant) (ended : world.tracker.ended ≠ none) :
    next.undelivered = world.undelivered := by
  have all : next.Invariant ∧ next.tracker.ended ≠ none ∧
      next.undelivered = world.undelivered := by
    refine Machine.run_invariant
      (fun visited => visited.Invariant ∧ visited.tracker.ended ≠ none ∧
        visited.undelivered = world.undelivered)
      ?_ ⟨invariant, ended, rfl⟩ ran
    rintro visited event next ⟨invariant, ended, same⟩ stepped
    have moves := step_moves stepped
    obtain ⟨stillEnded, stillSame⟩ := moves.frozen invariant ended
    exact ⟨moves.invariant invariant, stillEnded, stillSame.trans same⟩
  exact all.2.2

/-- The handler leaves the bytes where they are and ends the tracker. -/
theorem World.Moves.waitpid {world next : World} {event : Event}
    (moves : world.Moves capacity program event next)
    (handler : event.isWaitpid = true) :
    next.tracker.ended ≠ none ∧ next.undelivered = world.undelivered := by
  have quits := world.tracker.quits_collectZombie
  obtain ⟨_, _, ⟨_, _, _, rfl⟩ | ⟨_, _, _, _, _, rfl⟩⟩ :=
    moves.of_waitpid handler
  · exact ⟨(quits _ _).ended, (quits _ _).undelivered _⟩
  · exact ⟨(quits _ _).ended, (quits _ _).undelivered _⟩

/-- When `main` ends the tracker, there is no child yet or all is delivered. -/
theorem World.Moves.ends_delivered {world next : World} {event : Event}
    (moves : world.Moves capacity program event next)
    (conserves : next.Conserves)
    (invariant : next.Invariant) (notHandler : event.isWaitpid = false)
    (alive : world.tracker.ended = none) (ended : next.tracker.ended ≠ none) :
    next.undelivered = [] := by
  have outside : next.tracker.pc.beforeFork = true ∨
      next.tracker.pc.behindLoop = true := by
    cases moves with
    | tracker _ _ moves => exact moves.ends_outside alive ended
    | forkFailed _ pc =>
        rw [(Tracker.quits_printErrorAndExit _ _).pc]
        exact .inl (by rw [pc]; rfl)
    | collected | reaped => cases notHandler
    | terminated | stopped | continued =>
        exact absurd alive (by simpa [terminate] using ended)
    | _ => exact absurd alive ended
  rcases outside with before | behind
  · exact conserves.undelivered_of_none (invariant.launched.mpr before)
  · exact (conserves.behind behind).1

/-- In every run to the end of the tracker, all the child has written has been
put out, in order and once, exactly when nothing was on its way at the moment
the handler called `waitpid`, if it came to that. -/
theorem output_complete_iff {events : List Event} {world : World}
    (ran : (World.step capacity program).run
      (World.start args inherited) events = some world)
    (ended : world.tracker.ended ≠ none) :
    world.tracker.output = world.written ↔
      (World.step capacity program).EveryStep
        (fun visited event => event.isWaitpid = true → visited.undelivered = [])
        (World.start args inherited) events := by
  have delivered : world.tracker.output = world.written ↔
      world.undelivered = [] := by
    rw [← (run_conserves ran).total]
    exact List.self_eq_append_right
  rw [delivered]
  constructor
  · intro none
    apply Machine.everyStep_of_run ran
    intro past event rest visited next _ ranPast stepped ranRest handler
    have moves := step_moves stepped
    obtain ⟨endedNext, same⟩ := moves.waitpid handler
    have nextInvariant := moves.invariant (run_invariant ranPast)
    rw [← same, ← run_frozen ranRest nextInvariant endedNext, none]
  · intro every
    have all : world.Invariant ∧ world.Conserves ∧
        (world.tracker.ended ≠ none → world.undelivered = []) := by
      refine Machine.run_invariant_of_everyStep
        (fun visited => visited.Invariant ∧ visited.Conserves ∧
          (visited.tracker.ended ≠ none → visited.undelivered = []))
        ?_ ⟨World.Invariant.start args inherited,
          World.Conserves.start args inherited,
          fun ended => absurd rfl ended⟩ every ran
      rintro visited event next ⟨invariant, conserves, empty⟩ meets stepped
      have moves := step_moves stepped
      have nextInvariant := moves.invariant invariant
      have nextConserves := moves.conserves invariant conserves
      refine ⟨nextInvariant, nextConserves, fun endedNext => ?_⟩
      by_cases alive : visited.tracker.ended = none
      · cases handler : event.isWaitpid with
        | true => rw [(moves.waitpid handler).2, meets handler]
        | false =>
            exact moves.ends_delivered nextConserves nextInvariant handler alive
              endedNext
      · rw [(moves.frozen invariant alive).2, empty alive]
    exact all.2.2 ended

end Runs

/-- The child writes two bytes, exits, and the signal comes before they are
read. -/
def signalFirst : List Event :=
  launched ++ [.child, .transfer 2, .child, .child, .deliver, .waitpid 0]

/-- The bytes that are still in the pipe are lost. -/
theorem output_lost :
    ¬∀ (capacity : Nat) (program : Program) (args : List (List UInt8))
      (inherited : List Int) (events : List Event) (world : World),
      (World.step capacity program).run (World.start args inherited) events =
        some world →
      world.tracker.ended ≠ none →
      (∃ child code, world.child = some child ∧
        child.pc = .ended (.exited code)) →
      world.tracker.output = world.written := by
  intro claimed
  have reached :
      ((World.step 65536 writesTwo).run (World.start [[], [108, 115]] [0, 1, 2])
        signalFirst).map (fun world =>
          (world.tracker.ended, world.child.map Child.pc,
            world.tracker.output, world.written)) =
      some (some (.exited 0), some (.ended (.exited 0)), [],
        [104, 105]) := by decide
  obtain ⟨world, ran, ends⟩ := Option.map_eq_some_iff.mp reached
  simp only [Prod.mk.injEq] at ends
  obtain ⟨ended, childPc, output, written⟩ := ends
  obtain ⟨child, isChild, pc⟩ := Option.map_eq_some_iff.mp childPc
  have complete :=
    claimed _ _ _ _ _ world ran (by simp [ended]) ⟨child, 0, isChild, pc⟩
  rw [output, written] at complete
  cases complete

/-- The tracker reads everything before the signal comes. -/
theorem output_complete_iff_readFirst :
    ∃ world, (World.step 65536 writesTwo).run
      (World.start [[], [108, 115]] [0, 1, 2])
        readFirst = some world ∧
      world.tracker.output = world.written ∧ world.written = [104, 105] := by
  have reached :
      ((World.step 65536 writesTwo).run (World.start [[], [108, 115]] [0, 1, 2])
        readFirst).map (fun world => (world.tracker.ended, world.written)) =
      some (some (.exited 0), [104, 105]) := by decide
  obtain ⟨world, ran, ends⟩ := Option.map_eq_some_iff.mp reached
  simp only [Prod.mk.injEq] at ends
  exact ⟨world, ran, (output_complete_iff ran (by simp [ends.1])).mpr
    (by decide), ends.2⟩

end ForkPipe
end LinuxCPractice
