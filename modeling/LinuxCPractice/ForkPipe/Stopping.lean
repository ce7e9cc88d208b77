import LinuxCPractice.ForkPipe.Deadlock
import LinuxCPractice.ForkPipe.Plumbing
import LinuxCPractice.ForkPipe.Reaping

/-!
# Where the two processes come to a stop

Left to themselves, without signals from outside, the tracker and its child go
on until the tracker has ended and the child has ended or is stopped, or until
they wait for each other. There is nothing else to wait for: a write finds a
reader that empties the pipe or none at all, and once the child is stopped or
has terminated, `SIGCHLD` is on its way to the tracker.
-/

namespace LinuxCPractice
namespace ForkPipe

open DescriptorTable

/-! ## No step is left -/

/-- The event is a step of one of the processes, or the delivery of a signal to
the tracker. -/
def Event.isOwn : Event → Bool
  | .stop | .continue | .kill _ _ => false
  | _ => true

/-- Nothing happens without a signal from outside. -/
def World.Stuck (capacity : Nat) (program : Program) (world : World) : Prop :=
  ∀ event, event.isOwn = true → World.step capacity program world event = none

/-- The tracker has ended, and its child has ended, is stopped or does not
exist. -/
def World.Finished (world : World) : Prop :=
  world.tracker.ended ≠ none ∧
    ∀ child, world.child = some child →
      child.isEnded = true ∨ child.stopped = true

/-! ## What the tracker can know of -/

/-- As long as no signal has reached the tracker and none is pending, its child
runs. -/
def World.Undisturbed (world : World) : Prop :=
  world.tracker.Runs → world.pending = none →
    ∀ child, world.child = some child →
      child.isEnded = false ∧ child.stopped = false

/-- The write end of `writepipe` leaves the child with its first call. -/
def Child.Unwired (tracker : Tracker) (child : Child) : Prop :=
  child.descriptors.OnlyAt (.writeEnd .writepipe)
    (if child.pc = .closeParentWrite then {tracker.parentWrite} else ∅)

/-- A signal to a tracker that has not ended is pending. -/
theorem World.pending_signal {world : World} (cause : Cause)
    (alive : world.tracker.ended = none) :
    (world.signal cause).pending ≠ none := by
  unfold World.signal
  rw [if_pos alive]
  cases world.pending <;> simp

/-- A move of the child is not its end and does not stop it. -/
theorem Child.Moves.running {program : Program} {tracker : Tracker}
    {child next : Child}
    (moves : child.Moves program tracker next) :
    next.isEnded = false ∧ next.stopped = child.stopped := by
  cases moves <;> exact ⟨rfl, rfl⟩

/-- A move of the child does not bring the write end of `writepipe` back. -/
theorem Child.Moves.unwired {program : Program} {tracker : Tracker}
    {child next : Child}
    (moves : child.Moves program tracker next)
    (unwired : child.Unwired tracker) :
    next.Unwired tracker := by
  unfold Unwired at unwired ⊢
  cases moves with
  | closedParentWrite pc =>
      rw [if_pos pc] at unwired
      exact unwired.erase_self
  | closedParentRead pc | closedChildRead pc | closedChildWrite pc
  | closedStdin pc
  | closedStdout pc =>
      rw [if_neg (by simp [pc])] at unwired
      exact unwired.erase_subset _
  | dupedChildRead pc | dupedChildWrite pc =>
      rw [if_neg (by simp [pc])] at unwired
      exact unwired.dup2_of_notMem _ (by simp)
  | started pc | reads pc | writes pc | wrote pc | writeFailed pc =>
      rw [if_neg (by simp [pc])] at unwired
      exact unwired

section Steps

variable {capacity : Nat} {program : Program} {world next : World}
  {event : Event}

/-- No event ends or stops the child without a signal. -/
theorem World.Undisturbed.step (undisturbed : world.Undisturbed)
    (moves : world.Moves capacity program event next) : next.Undisturbed := by
  intro isRunning quiet child isChild
  cases moves with
  | tracker runs | buffered runs | refilled runs | reachedEnd runs
  | notReadable runs =>
      exact undisturbed runs quiet child isChild
  | forkFailed =>
      exact absurd isRunning.1 (Tracker.quits_printErrorAndExit _ _).ended
  | forked =>
      cases isChild
      exact ⟨rfl, rfl⟩
  | delivered => cases isRunning.2
  | collected | reaped =>
      exact absurd isRunning.1 (world.tracker.quits_collectZombie _ _).ended
  | child isOld _ moves =>
      cases isChild
      obtain ⟨lives, same⟩ := moves.running
      exact ⟨lives, same.trans (undisturbed isRunning quiet _ isOld).2⟩
  | transferred isOld | pipeBroken isOld | received isOld
  | readReturned isOld =>
      cases isChild
      exact ⟨rfl, (undisturbed isRunning quiet _ isOld).2⟩
  | terminated | stopped | continued =>
      simp only [terminate, signal_tracker] at isRunning
      exact absurd quiet (World.pending_signal _ isRunning.1)

/-- `fork` is called when the write end of `writepipe` is nowhere else. -/
theorem World.Moves.unwired {inherited : List Int}
    (moves : world.Moves capacity program event next)
    (invariant : world.Invariant)
    (holding : world.Holding inherited)
    (unwired : ∀ child, world.child = some child →
      child.Unwired world.tracker) :
    ∀ child, next.child = some child → child.Unwired next.tracker := by
  intro child isChild
  cases moves with
  | tracker runs _ moves =>
      have present : world.child ≠ none := fun none => by simp_all
      have numbers :=
        moves.numbers (by simpa using mt invariant.launched.mpr present)
      have before := unwired child isChild
      unfold Child.Unwired Tracker.parentWrite at before ⊢
      rwa [numbers.1]
  | buffered | refilled | reachedEnd | notReadable | delivered =>
      exact unwired child isChild
  | forkFailed runs pc =>
      have none := invariant.launched.mpr (by rw [pc]; rfl)
      exact nomatch none.symm.trans isChild
  | forked runs pc =>
      cases isChild
      have holds := holding.tracker runs.1
      simp only [Tracker.Holds, pc] at holds
      intro fd found
      have member : (fd, File.writeEnd .writepipe) ∈
          world.tracker.descriptors.within pipeEnds :=
        ⟨by simp [pipeEnds], found⟩
      have there : fd = world.tracker.parentWrite := by
        simpa [holds.1, Tracker.childWriteEnd, Tracker.parentReadEnd,
          Tracker.parentWriteEnd, Tracker.childReadEnd] using member
      rw [if_pos (show (Child.start _ _).pc = .closeParentWrite from rfl)]
      exact there
  | collected =>
      obtain ⟨_, _, _, same⟩ := world.tracker.quits_collectZombie _ _
      rw [same]
      exact unwired child isChild
  | reaped _ _ isOld =>
      cases isChild
      obtain ⟨_, _, _, same⟩ := world.tracker.quits_collectZombie _ _
      rw [same]
      have before := unwired _ isOld
      exact before
  | child isOld _ moves =>
      cases isChild
      exact moves.unwired (unwired _ isOld)
  | terminated termination isOld =>
      simp only [terminate, signal_child, Option.some.injEq] at isChild
      subst isChild
      exact onlyAt_empty _ _
  | transferred isOld pc | pipeBroken isOld pc | received isOld pc
  | readReturned isOld pc =>
      cases isChild
      have before := unwired _ isOld
      unfold Child.Unwired at before ⊢
      rw [if_neg (by simp [pc])] at before
      exact before
  | stopped isOld | continued isOld =>
      simp only [signal_child, Option.some.injEq] at isChild
      subst isChild
      rw [signal_tracker]
      have before := unwired _ isOld
      exact before

end Steps

/-! ## Where the child can wait -/

/-- The child waits in a read for input from the tracker. -/
def World.ChildReads (world : World) (child : Child) : Prop :=
  child.pc = .reading ∧
    child.descriptors.lookup 0 = some (.readEnd .writepipe) ∧
    world.content .writepipe = [] ∧
    world.tracker.descriptors.Refers (.writeEnd .writepipe)

/-- The child waits in a write for the tracker to empty the pipe. -/
def World.ChildWrites (capacity : Nat) (world : World) : Prop :=
  world.tracker.descriptors.Refers (.readEnd .readpipe) ∧
    capacity ≤ (world.content .readpipe).length

section Waits

variable {capacity : Nat} {program : Program} {world : World} {child : Child}

/-- Once it has made its first call the child holds no write end of
`writepipe`. -/
theorem Child.Unwired.not_refers {tracker : Tracker}
    (unwired : child.Unwired tracker)
    (behind : child.pc ≠ .closeParentWrite) :
    ¬child.descriptors.Refers (.writeEnd .writepipe) := by
  unfold Unwired at unwired
  rw [if_neg behind] at unwired
  exact unwired.not_refers

/-- A child stuck in a read waits for the tracker. -/
theorem World.Stuck.child_reads (stuck : world.Stuck capacity program)
    (invariant : world.Invariant) (isChild : world.child = some child)
    (unwired : child.Unwired world.tracker) (free : child.stopped = false)
    (pc : child.pc = .reading) : world.ChildReads child := by
  have fails := stuck (.childRead .failed) rfl
  simp only [step, isChild, Option.bind_some, free, childEvent, childRead, pc]
    at fails
  cases stdin : child.descriptors.lookup 0 with
  | none => simp [stdin] at fails
  | some file =>
      cases file with
      | other | writeEnd pipe => simp [stdin] at fails
      | readEnd pipe =>
          cases pipe with
          | readpipe =>
              have ends := invariant.child_onlyAt isChild (.inl pc)
              exact absurd ⟨0, stdin⟩ ends.1.not_refers
          | writepipe =>
              have data :=
                stuck (.childRead (.data (world.content .writepipe))) rfl
              have ends := stuck (.childRead .endOfFile) rfl
              simp [step, isChild, free, childEvent, childRead, pc, stdin]
                at data ends
              refine ⟨pc, stdin, data, ?_⟩
              rcases ends data with refers | ⟨other, isOther, refers⟩
              · exact refers
              · cases isChild.symm.trans isOther
                exact absurd refers (unwired.not_refers (by simp [pc]))

/-- A child stuck in a write waits for room in the pipe. -/
theorem World.Stuck.child_writes (stuck : world.Stuck capacity program)
    (invariant : world.Invariant) (isChild : world.child = some child)
    (unwired : child.Unwired world.tracker) (free : child.stopped = false)
    {rest : List UInt8}
    (pc : child.pc = .writing rest) : world.ChildWrites capacity := by
  have returns := stuck .child rfl
  simp only [step, isChild, Option.bind_some, free, childEvent, childStep, pc]
    at returns
  cases stdout : child.descriptors.lookup 1 with
  | none => simp [stdout] at returns
  | some file =>
      cases file with
      | other | readEnd pipe => simp [stdout] at returns
      | writeEnd pipe =>
          cases pipe with
          | writepipe =>
              exact absurd ⟨1, stdout⟩ (unwired.not_refers (by simp [pc]))
          | readpipe =>
              have more : rest ≠ [] := by
                rintro rfl
                simp [stdout] at returns
              have broken := stuck (.brokenPipe true) rfl
              have moves := stuck (.transfer 1) rfl
              simp [step, isChild, free, childEvent, brokenPipe, pc, stdout,
                more] at broken
              simp [step, isChild, free, childEvent, transfer, pc, stdout,
                broken] at moves
              refine ⟨?_, ?_⟩
              · rcases broken with refers | ⟨other, isOther, refers⟩
                · exact refers
                · cases isChild.symm.trans isOther
                  have ends := invariant.child_onlyAt isChild (.inr ⟨rest, pc⟩)
                  exact absurd refers ends.1.not_refers
              · have positive := List.length_pos_iff.mpr more
                omega

/-- A running child that cannot go on waits for the tracker. -/
theorem World.Stuck.child_waits (stuck : world.Stuck capacity program)
    (invariant : world.Invariant) (isChild : world.child = some child)
    (unwired : child.Unwired world.tracker) (lives : child.isEnded = false)
    (free : child.stopped = false) :
    world.ChildReads child ∨ world.ChildWrites capacity := by
  cases pc : child.pc with
  | closeParentWrite | closeParentRead | dupChildRead | closeChildRead
  | dupChildWrite
  | closeChildWrite =>
      have stays := stuck .child rfl
      simp [step, isChild, free, childEvent, childStep, pc] at stays
  | execvp =>
      have stays := stuck (.execvp true) rfl
      simp [step, isChild, free, childEvent, execvp, pc] at stays
  | running =>
      have stays := stuck .child rfl
      cases act : program child.outcomes <;>
        simp [step, isChild, free, childEvent, childStep, pc, act] at stays
  | reading => exact .inl (stuck.child_reads invariant isChild unwired free pc)
  | writing rest =>
      exact .inr (stuck.child_writes invariant isChild unwired free pc)
  | ended termination => simp [Child.isEnded, pc] at lives

/-- A living tracker that cannot go on waits for the output of its child, with
no signal on its way. -/
theorem World.Stuck.tracker_waits (stuck : world.Stuck capacity program)
    (knows : world.Knows) (alive : world.tracker.ended = none) :
    world.ParentBlocked ∧ world.pending = none := by
  have handler := stuck (.waitpid 0) rfl
  have free : world.tracker.handling = none := by
    by_contra handling
    simp only [step, collectZombie, alive, handling, not_false_eq_true, ne_eq,
      and_self, if_true] at handler
    split at handler <;> cases handler
  have delivers := stuck .deliver rfl
  simp only [step, deliver, alive, free, and_self, if_true,
    Option.map_eq_none_iff] at delivers
  have main := stuck .main rfl
  have runs : world.tracker.Runs := ⟨alive, free⟩
  cases pc : world.tracker.pc with
  | checkArguments =>
      simp only [step, mainStep, runs, and_self, if_true, pc, Tracker.main]
        at main
      split at main <;> cases main
  | sigaction | storeChildpid | closeChildRead | closeChildWrite | putchar
  | fclose | sleep
  | closeParentWrite | closeParentRead =>
      simp [step, mainStep, runs, pc, Tracker.main] at main
  | pipe which =>
      have opens := stuck (.pipe none) rfl
      simp [step, mainStep, runs, pc, Tracker.pipe] at opens
  | callocVector =>
      have allocates := stuck (.calloc true) rfl
      simp [step, mainStep, runs, pc, Tracker.calloc] at allocates
  | callocWord =>
      obtain ⟨words, allocated⟩ :=
        Option.ne_none_iff_exists'.mp (knows.allocated (.inl pc))
      have allocates := stuck (.calloc true) rfl
      simp [step, mainStep, runs, pc, Tracker.calloc, allocated] at allocates
      simp [step, mainStep, runs, pc, Tracker.main, allocated] at main
      omega
  | fork =>
      have forks := stuck (.fork none) rfl
      simp [step, mainStep, runs, pc, World.fork] at forks
  | fgetc =>
      refine ⟨⟨runs, pc, ?_⟩, delivers⟩
      simpa only [step, mainStep, runs, and_self, if_true, pc] using main

end Waits

/-! ## The end of every run -/

section Runs

variable {capacity : Nat} {program : Program} {args : List (List UInt8)}
  {inherited : List Int}
  {events : List Event} {world : World}

/-- In every run the child runs while no signal has been sent. -/
theorem undisturbed_of_run
    (ran : (World.step capacity program).run
      (World.start args inherited) events = some world) :
    world.Undisturbed :=
  Machine.run_invariant World.Undisturbed
    (fun _ _ _ undisturbed stepped => undisturbed.step (step_moves stepped))
    (fun _ _ _ isChild => by cases isChild) ran

/-- In every run the child has no ends but its own. -/
theorem unwired_of_run
    (ran : (World.step capacity program).run
      (World.start args inherited) events = some world) :
    ∀ child, world.child = some child → child.Unwired world.tracker :=
  Machine.run_invariant_past
    (fun _ world => ∀ child, world.child = some child →
      child.Unwired world.tracker)
    (fun _ isChild => nomatch isChild)
    (fun _ _ _ _ ranPast unwired stepped =>
      (step_moves stepped).unwired (run_invariant ranPast)
        (World.Holding.of_run ranPast) unwired)
    ran

/-- In every run such a program keeps away from the deadlock. -/
theorem avoids_of_run (never : ¬program.ReadsBeforeClosing)
    (ran : (World.step capacity program).run
      (World.start args inherited) events = some world) :
    world.Avoids program :=
  Machine.run_invariant_past (fun _ world => world.Avoids program)
    (by simp [World.Avoids, World.start])
    (fun _ _ _ _ ranPast avoids stepped =>
      (step_moves stepped).avoids never (run_invariant ranPast) avoids)
    ran

/-- A tracker that waits has a child, and its pipes are as they should be. -/
theorem deadlocked_of_stuck (room : 0 < capacity)
    (ran : (World.step capacity program).run
      (World.start args inherited) events = some world)
    (stuck : world.Stuck capacity program)
    (alive : world.tracker.ended = none) :
    world.Deadlocked ∧ world.pending = none := by
  have invariant := run_invariant ran
  obtain ⟨blocked, quiet⟩ := stuck.tracker_waits (run_knows ran alive) alive
  obtain ⟨runs, pc, waits⟩ := blocked
  have present : world.child ≠ none := by
    intro absent
    have before := invariant.launched.mp absent
    rw [pc] at before
    cases before
  obtain ⟨child, isChild⟩ := Option.ne_none_iff_exists'.mp present
  obtain ⟨lives, free⟩ := undisturbed_of_run ran runs quiet child isChild
  have unwired := unwired_of_run ran child isChild
  refine ⟨⟨⟨runs, pc, waits⟩, child, isChild, ?_⟩, quiet⟩
  rcases stuck.child_waits invariant isChild unwired lives free with reads
    | ⟨_, full⟩
  · obtain ⟨reading, stdin, empty, _⟩ := reads
    have plumbed := tracker_plumbed ran alive pc
    have holds : (world.tracker.parentWriteEnd) ∈
        world.tracker.descriptors.within pipeEnds := by
      rw [plumbed]
      exact .inl rfl
    refine ⟨reading, stdin, empty, holds.2, ?_, ?_⟩
    · intro fd found
      have member : (fd, File.writeEnd .writepipe) ∈
          world.tracker.descriptors.within pipeEnds :=
        ⟨by simp [pipeEnds], found⟩
      rw [plumbed] at member
      simpa [Tracker.parentWriteEnd, Tracker.parentReadEnd] using member
    · intro fd found
      exact absurd ⟨fd, found⟩ (unwired.not_refers (by simp [reading]))
  · -- a full pipe is not empty, so that the tracker has something to read
    have source := invariant.lookup_parentRead runs pc
    have some_ : world.content .readpipe ≠ [] :=
      List.length_pos_iff.mp (by omega)
    unfold World.fgetc at waits
    split at waits
    · cases waits
    · simp [source, some_] at waits

/-- When both have finished nothing is left to do. -/
theorem World.Finished.stuck (finished : world.Finished) :
    world.Stuck capacity program := by
  obtain ⟨ended, childEnds⟩ := finished
  intro event own
  have tracker :
      ¬(world.tracker.ended = none ∧ world.tracker.handling = none) :=
    fun runs => ended runs.1
  cases event with
  | main | pipe | calloc | fork => simp only [step, mainStep, tracker, if_false]
  | deliver => simp only [step, deliver, tracker, if_false]
  | waitpid => simp only [step, collectZombie, ended, false_and, if_false]
  | child | execvp | transfer | brokenPipe | childRead =>
      cases isChild : world.child with
      | none => simp only [step, isChild, Option.bind_none]
      | some child =>
          rcases childEnds child isChild with hasEnded | stopped
          · unfold Child.isEnded at hasEnded
            split at hasEnded
            case h_1 termination pc =>
              simp [step, isChild, childEvent, childStep, execvp, transfer,
                brokenPipe, childRead, pc]
            case h_2 => cases hasEnded
          · simp only [step, isChild, stopped, Option.bind_some, if_true]
  | stop | «continue» | kill => cases own

/-- Whatever descriptors it has inherited and whatever its child does, the two
stop only where the tracker has ended and the child has ended or is stopped, or
where they wait for each other and no signal is on its way. With a program that
does not read before it closes a stream or exits, wherever the two stop both
have finished. -/
theorem run_stuck_iff (room : 0 < capacity)
    (ran : (World.step capacity program).run
      (World.start args inherited) events = some world) :
    (world.Stuck capacity program ↔
        world.Finished ∨ world.Deadlocked ∧ world.pending = none) ∧
      (¬program.ReadsBeforeClosing → world.Stuck capacity program →
        world.Finished) := by
  have invariant := run_invariant ran
  have stops (stuck : world.Stuck capacity program) :
      world.Finished ∨ world.Deadlocked ∧ world.pending = none := by
    by_cases alive : world.tracker.ended = none
    · exact .inr (deadlocked_of_stuck room ran stuck alive)
    · refine .inl ⟨alive, fun child isChild => ?_⟩
      by_contra goesOn
      obtain ⟨lives, free⟩ := not_or.mp goesOn
      have gone := invariant.gone alive
      have waits :=
        stuck.child_waits invariant isChild (unwired_of_run ran child isChild)
        (by simpa using lives) (by simpa using free)
      -- nobody is left at the other end of either pipe
      rcases waits with ⟨_, _, _, refers⟩ | ⟨refers, _⟩
      · exact not_refers_empty _ (gone ▸ refers)
      · exact not_refers_empty _ (gone ▸ refers)
  refine ⟨⟨stops, ?_⟩, fun never stuck => ?_⟩
  · rintro (finished | ⟨deadlocked, quiet⟩)
    · exact finished.stuck
    · intro event own
      by_contra moves
      obtain ⟨next, stepped⟩ := Option.ne_none_iff_exists'.mp moves
      rcases deadlocked.stuck stepped with rfl | rfl | rfl | ⟨signal, core, rfl⟩
      · simp [World.step, World.deliver, quiet] at stepped
      · cases own
      · cases own
      · cases own
  · rcases stops stuck with finished | ⟨deadlocked, _⟩
    · exact finished
    · exact absurd deadlocked
        ((avoids_of_run never ran).not_deadlocked invariant)

/-- A run that stops when the handler has ended the tracker. -/
theorem run_stuck_iff_readFirst :
    ∃ world, (World.step 65536 writesTwo).run
      (World.start [[], [108, 115]] [0, 1, 2])
        readFirst = some world ∧ world.Stuck 65536 writesTwo := by
  have reached :
      ((World.step 65536 writesTwo).run (World.start [[], [108, 115]] [0, 1, 2])
        readFirst).map (fun world =>
          (world.tracker.ended, world.child.map Child.isEnded)) =
      some (some (.exited 0), some true) := by decide
  obtain ⟨world, ran, view⟩ := Option.map_eq_some_iff.mp reached
  obtain ⟨ended, hasEnded⟩ := Prod.mk.inj view
  have finished : world.Finished := by
    refine ⟨by simp [ended], fun child isChild => .inl ?_⟩
    simpa [isChild] using hasEnded
  exact ⟨world, ran, (run_stuck_iff (by decide) ran).1.mpr (.inl finished)⟩

end Runs

end ForkPipe
end LinuxCPractice
