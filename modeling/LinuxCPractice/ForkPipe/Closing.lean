import LinuxCPractice.ForkPipe.Plumbing

/-!
# What the tracker closes

`main` closes the ends of the pipes by their numbers, all but one: `PARENT_READ`
is closed by `fclose` first, which closes the descriptor of the stream. The
`close` at the end of `main` is a second one. An ordinary child keeps the
tracker from coming to it, because the handler ends the process, but a child
that closes its standard output and goes on does not.
-/

namespace LinuxCPractice
namespace ForkPipe

/-- The descriptor an entry of the log has closed. -/
def Entry.closed : Entry → Option Int
  | .close fd => some fd
  | _ => none

/-- The number of ends that `main` closes on the way to a place. -/
def Pc.closings : Pc → Nat
  | .checkArguments | .sigaction | .pipe _ | .callocVector | .callocWord | .fork
  | .storeChildpid _ | .closeChildRead => 0
  | .closeChildWrite => 1
  | .fgetc | .putchar | .fclose => 2
  | .sleep | .closeParentWrite => 3
  | .closeParentRead => 4

namespace Tracker

/-- The ends of both pipes in the order in which they are closed first. -/
def pipeDescriptors (tracker : Tracker) : List Int :=
  [tracker.childRead, tracker.childWrite, tracker.parentRead,
    tracker.parentWrite]

/-- All calls of `close`, that of `fclose` among them. -/
def closes (tracker : Tracker) : List Int := tracker.log.filterMap Entry.closed

/-- No descriptor of a pipe has been closed twice. -/
def ClosesOnce (tracker : Tracker) : Prop :=
  ∀ fd ∈ tracker.pipeDescriptors, tracker.closes.count fd ≤ 1

instance (tracker : Tracker) : Decidable tracker.ClosesOnce :=
  inferInstanceAs (Decidable (∀ fd ∈ tracker.pipeDescriptors,
    tracker.closes.count fd ≤ 1))

/-- Each end has been closed when `main` came past its place. -/
def Closed (tracker : Tracker) : Prop :=
  tracker.closes = tracker.pipeDescriptors.take tracker.pc.closings

end Tracker

/-- The step to come is not the last statement of `main`. -/
def World.NotLast (world : World) (event : Event) : Prop :=
  event = .main → world.tracker.pc ≠ .closeParentRead

instance (world : World) (event : Event) : Decidable (world.NotLast event) :=
  inferInstanceAs (Decidable (_ → _))

/-! ## The end of the tracker -/

namespace Tracker

theorem closes_leave (tracker : Tracker) (status : Int) :
    (tracker.leave status).closes = tracker.closes := by
  unfold leave
  split
  · rfl
  · rename_i freed deallocated
    have quiet : freed.filterMap Entry.closed = [] := by
      unfold deallocAll at deallocated
      split at deallocated
      · split at deallocated <;> cases deallocated
        rfl
      · cases deallocated
        simp [Entry.closed]
    show (tracker.log ++ freed).filterMap Entry.closed = _
    rw [List.filterMap_append, quiet, List.append_nil]
    rfl

theorem closes_record {entry : Entry} (quiet : entry.closed = none)
    (tracker : Tracker) :
    (tracker.record entry).closes = tracker.closes := by
  show (tracker.log ++ [entry]).filterMap Entry.closed = _
  rw [List.filterMap_append, List.filterMap_cons_none quiet, List.filterMap_nil,
    List.append_nil]
  rfl

theorem closes_printErrorAndExit (tracker : Tracker) (failure : Failure) :
    (tracker.printErrorAndExit failure).closes = tracker.closes :=
  ((tracker.record _).closes_leave 2).trans (closes_record rfl tracker)

theorem closes_collectZombie (tracker : Tracker) (ret : Int) (status : Nat) :
    (tracker.collectZombie ret status).closes = tracker.closes := by
  unfold collectZombie
  split
  · exact tracker.closes_printErrorAndExit _
  · split
    · exact ((tracker.record _).closes_leave 0).trans
        (closes_record rfl tracker)
    · exact tracker.closes_leave 0

/-- A call of `close` is the last one. -/
theorem closes_close (tracker : Tracker) (fd : Int) (next : Pc) :
    (tracker.close fd next).closes = tracker.closes ++ [fd] := by
  show (tracker.log ++ [Entry.close fd]).filterMap Entry.closed = _
  rw [List.filterMap_append]
  rfl

/-- The process ends where it stands, without another call of `close`. -/
theorem Closed.quits {tracker next : Tracker} (closed : tracker.Closed)
    (quits : tracker.Quits next) (closes : next.closes = tracker.closes) :
    next.Closed := by
  obtain ⟨_, _, _, rfl⟩ := quits
  exact closes.trans closed

/-! ## Steps -/

/-- Until its last statement `main` closes each end once. -/
theorem Moves.closed {tracker next : Tracker} (moves : tracker.Moves next)
    (notLast : tracker.pc ≠ .closeParentRead) (closed : tracker.Closed) :
    next.Closed := by
  cases moves with
  | argumentsFailed | pipeFailed | callocFailed =>
      exact closed.quits (tracker.quits_printErrorAndExit _)
        (tracker.closes_printErrorAndExit _)
  | argumentsChecked pc | installed pc | writepipeOpened pc | readpipeOpened pc
  | vectorAllocated pc | wordsAllocated pc | stored pc | slept pc =>
      rw [Closed, pc] at closed
      exact closed
  | wordAllocated => exact closed
  | put pc =>
      rw [Closed, pc] at closed
      exact (closes_record rfl tracker).trans closed
  | closedChildRead pc | closedChildWrite pc | closedStream pc
  | closedParentWrite pc =>
      rw [Closed, pc] at closed
      rw [Closed, closes_close, closed]
      rfl
  | returned pc => exact absurd pc notLast

/-- From its last statement `main` can only return. -/
theorem Moves.ended_of_last {tracker next : Tracker}
    (moves : tracker.Moves next)
    (pc : tracker.pc = .closeParentRead) : next.ended ≠ none := by
  cases moves with
  | returned => simp [finish]
  | callocFailed =>
      exact (tracker.quits_printErrorAndExit _).ended
  | argumentsFailed other | argumentsChecked other | installed other
  | pipeFailed other
  | writepipeOpened other | readpipeOpened other | vectorAllocated other
  | wordAllocated other
  | wordsAllocated other | stored other | closedChildRead other
  | closedChildWrite other
  | put other | closedStream other | slept other | closedParentWrite other =>
      rw [pc] at other
      cases other

end Tracker

/-- Only its last statement ends the process from there while no handler
runs. -/
theorem World.ended_step_of_last {capacity : Nat} {program : Program}
    {world next : World}
    {event : Event} (stepped : world.step capacity program event = some next)
    (other : event ≠ .main) (runs : world.tracker.Runs)
    (pc : world.tracker.pc = .closeParentRead) : next.tracker.ended = none := by
  unfold World.step at stepped
  split at stepped
  · exact absurd rfl other
  · simp [mainStep, pc] at stepped
  · simp [mainStep, Tracker.calloc, pc] at stepped
  · simp [mainStep, pc] at stepped
  · rw [deliver, if_pos runs] at stepped
    obtain ⟨cause, _, rfl⟩ := Option.map_eq_some_iff.mp stepped
    exact runs.1
  · simp [collectZombie, runs.2] at stepped
  all_goals
    obtain ⟨child, _, moved⟩ := Option.bind_eq_some_iff.mp stepped
    try (split at moved; cases moved)
    first
      | rw [tracker_childEvent moved]
        exact runs.1
      | rw [tracker_jobControl moved]
        exact runs.1

/-- Until the last statement of `main` no event closes an end twice. -/
theorem World.closed_step {capacity : Nat} {program : Program}
    {world next : World}
    {event : Event} (stepped : world.step capacity program event = some next)
    (notLast : world.NotLast event) (closed : world.tracker.Closed) :
    next.tracker.Closed := by
  cases step_moves stepped with
  | tracker runs _ moves =>
      refine moves.closed ?_ closed
      intro pc
      have alive :=
        ended_step_of_last stepped (fun isMain => notLast isMain pc) runs pc
      exact moves.ended_of_last pc alive
  | buffered _ pc | reachedEnd _ pc | notReadable _ pc | forked _ pc =>
      rw [Tracker.Closed, pc] at closed
      exact closed
  | refilled | delivered | child | transferred | pipeBroken | received
  | readReturned =>
      exact closed
  | forkFailed =>
      have renamed : Tracker.Closed { world.tracker with childpid := -1 } :=
        closed
      exact renamed.quits (Tracker.quits_printErrorAndExit _ _)
        (Tracker.closes_printErrorAndExit _ _)
  | collected | reaped =>
      exact closed.quits (Tracker.quits_collectZombie _ _ _)
        (Tracker.closes_collectZombie _ _ _)
  | terminated | stopped | continued =>
      simpa only [terminate, signal_tracker] using closed

/-! ## Runs -/

/-- The ends of the pipes have different numbers. -/
theorem Tracker.Assigned.nodup {inherited : List Int} {tracker : Tracker}
    (assigned : tracker.Assigned inherited) :
    tracker.pipeDescriptors.Nodup := by
  simp [Tracker.pipeDescriptors, assigned.laterWrite.1.symm,
    assigned.laterRead.1.symm,
    assigned.ownWrite.symm, assigned.ownRead, assigned.laterWrite.2, assigned.laterRead.2]

/-- What is closed on the way through `main` is closed once. -/
theorem World.closesOnce_of_closed {inherited : List Int} {world : World}
    (closed : world.tracker.Closed) (invariant : world.Invariant)
    (holding : world.Holding inherited) : world.tracker.ClosesOnce := by
  have different : world.tracker.closes.Nodup := by
    rw [closed]
    by_cases launched : world.child = none
    · have before := invariant.launched.mp launched
      have nothing : world.tracker.pc.closings = 0 := by
        cases pc : world.tracker.pc <;> rw [pc] at before <;> first | rfl | cases before
      rw [nothing]
      exact List.nodup_nil
    · exact (holding.assigned launched).nodup.sublist (List.take_sublist _ _)
  exact fun fd _ => List.nodup_iff_count_le_one.mp different fd

/-- The last statement of `main` closes what `fclose` has closed. -/
theorem World.not_closesOnce_of_last {capacity : Nat} {program : Program}
    {world next : World}
    (stepped : world.step capacity program .main = some next)
    (pc : world.tracker.pc = .closeParentRead) (closed : world.tracker.Closed) :
    ¬next.tracker.ClosesOnce := by
  have returned : next.tracker =
      (world.tracker.close world.tracker.parentRead .closeParentRead).finish
        (.exited 0) := by
    unfold World.step at stepped
    simp only [mainStep, pc, Tracker.main, Option.map_some] at stepped
    split at stepped
    · cases stepped
      rfl
    · cases stepped
  have twice : next.tracker.closes =
      world.tracker.pipeDescriptors ++ [world.tracker.parentRead] := by
    have all : world.tracker.closes = world.tracker.pipeDescriptors := by
      rw [closed, pc]
      rfl
    rw [returned, ← all]
    exact world.tracker.closes_close world.tracker.parentRead .closeParentRead
  have isEnd : world.tracker.parentRead ∈ world.tracker.pipeDescriptors := by
    simp [Tracker.pipeDescriptors]
  have same : next.tracker.pipeDescriptors = world.tracker.pipeDescriptors := by
    rw [returned]
    rfl
  intro once
  have bound := once world.tracker.parentRead (same ▸ isEnd)
  have first := List.count_pos_iff.mpr isEnd
  rw [twice, List.count_append, List.count_singleton_self] at bound
  omega

/-- In every run the descriptors of the pipes are closed at most once exactly as
long as the last statement of `main` is not executed. -/
theorem closes_once_iff {capacity : Nat} {program : Program}
    {args : List (List UInt8)}
    {inherited : List Int} {events : List Event} {world : World}
    (ran : (World.step capacity program).run
      (World.start args inherited) events = some world) :
    (World.step capacity program).Always
      (fun visited => visited.tracker.ClosesOnce)
        (World.start args inherited) events ↔
      (World.step capacity program).EveryStep World.NotLast
        (World.start args inherited)
        events := by
  refine Machine.always_iff_everyStep (fun visited => visited.tracker.Closed ∧
    visited.Invariant ∧ visited.Holding inherited) ?_ ?_ ?_ ?_ ran
  · rintro visited event next ⟨closed, invariant, holding⟩ notLast stepped
    have moves := step_moves stepped
    exact ⟨World.closed_step stepped notLast closed, moves.invariant invariant,
      moves.holding invariant holding⟩
  · rintro visited ⟨closed, invariant, holding⟩
    exact World.closesOnce_of_closed closed invariant holding
  · rintro visited event next ⟨closed, _⟩ stepped once rfl pc
    exact World.not_closesOnce_of_last stepped pc closed once
  · exact ⟨rfl, World.Invariant.start args inherited,
      World.Holding.start args inherited⟩

/-- An ordinary child exits, and the handler ends the tracker while it
sleeps. -/
theorem closes_once_iff_readFirst :
    ∃ world, (World.step 65536 writesTwo).run
      (World.start [[], [108, 115]] [0, 1, 2])
        readFirst = some world ∧
      (World.step 65536 writesTwo).Always
        (fun visited => visited.tracker.ClosesOnce)
        (World.start [[], [108, 115]] [0, 1, 2]) readFirst := by
  have reached :
      ((World.step 65536 writesTwo).run (World.start [[], [108, 115]] [0, 1, 2])
        readFirst).isSome = true := by decide
  obtain ⟨world, ran⟩ := Option.isSome_iff_exists.mp reached
  exact ⟨world, ran, (closes_once_iff ran).mpr (by decide)⟩

/-- A program that closes its standard output and waits for input. -/
def closesStdout : Program := fun outcomes => if outcomes = [] then .closeStdout
    else .read

/-- The tracker comes to the end of the pipe, sleeps and returns from `main`. -/
def outlived : List Event :=
  launched ++ [.child, .child, .main, .main, .main, .main, .main]

/-- Then `PARENT_READ` is closed twice. -/
theorem not_closes_once_of_closed_stdout :
    ¬∀ (capacity : Nat) (program : Program) (args : List (List UInt8))
      (inherited : List Int) (events : List Event) (world : World),
      (World.step capacity program).run (World.start args inherited) events =
        some world →
      world.tracker.ClosesOnce := by
  intro claimed
  have reached : ((World.step 65536 closesStdout).run
      (World.start [[], [108, 115]] [0, 1, 2])
      outlived).map (fun world =>
        (world.tracker.parentRead, world.tracker.closes)) =
      some (5, [3, 6, 5, 4, 5]) := by decide
  obtain ⟨world, ran, view⟩ := Option.map_eq_some_iff.mp reached
  simp only [Prod.mk.injEq] at view
  have once := claimed _ _ _ _ _ world ran world.tracker.parentRead
    (by simp [Tracker.pipeDescriptors])
  rw [view.1, view.2] at once
  exact absurd once (by decide)

end ForkPipe
end LinuxCPractice
