import LinuxCPractice.ForkPipe.Stopping

/-!
# The tracker outlives its child by a few steps

Once the child has terminated, in whatever way, the tracker has nothing left to
wait for. It puts out what is left in the pipe and in its buffer, or its handler
takes it away before, and in either case it ends.
-/

namespace LinuxCPractice
namespace ForkPipe

/-! ## The distance to the end -/

/-- Calls of `main` up to its end, with an empty pipe. -/
def Pc.remaining : Pc → Nat
  | .storeChildpid _ => 8
  | .closeChildRead => 7
  | .closeChildWrite | .putchar => 6
  | .fgetc => 5
  | .fclose => 4
  | .sleep => 3
  | .closeParentWrite => 2
  | _ => 1

/-- Steps of the tracker up to its end. A byte in the pipe is moved into the
buffer, taken from it and put out. -/
def World.remaining (world : World) : Nat :=
  if world.tracker.ended = none then
    world.tracker.pc.remaining + 3 * (world.content .readpipe).length +
      2 * world.tracker.stream.length + if world.tracker.handling = none then 1
        else 0
  else 0

/-- The child has terminated. -/
def World.ChildEnded (world : World) : Prop :=
  ∃ child, world.child = some child ∧ child.isEnded = true

/-- A tracker that has ended has nothing left. -/
theorem World.remaining_of_ended {world : World}
    (ended : world.tracker.ended ≠ none) :
    world.remaining = 0 := if_neg ended

theorem World.remaining_pos {world : World}
    (alive : world.tracker.ended = none) :
    0 < world.remaining := by
  have positive : 0 < world.tracker.pc.remaining := by
    cases world.tracker.pc <;> simp [Pc.remaining]
  rw [remaining, if_pos alive]
  omega

section Steps

variable {capacity : Nat} {program : Program} {world next : World}
  {event : Event}

/-- `main` comes closer to its end with each statement behind `fork`. -/
theorem Tracker.Moves.remaining_lt {tracker next : Tracker}
    (moves : tracker.Moves next)
    (forked : tracker.pc.beforeFork = false) (alive : next.ended = none) :
    next.pc.remaining < tracker.pc.remaining ∧
      next.stream = tracker.stream := by
  cases moves with
  | argumentsFailed | pipeFailed | callocFailed =>
      exact absurd alive (tracker.quits_printErrorAndExit _).ended
  | argumentsChecked pc | installed pc | writepipeOpened pc | readpipeOpened pc
  | vectorAllocated pc | wordAllocated pc | wordsAllocated pc =>
      rw [pc] at forked
      cases forked
  | stored pc | closedChildRead pc | closedChildWrite pc | put pc
  | closedStream pc | slept pc
  | closedParentWrite pc =>
      exact ⟨by simp [pc, Pc.remaining, Tracker.goto, Tracker.close], rfl⟩
  | returned => cases alive

/-- With the child gone, every step is one of the tracker and brings it closer
to its end. -/
theorem World.Moves.remaining_lt
    (moves : world.Moves capacity program event next)
    (own : event.isOwn = true) (invariant : world.Invariant)
    (hasEnded : world.ChildEnded) :
    next.remaining < world.remaining ∧ next.ChildEnded := by
  obtain ⟨child, isChild, isEnded⟩ := hasEnded
  have forked : world.tracker.pc.beforeFork = false := by
    simpa using mt invariant.launched.mpr (by simp [isChild])
  have quits {last : World} (alive : world.tracker.ended = none)
      (ended : last.tracker.ended ≠ none) :
        last.remaining < world.remaining := by
    rw [remaining_of_ended ended]
    exact remaining_pos alive
  cases moves with
  | @tracker _ tracker runs _ moves =>
      refine ⟨?_, child, isChild, isEnded⟩
      by_cases alive : tracker.ended = none
      · obtain ⟨closer, same⟩ := moves.remaining_lt forked alive
        simp only [remaining, if_pos alive, if_pos runs.1, same, moves.handling]
        omega
      · exact quits runs.1 alive
  | buffered runs pc stream =>
      refine ⟨?_, child, isChild, isEnded⟩
      simp only [remaining, if_pos runs.1, pc, stream, Pc.remaining,
        List.length_cons]
      omega
  | refilled runs pc stream source nonempty =>
      refine ⟨?_, child, isChild, isEnded⟩
      cases (invariant.lookup_parentRead runs pc).symm.trans source
      have positive := List.length_pos_iff.mpr nonempty
      simp only [remaining, if_pos runs.1, stream, Function.update_self,
        List.length_take, List.length_drop, List.length_nil, bufsiz]
      omega
  | reachedEnd runs pc | notReadable runs pc =>
      refine ⟨?_, child, isChild, isEnded⟩
      simp only [remaining, Tracker.goto, runs.1, if_true, pc, Pc.remaining]
      omega
  | forkFailed _ pc | forked _ pc =>
      rw [pc] at forked
      cases forked
  | delivered runs =>
      refine ⟨?_, child, isChild, isEnded⟩
      simp only [remaining, if_pos runs.1, if_pos runs.2, reduceCtorEq,
        if_false]
      omega
  | collected alive =>
      exact ⟨quits alive (world.tracker.quits_collectZombie _ _).ended, child,
        isChild, isEnded⟩
  | reaped alive _ isOld =>
      cases isChild.symm.trans isOld
      exact ⟨quits alive (world.tracker.quits_collectZombie _ _).ended, _, rfl,
        isEnded⟩
  | child isOld _ moves =>
      cases isChild.symm.trans isOld
      rw [moves.keeps.2.2] at isEnded
      cases isEnded
  | terminated _ isOld _ alive =>
      cases isChild.symm.trans isOld
      rw [alive] at isEnded
      cases isEnded
  | transferred isOld pc | pipeBroken isOld pc | received isOld pc
  | readReturned isOld pc =>
      cases isChild.symm.trans isOld
      rw [Child.isEnded, pc] at isEnded
      cases isEnded
  | stopped | continued => cases own

end Steps

/-! ## Whole runs -/

section Runs

variable {capacity : Nat} {program : Program} {args : List (List UInt8)}
  {inherited : List Int}
  {events more : List Event} {world final : World}

/-- Where the child has terminated and the tracker lives, the tracker can go
on. -/
theorem exists_own_of_childEnded (room : 0 < capacity)
    (ran : (World.step capacity program).run
      (World.start args inherited) events = some world)
    (hasEnded : world.ChildEnded) (alive : world.tracker.ended = none) :
    ∃ event next, event.isOwn = true ∧
      World.step capacity program world event = some next := by
  by_contra nothing
  have stuck : world.Stuck capacity program := by
    intro event own
    by_contra moves
    obtain ⟨next, stepped⟩ := Option.ne_none_iff_exists'.mp moves
    exact nothing ⟨event, next, own, stepped⟩
  obtain ⟨child, isChild, isEnded⟩ := hasEnded
  obtain ⟨⟨_, other, isOther, reading, _⟩, _⟩ :=
    deadlocked_of_stuck room ran stuck alive
  cases isChild.symm.trans isOther
  rw [Child.isEnded, reading] at isEnded
  cases isEnded

/-- Its own steps bring the tracker closer to its end. -/
theorem length_add_remaining_le
    (ran : (World.step capacity program).run
      (World.start args inherited) events = some world)
    (hasEnded : world.ChildEnded)
    (ranOn : (World.step capacity program).run world more = some final)
    (own : ∀ event ∈ more, event.isOwn = true) :
    more.length + final.remaining ≤ world.remaining ∧ final.ChildEnded := by
  refine Machine.run_invariant_past
    (fun past visited => (∀ event ∈ past, event.isOwn = true) →
      past.length + visited.remaining ≤ world.remaining ∧ visited.ChildEnded)
    (fun _ => ⟨by simp, hasEnded⟩) ?_ ranOn own
  intro past visited event next ranPast earlier stepped all
  obtain ⟨bounded, visitedOver⟩ := earlier fun event member =>
    all event (by simp [member])
  have ranVisited :
      (World.step capacity program).run (World.start args inherited)
      (events ++ past) = some visited := by
    rw [Machine.run_append, ran, Option.bind_some, ranPast]
  obtain ⟨closer, nextOver⟩ :=
    (step_moves stepped).remaining_lt (all event (by simp))
      (run_invariant ranVisited) visitedOver
  refine ⟨?_, nextOver⟩
  rw [List.length_append, List.length_singleton]
  omega

/-- Once its child has terminated, the tracker takes at most three steps for
each byte that is left to be put out and nine more, whatever happens in which
order, and until it has ended it can take another one. -/
theorem tracker_ends (room : 0 < capacity)
    (ran : (World.step capacity program).run
      (World.start args inherited) events = some world)
    (hasEnded : world.ChildEnded)
    (ranOn : (World.step capacity program).run world more = some final)
    (own : ∀ event ∈ more, event.isOwn = true) :
    more.length ≤
      3 * ((world.content .readpipe).length + world.tracker.stream.length) + 9 ∧
      (final.Finished ∨
        ∃ event next, event.isOwn = true ∧
          World.step capacity program final event = some next) := by
  obtain ⟨bounded, finalOver⟩ := length_add_remaining_le ran hasEnded ranOn own
  have few : world.tracker.pc.remaining ≤ 8 := by
    cases world.tracker.pc <;> simp [Pc.remaining]
  constructor
  · unfold World.remaining at bounded
    split at bounded <;> split at bounded <;> grind
  · by_cases alive : final.tracker.ended = none
    · have ranAll :
          (World.step capacity program).run (World.start args inherited)
          (events ++ more) = some final := by
        rw [Machine.run_append, ran, Option.bind_some, ranOn]
      exact .inr (exists_own_of_childEnded room ranAll finalOver alive)
    · refine .inl ⟨alive, fun child isChild => .inl ?_⟩
      obtain ⟨other, isOther, isEnded⟩ := finalOver
      cases isChild.symm.trans isOther
      exact isEnded

/-- The child exits while both bytes are in the pipe. -/
def exitsFirst : List Event := launched ++ [.child, .transfer 2, .child, .child]

/-- The child exits before the tracker is back from `fork`. -/
theorem tracker_ends_exitsFirst :
    ∃ world final,
      (World.step 65536 writesTwo).run (World.start [[], [108, 115]] [0, 1, 2])
        exitsFirst = some world ∧ world.ChildEnded ∧
      (World.step 65536 writesTwo).run world [.main, .main, .main, .deliver] =
        some final ∧
      ∃ event next, event.isOwn = true ∧
        World.step 65536 writesTwo final event = some next := by
  have reached :
      ((World.step 65536 writesTwo).run (World.start [[], [108, 115]] [0, 1, 2])
        exitsFirst).map (fun world => (world.child.map Child.isEnded,
          ((World.step 65536 writesTwo).run world [.main, .main, .main,
            .deliver]).map
          fun final => final.tracker.ended)) = some (some true,
            some none) := by decide
  obtain ⟨world, ran, view⟩ := Option.map_eq_some_iff.mp reached
  obtain ⟨child, view⟩ := Prod.mk.inj view
  obtain ⟨final, ranOn, alive⟩ := Option.map_eq_some_iff.mp view
  have hasEnded : world.ChildEnded := Option.map_eq_some_iff.mp child
  refine ⟨world, final, ran, hasEnded, ranOn, ?_⟩
  rcases (tracker_ends (by decide) ran hasEnded ranOn (by decide)).2
    with finished | goesOn
  · exact absurd alive finished.1
  · exact goesOn

end Runs

end ForkPipe
end LinuxCPractice
