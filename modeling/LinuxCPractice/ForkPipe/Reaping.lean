import LinuxCPractice.ForkPipe.Ends

/-!
# How the handler ends the tracker

The handler takes for granted that its signal tells of the child's end and that
`childpid` is known. It ends the tracker in any case. That is as intended
exactly when both are true at its call of `waitpid`.
-/

namespace LinuxCPractice
namespace ForkPipe

/-- The line that belongs to the end of the child. -/
def Report.ofTermination : Termination → Report
  | .exited code => .exited code.toNat
  | .killed signal _ => .killed signal.val

/-- The status of a terminated child is reported as what it is. -/
theorem report_ofTermination (termination : Termination) :
    Tracker.report (WaitStatus.ofTermination termination) =
      some (.ofTermination termination) := by
  cases termination <;> simp [Tracker.report, Report.ofTermination]

/-- If `collect_zombie` has ended the tracker, then after the end of the child,
which it has reaped and reported, and with status 0. -/
def World.EndsWell (world : World) : Prop :=
  world.tracker.handling ≠ none → world.tracker.ended ≠ none →
    world.tracker.ended = some (.exited 0) ∧
      ∃ child termination, world.child = some child ∧
        child.pc = .ended termination ∧
        child.reaped = true ∧
        .report (.ofTermination termination) ∈ world.tracker.log

/-- The result of `fork` is stored and the child has terminated. -/
def World.Collectable (world : World) : Prop :=
  world.tracker.childpid ≠ 0 ∧ ∃ child ∈ world.child, child.isEnded = true

instance (world : World) : Decidable world.Collectable :=
  inferInstanceAs (Decidable (_ ∧ ∃ child ∈ world.child, child.isEnded = true))

/-! ## What `waitpid` can return -/

/-- A status comes from a child that has ended. -/
theorem waitpid_some {child : Child} {pid ret : Int} {status : Nat}
    (result : waitpid (some child) pid = (ret, some status)) :
    ret = child.pid ∧ ∃ termination, child.pc = .ended termination ∧
      status = WaitStatus.ofTermination termination := by
  unfold waitpid at result
  split at result
  · cases result
  · rename_i other isOther
    cases isOther
    split at result
    · cases result
    · split at result
      · rename_i termination pc
        cases result
        exact ⟨rfl, termination, pc, rfl⟩
      · cases result

/-- A terminated child that is still to be reaped is found under its number. -/
theorem waitpid_ended {child : Child} (unreaped : child.reaped = false)
    (ended : child.isEnded = true) :
    ∃ status, waitpid (some child) child.pid = (child.pid, some status) := by
  unfold Child.isEnded at ended
  split at ended
  · rename_i termination pc
    exact ⟨WaitStatus.ofTermination termination,
      by simp [waitpid, unreaped, pc]⟩
  · cases ended

/-! ## Before the handler ends the tracker -/

/-- What is true of the child while the tracker lives. -/
structure World.Knows (world : World) : Prop where
  unstored : world.child = none → world.tracker.childpid = 0
  allocated : world.tracker.pc = .callocWord ∨ world.tracker.pc = .fork →
    world.tracker.argsDup ≠ none
  copied : world.child ≠ none → world.tracker.argsDup ≠ none
  child : ∀ child, world.child = some child →
    0 < child.pid ∧ child.reaped = false ∧
      (world.tracker.childpid = 0 ∨ world.tracker.childpid = child.pid) ∧
      ∀ result, world.tracker.pc = .storeChildpid result → result = child.pid

/-- `main` keeps its copy of the arguments and takes `childpid` from `fork`
only. -/
theorem Tracker.Moves.keeps {tracker next : Tracker}
    (moves : tracker.Moves next)
    (alive : next.ended = none) :
    (tracker.argsDup ≠ none → next.argsDup ≠ none) ∧
      (next.childpid = tracker.childpid ∨
        tracker.pc = .storeChildpid next.childpid) ∧
      (next.pc = .callocWord ∨ next.pc = .fork → tracker.pc ≠ .callocWord →
        next.argsDup ≠ none) ∧
      ∀ result, next.pc ≠ .storeChildpid result := by
  cases moves with
  | argumentsFailed | pipeFailed | callocFailed =>
      exact absurd alive (tracker.quits_printErrorAndExit _).ended
  | returned => cases alive
  | vectorAllocated => exact ⟨by simp, .inl rfl, by simp, by simp⟩
  | wordAllocated pc => exact ⟨by simp, .inl rfl, by simp, by simp [pc]⟩
  | stored pc => exact ⟨id, .inr pc, by simp, by simp⟩
  | wordsAllocated pc =>
      exact ⟨id, .inl rfl, fun _ other => absurd pc other, by simp [goto]⟩
  | argumentsChecked | installed | writepipeOpened | readpipeOpened
  | closedChildRead
  | closedChildWrite | put | closedStream | slept | closedParentWrite =>
      exact ⟨id, .inl rfl, by simp [goto, close], by simp [goto, close]⟩

/-- The moves of the child leave alone what its parent can know of it. -/
theorem Child.Moves.keeps {program : Program} {tracker : Tracker}
    {child next : Child}
    (moves : child.Moves program tracker next) :
    next.pid = child.pid ∧ next.reaped = child.reaped ∧
      child.isEnded = false := by
  cases moves with
  | closedParentWrite pc | closedParentRead pc | dupedChildRead pc
  | closedChildRead pc
  | dupedChildWrite pc | closedChildWrite pc | started pc | reads pc | writes pc
  | closedStdin pc | closedStdout pc | wrote pc | writeFailed pc =>
      exact ⟨rfl, rfl, by simp [isEnded, pc]⟩

namespace World.Knows

variable {world : World}

theorem start (args : List (List UInt8)) (inherited : List Int) :
    (World.start args inherited).Knows where
  unstored _ := rfl
  allocated := by simp [World.start, Tracker.start]
  copied := by simp [World.start]
  child := by simp [World.start]

/-- The child changes and stays the same process. -/
theorem setChild (knows : world.Knows) {old child : Child}
    (isChild : world.child = some old)
    (pid : child.pid = old.pid) (reaped : child.reaped = old.reaped)
    (content : Pipe → List UInt8) (pending : Option Cause) :
    Knows
      { tracker := world.tracker, child := some child, content := content,
        pending := pending }
    where
  unstored := by simp
  allocated := knows.allocated
  copied _ := knows.copied (by simp [isChild])
  child := by
    rintro _ ⟨⟩
    rw [pid, reaped]
    exact knows.child old isChild

theorem signal (knows : world.Knows) (cause : Cause) :
    (world.signal cause).Knows := by
  unfold World.signal
  split
  · exact ⟨knows.unstored, knows.allocated, knows.copied, knows.child⟩
  · exact knows

end World.Knows

/-- Until its end the tracker knows its child once the result of `fork` is
stored. -/
theorem World.Moves.knows {capacity : Nat} {program : Program}
    {world next : World}
    {event : Event} (moves : world.Moves capacity program event next)
    (invariant : world.Invariant) (alive : next.tracker.ended = none)
    (knows : world.Knows) : next.Knows := by
  cases moves with
  | tracker _ _ moves =>
      obtain ⟨keptArgs, childpid, allocated, notStoring⟩ := moves.keeps alive
      refine ⟨?_, ?_, fun present => keptArgs (knows.copied present), ?_⟩
      · intro none
        rcases childpid with same | storing
        · rw [same, knows.unstored none]
        · have beforeFork := invariant.launched.mp none
          rw [storing] at beforeFork
          cases beforeFork
      · intro pc
        by_cases already : world.tracker.pc = .callocWord
        · exact keptArgs (knows.allocated (.inl already))
        · exact allocated pc already
      · intro child isChild
        obtain ⟨positive, unreaped, stored, storing⟩ :=
          knows.child child isChild
        refine ⟨positive, unreaped, ?_,
          fun result pc => absurd pc (notStoring result)⟩
        rcases childpid with same | stores
        · rwa [same]
        · exact .inr (storing _ stores)
  | buffered runs pc | reachedEnd runs pc | notReadable runs pc =>
      refine ⟨knows.unstored, by simp [Tracker.goto], knows.copied, ?_⟩
      intro child isChild
      obtain ⟨positive, unreaped, stored, _⟩ := knows.child child isChild
      exact ⟨positive, unreaped, stored, by simp [Tracker.goto]⟩
  | refilled | delivered =>
      exact ⟨knows.unstored, knows.allocated, knows.copied, knows.child⟩
  | forkFailed => exact absurd alive (Tracker.quits_printErrorAndExit _ _).ended
  | forked runs pc positive =>
      have copied := knows.allocated (.inr pc)
      have unstored := knows.unstored (invariant.launched.mpr (by rw [pc]; rfl))
      refine ⟨by simp, fun _ => copied, fun _ => copied, ?_⟩
      rintro _ ⟨⟩
      exact ⟨positive, rfl, .inl unstored, by simp [Tracker.goto, Child.start]⟩
  | collected | reaped =>
      exact absurd alive (world.tracker.quits_collectZombie _ _).ended
  | child isChild _ moves =>
      exact knows.setChild isChild moves.keeps.1 moves.keeps.2.1 _ _
  | transferred isChild | pipeBroken isChild | received isChild
  | readReturned isChild =>
      apply knows.setChild isChild
      · rfl
      · rfl
  | terminated _ isChild | stopped isChild | continued isChild =>
      refine Knows.signal ?_ _
      apply knows.setChild isChild
      · rfl
      · rfl

/-! ## The handler's own step -/

/-- An error does not end the tracker with status 0. -/
theorem Tracker.printErrorAndExit_status (tracker : Tracker)
    (failure : Failure) :
    (tracker.printErrorAndExit failure).ended ≠ some (.exited 0) := by
  unfold printErrorAndExit leave
  split <;> simp [finish]

/-- With the arguments copied, `collect_zombie` reports the child it knows and
exits with status 0. -/
theorem Tracker.collectZombie_reports {tracker : Tracker} {status : Nat}
    {line : Report}
    (copied : tracker.argsDup ≠ none) (reported : report status = some line) :
    (tracker.collectZombie tracker.childpid status).ended = some (.exited 0) ∧
      .report line ∈ (tracker.collectZombie tracker.childpid status).log := by
  obtain ⟨words, isCopy⟩ := Option.ne_none_iff_exists'.mp copied
  simp [collectZombie, reported, leave, deallocAll, record, isCopy, finish]

section Runs

variable {capacity : Nat} {program : Program} {args : List (List UInt8)}
  {inherited : List Int}

/-- The handler ends the tracker as intended exactly when it finds its child
terminated under a number it knows. -/
theorem World.Moves.endsWell_iff {world next : World} {event : Event}
    (moves : world.Moves capacity program event next)
    (handler : event.isWaitpid = true)
    (knows : world.Knows) : next.EndsWell ↔ world.Collectable := by
  obtain ⟨_, handling, ⟨ret, garbage, result, rfl⟩ | ⟨ret, status, child,
    isChild, result, rfl⟩⟩ :=
    moves.of_waitpid handler
  · have quits := world.tracker.quits_collectZombie ret garbage
    constructor
    · intro endsWell
      obtain ⟨_, child, _, isChild, _, reaped, _⟩ :=
        endsWell (by rwa [quits.handling]) quits.ended
      have unreaped := (knows.child child isChild).2.1
      rw [reaped] at unreaped
      cases unreaped
    · rintro ⟨stored, child, isChild, ended⟩
      obtain ⟨_, unreaped, number, _⟩ := knows.child child isChild
      obtain ⟨status, found⟩ := waitpid_ended unreaped ended
      rw [number.resolve_left stored, isChild, found] at result
      cases result
  · have quits := world.tracker.quits_collectZombie ret status
    obtain ⟨positive, _, number, _⟩ := knows.child child isChild
    rw [isChild] at result
    obtain ⟨rfl, termination, pc, rfl⟩ := waitpid_some result
    constructor
    · intro endsWell
      refine ⟨fun unstored => ?_, child, isChild, by rw [Child.isEnded, pc]⟩
      have status := (endsWell (by rwa [quits.handling]) quits.ended).1
      rw [Tracker.collectZombie, if_pos (by omega)] at status
      exact Tracker.printErrorAndExit_status _ _ status
    · rintro ⟨stored, _⟩ _ _
      obtain ⟨exited, reported⟩ := Tracker.collectZombie_reports
        (knows.copied (by simp [isChild])) (report_ofTermination termination)
      rw [number.resolve_left stored] at exited reported
      exact ⟨exited, _, termination, rfl, pc, rfl, reported⟩

/-! ## All other steps -/

/-- No statement of `main` enters the handler. -/
theorem Tracker.Moves.handling {tracker next : Tracker}
    (moves : tracker.Moves next) :
    next.handling = tracker.handling := by
  cases moves with
  | argumentsFailed | pipeFailed | callocFailed =>
      exact (tracker.quits_printErrorAndExit _).handling
  | _ => rfl

/-- Outside the handler nothing ends the tracker while the handler runs. -/
theorem World.Moves.handling {world next : World} {event : Event}
    (moves : world.Moves capacity program event next)
    (notHandler : event.isWaitpid = false)
    (alive : world.tracker.ended = none) (ended : next.tracker.ended ≠ none) :
    next.tracker.handling = none := by
  cases moves with
  | tracker runs _ moves => rw [moves.handling, runs.2]
  | forkFailed runs =>
      rw [(Tracker.quits_printErrorAndExit _ _).handling]
      exact runs.2
  | collected | reaped => cases notHandler
  | terminated | stopped | continued =>
      exact absurd alive (by simpa [terminate] using ended)
  | _ => exact absurd alive ended

/-- Once the tracker has ended, it and a terminated child stay what they are. -/
theorem World.Moves.settled {world next : World} {event : Event}
    (moves : world.Moves capacity program event next)
    (ended : world.tracker.ended ≠ none) :
    next.tracker = world.tracker ∧
      ∀ child, world.child = some child → child.isEnded = true →
        ∃ stopped, next.child = some { child with stopped := stopped } := by
  cases moves with
  | tracker runs | buffered runs | refilled runs | reachedEnd runs
  | notReadable runs
  | forkFailed runs | forked runs | delivered runs => exact absurd runs.1 ended
  | collected alive | reaped alive => exact absurd alive ended
  | @child _ old _ isChild _ moves =>
      refine ⟨rfl, fun child sameChild childEnded => ?_⟩
      obtain rfl : old = child := Option.some.inj (isChild.symm.trans sameChild)
      rw [moves.keeps.2.2] at childEnded
      cases childEnded
  | @terminated _ old termination isChild _ childAlive =>
      refine ⟨by simp [terminate], fun child sameChild childEnded => ?_⟩
      obtain rfl : old = child := Option.some.inj (isChild.symm.trans sameChild)
      rw [childAlive] at childEnded
      cases childEnded
  | @transferred old _ _ _ isChild pc | @pipeBroken old _ _ isChild pc
  | @received old _ _ isChild pc | @readReturned old _ isChild pc =>
      refine ⟨rfl, fun child sameChild childEnded => ?_⟩
      obtain rfl : old = child := Option.some.inj (isChild.symm.trans sameChild)
      rw [Child.isEnded, pc] at childEnded
      cases childEnded
  | @stopped old isChild | @continued old isChild =>
      refine ⟨by simp, fun child sameChild _ => ?_⟩
      obtain rfl : old = child := Option.some.inj (isChild.symm.trans sameChild)
      exact ⟨_, signal_child _ _⟩

/-- An end as intended stays so. -/
theorem World.EndsWell.settled {world next : World} {event : Event}
    (endsWell : world.EndsWell)
    (moves : world.Moves capacity program event next)
    (ended : world.tracker.ended ≠ none) :
    next.EndsWell := by
  obtain ⟨sameTracker, sameChild⟩ := moves.settled ended
  intro handling _
  rw [sameTracker] at handling ⊢
  obtain ⟨exited, child, termination, isChild, pc, reaped, reported⟩ :=
    endsWell handling ended
  obtain ⟨stopped, isNext⟩ :=
    sameChild child isChild (by rw [Child.isEnded, pc])
  exact ⟨exited, _, termination, isNext, pc, reaped, reported⟩

/-! ## Runs -/

/-- While the tracker lives, its knowledge of the child is kept. -/
theorem World.Moves.keepsKnowing {world next : World} {event : Event}
    (moves : world.Moves capacity program event next)
    (invariant : world.Invariant)
    (knows : world.tracker.ended = none → world.Knows)
    (alive : next.tracker.ended = none) :
    next.Knows := by
  by_cases aliveBefore : world.tracker.ended = none
  · exact moves.knows invariant alive (knows aliveBefore)
  · rw [(moves.settled aliveBefore).1] at alive
    exact absurd alive aliveBefore

/-- In every run a tracker that has not ended knows its child. -/
theorem run_knows {events : List Event} {world : World}
    (ran : (World.step capacity program).run
      (World.start args inherited) events = some world) :
    world.tracker.ended = none → world.Knows :=
  Machine.run_invariant_past (fun _ world => world.tracker.ended = none →
    world.Knows)
    (fun _ => World.Knows.start args inherited)
    (fun _ _ _ _ ranPast knows stepped =>
      (step_moves stepped).keepsKnowing (run_invariant ranPast) knows)
    ran

/-- A step that meets the condition keeps the tracker's end as intended. -/
theorem World.Moves.endsWell {world next : World} {event : Event}
    (moves : world.Moves capacity program event next)
    (knows : world.tracker.ended = none → world.Knows)
    (endsWell : world.EndsWell)
    (meets : event.isWaitpid = true → world.Collectable) : next.EndsWell := by
  by_cases alive : world.tracker.ended = none
  · cases handler : event.isWaitpid with
    | true =>
        exact (moves.endsWell_iff handler (knows alive)).mpr (meets handler)
    | false =>
        intro handling ended
        exact absurd (moves.handling handler alive ended) handling
  · exact endsWell.settled moves alive

/-- In every run, `collect_zombie` ends the tracker as intended exactly when at
its call of `waitpid` the result of `fork` is stored and the child has
terminated. -/
theorem collects_child_iff {events : List Event} {world : World}
    (ran : (World.step capacity program).run
      (World.start args inherited) events = some world) :
    (World.step capacity program).Always World.EndsWell
      (World.start args inherited) events ↔
      (World.step capacity program).EveryStep
        (fun visited event => event.isWaitpid = true → visited.Collectable)
        (World.start args inherited) events := by
  constructor
  · intro always
    apply Machine.everyStep_of_run ran
    intro past event rest visited next split ranPast stepped _ handler
    have moves := step_moves stepped
    have ranNext :=
      Machine.run_concat_eq_some_iff.mpr ⟨visited, ranPast, stepped⟩
    have endsWell : next.EndsWell := by
      refine Machine.always_iff.mp always (past ++ [event]) ⟨rest,
        ?_⟩ next ranNext
      rw [← split, List.append_assoc, List.singleton_append]
    have knows := run_knows ranPast (moves.of_waitpid handler).1
    exact (moves.endsWell_iff handler knows).mp endsWell
  · intro every
    have always := Machine.always_of_everyStep
      (fun visited => visited.Invariant ∧ (visited.tracker.ended = none →
        visited.Knows) ∧
        visited.EndsWell)
      (fun _ _ _ ⟨invariant, knows, endsWell⟩ meets stepped =>
        ⟨(step_moves stepped).invariant invariant,
          (step_moves stepped).keepsKnowing invariant knows,
          (step_moves stepped).endsWell knows endsWell meets⟩)
      ⟨World.Invariant.start args inherited,
        fun _ => World.Knows.start args inherited,
        fun _ ended => absurd rfl ended⟩ every
    exact always.mono fun _ holds => holds.2.2

end Runs

/-- The child is stopped while the tracker reads. -/
def stopDelivered : List Event := launched ++ [.stop, .deliver, .waitpid 0]

/-- A stopped child makes the handler end the tracker with an error. -/
theorem stop_ends_tracker :
    ¬∀ (capacity : Nat) (program : Program) (args : List (List UInt8))
      (inherited : List Int) (events : List Event) (world : World),
      (World.step capacity program).run (World.start args inherited) events =
        some world →
      (World.step capacity program).Always World.EndsWell
        (World.start args inherited) events := by
  intro claimed
  have reached :
      ((World.step 65536 writesTwo).run (World.start [[], [108, 115]] [0, 1, 2])
        stopDelivered).map (fun world =>
          (world.tracker.handling, world.tracker.ended)) =
      some (some .stopped, some (.exited 2)) := by decide
  obtain ⟨world, ran, ends⟩ := Option.map_eq_some_iff.mp reached
  simp only [Prod.mk.injEq] at ends
  obtain ⟨handling, ended⟩ := ends
  have endsWell := (claimed _ _ _ _ _ world ran).last ran (by simp [handling])
    (by simp [ended])
  rw [ended] at endsWell
  cases endsWell.1

/-- The signal comes when everything is read. -/
theorem collects_child_iff_readFirst :
    ∃ world, (World.step 65536 writesTwo).run
      (World.start [[], [108, 115]] [0, 1, 2])
        readFirst = some world ∧ world.tracker.ended = some (.exited 0) ∧
      (World.step 65536 writesTwo).Always World.EndsWell
        (World.start [[], [108, 115]] [0, 1, 2])
        readFirst := by
  have reached :
      ((World.step 65536 writesTwo).run (World.start [[], [108, 115]] [0, 1, 2])
        readFirst).map (fun world => world.tracker.ended) =
        some (some (.exited 0)) := by decide
  obtain ⟨world, ran, ended⟩ := Option.map_eq_some_iff.mp reached
  exact ⟨world, ran, ended, (collects_child_iff ran).mpr (by decide)⟩

end ForkPipe
end LinuxCPractice
