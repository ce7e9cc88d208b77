import LinuxCPractice.ForkPipe.Delivery

/-!
# Waiting for each other

The tracker holds `PARENT_WRITE` open while it reads the child's output to its
end, and never writes to it. A child that asks for input waits for the tracker,
which waits for the child's output or its end. This happens to every program
that reads before it gives up one of its streams, and to no other.
-/

namespace LinuxCPractice
namespace ForkPipe

open DescriptorTable

/-! ## The state in which both wait -/

/-- The tracker waits in `read_from_pipe` for data or the end of the file. -/
def World.ParentBlocked (world : World) : Prop :=
  world.tracker.Runs ∧ world.tracker.pc = .fgetc ∧ world.fgetc = none

/-- The child waits for data on its standard input, a pipe of which only the
tracker still has a write end. -/
def World.ChildBlocked (world : World) (child : Child) : Prop :=
  child.pc = .reading ∧
    child.descriptors.lookup 0 = some (.readEnd .writepipe) ∧
    world.content .writepipe = [] ∧
    world.tracker.descriptors.lookup world.tracker.parentWrite =
      some (.writeEnd .writepipe) ∧
    world.tracker.descriptors.OnlyAt (.writeEnd .writepipe)
      {world.tracker.parentWrite} ∧
    child.descriptors.OnlyAt (.writeEnd .writepipe) ∅

/-- Each of the two processes waits for the other. -/
def World.Deadlocked (world : World) : Prop :=
  world.ParentBlocked ∧ ∃ child ∈ world.child, world.ChildBlocked child

instance (world : World) : Decidable world.ParentBlocked :=
  inferInstanceAs (Decidable (_ ∧ _ ∧ world.fgetc = none))

instance (world : World) (child : Child) :
    Decidable (world.ChildBlocked child) :=
  inferInstanceAs
    (Decidable (_ ∧ _ ∧ _ ∧ _ ∧ OnlyAt _ _ {world.tracker.parentWrite} ∧ _))

instance (world : World) : Decidable world.Deadlocked :=
  inferInstanceAs
    (Decidable (_ ∧ ∃ child ∈ world.child, world.ChildBlocked child))

/-- Only a signal from outside can end a deadlock: neither process takes a
step. -/
theorem World.Deadlocked.stuck {capacity : Nat} {program : Program}
    {world next : World}
    {event : Event} (deadlocked : world.Deadlocked)
    (stepped : World.step capacity program world event = some next) :
    event = .deliver ∨ event = .stop ∨ event = .continue ∨
      ∃ signal core, event = .kill signal core := by
  obtain ⟨⟨⟨_, free⟩, pc, waits⟩, child, member, reading, stdin, empty, writer,
    _⟩ := deadlocked
  have isChild := Option.mem_def.mp member
  cases event with
  | deliver => exact .inl rfl
  | stop => exact .inr (.inl rfl)
  | «continue» => exact .inr (.inr (.inl rfl))
  | kill signal core => exact .inr (.inr (.inr ⟨signal, core, rfl⟩))
  | main => simp [step, mainStep, pc, waits] at stepped
  | pipe | fork => simp [step, mainStep, pc] at stepped
  | calloc => simp [step, mainStep, Tracker.calloc, pc] at stepped
  | waitpid => simp [step, collectZombie, free] at stepped
  | child => simp [step, isChild, childEvent, childStep, reading] at stepped
  | execvp => simp [step, isChild, childEvent, execvp, reading] at stepped
  | transfer => simp [step, isChild, childEvent, transfer, reading] at stepped
  | brokenPipe =>
      simp [step, isChild, childEvent, brokenPipe, reading] at stepped
  | childRead outcome =>
      have isOpen : world.IsOpen (.writeEnd .writepipe) := .inl ⟨_, writer⟩
      cases outcome with
      | data | endOfFile | wrote | closed | failed =>
          simp [step, isChild, childEvent, childRead, reading, stdin, empty,
            isOpen] at stepped

/-- The program begins with at least `count` writes, as long as they succeed. -/
def Program.WritesFirst (program : Program) (count : Nat) : Prop :=
  ∀ earlier < count, ∃ bytes,
    program (List.replicate earlier .wrote) = .write bytes

/-- The program reads before it closes a stream or exits. -/
def Program.ReadsBeforeClosing (program : Program) : Prop :=
  ∃ count, program.WritesFirst count ∧
    program (List.replicate count .wrote) = .read

/-! ## Programs that never come to a deadlock -/

/-- The child has only written so far. -/
structure OnlyWrites (program : Program) (outcomes : List Outcome)
    (pc : ChildPc) : Prop where
  allWrote : outcomes = List.replicate outcomes.length .wrote
  earlier : program.WritesFirst outcomes.length
  notReading : pc ≠ .reading
  writing : ∀ rest, pc = .writing rest → ∃ bytes,
    program outcomes = .write bytes

/-- `execvp` has succeeded and the program has not ended. -/
def ChildPc.inProgram : ChildPc → Bool
  | .running | .reading | .writing _ => true
  | _ => false

/-- The child cannot read from the tracker, or the tracker does not wait for it,
or it has given no reason for either. -/
def Child.Harmless (program : Program) (child : Child) : Prop :=
  OnlyWrites program child.outcomes child.pc ∨
    (child.pc.inProgram = true ∧
      child.descriptors.lookup 0 ≠ some (.readEnd .writepipe)) ∨
    child.descriptors.OnlyAt (.writeEnd .readpipe) ∅

section Harmless

variable {program : Program}

/-- The place of the child may change as long as it does not start a call. -/
theorem OnlyWrites.goto {outcomes : List Outcome} {pc next : ChildPc}
    (only : OnlyWrites program outcomes pc) (notReading : next ≠ .reading)
    (notWriting : ∀ rest, next ≠ .writing rest) :
    OnlyWrites program outcomes next where
  allWrote := only.allWrote
  earlier := only.earlier
  notReading := notReading
  writing rest isWriting := absurd isWriting (notWriting rest)

/-- A write returns. -/
theorem OnlyWrites.wrote {outcomes : List Outcome} {rest : List UInt8}
    (only : OnlyWrites program outcomes (.writing rest)) :
    OnlyWrites program (outcomes ++ [.wrote]) .running where
  allWrote := by
    rw [List.length_append, List.length_singleton, List.replicate_succ',
      ← only.allWrote]
  earlier := by
    intro earlier isEarlier
    rw [List.length_append, List.length_singleton, Nat.lt_succ_iff_lt_or_eq]
      at isEarlier
    rcases isEarlier with before | rfl
    · exact only.earlier earlier before
    · rw [← only.allWrote]
      exact only.writing rest rfl
  notReading := by simp
  writing := by simp

/-- A child that does not read before closing stays harmless. -/
theorem Child.Moves.harmless {tracker : Tracker} {child next : Child}
    (moves : child.Moves program tracker next)
    (harmless : child.Harmless program)
    (never : ¬program.ReadsBeforeClosing) (ends : child.Ends tracker) :
    next.Harmless program := by
  rcases harmless with only | ⟨inProgram, noInput⟩ | noOutput
  · cases moves with
    | closedParentWrite | closedParentRead | dupedChildRead | closedChildRead
    | dupedChildWrite
    | closedChildWrite | started =>
        exact .inl (only.goto (by simp [close, dup2]) (by simp [close, dup2]))
    | reads _ act =>
        refine absurd ⟨child.outcomes.length, only.earlier, ?_⟩ never
        rw [← only.allWrote, act]
    | writes _ act =>
        exact .inl ⟨only.allWrote, only.earlier, by simp, fun _ _ => ⟨_, act⟩⟩
    | closedStdin => exact .inr (.inl ⟨rfl, by simp [close, answer]⟩)
    | closedStdout pc =>
        simp only [Ends, pc] at ends
        exact .inr (.inr ends.2.erase_self)
    | wrote pc =>
        rw [pc] at only
        exact .inl only.wrote
    | writeFailed pc target =>
        simp only [Ends, pc] at ends
        refine .inr (.inr fun fd found => ?_)
        rw [ends.2 fd found] at found
        exact absurd found (target _)
  · refine .inr (.inl ?_)
    cases moves with
    | closedParentWrite pc | closedParentRead pc | dupedChildRead pc
    | closedChildRead pc
    | dupedChildWrite pc | closedChildWrite pc | started pc =>
        rw [pc] at inProgram
        cases inProgram
    | closedStdin => exact ⟨rfl, by simp [close, answer]⟩
    | closedStdout => exact ⟨rfl, by simpa [close, answer] using noInput⟩
    | reads | writes | wrote | writeFailed => exact ⟨rfl, noInput⟩
  · exact .inr (.inr (moves.onlyAt noOutput))

/-- While the tracker has still to read, the child is harmless. -/
def World.Avoids (program : Program) (world : World) : Prop :=
  world.tracker.ended = none → world.tracker.pc.behindLoop = false →
    ∀ child, world.child = some child → child.Harmless program

/-- A tracker that has still to read holds the read end of `readpipe`. -/
theorem World.Invariant.readerOpen {world : World} (invariant : world.Invariant)
    (alive : world.tracker.ended = none)
    (before : world.tracker.pc.behindLoop = false)
    (present : world.child ≠ none) : world.IsOpen (.readEnd .readpipe) := by
  have ends := invariant.ends alive
  have forked := mt invariant.launched.mpr present
  refine .inl ⟨world.tracker.parentRead, ?_⟩
  cases pc : world.tracker.pc with
  | checkArguments | sigaction | pipe | callocVector | callocWord | fork =>
      exact absurd (by rw [pc]; rfl) forked
  | storeChildpid | closeChildRead | closeChildWrite =>
      simp only [Tracker.Ends, pc] at ends
      exact ends.2.2.1
  | fgetc | putchar =>
      simp only [Tracker.Ends, pc] at ends
      exact ends.2
  | fclose | sleep | closeParentWrite | closeParentRead =>
      rw [pc] at before
      cases before

/-- Such a program keeps away from the deadlock. -/
theorem World.Moves.avoids {capacity : Nat} {world next : World} {event : Event}
    (moves : world.Moves capacity program event next)
    (never : ¬program.ReadsBeforeClosing)
    (invariant : world.Invariant) (avoids : world.Avoids program) :
    next.Avoids program := by
  intro alive before
  cases moves with
  | tracker runs _ moves =>
      rw [moves.output.2.2] at before
      exact avoids runs.1 before
  | buffered runs pc => exact avoids runs.1 (by rw [pc]; rfl)
  | refilled runs | delivered runs => exact avoids runs.1 before
  | reachedEnd | notReadable => cases before
  | forkFailed => exact absurd alive (Tracker.quits_printErrorAndExit _ _).ended
  | collected | reaped =>
      exact absurd alive (world.tracker.quits_collectZombie _ _).ended
  | forked =>
      rintro _ ⟨⟩
      exact .inl ⟨rfl, by simp [Program.WritesFirst, Child.start],
        by simp [Child.start], by simp [Child.start]⟩
  | child isChild _ moves =>
      rintro _ ⟨⟩
      exact moves.harmless (avoids alive before _ isChild) never
        (invariant.child _ isChild)
  | terminated =>
      intro child isChild
      obtain rfl : _ = child :=
        Option.some.inj ((signal_child _ _).symm.trans isChild)
      exact .inr (.inr (onlyAt_empty _ _))
  | transferred isChild pc =>
      rintro _ ⟨⟩
      rcases avoids alive before _ isChild with only | ⟨inProgram, noInput⟩
        | noOutput
      · exact .inl ⟨only.allWrote, only.earlier, by simp,
          fun _ _ => only.writing _ pc⟩
      · exact .inr (.inl ⟨rfl, noInput⟩)
      · exact .inr (.inr noOutput)
  | @pipeBroken child rest pipe isChild pc target noReader =>
      rintro _ ⟨⟩
      have ends := invariant.child_onlyAt isChild (.inr ⟨rest, pc⟩)
      refine .inr (.inr fun fd found => ?_)
      -- the child writes to some pipe without readers, which is not `readpipe`
      obtain rfl : fd = 1 := ends.2 fd found
      obtain rfl : pipe = .readpipe := by simpa using target.symm.trans found
      exact noReader (invariant.readerOpen alive before (by simp [isChild]))
  | received isChild pc | readReturned isChild pc =>
      rintro _ ⟨⟩
      rcases avoids alive before _ isChild with only | ⟨_, noInput⟩ | noOutput
      · exact absurd pc only.notReading
      · exact .inr (.inl ⟨rfl, noInput⟩)
      · exact .inr (.inr noOutput)
  | stopped isChild | continued isChild =>
      intro child isNext
      obtain rfl : _ = child :=
        Option.some.inj ((signal_child _ _).symm.trans isNext)
      rw [signal_tracker] at alive before
      have harmless := avoids alive before _ isChild
      exact harmless

/-- Who keeps away from the deadlock is not in it. -/
theorem World.Avoids.not_deadlocked {world : World}
    (avoids : world.Avoids program)
    (invariant : world.Invariant) : ¬world.Deadlocked := by
  rintro ⟨⟨runs, pc, waits⟩, child, isChild, reading, stdin, _⟩
  rcases avoids runs.1 (by rw [pc]; rfl) child isChild with only | ⟨_, noInput⟩
    | noOutput
  · exact only.notReading reading
  · exact noInput stdin
  · have ends := invariant.ends runs.1
    simp only [Tracker.Ends, pc] at ends
    -- without a write end of `readpipe` anywhere, `fgetc` sees the end of the
    -- file
    have noWriter : ¬world.IsOpen (.writeEnd .readpipe) := by
      rintro (refers | ⟨other, isOther, refers⟩)
      · exact ends.1.not_refers refers
      · obtain rfl : child = other :=
          Option.some.inj (isChild.symm.trans isOther)
        exact noOutput.not_refers refers
    unfold World.fgetc at waits
    simp only [ends.2, noWriter] at waits
    split at waits
    · cases waits
    · split at waits <;> cases waits

end Harmless

/-! ## Programs that come to a deadlock -/

/-- The tracker waits for output, the child has its streams and nothing is on
its way. -/
structure World.Listens (world : World) (child : Child) : Prop where
  runs : world.tracker.Runs
  pc : world.tracker.pc = .fgetc
  stream : world.tracker.stream = []
  parentRead : world.tracker.descriptors.lookup world.tracker.parentRead =
    some (.readEnd .readpipe)
  parentWrite : world.tracker.descriptors.lookup world.tracker.parentWrite =
    some (.writeEnd .writepipe)
  onlyParent : world.tracker.descriptors.OnlyAt (.writeEnd .writepipe)
    {world.tracker.parentWrite}
  noInput : world.content .writepipe = []
  noOutput : world.content .readpipe = []
  isChild : world.child = some child
  free : child.stopped = false
  stdin : child.descriptors.lookup 0 = some (.readEnd .writepipe)
  stdout : child.descriptors.lookup 1 = some (.writeEnd .readpipe)
  notChild : child.descriptors.OnlyAt (.writeEnd .writepipe) ∅

section Listens

variable {capacity : Nat} (program : Program)

/-- Some run brings the tracker to listen to the program. -/
theorem launched_listens (capacity : Nat) : ∃ world child,
    (World.step capacity program).run
      (World.start [[], [108, 115]] [0, 1, 2]) launched =
      some world ∧ world.Listens child ∧ child.pc = .running ∧
        child.outcomes = [] := by
  have reached : ((World.step capacity program).run
      (World.start [[], [108, 115]] [0, 1, 2])
      launched).map (fun world =>
        ((world.tracker.ended, world.tracker.handling, world.tracker.pc,
          world.tracker.stream),
          (world.tracker.descriptors.lookup world.tracker.parentRead,
            world.tracker.descriptors.lookup world.tracker.parentWrite,
            decide (world.tracker.descriptors.OnlyAt (.writeEnd .writepipe)
              {world.tracker.parentWrite})),
          (world.content .writepipe, world.content .readpipe),
          world.child.map fun child =>
            ((child.stopped, child.pc, child.outcomes),
              child.descriptors.lookup 0, child.descriptors.lookup 1,
              decide (child.descriptors.OnlyAt (.writeEnd .writepipe) ∅)))) =
      some ((none, none, .fgetc, []),
        (some (.readEnd .readpipe), some (.writeEnd .writepipe), true),
        ([], []), some ((false, .running, []), some (.readEnd .writepipe),
          some (.writeEnd .readpipe), true)) := by rfl
  obtain ⟨world, ran, view⟩ := Option.map_eq_some_iff.mp reached
  simp only [Prod.mk.injEq, Option.map_eq_some_iff, decide_eq_true_eq] at view
  obtain ⟨⟨ended, handling, pc, stream⟩, ⟨parentRead, parentWrite, onlyParent⟩,
    ⟨noInput, noOutput⟩, child, isChild, ⟨free, running, outcomes⟩, stdin,
    stdout, notChild⟩ := view
  exact ⟨world, child, ran, ⟨⟨ended, handling⟩, pc, stream, parentRead,
    parentWrite, onlyParent,
    noInput, noOutput, isChild, free, stdin, stdout, notChild⟩, running,
    outcomes⟩

/-- The tracker copies one byte of a write, and both are where they were. -/
theorem World.Listens.copies {world : World} {child : Child} (listens : world.Listens child)
    {byte : UInt8} {rest : List UInt8} (pc : child.pc = .writing (byte :: rest))
    (room : 0 < capacity) : ∃ next after,
      (World.step capacity program).Reachable world next ∧ next.Listens after ∧
        after.pc = .writing rest ∧ after.outcomes = child.outcomes := by
  have reader : world.IsOpen (.readEnd .readpipe) := .inl ⟨_, listens.parentRead⟩
  let after : Child :=
    { child with pc := .writing rest, written := child.written ++ [byte] }
  let sent : World :=
    { world with child := some after, content := Function.update world.content .readpipe [byte] }
  let filled : World :=
    { sent with
      tracker := { world.tracker with stream := [byte] }
      content := Function.update sent.content .readpipe [] }
  let taken : World :=
    { filled with tracker := { world.tracker with c := byte, stream := [], pc := .putchar } }
  let put : World :=
    { filled with
        tracker := (taken.tracker.record (.putchar byte)).goto .fgetc }
  have transfers : World.step capacity program world (.transfer 1) =
      some sent := by
    simp [World.step, listens.isChild, listens.free, World.childEvent,
      World.transfer, pc,
      listens.stdout, reader, listens.noOutput, room, Nat.succ_le_iff, sent,
      after]
  have fills : World.step capacity program sent .main = some filled := by
    simp [World.step, World.mainStep, World.fgetc, sent, filled, listens.runs.1,
      listens.runs.2, listens.pc, listens.stream, listens.parentRead, bufsiz]
  have takes : World.step capacity program filled .main = some taken := by
    simp [World.step, World.mainStep, World.fgetc, filled, taken,
      listens.runs.1, listens.runs.2, listens.pc]
  have puts : World.step capacity program taken .main = some put := by
    simp [World.step, World.mainStep, Tracker.main, taken, put, listens.runs.1,
      listens.runs.2]
  have reachable : (World.step capacity program).Reachable world put :=
    ⟨[.transfer 1, .main, .main, .main],
      by simp [transfers, fills, takes, puts]⟩
  refine ⟨put, after, reachable, ?_, rfl, rfl⟩
  exact ⟨listens.runs, rfl, rfl, listens.parentRead, listens.parentWrite,
    listens.onlyParent,
    by simp [put, filled, sent, listens.noInput], by simp [put, filled], rfl,
    listens.free, listens.stdin, listens.stdout, listens.notChild⟩

/-- The child goes to another place. -/
theorem World.Listens.goto {world : World} {child : Child}
    (listens : world.Listens child)
    (pc : ChildPc) (outcomes : List Outcome) :
    World.Listens { world with child := some { child with pc := pc, outcomes := outcomes } }
      { child with pc := pc, outcomes := outcomes } :=
  ⟨listens.runs, listens.pc, listens.stream, listens.parentRead,
    listens.parentWrite,
    listens.onlyParent, listens.noInput, listens.noOutput, rfl, listens.free,
    listens.stdin, listens.stdout, listens.notChild⟩

/-- A write of any length returns. -/
theorem World.Listens.writes {world : World} {child : Child}
    (listens : world.Listens child)
    {bytes : List UInt8} (pc : child.pc = .writing bytes)
    (room : 0 < capacity) :
    ∃ next after,
      (World.step capacity program).Reachable world next ∧ next.Listens after ∧
        after.pc = .running ∧ after.outcomes = child.outcomes ++ [.wrote] := by
  induction bytes generalizing world child with
  | nil =>
      have returns : World.step capacity program world .child =
          some { world with child := some (child.answer .wrote) } := by
        simp [World.step, listens.isChild, listens.free, World.childEvent,
          World.childStep, pc, listens.stdout]
      exact ⟨_, _, (Machine.Reachable.refl world).step returns, listens.goto _ _, rfl, rfl⟩
  | cons byte rest inductionHypothesis =>
      obtain ⟨middle, waiting, reachable, listensMiddle, pcMiddle, outcomes⟩ :=
        listens.copies program pc room
      obtain ⟨next, after, onward, listensNext, pcNext, outcomesNext⟩ :=
        inductionHypothesis listensMiddle pcMiddle
      refine ⟨next, after, reachable.trans onward, listensNext, pcNext, ?_⟩
      rw [outcomesNext, outcomes]

/-- The child comes through its first writes. -/
theorem World.Listens.writesFirst {world : World} {child : Child}
    (listens : world.Listens child)
    (running : child.pc = .running) (outcomes : child.outcomes = [])
    (room : 0 < capacity)
    {count : Nat} (writes : program.WritesFirst count) :
    ∃ next after,
      (World.step capacity program).Reachable world next ∧ next.Listens after ∧
        after.pc = .running ∧ after.outcomes = List.replicate count .wrote := by
  induction count with
  | zero => exact ⟨world, child, Machine.Reachable.refl world, listens, running,
        outcomes⟩
  | succ count inductionHypothesis =>
      obtain ⟨middle, waiting, reachable, listensMiddle, runningMiddle,
        outcomesMiddle⟩ :=
        inductionHypothesis fun earlier isEarlier =>
          writes earlier (Nat.lt_succ_of_lt isEarlier)
      obtain ⟨bytes, act⟩ := writes count (Nat.lt_succ_self count)
      have calls : World.step capacity program middle .child =
          some { middle with
              child := some { waiting with pc := .writing bytes } } := by
        simp [World.step, listensMiddle.isChild, listensMiddle.free,
          World.childEvent, World.childStep, runningMiddle, outcomesMiddle, act]
      obtain ⟨next, after, onward, listensNext, pcNext, outcomesNext⟩ :=
        (listensMiddle.goto (.writing bytes) waiting.outcomes).writes program rfl room
      refine ⟨next, after, (reachable.step calls).trans onward, listensNext,
        pcNext, ?_⟩
      rw [outcomesNext, outcomesMiddle, List.replicate_succ']

/-- A read of a child with nothing to read makes both wait. -/
theorem World.Listens.deadlocks {world : World} {child : Child}
    (listens : world.Listens child)
    (running : child.pc = .running) (capacity : Nat)
    (act : program child.outcomes = .read) :
    ∃ next, (World.step capacity program).Reachable world next ∧
      next.Deadlocked := by
  let next : World := { world with child := some { child with pc := .reading } }
  have calls : World.step capacity program world .child = some next := by
    simp [World.step, listens.isChild, listens.free, World.childEvent,
      World.childStep, running, act, next]
  refine ⟨next, (Machine.Reachable.refl world).step calls,
    ⟨listens.runs, listens.pc, ?_⟩,
    _, rfl, rfl, listens.stdin, listens.noInput, listens.parentWrite,
    listens.onlyParent, listens.notChild⟩
  have writer : next.IsOpen (.writeEnd .readpipe) :=
    .inr ⟨_, rfl, 1, listens.stdout⟩
  simpa [World.fgetc, next, listens.stream, listens.parentRead,
    listens.noOutput] using writer

end Listens

/-- Whatever its descriptors and arguments, the tracker never comes to a
deadlock with its child exactly when the program does not read before it closes
a stream or exits. -/
theorem deadlock_free_iff {capacity : Nat} (room : 0 < capacity)
    (program : Program) :
    (∀ (args : List (List UInt8)) (inherited : List Int) (world : World),
      (World.step capacity program).Reachable
        (World.start args inherited) world →
        ¬world.Deadlocked) ↔ ¬program.ReadsBeforeClosing := by
  constructor
  · rintro never ⟨count, writes, act⟩
    obtain ⟨world, child, ran, listens, running, outcomes⟩ :=
      launched_listens program capacity
    obtain ⟨middle, waiting, reachable, listensMiddle, runningMiddle,
      outcomesMiddle⟩ :=
      listens.writesFirst program running outcomes room writes
    obtain ⟨final, onward, deadlocked⟩ :=
      listensMiddle.deadlocks program runningMiddle capacity
        (by rw [outcomesMiddle, act])
    have launches : (World.step capacity program).Reachable _ world :=
      ⟨launched, ran⟩
    exact never _ _ final ((launches.trans reachable).trans onward) deadlocked
  · rintro never args inherited world ⟨events, ran⟩
    have avoids : world.Avoids program :=
      Machine.run_invariant_past (fun _ world => world.Avoids program)
        (by simp [World.Avoids, World.start])
        (fun _ _ _ _ ranPast avoids stepped =>
          (step_moves stepped).avoids never (run_invariant ranPast) avoids)
        ran
    exact avoids.not_deadlocked (run_invariant ran)

/-- A program that reads as long as it can. -/
def readsOnly : Program := fun outcomes =>
  if .endOfFile ∈ outcomes then .exit 0 else .read

/-- A program that reads first waits for the tracker, which waits for it. -/
theorem reader_deadlocks :
    ¬∀ (capacity : Nat) (program : Program) (args : List (List UInt8))
      (inherited : List Int) (world : World), 0 < capacity →
      (World.step capacity program).Reachable
        (World.start args inherited) world →
        ¬world.Deadlocked := by
  intro claimed
  have reached : ∃ world ∈ (World.step 65536 readsOnly).run
      (World.start [[], [108, 115]] [0, 1, 2]) (launched ++ [.child]),
        world.Deadlocked := by
    decide
  obtain ⟨world, ran, deadlocked⟩ := reached
  exact claimed 65536 readsOnly _ _ world (by decide) ⟨_, ran⟩ deadlocked

/-- A program that writes two bytes and exits. -/
theorem deadlock_free_iff_writesTwo :
    ¬writesTwo.ReadsBeforeClosing ∧
      ∀ (args : List (List UInt8)) (inherited : List Int) (world : World),
        (World.step 65536 writesTwo).Reachable
          (World.start args inherited) world →
          ¬world.Deadlocked := by
  have neverReads : ¬writesTwo.ReadsBeforeClosing := by
    rintro ⟨count, _, reads⟩
    unfold writesTwo at reads
    split at reads <;> cases reads
  exact ⟨neverReads, (deadlock_free_iff (by decide) writesTwo).mpr neverReads⟩

end ForkPipe
end LinuxCPractice
