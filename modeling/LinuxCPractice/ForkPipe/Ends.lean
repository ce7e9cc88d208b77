import LinuxCPractice.ForkPipe.Moves

/-!
# Who holds the ends of `readpipe`

Whatever descriptors the tracker has inherited, the tracker keeps only the read
end of `readpipe` when it comes to its read loop, and the child keeps at most
the write end, as its standard output. So only the child puts bytes into this
pipe and only the tracker takes them out.
-/

namespace LinuxCPractice
namespace ForkPipe

open DescriptorTable

/-- The places of `main` before the child exists. -/
def Pc.beforeFork : Pc → Bool
  | .checkArguments | .sigaction | .pipe _ | .callocVector | .callocWord
  | .fork => true
  | _ => false

/-- The pipe ends that are passed on have different numbers. -/
def Tracker.Numbered (tracker : Tracker) : Prop :=
  tracker.childRead ≠ tracker.parentRead ∧
    tracker.childRead ≠ tracker.childWrite ∧
    tracker.childWrite ≠ tracker.parentRead

/-- Where the tracker holds the ends of `readpipe`, by the place of `main`. -/
def Tracker.Ends (tracker : Tracker) : Prop :=
  match tracker.pc with
  | .checkArguments | .sigaction | .pipe .writepipe =>
      tracker.descriptors.OnlyAt (.readEnd .readpipe) ∅ ∧
        tracker.descriptors.OnlyAt (.writeEnd .readpipe) ∅
  | .pipe .readpipe =>
      tracker.descriptors.OnlyAt (.readEnd .readpipe) ∅ ∧
        tracker.descriptors.OnlyAt (.writeEnd .readpipe) ∅ ∧
        tracker.childRead ∈ tracker.descriptors
  | .callocVector | .callocWord | .fork | .storeChildpid _ | .closeChildRead
  | .closeChildWrite =>
      tracker.descriptors.OnlyAt (.readEnd .readpipe) {tracker.parentRead} ∧
        tracker.descriptors.OnlyAt (.writeEnd .readpipe) {tracker.childWrite} ∧
        tracker.descriptors.lookup tracker.parentRead =
          some (.readEnd .readpipe) ∧
        tracker.Numbered
  | .fgetc | .putchar =>
      tracker.descriptors.OnlyAt (.writeEnd .readpipe) ∅ ∧
        tracker.descriptors.lookup tracker.parentRead =
          some (.readEnd .readpipe)
  | .fclose | .sleep | .closeParentWrite | .closeParentRead =>
      tracker.descriptors.OnlyAt (.writeEnd .readpipe) ∅

/-- Where the child holds the ends of `readpipe`, by its place. -/
def Child.Ends (tracker : Tracker) (child : Child) : Prop :=
  match child.pc with
  | .closeParentWrite | .closeParentRead =>
      child.descriptors.OnlyAt (.readEnd .readpipe) {tracker.parentRead} ∧
        child.descriptors.OnlyAt (.writeEnd .readpipe) {tracker.childWrite}
  | .dupChildRead | .closeChildRead | .dupChildWrite =>
      child.descriptors.OnlyAt (.readEnd .readpipe) ∅ ∧
        child.descriptors.OnlyAt (.writeEnd .readpipe) {tracker.childWrite}
  | .closeChildWrite =>
      child.descriptors.OnlyAt (.readEnd .readpipe) ∅ ∧
        child.descriptors.OnlyAt (.writeEnd .readpipe) {1, tracker.childWrite}
  | .execvp | .running | .reading | .writing _ | .ended _ =>
      child.descriptors.OnlyAt (.readEnd .readpipe) ∅ ∧
        child.descriptors.OnlyAt (.writeEnd .readpipe) {1}

/-- What holds of both processes in every reachable state. -/
structure World.Invariant (world : World) : Prop where
  launched : world.child = none ↔ world.tracker.pc.beforeFork = true
  numbered : world.child ≠ none → world.tracker.Numbered
  ends : world.tracker.ended = none → world.tracker.Ends
  gone : world.tracker.ended ≠ none → world.tracker.descriptors = ∅
  child : ∀ child, world.child = some child → child.Ends world.tracker

/-! ## The tracker alone -/

/-- At the start there is no end of a pipe. -/
theorem Tracker.ends_start (args : List (List UInt8)) (inherited : List Int) :
    (start args inherited).Ends :=
  ⟨onlyAt_ofList (by decide) inherited, onlyAt_ofList (by decide) inherited⟩

/-- Only `fork` brings the tracker past itself. -/
theorem Tracker.Moves.beforeFork {tracker next : Tracker}
    (moves : tracker.Moves next) :
    next.pc.beforeFork = tracker.pc.beforeFork := by
  cases moves with
  | argumentsFailed | pipeFailed | callocFailed =>
      rw [(tracker.quits_printErrorAndExit _).pc]
  | argumentsChecked pc | installed pc | writepipeOpened pc | readpipeOpened pc
  | vectorAllocated pc | wordsAllocated pc | stored pc | closedChildRead pc
  | closedChildWrite pc
  | put pc | closedStream pc | slept pc | closedParentWrite pc | returned pc =>
      rw [pc]
      rfl
  | wordAllocated => rfl

/-- Behind `fork` the numbers of the pipe ends stay what they are. -/
theorem Tracker.Moves.numbers {tracker next : Tracker}
    (moves : tracker.Moves next)
    (forked : tracker.pc.beforeFork = false) :
    next.writepipe = tracker.writepipe ∧ next.readpipe = tracker.readpipe := by
  cases moves with
  | argumentsFailed | pipeFailed | callocFailed =>
      obtain ⟨_, _, _, same⟩ := tracker.quits_printErrorAndExit _
      rw [same]
      exact ⟨rfl, rfl⟩
  | writepipeOpened pc | readpipeOpened pc =>
      rw [pc] at forked
      cases forked
  | _ => exact ⟨rfl, rfl⟩

theorem Tracker.Numbered.congr {tracker next : Tracker}
    (numbered : tracker.Numbered)
    (writepipe : next.writepipe = tracker.writepipe)
    (readpipe : next.readpipe = tracker.readpipe) :
    next.Numbered := by
  unfold Numbered childRead childWrite parentRead at *
  rwa [writepipe, readpipe]

/-- The tracker keeps the ends that its place requires. -/
theorem Tracker.Moves.ends {tracker next : Tracker} (moves : tracker.Moves next)
    (ends : tracker.Ends) (alive : next.ended = none) : next.Ends := by
  cases moves with
  | argumentsFailed | pipeFailed | callocFailed =>
      exact absurd alive (tracker.quits_printErrorAndExit _).ended
  | argumentsChecked pc | installed pc | put pc | slept pc =>
      simp only [Tracker.Ends, pc] at ends
      exact ends
  | writepipeOpened pc =>
      simp only [Tracker.Ends, pc] at ends
      refine ⟨(ends.1.insert_of_ne _ (by decide)).insert_of_ne _ (by decide),
        (ends.2.insert_of_ne _ (by decide)).insert_of_ne _ (by decide), ?_⟩
      exact (AList.mem_insert _).mpr
        (.inr ((AList.mem_insert _).mpr (.inl rfl)))
  | @readpipeOpened readFd writeFd pc lowestRead lowestWrite =>
      simp only [Tracker.Ends, pc] at ends
      obtain ⟨readEnd, writeEnd, childRead⟩ := ends
      have freeRead := lowestRead.2.1
      have freeWrite := lowestWrite.2.1
      rw [AList.mem_insert, not_or] at freeWrite
      have differs : ∀ fd, fd ∉ tracker.descriptors → tracker.childRead ≠ fd :=
        fun fd free same => free (same ▸ childRead)
      refine ⟨?_, ?_, ?_, differs _ freeRead, differs _ freeWrite.2,
        freeWrite.1⟩
      · exact ((readEnd.insert readFd _).insert_of_ne _ (by decide)).mono
          (by simp [Tracker.parentRead])
      · exact ((writeEnd.insert_of_ne _ (by decide)).insert writeFd _).mono
          (by simp [Tracker.childWrite])
      · exact (AList.lookup_insert_ne (Ne.symm freeWrite.1)).trans
          (AList.lookup_insert _)
  | vectorAllocated pc | wordAllocated pc | wordsAllocated pc | stored pc =>
      simp only [Tracker.Ends, pc] at ends ⊢
      exact ends
  | closedChildRead pc =>
      simp only [Tracker.Ends, pc] at ends
      obtain ⟨readEnd, writeEnd, found, numbered⟩ := ends
      refine ⟨readEnd.erase_subset _, writeEnd.erase_subset _, ?_, numbered⟩
      exact (AList.lookup_erase_ne numbered.1.symm).trans found
  | closedChildWrite pc =>
      simp only [Tracker.Ends, pc] at ends
      obtain ⟨_, writeEnd, found, numbered⟩ := ends
      refine ⟨writeEnd.erase_self, ?_⟩
      exact (AList.lookup_erase_ne numbered.2.2.symm).trans found
  | closedStream pc | closedParentWrite pc =>
      simp only [Tracker.Ends, pc] at ends
      exact ends.erase_subset _
  | returned => cases alive

/-- The end of the tracker closes all ends. -/
theorem Tracker.Moves.gone {tracker next : Tracker} (moves : tracker.Moves next)
    (alive : tracker.ended = none) (ended : next.ended ≠ none) :
    next.descriptors = ∅ := by
  cases moves with
  | argumentsFailed | pipeFailed | callocFailed =>
      exact (tracker.quits_printErrorAndExit _).descriptors
  | returned => rfl
  | _ => exact absurd alive ended

/-! ## The child alone -/

/-- The child keeps the ends that its place requires. -/
theorem Child.Moves.ends {program : Program} {tracker : Tracker}
    {child next : Child}
    (moves : child.Moves program tracker next) (numbered : tracker.Numbered)
    (ends : child.Ends tracker) : next.Ends tracker := by
  cases moves with
  | closedParentWrite pc =>
      simp only [Child.Ends, pc] at ends
      exact ⟨ends.1.erase_subset _, ends.2.erase_subset _⟩
  | closedParentRead pc =>
      simp only [Child.Ends, pc] at ends
      exact ⟨ends.1.erase_self, ends.2.erase_subset _⟩
  | dupedChildRead pc =>
      simp only [Child.Ends, pc] at ends
      exact ⟨ends.1.dup2_of_notMem 0 (by simp),
        ends.2.dup2_of_notMem 0 (by simpa using numbered.2.1)⟩
  | closedChildRead pc =>
      simp only [Child.Ends, pc] at ends
      exact ⟨ends.1.erase_subset _, ends.2.erase_subset _⟩
  | dupedChildWrite pc =>
      simp only [Child.Ends, pc] at ends
      exact ⟨ends.1.dup2_of_notMem 1 (by simp), ends.2.dup2 _ 1⟩
  | closedChildWrite pc =>
      simp only [Child.Ends, pc] at ends
      exact ⟨ends.1.erase_subset _, (ends.2.erase _).mono (by simp)⟩
  | started pc | reads pc | writes pc | wrote pc | writeFailed pc =>
      simp only [Child.Ends, pc] at ends
      exact ends
  | closedStdin pc | closedStdout pc =>
      simp only [Child.Ends, pc] at ends
      exact ⟨ends.1.erase_subset _, ends.2.erase_subset _⟩

/-! ## Both processes -/

/-- The child's part of the invariant needs only the numbers of the tracker. -/
theorem Child.Ends.congr {tracker next : Tracker} {child : Child}
    (ends : child.Ends tracker)
    (readpipe : next.readpipe = tracker.readpipe) : child.Ends next := by
  unfold Child.Ends Tracker.parentRead Tracker.childWrite at *
  rwa [readpipe]

namespace World.Invariant

variable {world next : World}

theorem start (args : List (List UInt8)) (inherited : List Int) :
    (World.start args inherited).Invariant where
  launched := by simp [World.start, Tracker.start, Pc.beforeFork]
  numbered := by simp [World.start]
  ends _ := Tracker.ends_start args inherited
  gone ended := absurd rfl ended
  child := by simp [World.start]

/-- The tracker changes while its numbers stay. -/
theorem setTracker (invariant : world.Invariant) {tracker : Tracker}
    (launched : tracker.pc.beforeFork = world.tracker.pc.beforeFork)
    (numbers : world.child ≠ none →
      tracker.writepipe = world.tracker.writepipe ∧
      tracker.readpipe = world.tracker.readpipe)
    (ends : tracker.ended = none → tracker.Ends)
    (gone : tracker.ended ≠ none → tracker.descriptors = ∅)
    (content : Pipe → List UInt8)
    (pending : Option Cause) :
    Invariant { tracker := tracker, child := world.child, content := content, pending := pending }
    where
  launched := launched ▸ invariant.launched
  numbered present := (invariant.numbered present).congr (numbers present).1
    (numbers present).2
  ends := ends
  gone := gone
  child child isChild :=
    (invariant.child child isChild).congr (numbers (by simp_all)).2

/-- The child changes while it stays with its ends. -/
theorem setChild (invariant : world.Invariant) {old child : Child}
    (isChild : world.child = some old)
    (ends : old.Ends world.tracker → child.Ends world.tracker)
    (content : Pipe → List UInt8) (pending : Option Cause) :
    Invariant
      { tracker := world.tracker, child := some child, content := content,
        pending := pending }
    where
  launched := by
    have launched := invariant.launched
    simp_all
  numbered _ := invariant.numbered (by simp [isChild])
  ends := invariant.ends
  gone := invariant.gone
  child := by
    rintro _ ⟨⟩
    exact ends (invariant.child old isChild)

/-- The tracker ends. -/
theorem quits (invariant : world.Invariant) {tracker : Tracker}
    (quits : world.tracker.Quits tracker) :
    Invariant { world with tracker := tracker } := by
  refine invariant.setTracker (by rw [quits.pc]) (fun _ => ?_)
    (fun alive => absurd alive quits.ended) (fun _ => quits.descriptors) _ _
  obtain ⟨_, _, _, rfl⟩ := quits
  exact ⟨rfl, rfl⟩

theorem signal (invariant : world.Invariant) (cause : Cause) :
    (world.signal cause).Invariant := by
  unfold World.signal
  split
  · exact ⟨invariant.launched, invariant.numbered, invariant.ends,
      invariant.gone, invariant.child⟩
  · exact invariant

/-- The child terminates. -/
theorem terminate (invariant : world.Invariant) {child : Child}
    (isChild : world.child = some child) (termination : Termination) :
    (world.terminate child termination).Invariant :=
  (invariant.setChild isChild
    (fun _ => show (child.terminate termination).Ends world.tracker from
      ⟨onlyAt_empty _ _, onlyAt_empty _ _⟩) _ _).signal _

/-- The read loop reads from `readpipe`. -/
theorem lookup_parentRead (invariant : world.Invariant)
    (runs : world.tracker.Runs)
    (pc : world.tracker.pc = .fgetc) :
    world.tracker.descriptors.lookup world.tracker.parentRead =
      some (.readEnd .readpipe) := by
  have ends := invariant.ends runs.1
  simp only [Tracker.Ends, pc] at ends
  exact ends.2

/-- The program of the child cannot read from `readpipe`. -/
theorem child_onlyAt (invariant : world.Invariant) {child : Child}
    (isChild : world.child = some child)
    (runs : child.pc = .reading ∨ ∃ rest, child.pc = .writing rest) :
    child.descriptors.OnlyAt (.readEnd .readpipe) ∅ ∧
      child.descriptors.OnlyAt (.writeEnd .readpipe) {1} := by
  have ends := invariant.child child isChild
  rcases runs with pc | ⟨rest, pc⟩
  · simpa only [Child.Ends, pc] using ends
  · simpa only [Child.Ends, pc] using ends

end World.Invariant

/-- Every event keeps the invariant. -/
theorem World.Moves.invariant {capacity : Nat} {program : Program}
    {world next : World}
    {event : Event} (moves : world.Moves capacity program event next)
    (invariant : world.Invariant) : next.Invariant := by
  cases moves with
  | @tracker _ tracker runs _ moves =>
      refine invariant.setTracker moves.beforeFork ?_
        (moves.ends (invariant.ends runs.1))
        (moves.gone runs.1) _ _
      intro present
      exact moves.numbers (by simpa using mt invariant.launched.mpr present)
  | buffered runs pc =>
      have ends := invariant.ends runs.1
      simp only [Tracker.Ends, pc] at ends
      apply invariant.setTracker
      · simp [pc, Pc.beforeFork]
      · exact fun _ => ⟨rfl, rfl⟩
      · exact fun _ => ends
      · exact invariant.gone
  | refilled | delivered =>
      apply invariant.setTracker
      · rfl
      · exact fun _ => ⟨rfl, rfl⟩
      · exact invariant.ends
      · exact invariant.gone
  | reachedEnd runs pc | notReadable runs pc =>
      have ends := invariant.ends runs.1
      simp only [Tracker.Ends, pc] at ends
      apply invariant.setTracker
      · simp [Tracker.goto, pc, Pc.beforeFork]
      · exact fun _ => ⟨rfl, rfl⟩
      · exact fun _ => ends.1
      · exact invariant.gone
  | forkFailed =>
      have renamed :
          ({ world with tracker := { world.tracker with childpid := -1 } } :
            World).Invariant := by
        apply invariant.setTracker
        · rfl
        · exact fun _ => ⟨rfl, rfl⟩
        · exact invariant.ends
        · exact invariant.gone
      exact renamed.quits (Tracker.quits_printErrorAndExit _ _)
  | forked runs pc =>
      have ends := invariant.ends runs.1
      simp only [Tracker.Ends, pc] at ends
      refine ⟨by simp [Tracker.goto, Pc.beforeFork],
        fun _ => ends.2.2.2, fun _ => ends, ?_, ?_⟩
      · exact invariant.gone
      · rintro _ ⟨⟩
        exact ⟨ends.1, ends.2.1⟩
  | collected => exact invariant.quits (world.tracker.quits_collectZombie _ _)
  | reaped _ _ isChild =>
      refine (invariant.quits (world.tracker.quits_collectZombie _ _)).setChild
        isChild ?_ _ _
      exact fun ends => ends
  | child isChild _ moves =>
      exact invariant.setChild isChild
        (moves.ends (invariant.numbered (by simp [isChild]))) _ _
  | terminated termination isChild =>
      exact invariant.terminate isChild termination
  | transferred isChild pc =>
      exact invariant.setChild isChild
        (fun ends => by simpa [Child.Ends, pc] using ends) _ _
  | pipeBroken isChild pc | received isChild pc | readReturned isChild pc =>
      exact invariant.setChild isChild
        (fun ends => by simpa [Child.Ends, pc, Child.answer] using ends) _ _
  | stopped isChild | continued isChild =>
      refine (invariant.setChild isChild ?_ _ _).signal _
      exact fun ends => ends

/-- In every run the invariant holds. -/
theorem run_invariant {capacity : Nat} {program : Program}
    {args : List (List UInt8)}
    {inherited : List Int} {events : List Event} {world : World}
    (ran : (World.step capacity program).run
      (World.start args inherited) events = some world) :
    world.Invariant :=
  Machine.run_invariant World.Invariant
    (fun _ _ _ invariant stepped => (step_moves stepped).invariant invariant)
    (World.Invariant.start args inherited) ran

end ForkPipe
end LinuxCPractice
