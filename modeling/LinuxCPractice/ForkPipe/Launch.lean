import LinuxCPractice.ForkPipe.Moves

/-!
# The way to `execvp`

With at least one argument the tracker can bring its child to `execvp`, whatever
descriptors it has inherited: a table is finite, so that `pipe` finds a number,
and the vector has room for as many words as there are arguments.
-/

namespace LinuxCPractice
namespace ForkPipe

open DescriptorTable

/-- The tracker runs `main` and stands at `pc`. -/
structure World.At (world : World) (args : List (List UInt8))
    (pc : Pc) : Prop where
  runs : world.tracker.Runs
  pc : world.tracker.pc = pc
  args : world.tracker.args = args

/-- The place behind a call of `pipe`. -/
def Pipe.next : Pipe → Pc
  | .writepipe => .pipe .readpipe
  | .readpipe => .callocVector

section Launch

variable (capacity : Nat) (program : Program) {args : List (List UInt8)}
  {world : World}

/-- With an argument the tracker gets to its first pipe. -/
theorem World.At.exists_checked (stands : world.At args .checkArguments)
    (given : 2 ≤ args.length) :
    ∃ next, (World.step capacity program).Reachable world next ∧
      next.At args (.pipe .writepipe) := by
  have enough : ¬world.tracker.args.length < 2 := by
    rw [stands.args]
    omega
  refine ⟨{ world with tracker := world.tracker.goto (.pipe .writepipe) },
    ⟨[.main, .main], ?_⟩, stands.runs, rfl, stands.args⟩
  simp [World.step, World.mainStep, Tracker.main, Tracker.goto, stands.runs.1,
    stands.runs.2, stands.pc, enough]

/-- From one pipe it gets to what is next. -/
theorem World.At.exists_piped {which : Pipe}
    (stands : world.At args (.pipe which)) :
    ∃ next, (World.step capacity program).Reachable world next ∧
      next.At args which.next := by
  obtain ⟨readFd, lowestRead⟩ := exists_lowest world.tracker.descriptors
  obtain ⟨writeFd, lowestWrite⟩ :=
    exists_lowest (world.tracker.descriptors.insert readFd (.readEnd which))
  obtain ⟨tracker, opened, behind⟩ : ∃ tracker,
      world.tracker.pipe which (some (readFd, writeFd)) = some tracker ∧
        World.At { world with tracker := tracker } args which.next := by
    cases which <;>
      exact ⟨_, if_pos ⟨lowestRead, lowestWrite⟩, stands.runs, rfl, stands.args⟩
  have stepped :
      World.step capacity program world (.pipe (some (readFd, writeFd))) =
      some { world with tracker := tracker } := by
    simp [World.step, World.mainStep, stands.runs.1, stands.runs.2, stands.pc,
      opened]
  exact ⟨_, (Machine.Reachable.refl world).step stepped, behind⟩

/-- It allocates the vector. -/
theorem World.At.exists_vector (stands : world.At args .callocVector) :
    ∃ next, (World.step capacity program).Reachable world next ∧
      next.At args .callocWord ∧
      next.tracker.argsDup = some [] := by
  have stepped : World.step capacity program world (.calloc true) =
      some { world with
        tracker :=
          { world.tracker with argsDup := some [], pc := .callocWord } } := by
    simp [World.step, World.mainStep, Tracker.calloc, stands.runs.1,
      stands.runs.2, stands.pc]
  exact ⟨_, (Machine.Reachable.refl world).step stepped,
    ⟨stands.runs, rfl, stands.args⟩, rfl⟩

/-- By induction on the number of words that are missing. -/
theorem World.At.exists_words {words : List (List UInt8)} {count : Nat}
    (stands : world.At args .callocWord)
    (allocated : world.tracker.argsDup = some words)
    (left : words.length + 1 + count = args.length) :
    ∃ next, (World.step capacity program).Reachable world next ∧
      next.At args .fork := by
  induction count generalizing world words with
  | zero =>
      have stepped : World.step capacity program world .main =
          some { world with tracker := world.tracker.goto .fork } := by
        simp [World.step, World.mainStep, Tracker.main, stands.runs.1,
          stands.runs.2, stands.pc, stands.args, allocated, ← left]
      exact ⟨_, (Machine.Reachable.refl world).step stepped, stands.runs, rfl,
        stands.args⟩
  | succ count inductionHypothesis =>
      have inside : words.length + 1 < args.length := by omega
      let word := args[words.length + 1].take (Tracker.wordsSize - 1)
      let next : World :=
        { world with tracker := { world.tracker with
            argsDup := some (words ++ [word]) } }
      have stepped : World.step capacity program world (.calloc true) =
          some next := by
        simp [World.step, World.mainStep, Tracker.calloc, stands.runs.1,
          stands.runs.2, stands.pc, stands.args, allocated, inside, next, word]
      have nextStands : next.At args .callocWord :=
        ⟨stands.runs, stands.pc, stands.args⟩
      have nextAllocated : next.tracker.argsDup = some (words ++ [word]) := rfl
      have nextLeft : (words ++ [word]).length + 1 + count = args.length := by
        rw [List.length_append, List.length_singleton, ← left]
        omega
      obtain ⟨final, onward, atFork⟩ :=
        inductionHypothesis nextStands nextAllocated nextLeft
      exact ⟨final, ((Machine.Reachable.refl world).step stepped).trans onward,
        atFork⟩

/-- It forks. -/
theorem World.At.exists_forked (stands : world.At args .fork) :
    ∃ next pid table, (World.step capacity program).Reachable world next ∧
      next.child = some (.start pid table) := by
  have stepped : World.step capacity program world (.fork (some 100)) =
      some { world with
        tracker := world.tracker.goto (.storeChildpid 100)
        child := some (.start 100 world.tracker.descriptors) } := by
    simp [World.step, World.mainStep, World.fork, stands.runs.1, stands.runs.2,
      stands.pc]
  exact ⟨_, 100, world.tracker.descriptors,
    (Machine.Reachable.refl world).step stepped, rfl⟩

/-- The child makes its six calls. -/
theorem World.exists_redirected {pid : Int} {table : Table}
    (isChild : world.child = some (.start pid table)) :
    ∃ next child, (World.step capacity program).Reachable world next ∧
      next.child = some child ∧ child.pc = .execvp := by
  obtain ⟨tracker, child, content, pending⟩ := world
  cases isChild
  exact ⟨_, _, ⟨List.replicate 6 .child, rfl⟩, rfl, rfl⟩

/-- Some run leads the child to `execvp`. -/
theorem exists_run_to_execvp (inherited : List Int) (given : 2 ≤ args.length) :
    ∃ world child, (World.step capacity program).Reachable
      (World.start args inherited) world ∧
      world.child = some child ∧ child.pc = .execvp := by
  have stands : (World.start args inherited).At args .checkArguments :=
    ⟨⟨rfl, rfl⟩, rfl, rfl⟩
  obtain ⟨checked, toChecked, atWritepipe⟩ :=
    stands.exists_checked capacity program given
  obtain ⟨opened, toOpened, atReadpipe⟩ :=
    atWritepipe.exists_piped capacity program
  obtain ⟨piped, toPiped, atVector⟩ := atReadpipe.exists_piped capacity program
  obtain ⟨allocated, toAllocated, atWord, empty⟩ :=
    atVector.exists_vector capacity program
  have left : ([] : List (List UInt8)).length + 1 + (args.length - 1) =
      args.length := by
    rw [List.length_nil]
    omega
  obtain ⟨ready, toReady, atFork⟩ :=
    atWord.exists_words capacity program empty left
  obtain ⟨forked, pid, table, toForked, isChild⟩ :=
    atFork.exists_forked capacity program
  obtain ⟨world, child, toExecvp, ends⟩ :=
    World.exists_redirected capacity program isChild
  have reached :=
    ((((toChecked.trans toOpened).trans toPiped).trans toAllocated).trans
      toReady).trans toForked
  exact ⟨world, child, reached.trans toExecvp, ends⟩

end Launch
end ForkPipe
end LinuxCPractice
