import LinuxCPractice.ThreadMutex.Joining

/-!
# The program exits

Whatever the order of its steps, the program makes a bounded number of them, and
until it has exited `main` or a thread can go on.
-/

namespace LinuxCPractice
namespace ThreadMutex

namespace Program

/-- The steps that `main` and the threads have left. -/
def left (program : Program) : Nat :=
  program.main.remaining program.view.threads.length +
    (program.callers.length - program.process.threads.length) +
      program.view.remaining

/-- The same, but nothing is left behind `exit`. -/
def remaining (program : Program) : Nat :=
  if program.status = none then program.left + 1 else 0

theorem remaining_lt_of_left {program next : Program}
    (running : program.status = none)
    (less : next.left < program.left) : next.remaining < program.remaining := by
  unfold remaining
  rw [if_pos running]
  split <;> omega

theorem length_le_view (program : Program) :
    program.process.threads.length ≤ program.view.threads.length := by
  simp [view, Process.withLater]

theorem left_of_main {program next : Program} {succeeds : Bool}
    (stepped : program.mainStep succeeds = some next) :
    next.left < program.left := by
  obtain ⟨sameView, sameCallers⟩ := view_of_main stepped
  rcases proceeds_of_main stepped with ⟨same, _, _, closer⟩
    | ⟨caller, isNext, rfl⟩
  · have less := closer _ program.length_le_view
    simp only [left, sameView, same, sameCallers]
    omega
  · have bound := (List.getElem?_eq_some_iff.mp isNext).1
    simp only [left, sameView]
    simp only [createThread, List.length_append, List.length_singleton]
    omega

/-- Every step comes closer to the end. -/
theorem closer_of_step {program next : Program} {event : MainEvent}
    (stepped : step program event = some next) :
    next.remaining < program.remaining := by
  obtain ⟨running, moves⟩ := moves_of_step stepped
  cases moves with
  | main can => exact remaining_lt_of_left running (left_of_main can)
  | @thread event process can =>
      have seen := view_of_thread can
      rcases advances_of_step seen with
        ⟨_, thread, changed, found, threads, advances⟩ | ⟨failed, _⟩
      · refine remaining_lt_of_left running ?_
        have less := sum_remaining_set found advances.closer
        simp only [left, length_threads_of_step seen,
          length_threads_of_step can]
        simp only [Process.remaining, threads]
        omega
      · have exited : status { program with process := process } = some 1 :=
          if_neg failed
        simp [remaining, running, exited]

/-- Until the program has exited, `main` or a thread can go on. -/
theorem exists_next {program : Program} (managed : program.Managed)
    (running : program.status = none) :
    ∃ event next, step program event = some next := by
  have ofMain {next : Program} (can : program.mainStep true = some next) :
      ∃ event next, step program event = some next :=
    ⟨.main true, next, by rw [step, if_pos running, can]⟩
  have place := managed.place
  cases pc : program.main with
  | mutexInit | printReturned number | free number | destroy =>
      exact ofMain (by simp only [mainStep, pc]; rfl)
  | create =>
      cases isNext : program.callers[program.process.threads.length]? with
      | none => exact ofMain (by simp only [mainStep, pc, isNext]; rfl)
      | some caller => exact ofMain (by simp only [mainStep, pc, isNext]; rfl)
  | join number =>
      cases found : program.process.threads[number]? with
      | none => exact ofMain (by simp only [mainStep, pc, found]; rfl)
      | some thread =>
          by_cases returned : thread.pc = .returned
          · exact ofMain
              (by simp only [mainStep, pc, found, if_pos returned]; rfl)
          · rw [pc] at place
            obtain ⟨order, serial⟩ := managed.serial
            rw [Joined.noneLater place] at serial
            obtain ⟨event, process, can⟩ :=
              exists_step serial (running_of_status running).1
                fun all => returned (all thread (List.mem_of_getElem? found))
            exact ⟨.thread event, _, by rw [step, if_pos running, can]; rfl⟩
  | exitFailure message =>
      simp [status, pc, (running_of_status running).1] at running
  | exitSuccess => exact absurd pc (running_of_status running).2
  | undefined =>
      rw [pc] at place
      exact place.elim

/-- A thread or `main` has failed. -/
def Failed (program : Program) : Prop :=
  program.process.failure ≠ none ∨ ∃ message,
    program.main = .exitFailure message

/-- The status 1 comes from a failure. -/
theorem failed_of_status {program : Program}
    (exited : program.status = some 1) :
    program.Failed := by
  unfold status at exited
  split at exited
  · split at exited
    · exact .inr ⟨_, ‹_›⟩
    · simp at exited
    · cases exited
  · exact .inl ‹_›

/-- A failure comes from a call that does not succeed. -/
theorem failed_of_step {program next : Program} {event : MainEvent}
    (stepped : step program event = some next) (failed : next.Failed) :
    program.Failed ∨ event.succeeds = false := by
  obtain ⟨running, moves⟩ := moves_of_step stepped
  cases moves with
  | main can =>
      rcases proceeds_of_main can with ⟨same, _, fails, _⟩
        | ⟨caller, isNext, rfl⟩
      · rw [Failed, same] at failed
        rcases failed with already | ⟨message, exited⟩
        · exact .inl (.inl already)
        · exact .inr (fails message exited)
      · exact .inl failed
  | thread can =>
      rcases advances_of_step can with ⟨sameFailure, _⟩ | ⟨_, _, notAllocated⟩
      · rw [Failed] at failed
        exact .inl (failed.imp_left (sameFailure ▸ ·))
      · exact .inr notAllocated

end Program

theorem remaining_start (callers : List (Option Int32 × Int32)) :
    (Program.start callers).remaining = 14 * callers.length + 5 := by
  have threads : (callers.map fun caller =>
      (Thread.start caller.1 caller.2).pc.remaining).sum =
        10 * callers.length := by
    simp [Thread.start, Pc.remaining, Nat.mul_comm]
  simp [Program.remaining, Program.status, Program.start, Process.start,
    Program.left,
    Program.view, Process.withLater, MainPc.remaining, Process.remaining,
    Function.comp_def, threads]
  omega

open Program

/-- A run makes at most so many steps, and it can go on until the program has
exited; the program exits with status one only if a call has failed. -/
theorem main_exits {callers : List (Option Int32 × Int32)}
    {events : List MainEvent}
    {final : Program}
    (ran : Program.step.run (Program.start callers) events = some final) :
    events.length ≤ 14 * callers.length + 5 ∧
      (final.status = none → ∃ event next,
        Program.step final event = some next) ∧
      ((∀ event ∈ events, event.succeeds = true) → final.status ≠ some 1) := by
  have bound :
      events.length + final.remaining ≤ (Program.start callers).remaining :=
    Machine.length_run_le (fun _ _ _ (_ : True) stepped =>
      closer_of_step stepped) ran
      fun _ _ => trivial
  rw [remaining_start] at bound
  refine ⟨by omega, exists_next (managed_of_run ran).1,
    fun allSucceed exited => ?_⟩
  have well : ¬final.Failed :=
    Machine.run_invariant_of_everyStep (fun program => ¬program.Failed)
      (fun _ event _ well succeeds stepped failed =>
        (failed_of_step stepped failed).elim well fun fails =>
          Bool.false_ne_true (fails.symm.trans succeeds))
      (by simp [Failed, Program.start, Process.start])
      ((Machine.everyStep_event_iff ran).mpr allSucceed) ran
  exact well (failed_of_status exited)

/-- Everything goes well, in 32 steps. -/
theorem main_exits_secondFirst :
    ∃ final, Program.step.run (ofTids 531 532) secondFirst = some final ∧
      secondFirst.length ≤ 33 ∧ final.status ≠ some 1 := by
  have reached : (Program.step.run (ofTids 531 532) secondFirst).isSome =
      true := by decide
  obtain ⟨final, ran⟩ := Option.isSome_iff_exists.mp reached
  obtain ⟨bound, _, well⟩ := main_exits ran
  exact ⟨final, ran, bound, well (by decide)⟩

end ThreadMutex
end LinuxCPractice
