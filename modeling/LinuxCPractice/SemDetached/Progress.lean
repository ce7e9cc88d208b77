import LinuxCPractice.SemDetached.Printing
import Mathlib.Algebra.Order.BigOperators.Group.Finset

/-!
# Every thread gets its turn

While the process runs and the initial value of the semaphore is positive, the
threads created so far can all be brought behind `sem_post`. Then each of them
has entered once, and the semaphore has its initial value again.
-/

namespace LinuxCPractice
namespace SemDetached

open Process

/-! ## Sleeps that are over -/

/-- The four seconds the process counts from `sem_wait` are over by the time of
`sem_post`. -/
def Timely (program : Program) : Prop :=
  ∀ number wake, program.process.threads[number]? = some (.inside wake) →
    match program.places number with
    | .enter => wake ≤ program.process.now + 4
    | .sleep later => wake ≤ later
    | .exit | .post => wake ≤ program.process.now

/-- A thread that goes on to another place with its sleep over. -/
theorem Timely.goto {program : Program} {number : Nat} {place : Place}
    {output : List Line}
    (timely : Timely program)
    (here : ∀ wake, program.process.threads[number]? = some (.inside wake) →
      match place with
      | .enter => wake ≤ program.process.now + 4
      | .sleep later => wake ≤ later
      | .exit | .post => wake ≤ program.process.now) :
    Timely { program.goto number place with output := output } := by
  intro other wake found
  by_cases same : other = number
  · subst same
    simpa [Program.goto] using here wake found
  · simpa [Program.goto, same] using timely other wake found

/-- A thread that calls `sem_wait` or `sem_post`. -/
theorem Timely.calls {program : Program} {process : Process} {number : Nat}
    (timely : Timely program) (moves : Moves program.process number process) :
    Timely { program.goto number .enter with process := process } := by
  have now : process.now = program.process.now := by cases moves <;> rfl
  intro other wake found
  by_cases same : other = number
  · subst same
    simp only [Program.goto, Function.update_self, now]
    cases moves with
    | blocks earlier | posts earlier =>
        simp [setThread, (List.getElem?_eq_some_iff.mp earlier).1] at found
    | enters earlier outside free =>
        simp only [setThread,
          List.getElem?_set_self (List.getElem?_eq_some_iff.mp earlier).1,
          Option.some.injEq, ThreadPc.inside.injEq] at found
        omega
  · rw [moves.others same] at found
    simpa [Program.goto, same, now] using timely other wake found

theorem mainStep_now {process next : Process} {succeeds : Bool}
    (stepped : process.mainStep succeeds = some next) :
    next.now = process.now := by
  unfold mainStep at stepped
  split at stepped
  case h_1 | h_3 | h_5 =>
    cases stepped
    rfl
  case h_2 =>
    cases stepped
    cases succeeds <;> rfl
  case h_4 | h_6 =>
    obtain ⟨_, equal⟩ := Option.ite_none_right_eq_some.mp stepped
    cases equal
    rfl
  case h_7 => cases stepped

/-- Every step keeps what is known about the sleeps. -/
theorem Timely.step {program next : Program} {event : Event}
    (timely : Timely program)
    (stepped : Program.step program event = some next) : Timely next := by
  by_cases isThread : ∃ number, event = .thread number
  · obtain ⟨number, rfl⟩ := isThread
    cases threadStep_statement stepped with
    | entered isInside place =>
        refine timely.goto fun wake found => ?_
        simpa [place] using timely number wake found
    | slept isInside place hasSlept =>
        show Timely { program.goto number .exit with output := program.output }
        refine timely.goto fun wake found => ?_
        have earlier := timely number wake found
        rw [place] at earlier
        exact Nat.le_trans earlier hasSlept
    | exiting isInside place =>
        refine timely.goto fun wake found => ?_
        simpa [place] using timely number wake found
    | calls moves place => exact timely.calls moves
  · rw [step_of_ne_thread program (not_exists.mp isThread)] at stepped
    obtain ⟨process, moved, rfl⟩ := Option.map_eq_some_iff.mp stepped
    intro number wake found
    cases event with
    | thread other => exact absurd ⟨other, rfl⟩ isThread
    | tick duration =>
        cases moved
        have earlier := timely number wake found
        change match program.places number with
          | .enter => wake ≤ program.process.now + duration + 4
          | .sleep later => wake ≤ later
          | .exit | .post => wake ≤ program.process.now + duration
        split <;> simp_all <;> omega
    | main succeeds =>
        have now : process.now = program.process.now := mainStep_now moved
        simpa [now] using timely number wake
          ((mainStep_inside moved number wake).mp found)

/-- In every run a sleep is over by the time of `sem_post`. -/
theorem timely_of_run {value count : Nat} {events : List Event}
    {final : Program}
    (ran : Program.step.run (Program.start value count) events = some final) :
    Timely final :=
  Machine.run_invariant Timely (fun _ _ _ timely stepped => timely.step stepped)
    (fun _ _ found => by simp [Program.start, Process.start] at found) ran

/-! ## Steps that are left -/

/-- The number of steps a thread has left. -/
def left (program : Program) (number : Nat) : Nat :=
  match program.process.threads[number]? with
  | some .start => 6
  | some .blocked => 5
  | some (.inside _) =>
      match program.places number with
      | .enter => 4
      | .sleep _ => 3
      | .exit => 2
      | .post => 1
  | some .done | none => 0

/-- A statement of a thread brings it closer to its end and changes nothing
about the others. -/
structure Advances (program next : Program) (number : Nat) : Prop where
  closer : left next number < left program number
  others : ∀ other, other ≠ number → left next other = left program other
  length : next.process.threads.length = program.process.threads.length
  main : next.process.main = program.process.main

theorem Moves.length {process next : Process} {number : Nat}
    (moves : Moves process number next) :
    next.threads.length = process.threads.length ∧
      next.main = process.main := by
  cases moves <;> exact ⟨List.length_set, rfl⟩

/-- A statement brings its thread closer to its end. -/
theorem Statement.advances {program next : Program} {number : Nat}
    (made : Statement program number next) : Advances program next number := by
  cases made with
  | entered isInside place | exiting isInside place
  | slept isInside place hasSlept =>
      obtain ⟨wake, found⟩ := isInside
      refine ⟨?_, fun other different => ?_, rfl, rfl⟩
      · simp [left, Program.goto, found, place]
      · simp [left, Program.goto, different]
  | @calls process moves place =>
      refine ⟨?_, fun other different => ?_, moves.length.1, moves.length.2⟩
      · cases moves with
        | blocks found =>
            obtain ⟨bound, same⟩ := List.getElem?_eq_some_iff.mp found
            simp [left, setThread, bound, same]
        | enters found outside free =>
            obtain ⟨bound, same⟩ := List.getElem?_eq_some_iff.mp found
            rcases outside with rfl | rfl <;>
              simp [left, setThread, Program.goto, bound, same]
        | posts found =>
            have atPost := place ⟨_, found⟩
            obtain ⟨bound, same⟩ := List.getElem?_eq_some_iff.mp found
            simp [left, setThread, bound, same, atPost]
      · simp [left, Program.goto, moves.others different, different]

/-- A thread that is inside can always go on. -/
theorem exists_step_of_inside {program : Program} {number wake : Nat}
    (timely : Timely program) (running : program.process.main ≠ .exited)
    (found : program.process.threads[number]? = some (.inside wake)) :
    ∃ duration next, Program.step.run program [.tick duration, .thread number] =
      some next := by
  have limit := timely number wake found
  cases place : program.places number with
  | enter =>
      exact ⟨0,
        by simp [Program.step, Process.step, Program.threadStep, found, running, place]⟩
  | sleep later =>
      refine ⟨later - program.process.now, ?_⟩
      have hasSlept : later ≤
          program.process.now + (later - program.process.now) := by omega
      simp [Program.step, Process.step, Program.threadStep, found, running,
        place, hasSlept]
  | exit =>
      exact ⟨0,
        by simp [Program.step, Process.step, Program.threadStep, found, running, place]⟩
  | post =>
      rw [place] at limit
      exact ⟨0,
        by simp [Program.step, Process.step, Program.threadStep, Program.callSem,
        Process.threadStep, found, running, place, limit]⟩

/-- While the semaphore lets another thread in, a thread that is outside and not
done can go on. -/
theorem exists_step_of_free {program : Program} {number : Nat} {pc : ThreadPc}
    (running : program.process.main ≠ .exited) (free : 0 < program.process.sem)
    (found : program.process.threads[number]? = some pc)
    (outside : pc = .start ∨ pc = .blocked) :
    ∃ duration next, Program.step.run program [.tick duration, .thread number] =
      some next := by
  refine ⟨0, ?_⟩
  rcases outside with rfl | rfl
  · simp [Program.step, Process.step, Program.threadStep, Program.callSem,
      Process.threadStep, found, running]
  · have nonzero : program.process.sem ≠ 0 := by omega
    simp [Program.step, Process.step, Program.threadStep, Program.callSem,
      Process.threadStep, found, running, nonzero]

/-- While a thread is not done, some thread can go on. -/
theorem exists_step {program : Program} {value : Nat} (positive : 0 < value)
    (invariant : Invariant program value) (timely : Timely program)
    (running : program.process.main ≠ .exited)
    (unfinished : ¬∀ pc ∈ program.process.threads, pc = .done) :
    ∃ number duration next,
      Program.step.run program [.tick duration, .thread number] =
        some next := by
  obtain ⟨⟨holders, isHolders⟩, _⟩ := invariant
  cases holders with
  | cons number holders =>
      obtain ⟨wake, found⟩ := (isHolders.inside number).mp List.mem_cons_self
      exact ⟨number, exists_step_of_inside timely running found⟩
  | nil =>
      have free : 0 < program.process.sem := by
        have total := isHolders.total
        rw [List.length_nil] at total
        omega
      simp only [not_forall] at unfinished
      obtain ⟨pc, present, notDone⟩ := unfinished
      obtain ⟨number, found⟩ := List.mem_iff_getElem?.mp present
      refine ⟨number, exists_step_of_free running free found ?_⟩
      cases pc with
      | start => exact .inl rfl
      | blocked => exact .inr rfl
      | inside wake => cases (isHolders.inside number).mpr ⟨wake, found⟩
      | done => exact absurd rfl notDone

/-- The number of steps all threads have left. -/
def total (program : Program) : Nat :=
  ∑ number ∈ Finset.range program.process.threads.length, left program number

/-- A thread that advances leaves less to do. -/
theorem Advances.total_lt {program next : Program} {number : Nat}
    (advances : Advances program next number) : total next < total program := by
  unfold total
  rw [advances.length]
  apply Finset.sum_lt_sum
  · intro other _
    by_cases same : other = number
    · exact same ▸ advances.closer.le
    · exact (advances.others other same).le
  · refine ⟨number, Finset.mem_range.mpr ?_, advances.closer⟩
    by_contra beyond
    have nothing : left program number = 0 := by
      simp [left, List.getElem?_eq_none (Nat.not_lt.mp beyond)]
    have closer := advances.closer
    omega

/-- The process runs, and all invariants hold. -/
structure Running (program : Program) (value : Nat) : Prop where
  invariant : Invariant program value
  timely : Timely program
  running : program.process.main ≠ .exited

/-- Until all threads are done some steps lead closer to it. -/
theorem Running.exists_closer {program : Program} {value : Nat}
    (positive : 0 < value)
    (runs : Running program value)
    (unfinished : ¬∀ pc ∈ program.process.threads, pc = .done) :
    ∃ events next, Program.step.run program events = some next ∧
      Running next value ∧
      total next < total program := by
  obtain ⟨invariant, timely, running⟩ := runs
  obtain ⟨number, duration, next, ran⟩ :=
    exists_step positive invariant timely running unfinished
  obtain ⟨ticked, passes, steps⟩ := Option.bind_eq_some_iff.mp ran
  obtain ⟨_, stepped, same⟩ := Option.bind_eq_some_iff.mp steps
  cases same
  cases passes
  have advances := (threadStep_statement stepped).advances
  refine ⟨_, next, ran, ⟨?_, ?_, ?_⟩, advances.total_lt⟩
  · exact Machine.run_invariant (fun program => Invariant program value)
      (fun _ _ _ invariant stepped => invariant.step stepped) invariant ran
  · exact Machine.run_invariant Timely (fun _ _ _ timely stepped =>
      timely.step stepped) timely ran
  · rw [advances.main]
    exact running

/-- When all threads are done, each has entered once and the semaphore is
free. -/
theorem Invariant.of_done {program : Program} {value : Nat}
    (invariant : Invariant program value)
    (done : ∀ pc ∈ program.process.threads, pc = .done) :
    program.process.sem = value ∧ Use.held program.output = [] ∧
      ∀ number < program.process.threads.length,
        program.output.count (.opens number) = 1 := by
  obtain ⟨⟨holders, isHolders⟩, listing⟩ := invariant
  have noneInside : ∀ number, ¬Inside program.process number := by
    rintro number ⟨wake, found⟩
    cases done _ (List.mem_of_getElem? found)
  have nobody : holders = [] :=
    List.eq_nil_iff_forall_not_mem.mpr fun number present =>
      noneInside number ((isHolders.inside number).mp present)
  refine ⟨by simpa [nobody] using isHolders.total, ?_, fun number bound => ?_⟩
  · exact List.eq_nil_iff_forall_not_mem.mpr fun number present =>
      noneInside number ((listing.held number).mp present).1
  · have isDone : program.process.threads[number]? = some .done := by
      rw [List.getElem?_eq_getElem bound]
      exact congrArg some (done _ (List.getElem_mem bound))
    have present := (listing.passed number).mpr (.inr isDone)
    exact Nat.le_antisymm (listing.once number) (List.count_pos_iff.mpr present)

/-- From every state in which the process runs, the threads created so far can
be brought behind `sem_post`, and then each has entered exactly once, none is
left inside and the semaphore has its initial value again. -/
theorem all_post {value count : Nat} {events : List Event} {program : Program}
    (positive : 0 < value)
    (ran : Program.step.run (Program.start value count) events = some program)
    (running : program.process.main ≠ .exited) :
    ∃ more later, Program.step.run program more = some later ∧
      (∀ pc ∈ later.process.threads, pc = .done) ∧ later.process.sem = value ∧
      Use.held later.output = [] ∧
      ∀ number < later.process.threads.length,
        later.output.count (.opens number) = 1 := by
  have reached : ∃ more later, Program.step.run program more = some later ∧
      Running later value ∧ ∀ pc ∈ later.process.threads, pc = .done :=
    Machine.exists_run_until total (fun _ runs unfinished =>
      runs.exists_closer positive unfinished)
      ⟨invariant_of_run ran, timely_of_run ran, running⟩
  obtain ⟨more, later, ranOn, runs, done⟩ := reached
  exact ⟨more, later, ranOn, done, runs.invariant.of_done done⟩

/-- The first thread sleeps in its section and the second waits. -/
def secondWaits : List Event :=
  [.main true, .main true, .main true, .thread 0, .thread 0, .tick 2,
    .main true, .main true, .thread 1]

/-- The second thread is blocked behind the first. -/
theorem all_post_secondWaits :
    ∃ program, Program.step.run (Program.start 1 3) secondWaits = some program ∧
      program.process.threads = [.inside 4, .blocked] ∧
      ∃ more later, Program.step.run program more = some later ∧
        (∀ pc ∈ later.process.threads, pc = .done) ∧ later.process.sem = 1 ∧
        Use.held later.output = [] ∧
        ∀ number < later.process.threads.length,
          later.output.count (.opens number) = 1 := by
  have reached : (Program.step.run (Program.start 1 3) secondWaits).map
      (fun program => (program.process.threads,
        decide (program.process.main ≠ .exited))) =
        some ([.inside 4, .blocked], true) := by decide
  obtain ⟨program, ran, values⟩ := Option.map_eq_some_iff.mp reached
  obtain ⟨threads, running⟩ := Prod.mk.inj values
  exact ⟨program, ran, threads,
    all_post (by decide) ran (of_decide_eq_true running)⟩

end SemDetached
end LinuxCPractice
