import LinuxCPractice.ThreadMutex.Counter

/-!
# Creating and joining the threads

`main` of `thread_mutex.c`, which creates a thread for each caller, joins them
in the order of their creation, prints and frees what they return and destroys
the mutex. The threads run `trythis` from their creation on.
-/

namespace LinuxCPractice
namespace ThreadMutex

/-! ## Data -/

/-- Where `main` stands. It reaches `undefined` when it uses a buffer that is
not written yet or freed already, or destroys a mutex that is held. -/
inductive MainPc
  | mutexInit
  | create
  | join (number : Nat)
  | printReturned (number : Nat)
  | free (number : Nat)
  | destroy
  | exitFailure (message : String)
  | exitSuccess
  | undefined
  deriving DecidableEq

/-- The process of the threads created so far, with `main`. `retvalPtr` points
to the buffer of a thread or is `NULL`. -/
structure Program where
  callers : List (Option Int32 × Int32)
  main : MainPc
  process : Process
  retvalPtr : Option Nat
  returned : List (Nat × Option String)
  freed : List Nat
  deriving DecidableEq

/-- The next step of `main` or of a thread. Only the calls that `main` checks
look at whether they succeed. -/
inductive MainEvent
  | main (succeeds : Bool)
  | thread (event : Event)
  deriving DecidableEq

/-- No call fails in it. -/
@[simp] def MainEvent.succeeds : MainEvent → Bool
  | .main succeeds => succeeds
  | .thread event => event.allocates

/-- What `printf` makes of it. -/
def returnedText (identifier : Nat → String)
    (returned : Nat × Option String) : String :=
  let text := returned.2.getD "(null)"
  s!"returned {text} from {identifier returned.1}\n"

namespace Program

/-- `main` at its beginning. It passes these integers, and these are the
identifiers that the threads get. -/
def start (callers : List (Option Int32 × Int32)) : Program where
  callers := callers
  main := .mutexInit
  process := Process.start []
  retvalPtr := none
  returned := []
  freed := []

/-- The two threads of the source. -/
def ofTids (first second : Int32) : Program :=
  start [(some 10, first), (some 20, second)]

/-! ## Steps -/

/-- What `trythis` returns. -/
def returnValue (number : Nat) (thread : Thread) : Option Nat :=
  if thread.buffer = .null then none else some number

/-- `pthread_create` for the next caller. -/
def createThread (program : Program)
    (caller : Option Int32 × Int32) : Program :=
  { program with process := { program.process with
      threads := program.process.threads ++ [Thread.start caller.1 caller.2] } }

/-- `printf` of what `retvalPtr` points to. -/
def printReturned (program : Program) (number : Nat) : Program :=
  match program.retvalPtr with
  | none => { program with
      main := .free number, returned := program.returned ++ [(number, none)] }
  | some owner =>
      match program.process.threads[owner]?.map Thread.buffer with
      | some (.written text) =>
          if owner ∈ program.freed then { program with main := .undefined }
          else { program with
            main := .free number, returned :=
              program.returned ++ [(number, some text)] }
      | _ => { program with main := .undefined }

/-- `if (retval_ptr) { free(retval_ptr); }` -/
def freeReturned (program : Program) (number : Nat) : Program :=
  match program.retvalPtr with
  | none => { program with main := .join (number + 1) }
  | some owner =>
      if owner ∈ program.freed then { program with main := .undefined }
      else { program with main := .join (number + 1), freed := program.freed ++ [owner] }

/-- One step of `main`. It waits at a thread that has not returned. -/
def mainStep (program : Program) (succeeds : Bool) : Option Program :=
  match program.main with
  | .mutexInit => some { program with
      main := if succeeds then .create
        else .exitFailure "mutex init has failed\n" }
  | .create =>
      match program.callers[program.process.threads.length]? with
      | some caller => some
          (if succeeds then program.createThread caller
            else { program with
              main := .exitFailure "error while creating the thread\n" })
      | none => some { program with main := .join 0 }
  | .join number =>
      match program.process.threads[number]? with
      | some thread =>
          if thread.pc = .returned then
            some { program with
              main := .printReturned number, retvalPtr :=
                returnValue number thread }
          else none
      | none => some { program with main := .destroy }
  | .printReturned number => some (program.printReturned number)
  | .free number => some (program.freeReturned number)
  | .destroy => some { program with
      main := if program.process.lock = none then .exitSuccess else .undefined }
  | .exitFailure _ | .exitSuccess | .undefined => none

/-- The exit status, when `main` or a thread whose `malloc` failed has
exited. -/
def status (program : Program) : Option Int32 :=
  if program.process.failure = none then
    match program.main with
    | .exitFailure _ => some 1
    | .exitSuccess => some 0
    | _ => none
  else some 1

/-- One step of the program. After `exit` neither `main` nor a thread goes
on. -/
def step : Machine Program MainEvent := fun program event =>
  if program.status = none then
    match event with
    | .main succeeds => program.mainStep succeeds
    | .thread event => (Process.step program.process event).map fun next =>
        { program with process := next }
  else none

end Program

/-! ## The process with all its threads -/

/-- Threads that have not made a step yet. -/
def Process.withLater (process : Process)
    (later : List (Option Int32 × Int32)) : Process :=
  { process with
    threads := process.threads ++ later.map fun caller =>
      Thread.start caller.1 caller.2 }

theorem Process.trythis_withLater {process next : Process} {number : Nat}
    {thread : Thread}
    {allocates : Bool} (later : List (Option Int32 × Int32))
    (bound : number < process.threads.length)
    (stepped : process.trythis number thread allocates = some next) :
    (process.withLater later).trythis number thread allocates = some
      (next.withLater later) := by
  unfold Process.trythis at stepped ⊢
  split at stepped
  case h_1 pc =>
    obtain ⟨free, equal⟩ := Option.ite_none_right_eq_some.mp stepped
    cases equal
    simp [free, Process.withLater, Process.setThread,
      List.set_append_left _ _ bound]
  case h_8 pc =>
    cases stepped
    cases allocates <;>
      simp [Process.withLater, Process.setThread,
        List.set_append_left _ _ bound]
  case h_11 => cases stepped
  all_goals
    next pc =>
      cases stepped
      simp [Process.withLater, Process.setThread, Process.print,
        List.set_append_left _ _ bound]

/-- Threads that come later change no step. -/
theorem Process.step_withLater {process next : Process} {event : Event}
    (later : List (Option Int32 × Int32))
    (stepped : Process.step process event = some next) :
    Process.step (process.withLater later) event =
      some (next.withLater later) := by
  obtain ⟨running, stepped⟩ := Option.ite_none_right_eq_some.mp stepped
  obtain ⟨thread, found, stepped⟩ := Option.bind_eq_some_iff.mp stepped
  have bound := (List.getElem?_eq_some_iff.mp found).1
  have foundLater : (process.withLater later).threads[event.number]? =
      some thread :=
    (List.getElem?_append_left bound).trans found
  have runningLater : (process.withLater later).failure = none := running
  rw [Process.step, if_pos runningLater, foundLater, Option.bind_some]
  exact Process.trythis_withLater later bound stepped

/-! ## What the steps of a thread keep -/

/-- Behind `snprintf` a thread has its own text in its buffer. -/
def Thread.Buffered (thread : Thread) : Prop :=
  thread.pc = .unlock ∨ thread.pc = .returned →
    thread.buffer = .written s!"retval {thread.tid}"

theorem Thread.buffered_start (caller : Option Int32 × Int32) :
    (Thread.start caller.1 caller.2).Buffered := by
  simp [Thread.Buffered, Thread.start]

/-- A step of a thread brings it on, keeps its identifier and leaves the other
threads alone, or `malloc` fails. -/
structure Advances (thread changed : Thread) : Prop where
  running : thread.pc ≠ .returned
  tid : changed.tid = thread.tid
  buffered : thread.Buffered → changed.Buffered
  closer : changed.pc.remaining < thread.pc.remaining

/-- A step advances one thread, or the process fails. -/
theorem advances_of_step {process next : Process} {event : Event}
    (stepped : Process.step process event = some next) :
    (next.failure = process.failure ∧ ∃ thread changed,
        process.threads[event.number]? = some thread ∧
        next.threads = process.threads.set event.number changed ∧
        Advances thread changed) ∨
      (next.failure ≠ none ∧ next.threads = process.threads ∧
        event.allocates = false) := by
  obtain ⟨_, stepped⟩ := Option.ite_none_right_eq_some.mp stepped
  obtain ⟨thread, found, stepped⟩ := Option.bind_eq_some_iff.mp stepped
  unfold Process.trythis at stepped
  split at stepped
  case h_1 pc =>
    obtain ⟨_, equal⟩ := Option.ite_none_right_eq_some.mp stepped
    cases equal
    exact .inl ⟨rfl, thread, _, found, rfl, by simp [pc], rfl,
      by simp [Thread.Buffered], by simp [pc, Pc.remaining]⟩
  case h_8 pc =>
    cases stepped
    cases event.allocates with
    | true =>
        exact .inl ⟨rfl, thread, _, found, rfl, by simp [pc], rfl,
          by simp [Thread.Buffered], by simp [pc, Pc.remaining]⟩
    | false => exact .inr ⟨by simp, rfl, rfl⟩
  case h_10 pc =>
    cases stepped
    exact .inl ⟨rfl, thread, _, found, rfl, by simp [pc], rfl,
      by simp [Thread.Buffered, pc], by simp [pc, Pc.remaining]⟩
  case h_11 => cases stepped
  all_goals
    next pc =>
      cases stepped
      exact .inl ⟨rfl, thread, _, found, rfl, by simp [pc], rfl,
        by simp [Thread.Buffered], by simp [pc, Pc.remaining]⟩

/-! ## What the steps of `main` do -/

/-- The number of steps `main` has left, when so many threads are to be
joined. -/
def MainPc.remaining (count : Nat) : MainPc → Nat
  | .mutexInit => 3 * count + 4
  | .create => 3 * count + 3
  | .join number => 3 * (count - number) + 2
  | .printReturned number => 3 * (count - (number + 1)) + 4
  | .free number => 3 * (count - (number + 1)) + 3
  | .destroy => 1
  | .exitFailure _ | .exitSuccess | .undefined => 0

namespace Program

/-- The process as if all threads had been created at once. -/
def view (program : Program) : Process :=
  program.process.withLater
    (program.callers.drop program.process.threads.length)

theorem length_threads_of_step {process next : Process} {event : Event}
    (stepped : Process.step process event = some next) :
    next.threads.length = process.threads.length := by
  rcases advances_of_step stepped with ⟨_, thread, changed, _, threads, _⟩
    | ⟨_, threads, _⟩ <;>
    simp [threads]

theorem view_of_thread {program : Program} {process : Process} {event : Event}
    (stepped : Process.step program.process event = some process) :
    Process.step program.view event =
      some (view { program with process := process }) := by
  simp only [view, length_threads_of_step stepped]
  exact Process.step_withLater _ stepped

/-- A thread is created where it was awaited. -/
theorem view_createThread {program : Program}
    (bound : program.process.threads.length < program.callers.length) :
    (program.createThread
      program.callers[program.process.threads.length]).view =
      program.view := by
  have split := List.drop_eq_getElem_cons bound
  simp only [view, createThread, Process.withLater, split, List.length_append,
    List.length_singleton, List.map_cons, List.append_assoc,
    List.singleton_append]

/-- A step of `main` that leaves the threads alone. -/
structure Proceeds (program : Program) (succeeds : Bool)
    (next : Program) : Prop where
  process : next.process = program.process
  callers : next.callers = program.callers
  fails : ∀ message, next.main = .exitFailure message → succeeds = false
  closer : ∀ count, program.process.threads.length ≤ count →
    next.main.remaining count < program.main.remaining count

theorem proceeds_printReturned {program : Program} {number : Nat}
    {succeeds : Bool}
    (pc : program.main = .printReturned number) :
    program.Proceeds succeeds (program.printReturned number) := by
  unfold printReturned
  split
  · exact ⟨rfl, rfl, by simp, by simp [pc, MainPc.remaining]⟩
  · split
    · split <;> exact ⟨rfl, rfl, by simp, by simp [pc, MainPc.remaining]⟩
    · exact ⟨rfl, rfl, by simp, by simp [pc, MainPc.remaining]⟩

theorem proceeds_freeReturned {program : Program} {number : Nat}
    {succeeds : Bool}
    (pc : program.main = .free number) :
    program.Proceeds succeeds (program.freeReturned number) := by
  unfold freeReturned
  split
  · exact ⟨rfl, rfl, by simp, by simp [pc, MainPc.remaining]⟩
  · split <;> exact ⟨rfl, rfl, by simp, by simp [pc, MainPc.remaining]⟩

/-- `main` creates the next thread or leaves the threads alone. -/
theorem proceeds_of_main {program next : Program} {succeeds : Bool}
    (stepped : program.mainStep succeeds = some next) :
    program.Proceeds succeeds next ∨
      ∃ caller, program.callers[program.process.threads.length]? = some caller ∧
        next = program.createThread caller := by
  unfold mainStep at stepped
  split at stepped
  case h_1 pc =>
    cases stepped
    exact .inl ⟨rfl, rfl, by cases succeeds <;> simp,
      by cases succeeds <;> simp [pc, MainPc.remaining]⟩
  case h_2 pc =>
    split at stepped
    · rename_i caller isNext
      cases stepped
      cases succeeds with
      | true => exact .inr ⟨caller, isNext, rfl⟩
      | false => exact .inl ⟨rfl, rfl, by simp, by simp [pc, MainPc.remaining]⟩
    · cases stepped
      exact .inl ⟨rfl, rfl, by simp, by simp [pc, MainPc.remaining]⟩
  case h_3 number pc =>
    split at stepped
    · rename_i thread found
      obtain ⟨_, equal⟩ := Option.ite_none_right_eq_some.mp stepped
      cases equal
      have bound := (List.getElem?_eq_some_iff.mp found).1
      refine .inl ⟨rfl, rfl, by simp, fun count enough => ?_⟩
      simp only [pc, MainPc.remaining]
      omega
    · cases stepped
      exact .inl ⟨rfl, rfl, by simp, by simp [pc, MainPc.remaining]⟩
  case h_4 number pc =>
    cases stepped
    exact .inl (proceeds_printReturned pc)
  case h_5 number pc =>
    cases stepped
    exact .inl (proceeds_freeReturned pc)
  case h_6 pc =>
    cases stepped
    by_cases free : program.process.lock = none
    · exact .inl ⟨rfl, rfl, by simp [free],
        by simp [free, pc, MainPc.remaining]⟩
    · exact .inl ⟨rfl, rfl, by simp [free],
        by simp [free, pc, MainPc.remaining]⟩
  all_goals cases stepped

/-- `main` changes nothing about the threads. -/
theorem view_of_main {program next : Program} {succeeds : Bool}
    (stepped : program.mainStep succeeds = some next) :
    next.view = program.view ∧ next.callers = program.callers := by
  rcases proceeds_of_main stepped with ⟨process, callers, _, _⟩
    | ⟨caller, isNext, rfl⟩
  · exact ⟨by rw [view, view, process, callers], callers⟩
  · obtain ⟨bound, rfl⟩ := List.getElem?_eq_some_iff.mp isNext
    exact ⟨view_createThread bound, rfl⟩

/-- A step of the program is one of `main` or of a thread, while nobody has
exited. -/
inductive Moves (program : Program) : MainEvent → Program → Prop
  | main {succeeds next} (stepped : program.mainStep succeeds = some next) :
      Moves program (.main succeeds) next
  | thread {event process} (stepped : Process.step program.process event =
        some process) :
      Moves program (.thread event) { program with process := process }

theorem moves_of_step {program next : Program} {event : MainEvent}
    (stepped : step program event = some next) :
    program.status = none ∧ Moves program event next := by
  obtain ⟨running, stepped⟩ := Option.ite_none_right_eq_some.mp stepped
  refine ⟨running, ?_⟩
  cases event with
  | main succeeds => exact .main stepped
  | thread event =>
      obtain ⟨process, can, rfl⟩ := Option.map_eq_some_iff.mp stepped
      exact .thread can

/-- The step of a thread that an event is. -/
def MainEvent.ofThread? : MainEvent → Option Event
  | .main _ => none
  | .thread event => some event

/-- A run of the program is a run of the threads. -/
theorem run_view {program final : Program} {events : List MainEvent}
    (ran : step.run program events = some final) :
    Process.step.run program.view (events.filterMap MainEvent.ofThread?) =
      some final.view := by
  refine Machine.run_component view MainEvent.ofThread? ?_ ?_ ran
  · intro program event next move stepped isThread
    obtain ⟨_, moves⟩ := moves_of_step stepped
    cases moves with
    | main can => cases isThread
    | thread can =>
        cases isThread
        exact view_of_thread can
  · intro program event next stepped notThread
    obtain ⟨_, moves⟩ := moves_of_step stepped
    cases moves with
    | main can => exact (view_of_main can).1
    | thread can => cases notThread

end Program
end ThreadMutex
end LinuxCPractice
