import LinuxCPractice.Machine

/-!
# Threads under one mutex

`trythis` of `thread_mutex.c`, run by any number of threads on one mutex and one
counter. A thread makes the load of `shared_counter` and the store to it in
separate steps, so that another thread could come in between.
-/

namespace LinuxCPractice
namespace ThreadMutex

/-! ## Data -/

/-- Where a thread stands in `trythis`: the next thing it does. The value read
from `shared_counter` is in a register until it is stored or printed. -/
inductive Pc
  | lock
  | printPassed
  | load
  | store (loaded : Int32)
  | sleep
  | read
  | printCounter (loaded : Int32)
  | malloc
  | snprintf
  | unlock
  | returned
  deriving DecidableEq

/-- What `buffer` points to. -/
inductive Buffer
  | null
  | allocated
  | written (text : String)
  deriving DecidableEq

/-- A thread with the integer it was passed, if any, and what `gettid` is in
it. -/
structure Thread where
  arg : Option Int32
  tid : Int32
  pc : Pc
  buffer : Buffer
  deriving DecidableEq

/-- A line of output with the number of the thread that printed it. -/
inductive Line
  | passed (thread : Nat) (data : Int32)
  | counter (thread : Nat) (value : Int32)
  deriving DecidableEq

/-- The values of the `counter` lines. -/
def counterValues (output : List Line) : List Int32 :=
  output.filterMap fun line =>
    match line with
    | .passed _ _ => none
    | .counter _ value => some value

/-- What the format strings make of it. -/
def Line.text : Line → String
  | .passed _ data => s!"passed data is {data}\n"
  | .counter _ value => s!"counter: {value} \n"

/-- The holder of the mutex, the counter and the threads. When `malloc` fails,
the process exits with a message. -/
structure Process where
  lock : Option Nat
  sharedCounter : Int32
  threads : List Thread
  output : List Line
  failure : Option String
  deriving DecidableEq

/-- The next step of a thread. Only `malloc` looks at whether it succeeds. -/
structure Event where
  number : Nat
  allocates : Bool
  deriving DecidableEq

/-! ## Steps -/

/-- A thread that is about to call `trythis`. -/
def Thread.start (arg : Option Int32) (tid : Int32) : Thread where
  arg := arg
  tid := tid
  pc := .lock
  buffer := .null

namespace Process

/-- Threads with these arguments and thread identifiers, behind
`pthread_mutex_init`. -/
def start (callers : List (Option Int32 × Int32)) : Process where
  lock := none
  sharedCounter := 0
  threads := callers.map fun caller => Thread.start caller.1 caller.2
  output := []
  failure := none

/-- A thread after a step of its own. -/
def setThread (process : Process) (number : Nat) (thread : Thread) : Process :=
  { process with threads := process.threads.set number thread }

/-- Lines printed behind the output so far. -/
def print (process : Process) (lines : List Line) : Process :=
  { process with output := process.output ++ lines }

@[simp] theorem setThread_lock (process : Process) (number : Nat)
    (thread : Thread) :
    (process.setThread number thread).lock = process.lock := rfl

@[simp] theorem setThread_sharedCounter (process : Process) (number : Nat)
    (thread : Thread) :
    (process.setThread number thread).sharedCounter =
      process.sharedCounter := rfl

@[simp] theorem setThread_threads (process : Process) (number : Nat)
    (thread : Thread) :
    (process.setThread number thread).threads =
      process.threads.set number thread := rfl

@[simp] theorem setThread_output (process : Process) (number : Nat)
    (thread : Thread) :
    (process.setThread number thread).output = process.output := rfl

@[simp] theorem print_lock (process : Process) (lines : List Line) :
    (process.print lines).lock = process.lock := rfl

@[simp] theorem print_sharedCounter (process : Process) (lines : List Line) :
    (process.print lines).sharedCounter = process.sharedCounter := rfl

@[simp] theorem print_threads (process : Process) (lines : List Line) :
    (process.print lines).threads = process.threads := rfl

@[simp] theorem print_output (process : Process) (lines : List Line) :
    (process.print lines).output = process.output ++ lines := rfl

/-- The line for a pointer other than `NULL`. -/
def passedLines (number : Nat) (arg : Option Int32) : List Line :=
  match arg with
  | some data => [.passed number data]
  | none => []

/-- One step of `trythis`. Sixty-four bytes are enough for any `retval`. -/
def trythis (process : Process) (number : Nat) (thread : Thread)
    (allocates : Bool) :
    Option Process :=
  match thread.pc with
  | .lock =>
      if process.lock = none then
        some { process.setThread number { thread with pc := .printPassed } with
          lock := some number }
      else none
  | .printPassed => some
      ((process.setThread number { thread with pc := .load }).print
        (passedLines number thread.arg))
  | .load => some
      (process.setThread number
        { thread with pc := .store process.sharedCounter })
  | .store loaded => some
      { process.setThread number { thread with pc := .sleep } with
          sharedCounter := loaded + 1 }
  | .sleep => some (process.setThread number { thread with pc := .read })
  | .read => some
      (process.setThread number
        { thread with pc := .printCounter process.sharedCounter })
  | .printCounter loaded => some
      ((process.setThread number { thread with pc := .malloc }).print
        [.counter number loaded])
  | .malloc => some
      (if allocates then
        process.setThread number { thread with pc := .snprintf, buffer := .allocated }
        else { process with failure := some "malloc() error" })
  | .snprintf => some (process.setThread number
      { thread with pc := .unlock, buffer := .written s!"retval {thread.tid}" })
  | .unlock => some
      { process.setThread number { thread with pc := .returned } with
          lock := none }
  | .returned => none

/-- One step of the process. After `exit` no thread goes on. -/
def step : Machine Process Event := fun process event =>
  if process.failure = none then
    process.threads[event.number]?.bind fun thread =>
      process.trythis event.number thread event.allocates
  else none

/-- All threads have returned from `trythis`. -/
def AllReturned (process : Process) : Prop :=
  ∀ thread ∈ process.threads, thread.pc = .returned

end Process
end ThreadMutex
end LinuxCPractice
