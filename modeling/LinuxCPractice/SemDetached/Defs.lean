import LinuxCPractice.Machine

/-!
# Detached threads behind a semaphore

`main` of `thread_sem_detached.c` and the threads it creates, for any initial
value of the semaphore and any number of threads. Time passes by itself; a
`sleep` ends no earlier than its duration after it was called, and nothing is
known about how much later.

`sem_destroy` changes nothing about the semaphore. The machine only records that
it was called.
-/

namespace LinuxCPractice
namespace SemDetached

/-! ## Data -/

/-- Where `main` stands. Between two threads it sleeps for two seconds, and at
the end for thirty. -/
inductive MainPc
  | attrInit
  | attrSetdetachstate
  | create
  | sleep (wake : Nat)
  | destroy
  | sleepLast (wake : Nat)
  | exited
  deriving DecidableEq

/-- Where a thread stands: before `sem_wait`, blocked in it, in its critical
section of four seconds or behind `sem_post`. -/
inductive ThreadPc
  | start
  | blocked
  | inside (wake : Nat)
  | done
  deriving DecidableEq

/-- The time in seconds, `main` with the number of threads it has yet to create,
the threads it has created and the semaphore. -/
structure Process where
  now : Nat
  main : MainPc
  remaining : Nat
  threads : List ThreadPc
  sem : Nat
  destroyed : Bool
  deriving DecidableEq

/-- Time that passes, the next step of `main` or the next step of a thread. A
call of `main` may fail; the result of `pthread_create` is not looked at. -/
inductive Event
  | tick (duration : Nat)
  | main (succeeds : Bool)
  | thread (number : Nat)
  deriving DecidableEq

/-! ## Steps -/

namespace Process

/-- `main` behind `sem_init`, with `count` threads to create. -/
def start (value count : Nat) : Process where
  now := 0
  main := .attrInit
  remaining := count
  threads := []
  sem := value
  destroyed := false

/-- What `main` does when it has created a thread, or set out to create the
first. -/
def proceed (process : Process) (wait : MainPc) : Process :=
  { process with main := if process.remaining = 0 then .destroy else wait }

/-- `pthread_create`, the failure of which goes unnoticed. -/
def create (process : Process) (succeeds : Bool) : Process :=
  { process with
    threads := if succeeds then process.threads ++ [.start] else process.threads
    remaining := process.remaining - 1 }

/-- One step of `main`. -/
def mainStep (process : Process) (succeeds : Bool) : Option Process :=
  match process.main with
  | .attrInit => some
      { process with main := if succeeds then .attrSetdetachstate else .exited }
  | .attrSetdetachstate => some
      (if succeeds then process.proceed .create
        else { process with main := .exited })
  | .create =>
      some ((process.create succeeds).proceed (.sleep (process.now + 2)))
  | .sleep wake =>
      if wake ≤ process.now then some { process with main := .create } else none
  | .destroy => some
      { process with destroyed := true, main := .sleepLast (process.now + 30) }
  | .sleepLast wake =>
      if wake ≤ process.now then some { process with main := .exited } else none
  | .exited => none

/-- A thread that goes on to another place. -/
def setThread (process : Process) (number : Nat) (pc : ThreadPc) : Process :=
  { process with threads := process.threads.set number pc }

/-- `sem_wait` takes one from the semaphore, or blocks while there is none. -/
def wait (process : Process) (number : Nat) : Process :=
  if process.sem = 0 then process.setThread number .blocked
  else { process.setThread number (.inside (process.now + 4)) with
      sem := process.sem - 1 }

/-- The threads end with the process. -/
def threadStep (process : Process) (number : Nat) : Option Process :=
  if process.main = .exited then none
  else
    match process.threads[number]? with
    | some .start => some (process.wait number)
    | some .blocked =>
        if process.sem = 0 then none else some (process.wait number)
    | some (.inside wake) =>
        if wake ≤ process.now then
          some { process.setThread number .done with sem := process.sem + 1 }
        else none
    | some .done => none
    | none => none

/-- One step of the process. -/
def step : Machine Process Event := fun process event =>
  match event with
  | .tick duration => some { process with now := process.now + duration }
  | .main succeeds => process.mainStep succeeds
  | .thread number => process.threadStep number

end Process
end SemDetached
end LinuxCPractice
