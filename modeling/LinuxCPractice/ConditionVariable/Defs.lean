import LinuxCPractice.Machine
import LinuxCPractice.Slot

/-!
# Receivers and senders

Any number of threads that run `receiver` and `sender` of
`thread_conditionvariable.c`, as a machine whose events are the steps of the
threads in any order. The wait of a sender releases the lock; it ends by a
signal, at the deadline or spuriously, and the sender then has to acquire the
lock again.

The log is not a variable of the program. It records which receiver has set the
flag, what each sender has copied when it leaves its section and which branch
it has taken.
-/

namespace LinuxCPractice
namespace ConditionVariable

/-! ## Data -/

/-- `RESPONSE_TIMEOUT_MS` -/
def responseTimeoutMs : Nat := 5000

/-- Where a thread that runs `receiver` stands. -/
inductive ReceiverPc
  | lock
  | set
  | signal
  | unlock
  | done
  deriving DecidableEq

/-- Where a thread that runs `sender` stands. It is `waiting` inside
`pthread_cond_timedwait` and at `relock` when the wait has ended. -/
inductive SenderPc
  | clock
  | lock
  | test
  | wait
  | waiting
  | relock
  | copy
  | clear
  | unlock
  | branch
  | done
  deriving DecidableEq

/-- The variables of `sender`. Times are in milliseconds. -/
structure Sender where
  pc : SenderPc
  ts : Nat
  isPacketReceivedCopy : Bool
  deriving DecidableEq

/-- A thread by its role and its number. -/
inductive Thread
  | receiver (number : Nat)
  | sender (number : Nat)
  deriving DecidableEq

/-- What a thread reports. -/
inductive Entry
  | received (receiver : Nat)
  | finished (sender : Nat) (copy : Bool)
  | success (sender : Nat)
  | retry (sender : Nat) (deadline time : Nat)
  deriving DecidableEq

/-- The time, the shared variables, the senders inside their wait and the
threads by number. -/
structure Process where
  now : Nat
  lock : Option Thread
  isPacketReceived : Bool
  waiting : List Nat
  receivers : Nat → ReceiverPc
  senders : Nat → Sender
  log : List Entry

/-- Time that passes, the next step of a thread, or the end of a wait for
another reason than a signal. A step of a receiver that calls
`pthread_cond_signal` carries the senders that are woken by it. -/
inductive Event
  | tick (duration : Nat)
  | receiver (number : Nat) (woken : List Nat)
  | sender (number : Nat)
  | timeout (number : Nat)
  | spurious (number : Nat)
  deriving DecidableEq

namespace Entry

/-- The flag as a slot that receivers fill and senders empty. -/
def use : Entry → Option (Slot.Use Nat Nat)
  | .received receiver => some (.put receiver)
  | .finished sender copy => some (.take sender copy)
  | _ => none

/-- The sender that reports a success. -/
def success? : Entry → Option Nat
  | .success sender => some sender
  | _ => none

end Entry

/-- What receivers and senders have done to the flag. -/
def uses (log : List Entry) : List (Slot.Use Nat Nat) := log.filterMap Entry.use

/-- Receivers that have set the flag, in order. -/
def sections (log : List Entry) : List Nat := Slot.givers (uses log)

/-- Senders that have taken the success branch, in order. -/
def successes (log : List Entry) : List Nat := log.filterMap Entry.success?

/-! ## Steps -/

namespace Process

/-- No thread has made a step. -/
def start : Process where
  now := 0
  lock := none
  isPacketReceived := false
  waiting := []
  receivers := fun _ => .lock
  senders := fun _ => ⟨.clock, 0, false⟩
  log := []

/-- A receiver that goes on to another place. -/
def setReceiver (process : Process) (number : Nat)
    (pc : ReceiverPc) : Process :=
  { process with receivers := Function.update process.receivers number pc }

/-- A sender that goes on, with what it remembers. -/
def setSender (process : Process) (number : Nat) (sender : Sender) : Process :=
  { process with senders := Function.update process.senders number sender }

/-- A report behind those made so far. -/
def record (process : Process) (entry : Entry) : Process :=
  { process with log := process.log ++ [entry] }

/-- `pthread_mutex_lock` returns when the lock is free. -/
def acquire (process : Process) (thread : Thread)
    (proceed : Process → Process) :
    Option Process :=
  if process.lock = none then
    some (proceed { process with lock := some thread }) else none

/-- The senders whose wait ends have to acquire the lock. -/
def wake (process : Process) (woken : List Nat) : Process :=
  { process with
    waiting := process.waiting.filter (· ∉ woken)
    senders := fun number =>
      if number ∈ woken then { process.senders number with pc := .relock }
      else process.senders number }

/-- `pthread_cond_signal` ends at least one wait if there is one. -/
def signal (process : Process) (woken : List Nat) : Option Process :=
  if (∀ number ∈ woken, (process.senders number).pc = .waiting) ∧
      (process.waiting ≠ [] → woken ≠ []) then
    some (process.wake woken)
  else none

/-- The next step of a receiver. `woken` are the senders that a broadcast
wakes. -/
def receiver (process : Process) (number : Nat)
    (woken : List Nat) : Option Process :=
  match process.receivers number with
  | .lock => process.acquire (.receiver number) fun process =>
      process.setReceiver number .set
  | .set => some
      { (process.setReceiver number .signal).record (.received number) with
        isPacketReceived := true }
  | .signal =>
      (process.signal woken).map fun process =>
        process.setReceiver number .unlock
  | .unlock => some { process.setReceiver number .done with lock := none }
  | .done => none

/-- The next step of a sender. -/
def sender (process : Process) (number : Nat) : Option Process :=
  let sender := process.senders number
  match sender.pc with
  | .clock => some (process.setSender number
      { sender with pc := .lock, ts := process.now + responseTimeoutMs })
  | .lock => process.acquire (.sender number) fun process =>
      process.setSender number { sender with pc := .test }
  | .test => some (process.setSender number
      { sender with pc := if process.isPacketReceived then .copy else .wait })
  | .wait => some { process.setSender number { sender with pc := .waiting } with
      lock := none
      waiting := process.waiting ++ [number] }
  | .waiting => none
  | .relock => process.acquire (.sender number) fun process =>
      process.setSender number { sender with pc := .copy }
  | .copy => some (process.setSender number
      { sender with pc := .clear, isPacketReceivedCopy := process.isPacketReceived })
  | .clear => some { process.setSender number { sender with pc := .unlock } with
      isPacketReceived := false }
  | .unlock =>
      some { (process.setSender number { sender with pc := .branch }).record
        (.finished number sender.isPacketReceivedCopy) with
        lock := none }
  | .branch =>
      some ((process.setSender number { sender with pc := .done }).record
        (if sender.isPacketReceivedCopy then .success number
          else .retry number sender.ts process.now))
  | .done => none

/-- A wait ends at the deadline or after it. -/
def timeout (process : Process) (number : Nat) : Option Process :=
  if (process.senders number).pc = .waiting ∧
    (process.senders number).ts ≤ process.now then
    some (process.wake [number])
  else none

/-- A wait may end for no reason. -/
def spurious (process : Process) (number : Nat) : Option Process :=
  if (process.senders number).pc = .waiting then some (process.wake [number])
  else none

/-- One step of the process. -/
def step : Machine Process Event := fun process event =>
  match event with
  | .tick duration => some { process with now := process.now + duration }
  | .receiver number woken => process.receiver number woken
  | .sender number => process.sender number
  | .timeout number => process.timeout number
  | .spurious number => process.spurious number

end Process
end ConditionVariable
end LinuxCPractice
