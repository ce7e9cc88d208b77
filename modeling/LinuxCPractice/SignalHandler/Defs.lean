import LinuxCPractice.Machine
import LinuxCPractice.Signals
import LinuxCPractice.StackTrace.Defs

/-!
# A program that catches its own end

`main`, `set_signal_handler` and `posix_signal_handler` of `sigaction.c`. A
signal may be generated at any time. The program, which has one thread, does not
go on while a pending signal can be delivered, and `main` does not go on while a
handler has been entered.

The handlers run on the stack of `sigaltstack`. They never return: each ends
with `exit`.
-/

namespace LinuxCPractice
namespace SignalHandler

/-! ## Data -/

/-- The signals `posix_signal_handler` knows, and the others, which end a
process by default. -/
inductive Signal
  | sigchld
  | sigtrap
  | sigbus
  | sigsegv
  | sigint
  | sigfpe
  | sigill
  | sigterm
  | sigabrt
  | sigusr1
  | other (number : Nat)
  deriving DecidableEq

/-- The signals `set_signal_handler` installs its handler for, in this order. -/
def registered : List Signal :=
  [.sigsegv, .sigfpe, .sigint, .sigill, .sigterm, .sigabrt, .sigusr1]

/-- By default nothing happens on `SIGCHLD`. -/
def Signal.terminates : Signal → Bool
  | .sigchld => false
  | _ => true

/-- The `si_code` of a signal sent by `kill`. -/
def siUser : Int := 0

/-- The `si_code` of a signal sent by `raise`. -/
def siTkill : Int := -6

/-- The calls of `main` and `set_signal_handler`, in order. `sigaction` is
called for each of the signals left. -/
inductive MainPc
  | malloc
  | sigaltstack
  | sigaction (left : List Signal)
  | sigprocmask
  | kill
  | sleep
  | sigpending
  | assert
  | abort
  | raised
  deriving DecidableEq

/-- What `posix_signal_handler` does next. -/
inductive HandlerPc
  | report
  | trace
  | exit
  deriving DecidableEq

/-- How the process ends. A format without its argument is undefined. -/
inductive Ending
  | exited (status : Int32)
  | killed (signal : Signal)
  | undefined
  deriving DecidableEq

/-- Output: the message of `perror` or of `assert`, a line of `main`, what the
handler says about a signal, or part of a stack trace. -/
inductive Output
  | perror (call : String)
  | assertion (expression : String)
  | line (text : String)
  | caught (text : String)
  | trace (action : StackTrace.Action)
  deriving DecidableEq

/-- `main`, the signals and what was printed. `program` is
`icky_global_program_name`. -/
structure Process where
  program : CString.Text
  main : MainPc
  signals : Signals Signal HandlerPc
  output : List Output
  ending : Option Ending

/-- A signal that is generated or delivered, the next step of `main` or the next
step of the innermost handler. A call of `main` may fail. The lines are those of
`backtrace_symbols`, and `result command` is what `system` returns. -/
inductive Event
  | generate (info : Siginfo Signal)
  | deliver (signal : Signal)
  | main (succeeds : Bool)
  | handler (messages : List StackTrace.Line) (result : List UInt8 → Int32)

/-! ## What the handler says -/

/-- The cases of a `switch` on `si_code` and its default. -/
structure Cases where
  cases : List (Int × String)
  default : Option String

/-- The text of the case that a code selects. -/
def Cases.text (cases : Cases) (code : Int) : Option String :=
  match cases.cases.lookup code with
  | some text => some text
  | none => cases.default

/-- A text that does not depend on `si_code`. -/
def always (text : String) : Cases := ⟨[], some text⟩

/-- The `switch` on the signal. The values of `si_code` are those of the macros
`CLD_EXITED` to `CLD_CONTINUED`, `BUS_ADRALN` to `BUS_MCEERR_AO`, `SEGV_MAPERR`
to `SEGV_PKUERR`, `FPE_INTDIV` to `FPE_FLTSUB` and `ILL_ILLOPC` to
`ILL_BADSTK`. -/
def posixSignalHandler : Signal → Cases
  | .sigchld => ⟨[
      (1, "Caught SIGCHLD: (Child has exited)\n"),
      (2, "Caught SIGCHLD: (Child was killed)\n"),
      (3, "Caught SIGCHLD: (Child terminated abnormally)\n"),
      (4, "Caught SIGCHLD: (Traced child has trapped)\n"),
      (5, "Caught SIGCHLD: (Child has stopped)\n"),
      (6, "Caught SIGCHLD: (Stopped child has continued)\n")],
      some "Caught SIGCHLD: default\n"⟩
  | .sigtrap => always "Caught SIGTRAP\n"
  | .sigbus => ⟨[
      (1, "Caught SIGBUS: (Invalid address alignment)\n"),
      (2, "Caught SIGBUS: (Nonexistent physical address)\n"),
      (3, "Caught SIGBUS: (Object-specific hardware error)\n"),
      (4, "Caught SIGBUS: (Hardware memory error consumed on a machine check; " ++
        "action required)\n"),
      (5, "Caught SIGBUS: (Hardware memory error detected in process but not consumed; " ++
        "action optional)\n")],
      some "Caught SIGBUS: default\n"⟩
  | .sigsegv => ⟨[
      (1, "Caught SIGSEGV: (Address not mapped to object)\n"),
      (2, "Caught SIGSEGV: (Invalid permissions for mapped object)\n"),
      (3, "Caught SIGSEGV: (Failed address bound checks)\n"),
      (4, "Caught SIGSEGV: (Access was denied by memory protection keys)\n")],
      some "Caught SIGSEGV: Segmentation Fault\n"⟩
  | .sigint =>
      always "Caught SIGINT: Interactive attention signal, (usually ctrl+c)\n"
  | .sigfpe => ⟨[
      (1, "Caught SIGFPE: (integer divide by zero)\n"),
      (2, "Caught SIGFPE: (integer overflow)\n"),
      (3, "Caught SIGFPE: (floating-point divide by zero)\n"),
      (4, "Caught SIGFPE: (floating-point overflow)\n"),
      (5, "Caught SIGFPE: (floating-point underflow)\n"),
      (6, "Caught SIGFPE: (floating-point inexact result)\n"),
      (7, "Caught SIGFPE: (floating-point invalid operation)\n"),
      (8, "Caught SIGFPE: (subscript out of range)\n")],
      some "Caught SIGFPE: Arithmetic Exception\n"⟩
  | .sigill => ⟨[
      (1, "Caught SIGILL: (illegal opcode)\n"),
      (2, "Caught SIGILL: (illegal operand)\n"),
      (3, "Caught SIGILL: (illegal addressing mode)\n"),
      (4, "Caught SIGILL: (illegal trap)\n"),
      (5, "Caught SIGILL: (privileged opcode)\n"),
      (6, "Caught SIGILL: (privileged register)\n"),
      (7, "Caught SIGILL: (coprocessor error)\n"),
      (8, "Caught SIGILL: (internal stack error)\n")],
      some "Caught SIGILL: Illegal Instruction\n"⟩
  | .sigterm =>
      always "Caught SIGTERM: a termination request was sent to the program\n"
  | .sigabrt =>
      always "Caught SIGABRT: usually caused by an abort() or assert()\n"
  | .sigusr1 => always "Caught SIGUSR1\n"
  | .other _ => ⟨[], none⟩

/-- What is printed about a signal. -/
def caught (info : Siginfo Signal) : List Output :=
  (((posixSignalHandler info.signo).text info.code).map Output.caught).toList

/-! ## Steps -/

namespace Process

/-- `main` behind the assignment of `argv[0]`, with the mask the process
inherited. -/
def start (program : CString.Text) (inherited : List Signal) : Process where
  program := program
  main := .malloc
  signals := ⟨[], inherited, [], []⟩
  output := []
  ending := none

/-- Output behind what has been printed so far. -/
def print (process : Process) (output : List Output) : Process :=
  { process with output := process.output ++ output }

/-- `perror` and `exit(EXIT_FAILURE)` when a call of `set_signal_handler`
fails. -/
def checked (process : Process) (succeeds : Bool) (call : String)
    (proceed : Process) : Process :=
  if succeeds then proceed
  else { process.print [.perror call] with ending := some (.exited 1) }

/-- One step of `main`. `abort` unblocks `SIGABRT` and raises it, and does so
again with the default action if the handler returns. -/
def mainStep (process : Process) (succeeds : Bool) : Process :=
  match process.main with
  | .malloc =>
      process.checked succeeds "malloc" { process with main := .sigaltstack }
  | .sigaltstack =>
      process.checked succeeds "sigaltstack"
        { process with main := .sigaction registered }
  | .sigaction [] => { process with main := .sigprocmask }
  | .sigaction (signal :: left) =>
      process.checked succeeds "sigaction"
        { process with signals := process.signals.handle signal, main := .sigaction left }
  | .sigprocmask =>
      if succeeds then
        { process.print [.line "Blocking SISGUSR1...\n"] with
          signals := process.signals.block .sigusr1, main := .kill }
      else { process with main := .kill }
  | .kill =>
      { process with signals := process.signals.generate ⟨.sigusr1, siUser⟩, main := .sleep }
  | .sleep => { process with main := .sigpending }
  | .sigpending =>
      if .sigusr1 ∈ process.signals.pendingSignals ∧
        .sigusr1 ∈ process.signals.mask then
        { process.print [.line "The signal is blocked 302\n"] with
            main := .assert }
      else { process with main := .assert }
  | .assert => { process.print [.assertion "false"] with main := .abort }
  | .abort =>
      { process with
        signals :=
          (process.signals.unblock .sigabrt).generate ⟨.sigabrt, siTkill⟩
        main := .raised }
  | .raised => { process with ending := some (.killed .sigabrt) }

/-- One step of `posix_signal_handler`. -/
def handlerStep (process : Process) (activation : Activation Signal HandlerPc)
    (messages : List StackTrace.Line) (result : List UInt8 → Int32) : Process :=
  match activation.pc with
  | .report =>
      { process.print (caught activation.info) with
          signals := process.signals.goOn .trace }
  | .trace =>
      match StackTrace.posixPrintStackTrace process.program result messages with
      | some trace =>
          { process.print (trace.actions.map Output.trace) with
            signals := process.signals.goOn .exit }
      | none => { process with ending := some .undefined }
  | .exit => { process with ending := some (.exited 1) }

/-- A signal without a handler has its default action. -/
def deliver (process : Process) (info : Siginfo Signal)
    (signals : Signals Signal HandlerPc) :
    Process :=
  if info.signo ∈ signals.handled then
    { process with signals := signals.enter info .report }
  else if info.signo.terminates then
    { process with signals := signals, ending := some (.killed info.signo) }
  else { process with signals := signals }

/-- One step of the process. -/
def step : Machine Process Event := fun process event =>
  if process.ending ≠ none then none
  else
    match event with
    | .generate info =>
        some { process with signals := process.signals.generate info }
    | .deliver signal =>
        (process.signals.accept signal).map fun accepted =>
          process.deliver accepted.1 accepted.2
    | .main succeeds =>
        if process.signals.Settled ∧ process.signals.active = [] then
          some (process.mainStep succeeds)
        else none
    | .handler messages result =>
        if process.signals.Settled then
          process.signals.active.head?.map fun activation =>
            process.handlerStep activation messages result
        else none

end Process
end SignalHandler
end LinuxCPractice
