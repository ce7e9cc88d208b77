import LinuxCPractice.DescriptorTable
import LinuxCPractice.Machine
import LinuxCPractice.WaitStatus
import Mathlib.Logic.Function.Basic

/-!
# The application tracker

`fork-pipe-exec.c` as a machine of two processes. The tracker starts a program
with its standard input and output on two pipes, copies what the program writes
and waits for its end in a handler of `SIGCHLD`. The program it starts is
arbitrary: it decides on its next call from the results of the earlier ones.

The calls of each process, the delivery of the signal and what the child suffers
from outside are events, so that a run is an interleaving of all of them. The
log of the tracker records the calls and lines by which its work can be judged.
-/

namespace LinuxCPractice
namespace ForkPipe

/-! ## Data -/

/-- The two pipes, under the names of their arrays. -/
inductive Pipe
  | writepipe
  | readpipe
  deriving DecidableEq

/-- What a descriptor refers to. -/
inductive File
  | readEnd (pipe : Pipe)
  | writeEnd (pipe : Pipe)
  | other
  deriving DecidableEq

/-- The descriptors of a process. -/
abbrev Table := DescriptorTable File

/-- The messages of `print_error_and_exit`. -/
inductive Failure
  | arguments
  | pipe
  | calloc
  | fork
  | execvp
  | waitpid (ret : Int)
  deriving DecidableEq

/-- The line of a message on standard error. The one about `execvp` ends with
what `strerror` returns for `errno`. -/
def Failure.text (strerror : String) : Failure → String
  | .arguments =>
      "APP_TRACKER ==> at least one arg necessary to start the given application\n"
  | .pipe => "APP_TRACKER ==> pipe() failed\n"
  | .calloc => "APP_TRACKER ==> calloc() failed\n"
  | .fork => "APP_TRACKER ==> fork() failed\n"
  | .execvp =>
      "APP_TRACKER ==> execvp() failed errno: " ++ strerror ++ "\n"
  | .waitpid ret =>
      "APP_TRACKER ==> waitpid() failed with " ++ toString ret ++ "\n"

/-- The blocks of the copied argument vector. -/
inductive Block
  | vector
  | word (index : Nat)
  deriving DecidableEq

/-- The line `collect_zombie` prints about the child's status. -/
inductive Report
  | exited (status : Nat)
  | killed (signal : Nat)
  | stopped (signal : Nat)
  | continued
  deriving DecidableEq

/-- The line as it stands on standard error. -/
def Report.text : Report → String
  | .exited status =>
      "APP_TRACKER ==> child is exited, status = " ++ toString status ++ "\n"
  | .killed signal =>
      "APP_TRACKER ==>  shiled is killed by signal " ++ toString signal ++ "\n"
  | .stopped signal =>
      "APP_TRACKER ==> child is stopped by signal " ++ toString signal ++ "\n"
  | .continued => "APP_TRACKER ==> child is continued\n"

/-- What the tracker does that its log records. -/
inductive Entry
  | close (fd : Int)
  | putchar (byte : UInt8)
  | error (failure : Failure)
  | report (line : Report)
  | free (block : Block)
  deriving DecidableEq

/-- `si_code` of the signal: what has happened to the child. -/
inductive Cause
  | exited
  | killed
  | dumped
  | stopped
  | continued
  deriving DecidableEq

/-- `si_code` for the end of a child. -/
def Cause.ofTermination : Termination → Cause
  | .exited _ => .exited
  | .killed _ false => .killed
  | .killed _ true => .dumped

/-- Where `main` of the tracker stands. -/
inductive Pc
  | checkArguments
  | sigaction
  | pipe (which : Pipe)
  | callocVector
  | callocWord
  | fork
  | storeChildpid (result : Int)
  | closeChildRead
  | closeChildWrite
  | fgetc
  | putchar
  | fclose
  | sleep
  | closeParentWrite
  | closeParentRead
  deriving DecidableEq

/-- The end of the tracker's process. -/
inductive Ending
  | exited (status : Int)
  | crashed
  deriving DecidableEq

/-- The tracker. While the handler runs, `main` stands where it was
interrupted. -/
structure Tracker where
  pc : Pc
  handling : Option Cause
  ended : Option Ending
  args : List (List UInt8)
  argsDup : Option (List (List UInt8))
  writepipe : Int × Int
  readpipe : Int × Int
  childpid : Int
  descriptors : Table
  stream : List UInt8
  c : UInt8
  log : List Entry

namespace Tracker

/-- `PARENT_READ` -/
def parentRead (tracker : Tracker) : Int := tracker.readpipe.1
/-- `CHILD_WRITE` -/
def childWrite (tracker : Tracker) : Int := tracker.readpipe.2
/-- `CHILD_READ` -/
def childRead (tracker : Tracker) : Int := tracker.writepipe.1
/-- `PARENT_WRITE` -/
def parentWrite (tracker : Tracker) : Int := tracker.writepipe.2

end Tracker

/-- The next call of the started program. -/
inductive ChildAct
  | read
  | write (bytes : List UInt8)
  | closeStdin
  | closeStdout
  | exit (code : UInt8)
  deriving DecidableEq

/-- The result of a call of the started program. -/
inductive Outcome
  | data (bytes : List UInt8)
  | endOfFile
  | wrote
  | closed
  | failed
  deriving DecidableEq

/-- A program chooses its next call from the results of the earlier ones. -/
abbrev Program := List Outcome → ChildAct

/-- Where the child stands: at its own calls up to `execvp`, in the program it
has become, or at its end. -/
inductive ChildPc
  | closeParentWrite
  | closeParentRead
  | dupChildRead
  | closeChildRead
  | dupChildWrite
  | closeChildWrite
  | execvp
  | running
  | reading
  | writing (rest : List UInt8)
  | ended (termination : Termination)
  deriving DecidableEq

/-- The child. `written` is what it has put into `readpipe`. -/
structure Child where
  pid : Int
  pc : ChildPc
  stopped : Bool
  descriptors : Table
  outcomes : List Outcome
  written : List UInt8
  reaped : Bool

/-- Both processes, the content of the pipes and the pending `SIGCHLD`. -/
structure World where
  tracker : Tracker
  child : Option Child
  content : Pipe → List UInt8
  pending : Option Cause

/-- What a run consists of: the calls of the tracker and of its child with their
results, the delivery of the signal and what befalls the child. -/
inductive Event
  | main
  | pipe (result : Option (Int × Int))
  | calloc (succeeds : Bool)
  | fork (result : Option Int)
  | deliver
  | waitpid (garbage : Nat)
  | child
  | execvp (succeeds : Bool)
  | transfer (count : Nat)
  | brokenPipe (ignored : Bool)
  | childRead (outcome : Outcome)
  | stop
  | continue
  | kill (signal : Signal) (core : Bool)
  deriving DecidableEq

/-- The call of `waitpid` in the handler. -/
def Event.isWaitpid : Event → Bool
  | .waitpid _ => true
  | _ => false

/-! ## The tracker alone -/

namespace Tracker

/-- The process that runs `main`, with the descriptors it has inherited. -/
def start (args : List (List UInt8)) (inherited : List Int) : Tracker where
  pc := .checkArguments
  handling := none
  ended := none
  args := args
  argsDup := none
  writepipe := (-1, -1)
  readpipe := (-1, -1)
  childpid := 0
  descriptors := .ofList .other inherited
  stream := []
  c := 0
  log := []

/-- An entry behind the log. -/
def record (tracker : Tracker) (entry : Entry) : Tracker :=
  { tracker with log := tracker.log ++ [entry] }

/-- `main` goes on to another place. -/
def goto (tracker : Tracker) (pc : Pc) : Tracker := { tracker with pc := pc }

/-- The end of the process closes its descriptors. -/
def finish (tracker : Tracker) (ending : Ending) : Tracker :=
  { tracker with ended := some ending, descriptors := ∅ }

/-- `dealloc_all` frees what has been allocated. It goes through `argc` entries
of the vector, also when there is no vector yet. -/
def deallocAll (tracker : Tracker) : Option (List Entry) :=
  match tracker.argsDup with
  | none => if tracker.args = [] then some [] else none
  | some words =>
      some ((List.range words.length).map (fun index => .free (.word index)) ++
        [.free .vector])

/-- `dealloc_all` and `exit`. -/
def leave (tracker : Tracker) (status : Int) : Tracker :=
  match tracker.deallocAll with
  | none => tracker.finish .crashed
  | some freed =>
      { tracker with log := tracker.log ++ freed }.finish (.exited status)

/-- `print_error_and_exit` prints a message and leaves with status 2. -/
def printErrorAndExit (tracker : Tracker) (failure : Failure) : Tracker :=
  (tracker.record (.error failure)).leave 2

/-- `close` frees the descriptor, whatever it refers to. -/
def close (tracker : Tracker) (fd : Int) (next : Pc) : Tracker :=
  { tracker.record (.close fd) with descriptors := tracker.descriptors.erase fd, pc := next }

/-- `pipe` opens the two lowest free descriptors. -/
def pipe (tracker : Tracker) (which : Pipe)
    (result : Option (Int × Int)) : Option Tracker :=
  match result with
  | none => some (tracker.printErrorAndExit .pipe)
  | some (readFd, writeFd) =>
      let half := tracker.descriptors.insert readFd (.readEnd which)
      if tracker.descriptors.Lowest readFd ∧
        DescriptorTable.Lowest half writeFd then
        let opened :=
          { tracker with descriptors := half.insert writeFd (.writeEnd which) }
        match which with
        | .writepipe => some { opened with writepipe := (readFd, writeFd), pc := .pipe .readpipe }
        | .readpipe => some { opened with readpipe := (readFd, writeFd), pc := .callocVector }
      else none

/-- `WORDS_SIZE`, the size of a copied argument with its NUL. -/
def wordsSize : Nat := 32

/-- The allocation of the vector or of the next word in it. -/
def calloc (tracker : Tracker) (succeeds : Bool) : Option Tracker :=
  match tracker.pc, tracker.argsDup with
  | .callocVector, _ =>
      if succeeds then
        some { tracker with argsDup := some [], pc := .callocWord }
      else some (tracker.printErrorAndExit .calloc)
  | .callocWord, some words =>
      tracker.args[words.length + 1]?.map fun arg =>
        if succeeds then
          { tracker with argsDup := some (words ++ [arg.take (wordsSize - 1)]) }
        else tracker.printErrorAndExit .calloc
  | _, _ => none

/-- The statements of `main` that need neither the child nor the pipes. -/
def main (tracker : Tracker) : Option Tracker :=
  match tracker.pc with
  | .checkArguments =>
      if tracker.args.length < 2 then
        some (tracker.printErrorAndExit .arguments)
      else some (tracker.goto .sigaction)
  | .sigaction => some (tracker.goto (.pipe .writepipe))
  | .callocWord =>
      if tracker.args.length ≤ (tracker.argsDup.getD []).length + 1 then
        some (tracker.goto .fork)
      else none
  | .storeChildpid result =>
      some { tracker with childpid := result, pc := .closeChildRead }
  | .closeChildRead => some (tracker.close tracker.childRead .closeChildWrite)
  | .closeChildWrite => some (tracker.close tracker.childWrite .fgetc)
  | .putchar => some ((tracker.record (.putchar tracker.c)).goto .fgetc)
  | .fclose => some (tracker.close tracker.parentRead .sleep)
  | .sleep => some (tracker.goto .closeParentWrite)
  | .closeParentWrite =>
      some (tracker.close tracker.parentWrite .closeParentRead)
  | .closeParentRead =>
      some ((tracker.close tracker.parentRead .closeParentRead).finish
        (.exited 0))
  | .pipe _ | .callocVector | .fork | .fgetc => none

/-- The branch of `collect_zombie` on the status. -/
def report (status : Nat) : Option Report :=
  if WaitStatus.wIfExited status then
    some (.exited (WaitStatus.wExitStatus status))
  else if WaitStatus.wIfSignaled status then
    some (.killed (WaitStatus.wTermSig status))
  else if WaitStatus.wIfStopped status then
    some (.stopped (WaitStatus.wStopSig status))
  else if WaitStatus.wIfContinued status then some .continued
  else none

/-- `collect_zombie` behind `waitpid`, which has returned `ret`. -/
def collectZombie (tracker : Tracker) (ret : Int) (status : Nat) : Tracker :=
  if tracker.childpid ≠ ret then tracker.printErrorAndExit (.waitpid ret)
  else
    match report status with
    | some line => (tracker.record (.report line)).leave 0
    | none => tracker.leave 0

end Tracker

/-! ## The child alone -/

namespace Child

/-- The child begins with a copy of the tracker's descriptors. -/
def start (pid : Int) (descriptors : Table) : Child where
  pid := pid
  pc := .closeParentWrite
  stopped := false
  descriptors := descriptors
  outcomes := []
  written := []
  reaped := false

/-- `close` in the child. -/
def close (child : Child) (fd : Int) (next : ChildPc) : Child :=
  { child with descriptors := child.descriptors.erase fd, pc := next }

/-- `dup2` in the child. -/
def dup2 (child : Child) (old new : Int) (next : ChildPc) : Child :=
  { child with descriptors := child.descriptors.dup2 old new, pc := next }

/-- A call of the program returns. -/
def answer (child : Child) (outcome : Outcome) : Child :=
  { child with outcomes := child.outcomes ++ [outcome], pc := .running }

/-- The child has terminated, whatever way this happened. -/
def isEnded (child : Child) : Bool :=
  match child.pc with
  | .ended _ => true
  | _ => false

/-- The end of the process closes its descriptors. -/
def terminate (child : Child) (termination : Termination) : Child :=
  { child with pc := .ended termination, stopped := false, descriptors := ∅ }

end Child

/-- `waitpid` with `WNOHANG`: what it returns and the status it stores, if it
stores one. A process id of 0 stands for any child. -/
def waitpid (child : Option Child) (pid : Int) : Int × Option Nat :=
  match child with
  | none => (-1, none)
  | some child =>
      if child.reaped ∨ (pid ≠ 0 ∧ pid ≠ child.pid) then (-1, none)
      else
        match child.pc with
        | .ended termination =>
            (child.pid, some (WaitStatus.ofTermination termination))
        | _ => (0, none)

/-! ## Both processes -/

/-- Size of the buffer of a stream. -/
def bufsiz : Nat := 4096

namespace World

/-- The world when the tracker starts. -/
def start (args : List (List UInt8)) (inherited : List Int) : World where
  tracker := .start args inherited
  child := none
  content := fun _ => []
  pending := none

/-- Some process has the file open. -/
def IsOpen (world : World) (file : File) : Prop :=
  world.tracker.descriptors.Refers file ∨
    ∃ child ∈ world.child, child.descriptors.Refers file

instance (world : World) (file : File) : Decidable (world.IsOpen file) :=
  inferInstanceAs
    (Decidable (_ ∨ ∃ child ∈ world.child, child.descriptors.Refers file))

/-- `SIGCHLD` is sent to a living tracker. One that is pending already absorbs
it. -/
def signal (world : World) (cause : Cause) : World :=
  if world.tracker.ended = none then
    { world with pending := world.pending.or (some cause) }
  else world

/-- The child ends, which is signalled to the tracker. -/
def terminate (world : World) (child : Child)
    (termination : Termination) : World :=
  { world with child := some (child.terminate termination) }.signal
    (.ofTermination termination)

/-- `fgetc` takes a byte of the buffer, or refills the buffer when it is empty.
At the end of the file the loop is left. -/
def fgetc (world : World) : Option World :=
  match world.tracker.stream with
  | byte :: rest =>
      some { world with
        tracker :=
          { world.tracker with c := byte, stream := rest, pc := .putchar } }
  | [] =>
      match world.tracker.descriptors.lookup world.tracker.parentRead with
      | some (.readEnd pipe) =>
          if world.content pipe ≠ [] then
            some { world with
              tracker :=
                { world.tracker with
                    stream := (world.content pipe).take bufsiz }
              content := Function.update world.content pipe
                ((world.content pipe).drop bufsiz) }
          else if world.IsOpen (.writeEnd pipe) then none
          else some { world with tracker := world.tracker.goto .fclose }
      | _ => some { world with tracker := world.tracker.goto .fclose }

/-- Both branches of `fork` in the tracker. -/
def fork (world : World) (result : Option Int) : Option World :=
  match result with
  | none =>
      some { world with
        tracker :=
          { world.tracker with childpid := -1 }.printErrorAndExit .fork }
  | some pid =>
      if 0 < pid then
        some { world with
          tracker := world.tracker.goto (.storeChildpid pid)
          child := some (.start pid world.tracker.descriptors) }
      else none

/-- The tracker runs `main`: it has not ended and is not in its handler. -/
def mainStep (world : World) (event : Event) : Option World :=
  if world.tracker.ended = none ∧ world.tracker.handling = none then
    match event, world.tracker.pc with
    | .main, .fgetc => world.fgetc
    | .main, _ =>
        world.tracker.main.map fun tracker => { world with tracker := tracker }
    | .pipe result, .pipe which =>
        (world.tracker.pipe which result).map fun tracker =>
          { world with tracker := tracker }
    | .calloc succeeds, _ =>
        (world.tracker.calloc succeeds).map fun tracker =>
          { world with tracker := tracker }
    | .fork result, .fork => world.fork result
    | _, _ => none
  else none

/-- The signal interrupts `main` wherever it stands. -/
def deliver (world : World) : Option World :=
  if world.tracker.ended = none ∧ world.tracker.handling = none then
    world.pending.map fun cause =>
      { world with
        tracker := { world.tracker with handling := some cause }
        pending := none }
  else none

/-- `collect_zombie` from its call of `waitpid` on. Its variable `status` holds
`garbage` unless `waitpid` stores a status. -/
def collectZombie (world : World) (garbage : Nat) : Option World :=
  if world.tracker.ended = none ∧ world.tracker.handling ≠ none then
    match waitpid world.child world.tracker.childpid with
    | (ret, none) =>
        some { world with tracker := world.tracker.collectZombie ret garbage }
    | (ret, some status) =>
        some { world with
          tracker := world.tracker.collectZombie ret status
          child := world.child.map fun child => { child with reaped := true } }
  else none

/-- The steps of the child whose outcome is determined: its statements up to
`execvp`, and the calls of the program that do not wait. -/
def childStep (program : Program) (world : World)
    (child : Child) : Option World :=
  match child.pc with
  | .closeParentWrite =>
      some { world with child := some (child.close world.tracker.parentWrite .closeParentRead) }
  | .closeParentRead =>
      some { world with
          child := some (child.close world.tracker.parentRead .dupChildRead) }
  | .dupChildRead =>
      some { world with
          child := some (child.dup2 world.tracker.childRead 0 .closeChildRead) }
  | .closeChildRead =>
      some { world with
          child := some (child.close world.tracker.childRead .dupChildWrite) }
  | .dupChildWrite =>
      some { world with child := some (child.dup2 world.tracker.childWrite 1 .closeChildWrite) }
  | .closeChildWrite =>
      some { world with
          child := some (child.close world.tracker.childWrite .execvp) }
  | .running =>
      match program child.outcomes with
      | .read => some { world with child := some { child with pc := .reading } }
      | .write bytes =>
          some { world with child := some { child with pc := .writing bytes } }
      | .closeStdin =>
          some { world with
              child := some ((child.close 0 .running).answer .closed) }
      | .closeStdout =>
          some { world with
              child := some ((child.close 1 .running).answer .closed) }
      | .exit code => some (world.terminate child (.exited code))
  | .writing rest =>
      match child.descriptors.lookup 1 with
      | some (.writeEnd _) =>
          if rest = [] then
            some { world with child := some (child.answer .wrote) } else none
      | some .other => some { world with child := some (child.answer .wrote) }
      | some (.readEnd _) | none =>
          some { world with child := some (child.answer .failed) }
  | .execvp | .reading | .ended _ => none

/-- A program that cannot be started makes the child exit with 2. -/
def execvp (world : World) (child : Child) (succeeds : Bool) : Option World :=
  if child.pc = .execvp then
    if succeeds then
      some { world with child := some { child with pc := .running } }
    else some (world.terminate child (.exited 2))
  else none

/-- The kernel moves `count` bytes of a write into the pipe. -/
def transfer (capacity : Nat) (world : World) (child : Child)
    (count : Nat) : Option World :=
  match child.pc, child.descriptors.lookup 1 with
  | .writing rest, some (.writeEnd pipe) =>
      if world.IsOpen (.readEnd pipe) ∧ 1 ≤ count ∧ count ≤ rest.length ∧
          (world.content pipe).length + count ≤ capacity then
        some { world with
          child := some { child with
            pc := .writing (rest.drop count)
            written :=
              if pipe = .readpipe then child.written ++ rest.take count
              else child.written }
          content := Function.update world.content pipe
            (world.content pipe ++ rest.take count) }
      else none
  | _, _ => none

/-- A write to a pipe without readers fails, after `SIGPIPE`. -/
def brokenPipe (world : World) (child : Child)
    (ignored : Bool) : Option World :=
  match child.pc, child.descriptors.lookup 1 with
  | .writing rest, some (.writeEnd pipe) =>
      if rest ≠ [] ∧ ¬world.IsOpen (.readEnd pipe) then
        if ignored then some { world with child := some (child.answer .failed) }
        else some (world.terminate child (.killed ⟨13, by decide⟩ false))
      else none
  | _, _ => none

/-- A read of the child returns. On an empty pipe it waits for data or for the
end of all writers. -/
def childRead (world : World) (child : Child)
    (outcome : Outcome) : Option World :=
  if child.pc = .reading then
    match child.descriptors.lookup 0, outcome with
    | some (.readEnd pipe), .data bytes =>
        if bytes ≠ [] ∧ bytes <+: world.content pipe then
          some { world with
            child := some (child.answer outcome)
            content := Function.update world.content pipe
              ((world.content pipe).drop bytes.length) }
        else none
    | some (.readEnd pipe), .endOfFile =>
        if world.content pipe = [] ∧ ¬world.IsOpen (.writeEnd pipe) then
          some { world with child := some (child.answer outcome) }
        else none
    | some (.writeEnd _), .failed | none, .failed | some .other, .failed
    | some .other, .data _
    | some .other, .endOfFile =>
        some { world with child := some (child.answer outcome) }
    | _, _ => none
  else none

/-- What the child does. A stopped child does nothing. -/
def childEvent (capacity : Nat) (program : Program) (world : World)
    (child : Child) :
    Event → Option World
  | .child => world.childStep program child
  | .execvp succeeds => world.execvp child succeeds
  | .transfer count => world.transfer capacity child count
  | .brokenPipe ignored => world.brokenPipe child ignored
  | .childRead outcome => world.childRead child outcome
  | _ => none

/-- What happens to the child from outside. -/
def jobControl (world : World) (child : Child) : Event → Option World
  | .stop =>
      if child.stopped ∨ child.isEnded then none
      else some
        ({ world with child := some { child with stopped := true } }.signal
          .stopped)
  | .continue =>
      if child.stopped then
        some ({ world with
            child := some { child with stopped := false } }.signal .continued)
      else none
  | .kill signal core =>
      if child.isEnded then none
      else some (world.terminate child (.killed signal core))
  | _ => none

/-- One step of the tracker, of the child or from outside. -/
def step (capacity : Nat) (program : Program) :
    Machine World Event := fun world event =>
  match event with
  | .main | .pipe _ | .calloc _ | .fork _ => world.mainStep event
  | .deliver => world.deliver
  | .waitpid garbage => world.collectZombie garbage
  | .child | .execvp _ | .transfer _ | .brokenPipe _ | .childRead _ =>
      world.child.bind fun child =>
        if child.stopped then none
        else world.childEvent capacity program child event
  | .stop | .continue | .kill _ _ =>
      world.child.bind fun child => world.jobControl child event

end World

/-! ## A program and its runs -/

/-- The tracker starts its child as process 100 and comes to its read loop; the
child comes to its program. -/
def launched : List Event :=
  [.main, .main, .pipe (some (3, 4)), .pipe (some (5, 6)), .calloc true,
    .calloc true, .main, .fork (some 100), .main, .main,
    .main] ++ List.replicate 6 .child ++ [.execvp true]

/-- A program that writes two bytes and exits. -/
def writesTwo : Program := fun outcomes =>
  if outcomes = [] then .write [104, 105] else .exit 0

/-- The two bytes are read and put out before the child exits. -/
def readFirst : List Event :=
  launched ++ [.child, .transfer 2, .child, .main, .main, .main, .main, .main,
    .child, .deliver, .waitpid 0]

end ForkPipe
end LinuxCPractice
