import LinuxCPractice.Machine
import Mathlib.Logic.Function.Basic

/-!
# Readers and writers of a named pipe

Any number of reader and writer runs of `main` of `ipc_fifo.c` in one directory,
whose steps may come in any order. They share the name `myfifo`, which refers to
one FIFO at a time; a FIFO without a name lives on while one of its ends is
open, and what was written to it is lost with its last end.

An end counts as open as soon as `open` is called. The call returns when the
other end is opened as well, at once if it is open already, and then even if the
other end has been closed again. All writes are of 100 bytes, as are the buffers
of the readers, so that a FIFO holds a list of messages, named by their writers.
A FIFO that is full would only delay a write and is not modelled.
-/

namespace LinuxCPractice
namespace Fifo

/-! ## Data -/

/-- The two ends of a pipe and the processes that open them. -/
inductive Role
  | reader
  | writer
  deriving DecidableEq

/-- The role at the other end. -/
def Role.other : Role → Role
  | .reader => .writer
  | .writer => .reader

/-- The call at which a process stands. At `opening` it is blocked inside
`open`; the call at `transfer` is `read` or `write`. A writer without a reader
is killed by `SIGPIPE`. -/
inductive Pc
  | mkfifo
  | open_
  | opening (inode : Nat)
  | transfer (inode : Nat)
  | close (inode : Nat)
  | unlink
  | exited (status : Nat)
  | killed
  deriving DecidableEq

/-- The processes that have an end open, and the messages in the FIFO. -/
structure Pipe where
  ends : Role → List Nat
  messages : List Nat

/-- The processes by number, the FIFO of the name and all FIFOs. `written` lists
the writers whose `write` has succeeded and `printed` what the readers have
printed: nothing yet, an empty text or a message. -/
structure World where
  procs : Role → Nat → Pc
  name : Option Nat
  pipes : Nat → Pipe
  written : List Nat
  printed : Nat → Option (Option Nat)

/-- A call of a process with its outcome. `mkfifo` may create the FIFO, under an
inode chosen by the file system. -/
inductive Event
  | mkfifo (role : Role) (number : Nat) (created : Option Nat)
  | open_ (role : Role) (number : Nat) (succeeds : Bool)
  | read (number : Nat)
  | write (number : Nat)
  | close (role : Role) (number : Nat)
  | unlink (role : Role) (number : Nat) (succeeds : Bool)
  deriving DecidableEq

namespace Event

/-- The process that makes the call. -/
def number : Event → Nat
  | .mkfifo _ number _ => number
  | .open_ _ number _ => number
  | .read number => number
  | .write number => number
  | .close _ number => number
  | .unlink _ number _ => number

end Event

/-! ## Pipes -/

namespace Pipe

/-- A pipe nobody has opened. -/
def empty : Pipe := ⟨fun _ => [], []⟩

/-- No end is open. -/
def Free (pipe : Pipe) : Prop :=
  pipe.ends .reader = [] ∧ pipe.ends .writer = []

instance (pipe : Pipe) : Decidable pipe.Free :=
  inferInstanceAs (Decidable (_ ∧ _))

/-- A process opens an end of the pipe. -/
def addEnd (pipe : Pipe) (role : Role) (number : Nat) : Pipe :=
  { pipe with ends := Function.update pipe.ends role (pipe.ends role ++ [number]) }

/-- Closing the last end loses the messages. -/
def removeEnd (pipe : Pipe) (role : Role) (number : Nat) : Pipe :=
  let ends := Function.update pipe.ends role ((pipe.ends role).erase number)
  ⟨ends, if ends .reader = [] ∧ ends .writer = [] then [] else pipe.messages⟩

end Pipe

/-! ## Steps -/

namespace World

/-- All processes before their first call. The name may refer to a FIFO that
nobody has open. -/
def start (name : Option Nat) : World where
  procs := fun _ _ => .mkfifo
  name := name
  pipes := fun _ => .empty
  written := []
  printed := fun _ => none

/-- A process that goes on to another place. -/
def setPc (world : World) (role : Role) (number : Nat) (pc : Pc) : World :=
  { world with
    procs := Function.update world.procs role
      (Function.update (world.procs role) number pc) }

/-- The pipe at an inode after a call. -/
def setPipe (world : World) (inode : Nat) (pipe : Pipe) : World :=
  { world with pipes := Function.update world.pipes inode pipe }

/-- The result of `mkfifo` is not looked at. -/
def mkfifo (world : World) (role : Role) (number : Nat)
    (created : Option Nat) : Option World :=
  let called := world.setPc role number .open_
  match created with
  | none => some called
  | some inode =>
      if world.name = none ∧ (world.pipes inode).Free then
        some { called.setPipe inode .empty with name := some inode }
      else none

/-- The processes blocked in opening the other end of the FIFO go on. -/
def wake (world : World) (role : Role) (inode : Nat) : World :=
  { world with
    procs := Function.update world.procs role fun number =>
      if world.procs role number = .opening inode then .transfer inode
      else world.procs role number }

/-- A process opens its end of the pipe and waits for the other end unless
somebody has it open. Those that wait for this end are woken. -/
def openPipe (world : World) (role : Role) (number inode : Nat) : World :=
  let pipe := world.pipes inode
  ((world.wake role.other inode).setPc role number
    (if pipe.ends role.other = [] then .opening inode
      else .transfer inode)).setPipe inode
      (pipe.addEnd role number)

/-- `open` needs the name to exist. -/
def open_ (world : World) (role : Role) (number : Nat)
    (succeeds : Bool) : Option World :=
  if succeeds then world.name.map fun inode => world.openPipe role number inode
  else some (world.setPc role number (.exited 2))

/-- What a reader prints. -/
def print (world : World) (number : Nat) (text : Option Nat) : World :=
  { world with printed := Function.update world.printed number (some text) }

/-- `read` takes one message. Without one it blocks while a writer has the FIFO
open and otherwise returns nothing; the reader then prints an empty text. -/
def read (world : World) (number inode : Nat) : Option World :=
  let pipe := world.pipes inode
  match pipe.messages with
  | message :: messages => some
      (((world.setPc .reader number (.close inode)).setPipe inode
        { pipe with messages := messages }).print number (some message))
  | [] =>
      if pipe.ends .writer = [] then
        some ((world.setPc .reader number (.close inode)).print number none)
      else none

/-- A writer writes into the pipe. Without a reader at the other end `SIGPIPE`
kills it. -/
def write (world : World) (number inode : Nat) : World :=
  let pipe := world.pipes inode
  if pipe.ends .reader = [] then
    (world.setPc .writer number .killed).setPipe inode
      (pipe.removeEnd .writer number)
  else
    { (world.setPc .writer number (.close inode)).setPipe inode
        { pipe with messages := pipe.messages ++ [number] } with
      written := world.written ++ [number] }

/-- A process closes its end of the pipe. -/
def close (world : World) (role : Role) (number inode : Nat) : World :=
  (world.setPc role number .unlink).setPipe inode
    ((world.pipes inode).removeEnd role number)

/-- The result of `unlink` is not looked at. -/
def unlink (world : World) (role : Role) (number : Nat)
    (succeeds : Bool) : World :=
  { world.setPc role number (.exited 0) with
    name := if succeeds then none else world.name }

/-- The step of a process, given where it stands. -/
def call (world : World) (event : Event) : Option World :=
  match event with
  | .mkfifo role number created =>
      match world.procs role number with
      | .mkfifo => world.mkfifo role number created
      | _ => none
  | .open_ role number succeeds =>
      match world.procs role number with
      | .open_ => world.open_ role number succeeds
      | _ => none
  | .read number =>
      match world.procs .reader number with
      | .transfer inode => world.read number inode
      | _ => none
  | .write number =>
      match world.procs .writer number with
      | .transfer inode => some (world.write number inode)
      | _ => none
  | .close role number =>
      match world.procs role number with
      | .close inode => some (world.close role number inode)
      | _ => none
  | .unlink role number succeeds =>
      match world.procs role number with
      | .unlink => some (world.unlink role number succeeds)
      | _ => none

/-- One step of `count` readers and `count` writers. -/
def step (count : Nat) : Machine World Event := fun world event =>
  if event.number < count then world.call event else none

end World
end Fifo
end LinuxCPractice
