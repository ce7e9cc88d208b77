import LinuxCPractice.Machine
import Mathlib.Logic.Function.Basic

/-!
# A reader and a writer of a message queue

One reader and one writer run of `main` of `ipc_msgqueue.c` in one directory,
whose steps may come in any order. They share the file `msgqueue`, of which only
the inode matters, and the message queues of the kernel. A queue is found by its
key, which is computed from the inode; its number is never given to another one.

A message sent to a queue on which the reader is blocked goes to the reader at
once. Removing a queue destroys the messages in it and ends a call of `msgrcv`
that is blocked on it.
-/

namespace LinuxCPractice
namespace MessageQueue

/-! ## Data -/

/-- The two programs. -/
inductive Role
  | reader
  | writer
  deriving DecidableEq

/-- The call at which a process stands. The reader is `blocked` inside `msgrcv`;
`fclose` of a file that could not be opened crashes. -/
inductive Pc
  | fopen
  | fopenAppend
  | ftok
  | msgget
  | msgrcv
  | blocked
  | msgsnd
  | msgctl
  | unlink
  | exited (status : Nat)
  | crashed
  deriving DecidableEq

/-- The call that follows when the process has its queue. -/
def Role.proceed : Role → Pc
  | .reader => .msgrcv
  | .writer => .msgsnd

/-- The variables of `main`. `fs` is the inode of the file that is still
open. -/
structure Proc where
  pc : Pc
  fs : Option Nat
  key : Nat
  msqid : Nat
  deriving DecidableEq

/-- The inode that the process keeps open. -/
def Proc.open? (proc : Proc) : Option Nat :=
  match proc.pc with
  | .exited _ | .crashed => none
  | _ => proc.fs

/-- The text of a message. -/
abbrev Message := List UInt8

/-- A queue with the key it was made for and the messages on it. -/
structure Queue where
  key : Nat
  messages : List Message
  deriving DecidableEq

/-- Both processes, the file and the queues by number. `called` is the queue on
which the reader has called `msgrcv`, `received` what it has got from there and
`sent` what the writer has put into its queue. -/
structure World where
  procs : Role → Proc
  file : Option Nat
  queues : Nat → Option Queue
  used : Nat
  called : Option Nat
  sent : Option Message
  received : Option Message

/-- A call of one of the processes with its outcome. Opening the file for
appending may create it, under an inode chosen by the file system; `msgsnd`
carries the bytes it takes from memory. -/
inductive Event
  | fopen (role : Role) (succeeds : Bool)
  | fopenAppend (role : Role) (inode : Option Nat)
  | ftok (role : Role) (succeeds : Bool)
  | msgget (role : Role) (succeeds : Bool)
  | msgrcv
  | msgsnd (message : Message) (succeeds : Bool)
  | msgctl (succeeds : Bool)
  | unlink (succeeds : Bool)
  deriving DecidableEq

/-- `ftok` with `'D'` on the device `stDev`. -/
def ftokKey (stDev inode : Nat) : Nat :=
  0x44 * 0x1000000 + stDev % 0x100 * 0x10000 + inode % 0x10000

/-! ## Steps -/

namespace World

/-- Both processes before their first call, and no queue. -/
def start (file : Option Nat) : World where
  procs := fun _ => ⟨.fopen, none, 0, 0⟩
  file := file
  queues := fun _ => none
  used := 0
  called := none
  sent := none
  received := none

/-- The process of the reader. -/
def reader (world : World) : Proc := world.procs .reader

/-- The process of the writer. -/
def writer (world : World) : Proc := world.procs .writer

/-- A process after a step of its own. -/
def setProc (world : World) (role : Role) (proc : Proc) : World :=
  { world with procs := Function.update world.procs role proc }

/-- The queue at an identifier after a call, `none` once it is removed. -/
def setQueue (world : World) (msqid : Nat) (queue : Option Queue) : World :=
  { world with queues := Function.update world.queues msqid queue }

/-- Opening the file for reading. What is opened here is never closed. -/
def fopen (world : World) (role : Role) (succeeds : Bool) : Option World :=
  let proc := world.procs role
  if succeeds then
    if world.file.isSome then
      some (world.setProc role { proc with pc := .ftok, fs := world.file })
    else none
  else some (world.setProc role { proc with pc := .fopenAppend })

/-- Opening the file for appending creates it if there is none. An inode that is
still open is not given to the new file. -/
def fopenAppend (world : World) (role : Role)
    (inode : Option Nat) : Option World :=
  let proc := world.procs role
  match inode with
  | none => some (world.setProc role { proc with pc := .crashed })
  | some inode =>
      let fresh := world.file = none ∧ world.reader.open? ≠ some inode ∧
        world.writer.open? ≠ some inode
      if world.file = some inode ∨ fresh then
        some { world.setProc role { proc with pc := .ftok } with
            file := some inode }
      else none

/-- `ftok` needs the file to exist. -/
def ftok (stDev : Nat) (world : World) (role : Role)
    (succeeds : Bool) : Option World :=
  let proc := world.procs role
  if succeeds then
    world.file.map fun inode =>
      world.setProc role { proc with pc := .msgget, key := ftokKey stDev inode }
  else some (world.setProc role { proc with pc := .exited 1 })

/-- The queue with the key. -/
def find (world : World) (key : Nat) : Option Nat :=
  (List.range world.used).find? fun msqid => (world.queues msqid).any
    (·.key = key)

/-- `msgget` finds the queue with the key or creates it. -/
def msgget (world : World) (role : Role) (succeeds : Bool) : Option World :=
  let proc := world.procs role
  if succeeds then
    match world.find proc.key with
    | some msqid => some
        (world.setProc role { proc with pc := role.proceed, msqid := msqid })
    | none => some
        { (world.setProc role { proc with
            pc := role.proceed, msqid := world.used }).setQueue
              world.used (some ⟨proc.key, []⟩) with
          used := world.used + 1 }
  else some (world.setProc role { proc with pc := .exited 1 })

/-- `msgrcv` returns the first message of the queue, blocks while there is none
and fails on a queue that was removed. -/
def msgrcv (world : World) : World :=
  let proc := world.reader
  let calling := { world with called := some proc.msqid }
  match world.queues proc.msqid with
  | none => calling.setProc .reader { proc with pc := .exited 1 }
  | some ⟨_, []⟩ => calling.setProc .reader { proc with pc := .blocked }
  | some ⟨key, message :: messages⟩ =>
      { (calling.setProc .reader { proc with pc := .exited 0 }).setQueue
        proc.msqid
          (some ⟨key, messages⟩) with
        received := some message }

/-- A failed `msgsnd` is reported and the writer goes on. -/
def msgsnd (world : World) (message : Message)
    (succeeds : Bool) : Option World :=
  let proc := world.writer
  let called := world.setProc .writer { proc with pc := .msgctl }
  if succeeds then
    (world.queues proc.msqid).map fun queue =>
      if world.reader.pc = .blocked ∧ world.reader.msqid = proc.msqid then
        { called.setProc .reader { world.reader with pc := .exited 0 } with
          sent := some message
          received := some message }
      else
        { called.setQueue proc.msqid
            (some { queue with messages := queue.messages ++ [message] }) with
          sent := some message }
  else some called

/-- The reader that is blocked on a queue that is removed exits. -/
def msgctl (world : World) (succeeds : Bool) : World :=
  let proc := world.writer
  if succeeds then
    let removed :=
      (world.setProc .writer { proc with pc := .unlink }).setQueue
        proc.msqid none
    if world.reader.pc = .blocked ∧ world.reader.msqid = proc.msqid then
      removed.setProc .reader { world.reader with pc := .exited 1 }
    else removed
  else world.setProc .writer { proc with pc := .exited 1 }

/-- The result of `unlink` is not looked at. -/
def unlink (world : World) (succeeds : Bool) : World :=
  { world.setProc .writer { world.writer with pc := .exited 0 } with
    file := if succeeds then none else world.file }

/-- One step of the processes on the device `stDev`. -/
def step (stDev : Nat) : Machine World Event := fun world event =>
  match event with
  | .fopen role succeeds =>
      if (world.procs role).pc = .fopen then world.fopen role succeeds else none
  | .fopenAppend role inode =>
      if (world.procs role).pc = .fopenAppend then world.fopenAppend role inode
      else none
  | .ftok role succeeds =>
      if (world.procs role).pc = .ftok then ftok stDev world role succeeds
      else none
  | .msgget role succeeds =>
      if (world.procs role).pc = .msgget then world.msgget role succeeds
      else none
  | .msgrcv => if world.reader.pc = .msgrcv then some world.msgrcv else none
  | .msgsnd message succeeds =>
      if world.writer.pc = .msgsnd then world.msgsnd message succeeds else none
  | .msgctl succeeds =>
      if world.writer.pc = .msgctl then some (world.msgctl succeeds) else none
  | .unlink succeeds =>
      if world.writer.pc = .unlink then some (world.unlink succeeds) else none

end World
end MessageQueue
end LinuxCPractice
