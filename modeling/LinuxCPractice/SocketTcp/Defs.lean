import LinuxCPractice.Machine
import LinuxCPractice.Descriptor
import LinuxCPractice.Buffer

/-!
# The file server

The serve loop of `work_as_server` in `socket_tcp.c` as an event-driven machine.
Every call that may fail or block is one event that carries its outcome; the
statements up to the next such call, `close` and `fclose` among them, are part
of the step. A call on a descriptor that is not open can only fail.

The log of calls is not a variable of the program. It records what the process
asked of the kernel and what it printed for each message.
-/

namespace LinuxCPractice
namespace SocketTcp

/-! ## Data -/

/-- `BUF_SIZE` -/
def bufSize : Nat := 500

/-- The call at which the loop stands. -/
inductive Pc
  | accept
  | recv
  | fopen
  | fgets
  | send
  | exited
  deriving DecidableEq

/-- What `accept` returns. -/
inductive AcceptResult
  | ok (fd : Int)
  | failed
  deriving DecidableEq

/-- No data is the end of the stream. -/
inductive RecvResult
  | data (message : List UInt8)
  | failed
  deriving DecidableEq

/-- The descriptor behind the `FILE`, and what the file holds. -/
inductive FopenResult
  | opened (fd : Int) (content : List UInt8)
  | failed
  deriving DecidableEq

/-- A read error leaves the buffer with indeterminate bytes. -/
inductive FgetsResult
  | done
  | error (left : List UInt8)
  deriving DecidableEq

/-- What `send` returns. -/
inductive SendResult
  | sent (count : Nat)
  | failed
  deriving DecidableEq

/-- The outcome of the call the loop stands at. A `recv` event also carries the
bytes that lie behind `buf` on the stack, up to the next NUL. -/
inductive Event
  | accept (result : AcceptResult)
  | recv (beyond : List UInt8) (result : RecvResult)
  | fopen (result : FopenResult)
  | fgets (result : FgetsResult)
  | send (result : SendResult)
  deriving DecidableEq

/-- Calls made so far, with what was printed for each message. -/
inductive Entry
  | socket (fd : Int)
  | accept (sfd : Int) (result : AcceptResult)
  | recv (fd : Int) (result : RecvResult)
  | print (shown : Print)
  | fopen (fd : Int)
  | fclose (fd : Int)
  | send (fd : Int) (message : List UInt8) (result : SendResult)
  | close (fd : Int)
  deriving DecidableEq

namespace Entry

/-- The descriptor a call opens or closes. -/
def use : Entry → Option (Use Int)
  | .socket fd => some (.opens fd)
  | .accept _ (.ok fd) => some (.opens fd)
  | .fopen fd => some (.opens fd)
  | .fclose fd => some (.closes fd)
  | .close fd => some (.closes fd)
  | _ => none

/-- The client descriptor a call opens or closes, `sfd` being the listening
one. -/
def clientUse (sfd : Int) : Entry → Option (Use Int)
  | .accept _ (.ok fd) => some (.opens fd)
  | .close fd => if fd = sfd ∨ fd < 0 then none else some (.closes fd)
  | _ => none

/-- The descriptor on which a socket call is issued. -/
def target : Entry → Option Int
  | .accept sfd _ => some sfd
  | .recv fd _ => some fd
  | .send fd _ _ => some fd
  | .close fd => some fd
  | _ => none

/-- What an entry prints, if it prints anything. -/
def print? : Entry → Option Print
  | .print shown => some shown
  | _ => none

end Entry

/-- Openings and closings of descriptors by the process. -/
def uses (log : List Entry) : List (Use Int) := log.filterMap Entry.use

/-- Openings and closings of client descriptors. -/
def clientUses (sfd : Int) (log : List Entry) : List (Use Int) :=
  log.filterMap (Entry.clientUse sfd)

/-- The messages received and what was printed for them, in order. -/
def prints (log : List Entry) : List Print := log.filterMap Entry.print?

/-- The variables of `work_as_server` in its loop. `fs` is the open file, by its
descriptor, and `content` what it holds. -/
structure Server where
  pc : Pc
  sfd : Int
  clientSockFd : Int
  buf : List UInt8
  fs : Int
  content : List UInt8
  log : List Entry
  deriving DecidableEq

/-! ## Steps -/

namespace Server

/-- The head of the loop after `listen`. Nothing was stored in `buf` yet. -/
def start (sfd : Int) (buf : List UInt8) : Server where
  pc := .accept
  sfd := sfd
  clientSockFd := -1
  buf := buf
  fs := -1
  content := []
  log := [.socket sfd]

/-- Entries behind the log. -/
def record (server : Server) (entries : List Entry) : Server :=
  { server with log := server.log ++ entries }

/-- The kernel hands out a descriptor that is not open. -/
def Fresh (server : Server) (fd : Int) : Prop :=
  0 ≤ fd ∧ fd ∉ Use.held (uses server.log)

instance (server : Server) : DecidablePred server.Fresh :=
  fun _ => inferInstanceAs (Decidable (_ ∧ _))

/-- A failed `accept` closes the listening socket and goes on with `-1` as the
client. -/
def accept (server : Server) (result : AcceptResult) : Option Server :=
  match result with
  | .failed =>
      some { server.record [.accept server.sfd .failed, .close server.sfd] with
        clientSockFd := -1
        pc := .recv }
  | .ok fd =>
      if server.sfd ∈ Use.held (uses server.log) ∧ server.Fresh fd then
        some { server.record [.accept server.sfd (.ok fd)] with
          clientSockFd := fd
          pc := .recv }
      else none

/-- The message is stored and printed, then the buffer is cleared. -/
def recv (server : Server) (beyond : List UInt8)
    (result : RecvResult) : Option Server :=
  match result with
  | .failed => some { server.record
        [.recv server.clientSockFd .failed, .close server.clientSockFd] with
      pc := .accept }
  | .data message =>
      if server.clientSockFd ∈ Use.held (uses server.log) ∧
        message.length ≤ bufSize then
        some { server.record [.recv server.clientSockFd (.data message),
            .print (.shown
              (Buffer.overwrite server.buf message) message.length beyond)] with
          buf := List.replicate bufSize 0
          pc := .fopen }
      else none

/-- `fopen` for the file, with its descriptor and content. A failure ends the
server. -/
def fopen (server : Server) (result : FopenResult) : Option Server :=
  match result with
  | .failed => some { server with pc := .exited }
  | .opened fd content =>
      if server.Fresh fd then
        some { server.record [.fopen fd] with fs := fd, content := content, pc := .fgets }
      else none

/-- Whether a call of `fgets` on the open file returns a line. -/
def line? (server : Server) (result : FgetsResult) : Option (List UInt8) :=
  match result with
  | .done => Buffer.fgets bufSize server.content
  | .error _ => none

/-- What a call of `fgets` that returns `NULL` leaves in the buffer. -/
def leftBy (server : Server) (result : FgetsResult) : List UInt8 :=
  match result with
  | .done => server.buf
  | .error left => left

/-- Without a line the file is closed and the loop goes back to `accept`. -/
def fgets (server : Server) (result : FgetsResult) : Option Server :=
  match server.line? result with
  | some line => some { server with buf := Buffer.overwrite server.buf (line ++ [0]), pc := .send }
  | none =>
      if (server.leftBy result).length = bufSize then
        some { server.record [.fclose server.fs] with
            buf := server.leftBy result, pc := .accept }
      else none

/-- The bytes handed to `send`: the string in the buffer with its NUL. -/
def reply (server : Server) : List UInt8 :=
  server.buf.take (CString.strlen server.buf + 1)

/-- A failed `send` closes the client. The kernel takes at most the bytes it is
given. -/
def send (server : Server) (result : SendResult) : Option Server :=
  let called := server.record [.send server.clientSockFd server.reply result]
  match result with
  | .failed =>
      some { called.record [.close server.clientSockFd, .fclose server.fs] with
        pc := .accept }
  | .sent count =>
      if server.clientSockFd ∈ Use.held (uses server.log) ∧
        count ≤ server.reply.length then
        some { called.record [.fclose server.fs] with pc := .accept }
      else none

/-- One step of the loop. -/
def step : Machine Server Event := fun server event =>
  match server.pc, event with
  | .accept, .accept result => server.accept result
  | .recv, .recv beyond result => server.recv beyond result
  | .fopen, .fopen result => server.fopen result
  | .fgets, .fgets result => server.fgets result
  | .send, .send result => server.send result
  | _, _ => none

end Server
end SocketTcp
end LinuxCPractice
