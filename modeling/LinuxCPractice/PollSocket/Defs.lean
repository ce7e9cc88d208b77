import LinuxCPractice.Machine
import LinuxCPractice.Descriptor
import LinuxCPractice.CString

/-!
# The polling echo server

`main` of `poll_socket.c` as an event-driven machine. Every system call of the
loop is one event that carries its outcome; the statements between two calls
are part of the step. A loop test that makes no call is an `internal` event.
Memory outside the 32 entries of `fds` is not modelled: an access there ends
the run in a fault.

The log of calls is not a variable of the program. It records what the process
asked of the kernel, so that the open descriptors can be read off it.
-/

namespace LinuxCPractice
namespace PollSocket

/-! ## Data -/

/-- There is something to read. -/
def pollIn : BitVec 16 := 0x001

/-- The descriptor is in an error condition. -/
def pollErr : BitVec 16 := 0x008

/-- The other end has hung up. -/
def pollHup : BitVec 16 := 0x010

/-- An entry of the table handed to `poll`. -/
structure Pollfd where
  fd : Int
  events : BitVec 16
  revents : BitVec 16
  deriving DecidableEq

/-- An access to `fds` outside its 32 entries. -/
inductive Access
  | read (index : Nat)
  | write (index : Nat)
  deriving DecidableEq

/-- The calls that prepare the listening socket, in order. -/
inductive Setup
  | socket
  | setsockopt
  | ioctl
  | bind
  | listen
  deriving DecidableEq

/-- Where `main` stands: at a call, at a loop test or at its end. -/
inductive Pc
  | setup (call : Setup)
  | poll
  | scan
  | accept
  | recv
  | send
  | optimize
  | out
  | exited (status : Int)
  | killed
  | fault (access : Access)
  deriving DecidableEq

/-- `poll` either fails or rewrites `revents` of every entry it was given. The
count it returns only selects a message and is the number of entries with
nonzero `revents`. -/
inductive PollResult
  | ready (revents : List (BitVec 16))
  | failed
  deriving DecidableEq

/-- `accept` returns a connection, finds none or fails with another error. -/
inductive AcceptResult
  | ok (fd : Int)
  | wouldBlock
  | failed
  deriving DecidableEq

/-- `recv` returns data, reports the end of the stream, would have to wait or
fails with another error. -/
inductive RecvResult
  | data (chunk : List UInt8)
  | endOfStream
  | wouldBlock
  | failed
  deriving DecidableEq

/-- `send` takes some bytes or fails. On a broken connection it raises
`SIGPIPE`, since its flags are 0, and the process is killed by that. -/
inductive SendResult
  | sent (count : Nat)
  | failed
  | killed
  deriving DecidableEq

/-- The outcome of the call `main` stands at. A `send` event also carries the
bytes that lie behind `buffer` on the stack, up to the next NUL. -/
inductive Event
  | setup (rc : Int)
  | poll (result : PollResult)
  | accept (result : AcceptResult)
  | recv (result : RecvResult)
  | send (beyond : List UInt8) (result : SendResult)
  | internal
  deriving DecidableEq

/-- Calls made so far, with the line printed when a connection is taken up. -/
inductive Entry
  | socket (fd : Int)
  | poll (given : List Int) (result : PollResult)
  | accept (result : AcceptResult)
  | readable (fd : Int)
  | recv (fd : Int) (result : RecvResult)
  | send (fd : Int) (message : List UInt8) (result : SendResult)
  | close (fd : Int)
  deriving DecidableEq

namespace Entry

/-- The descriptor a call opens or closes. -/
def use : Entry → Option (Use Int)
  | .socket fd => some (.opens fd)
  | .accept (.ok fd) => some (.opens fd)
  | .close fd => some (.closes fd)
  | _ => none

/-- The connection a call opens or closes. -/
def connectionUse : Entry → Option (Use Int)
  | .socket _ => none
  | entry => entry.use

end Entry

/-- Openings and closings of descriptors by the process. -/
def uses (log : List Entry) : List (Use Int) := log.filterMap Entry.use

/-- Connections accepted and not yet closed, in the order they were accepted. -/
def connections (log : List Entry) : List Int :=
  Use.held (log.filterMap Entry.connectionUse)

/-- The variables of `main`. -/
structure Server where
  pc : Pc
  listenSd : Int
  newSd : Int
  closeConn : Bool
  nfds : Nat
  currentSize : Nat
  i : Nat
  buffer : List UInt8
  fds : Vector Pollfd 32
  log : List Entry

/-- The `fd` fields of the first `nfds` entries. -/
def descriptors (fds : Vector Pollfd 32) (nfds : Nat) : List Int :=
  (fds.toList.take nfds).map Pollfd.fd

/-! ## The compaction loop -/

/-- The inner loop, `fds[j].fd = fds[j+1].fd` for `count` values of `j`. -/
def shift (fds : Vector Pollfd 32) (j : Nat) :
    Nat → Except Access (Vector Pollfd 32)
  | 0 => .ok fds
  | count + 1 =>
      if inside : j + 1 < 32 then
        shift (fds.set j { fds[j] with fd := fds[j + 1].fd }) (j + 1) count
      else .error (.read (j + 1))

/-- The outer loop with `remaining = nfds - i` entries ahead. A removal leaves
`i` where it is, since `i--` undoes the `i++` of the loop head, and takes one
off `nfds`. The result is the table with the final `nfds`. -/
def compact (fds : Vector Pollfd 32) (i : Nat) :
    (remaining : Nat) → Except Access (Vector Pollfd 32 × Nat)
  | 0 => .ok (fds, i)
  | remaining + 1 =>
      if inside : i < 32 then
        if fds[i].fd = -1 then
          (shift fds i (remaining + 1)).bind fun shifted =>
            compact shifted i remaining
        else compact fds (i + 1) remaining
      else .error (.read i)

/-! ## Steps -/

namespace Server

/-- `main` before its first call. `fds` and `buffer` hold nothing yet. -/
def start : Server where
  pc := .setup .socket
  listenSd := -1
  newSd := 0
  closeConn := false
  nfds := 1
  currentSize := 0
  i := 0
  buffer := []
  fds := Vector.replicate 32 ⟨0, 0, 0⟩
  log := []

/-- A call is made. -/
def record (server : Server) (entry : Entry) : Server :=
  { server with log := server.log ++ [entry] }

/-- `memset` of the table and the entry of the listening socket. -/
def prepareTable (server : Server) : Server :=
  { server with
    fds := (Vector.replicate 32 ⟨0, 0, 0⟩).set 0 ⟨server.listenSd, pollIn, 0⟩
    pc := .poll }

/-- A call on the listening socket: an error closes it and exits. -/
def configure (server : Server) (rc : Int)
    (proceed : Server → Server) : Server :=
  if rc < 0 then
    { server.record (.close server.listenSd) with pc := .exited (-1) }
  else proceed server

/-- One call that prepares the listening socket. -/
def setup (server : Server) (call : Setup) (rc : Int) : Server :=
  match call with
  | .socket =>
      if rc < 0 then { server with pc := .exited 1 }
      else { server.record (.socket rc) with listenSd := rc, pc := .setup .setsockopt }
  | .setsockopt =>
      server.configure rc fun server => { server with pc := .setup .ioctl }
  | .ioctl =>
      server.configure rc fun server => { server with pc := .setup .bind }
  | .bind =>
      server.configure rc fun server => { server with pc := .setup .listen }
  | .listen => server.configure rc prepareTable

/-- `poll` rewrites the `revents` of the entries it was given. -/
def storeRevents (fds : Vector Pollfd 32)
    (revents : List (BitVec 16)) : Vector Pollfd 32 :=
  fds.mapIdx fun index entry =>
    match revents[index]? with
    | some bits => { entry with revents := bits }
    | none => entry

/-- One call of `poll` for the first `nfds` entries. -/
def poll (server : Server) (result : PollResult) : Option Server :=
  let called :=
    server.record (.poll (descriptors server.fds server.nfds) result)
  match result with
  | .failed => some { called with pc := .out }
  | .ready revents =>
      if revents.length = server.nfds then
        some { called with
          fds := storeRevents server.fds revents
          currentSize := server.nfds
          i := 0
          pc := .scan }
      else none

/-- One round of the loop over the entries, up to its first call. -/
def scan (server : Server) : Server :=
  if server.currentSize ≤ server.i then { server with pc := .optimize }
  else
    match server.fds[server.i]? with
    | none => { server with pc := .fault (.read server.i) }
    | some entry =>
        if entry.revents ≠ pollIn then { server with i := server.i + 1 }
        else if entry.fd = server.listenSd then { server with pc := .accept }
        else { server.record (.readable entry.fd) with closeConn := false, pc := .recv }

/-- The next round of the loop over the entries. -/
def nextEntry (server : Server) : Server :=
  { server with i := server.i + 1, pc := .scan }

/-- Store a new connection behind the last entry. -/
def append (server : Server) (fd : Int) : Server :=
  if inside : server.nfds < 32 then
    { server with
      fds := server.fds.set server.nfds
        { server.fds[server.nfds] with fd := fd, events := pollIn }
      nfds := server.nfds + 1 }
  else { server with pc := .fault (.write server.nfds) }

/-- One call of `accept`. The kernel returns a descriptor that is not open. -/
def accept (server : Server) (result : AcceptResult) : Option Server :=
  let called := server.record (.accept result)
  match result with
  | .failed => some { called with newSd := -1, pc := .out }
  | .wouldBlock => some ({ called with newSd := -1 }.nextEntry)
  | .ok fd =>
      if 0 ≤ fd ∧ fd ∉ Use.held (uses server.log) then
        some ({ called with newSd := fd }.append fd)
      else none

/-- The statements behind the inner loop: a closed connection leaves its entry
marked with `-1`. -/
def endConnection (server : Server) : Server :=
  if server.closeConn then
    if inside : server.i < 32 then
      { server.record (.close server.fds[server.i].fd) with
        fds := server.fds.set server.i { server.fds[server.i] with
            fd := -1 } }.nextEntry
    else { server with pc := .fault (.read server.i) }
  else server.nextEntry

/-- One call of `recv` on the current entry, into the cleared buffer. -/
def recv (server : Server) (result : RecvResult) : Option Server :=
  match server.fds[server.i]? with
  | none => some { server with pc := .fault (.read server.i) }
  | some entry =>
      let called := server.record (.recv entry.fd result)
      match result with
      | .failed => some ({ called with closeConn := true }.endConnection)
      | .wouldBlock => some called.endConnection
      | .endOfStream => some ({ called with closeConn := true }.endConnection)
      | .data chunk =>
          if 1 ≤ chunk.length ∧ chunk.length ≤ 64 then
            some { called with
              buffer := chunk ++ List.replicate (64 - chunk.length) 0
              pc := .send }
          else none

/-- The bytes handed to `send`: `strlen(buffer) + 1` bytes of memory from the
buffer's address on. -/
def message (buffer beyond : List UInt8) : List UInt8 :=
  let memory := buffer ++ beyond ++ [0]
  memory.take (CString.strlen memory + 1)

/-- One call of `send` on the current entry. The kernel takes at most the bytes
it is given. -/
def send (server : Server) (beyond : List UInt8)
    (result : SendResult) : Option Server :=
  match server.fds[server.i]? with
  | none => some { server with pc := .fault (.read server.i) }
  | some entry =>
      let called :=
        server.record (.send entry.fd (message server.buffer beyond) result)
      match result with
      | .failed => some ({ called with closeConn := true }.endConnection)
      | .killed => some { called with pc := .killed }
      | .sent count =>
          if count ≤ (message server.buffer beyond).length then
            some { called with pc := .recv }
          else none

/-- The compaction of the table behind the scan. -/
def optimize (server : Server) : Server :=
  match compact server.fds 0 server.nfds with
  | .error access => { server with pc := .fault access }
  | .ok (fds, nfds) => { server with fds := fds, nfds := nfds, pc := .poll }

/-- The loop at the label `out` closes every entry that is not marked. -/
def out (server : Server) : Server :=
  { server with
    log := server.log ++
      ((descriptors server.fds server.nfds).filter (0 ≤ ·)).map Entry.close
    pc := .exited 0 }

/-- One step of `main`. The test `new_sd != -1` guards every call of
`accept`. -/
def step : Machine Server Event := fun server event =>
  match server.pc, event with
  | .setup call, .setup rc => some (server.setup call rc)
  | .poll, .poll result => server.poll result
  | .scan, .internal => some server.scan
  | .accept, .internal => if server.newSd = -1 then some server.nextEntry
        else none
  | .accept, .accept result =>
      if server.newSd = -1 then none else server.accept result
  | .recv, .recv result => server.recv result
  | .send, .send beyond result => server.send beyond result
  | .optimize, .internal => some server.optimize
  | .out, .internal => some server.out
  | _, _ => none

end Server
end PollSocket
end LinuxCPractice
