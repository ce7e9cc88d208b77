import LinuxCPractice.Machine
import LinuxCPractice.Buffer

/-!
# The datagram server

The serve loop of `work_as_server` in `socket_udp.c` as an event-driven machine.
Every system call and `getnameinfo` is one event that carries its outcome.

The address of the peer lives in two variables. `recvfrom` stores no more of an
address than `peer_addr_len` says there is room for and then sets
`peer_addr_len` to the length of the whole address.
-/

namespace LinuxCPractice
namespace SocketUdp

/-! ## Data -/

/-- `BUF_SIZE` -/
def bufSize : Nat := 500

/-- `sizeof(struct sockaddr_storage)` -/
def storageSize : Nat := 128

/-- `"selam2"` with its NUL. -/
def selam2 : List UInt8 := [115, 101, 108, 97, 109, 50, 0]

/-- A socket address. `struct sockaddr_storage` has room for any of them. -/
structure Address where
  bytes : List UInt8
  fits : bytes.length ≤ storageSize
  deriving DecidableEq

/-- The call at which the loop stands. -/
inductive Pc
  | recvfrom
  | getnameinfo
  | sendto
  deriving DecidableEq

/-- What `recvfrom` returns. -/
inductive RecvfromResult
  | datagram (message : List UInt8) (source : Address)
  | failed
  deriving DecidableEq

/-- What `sendto` returns. -/
inductive SendtoResult
  | sent (count : Nat)
  | failed
  deriving DecidableEq

/-- The outcome of the call the loop stands at. A `getnameinfo` event also
carries the bytes that lie behind `buf` on the stack, up to the next NUL. -/
inductive Event
  | recvfrom (result : RecvfromResult)
  | getnameinfo (beyond : List UInt8) (s : Int)
  | sendto (result : SendtoResult)
  deriving DecidableEq

/-- Calls made so far, with what was printed for each message. -/
inductive Entry
  | recvfrom (result : RecvfromResult)
  | print (shown : Print)
  | sendto (destination message : List UInt8) (result : SendtoResult)
  deriving DecidableEq

namespace Entry

/-- The address from which a datagram was received. -/
def source? : Entry → Option (List UInt8)
  | .recvfrom (.datagram _ source) => some source.bytes
  | _ => none

/-- The address to which a reply was addressed. -/
def destination? : Entry → Option (List UInt8)
  | .sendto destination _ _ => some destination
  | _ => none

/-- What an entry prints, if it prints anything. -/
def print? : Entry → Option Print
  | .print shown => some shown
  | _ => none

end Entry

/-- The addresses from which datagrams were received, in order. -/
def sources (log : List Entry) : List (List UInt8) :=
  log.filterMap Entry.source?

/-- The addresses to which replies were addressed, in order. -/
def destinations (log : List Entry) : List (List UInt8) :=
  log.filterMap Entry.destination?

/-- The messages of which something was printed, in order. -/
def prints (log : List Entry) : List Print := log.filterMap Entry.print?

/-- The variables of `work_as_server` in its loop. -/
structure Server where
  pc : Pc
  peerAddr : List UInt8
  peerAddrLen : Nat
  nread : Nat
  buf : List UInt8
  log : List Entry
  deriving DecidableEq

/-! ## Steps -/

namespace Server

/-- The head of the loop. Nothing was stored in the variables yet. -/
def start (peerAddr buf : List UInt8) : Server where
  pc := .recvfrom
  peerAddr := peerAddr
  peerAddrLen := 0
  nread := 0
  buf := buf
  log := []

/-- An entry behind the log. -/
def record (server : Server) (entry : Entry) : Server :=
  { server with log := server.log ++ [entry] }

/-- What `recvfrom` does to the two variables of the peer address. -/
def storeAddress (server : Server) (source : Address) : Server :=
  { server with
    peerAddr :=
      Buffer.overwrite server.peerAddr (source.bytes.take server.peerAddrLen)
    peerAddrLen := source.bytes.length }

/-- The part of a datagram that the buffer has no room for is lost. -/
def recvfrom (server : Server) (result : RecvfromResult) : Server :=
  let called :=
    { server.record (.recvfrom result) with peerAddrLen := storageSize }
  match result with
  | .failed => called
  | .datagram message source =>
      { called.storeAddress source with
        buf := Buffer.overwrite server.buf (message.take bufSize)
        nread := (message.take bufSize).length
        pc := .getnameinfo }

/-- Only a peer whose name was found is printed. -/
def getnameinfo (server : Server) (beyond : List UInt8) (s : Int) : Server :=
  if s = 0 then
    { server.record (.print (.shown server.buf server.nread beyond)) with
        pc := .sendto }
  else { server with pc := .sendto }

/-- The bytes that `sendto` takes as the address. -/
def destination (server : Server) : List UInt8 :=
  server.peerAddr.take server.peerAddrLen

/-- `sendto`, the result of which is not looked at. -/
def sendto (server : Server) (result : SendtoResult) : Server :=
  { server.record (.sendto server.destination selam2 result) with
      pc := .recvfrom }

/-- One step of the loop. -/
def step : Machine Server Event := fun server event =>
  match server.pc, event with
  | .recvfrom, .recvfrom result => some (server.recvfrom result)
  | .getnameinfo, .getnameinfo beyond s => some (server.getnameinfo beyond s)
  | .sendto, .sendto result => some (server.sendto result)
  | _, _ => none

/-- All steps of the loop. -/
inductive Transition (server : Server) : Event → Server → Prop
  | failed (pc : server.pc = .recvfrom) :
      Transition server (.recvfrom .failed)
        { server.record (.recvfrom .failed) with peerAddrLen := storageSize }
  | received {message source} (pc : server.pc = .recvfrom) :
      Transition server (.recvfrom (.datagram message source))
        { server.record (.recvfrom (.datagram message source)) with
          peerAddr := Buffer.overwrite server.peerAddr source.bytes
          peerAddrLen := source.bytes.length
          buf := Buffer.overwrite server.buf (message.take bufSize)
          nread := (message.take bufSize).length
          pc := .getnameinfo }
  | named {beyond} (pc : server.pc = .getnameinfo) :
      Transition server (.getnameinfo beyond 0)
        { server.record (.print (.shown server.buf server.nread beyond)) with
            pc := .sendto }
  | unnamed {beyond s} (pc : server.pc = .getnameinfo) (error : s ≠ 0) :
      Transition server (.getnameinfo beyond s) { server with pc := .sendto }
  | replied {result} (pc : server.pc = .sendto) :
      Transition server (.sendto result)
        { server.record (.sendto server.destination selam2 result) with
            pc := .recvfrom }

/-- Every step is one of the transitions. -/
theorem transition_of_step {server next : Server} {event : Event}
    (stepped : step server event = some next) :
    Transition server event next := by
  unfold step at stepped
  split at stepped
  case h_1 result pc =>
    cases stepped
    cases result with
    | failed => exact .failed pc
    | datagram message source =>
        have room : source.bytes.take storageSize = source.bytes :=
          List.take_of_length_le source.fits
        unfold recvfrom storeAddress
        simp only [room]
        exact .received pc
  case h_2 beyond s pc =>
    cases stepped
    unfold getnameinfo
    split
    case isTrue zero =>
      cases zero
      exact .named pc
    case isFalse error => exact .unnamed pc error
  case h_3 pc =>
    cases stepped
    exact .replied pc
  case h_4 => cases stepped

end Server
end SocketUdp
end LinuxCPractice
