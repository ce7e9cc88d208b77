import LinuxCPractice.SocketTcp.Transition

/-!
# One client of the file server

`work_as_client` of `socket_tcp.c` from its `connect` on, next to a server that
may serve other clients before and after it. The two are joined by a connection
with a stream of bytes in each direction; `recv` takes any nonempty piece from
the front of a stream.

The client receives once and prints what it has as a string. The reply is the
line that the server has read from the file, with a NUL behind it.
-/

namespace LinuxCPractice
namespace SocketTcp

/-- The call at which the client stands. -/
inductive ClientPc
  | connect
  | send
  | recv
  | done
  deriving DecidableEq

/-- The variables of `work_as_client`, and what it has printed. -/
structure Client where
  pc : ClientPc
  data : List UInt8
  buffer : List UInt8
  printed : Option Print
  deriving DecidableEq

/-- What has become of the client's connection at the server, which may take
up another one when it comes back to `accept`. -/
inductive Connection
  | none
  | pending
  | serving
  | served
  deriving DecidableEq

/-- The server, the client and the bytes under way between them. `line` is what
`fgets` has read for this client. -/
structure Exchange where
  server : Server
  client : Client
  connection : Connection
  request : List UInt8
  reply : List UInt8
  line : Option (List UInt8)
  deriving DecidableEq

/-- A call of the client or of the server. `accepts` takes up the connection of
this client, the server's own `accept` that of another one. -/
inductive Exchange.Event
  | connect (succeeds : Bool)
  | clientSend (result : SendResult)
  | clientRecv (beyond : List UInt8) (result : RecvResult)
  | accepts (fd : Int)
  | server (event : SocketTcp.Event)
  deriving DecidableEq

namespace Exchange

/-- The server at the head of its loop and the client before `connect`. -/
def start (sfd : Int) (buf data buffer : List UInt8) : Exchange where
  server := .start sfd buf
  client := ⟨.connect, data, buffer, none⟩
  connection := .none
  request := []
  reply := []
  line := none

/-- The outcome of `connect` is not looked at. -/
def connect (exchange : Exchange) (succeeds : Bool) : Exchange :=
  { exchange with
    client := { exchange.client with pc := .send }
    connection := if succeeds then .pending else .none }

/-- A failed `send` is reported and the client goes on. -/
def clientSend (exchange : Exchange) (result : SendResult) : Option Exchange :=
  let called := { exchange with client := { exchange.client with pc := .recv } }
  match result with
  | .failed => some called
  | .sent count =>
      if exchange.connection ≠ .none ∧
        count ≤ CString.strlen exchange.client.data then
        some { called with request := exchange.client.data.take count }
      else none

/-- The client receives once and prints its buffer. Without data the server has
closed the connection or `recv` has failed. -/
def clientRecv (exchange : Exchange) (beyond : List UInt8)
    (result : RecvResult) :
    Option Exchange :=
  let client := exchange.client
  match result with
  | .failed => some { exchange with
      client := { client with pc := .done, printed := some (.shown client.buffer 0 beyond) } }
  | .data piece =>
      let buffer := Buffer.overwrite client.buffer piece
      if piece <+: exchange.reply ∧ piece.length ≤ bufSize ∧
        exchange.connection ≠ .none then
        some { exchange with
          client := { client with
            pc := .done
            buffer := buffer
            printed := some (.shown buffer piece.length beyond) }
          reply := exchange.reply.drop piece.length }
      else none

/-- What a call of the server that serves this client does to the connection. -/
def transfer (exchange : Exchange)
    (event : SocketTcp.Event) : Option Exchange :=
  match event with
  | .accept _ => some { exchange with connection := .served }
  | .recv _ (.data message) =>
      if message <+: exchange.request then
        some { exchange with request := exchange.request.drop message.length }
      else none
  | .fgets result => some { exchange with line := exchange.server.line? result }
  | .send (.sent count) => some { exchange with
      reply := exchange.reply ++ exchange.server.reply.take count }
  | _ => some exchange

/-- A call of the server, which may move bytes while it serves the client. -/
def serverStep (exchange : Exchange)
    (event : SocketTcp.Event) : Option Exchange :=
  (exchange.server.step event).bind fun server =>
    (if exchange.connection = .serving then exchange.transfer event
      else some exchange).map
      fun exchange => { exchange with server := server }

/-- The server takes up this client's connection. -/
def accepts (exchange : Exchange) (fd : Int) : Option Exchange :=
  if exchange.connection = .pending then
    (exchange.server.step (.accept (.ok fd))).map fun server =>
      { exchange with server := server, connection := .serving }
  else none

/-- One step of the exchange. -/
def step : Machine Exchange Event := fun exchange event =>
  match exchange.client.pc, event with
  | .connect, .connect succeeds => some (exchange.connect succeeds)
  | .send, .clientSend result => exchange.clientSend result
  | .recv, .clientRecv beyond result => exchange.clientRecv beyond result
  | _, .accepts fd => exchange.accepts fd
  | _, .server event => exchange.serverStep event
  | _, _ => none

end Exchange
end SocketTcp
end LinuxCPractice
