import LinuxCPractice.SocketTcp.Exchange
import LinuxCPractice.SocketTcp.Descriptors
import Mathlib.Algebra.BigOperators.Group.Finset.Basic

/-!
# The file server and all its clients

`work_as_server` of `socket_tcp.c` with any number of runs of `work_as_client`.
Who has connected waits in the queue of the listening socket, and the server
serves one client after the other.

A call of `recv` blocks while nothing is under way and the other end is open,
and `accept` blocks while the queue is empty. What follows a failed `accept`
does not depend on the clients and is left out here. A client may be killed at
any time.
-/

namespace LinuxCPractice
namespace SocketTcp

/-! ## Data -/

/-- The bytes of a connection that the server and the client have still to take,
and whether the server has closed its end. The client's end is open until it is
done. -/
structure Link where
  request : List UInt8
  reply : List UInt8
  closed : Bool
  deriving DecidableEq

/-- The server closes its end of the link. -/
def Link.close (link : Link) : Link := { link with closed := true }

/-- A client goes on to its next call. -/
def Client.goto (client : Client) (pc : ClientPc) : Client :=
  { client with pc := pc }

@[simp, grind =] theorem Client.goto_pc (client : Client) (pc : ClientPc) :
    (client.goto pc).pc = pc := rfl

/-- The clients and their connections by number. `queue` holds those that wait
for `accept`, `serving` the one behind `client_sock_fd` and `unanswered` those
for which the server has read no line. -/
structure Network where
  server : Server
  clients : Nat → Client
  links : Nat → Option Link
  queue : List Nat
  serving : Option Nat
  unanswered : List Nat

namespace Network

/-- A call of a client or of the server, or the death of a client. -/
inductive Event
  | connect (number : Nat) (succeeds : Bool)
  | clientSend (number : Nat) (result : SendResult)
  | clientRecv (number : Nat) (beyond : List UInt8) (result : RecvResult)
  | killed (number : Nat)
  | accept (fd : Int)
  | server (event : SocketTcp.Event)
  deriving DecidableEq

/-- Whether an event is a call of a process, rather than a signal that kills
one. -/
def Event.isCall : Event → Bool
  | .killed _ => false
  | _ => true

/-- The server at the head of its loop and all clients before `connect`. -/
def start (sfd : Int) (buf : List UInt8)
    (data buffers : Nat → List UInt8) : Network where
  server := .start sfd buf
  clients := fun number => ⟨.connect, data number, buffers number, none⟩
  links := fun _ => none
  queue := []
  serving := none
  unanswered := []

/-- A client after a step of its own. -/
def setClient (network : Network) (number : Nat) (client : Client) : Network :=
  { network with clients := Function.update network.clients number client }

/-- The link of a client after a step. -/
def setLink (network : Network) (number : Nat) (link : Link) : Network :=
  { network with links := Function.update network.links number (some link) }

section Fields

variable (network : Network) (number other : Nat) (client : Client)
  (link : Link)

@[simp, grind =] theorem clients_setClient :
    (network.setClient number client).clients other =
    if other = number then client else network.clients other :=
      Function.update_apply ..

@[simp, grind =] theorem links_setClient :
    (network.setClient number client).links other = network.links other := rfl

@[simp, grind =] theorem server_setClient :
    (network.setClient number client).server = network.server := rfl

@[simp, grind =] theorem queue_setClient :
    (network.setClient number client).queue = network.queue := rfl

@[simp, grind =] theorem serving_setClient :
    (network.setClient number client).serving = network.serving := rfl

@[simp, grind =] theorem links_setLink :
    (network.setLink number link).links other =
    if other = number then some link else network.links other :=
      Function.update_apply ..

@[simp, grind =] theorem clients_setLink :
    (network.setLink number link).clients other = network.clients other := rfl

@[simp, grind =] theorem server_setLink :
    (network.setLink number link).server = network.server := rfl

@[simp, grind =] theorem queue_setLink :
    (network.setLink number link).queue = network.queue := rfl

@[simp, grind =] theorem serving_setLink :
    (network.setLink number link).serving = network.serving := rfl

@[simp, grind =] theorem unanswered_setLink :
    (network.setLink number link).unanswered = network.unanswered := rfl

end Fields

/-! ## Calls of the clients -/

/-- A new connection joins the queue, if the server is there. The outcome of
`connect` is not looked at. -/
def connect (network : Network) (number : Nat)
    (succeeds : Bool) : Option Network :=
  let called := network.setClient number ((network.clients number).goto .send)
  if succeeds then
    if network.server.pc ≠ .exited then
      some { called.setLink number ⟨[], [], false⟩ with
          queue := network.queue ++ [number] }
    else none
  else some called

/-- `send` takes at least one byte, if there is one. -/
def clientSend (network : Network) (number : Nat)
    (result : SendResult) : Option Network :=
  let client := network.clients number
  let called := network.setClient number (client.goto .recv)
  match result with
  | .failed => some called
  | .sent count =>
      (network.links number).bind fun link =>
        if count ≤ CString.strlen client.data ∧
          (count = 0 → CString.strlen client.data = 0) then
          some (called.setLink number
            { link with request := client.data.take count })
        else none

/-- The only `recv` of a client fails when there is no connection or the server
has closed it. It returns no data at the end of the reply. -/
def clientRecv (network : Network) (number : Nat) (beyond : List UInt8)
    (result : RecvResult) :
    Option Network :=
  let client := network.clients number
  match result with
  | .failed =>
      if ∀ link ∈ network.links number, link.closed = true then
        some (network.setClient number { client with
          pc := .done, printed := some (.shown client.buffer 0 beyond) })
      else none
  | .data piece =>
      (network.links number).bind fun link =>
        let buffer := Buffer.overwrite client.buffer piece
        if piece <+: link.reply ∧ piece.length ≤ bufSize ∧
            (piece = [] → link.reply = [] ∧ link.closed = true) then
          some ((network.setClient number { client with
            pc := .done
            buffer := buffer
            printed :=
              some (.shown buffer piece.length beyond) }).setLink number
              { link with reply := link.reply.drop piece.length })
        else none

/-! ## Calls of the server -/

/-- The server takes up the client that has waited longest. -/
def accept (network : Network) (fd : Int) : Option Network :=
  match network.queue with
  | [] => none
  | number :: queue =>
      (network.server.step (.accept (.ok fd))).map fun server =>
        { network with server := server, queue := queue, serving := some number }

/-- The server closes the connection of the client it serves. -/
def hangUp (network : Network) (number : Nat) (link : Link) : Network :=
  { network.setLink number link.close with serving := none }

section HangUp

variable (network : Network) (number other : Nat) (link : Link)

@[simp, grind =] theorem clients_hangUp :
    (network.hangUp number link).clients other = network.clients other := rfl

@[simp, grind =] theorem links_hangUp :
    (network.hangUp number link).links other =
    if other = number then some link.close else network.links other :=
      Function.update_apply ..

@[simp, grind =] theorem queue_hangUp :
    (network.hangUp number link).queue = network.queue := rfl

@[simp, grind =] theorem serving_hangUp :
    (network.hangUp number link).serving = none := rfl

end HangUp

/-- With the server all its connections end. -/
def exit (network : Network) : Network :=
  { network with
    links := fun number => (network.links number).map Link.close
    queue := []
    serving := none }

/-- What a call of the server does to the connection of the client it serves, if
it can return like this. -/
def transfer (network : Network) (number : Nat) (link : Link)
    (event : SocketTcp.Event) :
    Option Network :=
  match event with
  | .accept _ => none
  | .recv _ .failed =>
      if (network.clients number).pc = .done then
        some (network.hangUp number link) else none
  | .recv _ (.data message) =>
      if message <+: link.request ∧
          (message = [] → link.request = [] ∧
            (network.clients number).pc = .done) then
        some (network.setLink number
          { link with request := link.request.drop message.length })
      else none
  | .fopen .failed => some network.exit
  | .fopen (.opened _ _) => some network
  | .fgets result =>
      match network.server.line? result with
      | some _ => some network
      | none => some { network with
          serving := none, unanswered := network.unanswered ++ [number] }
  | .send .failed => some (network.hangUp number link)
  | .send (.sent count) =>
      if 0 < count then
        some { network.setLink number
            { link with
                reply := link.reply ++ network.server.reply.take count } with
          serving := none }
      else none

/-- A call of the server between two calls of `accept`. -/
def serverStep (network : Network) (event : SocketTcp.Event) : Option Network :=
  network.serving.bind fun number =>
    (network.links number).bind fun link =>
      (network.server.step event).bind fun server =>
        (network.transfer number link event).map fun next =>
          { next with server := server }

/-- One step of the network with `count` clients. -/
def step (count : Nat) : Machine Network Event := fun network event =>
  match event with
  | .connect number succeeds =>
      if number < count ∧ (network.clients number).pc = .connect then
        network.connect number succeeds
      else none
  | .clientSend number result =>
      if number < count ∧ (network.clients number).pc = .send then
        network.clientSend number result
      else none
  | .clientRecv number beyond result =>
      if number < count ∧ (network.clients number).pc = .recv then
        network.clientRecv number beyond result
      else none
  | .killed number =>
      if number < count ∧ (network.clients number).pc ≠ .done then
        some (network.setClient number ((network.clients number).goto .done))
      else none
  | .accept fd => network.accept fd
  | .server event => network.serverStep event

end Network
end SocketTcp
end LinuxCPractice
