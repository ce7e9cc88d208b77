import LinuxCPractice.PollSocket.Pass
import Mathlib.Logic.Function.Basic

/-!
# The server among its clients

The kernel keeps the queue of the listening socket, the bytes that have arrived
on each connection and the mode of each descriptor. It decides which outcomes a
call of the server can have. Clients connect, write, close and reset at any
time.

Connections are numbered in the order in which they arrive; the queue holds
those from `taken` up to `arrived`.
-/

namespace LinuxCPractice
namespace PollSocket

/-- What a client has done with its end of a connection. -/
inductive Peer
  | present
  | closed
  | reset
  deriving DecidableEq

/-- The kernel's side of a connection. -/
structure Link where
  inbox : List UInt8
  peer : Peer
  deriving DecidableEq

/-- What the kernel knows: how many connections have arrived and how many of
them were accepted, the connections, which one is behind a descriptor, and the
modes of the descriptors. -/
structure Kernel where
  arrived : Nat
  taken : Nat
  links : Nat → Link
  linkOf : Int → Nat
  nonblocking : Int → Bool

/-- What a client does with its end of a connection. -/
inductive ClientAct
  | write (bytes : List UInt8)
  | close
  | reset
  deriving DecidableEq

/-- The connection after the client has acted on it. -/
def ClientAct.apply (link : Link) : ClientAct → Link
  | .write bytes => { link with inbox := link.inbox ++ bytes }
  | .close => { link with peer := .closed }
  | .reset => { link with peer := .reset }

namespace Kernel

/-- No connection has arrived and every new socket is in blocking mode. -/
def start : Kernel where
  arrived := 0
  taken := 0
  links := fun _ => ⟨[], .present⟩
  linkOf := fun _ => 0
  nonblocking := fun _ => false

/-- The connection behind a descriptor. -/
def link (kernel : Kernel) (fd : Int) : Link := kernel.links (kernel.linkOf fd)

/-- A call on the descriptor would return at once. -/
def readable (kernel : Kernel) (listenSd fd : Int) : Bool :=
  if fd = listenSd then kernel.taken < kernel.arrived
  else (kernel.link fd).inbox ≠ [] ∨ (kernel.link fd).peer ≠ .present

/-- The outcomes `recv` can have. On an open connection without data a blocking
descriptor has none. -/
def permitsRecv (kernel : Kernel) (fd : Int) : RecvResult → Bool
  | .data chunk => chunk.isPrefixOf (kernel.link fd).inbox
  | .endOfStream =>
      (kernel.link fd).inbox = [] ∧ (kernel.link fd).peer ≠ .present
  | .wouldBlock =>
      kernel.nonblocking fd ∧ (kernel.link fd).inbox = [] ∧
        (kernel.link fd).peer = .present
  | .failed => (kernel.link fd).peer = .reset

/-- The outcomes the calls of the server can have. -/
def permits (kernel : Kernel) (server : Server) : Event → Bool
  | .poll (.ready revents) =>
      (polled server revents).all fun entry =>
        entry.2 &&& pollIn ≠ 0 ↔ kernel.readable server.listenSd entry.1
  | .accept (.ok _) => kernel.taken < kernel.arrived
  | .accept .wouldBlock =>
      kernel.nonblocking server.listenSd ∧ kernel.arrived ≤ kernel.taken
  | .recv result =>
      server.fds[server.i]?.all fun entry => kernel.permitsRecv entry.fd result
  | .send _ .killed =>
      server.fds[server.i]?.all fun entry => (kernel.link entry.fd).peer ≠
        .present
  | _ => true

/-- The kernel after a call of the server. `FIONBIO` makes the listening socket
nonblocking. An accepted socket does not inherit this: `accept` returns it in
blocking mode. -/
def after (kernel : Kernel) (server : Server) : Event → Kernel
  | .setup rc =>
      if server.pc = .setup .ioctl ∧ 0 ≤ rc then
        { kernel with
            nonblocking :=
              Function.update kernel.nonblocking server.listenSd true }
      else kernel
  | .accept (.ok fd) =>
      { kernel with
        taken := kernel.taken + 1
        linkOf := Function.update kernel.linkOf fd kernel.taken
        nonblocking := Function.update kernel.nonblocking fd false }
  | .recv (.data chunk) =>
      match server.fds[server.i]? with
      | none => kernel
      | some entry =>
          { kernel with
            links := Function.update kernel.links (kernel.linkOf entry.fd)
              { kernel.link entry.fd with
                inbox := (kernel.link entry.fd).inbox.drop chunk.length } }
  | _ => kernel

end Kernel

/-- The server and the kernel. -/
structure Network where
  server : Server
  kernel : Kernel

namespace Network

/-- A step of the server, an arriving connection or an act of a client. -/
inductive Event
  | server (event : PollSocket.Event)
  | connect
  | client (client : Nat) (act : ClientAct)
  deriving DecidableEq

/-- The event as the server sees it. -/
def Event.ofServer : Event → Option PollSocket.Event
  | .server event => some event
  | _ => none

/-- The server before its first call and a kernel without connections. -/
def start : Network := ⟨Server.start, Kernel.start⟩

/-- One step of the server or of a client. -/
def step : Machine Network Event := fun network event =>
  match event with
  | .server event =>
      if network.kernel.permits network.server event then
        (Server.step network.server event).map fun server =>
          ⟨server, network.kernel.after network.server event⟩
      else none
  | .connect =>
      some { network with
        kernel :=
          { network.kernel with arrived := network.kernel.arrived + 1 } }
  | .client client act =>
      if client < network.kernel.arrived ∧
        (network.kernel.links client).peer = .present then
        some { network with
          kernel := { network.kernel with
            links := Function.update network.kernel.links client
              (act.apply (network.kernel.links client)) } }
      else none

/-- All steps of the network. -/
inductive Moves (network : Network) : Event → Network → Prop
  | server {event server}
      (permitted : network.kernel.permits network.server event = true)
      (stepped : Server.step network.server event = some server) :
      Moves network (.server event) ⟨server,
        network.kernel.after network.server event⟩
  | connect :
      Moves network .connect
        { network with
          kernel :=
            { network.kernel with arrived := network.kernel.arrived + 1 } }
  | client {client act} (arrived : client < network.kernel.arrived)
      (present : (network.kernel.links client).peer = .present) :
      Moves network (.client client act)
        { network with
          kernel := { network.kernel with
            links := Function.update network.kernel.links client
              (act.apply (network.kernel.links client)) } }

theorem step_moves {network next : Network} {event : Event}
    (stepped : step network event = some next) : Moves network event next := by
  cases event with
  | server event =>
      rw [step] at stepped
      split at stepped
      · rename_i permitted
        obtain ⟨server, serverStepped, rfl⟩ := Option.map_eq_some_iff.mp stepped
        exact .server permitted serverStepped
      · cases stepped
  | connect =>
      cases stepped
      exact .connect
  | client client act =>
      rw [step] at stepped
      split at stepped
      · rename_i allowed
        cases stepped
        exact .client allowed.1 allowed.2
      · cases stepped

/-- The events of the server are those of the network. -/
theorem mem_filterMap_ofServer {events : List Event}
    {event : PollSocket.Event} :
    event ∈ events.filterMap Event.ofServer ↔ .server event ∈ events := by
  rw [List.mem_filterMap]
  constructor
  · rintro ⟨other, present, labelled⟩
    cases other <;> cases labelled
    exact present
  · intro present
    exact ⟨.server event, present, rfl⟩

/-- A run of the network is a run of its server. -/
theorem run_server {network next : Network} {events : List Event}
    (ran : step.run network events = some next) :
    Server.step.run network.server (events.filterMap Event.ofServer) =
      some next.server := by
  refine Machine.run_component Network.server Event.ofServer ?_ ?_ ran
  · intro network event next move stepped labelled
    cases step_moves stepped with
    | server _ serverStepped =>
        cases labelled
        exact serverStepped
    | connect | client => cases labelled
  · intro network event next stepped labelled
    cases step_moves stepped with
    | server => cases labelled
    | connect | client => rfl

/-- The events of one pass of the server and what the clients do meanwhile. -/
structure Pass (network : Network) (revents : List (BitVec 16))
    (rest : List Event)
    (next : Network) : Prop where
  single : ∀ event ∈ rest.filterMap Event.ofServer, event.isPoll = false
  ran : step.run network (.server (.poll (.ready revents)) :: rest) = some next

/-- A pass of the network is a pass of its server. -/
theorem Pass.server {network next : Network} {revents : List (BitVec 16)}
    {rest : List Event}
    (pass : Pass network revents rest next) :
    PollSocket.Pass network.server revents
      (rest.filterMap Event.ofServer) next.server :=
  ⟨pass.single, run_server pass.ran⟩

end Network
end PollSocket
end LinuxCPractice
