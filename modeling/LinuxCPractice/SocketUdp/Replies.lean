import LinuxCPractice.SocketUdp.Defs

/-!
# Replies to datagrams

The server with any number of clients and with datagrams in flight, which may be
lost and may arrive in any order. Each datagram that the server receives is
answered by one reply to the address it came from, in the order of their
arrival.
-/

namespace LinuxCPractice
namespace SocketUdp

/-! ## The network -/

/-- The call at which `work_as_client` stands. -/
inductive ClientPc
  | sendto
  | recvfrom
  | done
  deriving DecidableEq

/-- `"selam"` with its NUL. -/
def selam : List UInt8 := [115, 101, 108, 97, 109, 0]

/-- The server, the clients by number, and the datagrams in flight: requests
with their source, replies with the bytes of their destination. -/
structure Network where
  server : Server
  clients : Nat → ClientPc
  requests : List (Address × List UInt8)
  replies : List (List UInt8 × List UInt8)

/-- A call of a client or of the server, a datagram that someone else sends to
the server, or the loss of a datagram. -/
inductive Network.Event
  | clientSendto (client : Nat) (succeeds : Bool)
  | clientRecvfrom (client : Nat) (message : Option (List UInt8))
  | foreign (source : Address) (message : List UInt8)
  | loseRequest (request : Address × List UInt8)
  | loseReply (reply : List UInt8 × List UInt8)
  | server (event : SocketUdp.Event)
  deriving DecidableEq

namespace Network

/-- Nothing was sent yet. -/
def start (peerAddr buf : List UInt8) : Network where
  server := .start peerAddr buf
  clients := fun _ => .sendto
  requests := []
  replies := []

/-- A failed `sendto` is reported and the client goes on. -/
def clientSendto (address : Nat → Address) (network : Network) (client : Nat)
    (succeeds : Bool) : Network :=
  { network with
    clients := Function.update network.clients client .recvfrom
    requests :=
      if succeeds then (address client, selam) :: network.requests
      else network.requests }

/-- A client takes any reply addressed to it. `recvfrom` may also fail. -/
def clientRecvfrom (address : Nat → Address) (network : Network) (client : Nat)
    (message : Option (List UInt8)) : Option Network :=
  let called :=
    { network with clients := Function.update network.clients client .done }
  match message with
  | none => some called
  | some message =>
      if ((address client).bytes, message) ∈ network.replies then
        some { called with replies := network.replies.erase ((address client).bytes, message) }
      else none

/-- The server takes any request in flight. -/
def serverStep (network : Network) (event : SocketUdp.Event) : Option Network :=
  (network.server.step event).bind fun server =>
    match event with
    | .recvfrom (.datagram message source) =>
        if (source, message) ∈ network.requests then
          some { network with
            server := server
            requests := network.requests.erase (source, message) }
        else none
    | .sendto (.sent _) => some { network with
        server := server
        replies := (network.server.destination, selam2) :: network.replies }
    | _ => some { network with server := server }

/-- One step of the network, in which client `i` is bound to `address i`. -/
def step (address : Nat → Address) :
    Machine Network Event := fun network event =>
  match event with
  | .clientSendto client succeeds =>
      if network.clients client = .sendto then
        some (clientSendto address network client succeeds)
      else none
  | .clientRecvfrom client message =>
      if network.clients client = .recvfrom then
        clientRecvfrom address network client message
      else none
  | .foreign source message =>
      some { network with requests := (source, message) :: network.requests }
  | .loseRequest request =>
      some { network with requests := network.requests.erase request }
  | .loseReply reply =>
      some { network with replies := network.replies.erase reply }
  | .server event => network.serverStep event

theorem server_of_serverStep {network next : Network} {event : SocketUdp.Event}
    (stepped : network.serverStep event = some next) :
    network.server.step event = some next.server := by
  obtain ⟨server, serverStepped, rest⟩ := Option.bind_eq_some_iff.mp stepped
  split at rest
  case h_1 =>
    obtain ⟨_, equal⟩ := Option.ite_none_right_eq_some.mp rest
    cases equal
    exact serverStepped
  case h_2 | h_3 =>
    cases rest
    exact serverStepped

/-- What the network does to the server. -/
theorem server_of_step {address : Nat → Address} {network next : Network}
    {event : Event}
    (stepped : step address network event = some next) :
    (∃ call, event = .server call ∧ network.server.step call = some next.server) ∨
      next.server = network.server := by
  cases event with
  | clientSendto client succeeds =>
      obtain ⟨_, equal⟩ := Option.ite_none_right_eq_some.mp stepped
      cases equal
      exact .inr rfl
  | clientRecvfrom client message =>
      obtain ⟨_, received⟩ := Option.ite_none_right_eq_some.mp stepped
      cases message with
      | none =>
          cases received
          exact .inr rfl
      | some message =>
          obtain ⟨_, equal⟩ := Option.ite_none_right_eq_some.mp received
          cases equal
          exact .inr rfl
  | foreign | loseRequest | loseReply =>
      cases stepped
      exact .inr rfl
  | server call => exact .inl ⟨call, rfl, server_of_serverStep stepped⟩

end Network

/-! ## One reply for each datagram -/

open Server

theorem sources_append (first second : List Entry) :
    sources (first ++ second) = sources first ++ sources second :=
  List.filterMap_append

theorem destinations_append (first second : List Entry) :
    destinations (first ++ second) =
      destinations first ++ destinations second :=
  List.filterMap_append

/-- At the head of the loop every datagram received has been answered. Inside
the loop one has not, and its source is the address that `sendto` will take. -/
def Answering (server : Server) : Prop :=
  sources server.log = destinations server.log ++
    if server.pc = .recvfrom then [] else [server.destination]

/-- Every step keeps the answers in step with the datagrams. -/
theorem Answering.step {server next : Server} {event : Event}
    (answering : Answering server)
    (stepped : step server event = some next) : Answering next := by
  unfold Answering at answering ⊢
  cases transition_of_step stepped with
  | failed pc =>
      rw [if_pos pc] at answering
      have nothing : sources [.recvfrom .failed] = [] := rfl
      have noReply : destinations [.recvfrom .failed] = [] := rfl
      simp [record, sources_append, destinations_append, nothing, noReply, pc,
        answering]
  | @received message source pc =>
      rw [if_pos pc] at answering
      have now : sources [.recvfrom (.datagram message source)] =
          [source.bytes] := rfl
      have noReply : destinations [.recvfrom (.datagram message source)] =
          [] := rfl
      simp [record, sources_append, destinations_append, now, noReply,
        answering, destination]
  | @named beyond pc =>
      have open_ : server.pc ≠ .recvfrom := by simp [pc]
      rw [if_neg open_] at answering
      have nothing : ∀ shown, sources [.print shown] = [] := fun _ => rfl
      have noReply : ∀ shown, destinations [.print shown] = [] := fun _ => rfl
      simp [record, sources_append, destinations_append, nothing, noReply,
        answering, destination]
  | unnamed pc =>
      have open_ : server.pc ≠ .recvfrom := by simp [pc]
      rw [if_neg open_] at answering
      simpa [destination] using answering
  | @replied result pc =>
      have open_ : server.pc ≠ .recvfrom := by simp [pc]
      rw [if_neg open_] at answering
      have nothing : sources [.sendto server.destination selam2 result] =
          [] := rfl
      have reply : destinations [.sendto server.destination selam2 result] =
          [server.destination] := rfl
      simp [record, sources_append, destinations_append, nothing, reply,
        answering]

/-- Datagrams that the server has received from an address. -/
def receivedFrom (address : Address) (log : List Entry) : Nat :=
  (sources log).count address.bytes

/-- Replies that the server has addressed to an address. -/
def repliesTo (address : Address) (log : List Entry) : Nat :=
  (destinations log).count address.bytes

/-- At the head of the loop the replies addressed to any address are as many as
the datagrams received from it, and a failed `recvfrom` causes none. -/
theorem repliesTo_eq_receivedFrom {address : Nat → Address}
    {peerAddr buf : List UInt8}
    {events : List Network.Event} {network : Network}
    (ran : (Network.step address).run (.start peerAddr buf) events =
      some network)
    (head : network.server.pc = .recvfrom) (peer : Address) :
    repliesTo peer network.server.log = receivedFrom peer network.server.log ∧
      ∀ next, Network.step address network (.server (.recvfrom .failed)) =
        some next →
        next.server.pc = .recvfrom ∧ next.replies = network.replies ∧
          destinations next.server.log = destinations network.server.log := by
  have answering : Answering network.server := by
    refine Machine.run_invariant
      (fun network => Answering network.server) ?_ ?_ ran
    · intro before event after answering stepped
      rcases Network.server_of_step stepped with ⟨call, _, serverStepped⟩ | same
      · exact answering.step serverStepped
      · exact same ▸ answering
    · simp [Answering, Network.start, Server.start, sources, destinations]
  unfold Answering at answering
  rw [if_pos head, List.append_nil] at answering
  refine ⟨by rw [repliesTo, receivedFrom, answering], ?_⟩
  intro next stepped
  obtain ⟨server, serverStepped, equal⟩ := Option.bind_eq_some_iff.mp stepped
  cases equal
  cases transition_of_step serverStepped with
  | failed =>
      refine ⟨head, rfl, ?_⟩
      rw [record, destinations_append, show destinations [.recvfrom .failed] =
        [] from rfl,
        List.append_nil]

/-- Two clients, of which the second one is served first, and a failed
`recvfrom` in between. -/
def twoClients : List Network.Event :=
  [.clientSendto 0 true, .clientSendto 1 true,
    .server (.recvfrom (.datagram selam ⟨[1], by decide⟩)),
    .server (.getnameinfo [] 0),
    .server (.sendto (.sent 7)), .server (.recvfrom .failed),
    .server (.recvfrom (.datagram selam ⟨[0, 0], by decide⟩)),
    .server (.getnameinfo [] (-6)), .server (.sendto .failed)]

/-- Addresses of different lengths. -/
def twoAddresses (client : Nat) : Address :=
  if client = 0 then ⟨[0, 0], by decide⟩ else ⟨[1], by decide⟩

/-- Two clients send a datagram each. -/
theorem repliesTo_eq_receivedFrom_twoClients :
    ∃ network,
      (Network.step twoAddresses).run (.start [] []) twoClients = some network ∧
      receivedFrom ⟨[1], by decide⟩ network.server.log = 1 ∧
      repliesTo ⟨[1], by decide⟩ network.server.log = 1 := by
  have reached : ((Network.step twoAddresses).run (.start [] []) twoClients).map
      (fun network => (network.server.pc, sources network.server.log)) =
        some (.recvfrom, [[1], [0, 0]]) := by decide
  obtain ⟨network, ran, values⟩ := Option.map_eq_some_iff.mp reached
  obtain ⟨head, received⟩ := Prod.mk.inj values
  have count : receivedFrom ⟨[1], by decide⟩ network.server.log = 1 := by
    rw [receivedFrom, received]
    decide
  have same := (repliesTo_eq_receivedFrom ran head ⟨[1], by decide⟩).1
  exact ⟨network, ran, count, same.trans count⟩

end SocketUdp
end LinuxCPractice
