import LinuxCPractice.Channel
import LinuxCPractice.SocketUdp.Replies

/-!
# Requests and replies from end to end

What the clients obtain, compared with what they and everyone else have sent.
Between the two lie the loss of datagrams in both directions, a `sendto` of the
server that fails, and any order of arrival. The server itself neither loses nor
invents nor repeats anything.
-/

namespace LinuxCPractice
namespace SocketUdp

open List Channel

/-! ## What was sent and what arrived -/

/-- The datagram that the server has received in a call. -/
def Entry.datagram? : Entry → Option (Address × List UInt8)
  | .recvfrom (.datagram message source) => some (source, message)
  | _ => none

/-- The reply that the server has tried to send in a call. -/
def Entry.reply? : Entry → Option (List UInt8 × List UInt8)
  | .sendto destination message _ => some (destination, message)
  | _ => none

/-- The datagrams that the server has received, in order. -/
def received (log : List Entry) : List (Address × List UInt8) :=
  log.filterMap Entry.datagram?

/-- The replies that the server has tried to send, in order. -/
def replies (log : List Entry) : List (List UInt8 × List UInt8) :=
  log.filterMap Entry.reply?

/-- The reply that a datagram is due. -/
def answer (request : Address × List UInt8) : List UInt8 × List UInt8 :=
  (request.1.bytes, selam2)

/-- The reply that the server is about to send. -/
def Server.inHand (server : Server) : List (List UInt8 × List UInt8) :=
  if server.pc = .recvfrom then [] else [(server.destination, selam2)]

namespace Network

/-- The datagram that an event sends to the server. -/
def Event.request? (address : Nat → Address) :
    Event → Option (Address × List UInt8)
  | .clientSendto client true => some (address client, selam)
  | .foreign source message => some (source, message)
  | _ => none

/-- The reply that a client obtains in an event. -/
def Event.obtained? (address : Nat → Address) :
    Event → Option (List UInt8 × List UInt8)
  | .clientRecvfrom client (some message) =>
      some ((address client).bytes, message)
  | _ => none

/-- A datagram is lost on its way, or the server cannot send its reply. -/
def Event.loses : Event → Bool
  | .loseRequest _ | .loseReply _ | .server (.sendto .failed) => true
  | _ => false

/-- All datagrams that were sent to the server. -/
def requested (address : Nat → Address) (events : List Event) :
    List (Address × List UInt8) :=
  events.filterMap (Event.request? address)

/-- All replies that the clients have obtained. -/
def obtained (address : Nat → Address) (events : List Event) :
    List (List UInt8 × List UInt8) :=
  events.filterMap (Event.obtained? address)

variable {address : Nat → Address}

theorem requested_concat (past : List Event) (event : Event) :
    requested address (past ++ [event]) =
      requested address past ++ (event.request? address).toList := by
  unfold requested
  rw [filterMap_append]
  cases found : event.request? address <;> simp [found]

theorem obtained_concat (past : List Event) (event : Event) :
    obtained address (past ++ [event]) =
      obtained address past ++ (event.obtained? address).toList := by
  unfold obtained
  rw [filterMap_append]
  cases found : event.obtained? address <;> simp [found]

end Network

theorem received_append (first second : List Entry) :
    received (first ++ second) = received first ++ received second :=
  filterMap_append

theorem replies_append (first second : List Entry) :
    replies (first ++ second) = replies first ++ replies second :=
  filterMap_append

/-! ## The server -/

namespace Server

/-- Every datagram received is answered, in the order of arrival, except for the
one whose reply is still to come. -/
def Repaying (server : Server) : Prop :=
  (received server.log).map answer = replies server.log ++ server.inHand

/-- Every step keeps the replies to be those due. -/
theorem Repaying.step {server next : Server} {event : Event}
    (repaying : Repaying server)
    (stepped : step server event = some next) : Repaying next := by
  unfold Repaying inHand at repaying ⊢
  cases transition_of_step stepped with
  | failed pc =>
      rw [if_pos pc] at repaying
      have nothing : received [.recvfrom .failed] = [] := rfl
      have noReply : replies [.recvfrom .failed] = [] := rfl
      simp [record, received_append, replies_append, nothing, noReply, pc,
        repaying]
  | @received message source pc =>
      rw [if_pos pc] at repaying
      have now : SocketUdp.received [.recvfrom (.datagram message source)] =
        [(source, message)] := rfl
      have noReply : replies [.recvfrom (.datagram message source)] = [] := rfl
      simp [record, received_append, replies_append, now, noReply, repaying,
        destination, answer]
  | @named beyond pc =>
      have busy : server.pc ≠ .recvfrom := by simp [pc]
      rw [if_neg busy] at repaying
      have nothing : ∀ shown, received [.print shown] = [] := fun _ => rfl
      have noReply : ∀ shown, replies [.print shown] = [] := fun _ => rfl
      simp [record, received_append, replies_append, nothing, noReply, repaying,
        destination]
  | unnamed pc =>
      have busy : server.pc ≠ .recvfrom := by simp [pc]
      rw [if_neg busy] at repaying
      simpa [destination] using repaying
  | @replied result pc =>
      have busy : server.pc ≠ .recvfrom := by simp [pc]
      rw [if_neg busy] at repaying
      have nothing : received [.sendto server.destination selam2 result] =
          [] := rfl
      have reply : replies [.sendto server.destination selam2 result] =
          [(server.destination, selam2)] := rfl
      simp [record, received_append, replies_append, nothing, reply, repaying]

end Server

/-! ## The two ways -/

namespace Network

variable {address : Nat → Address} {network next : Network} {event : Event}

/-- What a call of the server does to the datagrams in flight. -/
inductive ServerTransition (network : Network) :
    SocketUdp.Event → Network → Prop
  | took {message source server}
      (arrives : (source, message) ∈ network.requests)
      (log : server.log =
        network.server.log ++ [.recvfrom (.datagram message source)]) :
      ServerTransition network (.recvfrom (.datagram message source))
        { network with
          server := server
          requests := network.requests.erase (source, message) }
  | replied {count server}
      (log : server.log = network.server.log ++
        [.sendto network.server.destination selam2 (.sent count)]) :
      ServerTransition network (.sendto (.sent count))
        { network with
          server := server
          replies := (network.server.destination, selam2) :: network.replies }
  | unsent {server}
      (log : server.log = network.server.log ++
        [.sendto network.server.destination selam2 .failed]) :
      ServerTransition network (.sendto .failed)
        { network with server := server }
  | quiet {call server} (keeps : (Event.server call).loses = false)
      (sameReceived : received server.log = received network.server.log)
      (sameReplies : SocketUdp.replies server.log =
        SocketUdp.replies network.server.log) :
      ServerTransition network call { network with server := server }

theorem transition_of_serverStep {call : SocketUdp.Event}
    (stepped : network.serverStep call = some next) :
    ServerTransition network call next := by
  obtain ⟨server, serverStepped, rest⟩ := Option.bind_eq_some_iff.mp stepped
  cases Server.transition_of_step serverStepped with
  | failed pc =>
      cases rest
      exact .quiet rfl (by simp [Server.record, received]; rfl)
        (by simp [Server.record, SocketUdp.replies]; rfl)
  | received pc =>
      obtain ⟨arrives, equal⟩ := Option.ite_none_right_eq_some.mp rest
      cases equal
      exact .took arrives rfl
  | named pc =>
      cases rest
      exact .quiet rfl (by simp [Server.record, received]; rfl)
        (by simp [Server.record, SocketUdp.replies]; rfl)
  | unnamed pc =>
      cases rest
      exact .quiet rfl rfl rfl
  | @replied result pc =>
      cases result with
      | sent count =>
          cases rest
          exact .replied rfl
      | failed =>
          cases rest
          exact .unsent rfl

/-- The way from the clients to the server. -/
theorem requests_accounted {past : List Event}
    {lost : List (Address × List UInt8)}
    (accounted : Accounted (requested address past) network.requests
      (received network.server.log) lost)
    (stepped : step address network event = some next) :
    ∃ lostNext, Accounted (requested address (past ++ [event])) next.requests
        (received next.server.log) lostNext ∧
          (event.loses = false → lostNext = lost) := by
  rw [requested_concat]
  cases event with
  | clientSendto client succeeds =>
      obtain ⟨_, equal⟩ := Option.ite_none_right_eq_some.mp stepped
      cases equal
      cases succeeds with
      | true => exact ⟨lost, accounted.send, fun _ => rfl⟩
      | false =>
          exact ⟨lost, by simpa [clientSendto, Event.request?] using accounted,
            fun _ => rfl⟩
  | clientRecvfrom client message =>
      obtain ⟨_, obtains⟩ := Option.ite_none_right_eq_some.mp stepped
      refine ⟨lost, ?_, fun _ => rfl⟩
      cases message with
      | none =>
          cases obtains
          simpa [Event.request?] using accounted
      | some message =>
          obtain ⟨_, equal⟩ := Option.ite_none_right_eq_some.mp obtains
          cases equal
          simpa [Event.request?] using accounted
  | foreign source message =>
      cases stepped
      exact ⟨lost, accounted.send, fun _ => rfl⟩
  | loseRequest request =>
      cases stepped
      by_cases travels : request ∈ network.requests
      case pos =>
        exact ⟨request :: lost,
          by simpa [Event.request?] using accounted.lose travels,
          fun keeps => nomatch keeps⟩
      case neg =>
        exact ⟨lost,
          by simpa [Event.request?, erase_of_not_mem travels] using accounted,
          fun keeps => nomatch keeps⟩
  | loseReply reply =>
      cases stepped
      exact ⟨lost, by simpa [Event.request?] using accounted,
        fun keeps => nomatch keeps⟩
  | server call =>
      refine ⟨lost, ?_, fun _ => rfl⟩
      rw [show Event.request? address (.server call) = none from rfl,
        Option.toList_none, append_nil]
      cases transition_of_serverStep stepped with
      | took arrives log =>
          simp only [log, received_append]
          exact accounted.deliver arrives
      | replied log | unsent log =>
          simp only [log, received_append]
          exact (append_nil (received network.server.log)).symm ▸ accounted
      | quiet keeps sameReceived sameReplies =>
          simp only [sameReceived]
          exact accounted

/-- The way from the server to the clients. -/
theorem replies_accounted {past : List Event}
    {lost : List (List UInt8 × List UInt8)}
    (accounted : Accounted
      (SocketUdp.replies network.server.log) network.replies
      (obtained address past) lost)
    (stepped : step address network event = some next) :
    ∃ lostNext, Accounted (SocketUdp.replies next.server.log) next.replies
        (obtained address (past ++ [event])) lostNext ∧
      (event.loses = false → lostNext = lost) := by
  rw [obtained_concat]
  cases event with
  | clientSendto client succeeds =>
      obtain ⟨_, equal⟩ := Option.ite_none_right_eq_some.mp stepped
      cases equal
      exact ⟨lost, by simpa [clientSendto, Event.obtained?] using accounted,
        fun _ => rfl⟩
  | clientRecvfrom client message =>
      obtain ⟨_, obtains⟩ := Option.ite_none_right_eq_some.mp stepped
      refine ⟨lost, ?_, fun _ => rfl⟩
      cases message with
      | none =>
          cases obtains
          simpa [Event.obtained?] using accounted
      | some message =>
          obtain ⟨travels, equal⟩ := Option.ite_none_right_eq_some.mp obtains
          cases equal
          exact accounted.deliver travels
  | foreign source message | loseRequest request =>
      cases stepped
      refine ⟨lost, by simpa [Event.obtained?] using accounted, fun _ => rfl⟩
  | loseReply reply =>
      cases stepped
      by_cases travels : reply ∈ network.replies
      case pos =>
        exact ⟨reply :: lost,
          by simpa [Event.obtained?] using accounted.lose travels,
          fun keeps => nomatch keeps⟩
      case neg =>
        exact ⟨lost,
          by simpa [Event.obtained?, erase_of_not_mem travels] using accounted,
          fun keeps => nomatch keeps⟩
  | server call =>
      rw [show Event.obtained? address (.server call) = none from rfl,
        Option.toList_none, append_nil]
      cases transition_of_serverStep stepped with
      | took arrives log =>
          refine ⟨lost, ?_, fun _ => rfl⟩
          simp only [log, replies_append]
          exact (append_nil (SocketUdp.replies network.server.log)).symm ▸
            accounted
      | replied log =>
          refine ⟨lost, ?_, fun _ => rfl⟩
          simp only [log, replies_append]
          exact accounted.send
      | unsent log =>
          refine ⟨(network.server.destination, selam2) :: lost, ?_,
            fun keeps => nomatch keeps⟩
          simp only [log, replies_append]
          exact accounted.drop
      | quiet keeps sameReceived sameReplies =>
          refine ⟨lost, ?_, fun _ => rfl⟩
          simp only [sameReplies]
          exact accounted

/-! ## From end to end -/

/-- Nothing was lost and every reply of the server could be sent. -/
def Lossless (events : List Event) : Prop :=
  ∀ event ∈ events, event.loses = false

/-- The accounts of both ways and of the server between them. -/
structure Exchanged (address : Nat → Address) (past : List Event)
    (network : Network) : Prop where
  repaying : network.server.Repaying
  requests : ∃ lost, Accounted (requested address past) network.requests
    (received network.server.log) lost ∧ (Lossless past → lost = [])
  replies :
    ∃ lost, Accounted (SocketUdp.replies network.server.log) network.replies
    (obtained address past) lost ∧ (Lossless past → lost = [])

/-- In every run requests and replies are accounted for. -/
theorem exchanged_of_run {peerAddr buf : List UInt8} {events : List Event}
    (ran : (step address).run (.start peerAddr buf) events = some network) :
    Exchanged address events network := by
  refine Machine.run_invariant_past (Exchanged address) ?_ ?_ ran
  · exact ⟨rfl, ⟨[], .nil, fun _ => rfl⟩, ⟨[], .nil, fun _ => rfl⟩⟩
  · intro past before event after _ exchanged stepped
    obtain ⟨lostRequests, requestsAccounted, noRequestLost⟩ :=
      exchanged.requests
    obtain ⟨lostReplies, repliesAccounted, noReplyLost⟩ := exchanged.replies
    obtain ⟨nextRequests, requestsNext, sameRequests⟩ :=
      requests_accounted requestsAccounted stepped
    obtain ⟨nextReplies, repliesNext, sameReplies⟩ :=
      replies_accounted repliesAccounted stepped
    refine ⟨?_, ⟨nextRequests, requestsNext, ?_⟩,
      ⟨nextReplies, repliesNext, ?_⟩⟩
    · rcases server_of_step stepped with ⟨call, _, serverStepped⟩ | same
      · exact exchanged.repaying.step serverStepped
      · exact same ▸ exchanged.repaying
    · intro lossless
      have earlier : Lossless past := fun event member =>
        lossless event (by simp [member])
      rw [sameRequests (lossless event (by simp)), noRequestLost earlier]
    · intro lossless
      have earlier : Lossless past := fun event member =>
        lossless event (by simp [member])
      rw [sameReplies (lossless event (by simp)), noReplyLost earlier]

/-- The replies that the clients have obtained are among those that the
datagrams sent are due, each as often: none without a datagram, none twice, none
to another address and none with another text. Where nothing is lost, every
datagram sent is on its way, in the hands of the server or answered, and every
answer is on its way or obtained. -/
theorem run_exchange {peerAddr buf : List UInt8} {events : List Event}
    (ran : (step address).run (.start peerAddr buf) events = some network) :
    obtained address events <+~ (requested address events).map answer ∧
      (Lossless events →
        (requested address events).map answer ~
          network.requests.map answer ++ network.server.inHand ++
            network.replies ++
            obtained address events) := by
  obtain ⟨repaying, ⟨lostRequests, requestsAccounted, noRequestLost⟩,
    ⟨lostReplies, repliesAccounted, noReplyLost⟩⟩ := exchanged_of_run ran
  have sentReplies : SocketUdp.replies network.server.log <+~
      (received network.server.log).map answer := by
    rw [repaying]
    exact (sublist_append_left _ _).subperm
  constructor
  · refine repliesAccounted.delivered_subperm.trans (sentReplies.trans ?_)
    exact subperm_map answer requestsAccounted.delivered_subperm
  · intro lossless
    cases noRequestLost lossless
    cases noReplyLost lossless
    unfold Accounted at requestsAccounted repliesAccounted
    rw [append_nil] at requestsAccounted repliesAccounted
    calc (requested address events).map answer
        ~ (network.requests ++ received network.server.log).map answer :=
          requestsAccounted.map answer
      _ ~ network.requests.map answer ++
            (SocketUdp.replies network.server.log ++
              network.server.inHand) := by
          rw [map_append, repaying]
      _ ~ network.requests.map answer ++
            (network.server.inHand ++ SocketUdp.replies network.server.log) :=
          perm_append_comm.append_left _
      _ ~ network.requests.map answer ++
            (network.server.inHand ++
              (network.replies ++ obtained address events)) :=
          (repliesAccounted.append_left _).append_left _
      _ ~ network.requests.map answer ++ network.server.inHand ++
        network.replies ++
            obtained address events := by simp only [append_assoc]; rfl

/-- Both clients have sent, and the reply to the second one has arrived. -/
def oneObtained : List Event :=
  [.clientSendto 0 true, .clientSendto 1 true,
    .server (.recvfrom (.datagram selam (twoAddresses 1))),
    .server (.getnameinfo [] 0),
    .server (.sendto (.sent 7)), .clientRecvfrom 1 (some selam2),
    .server (.recvfrom (.datagram selam (twoAddresses 0)))]

/-- One of two clients has obtained its reply. -/
theorem run_exchange_oneObtained :
    ∃ network,
      (step twoAddresses).run (.start [] []) oneObtained = some network ∧
      (requested twoAddresses oneObtained).map answer ~
        network.requests.map answer ++ network.server.inHand ++
          network.replies ++
          [([1], selam2)] := by
  have reached :
      ((step twoAddresses).run (.start [] []) oneObtained).isSome := by decide
  obtain ⟨network, ran⟩ := Option.isSome_iff_exists.mp reached
  exact ⟨network, ran, (run_exchange ran).2 (by unfold Lossless; decide)⟩

end Network
end SocketUdp
end LinuxCPractice
