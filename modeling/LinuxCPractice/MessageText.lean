import LinuxCPractice.SocketTcp.Transition
import LinuxCPractice.SocketUdp.Defs

/-!
# The text printed for a message

Both servers receive a message into a buffer that still holds something else and
print the buffer as a string: the file server the line served before, the
datagram server the messages received before. Neither adds a NUL.
-/

namespace LinuxCPractice

/-! ## The file server -/

namespace SocketTcp

open Server

/-- A message about to be printed is ended in the buffer it is received into. -/
def MessageEnded (server : Server) : Event → Prop
  | .recv _ (.data message) =>
      Print.Ended (Buffer.overwrite server.buf message) message.length
  | _ => True

instance (server : Server) (event : Event) :
    Decidable (MessageEnded server event) := by
  unfold MessageEnded
  split <;> infer_instance

theorem prints_append (first second : List Entry) :
    prints (first ++ second) = prints first ++ prints second :=
  List.filterMap_append

/-- The buffer keeps its size, also when a read error leaves it with other
bytes. -/
theorem length_buf_step {server next : Server} {event : Event}
    (whole : server.buf.length = bufSize)
    (stepped : step server event = some next) :
    next.buf.length = bufSize := by
  cases transition_of_step stepped with
  | received => exact List.length_replicate
  | noLine _ _ left => exact left
  | @line result line _ read =>
      have short : line.length ≤ bufSize - 1 := by
        cases result with
        | done => exact Buffer.length_le_of_fgets read
        | error left => cases read
      have fits : (line ++ [0]).length ≤ server.buf.length := by
        have size : bufSize = 500 := rfl
        rw [List.length_append, List.length_singleton, whole]
        omega
      exact (Buffer.length_overwrite fits).trans whole
  | acceptFailed | accepted | recvFailed | fopenFailed | opened | sendFailed
  | sent => exact whole

/-- A step prints at most the message it receives. -/
theorem prints_step {server next : Server} {event : Event}
    (whole : server.buf.length = bufSize)
    (stepped : step server event = some next) :
    (∀ print ∈ prints next.log, print.Faithful bufSize) ↔
      (∀ print ∈ prints server.log, print.Faithful bufSize) ∧
        MessageEnded server event := by
  cases transition_of_step stepped with
  | @received beyond message pc connected fits =>
      have filled := Buffer.length_overwrite (whole ▸ fits)
      have room : message.length ≤
          (Buffer.overwrite server.buf message).length := by omega
      have shown := Print.faithful_shown_iff beyond room
      rw [filled, whole] at shown
      have printed : prints [.recv server.clientSockFd (.data message),
          .print (.shown
            (Buffer.overwrite server.buf message) message.length beyond)] =
        [.shown (Buffer.overwrite server.buf message) message.length beyond] :=
          rfl
      simp only [record, prints_append, printed, List.forall_mem_append,
        List.forall_mem_singleton, shown, MessageEnded]
  | acceptFailed | accepted | recvFailed | opened | noLine | sendFailed
  | sent =>
      simp [record, prints, Entry.print?, List.filterMap_cons, MessageEnded]
  | fopenFailed | line => simp [MessageEnded]

end SocketTcp

/-! ## The datagram server -/

namespace SocketUdp

open Server

/-- A message about to be printed is ended in the buffer. -/
def MessageEnded (server : Server) : Event → Prop
  | .getnameinfo _ s => s = 0 → Print.Ended server.buf server.nread
  | _ => True

instance (server : Server) (event : Event) :
    Decidable (MessageEnded server event) := by
  unfold MessageEnded
  split <;> infer_instance

theorem prints_append (first second : List Entry) :
    prints (first ++ second) = prints first ++ prints second :=
  List.filterMap_append

/-- The buffer keeps its size and `recvfrom` fills no more of it. -/
def Filled (server : Server) : Prop :=
  server.buf.length = bufSize ∧ server.nread ≤ bufSize

/-- The buffer keeps its size. -/
theorem Filled.step {server next : Server} {event : Event}
    (filled : Filled server)
    (stepped : step server event = some next) : Filled next := by
  cases transition_of_step stepped with
  | @received message source pc =>
      have fits : (message.take bufSize).length ≤ bufSize :=
        List.length_take_le _ _
      exact ⟨(Buffer.length_overwrite (filled.1 ▸ fits)).trans filled.1, fits⟩
  | failed | named | unnamed | replied => exact filled

/-- A step prints at most the message received last. -/
theorem prints_step {server next : Server} {event : Event}
    (filled : Filled server)
    (stepped : step server event = some next) :
    (∀ print ∈ prints next.log, print.Faithful bufSize) ↔
      (∀ print ∈ prints server.log, print.Faithful bufSize) ∧
        MessageEnded server event := by
  cases transition_of_step stepped with
  | @named beyond pc =>
      have shown := Print.faithful_shown_iff beyond (filled.1 ▸ filled.2)
      rw [filled.1] at shown
      have printed : prints [.print (.shown server.buf server.nread beyond)] =
        [.shown server.buf server.nread beyond] := rfl
      simp only [record, prints_append, printed, List.forall_mem_append,
        List.forall_mem_singleton, shown, MessageEnded, forall_const]
  | unnamed pc error => simp [MessageEnded, error]
  | failed | received | replied =>
      simp [record, prints, Entry.print?, List.filterMap_cons, MessageEnded]

end SocketUdp

/-! ## Both servers -/

/-- A run of one of the servers from what its buffer holds at first. -/
inductive ServerRun
  | tcp (sfd : Int) (buf : List UInt8) (events : List SocketTcp.Event)
  | udp (peerAddr buf : List UInt8) (events : List SocketUdp.Event)

namespace ServerRun

/-- What the buffer of 500 bytes holds at first. -/
def buf : ServerRun → List UInt8
  | .tcp _ buf _ => buf
  | .udp _ buf _ => buf

/-- The messages of the run with what was printed for them, if the run is
possible. -/
def prints : ServerRun → Option (List Print)
  | .tcp sfd buf events =>
      (SocketTcp.Server.step.run (.start sfd buf) events).map
        (SocketTcp.prints ·.log)
  | .udp peerAddr buf events =>
      (SocketUdp.Server.step.run (.start peerAddr buf) events).map
        (SocketUdp.prints ·.log)

/-- Every message printed is ended in the buffer. -/
def MessagesEnded : ServerRun → Prop
  | .tcp sfd buf events =>
      SocketTcp.Server.step.EveryStep SocketTcp.MessageEnded
        (.start sfd buf) events
  | .udp peerAddr buf events =>
      SocketUdp.Server.step.EveryStep SocketUdp.MessageEnded
        (.start peerAddr buf) events

instance decidableMessagesEnded : ∀ run : ServerRun, Decidable run.MessagesEnded
  | .tcp sfd buf events =>
      inferInstanceAs (Decidable
        (SocketTcp.Server.step.EveryStep SocketTcp.MessageEnded
          (.start sfd buf) events))
  | .udp peerAddr buf events =>
      inferInstanceAs (Decidable
        (SocketUdp.Server.step.EveryStep SocketUdp.MessageEnded
          (.start peerAddr buf) events))

/-- Everything printed is faithful exactly if all messages are ended. -/
theorem faithful_iff {run : ServerRun} {prints : List Print}
    (whole : run.buf.length = 500)
    (ran : run.prints = some prints) :
    (∀ print ∈ prints, print.Faithful 500) ↔ run.MessagesEnded := by
  cases run with
  | tcp sfd buf events =>
      obtain ⟨final, ranEvents, rfl⟩ := Option.map_eq_some_iff.mp ran
      have throughout := Machine.run_iff_everyStep
        (fun server => server.buf.length = SocketTcp.bufSize)
        (fun _ _ _ => SocketTcp.length_buf_step)
        (fun _ _ _ => SocketTcp.prints_step)
        whole ranEvents
      exact throughout.trans (and_iff_right (List.forall_mem_nil _))
  | udp peerAddr buf events =>
      obtain ⟨final, ranEvents, rfl⟩ := Option.map_eq_some_iff.mp ran
      have throughout := Machine.run_iff_everyStep SocketUdp.Filled
        (fun _ _ _ stepped filled => stepped.step filled)
        (fun _ _ _ => SocketUdp.prints_step)
        ⟨whole, Nat.zero_le _⟩ ranEvents
      exact throughout.trans (and_iff_right (List.forall_mem_nil _))

/-- Every text printed is that of its message alone, read inside the buffer of
500 bytes, exactly when every message printed is ended in the buffer. Two such
runs print the same text for the same message. -/
theorem faithful_iff_messagesEnded {run : ServerRun} {prints : List Print}
    (whole : run.buf.length = 500) (ran : run.prints = some prints) :
    ((∀ print ∈ prints, print.Faithful 500) ↔ run.MessagesEnded) ∧
      ∀ {other : ServerRun} {otherPrints : List Print}, other.buf.length = 500 →
        other.prints = some otherPrints → run.MessagesEnded →
        other.MessagesEnded →
        ∀ {k : Nat} {first second : Print}, prints[k]? = some first →
          otherPrints[k]? = some second → first.message = second.message →
          first.text = second.text := by
  refine ⟨faithful_iff whole ran, ?_⟩
  intro other otherPrints otherWhole otherRan ended otherEnded k first second
    atFirst atSecond
  have ofFirst :=
    (faithful_iff whole ran).mpr ended first (List.mem_of_getElem? atFirst)
  have ofSecond := (faithful_iff otherWhole otherRan).mpr otherEnded second
    (List.mem_of_getElem? atSecond)
  exact ofFirst.text_eq ofSecond

/-- Two datagrams of decreasing length, the second one with its NUL. -/
def endedMessages (source : SocketUdp.Address) : ServerRun :=
  .udp [] (List.replicate 500 7)
    [.recvfrom (.datagram [104, 101, 108, 108, 111, 0] source),
      .getnameinfo [] 0,
      .sendto (.sent 7), .recvfrom (.datagram [104, 105, 0] source),
      .getnameinfo [] 0]

/-- A client that ends its messages with a NUL. -/
theorem faithful_iff_messagesEnded_endedMessages :
    ∃ prints, (endedMessages ⟨[10], by decide⟩).prints = some prints ∧
      ∀ print ∈ prints, print.Faithful 500 := by
  have reached : (endedMessages ⟨[10], by decide⟩).prints.isSome =
      true := by decide
  obtain ⟨prints, ran⟩ := Option.isSome_iff_exists.mp reached
  have whole : (endedMessages ⟨[10], by decide⟩).buf.length = 500 :=
    List.length_replicate
  exact ⟨prints, ran, (faithful_iff_messagesEnded whole ran).1.mpr (by decide)⟩

/-- A datagram of the given bytes and then one of two bytes, without a NUL. -/
def secondMessage (earlier : List UInt8)
    (source : SocketUdp.Address) : ServerRun :=
  .udp [] (List.replicate 500 0)
    [.recvfrom (.datagram earlier source), .getnameinfo [] 0, .sendto (.sent 7),
      .recvfrom (.datagram [104, 105] source), .getnameinfo [] 0]

/-- After `hello`, what is printed for `hi` is `hillo`; after nothing it is
`hi`. -/
theorem not_faithful_secondMessage :
    ∃ prints otherPrints first second,
      (secondMessage [104, 101, 108, 108, 111] ⟨[10], by decide⟩).prints =
        some prints ∧
      (secondMessage [] ⟨[10], by decide⟩).prints = some otherPrints ∧
      prints[1]? = some first ∧ otherPrints[1]? = some second ∧
      first.message = second.message ∧ first.text ≠ second.text ∧
      ¬∀ print ∈ prints, print.Faithful 500 := by
  have reached :
      (secondMessage [104, 101, 108, 108, 111] ⟨[10], by decide⟩).prints =
      some [⟨[104, 101, 108, 108, 111], [104, 101, 108, 108, 111], 6⟩,
        ⟨[104, 105], [104, 105, 108, 108, 111], 6⟩] := by decide
  have alsoReached : (secondMessage [] ⟨[10], by decide⟩).prints =
      some [⟨[], [], 1⟩, ⟨[104, 105], [104, 105], 3⟩] := by decide
  exact ⟨_, _, _, _, reached, alsoReached, rfl, rfl, rfl, by decide, by decide⟩

end ServerRun

end LinuxCPractice
