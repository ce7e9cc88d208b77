import LinuxCPractice.SocketTcp.Defs

/-!
# What one step of the file server can do

The ways out of an iteration are a failed `recv`, a failed `fopen`, a call of
`fgets` that returns `NULL`, a failed `send` and a reply that was sent.
-/

namespace LinuxCPractice
namespace SocketTcp

open Server

/-- All steps of the loop. -/
inductive Transition (server : Server) : Event → Server → Prop
  | acceptFailed (pc : server.pc = .accept) :
      Transition server (.accept .failed)
        { server.record [.accept server.sfd .failed, .close server.sfd] with
          clientSockFd := -1, pc := .recv }
  | accepted {fd} (pc : server.pc = .accept)
      (listening : server.sfd ∈ Use.held (uses server.log))
      (fresh : server.Fresh fd) :
      Transition server (.accept (.ok fd))
        { server.record [.accept server.sfd (.ok fd)] with clientSockFd := fd, pc := .recv }
  | recvFailed {beyond} (pc : server.pc = .recv) :
      Transition server (.recv beyond .failed)
        { server.record [.recv server.clientSockFd .failed,
          .close server.clientSockFd] with
          pc := .accept }
  | received {beyond message} (pc : server.pc = .recv)
      (connected : server.clientSockFd ∈ Use.held (uses server.log))
      (fits : message.length ≤ bufSize) :
      Transition server (.recv beyond (.data message))
        { server.record [.recv server.clientSockFd (.data message),
            .print (.shown
              (Buffer.overwrite server.buf message) message.length beyond)] with
          buf := List.replicate bufSize 0, pc := .fopen }
  | fopenFailed (pc : server.pc = .fopen) :
      Transition server (.fopen .failed) { server with pc := .exited }
  | opened {fd content} (pc : server.pc = .fopen) (fresh : server.Fresh fd) :
      Transition server (.fopen (.opened fd content))
        { server.record [.fopen fd] with fs := fd, content := content, pc := .fgets }
  | noLine {result} (pc : server.pc = .fgets)
      (null : server.line? result = none)
      (whole : (server.leftBy result).length = bufSize) :
      Transition server (.fgets result)
        { server.record [.fclose server.fs] with buf := server.leftBy result, pc := .accept }
  | line {result line} (pc : server.pc = .fgets) (read : server.line? result = some line) :
      Transition server (.fgets result)
        { server with buf := Buffer.overwrite server.buf (line ++ [0]), pc := .send }
  | sendFailed (pc : server.pc = .send) :
      Transition server (.send .failed)
        { server.record [.send server.clientSockFd server.reply .failed,
            .close server.clientSockFd, .fclose server.fs] with pc := .accept }
  | sent {count} (pc : server.pc = .send)
      (connected : server.clientSockFd ∈ Use.held (uses server.log))
      (taken : count ≤ server.reply.length) :
      Transition server (.send (.sent count))
        { server.record [.send server.clientSockFd server.reply (.sent count),
            .fclose server.fs] with pc := .accept }

theorem transition_of_accept {server next : Server} {result : AcceptResult}
    (pc : server.pc = .accept) (stepped : server.accept result = some next) :
    Transition server (.accept result) next := by
  cases result with
  | failed =>
      cases stepped
      exact .acceptFailed pc
  | ok fd =>
      obtain ⟨⟨listening, fresh⟩, equal⟩ := Option.ite_none_right_eq_some.mp stepped
      cases equal
      exact .accepted pc listening fresh

theorem transition_of_recv {server next : Server} {beyond : List UInt8} {result : RecvResult}
    (pc : server.pc = .recv) (stepped : server.recv beyond result = some next) :
    Transition server (.recv beyond result) next := by
  cases result with
  | failed =>
      cases stepped
      exact .recvFailed pc
  | data message =>
      obtain ⟨⟨connected, fits⟩, equal⟩ := Option.ite_none_right_eq_some.mp stepped
      cases equal
      exact .received pc connected fits

theorem transition_of_fopen {server next : Server} {result : FopenResult}
    (pc : server.pc = .fopen) (stepped : server.fopen result = some next) :
    Transition server (.fopen result) next := by
  cases result with
  | failed =>
      cases stepped
      exact .fopenFailed pc
  | opened fd content =>
      obtain ⟨fresh, equal⟩ := Option.ite_none_right_eq_some.mp stepped
      cases equal
      exact .opened pc fresh

theorem transition_of_fgets {server next : Server} {result : FgetsResult}
    (pc : server.pc = .fgets) (stepped : server.fgets result = some next) :
    Transition server (.fgets result) next := by
  unfold Server.fgets at stepped
  cases read : server.line? result with
  | some line =>
      rw [read] at stepped
      cases stepped
      exact .line pc read
  | none =>
      rw [read] at stepped
      obtain ⟨whole, equal⟩ := Option.ite_none_right_eq_some.mp stepped
      cases equal
      exact .noLine pc read whole

theorem transition_of_send {server next : Server} {result : SendResult}
    (pc : server.pc = .send) (stepped : server.send result = some next) :
    Transition server (.send result) next := by
  cases result with
  | failed =>
      have transition := Transition.sendFailed pc
      simp only [Server.send, record, List.append_assoc, List.cons_append,
        List.nil_append, Option.some.injEq] at stepped
      rw [← stepped]
      exact transition
  | sent count =>
      obtain ⟨⟨connected, taken⟩, equal⟩ := Option.ite_none_right_eq_some.mp stepped
      have transition := Transition.sent pc connected taken
      simp only [record, List.append_assoc, List.cons_append, List.nil_append,
        Option.some.injEq] at equal
      rw [← equal]
      exact transition

/-- Every step is one of the transitions. -/
theorem transition_of_step {server next : Server} {event : Event}
    (stepped : step server event = some next) :
    Transition server event next := by
  unfold step at stepped
  split at stepped
  case h_1 pc => exact transition_of_accept pc stepped
  case h_2 pc => exact transition_of_recv pc stepped
  case h_3 pc => exact transition_of_fopen pc stepped
  case h_4 pc => exact transition_of_fgets pc stepped
  case h_5 pc => exact transition_of_send pc stepped
  case h_6 => cases stepped

end SocketTcp
end LinuxCPractice
