import LinuxCPractice.PollSocket.Compaction

/-!
# What one step of the server can do

The transitions list every possible outcome of a step together with the branch
conditions that lead to it. The invariants of the later modules are proved by
cases on them and never unfold the step function.
-/

namespace LinuxCPractice
namespace PollSocket

open Server

/-- The call that follows in the preparation of the listening socket. -/
def Setup.next : Setup → Option Setup
  | .socket => some .setsockopt
  | .setsockopt => some .ioctl
  | .ioctl => some .bind
  | .bind => some .listen
  | .listen => none

/-- The server after closing the connection of its current entry. -/
def Server.closeEntry (server : Server) (inside : server.i < 32) : Server :=
  { server.record (.close server.fds[server.i].fd) with
    closeConn := true
    fds := server.fds.set server.i { server.fds[server.i] with fd := -1 }
    i := server.i + 1
    pc := .scan }

/-- All steps of the server. -/
inductive Transition (server : Server) : Event → Server → Prop
  | socketFailed {rc} (pc : server.pc = .setup .socket) (negative : rc < 0) :
      Transition server (.setup rc) { server with pc := .exited 1 }
  | socketOpened {rc} (pc : server.pc = .setup .socket) (opened : 0 ≤ rc) :
      Transition server (.setup rc)
        { server.record (.socket rc) with listenSd := rc, pc := .setup .setsockopt }
  | setupFailed {call rc} (pc : server.pc = .setup call)
      (later : call ≠ .socket)
      (negative : rc < 0) :
      Transition server (.setup rc)
        { server.record (.close server.listenSd) with pc := .exited (-1) }
  | setupContinued {call next rc} (pc : server.pc = .setup call)
      (later : call ≠ .socket)
      (follows : call.next = some next) (nonneg : 0 ≤ rc) :
      Transition server (.setup rc) { server with pc := .setup next }
  | listening {rc} (pc : server.pc = .setup .listen) (nonneg : 0 ≤ rc) :
      Transition server (.setup rc) server.prepareTable
  | pollFailed (pc : server.pc = .poll) :
      Transition server (.poll .failed)
        { server.record (.poll (descriptors server.fds server.nfds) .failed)
          with pc := .out }
  | pollReady {revents} (pc : server.pc = .poll)
      (whole : revents.length = server.nfds) :
      Transition server (.poll (.ready revents))
        { server.record (.poll (descriptors server.fds server.nfds)
          (.ready revents)) with
          fds := storeRevents server.fds revents
          currentSize := server.nfds
          i := 0
          pc := .scan }
  | scanned (pc : server.pc = .scan) (done : server.currentSize ≤ server.i) :
      Transition server .internal { server with pc := .optimize }
  | scanOutside (pc : server.pc = .scan) (more : server.i < server.currentSize)
      (outside : 32 ≤ server.i) :
      Transition server .internal { server with pc := .fault (.read server.i) }
  | scanSkip (pc : server.pc = .scan) (more : server.i < server.currentSize)
      (inside : server.i < 32) (quiet : server.fds[server.i].revents ≠ pollIn) :
      Transition server .internal { server with i := server.i + 1 }
  | scanListening (pc : server.pc = .scan)
      (more : server.i < server.currentSize)
      (inside : server.i < 32) (ready : server.fds[server.i].revents = pollIn)
      (listening : server.fds[server.i].fd = server.listenSd) :
      Transition server .internal { server with pc := .accept }
  | scanReadable (pc : server.pc = .scan) (more : server.i < server.currentSize)
      (inside : server.i < 32) (ready : server.fds[server.i].revents = pollIn)
      (connection : server.fds[server.i].fd ≠ server.listenSd) :
      Transition server .internal
        { server.record (.readable server.fds[server.i].fd) with
            closeConn := false, pc := .recv }
  | acceptSkipped (pc : server.pc = .accept) (blocked : server.newSd = -1) :
      Transition server .internal { server with i := server.i + 1, pc := .scan }
  | acceptFailed (pc : server.pc = .accept) (open_ : server.newSd ≠ -1) :
      Transition server (.accept .failed)
        { server.record (.accept .failed) with newSd := -1, pc := .out }
  | acceptWouldBlock (pc : server.pc = .accept) (open_ : server.newSd ≠ -1) :
      Transition server (.accept .wouldBlock)
        { server.record (.accept .wouldBlock) with
          newSd := -1, i := server.i + 1, pc := .scan }
  | accepted {fd} (pc : server.pc = .accept) (open_ : server.newSd ≠ -1)
      (nonneg : 0 ≤ fd)
      (free : fd ∉ Use.held (uses server.log)) (inside : server.nfds < 32) :
      Transition server (.accept (.ok fd))
        { server.record (.accept (.ok fd)) with
          newSd := fd
          fds := server.fds.set server.nfds
            { server.fds[server.nfds] with fd := fd, events := pollIn }
          nfds := server.nfds + 1 }
  | acceptOutside {fd} (pc : server.pc = .accept) (open_ : server.newSd ≠ -1)
      (nonneg : 0 ≤ fd)
      (free : fd ∉ Use.held (uses server.log)) (outside : 32 ≤ server.nfds) :
      Transition server (.accept (.ok fd))
        { server.record (.accept (.ok fd)) with
          newSd := fd, pc := .fault (.write server.nfds) }
  | recvOutside {result} (pc : server.pc = .recv) (outside : 32 ≤ server.i) :
      Transition server (.recv result)
        { server with pc := .fault (.read server.i) }
  | received {chunk} (pc : server.pc = .recv) (inside : server.i < 32)
      (nonempty : 1 ≤ chunk.length) (fits : chunk.length ≤ 64) :
      Transition server (.recv (.data chunk))
        { server.record (.recv server.fds[server.i].fd (.data chunk)) with
          buffer := chunk ++ List.replicate (64 - chunk.length) 0
          pc := .send }
  | recvWouldBlock (pc : server.pc = .recv) (inside : server.i < 32)
      (kept : server.closeConn = false) :
      Transition server (.recv .wouldBlock)
        { server.record (.recv server.fds[server.i].fd .wouldBlock) with
          i := server.i + 1, pc := .scan }
  | recvClosed {result} (pc : server.pc = .recv) (inside : server.i < 32)
      (ends : result = .endOfStream ∨ result = .failed ∨
        result = .wouldBlock ∧ server.closeConn = true) :
      Transition server (.recv result)
        ((server.record (.recv server.fds[server.i].fd result)).closeEntry
          inside)
  | sendOutside {beyond result} (pc : server.pc = .send)
      (outside : 32 ≤ server.i) :
      Transition server (.send beyond result)
        { server with pc := .fault (.read server.i) }
  | sent {beyond count} (pc : server.pc = .send) (inside : server.i < 32)
      (fits : count ≤ (message server.buffer beyond).length) :
      Transition server (.send beyond (.sent count))
        { server.record
            (.send server.fds[server.i].fd (message server.buffer beyond)
              (.sent count)) with
          pc := .recv }
  | sendFailed {beyond} (pc : server.pc = .send) (inside : server.i < 32) :
      Transition server (.send beyond .failed)
        ((server.record
          (.send server.fds[server.i].fd (message server.buffer beyond)
            .failed)).closeEntry inside)
  | sendKilled {beyond} (pc : server.pc = .send) (inside : server.i < 32) :
      Transition server (.send beyond .killed)
        { server.record
            (.send server.fds[server.i].fd
              (message server.buffer beyond) .killed) with
          pc := .killed }
  | optimized {fds nfds} (pc : server.pc = .optimize)
      (result : compact server.fds 0 server.nfds = .ok (fds, nfds)) :
      Transition server .internal { server with fds := fds, nfds := nfds, pc := .poll }
  | optimizeOutside {access} (pc : server.pc = .optimize)
      (result : compact server.fds 0 server.nfds = .error access) :
      Transition server .internal { server with pc := .fault access }
  | left (pc : server.pc = .out) :
      Transition server .internal server.out

/-! ## The step function takes only these transitions -/

private theorem setup_transition {server : Server} {call : Setup} {rc : Int}
    (pc : server.pc = .setup call) :
    Transition server (.setup rc) (server.setup call rc) := by
  cases call with
  | socket =>
      by_cases negative : rc < 0
      · simpa [setup, negative] using Transition.socketFailed pc negative
      · simpa [setup, negative] using Transition.socketOpened pc (by omega)
  | setsockopt | ioctl | bind =>
      by_cases negative : rc < 0
      · simpa [setup, configure, negative] using
          Transition.setupFailed pc (by simp) negative
      · simpa [setup, configure, negative] using
          Transition.setupContinued pc (by simp) rfl (by omega)
  | listen =>
      by_cases negative : rc < 0
      · simpa [setup, configure, negative] using
          Transition.setupFailed pc (by simp) negative
      · simpa [setup, configure, negative] using
          Transition.listening pc (by omega)

private theorem poll_transition {server next : Server} {result : PollResult}
    (pc : server.pc = .poll) (stepped : server.poll result = some next) :
    Transition server (.poll result) next := by
  cases result with
  | failed =>
      cases stepped
      exact .pollFailed pc
  | ready revents =>
      by_cases whole : revents.length = server.nfds
      · simp only [poll, whole, if_true, Option.some.injEq] at stepped
        subst next
        exact .pollReady pc whole
      · simp [poll, whole] at stepped

private theorem scan_transition {server : Server} (pc : server.pc = .scan) :
    Transition server .internal server.scan := by
  by_cases done : server.currentSize ≤ server.i
  · simpa [scan, done] using Transition.scanned pc done
  · have more : server.i < server.currentSize := by omega
    by_cases inside : server.i < 32
    · by_cases ready : server.fds[server.i].revents = pollIn
      · by_cases listening : server.fds[server.i].fd = server.listenSd
        · simpa [scan, done, inside, ready, listening] using
            Transition.scanListening pc more inside ready listening
        · simpa [scan, done, inside, ready, listening] using
            Transition.scanReadable pc more inside ready listening
      · simpa [scan, done, inside, ready] using Transition.scanSkip pc more inside ready
    · simpa [scan, done, inside] using Transition.scanOutside pc more (by omega)

private theorem accept_transition {server next : Server} {result : AcceptResult}
    (pc : server.pc = .accept) (open_ : server.newSd ≠ -1)
    (stepped : server.accept result = some next) :
    Transition server (.accept result) next := by
  cases result with
  | failed =>
      cases stepped
      exact .acceptFailed pc open_
  | wouldBlock =>
      cases stepped
      exact .acceptWouldBlock pc open_
  | ok fd =>
      by_cases allowed : 0 ≤ fd ∧ fd ∉ Use.held (uses server.log)
      · by_cases inside : server.nfds < 32
        · simp only [accept, if_pos allowed, append] at stepped
          rw [dif_pos (by exact inside)] at stepped
          cases stepped
          exact .accepted pc open_ allowed.1 allowed.2 inside
        · simp only [accept, if_pos allowed, append] at stepped
          rw [dif_neg (by exact inside)] at stepped
          cases stepped
          exact .acceptOutside pc open_ allowed.1 allowed.2 (by omega)
      · simp only [accept, if_neg allowed] at stepped
        cases stepped

/-- A connection that is to be closed is closed at its end. -/
theorem endConnection_of_closeConn (server : Server)
    (closes : server.closeConn = true)
    (inside : server.i < 32) :
    server.endConnection = server.closeEntry inside := by
  simp [endConnection, closes, inside, closeEntry, nextEntry, record]

/-- Any other connection stays open. -/
theorem endConnection_of_not_closeConn (server : Server)
    (keeps : server.closeConn = false) :
    server.endConnection = server.nextEntry := by
  simp [endConnection, keeps]

private theorem recv_transition {server next : Server} {result : RecvResult}
    (pc : server.pc = .recv) (stepped : server.recv result = some next) :
    Transition server (.recv result) next := by
  by_cases inside : server.i < 32
  · have entry : server.fds[server.i]? = some server.fds[server.i] := by
      simp [inside]
    simp only [recv, entry] at stepped
    cases result with
    | failed =>
        obtain rfl := (Option.some.inj stepped).symm.trans
          (endConnection_of_closeConn { server.record _ with closeConn := true } rfl inside)
        exact .recvClosed pc inside (by simp)
    | endOfStream =>
        obtain rfl := (Option.some.inj stepped).symm.trans
          (endConnection_of_closeConn { server.record _ with closeConn := true } rfl inside)
        exact .recvClosed pc inside (by simp)
    | wouldBlock =>
        cases closes : server.closeConn with
        | false =>
            obtain rfl := (Option.some.inj stepped).symm.trans
              (endConnection_of_not_closeConn (server.record _) closes)
            exact .recvWouldBlock pc inside closes
        | true =>
            obtain rfl := (Option.some.inj stepped).symm.trans
              (endConnection_of_closeConn (server.record _) closes inside)
            exact .recvClosed pc inside (by simp [closes])
    | data chunk =>
        by_cases fits : 1 ≤ chunk.length ∧ chunk.length ≤ 64
        · simp only [fits, and_self, if_true, Option.some.injEq] at stepped
          subst next
          exact .received pc inside fits.1 fits.2
        · simp [fits] at stepped
  · have entry : server.fds[server.i]? = none := by simp; omega
    simp only [recv, entry, Option.some.injEq] at stepped
    subst next
    exact .recvOutside pc (by omega)

private theorem send_transition {server next : Server} {beyond : List UInt8}
    {result : SendResult} (pc : server.pc = .send)
    (stepped : server.send beyond result = some next) :
    Transition server (.send beyond result) next := by
  by_cases inside : server.i < 32
  · have entry : server.fds[server.i]? = some server.fds[server.i] := by
      simp [inside]
    simp only [send, entry] at stepped
    cases result with
    | failed =>
        obtain rfl := (Option.some.inj stepped).symm.trans
          (endConnection_of_closeConn { server.record _ with closeConn := true } rfl inside)
        exact .sendFailed pc inside
    | killed =>
        cases stepped
        exact .sendKilled pc inside
    | sent count =>
        by_cases fits : count ≤ (message server.buffer beyond).length
        · simp only [fits, if_true, Option.some.injEq] at stepped
          subst next
          exact .sent pc inside fits
        · simp [fits] at stepped
  · have entry : server.fds[server.i]? = none := by simp; omega
    simp only [send, entry, Option.some.injEq] at stepped
    subst next
    exact .sendOutside pc (by omega)

private theorem optimize_transition {server : Server}
    (pc : server.pc = .optimize) :
    Transition server .internal server.optimize := by
  cases result : compact server.fds 0 server.nfds with
  | error access =>
      simpa [optimize, result] using Transition.optimizeOutside pc result
  | ok compacted => simpa [optimize, result] using Transition.optimized pc result

/-- Every step is one of the listed transitions. -/
theorem step_transition {server next : Server} {event : Event}
    (stepped : step server event = some next) : Transition server event next := by
  unfold step at stepped
  split at stepped
  · rename_i pc
    cases stepped
    exact setup_transition pc
  · rename_i pc
    exact poll_transition pc stepped
  · rename_i pc
    cases stepped
    exact scan_transition pc
  · rename_i pc
    split at stepped
    · rename_i blocked
      cases stepped
      exact .acceptSkipped pc blocked
    · cases stepped
  · rename_i pc
    split at stepped
    · cases stepped
    · rename_i open_
      exact accept_transition pc open_ stepped
  · rename_i pc
    exact recv_transition pc stepped
  · rename_i pc
    exact send_transition pc stepped
  · rename_i pc
    cases stepped
    exact optimize_transition pc
  · rename_i pc
    cases stepped
    exact .left pc
  · cases stepped

end PollSocket
end LinuxCPractice
