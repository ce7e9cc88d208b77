import LinuxCPractice.PollSocket.Echo

/-!
# The calls of the server as a protocol

What an echo server that polls may ask of the kernel, said without table, marks
and positions: it waits for all that is open, looks after what is reported in
the order in which it was reported, answers what it has received to whoever has
sent it, closes a connection at its end and at last everything. The calls of
every run of `main` follow it.
-/

namespace LinuxCPractice
namespace PollSocket

open Server

/-! ## The protocol -/

/-- What a protocol is about at the moment. `ready` are the descriptors reported
and not yet looked after, `left` those that are still to be closed. -/
inductive Phase
  | closed
  | preparing
  | looking (ready : List Int)
  | reading (fd : Int) (ready : List Int)
  | replying (fd : Int) (chunk : List UInt8) (ready : List Int)
  | dropping (fd : Int) (ready : List Int)
  | leaving (left : List Int)
  | killed
  deriving DecidableEq

/-- The listening socket and the open connections in the order they were
accepted. -/
structure Pool where
  listening : Int
  connections : List Int
  phase : Phase
  deriving DecidableEq

/-- The descriptors that a call of `poll` reports exactly as readable. -/
def reported (given : List Int) (revents : List (BitVec 16)) : List Int :=
  ((given.zip revents).filter fun entry => entry.2 = pollIn).map Prod.fst

/-- The message is the text received with a terminating NUL, unless all of the
buffer is text, which then is followed by what lies behind it. -/
def Replies (chunk message : List UInt8) : Prop :=
  if chunk.length < 64 ∨ 0 ∈ chunk then message = chunk.takeWhile (· ≠ 0) ++ [0]
  else chunk <+: message

instance (chunk message : List UInt8) : Decidable (Replies chunk message) :=
  inferInstanceAs (Decidable (if chunk.length < 64 ∨ 0 ∈ chunk then
    message = chunk.takeWhile (· ≠ 0) ++ [0] else chunk <+: message))

namespace Pool

/-- Nothing is open. -/
def start : Pool := ⟨-1, [], .closed⟩

/-- All that is open. -/
def opened (pool : Pool) : List Int := pool.listening :: pool.connections

/-- The listening socket need not be looked after. -/
def skip (pool : Pool) (ready : List Int) : List Int :=
  match ready with
  | [] => []
  | fd :: rest => if fd = pool.listening then rest else ready

/-- The protocol may call `poll`. -/
def isIdle (pool : Pool) : Bool :=
  match pool.phase with
  | .preparing => true
  | .looking ready => (pool.skip ready).isEmpty
  | _ => false

/-- One call. -/
def step : Machine Pool Entry := fun pool entry =>
  match entry with
  | .socket fd => if pool.phase = .closed then some ⟨fd, [], .preparing⟩
        else none
  | .poll given result =>
      if pool.isIdle ∧ given = pool.opened then
        match result with
        | .ready revents =>
            some { pool with phase := .looking (reported given revents) }
        | .failed => some { pool with phase := .leaving pool.opened }
      else none
  | .accept result =>
      match pool.phase with
      | .looking (fd :: rest) =>
          if fd = pool.listening then
            match result with
            | .ok new =>
                if new ∉ pool.opened then
                  some { pool with connections := pool.connections ++ [new] }
                else none
            | .wouldBlock => some { pool with phase := .looking rest }
            | .failed => some { pool with phase := .leaving pool.opened }
          else none
      | _ => none
  | .readable fd =>
      match pool.phase with
      | .looking ready =>
          match pool.skip ready with
          | first :: rest =>
              if fd = first then some { pool with phase := .reading fd rest }
              else none
          | [] => none
      | _ => none
  | .recv fd result =>
      match pool.phase with
      | .reading current ready =>
          if fd = current then
            match result with
            | .data chunk =>
                some { pool with phase := .replying fd chunk ready }
            | .wouldBlock => some { pool with phase := .looking ready }
            | .endOfStream | .failed =>
                some { pool with phase := .dropping fd ready }
          else none
      | _ => none
  | .send fd message result =>
      match pool.phase with
      | .replying current chunk ready =>
          if fd = current ∧ Replies chunk message then
            match result with
            | .sent _ => some { pool with phase := .reading fd ready }
            | .failed => some { pool with phase := .dropping fd ready }
            | .killed => some { pool with phase := .killed }
          else none
      | _ => none
  | .close fd =>
      match pool.phase with
      | .preparing =>
          if fd = pool.listening then some { pool with phase := .leaving [] }
          else none
      | .dropping current ready =>
          if fd = current ∧ fd ∈ pool.connections then
            some { pool with connections := pool.connections.erase fd, phase := .looking ready }
          else none
      | .leaving (first :: left) =>
          if fd = first then some { pool with phase := .leaving left } else none
      | _ => none

end Pool

/-! ## What the scan has still to look after -/

/-- The descriptors of the entries from `start` on that are reported as
readable. -/
def readyFrom (fds : Vector Pollfd 32) (size start : Nat) : List Int :=
  (((fds.toList.take size).drop start).filter fun entry => entry.revents =
    pollIn).map Pollfd.fd

section Ready

variable {fds : Vector Pollfd 32} {size start : Nat}

end Ready

/-! ## Replies -/

/-- The listening socket and the connections of the log are what is open in the
pool. -/
structure Open (listenSd : Int) (log : List Entry) (pool : Pool) : Prop where
  listening : pool.listening = listenSd
  connections : pool.connections = connections log

/-- The protocol, by the place where the server stands. -/
def Follows (server : Server) (pool : Pool) : Prop :=
  match server.pc with
  | .setup .socket => pool = .start
  | .setup _ => pool = ⟨server.listenSd, [], .preparing⟩
  | .poll | .optimize =>
      Open server.listenSd server.log pool ∧ pool.isIdle = true
  | .scan => Open server.listenSd server.log pool ∧ ∃ ready,
        pool.phase = .looking ready ∧
      pool.skip ready =
        pool.skip (readyFrom server.fds server.currentSize server.i) ∧
      (server.i = 0 → ready = readyFrom server.fds server.currentSize 0)
  | .accept => Open server.listenSd server.log pool ∧
      pool.phase =
        .looking (server.listenSd :: readyFrom server.fds server.currentSize 1)
  | .recv => Open server.listenSd server.log pool ∧ ∃ inside :
        server.i < 32, pool.phase =
      .reading server.fds[server.i].fd (readyFrom server.fds server.currentSize
        (server.i + 1))
  | .send => Open server.listenSd server.log pool ∧ ∃ inside :
        server.i < 32, ∃ chunk,
      chunk.length ≤ 64 ∧ server.buffer = filled chunk ∧
        pool.phase = .replying server.fds[server.i].fd chunk
          (readyFrom server.fds server.currentSize (server.i + 1))
  | .out =>
      Open server.listenSd server.log pool ∧ pool.phase = .leaving pool.opened
  | .exited _ => pool.phase = .closed ∨ pool.phase = .leaving []
  | .killed => pool.phase = .killed
  | .fault _ => True

section Open

variable {listenSd : Int} {log : List Entry} {pool : Pool}

/-- A call that opens and closes nothing changes nothing of what is open. -/
theorem Open.quiet (same : Open listenSd log pool) {entry : Entry}
    {phase : Phase}
    (quiet : entry.use = none) (later : entry.connectionUse = none) :
    Open listenSd (log ++ [entry]) { pool with phase := phase } where
  listening := same.listening
  connections := by
    rw [connections_concat (later.trans quiet.symm), quiet]
    exact same.connections

end Open

/-- The loop at `out` closes what is open. -/
theorem filter_nonneg {listenSd : Int} {fds : Vector Pollfd 32} {nfds : Nat}
    {log : List Entry}
    (table : Table listenSd fds nfds log) :
    (descriptors fds nfds).filter (0 ≤ ·) = listenSd :: connections log := by
  rw [← table.connections, ← table.kept]
  apply List.filter_congr
  intro fd present
  by_cases mark : fd = -1
  · simp [mark]
  · have isHeld : fd ∈ Use.held (uses log) := by
      rw [← table.kept, List.mem_filter]
      exact ⟨present, by simpa using mark⟩
    simpa [mark] using table.nonneg fd isHeld

namespace Pool

end Pool

/-- The pool takes the calls that `next` has made and `server` has not, and
follows `next` then. -/
def Led (server next : Server) (pool : Pool) : Prop :=
  ∃ calls later, next.log = server.log ++ calls ∧
    Pool.step.run pool calls = some later ∧
    Follows next later

section Led

variable {server next : Server} {pool : Pool}

/-- A step without an entry leads the pool nowhere. -/
theorem Led.none (log : next.log = server.log) (follows : Follows next pool) :
    Led server next pool :=
  ⟨[], pool, by rw [log, List.append_nil], rfl, follows⟩

/-- A step with one entry is one step of the pool. -/
theorem Led.one {entry : Entry} (later : Pool)
    (log : next.log = server.log ++ [entry])
    (stepped : pool.step entry = some later) (follows : Follows next later) :
    Led server next pool :=
  ⟨[entry], later, log, by rw [Machine.run_cons, stepped]; rfl, follows⟩

/-- Only what the pool is about changes. -/
theorem Led.phase {entry : Entry} (phase : Phase)
    (log : next.log = server.log ++ [entry])
    (stepped : pool.step entry = some { pool with phase := phase })
    (follows : Follows next { pool with phase := phase }) :
    Led server next pool :=
  .one _ log stepped follows

end Led

/-! ## Each transition -/

section Transitions

variable {server next : Server} {pool : Pool} {event : Event}

end Transitions

/-! ## Runs -/

end PollSocket
end LinuxCPractice
