import LinuxCPractice.PollSocket.Burst
import LinuxCPractice.PollSocket.Network

/-!
# Waiting for a silent client

`FIONBIO` is set on the listening socket only, and `accept` returns every
connection in blocking mode. The read loop of a connection therefore never ends
with `EWOULDBLOCK`: once everything the client has sent is read, `recv` waits
for this client, and all others wait with it.
-/

namespace LinuxCPractice
namespace PollSocket

open Server

/-! ## Connections come from `accept` -/

/-- A connection is new if it has just been accepted. -/
theorem mem_connections_concat {log : List Entry} {entry : Entry} {fd : Int}
    (present : fd ∈ connections (log ++ [entry])) :
    fd ∈ connections log ∨ entry = .accept (.ok fd) := by
  have read : connections (log ++ [entry]) =
      entry.connectionUse.toList.foldl Use.apply (connections log) := by
    cases result : entry.connectionUse <;> simp [connections, Use.held, result]
  rw [read] at present
  cases entry with
  | accept result =>
      cases result with
      | ok opened =>
          rcases List.mem_append.mp present with earlier | now
          · exact .inl earlier
          · exact .inr (by rw [List.mem_singleton.mp now])
      | wouldBlock | failed => exact .inl present
  | close => exact .inl (List.mem_of_mem_erase present)
  | socket | poll | readable | recv | send => exact .inl present

/-- Closing makes no connection. -/
theorem mem_connections_append_closes {log : List Entry} {closed : List Int}
    {fd : Int}
    (present : fd ∈ connections (log ++ closed.map .close)) :
    fd ∈ connections log := by
  induction closed generalizing log with
  | nil => simpa using present
  | cons first closed inductionHypothesis =>
      rw [List.map_cons, List.append_cons] at present
      exact (mem_connections_concat
        (inductionHypothesis present)).resolve_right nofun

/-- A step adds no connection but the one it accepts. -/
theorem Transition.mem_connections {server next : Server} {event : Event}
    {fd : Int}
    (transition : Transition server event next)
    (present : fd ∈ connections next.log) :
    fd ∈ connections server.log ∨ event = .accept (.ok fd) := by
  cases transition with
  | socketOpened | setupFailed | pollFailed | pollReady | scanReadable
  | acceptFailed
  | acceptWouldBlock | received | recvWouldBlock | sent | sendKilled =>
      exact .inl ((mem_connections_concat present).resolve_right nofun)
  | accepted | acceptOutside =>
      refine (mem_connections_concat present).imp_right ?_
      rintro ⟨⟩
      rfl
  | recvClosed | sendFailed =>
      have before := (mem_connections_concat present).resolve_right nofun
      exact .inl ((mem_connections_concat before).resolve_right nofun)
  | left => exact .inl (mem_connections_append_closes present)
  | _ => exact .inl present

namespace Network

/-- Every connection in the table is in nonblocking mode. -/
def NonblockingConnections (network : Network) : Prop :=
  ∀ fd ∈ (descriptors network.server.fds network.server.nfds).drop 1, fd ≠ -1 →
    network.kernel.nonblocking fd = true

/-- The server stands in a `recv` that waits for further input from `client`. -/
def WaitsFor (network : Network) (client : Nat) : Prop :=
  network.server.pc = .recv ∧
    ∃ entry, network.server.fds[network.server.i]? = some entry ∧
      network.kernel.linkOf entry.fd = client ∧
      network.kernel.nonblocking entry.fd = false ∧
      network.kernel.links client = ⟨[], .present⟩

/-! ## Every connection is in blocking mode -/

/-- Connections stay blocking. -/
theorem Moves.blocking {network next : Network} {event : Event}
    (moves : Moves network event next) (invariant : Invariant network.server)
    (blocking : ∀ fd ∈ connections network.server.log,
      network.kernel.nonblocking fd = false) :
    ∀ fd ∈ connections next.server.log, next.kernel.nonblocking fd = false := by
  cases moves with
  | @server event server permitted stepped =>
      intro fd present
      have transition := step_transition stepped
      have origin := transition.mem_connections present
      show (network.kernel.after network.server event).nonblocking fd = false
      unfold Kernel.after
      split
      · rename_i rc
        have none : fd ∈ connections network.server.log :=
          origin.resolve_right (by simp)
        split
        · rename_i ioctl
          rw [Invariant, ioctl.1] at invariant
          rw [invariant.1] at none
          cases none
        · exact blocking fd none
      · rename_i opened
        rcases origin with earlier | now
        · by_cases same : fd = opened
          · simp [same]
          · simpa [same] using blocking fd earlier
        · cases now
          simp
      · have earlier := origin.resolve_right (by simp)
        split <;> exact blocking fd earlier
      · rename_i notAccept _
        exact blocking fd (origin.resolve_right (notAccept fd))
  | connect | client => exact blocking

/-- In every run all connections are blocking. -/
theorem run_blocking {network : Network} {events : List Event}
    (ran : step.run start events = some network) :
    ∀ fd ∈ connections network.server.log,
      network.kernel.nonblocking fd = false :=
  Machine.run_invariant_past
    (fun _ network =>
      ∀ fd ∈ connections network.server.log,
        network.kernel.nonblocking fd = false)
    (by simp [start, Server.start])
    (fun _ _ _ _ ranPast blocking stepped =>
      (step_moves stepped).blocking
        (run_invariant (run_server ranPast)) blocking)
    ran

/-- In every run, a `recv` on the connection of a client that has sent nothing
more waits for this client. -/
theorem recv_waits {network : Network} {events : List Event}
    (ran : step.run start events = some network)
    (pc : network.server.pc = .recv)
    {entry : Pollfd}
    (current : network.server.fds[network.server.i]? = some entry)
    (silent : network.kernel.link entry.fd = ⟨[], .present⟩) :
    network.WaitsFor (network.kernel.linkOf entry.fd) := by
  have invariant := run_invariant (run_server ran)
  rw [Invariant, pc] at invariant
  obtain ⟨table, behind, more, fits, unmarked, _⟩ := invariant
  have inside := table.inside more fits
  obtain rfl : network.server.fds[network.server.i] = entry := by
    simpa [inside] using current
  have isConnection := table.connection inside (by omega) behind
    (unmarked network.server.i inside (Nat.le_refl _) (by omega))
  exact ⟨pc, _, current, rfl, run_blocking ran _ isConnection.1, silent⟩

/-- No call of a server that waits for a client can return. -/
theorem WaitsFor.stuck {network : Network} {client : Nat}
    (waits : network.WaitsFor client)
    (event : PollSocket.Event) : step network (.server event) = none := by
  obtain ⟨pc, entry, current, behind, blocking, link⟩ := waits
  have empty : network.kernel.link entry.fd = ⟨[], .present⟩ := by
    rw [Kernel.link, behind, link]
  cases event with
  | recv result =>
      cases result with
      | data chunk =>
          cases chunk with
          | nil => simp [step, Server.step, pc, Server.recv, current]
          | cons =>
              simp [step, Kernel.permits, current, Kernel.permitsRecv, empty]
      | endOfStream | wouldBlock | failed =>
          simp [step, Kernel.permits, current, Kernel.permitsRecv, empty,
            blocking]
  | _ => simp [step, Server.step, pc]

/-- While a client stays silent, a server that waits for it does nothing. -/
theorem WaitsFor.moves {network next : Network} {event : Event} {client : Nat}
    (waits : network.WaitsFor client)
    (silent : ∀ act, event ≠ .client client act)
    (moves : Moves network event next) :
    next.server = network.server ∧ next.WaitsFor client := by
  have stuck := waits.stuck
  obtain ⟨pc, entry, current, behind, blocking, link⟩ := waits
  cases moves with
  | connect => exact ⟨rfl, pc, entry, current, behind, blocking, link⟩
  | @client other act =>
      have different : client ≠ other := by
        rintro rfl
        exact silent act rfl
      refine ⟨rfl, pc, entry, current, behind, blocking, ?_⟩
      simpa [different] using link
  | @server event server permitted stepped =>
      have none := stuck event
      rw [step, if_pos permitted, stepped] at none
      cases none

/-- A silent client stops the server, whatever the other clients do. -/
theorem WaitsFor.run {network next : Network} {events : List Event}
    {client : Nat}
    (waits : network.WaitsFor client)
    (silent : ∀ act, .client client act ∉ events)
    (ran : step.run network events = some next) :
    next.server = network.server := by
  have both : (∀ act, .client client act ∉ events) →
      next.server = network.server ∧ next.WaitsFor client := by
    refine Machine.run_invariant_past
      (fun past visited => (∀ act, .client client act ∉ past) →
        visited.server = network.server ∧ visited.WaitsFor client)
      (fun _ => ⟨rfl, waits⟩) ?_ ran
    intro past visited event after _ still stepped silentToo
    obtain ⟨same, stillWaits⟩ :=
      still fun act present => silentToo act (List.mem_append_left _ present)
    have notClient : ∀ act, event ≠ .client client act := by
      rintro act rfl
      exact silentToo act (List.mem_append_right _ (List.mem_singleton_self _))
    obtain ⟨unmoved, waitsToo⟩ :=
      stillWaits.moves notClient (step_moves stepped)
    exact ⟨unmoved.trans same, waitsToo⟩
  exact (both silent).1

/-! ## Nothing else holds the server up -/

/-- From `ioctl` on the listening socket is in nonblocking mode. -/
def ListensNonblocking (network : Network) : Prop :=
  match network.server.pc with
  | .setup .socket | .setup .setsockopt | .setup .ioctl | .exited _ => True
  | _ => network.kernel.nonblocking network.server.listenSd = true

/-- Only `ioctl` and a successful `accept` touch the modes of the
descriptors. -/
theorem nonblocking_after (kernel : Kernel) (server : Server)
    {event : PollSocket.Event}
    (notSetup : ∀ rc, event ≠ .setup rc)
    (notAccepted : ∀ fd, event ≠ .accept (.ok fd)) :
    (kernel.after server event).nonblocking = kernel.nonblocking := by
  unfold Kernel.after
  split
  · exact absurd rfl (notSetup _)
  · exact absurd rfl (notAccepted _)
  · split <;> rfl
  · rfl

/-- The listening socket stays nonblocking. -/
theorem Moves.listensNonblocking {network next : Network} {event : Event}
    (moves : Moves network event next) (invariant : Invariant network.server)
    (listens : network.ListensNonblocking) : next.ListensNonblocking := by
  cases moves with
  | connect | client => exact listens
  | @server event server permitted stepped =>
      cases step_transition stepped with
      | socketFailed | socketOpened | setupFailed | left => trivial
      | @setupContinued call following rc pc later follows nonneg =>
          cases call with
          | socket => exact absurd rfl later
          | setsockopt =>
              cases follows
              trivial
          | ioctl =>
              cases follows
              simp [ListensNonblocking, Kernel.after, pc, nonneg]
          | bind =>
              cases follows
              simp only [ListensNonblocking, pc] at listens
              simp [ListensNonblocking, Kernel.after, pc, listens]
          | listen => cases follows
      | listening pc =>
          simp only [ListensNonblocking, pc] at listens
          simp [ListensNonblocking, Kernel.after, pc, prepareTable, listens]
      | @accepted fd pc _ _ free | @acceptOutside fd pc _ _ free =>
          simp only [ListensNonblocking, pc] at listens
          rw [Invariant, pc] at invariant
          rw [invariant.1.connections] at free
          have other : network.server.listenSd ≠ fd := by
            rintro rfl
            exact free List.mem_cons_self
          simp [ListensNonblocking, Kernel.after, record, pc, listens, other]
      | pollFailed pc | pollReady pc | scanned pc | scanOutside pc | scanSkip pc
      | scanListening pc
      | scanReadable pc | acceptSkipped pc | acceptFailed pc
      | acceptWouldBlock pc | recvOutside pc
      | received pc | recvWouldBlock pc | recvClosed pc | sendOutside pc
      | sent pc | sendFailed pc
      | sendKilled pc | optimized pc | optimizeOutside pc =>
          simp only [ListensNonblocking, pc] at listens
          simp [ListensNonblocking, nonblocking_after, closeEntry, record, pc,
            listens]

/-- In every run the listening socket is nonblocking when the server accepts. -/
theorem run_listensNonblocking {network : Network} {events : List Event}
    (ran : step.run start events = some network) : network.ListensNonblocking :=
  Machine.run_invariant_past
    (fun _ network => network.ListensNonblocking) trivial
    (fun _ _ _ _ ranPast listens stepped =>
      (step_moves stepped).listensNonblocking
        (run_invariant (run_server ranPast)) listens)
    ran

/-- No call of the server can return, unless `accept` fails with an error other
than `EWOULDBLOCK`. -/
def HeldUp (network : Network) : Prop :=
  ∀ event, event ≠ .accept .failed → step network (.server event) = none

section HeldUp

variable {network : Network}

/-- The listening socket is in nonblocking mode, so that `accept` always
returns. -/
theorem HeldUp.ne_accept (heldUp : network.HeldUp)
    (listens : network.ListensNonblocking) :
    network.server.pc ≠ .accept := by
  intro pc
  simp only [ListensNonblocking, pc] at listens
  by_cases blocked : network.server.newSd = -1
  · have none := heldUp .internal (by simp)
    simp [step, Kernel.permits, Server.step, pc, blocked] at none
  · by_cases queued : network.kernel.taken < network.kernel.arrived
    · obtain ⟨fd, nonneg, free⟩ := Use.exists_unheld (uses network.server.log)
      have none := heldUp (.accept (.ok fd)) (by simp)
      simp [step, Kernel.permits, Server.step, pc, blocked, queued,
        Server.accept, nonneg, free] at none
    · have none := heldUp (.accept .wouldBlock) (by simp)
      simp [step, Kernel.permits, Server.step, pc, blocked, listens,
        Server.accept] at none
      omega

/-- The server is not held up in `send`. -/
theorem HeldUp.ne_send (heldUp : network.HeldUp) :
    network.server.pc ≠ .send := by
  intro pc
  have none := heldUp (.send [] (.sent 0)) (by simp)
  cases current : network.server.fds[network.server.i]? <;>
    simp [step, Kernel.permits, Server.step, pc, Server.send, current] at none

/-- With something to read, or with the end of the stream to report, `recv`
returns. -/
theorem HeldUp.silent (heldUp : network.HeldUp)
    (pc : network.server.pc = .recv) :
    ∃ entry, network.server.fds[network.server.i]? = some entry ∧
      network.kernel.link entry.fd = ⟨[], .present⟩ := by
  cases current : network.server.fds[network.server.i]? with
  | none =>
      have none := heldUp (.recv .failed) (by simp)
      simp [step, Kernel.permits, Server.step, pc, Server.recv, current] at none
  | some entry =>
      refine ⟨entry, rfl, ?_⟩
      rcases link : network.kernel.link entry.fd with ⟨inbox, peer⟩
      cases inbox with
      | cons byte rest =>
          have none := heldUp (.recv (.data [byte])) (by simp)
          simp [step, Kernel.permits, Kernel.permitsRecv, Server.step, pc,
            Server.recv, current, link] at none
      | nil =>
          cases peer with
          | present => rfl
          | closed | reset =>
              have none := heldUp (.recv .endOfStream) (by simp)
              simp [step, Kernel.permits, Kernel.permitsRecv, Server.step, pc,
                Server.recv, current, link] at none

end HeldUp

/-- In every run, a server that has taken up its work and not come to an end is
held up exactly when it waits for a client that has sent nothing more. -/
theorem heldUp_iff {network : Network} {events : List Event}
    (ran : step.run start events = some network)
    (works : network.server.pc = .scan ∨ network.server.pc = .accept ∨
      network.server.pc = .recv ∨ network.server.pc = .send ∨
      network.server.pc = .optimize) :
    network.HeldUp ↔ ∃ client, network.WaitsFor client := by
  constructor
  · intro heldUp
    rcases works with pc | pc | pc | pc | pc
    · have none := heldUp .internal (by simp)
      simp [step, Kernel.permits, Server.step, pc] at none
    · exact absurd pc (heldUp.ne_accept (run_listensNonblocking ran))
    · obtain ⟨entry, current, silent⟩ := heldUp.silent pc
      exact ⟨_, recv_waits ran pc current silent⟩
    · exact absurd pc heldUp.ne_send
    · have none := heldUp .internal (by simp)
      simp [step, Kernel.permits, Server.step, pc] at none
  · rintro ⟨client, waits⟩ event _
    exact waits.stuck event

/-! ## When no client is waited for -/

/-- No connection is accepted exactly if no `accept` succeeds. -/
theorem accepted_eq_zero_iff {events : List Event} {network : Network}
    (ran : step.run start events = some network) :
    network.server.accepted = 0 ↔ ∀ fd, .server (.accept (.ok fd)) ∉ events := by
  have count := run_accepted (run_server ran)
  rw [show start.server.accepted = 0 from rfl, Nat.zero_add] at count
  rw [count, List.countP_eq_zero]
  constructor
  · intro none fd present
    exact none _ (mem_filterMap_ofServer.mpr present) rfl
  · intro none event present isConnection
    unfold PollSocket.Event.isConnection at isConnection
    split at isConnection
    · exact none _ (mem_filterMap_ofServer.mp present)
    · cases isConnection

/-- The first connection to be accepted is in blocking mode. -/
theorem Moves.accepts_blocking {network next : Network} {fd : Int}
    (moves : Moves network (.server (.accept (.ok fd))) next)
    (invariant : Invariant network.server) (first : network.server.nfds ≤ 1) :
    ¬next.NonblockingConnections := by
  intro nonblocking
  cases moves with
  | server permitted stepped =>
      cases step_transition stepped with
      | acceptOutside _ _ _ _ outside => omega
      | accepted pc _ nonneg _ inside =>
          rw [Invariant, pc] at invariant
          have positive := invariant.1.nfds_pos
          have listed : fd ∈ (descriptors (network.server.fds.set network.server.nfds
              { network.server.fds[network.server.nfds] with fd := fd, events := pollIn })
              (network.server.nfds + 1)).drop 1 := by
            rw [descriptors_succ _ inside, Vector.getElem_set_self,
              List.drop_append_of_le_length (by rw [length_descriptors]; omega)]
            exact List.mem_append_right _ (List.mem_singleton_self _)
          have mode := nonblocking fd listed (by omega)
          simp [Kernel.after] at mode

/-- In every run, all connections are nonblocking and the server waits for no
client at any time exactly when the run accepts no connection. -/
theorem neverWaits_iff {events : List Event} {network : Network}
    (ran : step.run start events = some network) :
    step.Always
        (fun visited => visited.NonblockingConnections ∧ ∀ client,
          ¬visited.WaitsFor client)
        start events ↔
      ∀ fd, .server (.accept (.ok fd)) ∉ events := by
  constructor
  · intro always
    have none : step.Always
        (fun visited => visited.NonblockingConnections ∧ ∀ client,
          ¬visited.WaitsFor client)
        start events → ∀ fd, .server (.accept (.ok fd)) ∉ events := by
      refine Machine.run_invariant_past
        (fun past _ => step.Always
          (fun visited => visited.NonblockingConnections ∧ ∀ client,
            ¬visited.WaitsFor client)
          start past → ∀ fd, .server (.accept (.ok fd)) ∉ past)
        (fun _ => by simp) ?_ ran
      intro past visited event next ranPast noneBefore stepped always fd present
      have noneSoFar := noneBefore always.of_append
      have nfds := run_nfds (run_server ranPast)
      rw [(accepted_eq_zero_iff ranPast).mpr noneSoFar] at nfds
      rcases List.mem_append.mp present with earlier | now
      · exact noneSoFar fd earlier
      · obtain rfl := List.mem_singleton.mp now
        have ranNext :=
          Machine.run_concat_eq_some_iff.mpr ⟨visited, ranPast, stepped⟩
        exact (step_moves stepped).accepts_blocking
          (run_invariant (run_server ranPast)) nfds
          (always.last ranNext).1
    exact none always
  · intro none
    apply Machine.always_iff.mpr
    intro first isPrefix visited ranFirst
    have nfds := run_nfds (run_server ranFirst)
    rw [(accepted_eq_zero_iff ranFirst).mpr fun fd present =>
      none fd (isPrefix.subset present)] at nfds
    constructor
    · intro fd present
      rw [List.drop_eq_nil_of_le (by rw [length_descriptors]; omega)] at present
      cases present
    · rintro client ⟨pc, -⟩
      have invariant := run_invariant (run_server ranFirst)
      rw [Invariant, pc] at invariant
      omega

/-- Two clients are connected. The first sends two bytes and falls silent, the
second sends two bytes and waits for them to be echoed. -/
def silentClient : List Event :=
  prepared.map .server ++
    [.connect, .connect, .server (.poll (.ready [pollIn])), .server .internal,
      .server (.accept (.ok 4)), .server (.accept (.ok 5)),
      .server (.accept .wouldBlock),
      .server .internal, .server .internal, .client 0 (.write [104, 105]),
      .client 1 (.write [106, 107]),
      .server (.poll (.ready [0, pollIn, pollIn])),
      .server .internal, .server .internal, .server (.recv (.data [104, 105])),
      .server (.send [] (.sent 3))]

/-- The server waits for the first client and leaves the second one unserved. -/
theorem waits_for_silentClient :
    ¬∀ (events : List Event) (network : Network),
      step.run start events = some network →
      network.NonblockingConnections ∧ ∀ client, ¬network.WaitsFor client := by
  intro claimed
  have reached : (step.run start silentClient).map
      (fun network => (network.server.pc,
        network.server.fds[network.server.i]?.map Pollfd.fd,
        network.kernel.linkOf 4, network.kernel.links 0)) =
      some (.recv, some 4, 0, ⟨[], .present⟩) := by decide
  obtain ⟨network, ran, ends⟩ := Option.map_eq_some_iff.mp reached
  simp only [Prod.mk.injEq] at ends
  obtain ⟨pc, current, behind, link⟩ := ends
  obtain ⟨entry, current, fd⟩ := Option.map_eq_some_iff.mp current
  refine (claimed _ network ran).2 0 ?_
  have waits :=
    recv_waits ran pc current (by rw [Kernel.link, fd, behind, link])
  rwa [fd, behind] at waits

/-- A client that is never accepted. -/
theorem neverWaits_iff_prepared :
    step.Always
      (fun visited => visited.NonblockingConnections ∧ ∀ client,
        ¬visited.WaitsFor client)
      start (prepared.map .server ++ [.connect, .server (.poll .failed)]) := by
  have reached : (step.run start
      (prepared.map .server ++ [.connect, .server (.poll .failed)])).isSome =
        true := by decide
  obtain ⟨network, ran⟩ := Option.isSome_iff_exists.mp reached
  exact (neverWaits_iff ran).mpr (by simp [prepared])

end Network
end PollSocket
end LinuxCPractice
