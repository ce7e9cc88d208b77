import LinuxCPractice.SocketTcp.Descriptors
import Mathlib.Data.List.Perm.Basic

/-!
# The descriptors of a server that goes on

Every client that is left open stays so, which is counted here over whole runs.
In the end the process has no descriptor for another client, and the first
`accept` that fails is the last one that had a listening socket.
-/

namespace LinuxCPractice
namespace SocketTcp

open Server

/-- The descriptors the process has open. -/
def Server.descriptors (server : Server) : List Int :=
  Use.held (uses server.log)

/-- The file being read, if there is one. -/
def Server.files (server : Server) : List Int :=
  if server.pc = .fgets ∨ server.pc = .send then [server.fs] else []

/-- Before a call of `accept` has failed the process has the listening socket
open, the clients it has left, the one being served and the file. Then it has
the clients left and is about to fail again. -/
structure Stock (left : Nat) (failed : Prop) (server : Server) : Prop where
  nodup : server.descriptors.Nodup
  nonneg : ∀ fd ∈ server.descriptors, 0 ≤ fd
  alive : ¬failed → ∃ others : List Int, others.length = left ∧
    server.descriptors.Perm
      (server.files ++ (server.clients ++ server.sfd :: others))
  accepts : ¬failed → server.pc ≠ .accept → 0 ≤ server.clientSockFd
  dead : failed →
    (server.pc = .accept ∨ server.pc = .recv ∧ server.clientSockFd = -1) ∧
    server.sfd ∉ server.descriptors ∧ server.descriptors.length = left

section Steps

variable {server next : Server} {event : Event} {left : Nat} {failed : Prop}

theorem descriptors_record (server : Server) (entries : List Entry) :
    (server.record entries).descriptors =
      entries.foldl heldAfter server.descriptors :=
  held_uses_append server.log entries

theorem Stock.start {sfd : Int} (valid : 0 ≤ sfd) (buf : List UInt8) :
    Stock 0 False (start sfd buf) where
  nodup := by
    simp [Server.descriptors, Server.start, uses, Entry.use, Use.held,
      Use.apply]
  nonneg := by
    simpa [Server.descriptors, Server.start, uses, Entry.use, Use.held,
      Use.apply] using valid
  alive _ := ⟨[], rfl, by
    simp [Server.descriptors, Server.start, uses, Entry.use, Use.held,
      Use.apply, Server.files, Server.clients]⟩
  accepts _ notAccept := absurd rfl notAccept
  dead := False.elim

/-- Without its listening socket the process has nobody to serve. -/
theorem Stock.not_failed (stock : Stock left failed server)
    (notAccept : server.pc ≠ .accept)
    (client : server.pc ≠ .recv ∨ 0 ≤ server.clientSockFd) : ¬failed := by
  intro hasFailed
  rcases (stock.dead hasFailed).1 with accept | ⟨recv, none⟩
  · exact notAccept accept
  · rcases client with notRecv | nonneg
    · exact notRecv recv
    · omega

/-- A client that is connected is the only one. -/
theorem clients_of_nonneg (notAccept : server.pc ≠ .accept)
    (nonneg : 0 ≤ server.clientSockFd) :
    server.clients = [server.clientSockFd] := by
  rw [Server.clients, if_neg]
  rintro (accept | negative)
  · exact notAccept accept
  · omega

/-- A step that leaves the descriptors as they are. -/
theorem Stock.same (stock : Stock left failed server) (alive : ¬failed)
    (descriptors : next.descriptors = server.descriptors)
    (files : next.files = server.files)
    (clients : next.clients = server.clients) (sfd : next.sfd = server.sfd)
    (accepts : 0 ≤ next.clientSockFd) : Stock left failed next where
  nodup := descriptors ▸ stock.nodup
  nonneg := descriptors ▸ stock.nonneg
  alive := by
    rw [descriptors, files, clients, sfd]
    exact stock.alive
  accepts _ _ := accepts
  dead hasFailed := absurd hasFailed alive

/-- A step that opens a descriptor. -/
theorem Stock.opens (stock : Stock left failed server) (alive : ¬failed)
    {fd : Int}
    (fresh : server.Fresh fd)
    (descriptors : next.descriptors = server.descriptors ++ [fd])
    (inUse : next.files ++ next.clients =
      fd :: (server.files ++ server.clients))
    (sfd : next.sfd = server.sfd) (accepts : 0 ≤ next.clientSockFd) :
    Stock left failed next where
  nodup := by
    rw [descriptors]
    refine stock.nodup.append (List.nodup_singleton fd) ?_
    rw [List.disjoint_singleton]
    exact fresh.2
  nonneg := by
    rw [descriptors]
    intro other present
    rcases List.mem_append.mp present with earlier | now
    · exact stock.nonneg other earlier
    · exact List.mem_singleton.mp now ▸ fresh.1
  alive _ := by
    obtain ⟨others, count, whole⟩ := stock.alive alive
    refine ⟨others, count, ?_⟩
    rw [descriptors, ← List.append_assoc, inUse, sfd, List.cons_append,
      List.append_assoc]
    exact (List.perm_append_comm).trans (whole.cons fd)
  accepts _ _ := accepts
  dead hasFailed := absurd hasFailed alive

/-- A step back to `accept`. -/
theorem Stock.returns (stock : Stock left failed server) (alive : ¬failed)
    (others : List Int) (pc : next.pc = .accept)
    (fewer : next.descriptors.Sublist server.descriptors)
    (whole : next.descriptors.Perm (next.sfd :: others)) :
    Stock others.length failed next where
  nodup := stock.nodup.sublist fewer
  nonneg fd present := stock.nonneg fd (fewer.subset present)
  alive _ := by
    refine ⟨others, rfl, ?_⟩
    simpa [Server.files, Server.clients, pc] using whole
  accepts _ notAccept := absurd pc notAccept
  dead hasFailed := absurd hasFailed alive

/-- A call fails again. -/
theorem Stock.fails (stock : Stock left failed server) (hasFailed : failed)
    (stands : next.pc = .accept ∨ next.pc = .recv ∧ next.clientSockFd = -1)
    (descriptors : next.descriptors = server.descriptors)
    (sfd : next.sfd = server.sfd) :
    Stock left failed next where
  nodup := descriptors ▸ stock.nodup
  nonneg := descriptors ▸ stock.nonneg
  alive alive := absurd hasFailed alive
  accepts alive := absurd hasFailed alive
  dead _ := by
    rw [descriptors, sfd]
    exact ⟨stands, (stock.dead hasFailed).2⟩

/-- The listening socket is closed, if it has not been already. -/
theorem Stock.acceptFailed (stock : Stock left failed server)
    (pc : server.pc = .accept) :
    Stock left True { server.record [.accept server.sfd .failed,
      .close server.sfd] with
      clientSockFd := -1, pc := .recv } := by
  have descriptors : Server.descriptors
      { server.record [.accept server.sfd .failed, .close server.sfd] with
        clientSockFd := -1, pc :=
          .recv } = server.descriptors.erase server.sfd :=
    descriptors_record server _
  constructor
  · rw [descriptors]
    exact stock.nodup.erase _
  · rw [descriptors]
    exact fun fd present => stock.nonneg fd (List.mem_of_mem_erase present)
  · exact fun alive => absurd trivial alive
  · exact fun alive => absurd trivial alive
  · rintro -
    refine ⟨.inr ⟨rfl, rfl⟩, ?_⟩
    rw [descriptors]
    refine ⟨stock.nodup.not_mem_erase, ?_⟩
    by_cases hasFailed : failed
    · obtain ⟨_, closed, length⟩ := stock.dead hasFailed
      rw [List.erase_of_not_mem closed, length]
    · obtain ⟨others, count, whole⟩ := stock.alive hasFailed
      simp only [Server.files, Server.clients, pc, reduceCtorEq, or_self,
        if_false, true_or, if_true, List.nil_append] at whole
      rw [(whole.erase server.sfd).length_eq, List.erase_cons_head, count]

/-- What the process has open while it serves a client. -/
theorem Stock.serving (stock : Stock left failed server) (alive : ¬failed)
    (notAccept : server.pc ≠ .accept) :
    ∃ others : List Int, others.length = left ∧
      server.descriptors.Perm
        (server.files ++ server.clientSockFd :: server.sfd :: others) := by
  have clients := clients_of_nonneg notAccept (stock.accepts alive notAccept)
  simpa [clients] using stock.alive alive

/-- A step back to `accept` that closes the file and leaves the client. -/
theorem Stock.leavesClient (stock : Stock left failed server) (alive : ¬failed)
    (reads : server.pc = .fgets ∨ server.pc = .send) (pc : next.pc = .accept)
    (descriptors : next.descriptors = server.descriptors.erase server.fs)
    (sfd : next.sfd = server.sfd) : Stock (left + 1) failed next := by
  have notAccept :
      server.pc ≠ .accept := by rcases reads with pc | pc <;> simp [pc]
  obtain ⟨others, rfl, whole⟩ := stock.serving alive notAccept
  have erased := whole.erase server.fs
  rw [Server.files, if_pos reads, List.singleton_append, List.erase_cons_head]
    at erased
  refine stock.returns alive (server.clientSockFd :: others) pc ?_ ?_
  · exact descriptors ▸ List.erase_sublist
  · rw [descriptors, sfd]
    exact erased.trans (List.Perm.swap ..)

/-- A step that leaves no client keeps the stock. -/
theorem Stock.quiet (stock : Stock left failed next)
    (keeps : ¬LeavesClient server event)
    (other : event ≠ .accept .failed) :
    Stock (left + if LeavesClient server event then 1 else 0)
      (failed ∨ event = .accept .failed) next := by
  simpa [keeps, other] using stock

/-- A step that leaves a client adds its descriptor to the stock. -/
theorem Stock.leaves (stock : Stock (left + 1) failed next)
    (leaves : LeavesClient server event)
    (other : event ≠ .accept .failed) :
    Stock (left + if LeavesClient server event then 1 else 0)
      (failed ∨ event = .accept .failed) next := by
  simpa [leaves, other] using stock

/-- Every step takes stock of the descriptors. -/
theorem Stock.step (stock : Stock left failed server)
    (stepped : Server.step server event = some next) :
    Stock (left + if LeavesClient server event then 1 else 0)
      (failed ∨ event = .accept .failed) next := by
  cases transition_of_step stepped with
  | acceptFailed pc => simpa [LeavesClient] using stock.acceptFailed pc
  | @accepted fd pc listening fresh =>
      have alive : ¬failed := fun hasFailed =>
        (stock.dead hasFailed).2.1 listening
      refine .quiet ?_ id (by simp)
      refine stock.opens alive fresh
        (descriptors_record server _) ?_ rfl fresh.1
      simp [Server.files, Server.clients, pc, fresh.1]
  | recvFailed pc =>
      have descriptors := descriptors_record server
        [.recv server.clientSockFd .failed, .close server.clientSockFd]
      refine .quiet ?_ id (by simp)
      by_cases hasFailed : failed
      · have none : server.clientSockFd = -1 := by
          rcases (stock.dead hasFailed).1 with accept | ⟨_, none⟩
          · rw [pc] at accept
            cases accept
          · exact none
        have absent : server.clientSockFd ∉ server.descriptors := by
          intro present
          have := stock.nonneg _ present
          omega
        exact stock.fails hasFailed (.inl rfl)
          (descriptors.trans (List.erase_of_not_mem absent)) rfl
      · obtain ⟨others, rfl, whole⟩ := stock.serving hasFailed (by simp [pc])
        refine stock.returns hasFailed others rfl ?_ ?_
        · exact descriptors ▸ List.erase_sublist
        · have erased := whole.erase server.clientSockFd
          simp only [Server.files, pc, reduceCtorEq, or_self, if_false,
            List.nil_append, List.erase_cons_head] at erased
          exact descriptors ▸ erased
  | received pc connected _ =>
      have alive :=
        stock.not_failed (by simp [pc]) (.inr (stock.nonneg _ connected))
      have nonneg := stock.accepts alive (by simp [pc])
      refine .quiet ?_ id (by simp)
      refine stock.same alive (descriptors_record server _) ?_ ?_ rfl nonneg
      · simp [Server.files, pc]
      · simp [Server.clients, pc, record]
  | fopenFailed pc =>
      have alive := stock.not_failed (by simp [pc]) (.inl (by simp [pc]))
      have nonneg := stock.accepts alive (by simp [pc])
      refine .quiet ?_ id (by simp)
      refine stock.same alive rfl ?_ ?_ rfl nonneg
      · simp [Server.files, pc]
      · simp [Server.clients, pc]
  | @opened fd content pc fresh =>
      have alive := stock.not_failed (by simp [pc]) (.inl (by simp [pc]))
      have nonneg := stock.accepts alive (by simp [pc])
      refine .quiet ?_ id (by simp)
      refine stock.opens alive fresh (descriptors_record server _) ?_ rfl nonneg
      simp [Server.files, Server.clients, pc, record]
  | noLine pc null _ =>
      have alive := stock.not_failed (by simp [pc]) (.inl (by simp [pc]))
      refine .leaves ?_ null (by simp)
      exact stock.leavesClient alive (.inl pc) rfl
        (descriptors_record server _) rfl
  | line pc read =>
      have alive := stock.not_failed (by simp [pc]) (.inl (by simp [pc]))
      have nonneg := stock.accepts alive (by simp [pc])
      refine .quiet ?_ (by simp [LeavesClient, read]) (by simp)
      refine stock.same alive rfl ?_ ?_ rfl nonneg
      · simp [Server.files, pc]
      · simp [Server.clients, pc]
  | sendFailed pc =>
      have alive := stock.not_failed (by simp [pc]) (.inl (by simp [pc]))
      obtain ⟨others, rfl, whole⟩ := stock.serving alive (by simp [pc])
      have descriptors := descriptors_record server
        [.send server.clientSockFd server.reply .failed,
          .close server.clientSockFd, .fclose server.fs]
      refine .quiet ?_ id (by simp)
      refine stock.returns alive others rfl ?_ ?_
      · exact descriptors ▸ List.erase_sublist.trans List.erase_sublist
      · simp only [Server.files, pc, or_true, if_true, List.singleton_append]
          at whole
        have erased :=
          ((whole.trans (List.Perm.swap ..)).erase server.clientSockFd).erase
            server.fs
        simp only [List.erase_cons_head] at erased
        exact descriptors ▸ erased
  | sent pc _ _ =>
      have alive := stock.not_failed (by simp [pc]) (.inl (by simp [pc]))
      refine .leaves ?_ trivial (by simp)
      exact stock.leavesClient alive (.inr pc) rfl
        (descriptors_record server _) rfl

/-- What is left to a process without a listening socket. -/
theorem Stock.only_fails (stock : Stock left failed server) (hasFailed : failed)
    (stepped : Server.step server event = some next) :
    event = .accept .failed ∨ ∃ beyond, event = .recv beyond .failed := by
  obtain ⟨stands, closed, _⟩ := stock.dead hasFailed
  cases transition_of_step stepped with
  | acceptFailed => exact .inl rfl
  | accepted _ listening => exact absurd listening closed
  | recvFailed => exact .inr ⟨_, rfl⟩
  | received pc connected =>
      have nonneg := stock.nonneg _ connected
      rcases stands with accept | ⟨_, none⟩
      · rw [pc] at accept
        cases accept
      · omega
  | fopenFailed pc | opened pc | noLine pc | line pc | sendFailed pc
  | sent pc =>
      rcases stands with stands | ⟨stands, _⟩ <;> rw [pc] at stands <;>
        cases stands

end Steps

/-! ## Whole runs -/

section Runs

variable {sfd : Int} {buf : List UInt8} {events : List Event} {final : Server}

/-- In every run the descriptors left are those of the steps that leave a
client. -/
theorem stock_of_run (valid : 0 ≤ sfd)
    (ran : step.run (start sfd buf) events = some final) :
    Stock (step.countSteps LeavesClient (start sfd buf) events)
      (.accept .failed ∈ events)
      final := by
  refine Machine.run_invariant_past (fun past server =>
    Stock (step.countSteps LeavesClient (start sfd buf) past)
      (.accept .failed ∈ past) server)
    ?_ ?_ ran
  · simpa [Machine.countSteps] using Stock.start valid buf
  · intro past server event next ranPast stock stepped
    rw [Machine.countSteps_concat ranPast stepped]
    simpa [eq_comm] using stock.step stepped

/-- The listening socket is open until `accept` fails. -/
theorem Stock.sfd_mem_iff {left : Nat} {failed : Prop} {server : Server}
    (stock : Stock left failed server) :
    server.sfd ∈ server.descriptors ↔ ¬failed := by
  constructor
  · intro isOpen hasFailed
    exact (stock.dead hasFailed).2.1 isOpen
  · intro alive
    obtain ⟨others, _, whole⟩ := stock.alive alive
    rw [whole.mem_iff]
    simp

/-- The descriptors left are among those that are open. -/
theorem Stock.left_le {left : Nat} {failed : Prop} {server : Server}
    (stock : Stock left failed server) : left ≤ server.descriptors.length := by
  by_cases hasFailed : failed
  · exact (stock.dead hasFailed).2.2.ge
  · obtain ⟨others, rfl, whole⟩ := stock.alive hasFailed
    rw [whole.length_eq]
    simp only [List.length_append, List.length_cons]
    omega

/-- The listening socket is open until `accept` fails for the first time and
closed from then on. Back at `accept` the process has one more descriptor for
each client that it has left, so that it never leaves more clients than it may
have descriptors. As soon as `accept` has failed once, `accept` and `recv` fail
in turn for ever in every continuation. -/
theorem run_descriptors (valid : 0 ≤ sfd)
    (ran : step.run (start sfd buf) events = some final) :
    (final.sfd ∈ final.descriptors ↔ .accept .failed ∉ events) ∧
      (final.pc = .accept → final.descriptors.length =
        step.countSteps LeavesClient (start sfd buf) events +
          if .accept .failed ∈ events then 0 else 1) ∧
      step.countSteps LeavesClient (start sfd buf) events ≤
        final.descriptors.length ∧
      (.accept .failed ∈ events → ∀ more last event next,
        step.run final more = some last →
        step last event = some next →
          event = .accept .failed ∨ ∃ beyond,
            event = .recv beyond .failed) := by
  have stock := stock_of_run valid ran
  refine ⟨stock.sfd_mem_iff, ?_, stock.left_le, ?_⟩
  · intro pc
    split
    case isTrue hasFailed => exact (stock.dead hasFailed).2.2
    case isFalse alive =>
      obtain ⟨others, count, whole⟩ := stock.alive alive
      rw [whole.length_eq]
      simp [Server.files, Server.clients, pc, count]
  · intro hasFailed more last event next ranOn stepped
    have ranAll : step.run (start sfd buf) (events ++ more) = some last := by
      rw [Machine.run_append, ran, Option.bind_some, ranOn]
    exact (stock_of_run valid ranAll).only_fails
      (List.mem_append_left _ hasFailed) stepped

/-- One client is served and left, then the process has no descriptor for the
next. -/
def lastClient : List Event :=
  servedClient ++ [.accept .failed]

/-- The last client finds no descriptor for the file. -/
theorem run_descriptors_lastClient :
    ∃ final,
      step.run (start 3 (List.replicate bufSize 0)) lastClient = some final ∧
      1 ≤ final.descriptors.length ∧ ∀ event next,
        step final event = some next →
        event = .accept .failed ∨ ∃ beyond, event = .recv beyond .failed := by
  have reached :
      (step.run (start 3 (List.replicate bufSize 0)) lastClient).isSome =
        true := by decide
  obtain ⟨final, ran⟩ := Option.isSome_iff_exists.mp reached
  obtain ⟨_, _, few, fails⟩ := run_descriptors (by decide) ran
  have one : step.countSteps LeavesClient
      (start 3 (List.replicate bufSize 0)) lastClient = 1 := by
    decide
  exact ⟨final, ran, one ▸ few,
    fun event next => fails (by decide) [] final event next rfl⟩

end Runs

end SocketTcp
end LinuxCPractice
