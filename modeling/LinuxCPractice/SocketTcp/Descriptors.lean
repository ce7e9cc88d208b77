import LinuxCPractice.SocketTcp.Transition
import LinuxCPractice.History

/-!
# The descriptors of the file server

A client is closed where `recv` or `send` fails and nowhere else. The listening
socket is closed where `accept` fails, after which the loop goes on with it.
-/

namespace LinuxCPractice
namespace SocketTcp

open Server

theorem uses_append (first second : List Entry) :
    uses (first ++ second) = uses first ++ uses second :=
  List.filterMap_append

@[simp] theorem clientUses_append (sfd : Int) (first second : List Entry) :
    clientUses sfd (first ++ second) =
      clientUses sfd first ++ clientUses sfd second :=
  List.filterMap_append

/-- No descriptor that was opened is negative. -/
def Numbered (server : Server) : Prop :=
  ∀ fd, .opens fd ∈ uses server.log → 0 ≤ fd

namespace Numbered

variable {server : Server}

theorem start {sfd : Int} (valid : 0 ≤ sfd) (buf : List UInt8) :
    Numbered (start sfd buf) := by
  intro fd opened
  have same : fd = sfd := by simpa [Server.start, uses, Entry.use] using opened
  omega

theorem nonneg_of_held (numbered : Numbered server) {fd : Int}
    (isHeld : fd ∈ Use.held (uses server.log)) : 0 ≤ fd :=
  numbered fd (Use.opens_mem_of_mem_held isHeld)

/-- A step that opens at most a fresh descriptor. -/
theorem append (numbered : Numbered server) {next : Server}
    {entries : List Entry}
    (log : next.log = server.log ++ entries)
    (fresh : ∀ fd, .opens fd ∈ uses entries → 0 ≤ fd) : Numbered next := by
  intro fd opened
  rw [log, uses_append, List.mem_append] at opened
  rcases opened with earlier | now
  · exact numbered fd earlier
  · exact fresh fd now

theorem step {next : Server} {event : Event} (numbered : Numbered server)
    (stepped : step server event = some next) : Numbered next := by
  cases transition_of_step stepped with
  | @accepted new pc listening fresh =>
      refine numbered.append rfl fun fd opened => ?_
      have same : fd = new := by simpa [uses, Entry.use] using opened
      exact same ▸ fresh.1
  | @opened new _ pc fresh =>
      refine numbered.append rfl fun fd opened => ?_
      have same : fd = new := by simpa [uses, Entry.use] using opened
      exact same ▸ fresh.1
  | acceptFailed | recvFailed | received | noLine | sendFailed | sent =>
      exact numbered.append rfl (by simp [uses, Entry.use, List.filterMap_cons])
  | fopenFailed | line => exact numbered

end Numbered

/-! ## Clients that stay open -/

/-- Back at `accept`, every client has been closed exactly once and none is
open. -/
def ClientsClosed (server : Server) : Prop :=
  server.pc = .accept →
    Use.ClosedOnce (clientUses server.sfd server.log) ∧
      Use.held (clientUses server.sfd server.log) = []

/-- `fgets` returns `NULL` or `send` succeeds. -/
def LeavesClient (server : Server) : Event → Prop
  | .fgets result => server.line? result = none
  | .send (.sent _) => True
  | _ => False

instance (server : Server) (event : Event) :
    Decidable (LeavesClient server event) := by
  unfold LeavesClient
  split <;> infer_instance

/-- The client being served, if there is one. -/
def Server.clients (server : Server) : List Int :=
  if server.pc = .accept ∨ server.clientSockFd < 0 then []
  else [server.clientSockFd]

/-- No client is open besides the one being served. -/
structure OnlyServed (server : Server) : Prop where
  used : Use.WellUsed (clientUses server.sfd server.log)
  held : Use.held (clientUses server.sfd server.log) = server.clients
  client : server.pc = .accept ∨
    (server.pc = .recv ∧ server.clientSockFd = -1) ∨
    (0 ≤ server.clientSockFd ∧ server.clientSockFd ≠ server.sfd)

namespace OnlyServed

variable {server : Server}

theorem start (sfd : Int) (buf : List UInt8) : OnlyServed (start sfd buf) where
  used := .nil
  held := rfl
  client := .inl rfl

/-- In front of `accept` no client is connected. -/
theorem held_of_accept (served : OnlyServed server) (pc : server.pc = .accept) :
    Use.held (clientUses server.sfd server.log) = [] := by
  rw [served.held, clients, if_pos (.inl pc)]

/-- Behind `recv` the client's descriptor is one of its own. -/
theorem valid (served : OnlyServed server) (notAccept : server.pc ≠ .accept)
    (notRecv : server.pc ≠ .recv) :
    0 ≤ server.clientSockFd ∧ server.clientSockFd ≠ server.sfd := by
  rcases served.client with accept | ⟨recv, _⟩ | valid
  · exact absurd accept notAccept
  · exact absurd recv notRecv
  · exact valid

/-- Until the next `accept` the client's descriptor is the only one of a
client. -/
theorem held_of_valid (served : OnlyServed server)
    (notAccept : server.pc ≠ .accept)
    (nonneg : 0 ≤ server.clientSockFd) :
    Use.held (clientUses server.sfd server.log) = [server.clientSockFd] := by
  rw [served.held, clients, if_neg]
  rintro (accept | negative)
  · exact notAccept accept
  · omega

/-- Closing the client leaves none open. -/
theorem close (served : OnlyServed server) (notAccept : server.pc ≠ .accept) :
    let history := clientUses server.sfd server.log ++
      clientUses server.sfd [.close server.clientSockFd]
    Use.WellUsed history ∧ Use.held history = [] := by
  rcases served.client with accept | ⟨_, none⟩ | ⟨nonneg, other⟩
  · exact absurd accept notAccept
  · have nothing : clientUses server.sfd [.close server.clientSockFd] = [] := by
      simp [clientUses, Entry.clientUse, none]
    have held := served.held
    rw [clients, if_pos (.inr (by omega))] at held
    simpa [nothing] using ⟨served.used, held⟩
  · have closes : clientUses server.sfd [.close server.clientSockFd] =
        [.closes server.clientSockFd] := by
      have real : ¬(server.clientSockFd = server.sfd ∨
          server.clientSockFd < 0) := by omega
      simp [clientUses, Entry.clientUse, real]
    have held := served.held_of_valid notAccept nonneg
    rw [closes]
    exact ⟨served.used.closes (by simp [held]), by simp [held]⟩

end OnlyServed

/-- A step that opens and closes no client. -/
theorem OnlyServed.unchanged {server next : Server} (served : OnlyServed server)
    (sameUses : clientUses next.sfd next.log = clientUses server.sfd server.log)
    (sameClients : next.clients = server.clients)
    (client : next.pc = .accept ∨ (next.pc = .recv ∧ next.clientSockFd = -1) ∨
      (0 ≤ next.clientSockFd ∧
        next.clientSockFd ≠ next.sfd)) : OnlyServed next where
  used := sameUses ▸ served.used
  held := by rw [sameUses, sameClients, served.held]
  client := client

/-- A step that does not leave a client open. -/
theorem OnlyServed.step {server next : Server} {event : Event}
    (numbered : Numbered server)
    (served : OnlyServed server) (keeps : ¬LeavesClient server event)
    (stepped : step server event = some next) : OnlyServed next := by
  cases transition_of_step stepped with
  | acceptFailed pc =>
      refine served.unchanged ?_ ?_ (.inr (.inl ⟨rfl, rfl⟩))
      · simp [record, clientUses, Entry.clientUse, List.filterMap_cons]
      · simp [clients, pc]
  | @accepted fd pc listening fresh =>
      have held := served.held_of_accept pc
      have other : fd ≠ server.sfd := fun same => fresh.2 (same ▸ listening)
      refine ⟨?_, ?_, .inr (.inr ⟨fresh.1, other⟩)⟩
      · exact clientUses_append _ _ _ ▸ served.used.opens (by simp [held])
      · have nonneg : ¬fd < 0 := by have := fresh.1; omega
        have opens : clientUses server.sfd [.accept server.sfd (.ok fd)] =
            [.opens fd] := rfl
        simp [record, clients, opens, held, nonneg]
  | recvFailed pc =>
      have closed := served.close (by simp [pc])
      refine ⟨?_, ?_, .inl rfl⟩
      · exact clientUses_append _ _ _ ▸ closed.1
      · exact clientUses_append _ _ _ ▸ closed.2
  | received pc connected =>
      have nonneg := numbered.nonneg_of_held connected
      have valid : 0 ≤ server.clientSockFd ∧
          server.clientSockFd ≠ server.sfd := by
        have client := served.client
        simp only [pc, reduceCtorEq, false_or, true_and] at client
        omega
      refine served.unchanged ?_ ?_ (.inr (.inr valid))
      · simp [record, clientUses, Entry.clientUse, List.filterMap_cons]
      · simp [clients, pc, record]
  | fopenFailed pc =>
      have valid := served.valid (by simp [pc]) (by simp [pc])
      exact served.unchanged rfl (by simp [clients, pc]) (.inr (.inr valid))
  | opened pc =>
      have valid := served.valid (by simp [pc]) (by simp [pc])
      refine served.unchanged ?_ ?_ (.inr (.inr valid))
      · simp [record, clientUses, Entry.clientUse, List.filterMap_cons]
      · simp [clients, pc, record]
  | noLine pc null => exact absurd null keeps
  | line pc =>
      have valid := served.valid (by simp [pc]) (by simp [pc])
      exact served.unchanged rfl (by simp [clients, pc]) (.inr (.inr valid))
  | sendFailed pc =>
      have closed := served.close (by simp [pc])
      have entries : clientUses server.sfd
          [.send server.clientSockFd server.reply .failed,
            .close server.clientSockFd, .fclose server.fs] =
              clientUses server.sfd [.close server.clientSockFd] := by
        simp [clientUses, Entry.clientUse, List.filterMap_cons]
      refine ⟨?_, ?_, .inl rfl⟩
      · exact clientUses_append _ _ _ ▸ entries ▸ closed.1
      · exact clientUses_append _ _ _ ▸ entries ▸ closed.2
  | sent pc => exact absurd trivial keeps

/-- A step that leaves a client open comes back to `accept` with it. -/
theorem OnlyServed.exposed {server next : Server} {event : Event}
    (served : OnlyServed server)
    (stepped : Server.step server event = some next)
    (closed : ClientsClosed next) :
    ¬LeavesClient server event := by
  intro leaves
  cases transition_of_step stepped with
  | noLine pc null =>
      have valid := served.valid (by simp [pc]) (by simp [pc])
      have held := served.held_of_valid (by simp [pc]) valid.1
      have released := (closed rfl).2
      have nothing : clientUses server.sfd [.fclose server.fs] = [] := rfl
      simp [record, nothing, held] at released
  | @sent count pc =>
      have valid := served.valid (by simp [pc]) (by simp [pc])
      have held := served.held_of_valid (by simp [pc]) valid.1
      have released := (closed rfl).2
      have nothing : clientUses server.sfd
          [.send server.clientSockFd server.reply (.sent count),
            .fclose server.fs] = [] := rfl
      simp [record, nothing, held] at released
  | acceptFailed | accepted | recvFailed | received | fopenFailed | opened
  | sendFailed =>
      exact leaves
  | line pc read =>
      unfold LeavesClient at leaves
      rw [leaves] at read
      cases read

/-- The loop comes back to `accept` with all clients closed, each exactly once,
as long as no `fgets` returns `NULL` and no `send` succeeds. -/
theorem clientsClosed_iff {sfd : Int} {buf : List UInt8} {events : List Event}
    {final : Server}
    (valid : 0 ≤ sfd) (ran : step.run (start sfd buf) events = some final) :
    step.Always ClientsClosed (start sfd buf) events ↔
      step.EveryStep (fun server event => ¬LeavesClient server event)
        (start sfd buf) events := by
  refine Machine.always_iff_everyStep
    (fun server => Numbered server ∧ OnlyServed server) ?_ ?_ ?_
    ⟨.start valid buf, .start sfd buf⟩ ran
  · rintro server event next ⟨numbered, served⟩ keeps stepped
    exact ⟨numbered.step stepped, served.step numbered keeps stepped⟩
  · rintro server ⟨_, served⟩ pc
    have held := served.held_of_accept pc
    exact ⟨served.used.closedOnce held, held⟩
  · rintro server event next ⟨_, served⟩ stepped closed
    exact served.exposed stepped closed

/-- A client that sends nothing but resets its connection, then one to which the
reply cannot be sent. -/
def refusedClients : List Event :=
  [.accept (.ok 4), .recv [] .failed, .accept (.ok 4),
    .recv [] (.data [104, 105]),
    .fopen (.opened 5 [72, 105, 10]), .fgets .done, .send .failed]

/-- Clients that send nothing. -/
theorem clientsClosed_iff_refusedClients :
    step.Always ClientsClosed
      (start 3 (List.replicate bufSize 0)) refusedClients := by
  have reached :
      (step.run (start 3 (List.replicate bufSize 0)) refusedClients).isSome =
        true := by decide
  obtain ⟨final, ran⟩ := Option.isSome_iff_exists.mp reached
  exact (clientsClosed_iff (by decide) ran).mpr (by decide)

/-- One client that gets its reply. -/
def servedClient : List Event :=
  [.accept (.ok 4), .recv [] (.data [104, 105]),
    .fopen (.opened 5 [72, 105, 10]), .fgets .done,
    .send (.sent 4)]

/-- The served client stays open. -/
theorem not_clientsClosed_servedClient :
    ∃ final, step.run (start 3 (List.replicate bufSize 0)) servedClient =
      some final ∧
      final.pc = .accept ∧ Use.held (clientUses 3 final.log) = [4] ∧
      ¬ClientsClosed final := by
  have reached :
      (step.run (start 3 (List.replicate bufSize 0)) servedClient).map
      (fun server => (server.pc, server.sfd,
        Use.held (clientUses 3 server.log))) =
        some (.accept, 3, [4]) := by decide
  obtain ⟨final, ran, values⟩ := Option.map_eq_some_iff.mp reached
  simp only [Prod.mk.injEq] at values
  obtain ⟨pc, sfd, held⟩ := values
  refine ⟨final, ran, pc, held, ?_⟩
  intro closed
  have released := (closed pc).2
  rw [sfd, held] at released
  cases released

/-! ## Calls on descriptors that are not open -/

/-- Every socket call of the log was issued on a descriptor that was open. -/
def OnOpen (log : List Entry) : Prop :=
  ∀ past entry rest, log = past ++ entry :: rest →
    ∀ fd ∈ entry.target, fd ∈ Use.held (uses past)

/-- The calls are on open descriptors exactly if each of them is. -/
theorem onOpen_iff_justified {log : List Entry} : OnOpen log ↔
    History.Justified (fun past entry => ∀ fd ∈ entry.target,
      fd ∈ Use.held (uses past)) log :=
  Iff.rfl

theorem OnOpen.concat {log : List Entry} {entry : Entry} (earlier : OnOpen log)
    (now : ∀ fd ∈ entry.target, fd ∈ Use.held (uses log)) :
    OnOpen (log ++ [entry]) := by
  rw [onOpen_iff_justified] at earlier ⊢
  exact earlier.concat now

/-- The descriptors open after one more call. -/
def heldAfter (held : List Int) (entry : Entry) : List Int :=
  entry.use.elim held (Use.apply held)

@[simp] theorem held_uses_append (log entries : List Entry) :
    Use.held (uses (log ++ entries)) =
      entries.foldl heldAfter (Use.held (uses log)) := by
  induction entries using List.reverseRecOn with
  | nil => simp
  | append_singleton entries entry inductionHypothesis =>
      rw [← List.append_assoc, uses_append, List.foldl_append,
        ← inductionHypothesis]
      cases use : entry.use with
      | none => simp [heldAfter, uses, use]
      | some use => simp [heldAfter, uses, use, Use.held]

/-- Socket calls made from the given open descriptors on are on open ones. -/
def TargetsOpen (held : List Int) : List Entry → Prop
  | [] => True
  | entry :: entries =>
      (∀ fd ∈ entry.target, fd ∈ held) ∧ TargetsOpen
      (heldAfter held entry) entries

theorem OnOpen.append {log entries : List Entry} (earlier : OnOpen log)
    (now : TargetsOpen (Use.held (uses log)) entries) :
    OnOpen (log ++ entries) := by
  induction entries generalizing log with
  | nil => simpa using earlier
  | cons entry entries inductionHypothesis =>
      rw [List.append_cons]
      apply inductionHypothesis (earlier.concat now.1)
      simpa using now.2

/-- The descriptor of the call at which the loop stands. -/
def Server.target (server : Server) : Option Int :=
  match server.pc with
  | .accept => some server.sfd
  | .recv => some server.clientSockFd
  | .send => some server.clientSockFd
  | _ => none

/-- All socket calls so far and the one to come are on open descriptors. -/
def CallsOpen (server : Server) : Prop :=
  OnOpen server.log ∧ ∀ fd ∈ server.target, fd ∈ Use.held (uses server.log)

/-- The listening socket is open, and so is the client being served. -/
structure Listening (server : Server) : Prop where
  onOpen : OnOpen server.log
  sfd : server.sfd ∈ Use.held (uses server.log)
  client : server.pc ≠ .accept →
    server.clientSockFd ∈ Use.held (uses server.log) ∧
    server.clientSockFd ≠ server.sfd
  fs : server.pc = .fgets ∨ server.pc = .send → server.fs ≠ server.sfd

namespace Listening

variable {server next : Server} {event : Event}

theorem start (sfd : Int) (buf : List UInt8) : Listening (start sfd buf) where
  onOpen := by
    have nothing : OnOpen [] := by simp [OnOpen]
    exact nothing.concat (by simp [Entry.target])
  sfd := by simp [Server.start, uses, Entry.use, Use.held, Use.apply]
  client := fun notAccept => absurd rfl notAccept
  fs := by simp [Server.start]

theorem callsOpen (listening : Listening server) : CallsOpen server := by
  refine ⟨listening.onOpen, ?_⟩
  intro fd target
  unfold Server.target at target
  split at target
  case h_1 =>
    cases target
    exact listening.sfd
  case h_2 pc =>
    cases target
    exact (listening.client (by simp [pc])).1
  case h_3 pc =>
    cases target
    exact (listening.client (by simp [pc])).1
  case h_4 => cases target

theorem step (listening : Listening server) (accepts : event ≠ .accept .failed)
    (stepped : step server event = some next) : Listening next := by
  have client : server.pc ≠ .accept →
      server.sfd ∈ (Use.held (uses server.log)).erase
      server.clientSockFd := fun notAccept =>
    (List.mem_erase_of_ne (listening.client notAccept).2.symm).mpr listening.sfd
  cases transition_of_step stepped with
  | acceptFailed pc => exact absurd rfl accepts
  | @accepted fd pc isHeld fresh =>
      have other : fd ≠ server.sfd := fun same => fresh.2 (same ▸ isHeld)
      refine ⟨listening.onOpen.append ?_, ?_, fun _ => ⟨?_, other⟩, by simp⟩
      · simpa [TargetsOpen, Entry.target] using isHeld
      · simpa [record, heldAfter, Entry.use, Use.apply] using Or.inl isHeld
      · simp [record, heldAfter, Entry.use, Use.apply]
  | recvFailed pc =>
      have served := (listening.client (by simp [pc])).1
      refine ⟨listening.onOpen.append ?_, ?_,
        fun notAccept => absurd rfl notAccept, by simp⟩
      · simpa [TargetsOpen, Entry.target, heldAfter, Entry.use] using served
      · simpa [record, heldAfter, Entry.use, Use.apply]
          using client (by simp [pc])
  | received pc connected =>
      have served := listening.client (by simp [pc])
      refine ⟨listening.onOpen.append ?_, ?_, ?_, by simp⟩
      · simpa [TargetsOpen, Entry.target] using served.1
      · simpa [record, heldAfter, Entry.use] using listening.sfd
      · simpa [record, heldAfter, Entry.use] using served
  | fopenFailed pc =>
      exact ⟨listening.onOpen, listening.sfd,
        fun _ => listening.client (by simp [pc]), by simp⟩
  | @opened fd content pc fresh =>
      have served := listening.client (by simp [pc])
      have other : fd ≠ server.sfd := fun same => fresh.2 (same ▸ listening.sfd)
      refine ⟨listening.onOpen.append ?_, ?_, ?_, fun _ => other⟩
      · simp [TargetsOpen, Entry.target]
      · simpa [record, heldAfter, Entry.use, Use.apply]
          using Or.inl listening.sfd
      · simpa [record, heldAfter, Entry.use, Use.apply]
          using ⟨Or.inl served.1, served.2⟩
  | noLine pc null =>
      have kept :=
        (List.mem_erase_of_ne (listening.fs (.inl pc)).symm).mpr listening.sfd
      refine ⟨listening.onOpen.append ?_, ?_,
        fun notAccept => absurd rfl notAccept, by simp⟩
      · simp [TargetsOpen, Entry.target]
      · simpa [record, heldAfter, Entry.use, Use.apply] using kept
  | line pc =>
      exact ⟨listening.onOpen, listening.sfd,
        fun _ => listening.client (by simp [pc]),
        fun _ => listening.fs (.inl pc)⟩
  | sendFailed pc =>
      have served := (listening.client (by simp [pc])).1
      have kept := (List.mem_erase_of_ne (listening.fs (.inr pc)).symm).mpr
        (client (by simp [pc]))
      refine ⟨listening.onOpen.append ?_, ?_,
        fun notAccept => absurd rfl notAccept, by simp⟩
      · simpa [TargetsOpen, Entry.target, heldAfter, Entry.use] using served
      · simpa [record, heldAfter, Entry.use, Use.apply] using kept
  | sent pc =>
      have served := (listening.client (by simp [pc])).1
      have kept :=
        (List.mem_erase_of_ne (listening.fs (.inr pc)).symm).mpr listening.sfd
      refine ⟨listening.onOpen.append ?_, ?_,
        fun notAccept => absurd rfl notAccept, by simp⟩
      · simpa [TargetsOpen, Entry.target] using served
      · simpa [record, heldAfter, Entry.use, Use.apply] using kept

/-- After a failed `accept` the loop stands at `recv` with `-1`. -/
theorem exposed (numbered : Numbered next)
    (stepped : Server.step server event = some next)
    (callsOpen : CallsOpen next) : event ≠ .accept .failed := by
  rintro rfl
  cases transition_of_step stepped with
  | acceptFailed pc =>
      have nonneg := numbered.nonneg_of_held (callsOpen.2 (-1) rfl)
      omega

end Listening

/-- All socket calls of the loop are on open descriptors, `accept` on the open
listening socket among them, as long as no `accept` fails. -/
theorem callsOpen_iff {sfd : Int} {buf : List UInt8} {events : List Event}
    {final : Server}
    (valid : 0 ≤ sfd) (ran : step.run (start sfd buf) events = some final) :
    step.Always CallsOpen (start sfd buf) events ↔
      .accept .failed ∉ events := by
  have throughout : step.Always CallsOpen (start sfd buf) events ↔
      step.EveryStep (fun _ event => event ≠ .accept .failed)
        (start sfd buf) events := by
    refine Machine.always_iff_everyStep (fun server => Numbered server ∧
      Listening server)
      ?_ ?_ ?_ ⟨.start valid buf, .start sfd buf⟩ ran
    · rintro server event next ⟨numbered, listening⟩ accepts stepped
      exact ⟨numbered.step stepped, listening.step accepts stepped⟩
    · rintro server ⟨_, listening⟩
      exact listening.callsOpen
    · rintro server event next ⟨numbered, _⟩ stepped callsOpen
      exact Listening.exposed (numbered.step stepped) stepped callsOpen
  rw [throughout, Machine.everyStep_event_iff ran]
  exact List.forall_mem_ne'

/-- A client that is served. -/
theorem callsOpen_iff_servedClient :
    step.Always CallsOpen
      (start 3 (List.replicate bufSize 0)) servedClient := by
  have reached :
      (step.run (start 3 (List.replicate bufSize 0)) servedClient).isSome =
        true := by decide
  obtain ⟨final, ran⟩ := Option.isSome_iff_exists.mp reached
  exact (callsOpen_iff (by decide) ran).mpr (by decide)

/-- After one `accept` that failed, `recv` fails on `-1` and the loop comes back
to `accept` without a listening socket. -/
theorem not_callsOpen_failedAccept :
    ∃ final, step.run (start 3 (List.replicate bufSize 0))
        [.accept .failed, .recv [] .failed] = some final ∧
      final.pc = .accept ∧ final.sfd ∉ Use.held (uses final.log) ∧
      ¬CallsOpen final := by
  have reached : (step.run (start 3 (List.replicate bufSize 0))
      [.accept .failed, .recv [] .failed]).map (fun server =>
        (server.pc, server.sfd, Use.held (uses server.log))) = some (.accept, 3,
          []) := by decide
  obtain ⟨final, ran, values⟩ := Option.map_eq_some_iff.mp reached
  simp only [Prod.mk.injEq] at values
  obtain ⟨pc, sfd, held⟩ := values
  refine ⟨final, ran, pc, by simp [held], ?_⟩
  intro callsOpen
  have target : final.target = some 3 := by rw [target, pc, ← sfd]
  simpa [held] using callsOpen.2 3 target

end SocketTcp
end LinuxCPractice
