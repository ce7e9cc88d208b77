import LinuxCPractice.PollSocket.Table

/-!
# The loop invariant of the server

What holds at each place of `main`, over every run. At the head of the loop no
entry is marked, so the table lists the listening socket and the open
connections. Marks exist only behind the scan, which is why neither the scan nor
the loop at `out` ever touches one.
-/

namespace LinuxCPractice
namespace PollSocket

open Server

/-- The table of the server is in order. -/
abbrev Server.TableHolds (server : Server) : Prop :=
  Table server.listenSd server.fds server.nfds server.log

/-- No entry of the server from `start` on is marked. -/
abbrev Server.UnmarkedFrom (server : Server) (start : Nat) : Prop :=
  Unmarked server.fds server.nfds start

/-- The invariant of `main`, by the place where it stands. -/
def Invariant (server : Server) : Prop :=
  match server.pc with
  | .setup .socket => server.log = [] ∧ server.nfds = 1
  | .setup _ =>
      server.log = [.socket server.listenSd] ∧ 0 ≤ server.listenSd ∧
        server.nfds = 1
  | .poll => server.TableHolds ∧ server.UnmarkedFrom 0
  | .scan =>
      server.TableHolds ∧ server.i ≤ server.currentSize ∧
        server.currentSize ≤ server.nfds ∧
        server.UnmarkedFrom server.i
  | .accept =>
      server.TableHolds ∧ server.i = 0 ∧ 0 < server.currentSize ∧
        server.currentSize ≤ server.nfds ∧ server.UnmarkedFrom 0
  | .recv | .send =>
      server.TableHolds ∧ 0 < server.i ∧ server.i < server.currentSize ∧
        server.currentSize ≤ server.nfds ∧ server.UnmarkedFrom server.i ∧
        server.closeConn = false
  | .optimize | .out | .killed => server.TableHolds
  | .exited _ => Use.ClosedOnce (uses server.log)
  | .fault access =>
      server.nfds = 32 ∧ ∀ index, access = .read index → server.TableHolds

theorem Unmarked.mono {fds : Vector Pollfd 32} {nfds start later : Nat}
    (unmarked : Unmarked fds nfds start) (le : start ≤ later) :
    Unmarked fds nfds later :=
  fun index inside from_later before => unmarked index inside (by omega) before

/-- Writing an entry before `start` or one that is not marked leaves the rest
unmarked. -/
theorem Unmarked.set {fds : Vector Pollfd 32} {nfds start index : Nat}
    (unmarked : Unmarked fds nfds start) (inside : index < 32) {entry : Pollfd}
    (allowed : index < start ∨ entry.fd ≠ -1) :
    Unmarked (fds.set index entry) nfds start := by
  intro other bound from_start before
  rw [Vector.getElem_set]
  split
  · rcases allowed with earlier | unmarkedEntry
    · omega
    · exact unmarkedEntry
  · exact unmarked other bound from_start before

/-- Storing results marks no entry. -/
theorem Unmarked.storeRevents {fds : Vector Pollfd 32} {nfds start : Nat}
    (unmarked : Unmarked fds nfds start) (revents : List (BitVec 16)) :
    Unmarked (Server.storeRevents fds revents) nfds start := by
  intro index inside from_start before
  rw [Server.storeRevents, Vector.getElem_mapIdx]
  have same := unmarked index inside from_start before
  cases revents[index]? <;> exact same

/-- A new entry that is not marked comes to the others. -/
theorem Unmarked.append {fds : Vector Pollfd 32} {nfds start : Nat}
    (unmarked : Unmarked fds nfds start) (inside : nfds < 32) {entry : Pollfd}
    (allowed : entry.fd ≠ -1) :
    Unmarked (fds.set nfds entry) (nfds + 1) start := by
  intro index bound from_start before
  rw [Vector.getElem_set]
  split
  · exact allowed
  · exact unmarked index bound from_start (by omega)

/-- The scan stays within the table. -/
theorem Table.inside {listenSd : Int} {fds : Vector Pollfd 32} {nfds : Nat}
    {log : List Entry}
    (table : Table listenSd fds nfds log) {i currentSize : Nat}
    (more : i < currentSize)
    (fits : currentSize ≤ nfds) : i < 32 := by
  have bound := table.nfds_le
  omega

/-! ## The pieces of `main` -/

/-- A server that could not prepare its listening socket has closed it. -/
theorem closedOnce_socket_close (sd : Int) :
    Use.ClosedOnce (uses [.socket sd, .close sd]) := by
  have used := Use.WellUsed.nil.opens (List.not_mem_nil : sd ∉ [])
  exact (used.closes List.mem_cons_self).closedOnce
    (by simp [Use.held, Use.apply])

/-- The table begins with the listening socket. -/
theorem invariant_prepareTable {server : Server}
    (log : server.log = [.socket server.listenSd])
    (nonneg : 0 ≤ server.listenSd) (nfds : server.nfds = 1) :
    Invariant server.prepareTable := by
  have table : server.prepareTable.TableHolds := by
    simp only [TableHolds, prepareTable, log, nfds]
    exact Table.initial nonneg
  refine ⟨table, ?_⟩
  intro index inside _ before
  obtain rfl : index = 0 := by
    simp only [prepareTable, nfds] at before
    omega
  rw [table.listening]
  show server.listenSd ≠ -1
  omega

/-- The compaction leaves the table only when it is full. -/
theorem nfds_eq_of_compact_error {fds : Vector Pollfd 32} {nfds : Nat}
    {access : Access}
    (fits : nfds ≤ 32) (result : compact fds 0 nfds = .error access) :
    nfds = 32 := by
  by_contra notFull
  obtain ⟨_, _, inside⟩ := compact_inside (by omega : 0 + nfds < 32) fds
  rw [inside] at result
  cases result

/-- Closing the connection of the current entry behind the first leaves the scan
in order. -/
theorem invariant_closeEntry (server : Server) (table : server.TableHolds)
    (behind : 0 < server.i) (more : server.i < server.currentSize)
    (fits : server.currentSize ≤ server.nfds)
    (unmarked : server.UnmarkedFrom server.i)
    (inside : server.i < 32) : Invariant (server.closeEntry inside) := by
  have current := unmarked server.i inside (Nat.le_refl _) (by omega)
  refine ⟨table.close inside (by omega) behind current, ?_, fits, ?_⟩
  · exact more
  · exact (unmarked.mono (Nat.le_succ server.i)).set inside
      (.inl (Nat.lt_succ_self server.i))

/-- The scan finds the listening socket at the first entry and nowhere else. -/
theorem listening_iff_of_scan {server : Server} (holds : Invariant server)
    (pc : server.pc = .scan) (more : server.i < server.currentSize)
    (inside : server.i < 32) :
    server.fds[server.i].fd = server.listenSd ↔ server.i = 0 := by
  rw [Invariant, pc] at holds
  obtain ⟨table, _, fits, unmarked⟩ := holds
  have before := Nat.lt_of_lt_of_le more fits
  have current := unmarked server.i inside (Nat.le_refl _) before
  exact table.listening_iff inside before current

/-- During the setup the invariant only knows the listening socket. -/
theorem invariant_setup_iff {server : Server} {call : Setup}
    (pc : server.pc = .setup call)
    (later : call ≠ .socket) :
    Invariant server ↔
      server.log = [.socket server.listenSd] ∧ 0 ≤ server.listenSd ∧
        server.nfds = 1 := by
  rw [Invariant, pc]
  cases call <;> first | rfl | exact absurd rfl later

/-- Every transition preserves the invariant. -/
theorem Transition.invariant {server next : Server} {event : Event}
    (transition : Transition server event next) (holds : Invariant server) :
    Invariant next := by
  cases transition with
  | socketFailed pc _ =>
      rw [Invariant, pc] at holds
      intro name
      exact ⟨0, by rw [holds.1]; rfl⟩
  | socketOpened pc opened =>
      rw [Invariant, pc] at holds
      exact ⟨by simp [record, holds.1], opened, holds.2⟩
  | setupFailed pc later _ =>
      have before := ((invariant_setup_iff pc later).mp holds).1
      show Use.ClosedOnce (uses (server.log ++ [.close server.listenSd]))
      rw [before]
      exact closedOnce_socket_close server.listenSd
  | @setupContinued call next _ pc later follows =>
      have before := (invariant_setup_iff pc later).mp holds
      have still : next ≠ .socket := by
        rintro rfl
        cases call <;> cases follows
      exact (invariant_setup_iff rfl still).mpr before
  | listening pc =>
      rw [Invariant, pc] at holds
      exact invariant_prepareTable holds.1 holds.2.1 holds.2.2
  | pollFailed pc =>
      rw [Invariant, pc] at holds
      exact holds.1.concat rfl rfl
  | pollReady pc _ =>
      rw [Invariant, pc] at holds
      exact ⟨(holds.1.concat rfl rfl).storeRevents _, Nat.zero_le _,
        Nat.le_refl _, holds.2.storeRevents _⟩
  | scanned pc _ =>
      rw [Invariant, pc] at holds
      exact holds.1
  | scanOutside pc more outside =>
      rw [Invariant, pc] at holds
      exact absurd (holds.1.inside more holds.2.2.1) (Nat.not_lt.mpr outside)
  | scanSkip pc more _ _ =>
      rw [Invariant, pc] at holds
      obtain ⟨table, _, fits, unmarked⟩ := holds
      simp only [Invariant, pc]
      exact ⟨table, more, fits, unmarked.mono (Nat.le_succ _)⟩
  | scanListening pc more inside _ listening =>
      have first := (listening_iff_of_scan holds pc more inside).mp listening
      rw [Invariant, pc] at holds
      obtain ⟨table, _, fits, unmarked⟩ := holds
      exact ⟨table, first, by simp only; omega, fits, first ▸ unmarked⟩
  | scanReadable pc more inside _ connection =>
      have behind := Nat.pos_of_ne_zero
        (mt (listening_iff_of_scan holds pc more inside).mpr connection)
      rw [Invariant, pc] at holds
      obtain ⟨table, _, fits, unmarked⟩ := holds
      exact ⟨table.concat rfl rfl, behind, more, fits, unmarked, rfl⟩
  | acceptSkipped pc _ =>
      rw [Invariant, pc] at holds
      obtain ⟨table, first, nonempty, fits, unmarked⟩ := holds
      exact ⟨table, by simp only; omega, fits, unmarked.mono (Nat.zero_le _)⟩
  | acceptFailed pc _ =>
      rw [Invariant, pc] at holds
      exact holds.1.concat rfl rfl
  | acceptWouldBlock pc _ =>
      rw [Invariant, pc] at holds
      obtain ⟨table, first, nonempty, fits, unmarked⟩ := holds
      exact ⟨table.concat rfl rfl, by simp only [record]; omega, fits,
        unmarked.mono (Nat.zero_le _)⟩
  | @accepted fd pc _ nonneg free inside =>
      rw [Invariant, pc] at holds
      obtain ⟨table, first, nonempty, fits, unmarked⟩ := holds
      simp only [Invariant, record, pc]
      refine ⟨table.append nonneg free inside, first, nonempty, by omega, ?_⟩
      apply unmarked.append inside
      show fd ≠ -1
      omega
  | acceptOutside pc _ _ _ outside =>
      rw [Invariant, pc] at holds
      have := holds.1.nfds_le
      exact ⟨show server.nfds = 32 by omega, fun index isRead => by cases isRead⟩
  | recvOutside pc outside =>
      rw [Invariant, pc] at holds
      obtain ⟨table, _, more, fits, _⟩ := holds
      exact absurd (table.inside more fits) (Nat.not_lt.mpr outside)
  | received pc _ _ _ =>
      rw [Invariant, pc] at holds
      exact ⟨holds.1.concat rfl rfl, holds.2⟩
  | recvWouldBlock pc _ _ =>
      rw [Invariant, pc] at holds
      obtain ⟨table, _, more, fits, unmarked, _⟩ := holds
      exact ⟨table.concat rfl rfl, more, fits, unmarked.mono (Nat.le_succ _)⟩
  | recvClosed pc inside _ =>
      rw [Invariant, pc] at holds
      obtain ⟨table, behind, more, fits, unmarked, _⟩ := holds
      exact invariant_closeEntry (server.record _)
        (table.concat rfl rfl) behind more fits
        unmarked inside
  | sendOutside pc outside =>
      rw [Invariant, pc] at holds
      obtain ⟨table, _, more, fits, _⟩ := holds
      exact absurd (table.inside more fits) (Nat.not_lt.mpr outside)
  | sent pc _ _ =>
      rw [Invariant, pc] at holds
      exact ⟨holds.1.concat rfl rfl, holds.2⟩
  | sendFailed pc inside =>
      rw [Invariant, pc] at holds
      obtain ⟨table, behind, more, fits, unmarked, _⟩ := holds
      exact invariant_closeEntry (server.record _)
        (table.concat rfl rfl) behind more fits
        unmarked inside
  | sendKilled pc inside =>
      rw [Invariant, pc] at holds
      exact holds.1.concat rfl rfl
  | optimized pc result =>
      rw [Invariant, pc] at holds
      exact holds.compact result
  | optimizeOutside pc result =>
      rw [Invariant, pc] at holds
      exact ⟨nfds_eq_of_compact_error holds.nfds_le result, fun _ _ => holds⟩
  | left pc =>
      rw [Invariant, pc] at holds
      exact holds.closes_all.1.closedOnce holds.closes_all.2

theorem invariant_start : Invariant start := ⟨rfl, rfl⟩

/-- Every step keeps the invariant. -/
theorem step_invariant (server : Server) (event : Event) (next : Server)
    (holds : Invariant server) (stepped : step server event = some next) :
    Invariant next :=
  (step_transition stepped).invariant holds

/-- The invariant holds after every run. -/
theorem run_invariant {server : Server} {events : List Event}
    (ran : step.run start events = some server) : Invariant server :=
  Machine.run_invariant Invariant step_invariant invariant_start ran

/-! ## The table at the head of the loop and the descriptors at the end -/

/-- What the loop can rely on when it calls `poll`. -/
structure HeadOfLoop (server : Server) : Prop where
  distinct : (descriptors server.fds server.nfds).Nodup
  unmarked : -1 ∉ descriptors server.fds server.nfds
  listening : server.fds.head.fd = server.listenSd
  polled : ∀ index (inside : index < 32), index < server.nfds →
    server.fds[index].events = pollIn
  listed : descriptors server.fds server.nfds =
    server.listenSd :: connections server.log

/-- In front of `poll` the invariant describes the head of the loop. -/
theorem headOfLoop {server : Server} (holds : Invariant server)
    (pc : server.pc = .poll) :
    HeadOfLoop server := by
  rw [Invariant, pc] at holds
  obtain ⟨table, unmarked⟩ := holds
  have listed := table.descriptors_eq unmarked
  refine ⟨?_, ?_, table.listening, table.events, listed⟩
  · rw [listed, ← table.connections]
    exact table.used.nodup
  · rw [listed, ← table.connections]
    intro mark
    have := table.nonneg _ mark
    omega

/-- In every run with fewer than 32 entries in use, the table is in order at
each head of the loop, a server that has left the loop has closed everything it
opened exactly once, and no access leaves the table. -/
theorem run_table {events : List Event} {server : Server}
    (ran : step.run start events = some server)
    (bounded : step.Always (fun visited => visited.nfds < 32) start events) :
    (server.pc = .poll → HeadOfLoop server) ∧
      (∀ status, server.pc = .exited status →
        Use.ClosedOnce (uses server.log)) ∧
      ∀ access, server.pc ≠ .fault access := by
  have holds := run_invariant ran
  refine ⟨headOfLoop holds, ?_, ?_⟩
  · intro status pc
    rwa [Invariant, pc] at holds
  · intro access pc
    rw [Invariant, pc] at holds
    have := bounded.last ran
    have := holds.1
    omega

/-- The listening socket is prepared as descriptor 3. -/
def prepared : List Event := [.setup 3, .setup 0, .setup 0, .setup 0, .setup 0]

/-- Two connections are accepted in one pass, then the first is read and
closed. -/
def twoClients : List Event :=
  prepared ++
    [.poll (.ready [pollIn]), .internal, .accept (.ok 4), .accept (.ok 5),
      .accept .wouldBlock, .internal, .internal,
      .poll (.ready [0, pollIn, 0]), .internal, .internal,
      .recv (.data [104, 105]),
      .send [] (.sent 3), .recv .endOfStream, .internal, .internal, .internal]

/-- Two clients at the head of the loop, and the end that closes them. -/
theorem run_table_twoClients :
    (∃ server, step.run start twoClients = some server ∧ HeadOfLoop server) ∧
      ∃ server, step.run start (twoClients ++ [.poll .failed, .internal]) =
        some server ∧
        Use.ClosedOnce (uses server.log) := by
  constructor
  · have reached : (step.run start twoClients).map Server.pc =
        some .poll := by decide
    obtain ⟨server, ran, pc⟩ := Option.map_eq_some_iff.mp reached
    exact ⟨server, ran, (run_table ran (by decide)).1 pc⟩
  · have reached :
        (step.run start (twoClients ++ [.poll .failed, .internal])).map
          Server.pc =
        some (.exited 0) := by decide
    obtain ⟨server, ran, pc⟩ := Option.map_eq_some_iff.mp reached
    exact ⟨server, ran, (run_table ran (by decide)).2.1 0 pc⟩

end PollSocket
end LinuxCPractice
