import LinuxCPractice.PollSocket.Transition

/-!
# The table follows the open connections

The entries that are not marked are the descriptors the process holds: the
listening socket, then the accepted and not yet closed connections in the order
they were accepted. Each piece of `main` that changes the table keeps this.
-/

namespace LinuxCPractice
namespace PollSocket

/-! ## Reading the log -/

@[simp] theorem uses_nil : uses [] = [] := rfl

@[simp] theorem uses_concat (log : List Entry) (entry : Entry) :
    uses (log ++ [entry]) = uses log ++ entry.use.toList := by
  cases result : entry.use <;> simp [uses, result]

/-- An entry that uses no descriptor adds no use. -/
theorem uses_concat_quiet (log : List Entry) {entry : Entry}
    (quiet : entry.use = none) :
    uses (log ++ [entry]) = uses log := by
  simp [quiet]

@[simp] theorem connections_nil : connections [] = [] := rfl

/-- Every entry but `socket` opens or closes a connection exactly when it opens
or closes a descriptor. -/
theorem connections_concat {log : List Entry} {entry : Entry}
    (later : entry.connectionUse = entry.use) :
    connections (log ++ [entry]) =
      entry.use.toList.foldl Use.apply (connections log) := by
  cases result : entry.use <;> simp [connections, Use.held, later, result]

/-! ## The invariant of the table -/

/-- What holds of the table whenever it is in use. -/
structure Table (listenSd : Int) (fds : Vector Pollfd 32) (nfds : Nat)
    (log : List Entry) :
    Prop where
  nfds_pos : 0 < nfds
  nfds_le : nfds ≤ 32
  listening : fds[0].fd = listenSd
  events : ∀ index (inside : index < 32), index < nfds →
    fds[index].events = pollIn
  kept : (descriptors fds nfds).filter (· ≠ -1) = Use.held (uses log)
  used : Use.WellUsed (uses log)
  nonneg : ∀ fd ∈ Use.held (uses log), 0 ≤ fd
  connections : Use.held (uses log) = listenSd :: connections log

/-- No entry from `start` on is marked. -/
def Unmarked (fds : Vector Pollfd 32) (nfds start : Nat) : Prop :=
  ∀ index (inside : index < 32), start ≤ index → index < nfds →
    fds[index].fd ≠ -1

namespace Table

variable {listenSd : Int} {fds : Vector Pollfd 32} {nfds : Nat}
  {log : List Entry}

/-- The listening socket comes first. -/
theorem descriptors_eq_cons (table : Table listenSd fds nfds log) :
    descriptors fds nfds = listenSd :: (descriptors fds nfds).drop 1 := by
  have split := drop_descriptors fds (by omega : 0 < 32) table.nfds_pos
  rwa [List.drop_zero, table.listening] at split

/-- The listening socket has a descriptor. -/
theorem listenSd_nonneg (table : Table listenSd fds nfds log) : 0 ≤ listenSd :=
  table.nonneg listenSd (by simp [table.connections])

/-- No descriptor has two entries. -/
theorem nodup (table : Table listenSd fds nfds log) :
    ((descriptors fds nfds).filter (· ≠ -1)).Nodup :=
  table.kept ▸ table.used.nodup

/-- Without marks the descriptors are the listening socket and the
connections. -/
theorem descriptors_eq (table : Table listenSd fds nfds log)
    (unmarked : Unmarked fds nfds 0) :
    descriptors fds nfds = listenSd :: PollSocket.connections log := by
  rw [← table.connections, ← table.kept, eq_comm, List.filter_eq_self]
  intro fd present
  obtain ⟨index, bound, rfl⟩ := List.getElem_of_mem present
  have inside : index < min nfds 32 := by simpa using bound
  rw [getElem_descriptors fds (by omega)]
  simpa using unmarked index (by omega) (by omega) (by omega)

/-- An unmarked entry behind the first is a held connection, not the listening
socket. -/
theorem connection (table : Table listenSd fds nfds log) {index : Nat}
    (inside : index < 32) (before : index < nfds) (behind : 0 < index)
    (unmarked : fds[index].fd ≠ -1) :
    fds[index].fd ∈ PollSocket.connections log ∧ fds[index].fd ≠ listenSd := by
  have fits : index < (descriptors fds nfds).length := by
    rw [length_descriptors]
    omega
  have later :
      fds[index].fd ∈ ((descriptors fds nfds).drop 1).filter (· ≠ -1) := by
    rw [List.mem_filter, ← getElem_descriptors fds inside fits]
    refine ⟨?_, by simpa [getElem_descriptors fds inside] using unmarked⟩
    rw [List.mem_iff_getElem]
    refine ⟨index - 1, by rw [List.length_drop]; omega, ?_⟩
    rw [List.getElem_drop]
    congr 1
    omega
  have split : listenSd :: PollSocket.connections log =
      listenSd :: ((descriptors fds nfds).drop 1).filter (· ≠ -1) := by
    rw [← table.connections, ← table.kept]
    conv_lhs => rw [table.descriptors_eq_cons]
    exact List.filter_cons_of_pos
      (by have := table.listenSd_nonneg; simp; omega)
  have distinct := table.used.nodup
  rw [table.connections] at distinct
  rw [(List.cons.inj split).2]
  refine ⟨later, ?_⟩
  rintro equal
  rw [(List.cons.inj split).2] at distinct
  exact (List.nodup_cons.mp distinct).1 (equal ▸ later)

/-- The listening socket stands in the first entry only. -/
theorem listening_iff (table : Table listenSd fds nfds log) {index : Nat}
    (inside : index < 32) (before : index < nfds)
    (unmarked : fds[index].fd ≠ -1) :
    fds[index].fd = listenSd ↔ index = 0 := by
  constructor
  · intro isListening
    by_contra notFirst
    exact (table.connection inside before (by omega) unmarked).2 isListening
  · rintro rfl
    exact table.listening

/-! ## Each change of the table keeps the invariant -/

/-- An entry that uses no descriptor leaves the table as it should be. -/
theorem concat (table : Table listenSd fds nfds log) {entry : Entry}
    (quiet : entry.use = none) (later : entry.connectionUse = none) :
    Table listenSd fds nfds (log ++ [entry]) := by
  have sameUses := uses_concat_quiet log quiet
  have sameConnections : PollSocket.connections (log ++ [entry]) =
      PollSocket.connections log := by
    simp [connections_concat (later.trans quiet.symm), quiet]
  obtain ⟨nfds_pos, nfds_le, listening, events, kept, used, nonneg,
    connections⟩ := table
  exact ⟨nfds_pos, nfds_le, listening, events, sameUses ▸ kept, sameUses ▸ used,
    sameUses ▸ nonneg, by rw [sameUses, sameConnections, connections]⟩

/-- Results that are stored leave the table as it should be. -/
theorem storeRevents (table : Table listenSd fds nfds log)
    (revents : List (BitVec 16)) :
    Table listenSd (Server.storeRevents fds revents) nfds log := by
  have sameEntry : ∀ index (inside : index < 32),
      (Server.storeRevents fds revents)[index].fd = fds[index].fd ∧
        (Server.storeRevents fds revents)[index].events =
          fds[index].events := by
    intro index inside
    rw [Server.storeRevents, Vector.getElem_mapIdx]
    cases revents[index]? <;> exact ⟨rfl, rfl⟩
  have same : descriptors (Server.storeRevents fds revents) nfds =
      descriptors fds nfds :=
    descriptors_congr fun index inside _ => (sameEntry index inside).1
  obtain ⟨nfds_pos, nfds_le, listening, events, kept, used, nonneg,
    connections⟩ := table
  refine ⟨nfds_pos, nfds_le, ?_, ?_, by rw [same, kept], used, nonneg,
    connections⟩
  · rw [(sameEntry 0 (by omega)).1, listening]
  · intro index inside before
    rw [(sameEntry index inside).2, events index inside before]

/-- A new connection behind the last entry. -/
theorem append (table : Table listenSd fds nfds log) {fd : Int}
    (nonneg : 0 ≤ fd)
    (free : fd ∉ Use.held (uses log)) (inside : nfds < 32) :
    Table listenSd (fds.set nfds { fds[nfds] with fd := fd, events := pollIn })
      (nfds + 1)
      (log ++ [.accept (.ok fd)]) := by
  have opened : Use.held (uses (log ++ [.accept (.ok fd)])) =
      Use.held (uses log) ++ [fd] := by
    simp [Entry.use]
  have unchanged : descriptors
      (fds.set nfds { fds[nfds] with fd := fd, events := pollIn }) nfds =
        descriptors fds nfds :=
    descriptors_congr fun index bound before => by
      rw [Vector.getElem_set_ne _ _ (by omega)]
  refine ⟨by omega, by omega, ?_, ?_, ?_, ?_, ?_, ?_⟩
  · rw [Vector.getElem_set_ne _ _ (by have := table.nfds_pos; omega),
      table.listening]
  · intro index bound before
    rw [Vector.getElem_set]
    split
    · rfl
    · exact table.events index bound (by omega)
  · rw [descriptors_succ _ inside, unchanged, Vector.getElem_set_self,
      List.filter_append,
      table.kept, opened, List.filter_cons_of_pos (by simp; omega),
      List.filter_nil]
  · simpa [Entry.use] using table.used.opens free
  · intro other present
    rw [opened, List.mem_append, List.mem_singleton] at present
    rcases present with earlier | rfl
    · exact table.nonneg other earlier
    · exact nonneg
  · rw [opened, table.connections, connections_concat rfl]
    rfl

/-- Closing the connection of an entry and marking it. -/
theorem close (table : Table listenSd fds nfds log) {index : Nat}
    (inside : index < 32) (before : index < nfds) (behind : 0 < index)
    (unmarked : fds[index].fd ≠ -1) :
    Table listenSd (fds.set index { fds[index] with fd := -1 }) nfds
      (log ++ [.close fds[index].fd]) := by
  obtain ⟨isConnection, notListening⟩ :=
    table.connection inside before behind unmarked
  have fits : index < (descriptors fds nfds).length := by
    rw [length_descriptors]
    omega
  have isHeld : fds[index].fd ∈ Use.held (uses log) := by
    rw [table.connections]
    exact List.mem_cons_of_mem _ isConnection
  have closed : Use.held (uses (log ++ [.close fds[index].fd])) =
      (Use.held (uses log)).erase fds[index].fd := by
    simp [Entry.use]
  refine ⟨table.nfds_pos, table.nfds_le, ?_, ?_, ?_, ?_, ?_, ?_⟩
  · rw [Vector.getElem_set_ne _ _ (by omega), table.listening]
  · intro other bound earlier
    rw [Vector.getElem_set]
    split
    · exact table.events index inside before
    · exact table.events other bound earlier
  · rw [descriptors_set, filter_set_mark fits
      (by rwa [getElem_descriptors fds inside]) table.nodup, table.kept, closed,
      getElem_descriptors fds inside]
  · simpa [Entry.use] using table.used.closes isHeld
  · intro other present
    rw [closed] at present
    exact table.nonneg other (List.mem_of_mem_erase present)
  · rw [closed, table.connections, connections_concat rfl,
      List.erase_cons_tail (by simpa using notListening.symm)]
    rfl

/-- Compaction removes the marks. -/
theorem compact (table : Table listenSd fds nfds log)
    {compacted : Vector Pollfd 32}
    {final : Nat} (result : compact fds 0 nfds = .ok (compacted, final)) :
    Table listenSd compacted final log ∧ Unmarked compacted final 0 := by
  obtain ⟨_, upper, kept, events, _⟩ := compact_ok result
  have removed :
      descriptors compacted final = (descriptors fds nfds).filter (· ≠ -1) := by
    rw [kept]
    simp [descriptors]
  have listed :
      descriptors compacted final = listenSd :: PollSocket.connections log := by
    rw [removed, table.kept, table.connections]
  have final_pos : 0 < final := by
    have size := congrArg List.length listed
    simp only [length_descriptors, List.length_cons] at size
    omega
  have nfds_le := table.nfds_le
  constructor
  · refine ⟨final_pos, by omega, ?_, ?_, ?_, table.used, table.nonneg,
      table.connections⟩
    · have split := drop_descriptors compacted (by omega : 0 < 32) final_pos
      rw [List.drop_zero, listed] at split
      exact (List.cons.inj split).1.symm
    · intro index inside before
      rw [events index inside]
      exact table.events index inside (by omega)
    · rw [removed, List.filter_filter, ← table.kept]
      simp
  · intro index inside _ before mark
    have fits : index < (descriptors compacted final).length := by
      rw [length_descriptors]
      omega
    have present : (-1 : Int) ∈ descriptors compacted final := by
      rw [← mark, ← getElem_descriptors compacted inside fits]
      exact List.getElem_mem fits
    rw [removed] at present
    simpa using (List.mem_filter.mp present).2

/-- The table `main` starts its loop with. -/
theorem initial {listenSd : Int} (nonneg : 0 ≤ listenSd) :
    Table listenSd ((Vector.replicate 32 ⟨0, 0, 0⟩).set 0 ⟨listenSd,
      pollIn, 0⟩) 1
      [.socket listenSd] := by
  have single : descriptors ((Vector.replicate 32 ⟨0, 0, 0⟩).set 0 ⟨listenSd,
    pollIn, 0⟩) 1 =
      [listenSd] := by
    rw [descriptors_succ _ (by omega), Vector.getElem_set_self]
    rfl
  have opened : Use.held (uses [.socket listenSd]) = [listenSd] := rfl
  refine ⟨by omega, by omega, rfl, ?_, ?_, ?_, ?_, rfl⟩
  · intro index _ before
    obtain rfl : index = 0 := by omega
    rfl
  · rw [single, opened, List.filter_cons_of_pos (by simp; omega),
      List.filter_nil]
  · exact Use.WellUsed.nil.opens (by simp)
  · intro fd present
    rw [opened, List.mem_singleton] at present
    omega

/-- The loop at `out` closes everything that is held. -/
theorem closes_all (table : Table listenSd fds nfds log) :
    Use.WellUsed
      (uses (log ++ ((descriptors fds nfds).filter (0 ≤ ·)).map Entry.close)) ∧
      Use.held (uses
        (log ++ ((descriptors fds nfds).filter (0 ≤ ·)).map Entry.close)) =
          [] := by
  have closes :
      uses (log ++ ((descriptors fds nfds).filter (0 ≤ ·)).map Entry.close) =
      uses log ++ (Use.held (uses log)).map .closes := by
    have nonnegative : (descriptors fds nfds).filter (0 ≤ ·) =
        Use.held (uses log) := by
      rw [← table.kept]
      apply List.filter_congr
      intro fd present
      by_cases mark : fd = -1
      · simp [mark]
      · have isHeld : fd ∈ Use.held (uses log) := by
          rw [← table.kept, List.mem_filter]
          exact ⟨present, by simpa using mark⟩
        simpa [mark] using table.nonneg fd isHeld
    rw [nonnegative, uses, List.filterMap_append, List.filterMap_map]
    congr 1
    exact List.filterMap_eq_map ▸ rfl
  rw [closes]
  exact table.used.closes_all rfl

end Table
end PollSocket
end LinuxCPractice
