import LinuxCPractice.PollSocket.Invariant

/-!
# The nested compaction loops

The loops at the end of a round of `main`, statement by statement, with the
index that is taken back and the bound that shrinks. They end, they do what
`compact` does, and they stay inside the table unless it is full and has a mark:
the last copy then reads the entry behind it.
-/

namespace LinuxCPractice
namespace PollSocket

/-- Where the loops stand: at the test of the outer or of the inner one, behind
them, or at an access outside the table. -/
inductive LoopPc
  | outer
  | inner
  | finished
  | fault (access : Access)
  deriving DecidableEq

/-- The variables of the loops. -/
structure Loops where
  pc : LoopPc
  fds : Vector Pollfd 32
  i : Int
  j : Nat
  nfds : Nat

namespace Loops

/-- The loops before their first round. -/
def start (fds : Vector Pollfd 32) (nfds : Nat) : Loops where
  pc := .outer
  fds := fds
  i := 0
  j := 0
  nfds := nfds

/-- From one test to the next. Behind the inner loop come `i--`, `nfds--` and
the `i++` of the outer loop. -/
def step : Machine Loops Unit := fun loops () =>
  match loops.pc with
  | .outer =>
      if loops.i < loops.nfds then
        if inside : 0 ≤ loops.i ∧ loops.i.toNat < 32 then
          if loops.fds[loops.i.toNat].fd = -1 then
            some { loops with j := loops.i.toNat, pc := .inner }
          else some { loops with i := loops.i + 1 }
        else some { loops with pc := .fault (.read loops.i.toNat) }
      else some { loops with pc := .finished }
  | .inner =>
      if loops.j < loops.nfds then
        if inside : loops.j + 1 < 32 then
          some { loops with
            fds := loops.fds.set loops.j { loops.fds[loops.j] with
                fd := loops.fds[loops.j + 1].fd }
            j := loops.j + 1 }
        else some { loops with pc := .fault (.read (loops.j + 1)) }
      else some { loops with i := loops.i - 1 + 1, nfds := loops.nfds - 1, pc := .outer }
  | .finished | .fault _ => none

theorem step_finished {loops : Loops} (finished : loops.pc = .finished) :
    loops.step () = none := by
  rw [step, finished]

theorem step_fault {loops : Loops} {access : Access} (faults : loops.pc = .fault access) :
    loops.step () = none := by
  rw [step, faults]

/-! ## The loops do what `compact` does -/

section Simulation

variable {fds shifted compacted : Vector Pollfd 32}
  {j count remaining nfds kept : Nat}
  {access : Access}

/-- A round of the inner loop copies one descriptor. -/
theorem step_copy (fds : Vector Pollfd 32) (i : Int) (inside : j + 1 < 32)
    (before : j < nfds) :
    step ⟨.inner, fds, i, j, nfds⟩ () =
      some ⟨.inner, fds.set j { fds[j] with fd := fds[j + 1].fd }, i, j + 1,
        nfds⟩ := by
  simp [step, inside, before]

/-- The inner loop comes to what `shift` gives. -/
theorem reachable_of_shift_ok (i : Int) (bound : nfds = j + count)
    (result : shift fds j count = .ok shifted) :
    step.Reachable ⟨.inner, fds, i, j, nfds⟩ ⟨.inner, shifted, i, nfds,
      nfds⟩ := by
  induction count generalizing fds j with
  | zero =>
      cases result
      rw [bound]
      exact .refl _
  | succ count inductionHypothesis =>
      rw [shift] at result
      split at result
      · rename_i inside
        have before : j < nfds := by omega
        have first :=
          (Machine.Reachable.refl _).step (step_copy fds i inside before)
        exact first.trans (inductionHypothesis (by omega) result)
      · cases result

/-- The inner loop leaves the table where `shift` does. -/
theorem reachable_of_shift_error (i : Int) (bound : nfds = j + count)
    (result : shift fds j count = .error access) :
    ∃ final, step.Reachable ⟨.inner, fds, i, j, nfds⟩ final ∧
      final.pc = .fault access := by
  induction count generalizing fds j with
  | zero => cases result
  | succ count inductionHypothesis =>
      rw [shift] at result
      split at result
      · rename_i inside
        have before : j < nfds := by omega
        have first :=
          (Machine.Reachable.refl _).step (step_copy fds i inside before)
        obtain ⟨final, reached, faults⟩ := inductionHypothesis (by omega) result
        exact ⟨final, first.trans reached, faults⟩
      · rename_i outside
        cases result
        have faults : step ⟨.inner, fds, i, j, nfds⟩ () =
            some ⟨.fault (.read (j + 1)), fds, i, j, nfds⟩ := by
          simp [step, outside]
          omega
        exact ⟨_, (Machine.Reachable.refl _).step faults, rfl⟩

/-- At an unmarked entry the outer loop goes on. -/
theorem step_unmarked {index : Nat} (j : Nat) (inside : index < 32)
    (before : index < nfds)
    (unmarked : fds[index].fd ≠ -1) :
    step ⟨.outer, fds, index, j, nfds⟩ () =
      some ⟨.outer, fds, (index + 1 : Nat), j, nfds⟩ := by
  simp [step, inside, before, unmarked]

/-- At a marked entry it enters the inner loop. -/
theorem step_marked {index : Nat} (j : Nat) (inside : index < 32)
    (before : index < nfds)
    (marked : fds[index].fd = -1) :
    step ⟨.outer, fds, index, j, nfds⟩ () = some ⟨.inner, fds, index, index, nfds⟩ := by
  simp [step, inside, before, marked]

/-- Behind the inner loop the index is where it was, and there is one entry
less. -/
theorem step_removed (index : Nat) :
    step ⟨.inner, fds, index, nfds + 1, nfds + 1⟩ () =
      some ⟨.outer, fds, index, nfds + 1, nfds⟩ := by
  simp [step]

/-- The loops come to what `compact` gives. -/
theorem reachable_of_compact_ok {index : Nat} (j : Nat)
    (bound : nfds = index + remaining)
    (result : compact fds index remaining = .ok (compacted, kept)) :
    ∃ final, step.Reachable ⟨.outer, fds, index, j, nfds⟩ final ∧
      final.pc = .finished ∧
      final.fds = compacted ∧ final.nfds = kept := by
  induction remaining generalizing fds index j nfds with
  | zero =>
      simp only [compact, Except.ok.injEq, Prod.mk.injEq] at result
      obtain ⟨rfl, rfl⟩ := result
      have finishes : step ⟨.outer, fds, index, j, nfds⟩ () =
          some ⟨.finished, fds, index, j, nfds⟩ := by
        simp [step, bound]
      exact ⟨_, (Machine.Reachable.refl _).step finishes, rfl, rfl, bound⟩
  | succ remaining inductionHypothesis =>
      have before : index < nfds := by omega
      obtain ⟨inside, ⟨marked, shifted, shiftResult, rest⟩ | ⟨unmarked,
        rest⟩⟩ :=
        compact_succ_ok result
      · obtain rfl : nfds = index + remaining + 1 := by omega
        have entered :=
          (Machine.Reachable.refl _).step (step_marked j inside before marked)
        have copied := reachable_of_shift_ok index (by omega) shiftResult
        obtain ⟨final, reached, ends⟩ := inductionHypothesis _ rfl rest
        exact ⟨final,
          ((entered.trans copied).step (step_removed index)).trans reached,
          ends⟩
      · have first := (Machine.Reachable.refl _).step
          (step_unmarked j inside before unmarked)
        have shorter : nfds = index + 1 + remaining := by omega
        obtain ⟨final, reached, ends⟩ := inductionHypothesis _ shorter rest
        exact ⟨final, first.trans reached, ends⟩

/-- The loops leave the table where `compact` does. -/
theorem reachable_of_compact_error {index : Nat} (j : Nat)
    (bound : nfds = index + remaining)
    (result : compact fds index remaining = .error access) :
    ∃ final, step.Reachable ⟨.outer, fds, index, j, nfds⟩ final ∧
      final.pc = .fault access := by
  induction remaining generalizing fds index j nfds with
  | zero => cases result
  | succ remaining inductionHypothesis =>
      have before : index < nfds := by omega
      obtain ⟨outside, rfl⟩ | ⟨inside, ⟨marked, stopped⟩ |
        ⟨marked, shifted, shiftResult, rest⟩ | ⟨unmarked, rest⟩⟩ :=
          compact_succ_error result
      · have faults : step ⟨.outer, fds, index, j, nfds⟩ () =
            some ⟨.fault (.read index), fds, index, j, nfds⟩ := by
          simp [step, outside, before]
        exact ⟨_, (Machine.Reachable.refl _).step faults, rfl⟩
      · have entered :=
          (Machine.Reachable.refl _).step (step_marked j inside before marked)
        obtain ⟨final, reached, faults⟩ :=
          reachable_of_shift_error index (by omega) stopped
        exact ⟨final, entered.trans reached, faults⟩
      · obtain rfl : nfds = index + remaining + 1 := by omega
        have entered :=
          (Machine.Reachable.refl _).step (step_marked j inside before marked)
        have copied := reachable_of_shift_ok index (by omega) shiftResult
        obtain ⟨final, reached, faults⟩ := inductionHypothesis _ rfl rest
        exact ⟨final,
          ((entered.trans copied).step (step_removed index)).trans reached,
          faults⟩
      · have first := (Machine.Reachable.refl _).step
          (step_unmarked j inside before unmarked)
        have shorter : nfds = index + 1 + remaining := by omega
        obtain ⟨final, reached, faults⟩ := inductionHypothesis _ shorter rest
        exact ⟨final, first.trans reached, faults⟩

end Simulation

end Loops

/-! ## What the loops are for -/

/-- The entries in use. -/
def entries (fds : Vector Pollfd 32) (nfds : Nat) : List Pollfd :=
  fds.toList.take nfds

/-- The entries in use that hold a descriptor. -/
def kept (fds : Vector Pollfd 32) (nfds : Nat) : List Pollfd :=
  (entries fds nfds).filter (·.fd ≠ -1)

/-- The loops end inside the table, with as many entries as there are
descriptors and with the descriptors in their order. No place of the table
changes its events. -/
def KeepsDescriptors (fds : Vector Pollfd 32) (nfds : Nat) : Prop :=
  ∃ final, Loops.step.Reachable (.start fds nfds) final ∧ final.pc = .finished ∧
    final.nfds = (kept fds nfds).length ∧
    (entries final.fds final.nfds).map Pollfd.fd =
      (kept fds nfds).map Pollfd.fd ∧
    ∀ index (inside : index < 32), final.fds[index].events = fds[index].events

/-- The loops end inside the table, and each entry that holds a descriptor still
has its own events. -/
def KeepsEntries (fds : Vector Pollfd 32) (nfds : Nat) : Prop :=
  ∃ final, Loops.step.Reachable (.start fds nfds) final ∧ final.pc = .finished ∧
    final.nfds = (kept fds nfds).length ∧
    (entries final.fds final.nfds).map (fun entry => (entry.fd, entry.events)) =
      (kept fds nfds).map (fun entry => (entry.fd, entry.events))

/-- The events at the front of the table are those of the entries that will come
to lie there. -/
def EventsLineUp (fds : Vector Pollfd 32) (nfds : Nat) : Prop :=
  (kept fds nfds).map Pollfd.events =
    ((entries fds nfds).map Pollfd.events).take (kept fds nfds).length

instance (fds : Vector Pollfd 32) (nfds : Nat) :
    Decidable (EventsLineUp fds nfds) :=
  inferInstanceAs (Decidable (_ = _))

/-! ## When they do it -/

/-- The entries by their index. -/
theorem forall_entries_iff {fds : Vector Pollfd 32} {nfds : Nat}
    {holds : Pollfd → Prop} :
    (∀ entry ∈ entries fds nfds, holds entry) ↔
      ∀ index (inside : index < 32), index < nfds → holds fds[index] := by
  rw [entries, List.forall_mem_iff_forall_getElem]
  simp only [List.length_take, Vector.length_toList, List.getElem_take,
    Vector.getElem_toList]
  constructor
  · intro all index inside before
    exact all index (by omega)
  · intro all index both
    exact all index (by omega) (by omega)

/-- Without marks nothing is moved. -/
theorem compact_unmarked {fds : Vector Pollfd 32} {i remaining : Nat}
    (fits : i + remaining ≤ 32)
    (unmarked : ∀ index (inside : index < 32), i ≤ index →
      index < i + remaining →
      fds[index].fd ≠ -1) : compact fds i remaining = .ok (fds,
        i + remaining) := by
  induction remaining generalizing i with
  | zero => rfl
  | succ remaining inductionHypothesis =>
      rw [compact, dif_pos (by omega),
        if_neg (unmarked i (by omega) (Nat.le_refl i) (by omega)),
        inductionHypothesis (by omega)]
      · rw [Nat.add_right_comm, Nat.add_assoc]
      · intro index inside ahead before
        exact unmarked index inside (by omega) (by omega)

/-- The loops stay inside the table exactly when it is not full or has no
mark. -/
theorem compact_ok_iff {fds : Vector Pollfd 32} {nfds : Nat}
    (fits : nfds ≤ 32) :
    (∃ compacted left, compact fds 0 nfds = .ok (compacted, left)) ↔
      nfds < 32 ∨ ∀ entry ∈ entries fds nfds, entry.fd ≠ -1 := by
  rw [forall_entries_iff]
  constructor
  · rintro ⟨compacted, left, result⟩
    by_cases room : nfds < 32
    · exact .inl room
    · refine .inr fun index inside before => ?_
      exact unmarked_of_compact_ok (by omega) result index inside
        (Nat.zero_le index)
  · rintro (room | unmarked)
    · exact compact_inside (by omega) fds
    · refine ⟨fds, 0 + nfds, compact_unmarked (by omega) ?_⟩
      intro index inside _ before
      exact unmarked index inside (by omega)

/-- What the loops come to. -/
theorem exists_final_iff {fds : Vector Pollfd 32} {nfds : Nat}
    (holds : Vector Pollfd 32 → Nat → Prop) :
    (∃ final, Loops.step.Reachable (.start fds nfds) final ∧
      final.pc = .finished ∧
      holds final.fds final.nfds) ↔
      ∃ compacted left, compact fds 0 nfds = .ok (compacted, left) ∧
        holds compacted left := by
  constructor
  · rintro ⟨final, reached, finished, meets⟩
    cases result : compact fds 0 nfds with
    | error access =>
        obtain ⟨other, reachedOther, faults⟩ :=
          Loops.reachable_of_compact_error 0 (Nat.zero_add nfds).symm result
        have same :=
          reached.end_unique (Loops.step_finished finished) reachedOther
          (Loops.step_fault faults)
        rw [same, faults] at finished
        cases finished
    | ok compacted =>
        obtain ⟨other, reachedOther, finishes, table, count⟩ :=
          Loops.reachable_of_compact_ok 0 (Nat.zero_add nfds).symm result
        have same :=
          reached.end_unique (Loops.step_finished finished) reachedOther
          (Loops.step_finished finishes)
        rw [same, table, count] at meets
        exact ⟨compacted.1, compacted.2, rfl, meets⟩
  · rintro ⟨compacted, left, result, meets⟩
    obtain ⟨final, reached, finished, rfl, rfl⟩ :=
      Loops.reachable_of_compact_ok 0 (Nat.zero_add nfds).symm result
    exact ⟨final, reached, finished, meets⟩

/-- The entries kept have the descriptors that are not marked. -/
theorem map_fd_kept (fds : Vector Pollfd 32) (nfds : Nat) :
    (kept fds nfds).map Pollfd.fd = (descriptors fds nfds).filter (· ≠ -1) := by
  rw [kept, descriptors, List.filter_map]
  rfl

/-- What a compaction inside the table leaves. -/
theorem kept_of_compact_ok {fds compacted : Vector Pollfd 32} {nfds left : Nat}
    (fits : nfds ≤ 32) (result : compact fds 0 nfds = .ok (compacted, left)) :
    left = (kept fds nfds).length ∧
      (entries compacted left).map Pollfd.fd = (kept fds nfds).map Pollfd.fd ∧
      (entries compacted left).map Pollfd.events =
        ((entries fds nfds).map Pollfd.events).take left := by
  obtain ⟨_, upper, front, events, _⟩ := compact_ok result
  rw [Nat.zero_add] at upper front
  have same : descriptors compacted left = (kept fds nfds).map Pollfd.fd := by
    rw [front, map_fd_kept]
    simp [descriptors]
  have count : left = (kept fds nfds).length := by
    have length := congrArg List.length same
    rw [length_descriptors, List.length_map] at length
    omega
  refine ⟨count, same, ?_⟩
  apply List.ext_getElem
  · simp [entries]
    omega
  · intro index _ _
    simp [entries, events]

/-- Pairs of two fields agree when both fields do. -/
theorem map_pair_eq_iff {first second : List Pollfd} :
    first.map (fun entry => (entry.fd, entry.events)) =
        second.map (fun entry => (entry.fd, entry.events)) ↔
      first.map Pollfd.fd = second.map Pollfd.fd ∧
        first.map Pollfd.events = second.map Pollfd.events := by
  constructor
  · intro same
    have fds := congrArg (List.map Prod.fst) same
    have events := congrArg (List.map Prod.snd) same
    rw [List.map_map, List.map_map] at fds events
    exact ⟨fds, events⟩
  · rintro ⟨fds, events⟩
    rw [← List.zip_map', ← List.zip_map', fds, events]

/-- The descriptors are kept exactly if the table is not full or nothing is
marked. -/
theorem keepsDescriptors_iff {fds : Vector Pollfd 32} {nfds : Nat}
    (fits : nfds ≤ 32) :
    KeepsDescriptors fds nfds ↔ nfds < 32 ∨ ∀ entry ∈ entries fds nfds,
      entry.fd ≠ -1 := by
  rw [← compact_ok_iff fits]
  refine (exists_final_iff fun table count => count = (kept fds nfds).length ∧
    (entries table count).map Pollfd.fd = (kept fds nfds).map Pollfd.fd ∧
      ∀ index (inside : index < 32),
        table[index].events = fds[index].events).trans ?_
  constructor
  · rintro ⟨compacted, left, result, _⟩
    exact ⟨compacted, left, result⟩
  · rintro ⟨compacted, left, result⟩
    obtain ⟨count, same, _⟩ := kept_of_compact_ok fits result
    exact ⟨compacted, left, result, count, same, (compact_ok result).events⟩

/-- The entries are kept exactly if moreover their events line up. -/
theorem keepsEntries_iff {fds : Vector Pollfd 32} {nfds : Nat}
    (fits : nfds ≤ 32) :
    KeepsEntries fds nfds ↔
      (nfds < 32 ∨ ∀ entry ∈ entries fds nfds, entry.fd ≠ -1) ∧
        EventsLineUp fds nfds := by
  rw [← compact_ok_iff fits]
  refine (exists_final_iff fun table count => count = (kept fds nfds).length ∧
    (entries table count).map (fun entry => (entry.fd, entry.events)) =
      (kept fds nfds).map (fun entry => (entry.fd, entry.events))).trans ?_
  constructor
  · rintro ⟨compacted, left, result, count, same⟩
    obtain ⟨_, _, events⟩ := kept_of_compact_ok fits result
    rw [map_pair_eq_iff, events, count] at same
    exact ⟨⟨compacted, left, result⟩, same.2.symm⟩
  · rintro ⟨⟨compacted, left, result⟩, lineUp⟩
    obtain ⟨count, same, events⟩ := kept_of_compact_ok fits result
    refine ⟨compacted, left, result, count, map_pair_eq_iff.mpr ⟨same, ?_⟩⟩
    rw [events, lineUp, count]

/-- The entries of a table that polls all descriptors for the same events line
up. -/
theorem eventsLineUp_of_same {fds : Vector Pollfd 32} {nfds : Nat}
    {bits : BitVec 16}
    (same : ∀ entry ∈ entries fds nfds, entry.events = bits) :
    EventsLineUp fds nfds := by
  have subset : ∀ entry ∈ kept fds nfds, entry.events = bits :=
    fun entry isKept => same entry (List.mem_of_mem_filter isKept)
  have shorter : (kept fds nfds).length ≤ (entries fds nfds).length :=
    List.length_filter_le _ _
  rw [EventsLineUp, List.map_eq_replicate_iff.mpr subset,
    List.map_eq_replicate_iff.mpr same,
    List.take_replicate, Nat.min_eq_left shorter]

/-- The loops keep the descriptors exactly when the table is not full or has no
mark. They move no events, so that the entries keep their own exactly when those
of the places they come to are the same. -/
theorem optimizing_keeps_iff {fds : Vector Pollfd 32} {nfds : Nat}
    (fits : nfds ≤ 32) :
    (KeepsDescriptors fds nfds ↔ nfds < 32 ∨ ∀ entry ∈ entries fds nfds,
      entry.fd ≠ -1) ∧
      (KeepsEntries fds nfds ↔
        (nfds < 32 ∨ ∀ entry ∈ entries fds nfds, entry.fd ≠ -1) ∧
          EventsLineUp fds nfds) :=
  ⟨keepsDescriptors_iff fits, keepsEntries_iff fits⟩

/-- A full table in which the last connection has ended. -/
def fullTable : Vector Pollfd 32 :=
  (Vector.ofFn fun index => ⟨3 + index.val, pollIn, 0⟩).set 31 ⟨-1, pollIn, 0⟩

/-- A marked entry in a table with room for one more. -/
theorem optimizing_keeps_iff_almost_full :
    KeepsDescriptors (fullTable.set 7 ⟨-1, pollIn, 0⟩) 31 ∧
      KeepsEntries (fullTable.set 7 ⟨-1, pollIn, 0⟩) 31 :=
  ⟨(optimizing_keeps_iff (by decide)).1.mpr (.inl (by decide)),
    (optimizing_keeps_iff (by decide)).2.mpr ⟨.inl (by decide), by decide⟩⟩

/-- With 32 entries in use and a mark among them the entry behind the table is
read. -/
theorem not_keeps_of_full :
    ¬∀ (fds : Vector Pollfd 32) (nfds : Nat), 1 ≤ nfds → nfds ≤ 32 →
      KeepsDescriptors fds nfds ∨ KeepsEntries fds nfds := by
  intro claimed
  have marked :
      ¬(32 < 32 ∨ ∀ entry ∈ entries fullTable 32, entry.fd ≠ -1) := by decide
  rcases claimed fullTable 32 (by decide) (by decide) with keeps | keeps
  · exact marked ((keepsDescriptors_iff (by decide)).mp keeps)
  · exact marked ((keepsEntries_iff (by decide)).mp keeps).1

/-- The server polls all its entries for the same events, so that its loops keep
the entries of a table that is not full. -/
theorem keepsEntries_of_run {events : List Event} {server : Server}
    (ran : Server.step.run Server.start events = some server)
    (pc : server.pc = .optimize)
    (room : server.nfds < 32) : KeepsEntries server.fds server.nfds := by
  have table : server.TableHolds := by
    have holds := run_invariant ran
    rwa [Invariant, pc] at holds
  have same : ∀ entry ∈ entries server.fds server.nfds, entry.events = pollIn :=
    forall_entries_iff.mpr table.events
  exact (keepsEntries_iff (Nat.le_of_lt room)).mpr ⟨.inl room,
    eventsLineUp_of_same same⟩

end PollSocket
end LinuxCPractice
