import LinuxCPractice.PollSocket.Growth
import LinuxCPractice.PollSocket.Serving

/-!
# Connections that need care

The scan compares `revents` with `POLLIN` as a whole, so that a connection
reported with any other bit, `POLLIN` together with `POLLHUP` included, stays as
it is. One that is reported with `POLLIN` alone is taken up when the scan comes
to it. If a read ends it, its entry is removed by the compaction, for which the
table must have an entry to spare.
-/

namespace LinuxCPractice
namespace PollSocket

open Server

/-- The bits by which `poll` reports a connection that has to be looked
after. -/
def needsCare (bits : BitVec 16) : Prop :=
  bits &&& (pollIn ||| pollErr ||| pollHup) ≠ 0

instance : DecidablePred needsCare :=
  fun bits =>
    inferInstanceAs (Decidable (bits &&& (pollIn ||| pollErr ||| pollHup) ≠ 0))

/-- A read of the connection has returned the end of the stream or an error
other than `EWOULDBLOCK`. -/
def Ended (passLog : List Entry) (fd : Int) : Prop :=
  .recv fd .endOfStream ∈ passLog ∨ .recv fd .failed ∈ passLog

/-- The connection is taken up, and if a read has ended it, it is closed and its
entry is removed: the table holds neither the descriptor nor a mark. -/
def LookedAfter (passLog : List Entry) (next : Server) (fd : Int) : Prop :=
  fd ∈ takenUp passLog ∧
    (Ended passLog fd →
      fd ∉ connections next.log ∧ fd ∉ descriptors next.fds next.nfds ∧
        -1 ∉ descriptors next.fds next.nfds)

/-! ## How far a pass has come -/

/-- How many entries the scan has come to, as long as the pass has not ended. A
pass that is killed in `send` does not end. -/
def Server.reached (server : Server) : Option Nat :=
  match server.pc with
  | .scan => some server.i
  | .accept => some 0
  | .recv | .send | .killed => some (server.i + 1)
  | .optimize => some server.currentSize
  | _ => none

/-- The pass comes to the entry of the connection: no `accept` has failed for
good, the table has room for the connections accepted, and the pass has not
stopped in front of the entry. -/
structure Reaches (begin : Server) (rest : List Event) (next : Server)
    (fd : Int) : Prop where
  noFailure : .accept .failed ∉ rest
  room : begin.nfds + rest.countP Event.isConnection ≤ 32
  notBefore : ∀ count ∈ next.reached,
    (descriptors begin.fds begin.nfds).idxOf fd < count

/-- The pass comes to its end with an entry of the table to spare. -/
structure Completes (begin : Server) (rest : List Event)
    (next : Server) : Prop where
  ended : next.reached = none
  spare : begin.nfds + rest.countP Event.isConnection < 32

section Reaching

variable {begin next : Server} {rest : List Event} {fd : Int}

/-- A pass that stands at an entry has reached those in front of it. -/
theorem reaches_iff_of_some {count : Nat} (noFailure : .accept .failed ∉ rest)
    (room : begin.nfds + rest.countP Event.isConnection ≤ 32)
    (stands : next.reached = some count) :
    Reaches begin rest next fd ↔
      (descriptors begin.fds begin.nfds).idxOf fd < count := by
  constructor
  · intro reaches
    exact reaches.notBefore count stands
  · intro before
    refine ⟨noFailure, room, fun other isReached => ?_⟩
    rw [stands] at isReached
    exact Option.some.inj isReached ▸ before

/-- A pass that is done with its entries has reached all of them. -/
theorem reaches_of_none (noFailure : .accept .failed ∉ rest)
    (room : begin.nfds + rest.countP Event.isConnection ≤ 32)
    (ended : next.reached = none) :
    Reaches begin rest next fd :=
  ⟨noFailure, room,
    fun _ isReached => by rw [ended] at isReached; cases isReached⟩

end Reaching

section Scan

variable {begin next : Server} {revents : List (BitVec 16)} {rest : List Event}
  {passLog : List Entry} {fd : Int} {bits : BitVec 16}

/-- The connections served among the first entries. -/
theorem mem_served_take_iff (head : HeadOfLoop begin)
    (whole : revents.length = begin.nfds)
    (present : (fd, bits) ∈ polled begin revents)
    (connection : fd ≠ begin.listenSd)
    (count : Nat) :
    fd ∈ served begin.listenSd ((polled begin revents).take count) ↔
      bits = pollIn ∧ (descriptors begin.fds begin.nfds).idxOf fd < count := by
  have given : fd ∈ descriptors begin.fds begin.nfds :=
    (List.of_mem_zip present).1
  have firsts : ((polled begin revents).take count).map Prod.fst =
      (descriptors begin.fds begin.nfds).take count := by
    rw [List.map_take, map_fst_polled whole]
  have same {other : BitVec 16} (listed : (fd, other) ∈ polled begin revents) :
      bits = other := by
    have distinct := head.distinct
    rw [← map_fst_polled whole] at distinct
    exact congrArg Prod.snd
      (List.inj_on_of_nodup_map distinct present listed rfl)
  rw [← List.mem_take_iff_idxOf_lt given, ← firsts]
  simp only [served, List.mem_map, List.mem_filter, decide_eq_true_eq]
  constructor
  · rintro ⟨⟨_, other⟩, ⟨listed, rfl, _⟩, rfl⟩
    exact ⟨same (List.mem_of_mem_take listed), _, listed, rfl⟩
  · rintro ⟨rfl, ⟨_, other⟩, listed, rfl⟩
    refine ⟨_, ⟨listed, ?_, connection⟩, rfl⟩
    exact (same (List.mem_of_mem_take listed)).symm

/-- A connection is taken up exactly when it is reported as readable and nothing
else and the pass comes to its entry. -/
theorem Pass.mem_takenUp_iff (pass : Pass begin revents rest next)
    (holds : Invariant begin)
    (inPass : InPass begin revents passLog next)
    (present : (fd, bits) ∈ polled begin revents)
    (connection : fd ≠ begin.listenSd) :
    fd ∈ takenUp passLog ↔ bits = pollIn ∧ Reaches begin rest next fd := by
  obtain ⟨pc, whole, _⟩ := pass.inPass holds
  have head := headOfLoop holds pc
  have servedOf := mem_served_take_iff head whole present connection
  have listed : (descriptors begin.fds begin.nfds).idxOf fd < begin.nfds := by
    have bound := List.idxOf_lt_length_of_mem (List.of_mem_zip present).1
    rw [length_descriptors] at bound
    omega
  have servedAll :
      fd ∈ served begin.listenSd (polled begin revents) ↔ bits = pollIn := by
    have all := servedOf begin.nfds
    rw [List.take_of_length_le (by rw [polled, List.length_zip]; omega)] at all
    exact all.trans (and_iff_left listed)
  have inside := pass.inLoop_iff
  have grown := pass.grown holds
  have progress := inPass.progress
  cases place : next.pc with
  | setup =>
      rw [place] at progress
      exact progress.elim
  | scan =>
      rw [place] at progress inside
      rw [grown_iff (by simp [place]) (by simp [place])] at grown
      rw [progress.2, servedOf, reaches_iff_of_some (inside.mp rfl)
        (grown.1 ▸ grown.2)
        (by rw [Server.reached, place])]
  | recv | send | killed =>
      rw [place] at progress inside
      rw [grown_iff (by simp [place]) (by simp [place])] at grown
      rw [progress.2.1, servedOf, reaches_iff_of_some (inside.mp rfl)
        (grown.1 ▸ grown.2)
        (by rw [Server.reached, place])]
  | optimize =>
      rw [place] at progress inside
      rw [grown_iff (by simp [place]) (by simp [place])] at grown
      obtain ⟨polledNow, all⟩ := progress
      rw [all, servedAll, reaches_iff_of_some (inside.mp rfl)
        (grown.1 ▸ grown.2)
        (by rw [Server.reached, place]), polledNow.size]
      exact ⟨fun ready => ⟨ready, listed⟩, And.left⟩
  | poll =>
      rw [place] at progress inside
      rw [Grown, place] at grown
      rw [progress, servedAll]
      exact ⟨fun ready => ⟨ready, reaches_of_none (inside.mp rfl) grown
        (by rw [Server.reached, place])⟩, And.left⟩
  | accept =>
      rw [place] at progress
      rw [progress.2]
      refine iff_of_false List.not_mem_nil fun reaches => ?_
      exact Nat.not_lt_zero _
        (reaches.2.notBefore 0 (by rw [Server.reached, place]; rfl))
  | out | exited =>
      rw [place] at progress inside
      rw [progress]
      refine iff_of_false List.not_mem_nil fun reaches => ?_
      cases inside.mpr reaches.2.noFailure
  | fault access =>
      cases access with
      | read =>
          rw [place] at progress inside
          rw [grown_iff (by simp [place]) (by simp [place])] at grown
          rw [progress.2, servedAll]
          exact ⟨fun ready =>
            ⟨ready, reaches_of_none (inside.mp rfl) (grown.1 ▸ grown.2)
              (by rw [Server.reached, place])⟩, And.left⟩
      | write =>
          rw [place] at progress
          rw [Grown, place] at grown
          rw [progress]
          refine iff_of_false List.not_mem_nil fun reaches => ?_
          have room := reaches.2.room
          omega

/-! ## What becomes of a connection that a read has ended -/

/-- Until the compaction the entry of a connection that has been closed is
marked. -/
theorem mark_of_released (head : HeadOfLoop begin) (fits : begin.nfds ≤ 32)
    (polledNow : Polled begin revents next) (table : next.TableHolds)
    (released : fd ∉ Use.held (uses next.log))
    (given : fd ∈ descriptors begin.fds begin.nfds) :
    -1 ∈ descriptors next.fds next.nfds := by
  obtain ⟨index, bound, found⟩ := List.getElem_of_mem given
  have before : index < begin.nfds := by
    rw [length_descriptors] at bound
    omega
  have inside : index < 32 := by omega
  rw [getElem_descriptors begin.fds inside] at found
  have listed : next.fds[index].fd ∈ descriptors next.fds next.nfds := by
    have more := polledNow.nfds
    have bound : index < (descriptors next.fds next.nfds).length := by
      rw [length_descriptors]
      omega
    rw [← getElem_descriptors next.fds inside bound]
    exact List.getElem_mem bound
  rcases polledNow.marked index inside before with same | marked
  · rw [same, found] at listed
    have unmarked : fd ≠ -1 := fun mark => head.unmarked (mark ▸ given)
    rw [← table.kept] at released
    exact absurd
      (List.mem_filter.mpr ⟨listed, by simpa using unmarked⟩) released
  · exact marked ▸ listed

/-- A connection that has ended in the pass is not held any more. -/
theorem InPass.released_of_ended (inPass : InPass begin revents passLog next)
    (ended : Ended passLog fd) : fd ∉ Use.held (uses next.log) := by
  rcases ended with read | read
  · exact inPass.reads.ended fd _ read (.inl rfl)
  · exact inPass.reads.ended fd _ read (.inr rfl)

/-- Back at the head of the loop it is closed, and its entry is removed. -/
theorem InPass.removed_of_poll (inPass : InPass begin revents passLog next)
    (holds : Invariant next) (atHead : next.pc = .poll)
    (ended : Ended passLog fd) :
    fd ∉ connections next.log ∧ fd ∉ descriptors next.fds next.nfds ∧
      -1 ∉ descriptors next.fds next.nfds := by
  have released := inPass.released_of_ended ended
  have head := headOfLoop holds atHead
  rw [Invariant, atHead] at holds
  rw [holds.1.connections] at released
  refine ⟨fun still => released (List.mem_cons_of_mem _ still), ?_,
    head.unmarked⟩
  rw [head.listed]
  exact released

/-- The compaction has removed something, for which it needs an entry to
spare. -/
theorem Pass.spare_of_ended (pass : Pass begin revents rest next)
    (holds : Invariant begin)
    (inPass : InPass begin revents passLog next) (atHead : next.pc = .poll)
    (given : fd ∈ descriptors begin.fds begin.nfds) (ended : Ended passLog fd) :
    begin.nfds + rest.countP Event.isConnection < 32 := by
  obtain ⟨earlier, middle, before, rfl, place, log, result⟩ :=
    pass.compacts holds atHead
  obtain ⟨pc, _, middleHolds, middleLog, inMiddle⟩ := before.inPass holds
  obtain rfl : middleLog = passLog := by
    have both := inMiddle.log.symm.trans (log.trans inPass.log)
    exact (List.cons.inj (List.append_cancel_left both)).2
  have grown := before.grown holds
  rw [grown_iff (by simp [place]) (by simp [place])] at grown
  have progress := inMiddle.progress
  rw [place] at progress
  have fits : begin.nfds ≤ 32 := by omega
  rw [Invariant, place] at middleHolds
  have mark :=
    mark_of_released (headOfLoop holds pc) fits progress.1 middleHolds
    (inMiddle.released_of_ended ended) given
  have notFull : middle.nfds ≠ 32 := by
    intro full
    obtain ⟨index, bound, found⟩ := List.getElem_of_mem mark
    have inside : index < 32 := by
      rw [length_descriptors] at bound
      omega
    rw [getElem_descriptors middle.fds inside] at found
    exact unmarked_of_compact_ok (by omega) result index inside
      (Nat.zero_le _) found
  rw [List.countP_append]
  show begin.nfds + (earlier.countP Event.isConnection + 0) < 32
  omega

/-- A connection that is taken up and that a read ends is closed and removed
exactly when the pass comes to its end with an entry to spare. -/
theorem Pass.removes_iff (pass : Pass begin revents rest next)
    (holds : Invariant begin)
    (inPass : InPass begin revents passLog next)
    (given : fd ∈ descriptors begin.fds begin.nfds)
    (taken : fd ∈ takenUp passLog)
    (ended : Ended passLog fd) :
    (fd ∉ connections next.log ∧ fd ∉ descriptors next.fds next.nfds ∧
        -1 ∉ descriptors next.fds next.nfds) ↔
      Completes begin rest next := by
  obtain ⟨pc, _, nextHolds, _⟩ := pass.inPass holds
  have head := headOfLoop holds pc
  have fits : begin.nfds ≤ 32 := by
    rw [Invariant, pc] at holds
    exact holds.1.nfds_le
  have grown := pass.grown holds
  have progress := inPass.progress
  have marks (polledNow : Polled begin revents next)
      (table : next.TableHolds) :=
    mark_of_released head fits polledNow table
      (inPass.released_of_ended ended) given
  cases place : next.pc with
  | setup =>
      rw [place] at progress
      exact progress.elim
  | scan | recv | send | accept | killed | optimize =>
      rw [Invariant, place] at nextHolds
      rw [place] at progress
      refine iff_of_false (fun removed => removed.2.2 (marks progress.1 ?_))
        fun completes => ?_
      · first | exact nextHolds.1 | exact nextHolds
      · have none := completes.ended
        rw [Server.reached, place] at none
        cases none
  | out | exited =>
      rw [place] at progress
      rw [progress] at taken
      cases taken
  | fault access =>
      rw [Invariant, place] at nextHolds
      rw [place] at progress
      cases access with
      | write =>
          rw [progress] at taken
          cases taken
      | read index =>
          rw [grown_iff (by simp [place]) (by simp [place])] at grown
          refine iff_of_false (fun removed => removed.2.2 (marks progress.1 ?_))
            fun completes => ?_
          · exact nextHolds.2 index rfl
          · have spare := completes.spare
            omega
  | poll =>
      refine iff_of_true (inPass.removed_of_poll nextHolds place ended) ⟨?_, ?_⟩
      · rw [Server.reached, place]
      · exact pass.spare_of_ended holds inPass place given ended

end Scan

/-! ## The condition -/

/-- At every point of every pass, a connection that needs care is looked after
exactly when `poll` returned `POLLIN` and no other bit for it, the pass has come
to its entry and, if a read has ended it, the pass comes to its end with an
entry to spare. -/
theorem pass_looksAfter_iff {events rest : List Event} {begin next : Server}
    {revents : List (BitVec 16)} (ran : step.run start events = some begin)
    (pass : Pass begin revents rest next) :
    ∃ passLog,
      next.log = begin.log ++
        .poll (descriptors begin.fds begin.nfds) (.ready revents) :: passLog ∧
      ∀ fd bits, (fd, bits) ∈ polled begin revents → fd ≠ begin.listenSd →
        needsCare bits →
        (LookedAfter passLog next fd ↔
          bits = pollIn ∧ Reaches begin rest next fd ∧
            (Ended passLog fd → Completes begin rest next)) := by
  have holds := run_invariant ran
  obtain ⟨_, _, _, passLog, inPass⟩ := pass.inPass holds
  refine ⟨passLog, inPass.log, fun fd bits present connection _ => ?_⟩
  have given : fd ∈ descriptors begin.fds begin.nfds :=
    (List.of_mem_zip present).1
  have takenUp_iff := pass.mem_takenUp_iff holds inPass present connection
  have removes_iff (taken : fd ∈ takenUp passLog) :=
    forall_congr' fun ended => pass.removes_iff holds inPass given taken ended
  exact (and_congr_right removes_iff).trans
    ((and_congr_left' takenUp_iff).trans and_assoc)

/-- A reset connection is reported with `POLLIN`, `POLLERR` and `POLLHUP`. The
pass does not read it and leaves it in the table. -/
theorem pass_ignores_reset :
    ¬∀ (events rest : List Event) (begin next : Server)
      (revents : List (BitVec 16)) (passLog : List Entry),
      step.run start events = some begin → Pass begin revents rest next →
        next.passEnded →
      next.log = begin.log ++
        .poll (descriptors begin.fds begin.nfds) (.ready revents) :: passLog →
      ∀ fd bits, (fd, bits) ∈ polled begin revents → fd ≠ begin.listenSd →
        needsCare bits →
        LookedAfter passLog next fd := by
  intro claimed
  let revents := [0, pollIn ||| pollErr ||| pollHup, 0]
  let rest : List Event :=
    [.internal, .internal, .internal, .internal, .internal]
  have opening : (step.run start (twoClients.take 12)).map
      (fun begin => (descriptors begin.fds begin.nfds, begin.listenSd)) =
        some ([3, 4, 5], 3) := by decide
  obtain ⟨begin, ran, shape⟩ := Option.map_eq_some_iff.mp opening
  simp only [Prod.mk.injEq] at shape
  obtain ⟨given, listenSd⟩ := shape
  have whole :
      (step.run start (twoClients.take 12 ++ .poll (.ready revents) ::
        rest)).map
      (fun next => (next.pc, next.log)) =
        (step.run start (twoClients.take 12)).map fun begin =>
          (Pc.poll, begin.log ++ [.poll [3, 4, 5] (.ready revents)]) := by
            decide
  rw [ran, Option.map_some] at whole
  obtain ⟨next, ranAll, ends⟩ := Option.map_eq_some_iff.mp whole
  simp only [Prod.mk.injEq] at ends
  rw [Machine.run_append, ran] at ranAll
  have pass : Pass begin revents rest next := ⟨by decide, ranAll⟩
  have cares :=
    claimed _ _ _ _ _ [] ran pass (.inl ends.1) (by rw [ends.2, given]) 4
    (pollIn ||| pollErr ||| pollHup) (by rw [polled, given]; decide)
    (by rw [listenSd]; decide) (by decide)
  exact List.not_mem_nil cares.1

/-- The first of two clients closes its connection. -/
theorem pass_looksAfter_iff_twoClients :
    ∃ begin next passLog, Pass begin [0, pollIn, 0] secondPass next ∧
      Ended passLog 4 ∧ LookedAfter passLog next 4 := by
  have opening : (step.run start (twoClients.take 12)).map
      (fun begin => (descriptors begin.fds begin.nfds, begin.listenSd,
        begin.nfds)) =
        some ([3, 4, 5], 3, 3) := by decide
  obtain ⟨begin, ran, shape⟩ := Option.map_eq_some_iff.mp opening
  simp only [Prod.mk.injEq] at shape
  obtain ⟨given, listenSd, nfds⟩ := shape
  have whole : (step.run start (twoClients.take 12 ++
      .poll (.ready [0, pollIn, 0]) :: secondPass)).map (fun next =>
        (next.reached, next.log)) =
        (step.run start (twoClients.take 12)).map fun begin =>
          (none, begin.log ++ [.poll [3, 4, 5] (.ready [0, pollIn, 0]),
            .readable 4,
            .recv 4 (.data [104, 105]), .send 4 [104, 105, 0] (.sent 3),
            .recv 4 .endOfStream, .close 4]) := by decide
  rw [ran, Option.map_some] at whole
  obtain ⟨next, ranAll, ends⟩ := Option.map_eq_some_iff.mp whole
  simp only [Prod.mk.injEq] at ends
  obtain ⟨ended, log⟩ := ends
  rw [Machine.run_append, ran] at ranAll
  have pass : Pass begin [0, pollIn, 0] secondPass next := ⟨by decide, ranAll⟩
  obtain ⟨passLog, passed, looksAfter⟩ := pass_looksAfter_iff ran pass
  have calls : passLog = [.readable 4, .recv 4 (.data [104, 105]),
      .send 4 [104, 105, 0] (.sent 3), .recv 4 .endOfStream, .close 4] := by
    rw [log, given] at passed
    exact (List.cons.inj (List.append_cancel_left passed)).2.symm
  refine ⟨begin, next, passLog, pass, .inl (by simp [calls]), ?_⟩
  have spare : begin.nfds + secondPass.countP Event.isConnection < 32 := by
    rw [nfds]
    decide
  refine (looksAfter 4 pollIn (by rw [polled, given]; decide)
    (by rw [listenSd]; decide)
    (by decide)).mpr ⟨rfl, ⟨by decide, Nat.le_of_lt spare, ?_⟩, fun _ =>
      ⟨ended, spare⟩⟩
  intro count stands
  rw [ended] at stands
  cases stands

end PollSocket
end LinuxCPractice
