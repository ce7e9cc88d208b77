import LinuxCPractice.PollSocket.Pass
import Mathlib.Data.List.Nodup

/-!
# Which connections a pass serves

A connection is read in a pass exactly when the `poll` that opened the pass was
given its descriptor and returned exactly `POLLIN` for it.
-/

namespace LinuxCPractice
namespace PollSocket

open Server

/-- `poll` was given this connection and returned exactly `POLLIN` for it. -/
def ReportedReadable (begin : Server) (revents : List (BitVec 16))
    (fd : Int) : Prop :=
  fd ≠ begin.listenSd ∧ (fd, pollIn) ∈ polled begin revents

/-- The connections served are those reported as readable. -/
theorem mem_served_iff {begin : Server} {revents : List (BitVec 16)}
    {fd : Int} :
    fd ∈ served begin.listenSd (polled begin revents) ↔
      ReportedReadable begin revents fd := by
  simp only [served, List.mem_map, List.mem_filter, decide_eq_true_eq,
    ReportedReadable]
  constructor
  · rintro ⟨⟨_, bits⟩, ⟨present, rfl, connection⟩, rfl⟩
    exact ⟨connection, present⟩
  · rintro ⟨connection, present⟩
    exact ⟨(fd, pollIn), ⟨present, rfl, connection⟩, rfl⟩

/-- What is polled are the descriptors of the table. -/
theorem map_fst_polled {begin : Server} {revents : List (BitVec 16)}
    (whole : revents.length = begin.nfds) :
    (polled begin revents).map Prod.fst = descriptors begin.fds begin.nfds :=
  List.map_fst_zip (by rw [length_descriptors]; omega)

/-- No connection is served twice. -/
theorem nodup_served {begin : Server} (head : HeadOfLoop begin)
    {revents : List (BitVec 16)}
    (whole : revents.length = begin.nfds) :
    (served begin.listenSd (polled begin revents)).Nodup := by
  have sublist : (served begin.listenSd (polled begin revents)).Sublist
      ((polled begin revents).map Prod.fst) :=
    List.filter_sublist.map _
  exact (map_fst_polled whole ▸ sublist).nodup head.distinct

/-- At every point of every pass only connections reported as readable have been
read, each was taken up at most once and none that was accepted in the pass was
read. The last clause is about passes that have come to their end, which a
client that stays silent may put off: without a failed `accept` they have read
all that were reported. -/
theorem pass_reads_iff {events rest : List Event} {begin next : Server}
    {revents : List (BitVec 16)} (ran : step.run start events = some begin)
    (pass : Pass begin revents rest next) :
    ∃ passLog,
      next.log = begin.log ++
        .poll (descriptors begin.fds begin.nfds) (.ready revents) :: passLog ∧
      (∀ fd result, .recv fd result ∈ passLog →
        ReportedReadable begin revents fd) ∧
      (∀ fd, (takenUp passLog).count fd ≤ 1) ∧
      (∀ fd result, .accept (.ok fd) ∈ passLog → .recv fd result ∉ passLog) ∧
      (.accept .failed ∉ rest → next.passEnded → ∀ fd,
        ((∃ result, .recv fd result ∈ passLog) ↔
          ReportedReadable begin revents fd) ∧
          (ReportedReadable begin revents fd →
            (takenUp passLog).count fd = 1)) := by
  have holds := run_invariant ran
  obtain ⟨pc, whole, _, passLog, inPass⟩ := pass.inPass holds
  have distinct := nodup_served (headOfLoop holds pc) whole
  have taken := inPass.takenUp_prefix
  have reported : ∀ fd result, .recv fd result ∈ passLog →
      ReportedReadable begin revents fd := fun fd result present =>
    mem_served_iff.mp
      (taken.subset (inPass.reads.onlyTakenUp fd result present))
  refine ⟨passLog, inPass.log, reported, ?_, ?_, ?_⟩
  · exact List.nodup_iff_count_le_one.mp (distinct.sublist taken.sublist)
  · intro fd result acceptedNow readNow
    have given := (reported fd result readNow).2
    exact inPass.reads.accepted fd acceptedNow (List.of_mem_zip given).1
  · intro noFailure ended fd
    have atHead := (pass.returns_iff ended).mpr noFailure
    have all :
        takenUp passLog = served begin.listenSd (polled begin revents) := by
      have progress := inPass.progress
      rwa [atHead] at progress
    have reads := inPass.reads
    rw [current_of_ne (by simp [atHead])] at reads
    refine ⟨⟨fun ⟨result, present⟩ => reported fd result present,
      fun ready => ?_⟩,
      fun ready => ?_⟩
    · have isTaken : fd ∈ takenUp passLog := all ▸ mem_served_iff.mpr ready
      exact (reads.eachRead fd isTaken).resolve_right nofun
    · rw [all]
      exact List.count_eq_one_of_mem distinct (mem_served_iff.mpr ready)

/-- The second pass of `twoClients` from its `poll` on. -/
def secondPass : List Event :=
  [.internal, .internal, .recv (.data [104, 105]), .send [] (.sent 3),
    .recv .endOfStream, .internal, .internal, .internal]

/-- One of two clients is reported. -/
theorem pass_reads_iff_twoClients :
    ∃ begin next, Pass begin [0, pollIn, 0] secondPass next ∧ next.pc = .poll ∧
      ∃ passLog,
        next.log = begin.log ++
          .poll (descriptors begin.fds begin.nfds) (.ready [0, pollIn, 0]) ::
            passLog ∧
        ∀ fd, (∃ result, .recv fd result ∈ passLog) ↔
          ReportedReadable begin [0, pollIn, 0] fd := by
  have reached : (step.run start (twoClients.take 12)).isSome =
      true := by decide
  obtain ⟨begin, ran⟩ := Option.isSome_iff_exists.mp reached
  have whole : (step.run start (twoClients.take 12 ++
      .poll (.ready [0, pollIn, 0]) :: secondPass)).map Server.pc =
        some .poll := by decide
  obtain ⟨next, ranAll, pc⟩ := Option.map_eq_some_iff.mp whole
  rw [Machine.run_append, ran] at ranAll
  have pass : Pass begin [0, pollIn, 0] secondPass next := ⟨by decide, ranAll⟩
  obtain ⟨passLog, log, _, _, _, complete⟩ := pass_reads_iff ran pass
  exact ⟨begin, next, pass, pc, passLog, log,
    fun fd => (complete (by decide) (.inl pc) fd).1⟩

end PollSocket
end LinuxCPractice
