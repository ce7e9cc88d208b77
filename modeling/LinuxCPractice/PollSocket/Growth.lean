import LinuxCPractice.PollSocket.Burst
import LinuxCPractice.PollSocket.Pass

/-!
# The table within one pass

Up to its compaction a pass only adds entries, one for each connection it
accepts. A write behind the table therefore happens exactly when 33 entries are
needed, and a compaction that has succeeded had an entry to spare or nothing to
remove.
-/

namespace LinuxCPractice
namespace PollSocket

open Server

/-- The size of the table in a pass that has accepted `taken` connections. -/
def Grown (begin : Server) (taken : Nat) (server : Server) : Prop :=
  match server.pc with
  | .poll => begin.nfds + taken ≤ 32
  | .fault (.write _) => begin.nfds + taken = 33
  | _ => server.nfds = begin.nfds + taken ∧ server.nfds ≤ 32

/-- Away from `poll` and from a write outside the table, the table is what it
was with the connections accepted. -/
theorem grown_iff {begin server : Server} {taken : Nat}
    (elsewhere : server.pc ≠ .poll)
    (inside : ∀ index, server.pc ≠ .fault (.write index)) :
    Grown begin taken server ↔
      server.nfds = begin.nfds + taken ∧ server.nfds ≤ 32 := by
  unfold Grown
  split
  · exact absurd ‹_› elsewhere
  · exact absurd ‹_› (inside _)
  · rfl

/-- Every step of a pass but its `poll` keeps count of the table. -/
theorem Transition.grown {begin server next : Server} {event : Event}
    {taken : Nat}
    (transition : Transition server event next) (notPoll : event.isPoll = false)
    (grown : Grown begin taken server) :
    Grown begin (taken + [event].countP Event.isConnection) next := by
  cases transition with
  | pollFailed | pollReady => cases notPoll
  | socketFailed pc | socketOpened pc | setupFailed pc | scanned pc
  | scanOutside pc | scanSkip pc
  | scanListening pc | scanReadable pc | acceptSkipped pc | acceptFailed pc
  | acceptWouldBlock pc
  | recvOutside pc | received pc | recvWouldBlock pc | recvClosed pc
  | sendOutside pc | sent pc
  | sendFailed pc | sendKilled pc | left pc =>
      rw [grown_iff (by simp [pc]) (by simp [pc])] at grown
      rw [grown_iff (by simp [closeEntry, out, pc])
        (by simp [closeEntry, out, pc])]
      exact grown
  | setupContinued pc =>
      rw [grown_iff (by simp [pc]) (by simp [pc])] at grown
      rw [grown_iff (by simp) (by simp)]
      exact grown
  | listening pc =>
      rw [grown_iff (by simp [pc]) (by simp [pc])] at grown
      show begin.nfds + taken ≤ 32
      omega
  | accepted pc _ _ _ inside =>
      rw [grown_iff (by simp [pc]) (by simp [pc])] at grown
      rw [grown_iff (by simp [record, pc]) (by simp [record, pc])]
      exact ⟨congrArg (· + 1) grown.1, inside⟩
  | acceptOutside pc _ _ _ outside =>
      rw [grown_iff (by simp [pc]) (by simp [pc])] at grown
      show begin.nfds + (taken + 1) = 33
      omega
  | optimized pc =>
      rw [grown_iff (by simp [pc]) (by simp [pc])] at grown
      show begin.nfds + taken ≤ 32
      omega
  | optimizeOutside pc result =>
      obtain ⟨index, rfl⟩ := compact_error result
      rw [grown_iff (by simp [pc]) (by simp [pc])] at grown
      rw [grown_iff (by simp) (by simp)]
      exact grown

section Pass

variable {begin next : Server} {revents : List (BitVec 16)} {rest : List Event}

/-- In a pass the table has grown by the connections accepted. -/
theorem Pass.grown (pass : Pass begin revents rest next)
    (holds : Invariant begin) :
    Grown begin (rest.countP Event.isConnection) next := by
  refine pass.invariant holds
    (fun past server =>
      Grown begin (past.countP Event.isConnection) server) ?_ ?_
  · intro first stepped
    cases step_transition stepped with
    | pollReady pc =>
        rw [Invariant, pc] at holds
        exact ⟨rfl, holds.1.nfds_le⟩
  · intro past server event later notPoll _ transition grown
    rw [List.countP_append]
    exact transition.grown notPoll grown

/-- A pass comes back to the head of the loop by compacting the table. -/
theorem Pass.compacts (pass : Pass begin revents rest next)
    (holds : Invariant begin)
    (atHead : next.pc = .poll) :
    ∃ earlier middle, Pass begin revents earlier middle ∧
      rest = earlier ++ [.internal] ∧
      middle.pc = .optimize ∧ middle.log = next.log ∧
      compact middle.fds 0 middle.nfds = .ok (next.fds, next.nfds) := by
  obtain ⟨single, ran⟩ := pass
  obtain ⟨first, stepped, ranRest⟩ := Option.bind_eq_some_iff.mp ran
  induction rest using List.reverseRecOn with
  | nil =>
      cases ranRest
      cases step_transition stepped with
      | pollReady => cases atHead
  | append_singleton earlier event _ =>
      obtain ⟨middle, ranEarlier, last⟩ :=
        Machine.run_concat_eq_some_iff.mp ranRest
      have ranMiddle : step.run begin (.poll (.ready revents) :: earlier) =
          some middle := by
        rw [Machine.run_cons, stepped]
        exact ranEarlier
      have pass : Pass begin revents earlier middle :=
        ⟨fun other present => single other (List.mem_append_left _ present),
          ranMiddle⟩
      have transition := step_transition last
      obtain ⟨_, _, _, _, inPass⟩ := pass.inPass holds
      cases transition with
      | optimized pc result =>
          exact ⟨earlier, middle, pass, rfl, pc, rfl, result⟩
      | listening pc =>
          have progress := inPass.progress
          rw [pc] at progress
          exact progress.elim
      | scanSkip pc | accepted pc => cases pc.symm.trans atHead
      | _ => cases atHead

end Pass

end PollSocket
end LinuxCPractice
