import LinuxCPractice.PollSocket.Protocol

/-!
# Clients are taken up in one go

Once `accept` has found the queue empty, `new_sd` is `-1` for good. The server
then only serves the connections it has, and when the last of them is closed
nothing is left for it but to call `poll` for the listening socket.
-/

namespace LinuxCPractice
namespace PollSocket

open Server

/-! ## Connections that are only closed -/

/-- Without a successful `accept` no connection is added. -/
theorem connections_append_sublist {calls : List Entry}
    (none : ∀ entry ∈ calls, ∀ result, entry ≠ .accept result)
    (log : List Entry) :
    (connections (log ++ calls)).Sublist (connections log) := by
  rw [connections, List.filterMap_append]
  refine Use.held_append_sublist _ fun fd opened => ?_
  obtain ⟨entry, called, uses⟩ := List.mem_filterMap.mp opened
  cases entry with
  | accept result => exact none _ called result rfl
  | socket | poll | readable | recv | send | close => cases uses

/-! ## Calls behind the last accept -/

/-- The accept loop will not be entered again. -/
def TakesNone (server : Server) : Prop :=
  server.newSd = -1 ∧ ∀ call, server.pc ≠ .setup call

/-- A call that accepts nothing, and without connections is one of `poll` for
the listening socket or closes it. -/
def Late (listenSd : Int) (connections : List Int) (entry : Entry) : Prop :=
  (∀ result, entry ≠ .accept result) ∧
    (connections = [] → entry = .close listenSd ∨ ∃ result,
      entry = .poll [listenSd] result)

theorem Late.mono {listenSd : Int} {fewer connections : List Int}
    {entry : Entry}
    (late : Late listenSd fewer entry) (sublist : fewer.Sublist connections) :
    Late listenSd connections entry :=
  ⟨late.1, fun none => late.2 (List.sublist_nil.mp (none ▸ sublist))⟩

/-- While there is a connection any call but `accept` is late. -/
theorem Late.of_mem {listenSd fd : Int} {connections : List Int} {entry : Entry}
    (present : fd ∈ connections) (quiet : ∀ result, entry ≠ .accept result) :
    Late listenSd connections entry :=
  ⟨quiet, fun none => by rw [none] at present; cases present⟩

section Steps

variable {server next : Server} {event : Event}

/-- A server that takes no connection takes none later. -/
theorem Transition.takesNone (transition : Transition server event next)
    (takesNone : TakesNone server) :
    TakesNone next ∧ next.listenSd = server.listenSd := by
  obtain ⟨newSd, running⟩ := takesNone
  cases transition with
  | socketFailed pc | socketOpened pc | setupFailed pc | setupContinued pc
  | listening pc =>
      exact absurd pc (running _)
  | acceptFailed _ open_ | acceptWouldBlock _ open_ | accepted _ open_
  | acceptOutside _ open_ =>
      exact absurd newSd open_
  | scanSkip pc => exact ⟨⟨newSd, running⟩, rfl⟩
  | pollFailed | pollReady | scanned | scanOutside | scanListening
  | scanReadable | acceptSkipped
  | recvOutside | received | recvWouldBlock | recvClosed | sendOutside | sent
  | sendFailed
  | sendKilled | optimized | optimizeOutside | left =>
      exact ⟨⟨newSd, fun _ => by simp [closeEntry, Server.out]⟩, rfl⟩

/-- The connection that is looked after is open. -/
theorem current_mem (holds : Invariant server) (inside : server.i < 32)
    (pc : server.pc = .recv ∨ server.pc = .send) :
    server.fds[server.i].fd ∈ connections server.log := by
  have places : server.TableHolds ∧ 0 < server.i ∧
      server.i < server.currentSize ∧
      server.currentSize ≤ server.nfds ∧ server.UnmarkedFrom server.i ∧
        server.closeConn = false := by
    rcases pc with pc | pc
    all_goals
      rw [Invariant, pc] at holds
      exact holds
  obtain ⟨table, behind, more, fits, unmarked, _⟩ := places
  have current := unmarked server.i inside (Nat.le_refl _) (by omega)
  exact (table.connection inside (by omega) behind current).1

/-- What a server calls that takes up no connection any more. -/
theorem Transition.late (transition : Transition server event next)
    (holds : Invariant server)
    (takesNone : TakesNone server) :
    ∃ calls, next.log = server.log ++ calls ∧
      ∀ entry ∈ calls, Late server.listenSd (connections server.log) entry := by
  obtain ⟨newSd, running⟩ := takesNone
  have silent : server.log = server.log ++ [] := (List.append_nil _).symm
  cases transition with
  | socketFailed pc | socketOpened pc | setupFailed pc | setupContinued pc
  | listening pc =>
      exact absurd pc (running _)
  | acceptFailed _ open_ | acceptWouldBlock _ open_ | accepted _ open_
  | acceptOutside _ open_ =>
      exact absurd newSd open_
  | scanned | scanOutside | scanSkip | scanListening | acceptSkipped
  | recvOutside | sendOutside
  | optimized | optimizeOutside => exact ⟨[], silent, by simp⟩
  | pollFailed pc | pollReady pc =>
      rw [Invariant, pc] at holds
      have given := holds.1.descriptors_eq holds.2
      refine ⟨[_], rfl, fun entry called => ?_⟩
      cases List.mem_singleton.mp called
      exact ⟨by simp, fun none => .inr ⟨_, by rw [given, none]⟩⟩
  | scanReadable pc more inside _ connection =>
      have behind :=
        mt (listening_iff_of_scan holds pc more inside).mpr connection
      rw [Invariant, pc] at holds
      obtain ⟨table, _, fits, unmarked⟩ := holds
      have current := unmarked server.i inside (Nat.le_refl _) (by omega)
      have isConnection := table.connection inside (by omega) (by omega) current
      refine ⟨[_], rfl, fun entry called => ?_⟩
      cases List.mem_singleton.mp called
      exact .of_mem isConnection.1 (by simp)
  | received pc inside | recvWouldBlock pc inside =>
      refine ⟨[_], rfl, fun entry called => ?_⟩
      cases List.mem_singleton.mp called
      exact .of_mem (current_mem holds inside (.inl pc)) (by simp)
  | sent pc inside | sendKilled pc inside =>
      refine ⟨[_], rfl, fun entry called => ?_⟩
      cases List.mem_singleton.mp called
      exact .of_mem (current_mem holds inside (.inr pc)) (by simp)
  | recvClosed pc inside =>
      refine ⟨[_, _], List.append_assoc .., fun entry called => ?_⟩
      exact .of_mem (current_mem holds inside (.inl pc))
        (by rintro _ rfl; simp at called)
  | sendFailed pc inside =>
      refine ⟨[_, _], List.append_assoc .., fun entry called => ?_⟩
      exact .of_mem (current_mem holds inside (.inr pc))
        (by rintro _ rfl; simp at called)
  | left pc =>
      rw [Invariant, pc] at holds
      refine ⟨_, rfl, fun entry called => ?_⟩
      obtain ⟨fd, isOpen, rfl⟩ := List.mem_map.mp called
      rw [filter_nonneg holds] at isOpen
      refine ⟨by simp, fun none => ?_⟩
      rw [none, List.mem_singleton] at isOpen
      exact .inl (by rw [isOpen])

end Steps

/-! ## Runs -/

/-- `accept` has found the queue empty once. -/
theorem takesNone_of_run {past : List Event} {server : Server}
    (ran : step.run start past = some server)
    (drained : .accept .wouldBlock ∈ past) :
    TakesNone server := by
  refine Machine.run_invariant_past
    (fun events visited => .accept .wouldBlock ∈ events → TakesNone visited)
    (by simp) ?_ ran
    drained
  intro past server event next ranPast takesNone stepped drained
  have transition := step_transition stepped
  rcases List.mem_append.mp drained with before | last
  · exact (transition.takesNone (takesNone before)).1
  · cases List.mem_singleton.mp last
    cases transition with
    | acceptWouldBlock pc => exact ⟨rfl, fun _ => by simp⟩

/-- The calls of a server that takes up no connection any more, over a run. -/
theorem late_of_run {later : List Event} {server final : Server}
    (holds : Invariant server)
    (takesNone : TakesNone server) (ran : step.run server later = some final) :
    ∃ calls, final.log = server.log ++ calls ∧
      ∀ entry ∈ calls, Late server.listenSd (connections server.log) entry := by
  induction later generalizing server with
  | nil =>
      cases ran
      exact ⟨[], (List.append_nil _).symm, by simp⟩
  | cons event later inductionHypothesis =>
      obtain ⟨next, stepped, ranTail⟩ := Option.bind_eq_some_iff.mp ran
      have transition := step_transition stepped
      obtain ⟨first, logged, lateFirst⟩ := transition.late holds takesNone
      obtain ⟨still, sameSocket⟩ := transition.takesNone takesNone
      obtain ⟨rest, loggedRest, lateRest⟩ :=
        inductionHypothesis (transition.invariant holds) still ranTail
      have fewer : (connections next.log).Sublist (connections server.log) :=
        logged ▸ connections_append_sublist
          (fun entry called => (lateFirst entry called).1) _
      refine ⟨first ++ rest, by rw [loggedRest, logged, List.append_assoc], ?_⟩
      intro entry called
      rcases List.mem_append.mp called with early | later
      · exact lateFirst entry early
      · rw [← sameSocket]
        exact (lateRest entry later).mono fewer

/-- Once `accept` has found the queue empty, the server never calls it again:
its connections are those it has, in their order, until they are closed, and
without one all that is left is to wait for the listening socket and to close
it. -/
theorem run_admits_once {past later : List Event} {server final : Server}
    (ran : step.run start past = some server)
    (drained : .accept .wouldBlock ∈ past)
    (ranOn : step.run server later = some final) :
    ∃ calls, final.log = server.log ++ calls ∧
      (∀ result, .accept result ∉ calls) ∧
      (connections final.log).Sublist (connections server.log) ∧
      (connections server.log = [] → ∀ entry ∈ calls,
        entry = .close server.listenSd ∨ ∃ result,
          entry = .poll [server.listenSd] result) := by
  obtain ⟨calls, logged, late⟩ :=
    late_of_run (run_invariant ran) (takesNone_of_run ran drained) ranOn
  refine ⟨calls, logged, ?_, ?_, ?_⟩
  · intro result called
    exact (late _ called).1 result rfl
  · rw [logged]
    exact connections_append_sublist
      (fun entry called => (late entry called).1) _
  · intro none entry called
    exact (late entry called).2 none

/-- Behind the first pass the listening socket is reported again. -/
theorem run_admits_once_twoClients :
    ∃ server final, step.run start twoClients = some server ∧
      step.run server [.poll (.ready [pollIn, 0]), .internal, .internal,
        .internal] =
        some final ∧
      ∃ calls, final.log = server.log ++ calls ∧ ∀ result,
        .accept result ∉ calls := by
  have reached : (step.run start twoClients).isSome = true := by decide
  obtain ⟨server, ran⟩ := Option.isSome_iff_exists.mp reached
  have wentOn : (step.run start (twoClients ++
      [.poll (.ready [pollIn, 0]), .internal, .internal, .internal])).isSome =
        true := by decide
  obtain ⟨final, ranAll⟩ := Option.isSome_iff_exists.mp wentOn
  rw [Machine.run_append, ran, Option.bind_some] at ranAll
  obtain ⟨calls, logged, none, _⟩ := run_admits_once ran (by decide) ranAll
  exact ⟨server, final, ran, ranAll, calls, logged, none⟩

end PollSocket
end LinuxCPractice
