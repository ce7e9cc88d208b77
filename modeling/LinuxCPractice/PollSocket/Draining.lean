import LinuxCPractice.PollSocket.Growth
import LinuxCPractice.PollSocket.Waiting

/-!
# Draining the queue of the listening socket

The accept loop runs under the test `new_sd != -1`, and `new_sd` is never set
back. The first pass in which `poll` reports the listening socket ends the loop
with `-1` in it, and every later pass leaves the queue as it is.
-/

namespace LinuxCPractice
namespace PollSocket

open Server

/-! ## `new_sd` remembers the first report -/

/-- `poll` has reported the listening socket as readable. -/
def ReportsListening (past : List Event) : Prop :=
  ∃ revents, .poll (.ready revents) ∈ past ∧ revents.head? = some pollIn

/-- Only `poll` reports the listening socket. -/
theorem reportsListening_concat_of_not_isPoll {past : List Event}
    {event : Event}
    (notPoll : event.isPoll = false) :
    ReportsListening (past ++ [event]) ↔ ReportsListening past := by
  constructor
  · rintro ⟨revents, present, reported⟩
    rcases List.mem_append.mp present with earlier | now
    · exact ⟨revents, earlier, reported⟩
    · rw [← List.mem_singleton.mp now] at notPoll
      cases notPoll
  · rintro ⟨revents, present, reported⟩
    exact ⟨revents, List.mem_append_left _ present, reported⟩

/-- `poll` reports the listening socket as its first entry. -/
theorem reportsListening_concat_poll {past : List Event}
    {revents : List (BitVec 16)} :
    ReportsListening (past ++ [.poll (.ready revents)]) ↔
      ReportsListening past ∨ revents.head? = some pollIn := by
  constructor
  · rintro ⟨other, present, reported⟩
    rcases List.mem_append.mp present with earlier | now
    · exact .inl ⟨other, earlier, reported⟩
    · cases List.mem_singleton.mp now
      exact .inr reported
  · rintro (⟨other, present, reported⟩ | reported)
    · exact ⟨other, List.mem_append_left _ present, reported⟩
    · exact ⟨revents, List.mem_append_right _ (List.mem_singleton_self _),
        reported⟩

/-- `new_sd` is `-1` exactly when `poll` has reported the listening socket, but
for a report the scan has not come to yet. -/
def Remembers (past : List Event) (server : Server) : Prop :=
  match server.pc with
  | .setup _ => server.newSd ≠ -1 ∧ ¬ReportsListening past
  | .poll | .recv | .send | .optimize =>
      server.newSd = -1 ↔ ReportsListening past
  | .scan =>
      0 < server.currentSize ∧
        (server.newSd = -1 ∨ server.i = 0 ∧ server.fds.head.revents = pollIn ↔
          ReportsListening past)
  | .accept => ReportsListening past
  | .out | .exited _ | .killed | .fault _ => True

/-- The first entry holds the first result. -/
theorem revents_storeRevents_zero (fds : Vector Pollfd 32)
    {revents : List (BitVec 16)}
    (nonempty : 0 < revents.length) :
    (storeRevents fds revents).head.revents = pollIn ↔
      revents.head? = some pollIn := by
  cases revents with
  | nil => simp at nonempty
  | cons first rest => simp [storeRevents, Vector.head]

/-- Every step keeps what `new_sd` remembers. -/
theorem Transition.remembers {server next : Server} {event : Event}
    {past : List Event}
    (transition : Transition server event next) (invariant : Invariant server)
    (remembers : Remembers past server) : Remembers (past ++ [event]) next := by
  cases transition with
  | socketFailed | setupFailed | pollFailed | scanOutside | acceptFailed
  | acceptOutside
  | recvOutside | sendOutside | sendKilled | optimizeOutside | left => trivial
  | socketOpened pc =>
      simp only [Remembers, pc] at remembers
      exact ⟨remembers.1,
        mt (reportsListening_concat_of_not_isPoll rfl).mp remembers.2⟩
  | @setupContinued call follows rc pc =>
      simp only [Remembers, pc] at remembers
      exact ⟨remembers.1,
        mt (reportsListening_concat_of_not_isPoll rfl).mp remembers.2⟩
  | listening pc =>
      simp only [Remembers, pc] at remembers
      simp only [Remembers, prepareTable]
      rw [reportsListening_concat_of_not_isPoll rfl]
      exact iff_of_false remembers.1 remembers.2
  | pollReady pc whole =>
      simp only [Remembers, pc] at remembers
      rw [Invariant, pc] at invariant
      have nonempty := invariant.1.nfds_pos
      refine ⟨nonempty, ?_⟩
      rw [reportsListening_concat_poll, ← remembers,
        ← revents_storeRevents_zero server.fds (whole ▸ nonempty)]
      exact or_congr_right (and_iff_right rfl)
  | scanned pc done =>
      simp only [Remembers, pc] at remembers
      obtain ⟨nonempty, reported⟩ := remembers
      simp only [Remembers]
      rw [reportsListening_concat_of_not_isPoll rfl, ← reported]
      exact (or_iff_left fun here => by omega).symm
  | scanSkip pc more inside quiet =>
      simp only [Remembers, pc] at remembers
      obtain ⟨nonempty, reported⟩ := remembers
      simp only [Remembers, pc]
      refine ⟨nonempty, ?_⟩
      rw [reportsListening_concat_of_not_isPoll rfl, ← reported]
      refine or_congr_right
        (iff_of_false (fun here => Nat.succ_ne_zero _ here.1) ?_)
      rintro ⟨first, ready⟩
      simp only [first] at quiet
      exact quiet ready
  | scanListening pc more inside ready isListening =>
      simp only [Remembers, pc] at remembers
      have first :=
        (listening_iff_of_scan invariant pc more inside).mp isListening
      simp only [first] at ready
      exact (reportsListening_concat_of_not_isPoll rfl).mpr
        (remembers.2.mp (.inr ⟨first, ready⟩))
  | scanReadable pc more inside ready connection =>
      simp only [Remembers, pc] at remembers
      have behind :=
        mt (listening_iff_of_scan invariant pc more inside).mpr connection
      simp only [Remembers]
      rw [reportsListening_concat_of_not_isPoll rfl, ← remembers.2]
      exact (or_iff_left fun here => behind here.1).symm
  | acceptSkipped pc blocked =>
      simp only [Remembers, pc] at remembers
      rw [Invariant, pc] at invariant
      exact ⟨invariant.2.2.1, iff_of_true (.inl blocked)
        ((reportsListening_concat_of_not_isPoll rfl).mpr remembers)⟩
  | acceptWouldBlock pc =>
      simp only [Remembers, pc] at remembers
      rw [Invariant, pc] at invariant
      exact ⟨invariant.2.2.1, iff_of_true (.inl rfl)
        ((reportsListening_concat_of_not_isPoll rfl).mpr remembers)⟩
  | accepted pc =>
      simp only [Remembers, pc] at remembers
      simp only [Remembers, record, pc]
      exact (reportsListening_concat_of_not_isPoll rfl).mpr remembers
  | received pc | sent pc | optimized pc =>
      simp only [Remembers, pc] at remembers
      exact remembers.trans (reportsListening_concat_of_not_isPoll rfl).symm
  | recvWouldBlock pc | recvClosed pc | sendFailed pc =>
      simp only [Remembers, pc] at remembers
      rw [Invariant, pc] at invariant
      refine ⟨Nat.lt_of_le_of_lt (Nat.zero_le _) invariant.2.2.1, ?_⟩
      exact (or_iff_left fun here => Nat.succ_ne_zero _ here.1).trans
        (remembers.trans (reportsListening_concat_of_not_isPoll rfl).symm)

/-- In every run `new_sd` remembers the reports of the listening socket. -/
theorem run_remembers {server : Server} {events : List Event}
    (ran : step.run start events = some server) : Remembers events server := by
  refine Machine.run_invariant_past Remembers ?_ ?_ ran
  · exact ⟨by decide, fun ⟨_, present, _⟩ => List.not_mem_nil present⟩
  · intro past state event next ranPast remembers stepped
    exact (step_transition stepped).remembers (run_invariant ranPast) remembers

/-! ## The accept loop of one pass -/

/-- No call of `accept` has failed, with whatever error. -/
def NoneFailed (past : List Event) : Prop :=
  .accept .wouldBlock ∉ past ∧ .accept .failed ∉ past

/-- A call that does not fail leaves none that has failed. -/
theorem NoneFailed.concat {past : List Event} {event : Event}
    (none : NoneFailed past)
    (notBlocked : event ≠ .accept .wouldBlock)
    (notFailed : event ≠ .accept .failed) :
    NoneFailed (past ++ [event]) := by
  simp only [NoneFailed, List.mem_append, List.mem_singleton, not_or]
  exact ⟨⟨none.1, notBlocked.symm⟩, none.2, notFailed.symm⟩

/-- The pass has not come out of its accept loop: the listening socket is the
first entry. -/
def Server.atListening (server : Server) : Prop :=
  server.pc = .scan ∧ server.i = 0 ∨ server.pc = .accept

/-- In a pass that reports the listening socket and finds `new_sd` open, the
accept loop is entered and runs to its end, unless it leaves the table. -/
def Drains (past : List Event) (server : Server) : Prop :=
  match server.pc with
  | .setup _ => False
  | .scan =>
      (NoneFailed past ∧ server.newSd ≠ -1 ∧ server.i = 0 ∧
          server.fds.head.revents = pollIn ∧ 0 < server.currentSize) ∨
        server.i ≠ 0 ∧ .accept .wouldBlock ∈ past
  | .accept => NoneFailed past ∧ server.newSd ≠ -1
  | .out | .exited _ => .accept .failed ∈ past
  | .fault (.write _) => NoneFailed past
  | _ => .accept .wouldBlock ∈ past

/-- Every step of a pass that is to accept leads to the end of the accept
loop. -/
theorem Transition.drains {server next : Server} {event : Event}
    {past : List Event}
    (transition : Transition server event next) (notPoll : event.isPoll = false)
    (invariant : Invariant server) (drains : Drains past server) :
    Drains (past ++ [event]) next := by
  cases transition with
  | pollFailed | pollReady => cases notPoll
  | socketFailed pc | socketOpened pc | setupFailed pc | listening pc
  | setupContinued pc =>
      simp only [Drains, pc] at drains
  | scanOutside pc more outside =>
      rw [Invariant, pc] at invariant
      exact absurd (invariant.1.inside more invariant.2.2.1) (by omega)
  | recvOutside pc outside | sendOutside pc outside =>
      simp only [Drains, pc] at drains
      exact List.mem_append_left _ drains
  | optimizeOutside pc result =>
      obtain ⟨index, rfl⟩ := compact_error result
      simp only [Drains, pc] at drains
      exact List.mem_append_left _ drains
  | acceptOutside pc =>
      simp only [Drains, pc] at drains
      exact drains.1.concat (by simp) (by simp)
  | scanned pc done =>
      simp only [Drains, pc] at drains
      rcases drains with ⟨_, _, _, _⟩ | ⟨_, drained⟩
      · omega
      · exact List.mem_append_left _ drained
  | scanSkip pc more inside quiet =>
      simp only [Drains, pc] at drains ⊢
      rcases drains with ⟨_, _, first, ready, _⟩ | ⟨_, drained⟩
      · simp only [first] at quiet
        exact absurd ready quiet
      · exact .inr ⟨Nat.succ_ne_zero _, List.mem_append_left _ drained⟩
  | scanListening pc more inside ready isListening =>
      simp only [Drains, pc] at drains
      have first :=
        (listening_iff_of_scan invariant pc more inside).mp isListening
      obtain ⟨none, open_, _⟩ := drains.resolve_right fun later => later.1 first
      exact ⟨none.concat (by simp) (by simp), open_⟩
  | scanReadable pc more inside ready connection =>
      simp only [Drains, pc] at drains
      have behind :=
        mt (listening_iff_of_scan invariant pc more inside).mpr connection
      exact List.mem_append_left _ (drains.resolve_left fun here =>
        behind here.2.2.1).2
  | acceptSkipped pc blocked =>
      simp only [Drains, pc] at drains
      exact absurd blocked drains.2
  | acceptFailed =>
      exact List.mem_append_right _ (List.mem_singleton_self _)
  | acceptWouldBlock =>
      exact .inr ⟨Nat.succ_ne_zero _,
        List.mem_append_right _ (List.mem_singleton_self _)⟩
  | @accepted fd pc _ nonneg =>
      simp only [Drains, pc] at drains
      simp only [Drains, record, pc]
      exact ⟨drains.1.concat (by simp) (by simp), by omega⟩
  | received pc | sent pc | sendKilled pc | optimized pc | left pc =>
      simp only [Drains, pc] at drains
      exact List.mem_append_left _ drains
  | recvWouldBlock pc | recvClosed pc | sendFailed pc =>
      simp only [Drains, pc] at drains
      exact .inr ⟨Nat.succ_ne_zero _, List.mem_append_left _ drains⟩

/-- Once `new_sd` is `-1`, no step calls `accept` and it stays `-1`. -/
theorem Transition.keepsBlocked {server next : Server} {event : Event}
    (transition : Transition server event next) (blocked : server.newSd = -1) :
    next.newSd = -1 ∧ ∀ result, event ≠ .accept result := by
  cases transition with
  | acceptFailed _ notBlocked | acceptWouldBlock _ notBlocked
  | accepted _ notBlocked
  | acceptOutside _ notBlocked => exact absurd blocked notBlocked
  | _ => exact ⟨blocked, nofun⟩

/-- Once `accept` has failed it is not called again. -/
theorem run_of_blocked {server next : Server} {events : List Event}
    (blocked : server.newSd = -1) (ran : step.run server events = some next) :
    ∀ result, .accept result ∉ events := by
  have both : next.newSd = -1 ∧ ∀ result, .accept result ∉ events := by
    refine Machine.run_invariant_past
      (fun past state => state.newSd = -1 ∧ ∀ result, .accept result ∉ past)
      ⟨blocked, by simp⟩ ?_ ran
    rintro past state event next - ⟨stillBlocked, none⟩ stepped
    obtain ⟨nextBlocked, notAccept⟩ :=
      (step_transition stepped).keepsBlocked stillBlocked
    refine ⟨nextBlocked, fun result present => ?_⟩
    rcases List.mem_append.mp present with earlier | now
    · exact none result earlier
    · exact notAccept result (List.mem_singleton.mp now).symm
  exact both.2

/-- A pass that reports the listening socket and finds `new_sd` open is to
accept. -/
theorem Pass.drains {begin next : Server} {revents : List (BitVec 16)}
    {rest : List Event}
    (pass : Pass begin revents rest next) (holds : Invariant begin)
    (reported : revents.head? = some pollIn) (open_ : begin.newSd ≠ -1) :
    Drains rest next := by
  refine pass.invariant holds Drains ?_ ?_
  · intro first stepped
    cases step_transition stepped with
    | pollReady pc whole =>
        rw [Invariant, pc] at holds
        have nonempty := holds.1.nfds_pos
        refine .inl ⟨⟨List.not_mem_nil, List.not_mem_nil⟩, open_, rfl, ?_,
          nonempty⟩
        exact (revents_storeRevents_zero begin.fds
          (whole ▸ nonempty)).mpr reported
  · intro past server event later notPoll invariant transition drains
    exact transition.drains notPoll invariant drains

/-- A pass that reports the listening socket and is behind its accept loop has
called `accept` until it failed exactly when `new_sd` was open at its beginning
and the table had room. -/
theorem Pass.accepts_iff {begin next : Server} {revents : List (BitVec 16)}
    {rest : List Event}
    (pass : Pass begin revents rest next) (holds : Invariant begin)
    (behind : ¬next.atListening) (reported : revents.head? = some pollIn) :
    .accept .wouldBlock ∈ rest ∨ .accept .failed ∈ rest ↔
      begin.newSd ≠ -1 ∧ begin.nfds + rest.countP Event.isConnection ≤ 32 := by
  have grown := pass.grown holds
  have drains (open_ : begin.newSd ≠ -1) : Drains rest next :=
    pass.drains holds reported open_
  constructor
  · intro called
    have open_ : begin.newSd ≠ -1 := by
      intro blocked
      obtain ⟨first, stepped, ranRest⟩ := Option.bind_eq_some_iff.mp pass.ran
      have same : first.newSd = begin.newSd := by
        cases step_transition stepped with
        | pollReady => rfl
      have none := run_of_blocked (same.trans blocked) ranRest
      exact called.elim (none _) (none _)
    refine ⟨open_, ?_⟩
    have drained := drains open_
    unfold Grown at grown
    split at grown
    · exact grown
    · rename_i pc
      rw [Drains, pc] at drained
      exact absurd called (not_or.mpr drained)
    · exact grown.1 ▸ grown.2
  · rintro ⟨open_, room⟩
    have drained := drains open_
    unfold Drains at drained
    split at drained
    · exact drained.elim
    · rename_i pc
      exact .inl (drained.resolve_left fun here =>
        behind (.inl ⟨pc, here.2.2.1⟩)).2
    · rename_i pc
      exact absurd (.inr pc) behind
    · exact .inr drained
    · exact .inr drained
    · rename_i pc
      rw [Grown, pc] at grown
      omega
    · exact .inl drained

/-- The steps of a pass that has not come out of its accept loop: one to enter
it and one for each connection. -/
def Entering (past : List Event) (server : Server) : Prop :=
  match server.pc with
  | .scan => server.i = 0 → past = []
  | .accept => past.length = past.countP Event.isConnection + 1
  | _ => True

/-- Every step counts on the way to the end of the accept loop. -/
theorem Transition.entering {server next : Server} {event : Event}
    {past : List Event}
    (transition : Transition server event next) (notPoll : event.isPoll = false)
    (invariant : Invariant server) (entering : Entering past server) :
    Entering (past ++ [event]) next := by
  cases transition with
  | pollReady => cases notPoll
  | scanSkip pc =>
      simp only [Entering, pc]
      intro first
      cases first
  | scanListening pc more inside ready isListening =>
      simp only [Entering, pc] at entering
      rw [entering
        ((listening_iff_of_scan invariant pc more inside).mp isListening)]
      rfl
  | accepted pc =>
      simp only [Entering, pc] at entering
      simp [Entering, record, pc, entering, Event.isConnection]
  | acceptSkipped | acceptWouldBlock | recvWouldBlock | recvClosed
  | sendFailed =>
      exact fun first => absurd first (Nat.succ_ne_zero _)
  | _ => trivial

/-- A pass comes out of its accept loop within 33 steps. -/
theorem Pass.length_le_of_atListening {begin next : Server}
    {revents : List (BitVec 16)}
    {rest : List Event} (pass : Pass begin revents rest next)
    (holds : Invariant begin)
    (atListening : next.atListening) : rest.length ≤ 32 := by
  have grown := pass.grown holds
  have entering : Entering rest next := by
    refine pass.invariant holds Entering ?_ ?_
    · intro first stepped
      cases step_transition stepped with
      | pollReady => exact fun _ => rfl
    · intro past server event later notPoll invariant transition entering
      exact transition.entering notPoll invariant entering
  rcases atListening with ⟨pc, first⟩ | pc
  · simp only [Entering, pc] at entering
    simp [entering first]
  · simp only [Entering, pc] at entering
    have positive : 0 < begin.nfds := by
      have atHead := (pass.inPass holds).1
      rw [Invariant, atHead] at holds
      exact holds.1.nfds_pos
    rw [grown_iff (by simp [pc]) (by simp [pc])] at grown
    omega

/-! ## The queue of the listening socket -/

namespace Network

/-- Connections that have arrived stay so. -/
theorem Moves.arrived_le {network next : Network} {event : Event}
    (moves : Moves network event next) :
    network.kernel.arrived ≤ next.kernel.arrived := by
  cases moves with
  | server =>
      unfold Kernel.after
      split <;> (try split) <;> exact Nat.le_refl _
  | connect => exact Nat.le_succ _
  | client => exact Nat.le_refl _

/-- Connections that have been taken stay so. -/
theorem Moves.taken_le {network next : Network} {event : Event}
    (moves : Moves network event next) :
    network.kernel.taken ≤ next.kernel.taken := by
  cases moves with
  | server =>
      unfold Kernel.after
      split <;> (try split) <;> first | exact Nat.le_refl _ | exact Nat.le_succ _
  | connect | client => exact Nat.le_refl _

/-- `accept` fails with `EWOULDBLOCK` only on an empty queue. -/
theorem Moves.queue_empty {network next : Network}
    (moves : Moves network (.server (.accept .wouldBlock)) next) :
    network.kernel.arrived ≤ network.kernel.taken := by
  cases moves with
  | server permitted =>
      simp only [Kernel.permits, decide_eq_true_eq] at permitted
      exact permitted.2

/-- What has arrived before `accept` fails with `EWOULDBLOCK` has been taken. -/
theorem run_taken {begin next : Network} {events : List Event}
    (ran : step.run begin events = some next)
    (blocked : .server (.accept .wouldBlock) ∈ events) :
    begin.kernel.arrived ≤ next.kernel.taken := by
  have both : begin.kernel.arrived ≤ next.kernel.arrived ∧
      (.server (.accept .wouldBlock) ∈ events →
        begin.kernel.arrived ≤ next.kernel.taken) := by
    refine Machine.run_invariant_past
      (fun past network => begin.kernel.arrived ≤ network.kernel.arrived ∧
        (.server (.accept .wouldBlock) ∈ past →
          begin.kernel.arrived ≤ network.kernel.taken))
      ⟨Nat.le_refl _, by simp⟩ ?_ ran
    rintro past network event next - ⟨arrived, taken⟩ stepped
    have moves := step_moves stepped
    refine ⟨Nat.le_trans arrived moves.arrived_le, fun present => ?_⟩
    rcases List.mem_append.mp present with earlier | now
    · exact Nat.le_trans (taken earlier) moves.taken_le
    · obtain rfl := List.mem_singleton.mp now
      exact Nat.le_trans arrived (Nat.le_trans moves.queue_empty moves.taken_le)
  exact both.2 blocked

/-- The pass accepts until the queue is empty, and with that everything that was
queued at its beginning, or it leaves the loop on another error. -/
def DrainsQueue (begin : Network) (rest : List Event) (next : Network) : Prop :=
  (.server (.accept .wouldBlock) ∈ rest ∧
    begin.kernel.arrived ≤ next.kernel.taken) ∨
    .server (.accept .failed) ∈ rest

end Network

/-- In every run, a pass in which `poll` returns exactly `POLLIN` for the
listening socket, which is the first entry, comes out of its accept loop within
33 steps and is held up nowhere in it. Then it has drained the queue if and only
if no earlier `poll` of the run has returned that and it has accepted at most 31
connections. -/
theorem pass_drains_iff {events rest : List Network.Event}
    {begin next : Network}
    {revents : List (BitVec 16)}
    (ran : Network.step.run Network.start events = some begin)
    (pass : Network.Pass begin revents rest next)
    (reported : revents.head? = some pollIn) :
    (next.server.atListening →
        (rest.filterMap Network.Event.ofServer).length ≤ 32 ∧ ¬next.HeldUp) ∧
      (¬next.server.atListening →
        (Network.DrainsQueue begin rest next ↔
          (∀ earlier, .server (.poll (.ready earlier)) ∈ events →
              earlier.head? ≠ some pollIn) ∧
            (rest.filterMap Network.Event.ofServer).countP Event.isConnection ≤
              31)) := by
  have ranServer := Network.run_server ran
  have holds := run_invariant ranServer
  have pc := (pass.server.inPass holds).1
  have remembers := run_remembers ranServer
  have burst := run_burst ranServer
  rw [Burst, pc] at burst
  simp only [Remembers, pc] at remembers
  have never : begin.server.newSd ≠ -1 ↔
      ∀ earlier, .server (.poll (.ready earlier)) ∈ events →
        earlier.head? ≠ some pollIn := by
    rw [ne_eq, remembers, ReportsListening, not_exists]
    refine forall_congr' fun earlier => ?_
    rw [Network.mem_filterMap_ofServer, not_and]
  constructor
  · intro atListening
    refine ⟨pass.server.length_le_of_atListening holds atListening,
      fun heldUp => ?_⟩
    rcases atListening with ⟨scans, _⟩ | accepts
    · have none := heldUp .internal (by simp)
      simp [Network.step, Kernel.permits, Server.step, scans] at none
    · have ranOn : Network.step.run Network.start
          (events ++ .server (.poll (.ready revents)) :: rest) = some next := by
        rw [Machine.run_append, ran]
        exact pass.ran
      exact heldUp.ne_accept (Network.run_listensNonblocking ranOn) accepts
  · intro behind
    have accepts := pass.server.accepts_iff holds behind reported
    rw [Network.mem_filterMap_ofServer, Network.mem_filterMap_ofServer]
      at accepts
    have drains : Network.DrainsQueue begin rest next ↔
        .server (.accept .wouldBlock) ∈ rest ∨
          .server (.accept .failed) ∈ rest :=
      or_congr_left (and_iff_left_of_imp fun blocked =>
        Network.run_taken pass.ran (List.mem_cons_of_mem _ blocked))
    rw [drains, accepts, ← never]
    refine and_congr_right fun open_ => ?_
    have one := (burst.2 open_).1
    omega

/-- One connection arrives and is accepted in the first pass, then another one
arrives. -/
def twoBursts : List Network.Event :=
  prepared.map .server ++
    [.connect, .server (.poll (.ready [pollIn])), .server .internal,
      .server (.accept (.ok 4)),
      .server (.accept .wouldBlock), .server .internal, .server .internal,
      .connect]

/-- The second burst is left in the queue. -/
theorem pass_leaves_second_burst :
    ¬∀ (events rest : List Network.Event) (begin next : Network)
      (revents : List (BitVec 16)),
      Network.step.run Network.start events = some begin →
      Network.Pass begin revents rest next → next.server.passEnded →
      revents.head? = some pollIn → Network.DrainsQueue begin rest next := by
  intro claimed
  let rest : List Network.Event := List.replicate 5 (.server .internal)
  have opening : (Network.step.run Network.start twoBursts).isSome =
      true := by decide
  obtain ⟨begin, ran⟩ := Option.isSome_iff_exists.mp opening
  have whole : (Network.step.run Network.start
      (twoBursts ++ .server (.poll (.ready [pollIn, 0])) :: rest)).map
        (·.server.pc) =
        some .poll := by decide
  obtain ⟨next, ranAll, pc⟩ := Option.map_eq_some_iff.mp whole
  rw [Machine.run_append, ran] at ranAll
  have drains := claimed _ rest begin next [pollIn, 0] ran ⟨by decide, ranAll⟩
    (.inl pc) rfl
  exact absurd drains (by simp [Network.DrainsQueue, rest])

/-- The first of two bursts. -/
theorem pass_drains_iff_twoBursts :
    ∃ begin next, Network.Pass begin [pollIn] ((twoBursts.drop 7).take 5) next ∧
      Network.DrainsQueue begin ((twoBursts.drop 7).take 5) next := by
  have opening : (Network.step.run Network.start (twoBursts.take 6)).isSome =
      true := by decide
  obtain ⟨begin, ran⟩ := Option.isSome_iff_exists.mp opening
  have whole : (Network.step.run Network.start (twoBursts.take 6 ++
      .server (.poll (.ready [pollIn])) :: (twoBursts.drop 7).take 5)).map
        (·.server.pc) =
        some .poll := by decide
  obtain ⟨next, ranAll, pc⟩ := Option.map_eq_some_iff.mp whole
  rw [Machine.run_append, ran] at ranAll
  have pass : Network.Pass begin [pollIn] ((twoBursts.drop 7).take 5) next :=
    ⟨by decide, ranAll⟩
  have behind : ¬next.server.atListening := by simp [Server.atListening, pc]
  refine ⟨begin, next, pass, ((pass_drains_iff ran pass rfl).2 behind).mpr
    ⟨?_, by decide⟩⟩
  intro earlier present
  simp [twoBursts, prepared] at present

end PollSocket
end LinuxCPractice
