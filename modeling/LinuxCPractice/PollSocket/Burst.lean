import LinuxCPractice.PollSocket.Invariant
import Mathlib.Order.Basic

/-!
# Only one burst of connections is accepted

`new_sd` keeps the result of the last `accept` over all passes. It becomes `-1`
when the first accept loop ends, and the test `new_sd != -1` then keeps every
later pass from calling `accept`. The table therefore grows in a single loop,
without any compaction in between, and overflows exactly when this loop takes a
32nd connection.
-/

namespace LinuxCPractice
namespace PollSocket

open Server

/-- A call of `accept` that returns a connection. -/
def Event.isConnection : Event → Bool
  | .accept (.ok _) => true
  | _ => false

/-- Whether an entry is a connection accepted. -/
def Entry.isConnection : Entry → Bool
  | .accept (.ok _) => true
  | _ => false

/-- Number of connections accepted so far. -/
def Server.accepted (server : Server) : Nat :=
  server.log.countP Entry.isConnection

/-- A step counts as a connection exactly when its event is one. -/
theorem Transition.accepted_eq {server next : Server} {event : Event}
    (transition : Transition server event next) :
    next.accepted = server.accepted + [event].countP Event.isConnection := by
  cases transition <;>
    simp [Server.accepted, record, prepareTable, closeEntry, out,
      Entry.isConnection,
      Event.isConnection, List.countP_map, Function.comp_def]

/-- The connections accepted are counted. -/
theorem run_accepted {server final : Server} {events : List Event}
    (ran : step.run server events = some final) :
    final.accepted = server.accepted + events.countP Event.isConnection := by
  induction events generalizing server with
  | nil =>
      cases ran
      simp
  | cons event events inductionHypothesis =>
      obtain ⟨next, stepped, rest⟩ := Option.bind_eq_some_iff.mp ran
      have first := (step_transition stepped).accepted_eq
      rw [inductionHypothesis rest, first, Nat.add_assoc, ← List.countP_append,
        List.singleton_append]

/-- Before the burst only the listening socket is polled, and behind it nothing
is accepted. -/
def Quiet (server : Server) : Prop :=
  server.accepted ≤ 31 ∧
    (server.newSd ≠ -1 → server.nfds = 1 ∧ server.accepted = 0)

/-- During the burst the table grows with every connection. -/
def Burst (server : Server) : Prop :=
  match server.pc with
  | .fault (.write _) => server.accepted = 32
  | .accept =>
      server.accepted ≤ 31 ∧
        (server.newSd ≠ -1 → server.nfds = server.accepted + 1)
  | _ => Quiet server

theorem Quiet.congr {server next : Server} (quiet : Quiet server)
    (nfds : server.nfds = 1 → next.nfds = 1) (newSd : next.newSd = server.newSd)
    (accepted : next.accepted = server.accepted) : Quiet next := by
  rw [Quiet, newSd, accepted]
  refine ⟨quiet.1, fun notYet => ?_⟩
  obtain ⟨one, none⟩ := quiet.2 notYet
  exact ⟨nfds one, none⟩

/-- Behind the burst the test `new_sd != -1` fails for good. -/
theorem quiet_of_newSd {server : Server} (few : server.accepted ≤ 31)
    (blocked : server.newSd = -1) : Quiet server :=
  ⟨few, fun notYet => absurd blocked notYet⟩

/-- Every step keeps what is known about the burst. -/
theorem Transition.burst {server next : Server} {event : Event}
    (transition : Transition server event next) (invariant : Invariant server)
    (holds : Burst server) : Burst next := by
  have count := transition.accepted_eq
  cases transition with
  | socketFailed pc | socketOpened pc | setupFailed pc | pollFailed pc
  | pollReady pc | scanned pc | scanOutside pc | scanReadable pc
  | recvOutside pc | received pc
  | recvWouldBlock pc | recvClosed pc | sendOutside pc | sent pc | sendFailed pc
  | sendKilled pc | left pc =>
      rw [Burst, pc] at holds
      exact holds.congr id rfl count
  | @setupContinued call next rc pc =>
      rw [Burst, pc] at holds
      exact holds.congr id rfl count
  | listening pc =>
      rw [Burst, pc] at holds
      exact holds.congr id rfl count
  | scanSkip pc =>
      rw [Burst, pc] at holds
      simp only [Burst, pc]
      exact holds.congr id rfl count
  | scanListening pc =>
      rw [Burst, pc] at holds
      refine ⟨holds.1, fun notYet => ?_⟩
      obtain ⟨one, none⟩ := holds.2 notYet
      show server.nfds = server.accepted + 1
      omega
  | acceptSkipped pc blocked =>
      rw [Burst, pc] at holds
      exact quiet_of_newSd holds.1 blocked
  | acceptFailed pc | acceptWouldBlock pc =>
      rw [Burst, pc] at holds
      exact quiet_of_newSd (count.trans_le holds.1) rfl
  | @accepted fd pc begun _ _ inside =>
      rw [Burst, pc] at holds
      have grown := holds.2 begun
      have few : server.accepted + 1 ≤ 31 := by omega
      simp only [Burst, record, pc]
      exact ⟨count.trans_le few,
        fun _ => congrArg (· + 1) (grown.trans count.symm)⟩
  | acceptOutside pc begun _ _ outside =>
      rw [Burst, pc] at holds
      rw [Invariant, pc] at invariant
      have grown := holds.2 begun
      have fits := invariant.1.nfds_le
      refine Eq.trans (b := server.accepted + 1) count ?_
      omega
  | @optimized fds nfds pc result =>
      rw [Burst, pc] at holds
      rw [Invariant, pc] at invariant
      refine holds.congr (fun one => ?_) rfl count
      have positive := (invariant.compact result).1.nfds_pos
      have upper := (compact_ok result).upper
      show nfds = 1
      omega
  | optimizeOutside pc result =>
      rw [Burst, pc] at holds
      obtain ⟨index, rfl⟩ := compact_error result
      exact holds.congr id rfl count

theorem burst_start : Burst start := ⟨by decide, fun _ => ⟨rfl, rfl⟩⟩

/-- In every run there is one burst at most. -/
theorem run_burst {server : Server} {events : List Event}
    (ran : step.run start events = some server) : Burst server := by
  have both : Invariant server ∧ Burst server :=
    Machine.run_invariant (fun server => Invariant server ∧ Burst server)
      (fun server event next holds stepped =>
        ⟨step_invariant server event next holds.1 stepped,
          (step_transition stepped).burst holds.1 holds.2⟩)
      ⟨invariant_start, burst_start⟩ ran
  exact both.2

/-! ## The bound on the table -/

/-- Only an accepted connection makes the table grow. -/
theorem Transition.nfds_le_add {server next : Server} {event : Event}
    (transition : Transition server event next) :
    next.nfds ≤ server.nfds + [event].countP Event.isConnection := by
  cases transition with
  | accepted => exact Nat.le_refl _
  | optimized _ result =>
      have upper := (compact_ok result).upper
      simp only
      omega
  | _ => exact Nat.le_add_right _ _

/-- The table has an entry for each connection accepted at most, and one
more. -/
theorem run_nfds {server : Server} {events : List Event}
    (ran : step.run start events = some server) :
    server.nfds ≤ server.accepted + 1 := by
  refine Machine.run_invariant
    (fun server => server.nfds ≤ server.accepted + 1) ?_
    (by decide : start.nfds ≤ start.accepted + 1) ran
  intro server event next bound stepped
  have count := (step_transition stepped).accepted_eq
  have grown := (step_transition stepped).nfds_le_add
  omega

/-- `nfds` never exceeds the size of the table. -/
theorem Transition.nfds_le {server next : Server} {event : Event}
    (transition : Transition server event next) (fits : server.nfds ≤ 32) :
    next.nfds ≤ 32 := by
  cases transition with
  | accepted _ _ _ _ inside => exact inside
  | optimized _ result =>
      have upper := (compact_ok result).upper
      simp only
      omega
  | _ => exact fits

/-- The accept loop stays inside the table throughout a run exactly when the run
accepts at most 31 connections. -/
theorem append_inside_iff {events : List Event} {server : Server}
    (ran : step.run start events = some server) :
    step.Always
        (fun visited => (∀ index, visited.pc ≠ .fault (.write index)) ∧
          visited.nfds ≤ 32)
        start events ↔
      events.countP Event.isConnection ≤ 31 := by
  constructor
  · intro always
    have inside := (always.last ran).1
    have count := run_accepted ran
    have none : start.accepted = 0 := rfl
    have burst := run_burst ran
    have few : server.accepted ≤ 31 := by
      rw [Burst] at burst
      split at burst
      · rename_i pc
        exact absurd pc (inside _)
      · exact burst.1
      · exact burst.1
    omega
  · intro few
    apply Machine.always_iff.mpr
    intro first isPrefix middle ranFirst
    have fewer :
        first.countP Event.isConnection ≤ events.countP Event.isConnection :=
      isPrefix.sublist.countP_le
    refine ⟨?_, Machine.run_invariant (·.nfds ≤ 32)
      (fun _ _ _ fits stepped => (step_transition stepped).nfds_le fits)
      (by decide : start.nfds ≤ 32) ranFirst⟩
    intro index pc
    have full := run_burst ranFirst
    rw [Burst, pc] at full
    have count := run_accepted ranFirst
    have none : start.accepted = 0 := rfl
    omega

/-- The first pass finds `count` connections queued on the listening socket. -/
def burstOf (count : Nat) : List Event :=
  prepared ++ [.poll (.ready [pollIn]), .internal] ++
    (List.range count).map fun index => .accept (.ok (4 + index))

/-- A burst of 32 connections makes the accept loop write behind the table. -/
theorem append_outside :
    ¬∀ (events : List Event) (server : Server),
      step.run start events = some server →
      (∀ index, server.pc ≠ .fault (.write index)) ∧ server.nfds ≤ 32 := by
  intro claimed
  have reached : (step.run start (burstOf 32)).map Server.pc =
      some (.fault (.write 32)) := by
    decide
  obtain ⟨server, ran, pc⟩ := Option.map_eq_some_iff.mp reached
  exact (claimed _ server ran).1 32 pc

/-- Thirty-one connections in one burst. -/
theorem append_inside_iff_burst :
    ∃ server, step.run start (burstOf 31) = some server ∧
      step.Always
        (fun visited => (∀ index, visited.pc ≠ .fault (.write index)) ∧
          visited.nfds ≤ 32)
        start (burstOf 31) := by
  have reached : (step.run start (burstOf 31)).map Server.pc =
      some .accept := by decide
  obtain ⟨server, ran, _⟩ := Option.map_eq_some_iff.mp reached
  exact ⟨server, ran, (append_inside_iff ran).mpr (by decide)⟩

end PollSocket
end LinuxCPractice
