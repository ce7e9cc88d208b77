import LinuxCPractice.SignalHandler.Nesting
import Mathlib.Algebra.GroupWithZero.Nat

/-!
# Coming to an end

Every step but the arrival of a signal from outside brings the process closer to
its end, and until then one of them is always possible.
-/

namespace LinuxCPractice
namespace SignalHandler

open Process

/-- The number of steps that `main` has left, with the steps of the handlers for
the signals it sends itself. -/
def MainPc.remaining : MainPc → Nat
  | .malloc => 25
  | .sigaltstack => 24
  | .sigaction left => 16 + left.length
  | .sigprocmask => 15
  | .kill => 14
  | .sleep => 9
  | .sigpending => 8
  | .assert => 7
  | .abort => 6
  | .raised => 1

/-- The steps that a handler has left. -/
def HandlerPc.remaining : HandlerPc → Nat
  | .report => 3
  | .trace => 2
  | .exit => 1

/-- A pending signal is delivered and handled in four steps. -/
def Process.remaining (process : Process) : Nat :=
  if process.ending = none then
    process.main.remaining + 4 * process.signals.pending.length +
      (process.signals.active.map fun activation => activation.pc.remaining).sum
  else 0

/-- No signal comes from outside. -/
def Event.isInner : Event → Prop
  | .generate _ => False
  | _ => True

theorem MainPc.remaining_pos (main : MainPc) : 0 < main.remaining := by
  cases main <;> simp only [MainPc.remaining] <;> omega

/-- A signal adds at most one that is pending. -/
theorem length_pending_generate (signals : Signals Signal HandlerPc)
    (info : Siginfo Signal) :
    (signals.generate info).pending.length ≤ signals.pending.length + 1 := by
  unfold Signals.generate
  split <;> simp

/-- A signal that is delivered is no longer pending. -/
theorem length_pending_accept {signals next : Signals Signal HandlerPc}
    {signal : Signal}
    {info : Siginfo Signal}
    (accepted : signals.accept signal = some (info, next)) :
    next.pending.length < signals.pending.length := by
  obtain ⟨_, present, same, rfl⟩ := Signals.accept_eq_some accepted
  exact List.length_filter_lt_length_iff_exists.mpr ⟨info, present, by simp [same]⟩

/-- A step of `main` leaves less to do, or ends the process. -/
theorem remaining_mainStep (process : Process) (succeeds : Bool) :
    (process.mainStep succeeds).ending ≠ none ∨
      (process.mainStep succeeds).main.remaining +
          4 * (process.mainStep succeeds).signals.pending.length <
        process.main.remaining + 4 * process.signals.pending.length := by
  unfold Process.mainStep
  split
  case h_1 pc | h_2 pc | h_4 pc =>
    cases succeeds
    · exact .inl (by simp [checked])
    · exact .inr
        (by simp [checked, pc, MainPc.remaining, registered, Signals.handle])
  case h_5 pc => split <;> exact .inr (by simp [pc, MainPc.remaining, Signals.block])
  case h_6 pc =>
    have grown := length_pending_generate process.signals ⟨.sigusr1, siUser⟩
    right
    simp only [pc, MainPc.remaining]
    omega
  case h_8 pc => split <;> exact .inr (by simp [pc, MainPc.remaining])
  case h_10 pc =>
    have grown := length_pending_generate (process.signals.unblock .sigabrt)
      ⟨.sigabrt, siTkill⟩
    have same : (process.signals.unblock .sigabrt).pending =
        process.signals.pending := rfl
    rw [same] at grown
    right
    simp only [pc, MainPc.remaining]
    omega
  case h_11 pc => exact .inl (by simp)
  all_goals
    rename_i pc
    exact .inr (by simp [pc, MainPc.remaining])

/-- What is left until the process ends. -/
theorem remaining_of_running {process : Process}
    (running : process.ending = none) :
    process.remaining =
      process.main.remaining + 4 * process.signals.pending.length +
      (process.signals.active.map fun activation =>
        activation.pc.remaining).sum :=
  if_pos running

/-- The end leaves less than there was. -/
theorem remaining_lt_of_ended {process next : Process}
    (running : process.ending = none)
    (ended : next.ending ≠ none) : next.remaining < process.remaining := by
  have positive := process.main.remaining_pos
  rw [remaining_of_running running, Process.remaining, if_neg ended]
  omega

/-- Every step without a new signal brings the process closer to its end. -/
theorem Moves.closer {process next : Process} {event : Event}
    (moves : Moves process event next) (running : process.ending = none)
    (inner : event.isInner) : next.remaining < process.remaining := by
  by_cases runsOn : next.ending = none
  · rw [remaining_of_running running, remaining_of_running runsOn]
    cases moves with
    | generate info => exact inner.elim
    | @deliver signal info signals accepted =>
        have fewer := length_pending_accept accepted
        obtain ⟨_, _, _, rest⟩ := Signals.accept_eq_some accepted
        have active : signals.active = process.signals.active := by rw [rest]
        rw [deliver_main]
        rcases deliver_signals process info signals with ⟨same, _⟩ | ⟨same, _⟩
        · simp only [same, Signals.enter, active, List.map_cons, List.sum_cons,
            HandlerPc.remaining]
          omega
        · rw [same, active]
          omega
    | main succeeds settled idle =>
        rw [mainStep_active]
        have less := (remaining_mainStep process succeeds).resolve_left
          (not_not.mpr runsOn)
        omega
    | @handler activation outer innermost messages result =>
        unfold Process.handlerStep at runsOn ⊢
        split
        · rename_i pc
          simp [Signals.goOn, innermost, pc, HandlerPc.remaining]
        · rename_i pc
          split
          · simp [Signals.goOn, innermost, pc, HandlerPc.remaining]
          · simp_all
        · simp_all
  · exact remaining_lt_of_ended running runsOn

/-- A process that has not ended can make a step without a new signal. -/
theorem exists_inner_step {process : Process}
    (running : process.ending = none) :
    ∃ event next, event.isInner ∧ step process event = some next := by
  by_cases settled : process.signals.Settled
  · cases active : process.signals.active with
    | nil =>
        exact ⟨.main true, process.mainStep true, trivial,
          by simp [step, running, settled, active]⟩
    | cons activation outer =>
        exact ⟨.handler [] fun _ => 0, _, trivial,
          by simp [step, running, settled, active]; rfl⟩
  · simp only [Signals.Settled, not_forall] at settled
    obtain ⟨signal, pending, free⟩ := settled
    obtain ⟨info, next, accepted⟩ := Signals.exists_accept pending free
    exact ⟨.deliver signal, _, trivial, by simp [step, running, accepted]; rfl⟩

/-- Without signals from outside every step comes closer to the end. -/
theorem closer_of_step {process next : Process} {event : Event}
    (inner : event.isInner)
    (stepped : step process event = some next) :
    next.remaining < process.remaining := by
  obtain ⟨running, moves⟩ := step_moves stepped
  exact moves.closer running inner

/-- From every state the process comes to its end, whatever the order of its
steps: without new signals it makes a bounded number of steps, and until it has
ended it can make another. -/
theorem process_ends (process : Process) :
    (∀ more later, step.run process more = some later →
      (∀ event ∈ more, event.isInner) →
        more.length ≤ process.remaining ∧
          (later.ending = none → ∃ event next, event.isInner ∧
            step later event = some next)) ∧
      ∃ more later, step.run process more = some later ∧
        (∀ event ∈ more, event.isInner) ∧
        later.ending ≠ none := by
  constructor
  · intro more later ran inner
    have bound := Machine.length_run_le (fun _ _ _ => closer_of_step) ran inner
    exact ⟨by omega, exists_inner_step⟩
  · obtain ⟨more, later, ran, stuck, inner⟩ :=
      Machine.exists_run_to_end Event.isInner Process.remaining
        (fun _ _ _ => closer_of_step)
        (fun _ _ _ stepped => exists_inner_step (step_moves stepped).1) process
    refine ⟨more, later, ran, inner, fun running => ?_⟩
    obtain ⟨event, next, _, can⟩ := exists_inner_step running
    rw [stuck event] at can
    cases can

end SignalHandler
end LinuxCPractice
