import LinuxCPractice.ConditionVariable.Main
import Mathlib.Algebra.Order.BigOperators.Group.Finset

/-!
# Coming to the end

Whatever the threads do, only so many steps can be made besides the passing of
time, and `main` can always come to its end.
-/

namespace LinuxCPractice
namespace ConditionVariable

/-! ## Steps that are left -/

/-- The number of steps left, of `main` and of all threads. -/
def Program.remaining (program : Program) : Nat :=
  program.mainRemaining +
    ∑ number ∈ Finset.range program.receivers,
      (program.process.receivers number).remaining +
    ∑ number ∈ Finset.range program.senders,
      (program.process.senders number).pc.remaining

section

variable {process next : Process} {mover : Option Thread} {thread : Thread}

/-- No receiver has more steps left than before. -/
theorem Advances.receivers_le (advances : Advances process next mover)
    (number : Nat) :
    (next.receivers number).remaining ≤
      (process.receivers number).remaining := by
  by_cases moves : mover = some (.receiver number)
  · exact (advances.receiver number moves).le
  · rw [advances.receivers number moves]

/-- No sender has more steps left than before. -/
theorem Advances.senders_le (advances : Advances process next mover)
    (number : Nat) :
    (next.senders number).pc.remaining ≤
      (process.senders number).pc.remaining := by
  by_cases moves : mover = some (.sender number)
  · exact (advances.sender number moves).le
  · rcases advances.senders number moves with same | ⟨waiting, woken⟩
    · rw [same]
    · simp [waiting, woken, SenderPc.remaining]

/-- The thread that moves is among those that are counted. -/
theorem Advances.closer {receivers senders : Nat}
    (advances : Advances process next mover)
    (receiver : ∀ number, mover = some (.receiver number) → number < receivers)
    (sender : ∀ number, mover = some (.sender number) → number < senders) :
    ∑ number ∈ Finset.range receivers, (next.receivers number).remaining +
        ∑ number ∈ Finset.range senders, (next.senders number).pc.remaining +
        (if mover = none then 0 else 1) ≤
      ∑ number ∈ Finset.range receivers, (process.receivers number).remaining +
        ∑ number ∈ Finset.range senders,
          (process.senders number).pc.remaining := by
  have receiversLe : ∑ number ∈ Finset.range receivers,
    (next.receivers number).remaining ≤
      ∑ number ∈ Finset.range receivers, (process.receivers number).remaining :=
    Finset.sum_le_sum fun number _ => advances.receivers_le number
  have sendersLe :
      ∑ number ∈ Finset.range senders, (next.senders number).pc.remaining ≤
      ∑ number ∈ Finset.range senders, (process.senders number).pc.remaining :=
    Finset.sum_le_sum fun number _ => advances.senders_le number
  rcases mover with _ | ⟨number⟩ | ⟨number⟩
  · simpa using Nat.add_le_add receiversLe sendersLe
  · have less : ∑ number ∈ Finset.range receivers,
      (next.receivers number).remaining <
        ∑ number ∈ Finset.range receivers,
          (process.receivers number).remaining :=
      Finset.sum_lt_sum (fun number _ => advances.receivers_le number)
        ⟨number, Finset.mem_range.mpr (receiver _ rfl),
          advances.receiver number rfl⟩
    simp only [reduceCtorEq, if_false]
    omega
  · have less : ∑ number ∈ Finset.range senders,
      (next.senders number).pc.remaining <
        ∑ number ∈ Finset.range senders,
          (process.senders number).pc.remaining :=
      Finset.sum_lt_sum (fun number _ => advances.senders_le number)
        ⟨number, Finset.mem_range.mpr (sender _ rfl),
          advances.sender number rfl⟩
    simp only [reduceCtorEq, if_false]
    omega

end

/-- `main` creates no more receivers than asked for. -/
theorem Program.createdReceivers_le {program : Program}
    (managed : program.Managed) :
    program.createdReceivers ≤ program.receivers := by
  have place := managed.place
  unfold createdReceivers
  split
  case h_1 pc =>
    rw [pc] at place
    exact place
  all_goals exact le_rfl

/-- `main` creates no more senders than asked for. -/
theorem Program.createdSenders_le {program : Program}
    (managed : program.Managed) :
    program.createdSenders ≤ program.senders := by
  have place := managed.place
  unfold createdSenders
  split
  case h_3 pc =>
    rw [pc] at place
    exact place
  case h_1 | h_2 => exact Nat.zero_le _
  all_goals exact le_rfl

/-- Nothing but time passes. -/
def MainEvent.isTick : MainEvent → Bool
  | .process (.tick _) => true
  | _ => false

/-- Every step but the passing of time brings the program closer to its end. -/
theorem closer_of_step {program next : Program} {event : MainEvent}
    (managed : program.Managed)
    (stepped : Program.step program event = some next) :
    next.remaining + (if event.isTick then 0 else 1) ≤ program.remaining := by
  cases moves_of_step stepped with
  | main can =>
      obtain ⟨same, ⟨sameReceivers, sameSenders⟩, _, _, closer⟩ :=
        Program.proceeds_of_mainStep managed.place can
      simp only [Program.remaining, same, sameReceivers, sameSenders,
        MainEvent.isTick, Bool.false_eq_true, if_false]
      omega
  | @process event process _ created can =>
      have closer := (transition_of_step can).advances.closer
        (fun number moves =>
          (created _ moves).trans_le (Program.createdReceivers_le managed))
        (fun number moves =>
          (created _ moves).trans_le (Program.createdSenders_le managed))
      have sameMain :
          Program.mainRemaining { program with process := process } =
          program.mainRemaining := rfl
      have isTick : (MainEvent.process event).isTick =
          decide (event.mover = none) := by
        cases event <;> rfl
      simp only [Program.remaining, sameMain, isTick, decide_eq_true_eq]
      omega

/-! ## Some thread can go on -/

/-- A thread that has not returned. -/
def Process.Unfinished (process : Process) : Thread → Prop
  | .receiver number => process.receivers number ≠ .done
  | .sender number => (process.senders number).pc ≠ .done

/-- The thread does not wait for the lock. -/
def Process.Lockless (process : Process) : Thread → Prop
  | .receiver number => process.receivers number ≠ .lock
  | .sender number =>
      (process.senders number).pc ≠ .lock ∧
        (process.senders number).pc ≠ .relock

/-- After some time the thread can go on. -/
def Process.GoesOn (process : Process) (thread : Thread) : Prop :=
  ∃ duration event next, event.mover = some thread ∧
    Process.step { process with now := process.now + duration } event =
      some next

section

variable {process : Process} {number : Nat} {thread : Thread}

/-- A thread that can step goes on. -/
theorem goesOn_of_step (event : Event)
    (isSome : (Process.step process event).isSome = true)
    (mover : event.mover = some thread) : process.GoesOn thread := by
  obtain ⟨next, stepped⟩ := Option.isSome_iff_exists.mp isSome
  exact ⟨0, event, next, mover, stepped⟩

/-- A receiver that is not done goes on when the lock is free or it needs
none. -/
theorem receiver_goesOn (watched : Watched process)
    (unfinished : process.Unfinished (.receiver number))
    (lock : process.lock = none ∨ process.Lockless (.receiver number)) :
    process.GoesOn (.receiver number) := by
  cases pc : process.receivers number with
  | lock =>
      have free := lock.resolve_right fun lockless => lockless pc
      exact goesOn_of_step (.receiver number [])
        (by simp [Process.step, Process.receiver, pc, Process.acquire, free])
          rfl
  | set | unlock =>
      exact goesOn_of_step (.receiver number [])
        (by simp [Process.step, Process.receiver, pc]) rfl
  | signal =>
      cases waiting : process.waiting with
      | nil =>
          exact goesOn_of_step (.receiver number [])
            (by simp [Process.step, Process.receiver, pc, Process.signal, waiting]) rfl
      | cons other rest =>
          have atWait := (watched.waiting other).mp (by simp [waiting])
          exact goesOn_of_step (.receiver number [other])
            (by simp [Process.step, Process.receiver, pc, Process.signal, atWait]) rfl
  | done => exact absurd pc unfinished

/-- A sender that is not done goes on, with time, when the lock is free or it
needs none. -/
theorem sender_goesOn (unfinished : process.Unfinished (.sender number))
    (lock : process.lock = none ∨ process.Lockless (.sender number)) :
    process.GoesOn (.sender number) := by
  cases pc : (process.senders number).pc with
  | lock =>
      have free := lock.resolve_right fun lockless => lockless.1 pc
      exact goesOn_of_step (.sender number)
        (by simp [Process.step, Process.sender, pc, Process.acquire, free]) rfl
  | relock =>
      have free := lock.resolve_right fun lockless => lockless.2 pc
      exact goesOn_of_step (.sender number)
        (by simp [Process.step, Process.sender, pc, Process.acquire, free]) rfl
  | waiting =>
      have late : (process.senders number).ts ≤
          process.now + (process.senders number).ts :=
        Nat.le_add_left ..
      exact ⟨(process.senders number).ts, .timeout number, _, rfl,
        if_pos ⟨pc, late⟩⟩
  | clock | test | wait | copy | clear | unlock | branch =>
      exact goesOn_of_step (.sender number)
        (by simp [Process.step, Process.sender, pc]) rfl
  | done => exact absurd pc unfinished

/-- A thread that has not returned can go on, or else the one that has the
lock. -/
theorem Coordinated.goesOn (coordinated : Coordinated process)
    (unfinished : process.Unfinished thread) :
    process.GoesOn thread ∨ ∃ holder, process.lock = some holder ∧
      process.GoesOn holder := by
  cases lock : process.lock with
  | none =>
      cases thread with
      | receiver number =>
          exact .inl (receiver_goesOn coordinated.watched unfinished
            (.inl lock))
      | sender number => exact .inl (sender_goesOn unfinished (.inl lock))
  | some holder =>
      have inside := coordinated.held holder lock
      refine .inr ⟨holder, rfl, ?_⟩
      cases holder with
      | receiver number =>
          refine receiver_goesOn coordinated.watched ?_ (.inr ?_) <;>
            rcases inside with pc | pc | pc <;>
              simp [Process.Unfinished, Process.Lockless, pc]
      | sender number =>
          refine sender_goesOn ?_ (.inr ?_) <;>
            rcases inside with pc | pc | pc | pc | pc <;>
            simp [Process.Unfinished, Process.Lockless, pc]

end

/-- Whoever has the lock has been created. -/
theorem Program.Managed.holder_created {program : Program} {thread : Thread}
    (managed : program.Managed) (locked : program.process.lock = some thread) :
    program.Created thread := by
  have inside := managed.coordinated.held thread locked
  by_contra uncreated
  cases thread with
  | receiver number =>
      have atStart := managed.receivers number (Nat.not_lt.mp uncreated)
      simp [Process.InSection, ReceiverPc.Inside, atStart] at inside
  | sender number =>
      have atStart := managed.senders number (Nat.not_lt.mp uncreated)
      simp [Process.InSection, SenderPc.Inside, atStart] at inside

/-- A run that `main` or a thread has brought closer to its end. -/
def Program.Approaches (program : Program) : Prop :=
  ∃ events next, Program.step.run program events = some next ∧ next.Managed ∧
    next.remaining < program.remaining

/-- A step of `main` comes closer to the return. -/
theorem Program.Managed.approaches_main {program : Program}
    (managed : program.Managed)
    (can : program.mainStep.isSome = true) : program.Approaches := by
  obtain ⟨next, proceeds⟩ := Option.isSome_iff_exists.mp can
  have stepped : Program.step program .main = some next := proceeds
  refine ⟨[.main], next, ?_, managed.step stepped,
    closer_of_step managed stepped⟩
  rw [Machine.run_cons, stepped]
  rfl

/-- The program when some time has passed. -/
def Program.after (program : Program) (duration : Nat) : Program :=
  { program with process := { program.process with
      now := program.process.now + duration } }

/-- Time may pass until `main` has returned. -/
theorem Program.step_tick {program : Program}
    (running : program.main ≠ .returned)
    (duration : Nat) :
    Program.step program (.process (.tick duration)) =
      some (program.after duration) :=
  if_pos ⟨running, fun _ none => nomatch none⟩

/-- Time that passes brings the program no farther from its end. -/
theorem Program.Managed.approaches_after {program : Program}
    (managed : program.Managed)
    (running : program.main ≠ .returned) (duration : Nat)
    (later : (program.after duration).Approaches) : program.Approaches := by
  have ticked := Program.step_tick running duration
  obtain ⟨events, next, ran, managedNext, closer⟩ := later
  refine ⟨.process (.tick duration) :: events, next, ?_, managedNext, ?_⟩
  · rw [Machine.run_cons, ticked, Option.bind_some, ran]
  · exact closer.trans_le (closer_of_step managed ticked)

/-- A thread that is joined goes on, or the one that it waits for. -/
theorem Program.Managed.approaches_thread {program : Program} (thread : Thread)
    (managed : program.Managed) (running : program.main ≠ .returned)
    (created : program.Created thread)
    (unfinished : program.process.Unfinished thread) :
    program.Approaches := by
  have goes : ∃ other, program.Created other ∧
      program.process.GoesOn other := by
    rcases managed.coordinated.goesOn unfinished with goesOn
      | ⟨holder, locked, goesOn⟩
    · exact ⟨thread, created, goesOn⟩
    · exact ⟨holder, managed.holder_created locked, goesOn⟩
  obtain ⟨other, isCreated, goesOn⟩ := goes
  obtain ⟨duration, event, process, mover, can⟩ := goesOn
  have managedLater := managed.step (Program.step_tick running duration)
  have mayMove :
      ∀ moving ∈ event.mover, (program.after duration).Created moving := by
    rw [mover]
    rintro _ ⟨rfl⟩
    exact isCreated
  have stepped : Program.step (program.after duration) (.process event) =
      some { program with process := process } :=
    (if_pos ⟨running, mayMove⟩).trans (congrArg (Option.map _) can)
  have notTick : (MainEvent.process event).isTick = false := by
    cases event <;> first | rfl | cases mover
  have closer := closer_of_step managedLater stepped
  rw [notTick] at closer
  refine managed.approaches_after running duration
    ⟨[.process event], _, ?_, managedLater.step stepped, closer⟩
  rw [Machine.run_cons, stepped]
  rfl

/-- Until `main` has returned, some steps come closer to it. -/
theorem Program.Managed.approaches {program : Program}
    (managed : program.Managed)
    (running : program.main ≠ .returned) : program.Approaches := by
  have place := managed.place
  cases pc : program.main with
  | createReceiver number | createSender number =>
      exact managed.approaches_main (by simp [Program.mainStep, pc])
  | sleep wake =>
      have managedLater := managed.step (Program.step_tick running wake)
      refine managed.approaches_after running wake
        (managedLater.approaches_main ?_)
      simp [Program.mainStep, Program.after, pc]
  | joinReceiver number =>
      by_cases more : number < program.receivers
      · by_cases done : program.process.receivers number = .done
        · exact managed.approaches_main
            (by simp [Program.mainStep, pc, more, done])
        · refine managed.approaches_thread (.receiver number) running ?_ done
          simpa [Program.Created, Program.createdReceivers, pc] using more
      · exact managed.approaches_main (by simp [Program.mainStep, pc, more])
  | joinSender number =>
      by_cases more : number < program.senders
      · by_cases done : (program.process.senders number).pc = .done
        · exact managed.approaches_main
            (by simp [Program.mainStep, pc, more, done])
        · refine managed.approaches_thread (.sender number) running ?_ done
          simpa [Program.Created, Program.createdSenders, pc] using more
      · exact managed.approaches_main (by simp [Program.mainStep, pc, more])
  | returned => exact absurd pc running

/-! ## What has happened by then -/

/-- The log says which receivers have set the flag and what senders have
decided. -/
structure Told (process : Process) : Prop where
  received : ∀ number, process.receivers number ≠ .lock →
    process.receivers number ≠ .set →
    .received number ∈ process.log
  decided : ∀ number, (process.senders number).pc = .done →
    .success number ∈ process.log ∨
    ∃ deadline time, .retry number deadline time ∈ process.log

/-- Nothing is recorded, and no thread comes to where it would have been. -/
theorem Told.keeps {process next : Process} (told : Told process)
    (log : next.log = process.log)
    (receivers : ∀ number, next.receivers number = process.receivers number ∨
      next.receivers number = .set ∨ process.receivers number = .signal ∨
        process.receivers number = .unlock)
    (senders : ∀ number, next.senders number = process.senders number ∨
      (next.senders number).pc ≠ .done) : Told next where
  received := by
    intro number
    rw [log]
    have before := told.received number
    have moved := receivers number
    grind
  decided := by
    intro number
    rw [log]
    have before := told.decided number
    have moved := senders number
    grind

/-- A receiver that is behind its section has told so. -/
theorem Told.step {process next : Process} {event : Event} (told : Told process)
    (stepped : Process.step process event = some next) : Told next := by
  cases transition_of_step stepped with
  | tick => exact told.keeps rfl (fun _ => .inl rfl) fun _ => .inl rfl
  | receiverLocks pc | receiverSignals pc | receiverUnlocks pc =>
      refine told.keeps rfl (fun number => ?_) fun number => ?_ <;>
        simp only [Process.setReceiver, Process.wake, Function.update_apply] <;>
          grind
  | reads pc | senderLocks pc | testsTrue pc | testsFalse pc | waits pc
  | relocks pc
  | copies pc | clears pc =>
      refine told.keeps rfl (fun _ => .inl rfl) fun number => ?_
      simp only [Process.setSender, Function.update_apply]
      grind
  | timesOut pc | wakes pc =>
      refine told.keeps rfl (fun _ => .inl rfl) fun number => ?_
      simp only [Process.wake]
      grind
  | receiverSets pc | senderUnlocks pc | succeeds pc | retries pc =>
      obtain ⟨received, decided⟩ := told
      constructor <;> intro number <;>
        simp only [Process.setReceiver, Process.setSender, Process.record,
          List.mem_append, List.mem_singleton, Function.update_apply] <;> grind

/-- In every run the receivers behind their section have told so. -/
theorem told_of_run {process : Process} {events : List Event}
    (ran : Process.step.run Process.start events = some process) :
    Told process :=
  Machine.run_invariant Told (fun _ _ _ told stepped => told.step stepped)
    ⟨fun _ notLock => absurd rfl notLock, fun _ done => by cases done⟩ ran

/-- Each sender that has returned has decided, and in one way only. -/
theorem decided_once {process : Process} {events : List Event} {number : Nat}
    (ran : Process.step.run Process.start events = some process)
    (done : (process.senders number).pc = .done) :
    (.success number ∈ process.log ∧ ∀ deadline time,
      .retry number deadline time ∉ process.log) ∨
      (.success number ∉ process.log ∧
        ∃ deadline time, .retry number deadline time ∈ process.log) := by
  obtain ⟨behind, once⟩ := once_run ran
  by_cases succeeded : .success number ∈ process.log
  · refine .inl ⟨succeeded, fun deadline time retried => ?_⟩
    obtain ⟨past, rest, split⟩ := List.append_of_mem succeeded
    have finished := once.earlier past _ rest split number rfl
    have copy := behind.copied number true (by simp [split, finished])
    rw [(behind.retried number deadline time retried).2] at copy
    cases copy
  · exact .inr ⟨succeeded,
      ((told_of_run ran).decided number done).resolve_left succeeded⟩

/-- Each receiver has set the flag once when all have returned. -/
theorem sections_perm {process : Process} {events : List Event}
    {receivers : Nat}
    (ran : Process.step.run Process.start events = some process)
    (done : ∀ number < receivers, process.receivers number = .done)
    (others : ∀ number, receivers ≤ number → process.receivers number = .lock) :
    (sections process.log).Perm (List.range receivers) := by
  obtain ⟨behind, once⟩ := once_run ran
  apply (List.perm_ext_iff_of_nodup once.nodupSections List.nodup_range).mpr
  intro number
  rw [mem_sections_iff, List.mem_range]
  constructor
  · intro received
    by_contra uncreated
    exact (behind.received number received).1
      (others number (Nat.not_lt.mp uncreated))
  · intro created
    have isDone := done number created
    exact (told_of_run ran).received number (by simp [isDone])
      (by simp [isDone])

/-- What happens to the threads. -/
def MainEvent.ofProcess? : MainEvent → Option Event
  | .main => none
  | .process event => some event

/-- `main` changes nothing about the threads it has created. -/
theorem process_of_mainStep {program next : Program}
    (stepped : program.mainStep = some next) :
    next.process = program.process ∧ next.receivers = program.receivers ∧
      next.senders = program.senders := by
  unfold Program.mainStep at stepped
  split at stepped
  case h_1 | h_3 =>
    cases stepped
    exact ⟨rfl, rfl, rfl⟩
  case h_2 =>
    obtain ⟨_, equal⟩ := Option.ite_none_right_eq_some.mp stepped
    cases equal
    exact ⟨rfl, rfl, rfl⟩
  case h_4 | h_5 =>
    split at stepped
    · obtain ⟨_, equal⟩ := Option.ite_none_right_eq_some.mp stepped
      cases equal
      exact ⟨rfl, rfl, rfl⟩
    · cases stepped
      exact ⟨rfl, rfl, rfl⟩
  case h_6 => cases stepped

/-- A run of the program is a run of the threads. -/
theorem run_process {program final : Program} {events : List MainEvent}
    (ran : Program.step.run program events = some final) :
    Process.step.run program.process (events.filterMap MainEvent.ofProcess?) =
      some final.process := by
  refine Machine.run_component Program.process MainEvent.ofProcess? ?_ ?_ ran
  · intro program event next move stepped isProcess
    cases moves_of_step stepped with
    | main can => cases isProcess
    | process _ _ can =>
        cases isProcess
        exact can
  · intro program event next stepped notProcess
    cases moves_of_step stepped with
    | main can => exact (process_of_mainStep can).1
    | process => cases notProcess

/-- What a run has reached, and how many steps it has made. -/
theorem managed_of_run {receivers senders : Nat} {events : List MainEvent}
    {program : Program}
    (ran : Program.step.run (Program.start receivers senders) events =
      some program) :
    program.Managed ∧ program.receivers = receivers ∧
      program.senders = senders ∧
      (events.countP fun event => !event.isTick) + program.remaining ≤
        (Program.start receivers senders).remaining := by
  refine Machine.run_invariant_past (fun past program =>
    program.Managed ∧ program.receivers = receivers ∧
      program.senders = senders ∧
      (past.countP fun event => !event.isTick) + program.remaining ≤
        (Program.start receivers senders).remaining)
    ⟨managed_start receivers senders, rfl, rfl, by simp⟩ ?_ ran
  rintro past program event next - ⟨managed, sameReceivers, sameSenders,
    bound⟩ stepped
  have closer := closer_of_step managed stepped
  have total : next.receivers = program.receivers ∧
      next.senders = program.senders := by
    cases moves_of_step stepped with
    | main can => exact (process_of_mainStep can).2
    | process => exact ⟨rfl, rfl⟩
  refine ⟨managed.step stepped, total.1.trans sameReceivers,
    total.2.trans sameSenders, ?_⟩
  rw [List.countP_append, List.countP_singleton]
  cases isTick : event.isTick <;> simp [isTick] at closer ⊢ <;> omega

theorem remaining_start (receivers senders : Nat) :
    (Program.start receivers senders).remaining =
      6 * receivers + 12 * senders + 6 := by
  simp [Program.remaining, Program.mainRemaining, Program.start, Process.start,
    ReceiverPc.remaining, SenderPc.remaining]
  omega

/-- Besides the passing of time a run makes at most so many steps; whatever has
happened, `main` can return; and when it has returned, each receiver has set the
flag once, each sender has found it set or not, and no more of them than there
are receivers have found it set. -/
theorem main_returns {receivers senders : Nat} {events : List MainEvent}
    {program : Program}
    (ran : Program.step.run (Program.start receivers senders) events =
      some program) :
    (events.countP fun event => !event.isTick) ≤
      6 * receivers + 12 * senders + 6 ∧
      (∃ more final, Program.step.run program more = some final ∧
        final.main = .returned) ∧
      (program.main = .returned →
        (sections program.process.log).Perm (List.range receivers) ∧
          (successes program.process.log).length ≤ receivers ∧
          ∀ number < senders,
            (.success number ∈ program.process.log ∧
                ∀ deadline time,
                  .retry number deadline time ∉ program.process.log) ∨
              (.success number ∉ program.process.log ∧
                ∃ deadline time,
                  .retry number deadline time ∈ program.process.log)) := by
  obtain ⟨managed, sameReceivers, sameSenders, bound⟩ := managed_of_run ran
  rw [remaining_start] at bound
  refine ⟨by omega, ?_, fun returned => ?_⟩
  · obtain ⟨more, final, ranOn, _, returned⟩ :
        ∃ more final, Program.step.run program more = some final ∧
          final.Managed ∧
          final.main = .returned :=
      Machine.exists_run_until Program.remaining
        (fun program managed running => managed.approaches running) managed
    exact ⟨more, final, ranOn, returned⟩
  · have ranProcess := run_process ran
    have place := managed.place
    rw [returned] at place
    obtain ⟨receiversDone, sendersDone⟩ := place
    rw [sameReceivers] at receiversDone
    rw [sameSenders] at sendersDone
    have others : ∀ number, receivers ≤ number →
        program.process.receivers number = .lock := by
      intro number uncreated
      refine managed.receivers number ?_
      simpa [Program.createdReceivers, returned, sameReceivers] using uncreated
    have sections := sections_perm ranProcess receiversDone others
    refine ⟨sections, ?_,
      fun number created =>
        decided_once ranProcess (sendersDone number created)⟩
    have fewer := length_successes_add_le ranProcess
    rw [sections.length_eq, List.length_range] at fewer
    omega

/-- The receiver sets the flag before the sender is created. -/
def oneEach : List MainEvent :=
  [.main, .main] ++ List.replicate 4 (.process (.receiver 0 [])) ++
    [.process (.tick 1000), .main, .main, .main] ++ List.replicate 7
    (.process (.sender 0)) ++
    List.replicate 4 .main

/-- One receiver and one sender. -/
theorem main_returns_oneEach :
    ∃ program, Program.step.run (Program.start 1 1) oneEach = some program ∧
      (sections program.process.log).Perm [0] ∧
      (successes program.process.log).length ≤ 1 := by
  have reached :
      (Program.step.run (Program.start 1 1) oneEach).map Program.main =
      some .returned := by decide
  obtain ⟨program, ran, returned⟩ := Option.map_eq_some_iff.mp reached
  obtain ⟨sections, fewer, _⟩ := (main_returns ran).2.2 returned
  exact ⟨program, ran, sections, fewer⟩

end ConditionVariable
end LinuxCPractice
