import LinuxCPractice.ConditionVariable.Wakeups

/-!
# Creating and joining receivers and senders

`main` of `thread_conditionvariable.c`, which creates the receivers, sleeps for
a second, creates the senders and joins all of them. The threads run from their
creation on.
-/

namespace LinuxCPractice
namespace ConditionVariable

/-! ## `main` -/

/-- Where `main` stands, with the number of the thread it is at. -/
inductive MainPc
  | createReceiver (number : Nat)
  | sleep (wake : Nat)
  | createSender (number : Nat)
  | joinReceiver (number : Nat)
  | joinSender (number : Nat)
  | returned
  deriving DecidableEq

/-- The threads that `main` is to create, and the process of all threads. -/
structure Program where
  receivers : Nat
  senders : Nat
  main : MainPc
  process : Process

/-- A step of `main`, or what can happen to the threads. -/
inductive MainEvent
  | main
  | process (event : Event)
  deriving DecidableEq

/-- The thread that an event is about. -/
def Event.mover : Event → Option Thread
  | .tick _ => none
  | .receiver number _ => some (.receiver number)
  | .sender number | .timeout number | .spurious number => some (.sender number)

namespace Program

/-- `main` at its beginning. -/
def start (receivers senders : Nat) : Program where
  receivers := receivers
  senders := senders
  main := .createReceiver 0
  process := Process.start

/-- The number of receivers that have been created. -/
def createdReceivers (program : Program) : Nat :=
  match program.main with
  | .createReceiver number => number
  | .sleep _ | .createSender _ | .joinReceiver _ | .joinSender _ | .returned =>
      program.receivers

/-- The senders that `main` has created. -/
def createdSenders (program : Program) : Nat :=
  match program.main with
  | .createReceiver _ | .sleep _ => 0
  | .createSender number => number
  | .joinReceiver _ | .joinSender _ | .returned => program.senders

/-- Whether `main` has created a thread. -/
def Created (program : Program) : Thread → Prop
  | .receiver number => number < program.createdReceivers
  | .sender number => number < program.createdSenders

instance (program : Program) (thread : Thread) :
    Decidable (program.Created thread) :=
  match thread with
  | .receiver number =>
      inferInstanceAs (Decidable (number < program.createdReceivers))
  | .sender number =>
      inferInstanceAs (Decidable (number < program.createdSenders))

/-- One step of `main`, with all threads created. -/
def mainStep (program : Program) : Option Program :=
  match program.main with
  | .createReceiver number => some { program with
      main := if number < program.receivers then .createReceiver (number + 1)
        else .sleep (program.process.now + 1000) }
  | .sleep wake =>
      if wake ≤ program.process.now then
        some { program with main := .createSender 0 } else none
  | .createSender number => some { program with
      main := if number < program.senders then .createSender (number + 1)
        else .joinReceiver 0 }
  | .joinReceiver number =>
      if number < program.receivers then
        if program.process.receivers number = .done then
          some { program with main := .joinReceiver (number + 1) }
        else none
      else some { program with main := .joinSender 0 }
  | .joinSender number =>
      if number < program.senders then
        if (program.process.senders number).pc = .done then
          some { program with main := .joinSender (number + 1) }
        else none
      else some { program with main := .returned }
  | .returned => none

/-- One step of the program. Only threads that have been created take part, and
none when `main` has returned. -/
def step : Machine Program MainEvent := fun program event =>
  match event with
  | .main => program.mainStep
  | .process event =>
      if program.main ≠ .returned ∧ ∀ thread ∈ event.mover,
        program.Created thread then
        (Process.step program.process event).map fun process =>
          { program with process := process }
      else none

end Program

/-! ## What a step of a thread brings -/

/-- The number of steps a receiver has left. -/
def ReceiverPc.remaining : ReceiverPc → Nat
  | .lock => 4
  | .set => 3
  | .signal => 2
  | .unlock => 1
  | .done => 0

/-- The number of steps a sender has left, with the end of its wait. -/
def SenderPc.remaining : SenderPc → Nat
  | .clock => 10
  | .lock => 9
  | .test => 8
  | .wait => 7
  | .waiting => 6
  | .relock => 5
  | .copy => 4
  | .clear => 3
  | .unlock => 2
  | .branch => 1
  | .done => 0

/-- The thread that an event is about is closer to its end; of the others only
senders that wait may be moved. -/
structure Advances (process next : Process) (mover : Option Thread) : Prop where
  receiver : ∀ number, mover = some (.receiver number) →
    (next.receivers number).remaining < (process.receivers number).remaining
  receivers : ∀ number, mover ≠ some (.receiver number) →
    next.receivers number = process.receivers number
  sender : ∀ number, mover = some (.sender number) →
    (next.senders number).pc.remaining < (process.senders number).pc.remaining
  senders : ∀ number, mover ≠ some (.sender number) →
    next.senders number = process.senders number ∨
      (process.senders number).pc = .waiting ∧
      (next.senders number).pc = .relock

section

variable {process next : Process} {number : Nat}

theorem wake_nil_senders (process : Process) :
    (process.wake []).senders = process.senders := by
  simp [Process.wake]

/-- A step of a receiver, with the senders it wakes. -/
theorem Advances.ofReceiver {pc : ReceiverPc} (woken : List Nat)
    (waiting : ∀ other ∈ woken, (process.senders other).pc = .waiting)
    (receivers : next.receivers = Function.update process.receivers number pc)
    (senders : next.senders = (process.wake woken).senders)
    (closer : pc.remaining < (process.receivers number).remaining) :
    Advances process next (some (.receiver number)) where
  receiver := by
    rintro _ ⟨rfl⟩
    rwa [receivers, Function.update_self]
  receivers := by
    intro other different
    rw [receivers, Function.update_of_ne]
    exact fun same => different (by rw [same])
  sender := by simp
  senders := by
    intro other _
    rw [senders]
    by_cases woken : other ∈ woken
    · exact .inr ⟨waiting other woken, by simp [Process.wake, woken]⟩
    · exact .inl (by simp [Process.wake, woken])

/-- A step of a sender. -/
theorem Advances.ofSender {sender : Sender}
    (receivers : next.receivers = process.receivers)
    (senders : next.senders = Function.update process.senders number sender)
    (closer : sender.pc.remaining < (process.senders number).pc.remaining) :
    Advances process next (some (.sender number)) where
  receiver := by simp
  receivers := fun _ _ => by rw [receivers]
  sender := by
    rintro _ ⟨rfl⟩
    rwa [senders, Function.update_self]
  senders := by
    intro other different
    refine .inl ?_
    rw [senders, Function.update_of_ne]
    exact fun same => different (by rw [same])

/-- A sender that wakes up. -/
theorem Advances.ofWake (pc : (process.senders number).pc = .waiting) :
    Advances process (process.wake [number]) (some (.sender number)) where
  receiver := by simp
  receivers := fun _ _ => rfl
  sender := by
    rintro _ ⟨rfl⟩
    simp [Process.wake, pc, SenderPc.remaining]
  senders := by
    intro other different
    have notSame : other ≠ number := fun same => different (by rw [same])
    exact .inl (by simp [Process.wake, notSame])

/-- Every step brings the thread that makes it closer to its end. -/
theorem Transition.advances {event : Event}
    (transition : Transition process event next) :
    Advances process next event.mover := by
  cases transition with
  | tick =>
      exact ⟨by simp [Event.mover], fun _ _ => rfl, by simp [Event.mover],
        fun _ _ => .inl rfl⟩
  | receiverLocks pc | receiverSets pc | receiverUnlocks pc =>
      exact .ofReceiver [] (by simp) rfl (wake_nil_senders process).symm
        (by simp [pc, ReceiverPc.remaining])
  | receiverSignals pc waiting =>
      exact .ofReceiver _ waiting rfl rfl (by simp [pc, ReceiverPc.remaining])
  | reads pc | senderLocks pc | testsTrue pc | testsFalse pc | waits pc
  | relocks pc | copies pc
  | clears pc | senderUnlocks pc | succeeds pc | retries pc =>
      exact .ofSender rfl rfl (by simp [pc, SenderPc.remaining])
  | timesOut pc | wakes pc => exact .ofWake pc

end

/-! ## What `main` has reached -/

/-- A step of the program is one of `main` or of a thread that has been
created. -/
inductive Moves (program : Program) : MainEvent → Program → Prop
  | main {next} (stepped : program.mainStep = some next) :
        Moves program .main next
  | process {event process} (unfinished : program.main ≠ .returned)
      (created : ∀ thread ∈ event.mover, program.Created thread)
      (stepped : Process.step program.process event = some process) :
      Moves program (.process event) { program with process := process }

theorem moves_of_step {program next : Program} {event : MainEvent}
    (stepped : Program.step program event = some next) :
    Moves program event next := by
  cases event with
  | main => exact .main stepped
  | process event =>
      obtain ⟨⟨unfinished, created⟩, stepped⟩ :=
        Option.ite_none_right_eq_some.mp stepped
      obtain ⟨process, can, rfl⟩ := Option.map_eq_some_iff.mp stepped
      exact .process unfinished created can

namespace Program

/-- So many receivers and senders have been joined. -/
structure Joined (program : Program) (receivers senders : Nat) : Prop where
  receivers : ∀ number < receivers, program.process.receivers number = .done
  senders : ∀ number < senders, (program.process.senders number).pc = .done

/-- What holds where `main` stands. -/
def Place (program : Program) : MainPc → Prop
  | .createReceiver number => number ≤ program.receivers
  | .sleep _ => True
  | .createSender number => number ≤ program.senders
  | .joinReceiver number => number ≤ program.receivers ∧ program.Joined number 0
  | .joinSender number =>
      number ≤ program.senders ∧ program.Joined program.receivers number
  | .returned => program.Joined program.receivers program.senders

/-- The invariant of the program: threads that are still to be created stand at
their beginning. -/
structure Managed (program : Program) : Prop where
  coordinated : Coordinated program.process
  behind : Behind program.process
  once : Once program.process.log
  receivers : ∀ number, program.createdReceivers ≤ number →
    program.process.receivers number = .lock
  senders : ∀ number, program.createdSenders ≤ number →
    (program.process.senders number).pc = .clock
  place : program.Place program.main

/-- The number of steps `main` has left. -/
def mainRemaining (program : Program) : Nat :=
  match program.main with
  | .createReceiver number =>
      program.receivers - number + program.senders + program.receivers +
        program.senders + 6
  | .sleep _ => program.senders + program.receivers + program.senders + 5
  | .createSender number =>
      program.senders - number + program.receivers + program.senders + 4
  | .joinReceiver number => program.receivers - number + program.senders + 3
  | .joinSender number => program.senders - number + 2
  | .returned => 0

/-- What a step of `main` does. -/
structure Proceeds (program next : Program) : Prop where
  process : next.process = program.process
  total : next.receivers = program.receivers ∧ next.senders = program.senders
  created : program.createdReceivers ≤ next.createdReceivers ∧
    program.createdSenders ≤ next.createdSenders
  place : next.Place next.main
  closer : next.mainRemaining < program.mainRemaining

/-- A receiver that is done has been joined. -/
theorem Joined.receiver {program : Program} {number senders : Nat}
    (joined : program.Joined number senders)
    (done : program.process.receivers number = .done) :
    program.Joined (number + 1) senders where
  receivers := by
    intro other isBefore
    rcases Nat.lt_succ_iff_lt_or_eq.mp isBefore with isBefore | rfl
    · exact joined.receivers other isBefore
    · exact done
  senders := joined.senders

/-- A sender that is done has been joined. -/
theorem Joined.sender {program : Program} {receivers number : Nat}
    (joined : program.Joined receivers number)
    (done : (program.process.senders number).pc = .done) :
    program.Joined receivers (number + 1) where
  receivers := joined.receivers
  senders := by
    intro other isBefore
    rcases Nat.lt_succ_iff_lt_or_eq.mp isBefore with isBefore | rfl
    · exact joined.senders other isBefore
    · exact done

/-- A step of `main` goes on to a place that fits what has been joined. -/
theorem proceeds_of_mainStep {program next : Program}
    (place : program.Place program.main)
    (stepped : program.mainStep = some next) : program.Proceeds next := by
  unfold mainStep at stepped
  split at stepped
  case h_1 number pc =>
    rw [pc] at place
    cases stepped
    by_cases more : number < program.receivers
    · simp only [if_pos more]
      refine ⟨rfl, ⟨rfl, rfl⟩, ?_, more, ?_⟩
      · simp [createdReceivers, createdSenders, pc]
      · simp only [mainRemaining, pc]
        omega
    · simp only [if_neg more]
      refine ⟨rfl, ⟨rfl, rfl⟩, ?_, trivial, ?_⟩
      · simpa [createdReceivers, createdSenders, pc, Place] using place
      · simp only [mainRemaining, pc]
        omega
  case h_2 wake pc =>
    obtain ⟨_, equal⟩ := Option.ite_none_right_eq_some.mp stepped
    cases equal
    refine ⟨rfl, ⟨rfl, rfl⟩, ?_, Nat.zero_le _, ?_⟩
    · simp [createdReceivers, createdSenders, pc]
    · simp only [mainRemaining, pc]
      omega
  case h_3 number pc =>
    rw [pc] at place
    cases stepped
    by_cases more : number < program.senders
    · simp only [if_pos more]
      refine ⟨rfl, ⟨rfl, rfl⟩, ?_, more, ?_⟩
      · simp [createdReceivers, createdSenders, pc]
      · simp only [mainRemaining, pc]
        omega
    · simp only [if_neg more]
      refine ⟨rfl, ⟨rfl, rfl⟩, ?_, ⟨Nat.zero_le _, ⟨by simp, by simp⟩⟩, ?_⟩
      · simpa [createdReceivers, createdSenders, pc, Place] using place
      · simp only [mainRemaining, pc]
        omega
  case h_4 number pc =>
    rw [pc] at place
    split at stepped
    · rename_i more
      obtain ⟨done, equal⟩ := Option.ite_none_right_eq_some.mp stepped
      cases equal
      have joined := place.2.receiver done
      refine ⟨rfl, ⟨rfl, rfl⟩, ?_,
        ⟨more, ⟨joined.receivers, joined.senders⟩⟩, ?_⟩
      · simp [createdReceivers, createdSenders, pc]
      · simp only [mainRemaining, pc]
        omega
    · rename_i all
      cases stepped
      obtain rfl : number = program.receivers :=
        Nat.le_antisymm place.1 (Nat.not_lt.mp all)
      refine ⟨rfl, ⟨rfl, rfl⟩, ?_,
        ⟨Nat.zero_le _, ⟨place.2.receivers, by simp⟩⟩, ?_⟩
      · simp [createdReceivers, createdSenders, pc]
      · simp only [mainRemaining, pc]
        omega
  case h_5 number pc =>
    rw [pc] at place
    split at stepped
    · rename_i more
      obtain ⟨done, equal⟩ := Option.ite_none_right_eq_some.mp stepped
      cases equal
      have joined := place.2.sender done
      refine ⟨rfl, ⟨rfl, rfl⟩, ?_,
        ⟨more, ⟨joined.receivers, joined.senders⟩⟩, ?_⟩
      · simp [createdReceivers, createdSenders, pc]
      · simp only [mainRemaining, pc]
        omega
    · rename_i all
      cases stepped
      obtain rfl : number = program.senders :=
        Nat.le_antisymm place.1 (Nat.not_lt.mp all)
      refine ⟨rfl, ⟨rfl, rfl⟩, ?_, ⟨place.2.receivers, place.2.senders⟩, ?_⟩
      · simp [createdReceivers, createdSenders, pc]
      · simp only [mainRemaining, pc]
        omega
  case h_6 => cases stepped

end Program

/-! ## The invariant -/

section

variable {program next : Program} {process : Process} {event : Event}
  {mover : Option Thread}

/-- A receiver that is done stays so. -/
theorem Advances.receiver_done {number : Nat}
    (advances : Advances program.process process mover)
    (done : program.process.receivers number = .done) :
    process.receivers number = .done := by
  by_cases moves : mover = some (.receiver number)
  · have closer := advances.receiver number moves
    simp [done, ReceiverPc.remaining] at closer
  · rw [advances.receivers number moves, done]

/-- A sender that is done stays so. -/
theorem Advances.sender_done {number : Nat}
    (advances : Advances program.process process mover)
    (done : (program.process.senders number).pc = .done) :
    (process.senders number).pc = .done := by
  by_cases moves : mover = some (.sender number)
  · have closer := advances.sender number moves
    simp [done, SenderPc.remaining] at closer
  · rcases advances.senders number moves with same | ⟨waiting, _⟩
    · rw [same, done]
    · simp [done] at waiting

/-- The threads joined stay done. -/
theorem Advances.joined {receivers senders : Nat}
    (advances : Advances program.process process mover)
    (joined : program.Joined receivers senders) :
    Program.Joined { program with process := process } receivers senders :=
  ⟨fun number isBefore =>
    advances.receiver_done (joined.receivers number isBefore),
    fun number isBefore =>
      advances.sender_done (joined.senders number isBefore)⟩

/-- A step of a thread leaves `main` where it fits. -/
theorem Advances.place {pc : MainPc}
    (advances : Advances program.process process mover)
    (place : program.Place pc) :
    Program.Place { program with process := process } pc := by
  cases pc with
  | createReceiver number | sleep wake | createSender number => exact place
  | joinReceiver number | joinSender number =>
      exact ⟨place.1, advances.joined place.2⟩
  | returned => exact advances.joined place

/-- The steps of the threads keep their coordination. -/
theorem Coordinated.step (coordinated : Coordinated program.process)
    (stepped : Process.step program.process event = some process) :
    Coordinated process where
  exclusive := coordinated.exclusive.step stepped
  held := coordinated.held.step stepped
  copied := coordinated.copied.step coordinated.exclusive stepped
  watched := coordinated.watched.step coordinated.exclusive stepped

/-- A step of a thread that has been created. -/
theorem Program.Managed.thread (managed : program.Managed)
    (created : ∀ thread ∈ event.mover, program.Created thread)
    (stepped : Process.step program.process event = some process) :
    Program.Managed { program with process := process } where
  coordinated := managed.coordinated.step stepped
  behind := managed.behind.step stepped
  once := managed.once.step managed.behind stepped
  receivers := by
    intro number uncreated
    have rests : event.mover ≠ some (.receiver number) := fun moves =>
      Nat.not_lt.mpr uncreated (created _ moves)
    rw [(transition_of_step stepped).advances.receivers number rests]
    exact managed.receivers number uncreated
  senders := by
    intro number uncreated
    have clock := managed.senders number uncreated
    have rests : event.mover ≠ some (.sender number) := fun moves =>
      Nat.not_lt.mpr uncreated (created _ moves)
    rcases (transition_of_step stepped).advances.senders number rests with same
      | ⟨waiting, _⟩
    · rw [same, clock]
    · simp [clock] at waiting
  place := (transition_of_step stepped).advances.place managed.place

/-- A step of `main`. -/
theorem Program.Managed.main (managed : program.Managed)
    (stepped : program.mainStep = some next) :
    next.Managed := by
  obtain ⟨same, _, created, place, _⟩ :=
    Program.proceeds_of_mainStep managed.place stepped
  refine ⟨?_, ?_, ?_, ?_, ?_, place⟩ <;> rw [same]
  · exact managed.coordinated
  · exact managed.behind
  · exact managed.once
  · exact fun number uncreated =>
      managed.receivers number (Nat.le_trans created.1 uncreated)
  · exact fun number uncreated =>
      managed.senders number (Nat.le_trans created.2 uncreated)

end

theorem managed_start (receivers senders : Nat) :
    (Program.start receivers senders).Managed := by
  have ran : Process.step.run Process.start [] = some Process.start := rfl
  obtain ⟨behind, once⟩ := once_run ran
  exact ⟨coordinated_of_run ran, behind, once,
    fun _ _ => rfl, fun _ _ => rfl, Nat.zero_le _⟩

/-- `main` creates and joins threads as it should. -/
theorem Program.Managed.step {program next : Program} {event : MainEvent}
    (managed : program.Managed)
    (stepped : Program.step program event = some next) :
    next.Managed := by
  cases moves_of_step stepped with
  | main can => exact managed.main can
  | process _ created can => exact managed.thread created can

end ConditionVariable
end LinuxCPractice
