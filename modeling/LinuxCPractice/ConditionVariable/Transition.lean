import LinuxCPractice.ConditionVariable.Defs

/-!
# What one step of a receiver or a sender can do
-/

namespace LinuxCPractice
namespace ConditionVariable

open Process

/-- All steps of the process. -/
inductive Transition (process : Process) : Event → Process → Prop
  | tick {duration} :
      Transition process (.tick duration)
        { process with now := process.now + duration }
  | receiverLocks {number woken} (pc : process.receivers number = .lock)
      (free : process.lock = none) :
      Transition process (.receiver number woken)
        { process.setReceiver number .set with lock := some (.receiver number) }
  | receiverSets {number woken} (pc : process.receivers number = .set) :
      Transition process (.receiver number woken)
        { (process.setReceiver number .signal).record (.received number) with
          isPacketReceived := true }
  | receiverSignals {number woken} (pc : process.receivers number = .signal)
      (waiting : ∀ number ∈ woken, (process.senders number).pc = .waiting) :
      Transition process (.receiver number woken)
        ((process.wake woken).setReceiver number .unlock)
  | receiverUnlocks {number woken} (pc : process.receivers number = .unlock) :
      Transition process (.receiver number woken)
        { process.setReceiver number .done with lock := none }
  | reads {number} (pc : (process.senders number).pc = .clock) :
      Transition process (.sender number) (process.setSender number
        { process.senders number with pc := .lock, ts := process.now + responseTimeoutMs })
  | senderLocks {number} (pc : (process.senders number).pc = .lock)
      (free : process.lock = none) :
      Transition process (.sender number)
        { process.setSender number { process.senders number with
            pc := .test } with
          lock := some (.sender number) }
  | testsTrue {number} (pc : (process.senders number).pc = .test)
      (isTrue : process.isPacketReceived = true) :
      Transition process (.sender number)
        (process.setSender number { process.senders number with pc := .copy })
  | testsFalse {number} (pc : (process.senders number).pc = .test)
      (isFalse : process.isPacketReceived = false) :
      Transition process (.sender number)
        (process.setSender number { process.senders number with pc := .wait })
  | waits {number} (pc : (process.senders number).pc = .wait) :
      Transition process (.sender number)
        { process.setSender number { process.senders number with
            pc := .waiting } with
          lock := none, waiting := process.waiting ++ [number] }
  | relocks {number} (pc : (process.senders number).pc = .relock)
      (free : process.lock = none) :
      Transition process (.sender number)
        { process.setSender number { process.senders number with
            pc := .copy } with
          lock := some (.sender number) }
  | copies {number} (pc : (process.senders number).pc = .copy) :
      Transition process (.sender number) (process.setSender number
        { process.senders number with
          pc := .clear, isPacketReceivedCopy := process.isPacketReceived })
  | clears {number} (pc : (process.senders number).pc = .clear) :
      Transition process (.sender number)
        { process.setSender number { process.senders number with
            pc := .unlock } with
          isPacketReceived := false }
  | senderUnlocks {number} (pc : (process.senders number).pc = .unlock) :
      Transition process (.sender number)
        { (process.setSender number { process.senders number with
            pc := .branch }).record
            (.finished number
              (process.senders number).isPacketReceivedCopy) with
          lock := none }
  | succeeds {number} (pc : (process.senders number).pc = .branch)
      (copy : (process.senders number).isPacketReceivedCopy = true) :
      Transition process (.sender number)
        ((process.setSender number { process.senders number with
            pc := .done }).record
          (.success number))
  | retries {number} (pc : (process.senders number).pc = .branch)
      (copy : (process.senders number).isPacketReceivedCopy = false) :
      Transition process (.sender number)
        ((process.setSender number { process.senders number with
            pc := .done }).record
          (.retry number (process.senders number).ts process.now))
  | timesOut {number} (pc : (process.senders number).pc = .waiting)
      (late : (process.senders number).ts ≤ process.now) :
      Transition process (.timeout number) (process.wake [number])
  | wakes {number} (pc : (process.senders number).pc = .waiting) :
      Transition process (.spurious number) (process.wake [number])

theorem transition_of_receiver {process next : Process} {number : Nat} {woken : List Nat}
    (stepped : process.receiver number woken = some next) :
    Transition process (.receiver number woken) next := by
  unfold receiver at stepped
  split at stepped
  case h_1 pc =>
    obtain ⟨free, equal⟩ := Option.ite_none_right_eq_some.mp stepped
    cases equal
    exact .receiverLocks pc free
  case h_2 pc =>
    cases stepped
    exact .receiverSets pc
  case h_3 pc =>
    obtain ⟨signalled, signals, rfl⟩ := Option.map_eq_some_iff.mp stepped
    obtain ⟨⟨waiting, _⟩, equal⟩ := Option.ite_none_right_eq_some.mp signals
    cases equal
    exact .receiverSignals pc waiting
  case h_4 pc =>
    cases stepped
    exact .receiverUnlocks pc
  case h_5 => cases stepped

theorem transition_of_sender {process next : Process} {number : Nat}
    (stepped : process.sender number = some next) :
    Transition process (.sender number) next := by
  unfold sender at stepped
  simp only at stepped
  split at stepped
  case h_1 pc =>
    cases stepped
    exact .reads pc
  case h_2 pc =>
    obtain ⟨free, equal⟩ := Option.ite_none_right_eq_some.mp stepped
    cases equal
    exact .senderLocks pc free
  case h_3 pc =>
    cases stepped
    cases flag : process.isPacketReceived with
    | true => exact .testsTrue pc flag
    | false => exact .testsFalse pc flag
  case h_4 pc =>
    cases stepped
    exact .waits pc
  case h_5 => cases stepped
  case h_6 pc =>
    obtain ⟨free, equal⟩ := Option.ite_none_right_eq_some.mp stepped
    cases equal
    exact .relocks pc free
  case h_7 pc =>
    cases stepped
    exact .copies pc
  case h_8 pc =>
    cases stepped
    exact .clears pc
  case h_9 pc =>
    cases stepped
    exact .senderUnlocks pc
  case h_10 pc =>
    cases stepped
    by_cases copy : (process.senders number).isPacketReceivedCopy = true
    · rw [if_pos copy]
      exact .succeeds pc copy
    · rw [if_neg copy]
      exact .retries pc (Bool.eq_false_iff.mpr copy)
  case h_11 => cases stepped

/-- Every step is one of the transitions. -/
theorem transition_of_step {process next : Process} {event : Event}
    (stepped : step process event = some next) : Transition process event next := by
  cases event with
  | tick duration =>
      cases stepped
      exact .tick
  | receiver number woken => exact transition_of_receiver stepped
  | sender number => exact transition_of_sender stepped
  | timeout number =>
      obtain ⟨⟨pc, late⟩, equal⟩ := Option.ite_none_right_eq_some.mp stepped
      cases equal
      exact .timesOut pc late
  | spurious number =>
      obtain ⟨pc, equal⟩ := Option.ite_none_right_eq_some.mp stepped
      cases equal
      exact .wakes pc

/-! ## Mutual exclusion -/

/-- Between acquiring and releasing the lock. -/
def ReceiverPc.Inside (pc : ReceiverPc) : Prop :=
  pc = .set ∨ pc = .signal ∨ pc = .unlock

/-- Between acquiring and releasing the lock, outside the wait. -/
def SenderPc.Inside (pc : SenderPc) : Prop :=
  pc = .test ∨ pc = .wait ∨ pc = .copy ∨ pc = .clear ∨ pc = .unlock

/-- A thread in its section holds the lock. -/
structure Exclusive (process : Process) : Prop where
  receiver : ∀ number, (process.receivers number).Inside →
    process.lock = some (.receiver number)
  sender : ∀ number, (process.senders number).pc.Inside →
    process.lock = some (.sender number)

/-- The thread is in its section. -/
def Process.InSection (process : Process) : Thread → Prop
  | .receiver number => (process.receivers number).Inside
  | .sender number => (process.senders number).pc.Inside

section Sections

variable {process next : Process} {number : Nat} {thread : Thread}

/-- The thread in its section has the lock. -/
theorem Exclusive.lock_eq (exclusive : Exclusive process)
    (inside : process.InSection thread) :
    process.lock = some thread := by
  cases thread with
  | receiver number => exact exclusive.receiver number inside
  | sender number => exact exclusive.sender number inside

/-- The lock keeps the sections exclusive. -/
theorem exclusive_of_lock_eq
    (lock : ∀ thread, process.InSection thread → process.lock = some thread) :
    Exclusive process :=
  ⟨fun number => lock (.receiver number), fun number => lock (.sender number)⟩

/-- A receiver goes on. -/
theorem inSection_receiver {pc : ReceiverPc}
    (receivers : next.receivers = Function.update process.receivers number pc)
    (senders : next.senders = process.senders) :
    next.InSection thread ↔ if thread = .receiver number then pc.Inside
      else process.InSection thread := by
  cases thread with
  | receiver other =>
      simp only [InSection, receivers, Function.update_apply,
        Thread.receiver.injEq]
      split <;> rfl
  | sender other => simp [InSection, senders]

/-- A sender goes on. -/
theorem inSection_sender {sender : Sender}
    (receivers : next.receivers = process.receivers)
    (senders : next.senders = Function.update process.senders number sender) :
    next.InSection thread ↔
      if thread = .sender number then sender.pc.Inside
      else process.InSection thread := by
  cases thread with
  | receiver other => simp [InSection, receivers]
  | sender other =>
      simp only [InSection, senders, Function.update_apply, Thread.sender.injEq]
      split <;> rfl

/-- A sender that is woken does not have the lock yet. -/
theorem inSection_of_wake {woken : List Nat}
    (inside : (process.wake woken).InSection thread) :
    process.InSection thread := by
  cases thread with
  | receiver other => exact inside
  | sender other =>
      simp only [InSection, wake] at inside ⊢
      split at inside
      · simp [SenderPc.Inside] at inside
      · exact inside

/-- A sender goes on to where something holds of it. -/
theorem senders_of_update {Holds : Sender → Prop} {sender : Sender}
    (senders : next.senders = Function.update process.senders number sender)
    (holds : Holds sender) (other : Nat) :
    next.senders other = process.senders other ∨
      Holds (next.senders other) := by
  rw [senders, Function.update_apply]
  split
  · exact .inr holds
  · exact .inl rfl

/-- Some senders are woken. -/
theorem senders_of_wake {Holds : Sender → Prop} {woken : List Nat}
    (senders : next.senders = (process.wake woken).senders)
    (holds : ∀ sender : Sender, sender.pc = .relock → Holds sender)
    (other : Nat) :
    next.senders other = process.senders other ∨
      Holds (next.senders other) := by
  rw [senders]
  simp only [wake]
  split
  · exact .inr (holds _ rfl)
  · exact .inl rfl

/-- No thread enters its section. -/
theorem Exclusive.keeps (exclusive : Exclusive process)
    (lock : next.lock = process.lock)
    (inside : ∀ other, next.InSection other → process.InSection other) :
    Exclusive next := by
  apply exclusive_of_lock_eq
  intro other isInside
  rw [lock]
  exact exclusive.lock_eq (inside other isInside)

/-- A thread goes on without the lock or in its section. -/
theorem Exclusive.goesOn {goes : Prop} (exclusive : Exclusive process)
    (lock : next.lock = process.lock)
    (inside : ∀ other, next.InSection other ↔
      if other = thread then goes else process.InSection other)
    (was : goes → process.InSection thread) : Exclusive next := by
  refine exclusive.keeps lock fun other isInside => ?_
  rw [inside] at isInside
  split at isInside
  case isTrue same => exact same ▸ was isInside
  case isFalse => exact isInside

/-- A thread acquires the lock. -/
theorem Exclusive.locks {goes : Prop} (exclusive : Exclusive process)
    (free : process.lock = none) (lock : next.lock = some thread)
    (inside : ∀ other, next.InSection other ↔
      if other = thread then goes
      else process.InSection other) : Exclusive next := by
  apply exclusive_of_lock_eq
  intro other isInside
  rw [inside] at isInside
  split at isInside
  case isTrue same => rw [same, lock]
  case isFalse =>
    have held := exclusive.lock_eq isInside
    rw [free] at held
    cases held

/-- A thread in its section leaves it. -/
theorem Exclusive.unlocks {goes : Prop} (exclusive : Exclusive process)
    (was : process.InSection thread) (leaves : ¬goes)
    (inside : ∀ other, next.InSection other ↔
      if other = thread then goes
      else process.InSection other) : Exclusive next := by
  apply exclusive_of_lock_eq
  intro other isInside
  rw [inside] at isInside
  split at isInside
  case isTrue => exact absurd isInside leaves
  case isFalse different =>
    have held := exclusive.lock_eq isInside
    rw [exclusive.lock_eq was] at held
    cases held
    exact absurd rfl different

end Sections

/-- No step lets a second thread into its section. -/
theorem Exclusive.step {process next : Process} {event : Event}
    (exclusive : Exclusive process)
    (stepped : step process event = some next) : Exclusive next := by
  cases transition_of_step stepped with
  | tick => exact exclusive.keeps rfl fun _ => id
  | receiverLocks pc free =>
      exact exclusive.locks free rfl fun _ => inSection_receiver rfl rfl
  | receiverSets pc =>
      exact exclusive.goesOn rfl (fun _ => inSection_receiver rfl rfl) fun _ =>
        .inl pc
  | @receiverSignals number woken pc =>
      have waking : Exclusive (process.wake woken) :=
        exclusive.keeps rfl fun _ => inSection_of_wake
      exact waking.goesOn rfl (fun _ => inSection_receiver rfl rfl) fun _ =>
        .inr (.inl pc)
  | @receiverUnlocks number _ pc =>
      have was : process.InSection (.receiver number) := .inr (.inr pc)
      exact exclusive.unlocks was (by simp [ReceiverPc.Inside]) fun _ =>
        inSection_receiver rfl rfl
  | reads pc | succeeds pc | retries pc =>
      refine exclusive.goesOn rfl (fun _ => inSection_sender rfl rfl) fun inside => ?_
      simp [SenderPc.Inside] at inside
  | testsTrue pc | testsFalse pc | copies pc | clears pc =>
      refine exclusive.goesOn rfl (fun _ => inSection_sender rfl rfl) fun _ => ?_
      simp [InSection, SenderPc.Inside, pc]
  | senderLocks pc free | relocks pc free =>
      exact exclusive.locks free rfl fun _ => inSection_sender rfl rfl
  | @waits number pc =>
      have was : process.InSection (.sender number) := .inr (.inl pc)
      exact exclusive.unlocks was (by simp [SenderPc.Inside]) fun _ =>
        inSection_sender rfl rfl
  | @senderUnlocks number pc =>
      have was : process.InSection (.sender number) := .inr (.inr (.inr (.inr pc)))
      exact exclusive.unlocks was (by simp [SenderPc.Inside]) fun _ =>
        inSection_sender rfl rfl
  | timesOut pc | wakes pc => exact exclusive.keeps rfl fun _ => inSection_of_wake

end ConditionVariable
end LinuxCPractice
