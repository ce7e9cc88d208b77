import LinuxCPractice.ConditionVariable.Matching

/-!
# Retries and deadlines

The wait of a sender is guarded by an `if` and its result is dropped, so what a
sender does after the wait depends only on the flag. A sender whose wait ends
early and that then finds the flag cleared retries before its deadline.
-/

namespace LinuxCPractice
namespace ConditionVariable

open Process

/-- Nobody has taken the retry branch before its deadline. -/
def RetriesLate (process : Process) : Prop :=
  ∀ sender deadline time, .retry sender deadline time ∈ process.log →
    deadline ≤ time

/-- A sender that acquires the lock after its wait and before its deadline finds
the flag set. -/
def FoundInTime (process : Process) : Event → Prop
  | .sender number => (process.senders number).pc = .relock →
      process.now < (process.senders number).ts →
      process.isPacketReceived = true
  | _ => True

instance (process : Process) (event : Event) :
    Decidable (FoundInTime process event) := by
  unfold FoundInTime
  split <;> infer_instance

/-- A sender behind its wait has found the flag set or has passed its
deadline. -/
structure Decided (process : Process) : Prop where
  copying : ∀ number, (process.senders number).pc = .copy →
    process.isPacketReceived = true ∨ (process.senders number).ts ≤ process.now
  decided : ∀ number, (process.senders number).pc = .clear ∨
      (process.senders number).pc = .unlock ∨
      (process.senders number).pc = .branch →
    (process.senders number).isPacketReceivedCopy = true ∨
      (process.senders number).ts ≤ process.now
  late : RetriesLate process

/-- The sender is not between its wait and its branch. -/
def Sender.Undecided (sender : Sender) : Prop :=
  sender.pc ≠ .copy ∧ sender.pc ≠ .clear ∧ sender.pc ≠ .unlock ∧
    sender.pc ≠ .branch

section Decided

variable {process next : Process} {number : Nat}

/-- A new report leaves the retries late if it is no retry in time. -/
theorem RetriesLate.concat (late : RetriesLate process) {entry : Entry}
    (log : next.log = process.log ++ [entry])
    (new : ∀ sender deadline time, entry = .retry sender deadline time →
      deadline ≤ time) :
    RetriesLate next := by
  intro sender deadline time present
  rw [log] at present
  rcases List.mem_append.mp present with before | isNew
  · exact late sender deadline time before
  · exact new sender deadline time (List.mem_singleton.mp isNew).symm

/-- Time passes, the flag may be set, and senders go on outside of the part
between their wait and their branch. -/
theorem Decided.keeps (decided : Decided process) (now : process.now ≤ next.now)
    (flag : process.isPacketReceived = true → next.isPacketReceived = true)
    (senders : ∀ number, next.senders number = process.senders number ∨
      (next.senders number).Undecided) (late :
        RetriesLate next) : Decided next := by
  refine ⟨?_, ?_, late⟩
  · intro number pc
    rcases senders number with same | ⟨notCopy, _⟩
    · rw [same] at pc ⊢
      exact (decided.copying number pc).imp flag fun passed =>
        Nat.le_trans passed now
    · exact absurd pc notCopy
  · intro number pc
    rcases senders number with same | ⟨_, notClear, notUnlock, notBranch⟩
    · rw [same] at pc ⊢
      exact (decided.decided number pc).imp id fun passed =>
        Nat.le_trans passed now
    · rcases pc with clear | unlock | branch
      · exact absurd clear notClear
      · exact absurd unlock notUnlock
      · exact absurd branch notBranch

/-- A sender goes on in the part between its wait and its branch. -/
theorem Decided.goesOn (decided : Decided process) {sender : Sender}
    (senders : next.senders = Function.update process.senders number sender)
    (now : next.now = process.now)
    (flag : ∀ other ≠ number, (process.senders other).pc = .copy →
      next.isPacketReceived = process.isPacketReceived)
    (copying : sender.pc = .copy →
      next.isPacketReceived = true ∨ sender.ts ≤ process.now)
    (isDecided : sender.pc = .clear ∨ sender.pc = .unlock ∨
      sender.pc = .branch →
      sender.isPacketReceivedCopy = true ∨ sender.ts ≤ process.now)
    (late : RetriesLate next) : Decided next := by
  refine ⟨?_, ?_, late⟩
  · intro other
    rw [senders, Function.update_apply, now]
    split
    · exact copying
    case isFalse different =>
      intro pc
      rw [flag other different pc]
      exact decided.copying other pc
  · intro other
    rw [senders, Function.update_apply, now]
    split
    · exact isDecided
    · exact decided.decided other

end Decided

/-- A step keeps what a sender has decided, if the flag was found in time. -/
theorem Decided.step {process next : Process} {event : Event}
    (exclusive : Exclusive process)
    (decided : Decided process) (found : FoundInTime process event)
    (stepped : step process event = some next) : Decided next := by
  cases transition_of_step stepped with
  | tick =>
      exact decided.keeps (Nat.le_add_right _ _) id
        (fun _ => .inl rfl) decided.late
  | receiverLocks | receiverUnlocks =>
      exact decided.keeps (Nat.le_refl _) id (fun _ => .inl rfl) decided.late
  | receiverSets pc =>
      refine decided.keeps (Nat.le_refl _) (fun _ => rfl) (fun _ => .inl rfl) ?_
      exact decided.late.concat rfl (by simp)
  | receiverSignals | timesOut | wakes =>
      exact decided.keeps (Nat.le_refl _) id
        (senders_of_wake rfl fun _ pc =>
          by simp [Sender.Undecided, pc]) decided.late
  | reads | senderLocks | testsFalse | waits =>
      exact decided.keeps (Nat.le_refl _) id
        (senders_of_update rfl (by simp [Sender.Undecided])) decided.late
  | testsTrue pc isTrue =>
      exact decided.goesOn rfl rfl (fun _ _ _ => rfl) (fun _ => .inl isTrue)
        (by simp) decided.late
  | @relocks number pc free =>
      refine decided.goesOn rfl rfl (fun _ _ _ => rfl) (fun _ => ?_)
        (by simp) decided.late
      exact (Nat.lt_or_ge process.now (process.senders number).ts).imp
        (found pc) id
  | @copies number pc =>
      exact decided.goesOn rfl rfl (fun _ _ _ => rfl) (by simp)
        (fun _ => decided.copying number pc) decided.late
  | @clears number pc =>
      refine decided.goesOn rfl rfl (fun other different copying => ?_)
        (by simp)
        (fun _ => decided.decided number (.inl pc)) decided.late
      -- no other sender is in its section
      have lock := exclusive.sender number (by simp [SenderPc.Inside, pc])
      rw [exclusive.sender other (by simp [SenderPc.Inside, copying])] at lock
      cases lock
      exact absurd rfl different
  | @senderUnlocks number pc =>
      refine decided.goesOn rfl rfl (fun _ _ _ => rfl) (by simp)
        (fun _ => decided.decided number (.inr (.inl pc))) ?_
      exact decided.late.concat rfl (by simp)
  | succeeds pc copy =>
      refine decided.keeps (Nat.le_refl _) id
        (senders_of_update rfl (by simp [Sender.Undecided])) ?_
      exact decided.late.concat rfl (by simp)
  | @retries number pc copy =>
      refine decided.keeps (Nat.le_refl _) id
        (senders_of_update rfl (by simp [Sender.Undecided])) ?_
      refine decided.late.concat rfl ?_
      rintro sender deadline time ⟨rfl⟩
      have passed := decided.decided number (.inr (.inr pc))
      simpa [copy] using passed

/-- A sender that acquires the lock early and finds the flag cleared may go on
at once to its retry. -/
theorem retries_early {process : Process} {number : Nat}
    (pc : (process.senders number).pc = .relock) (free : process.lock = none)
    (early : process.now < (process.senders number).ts)
    (cleared : process.isPacketReceived = false) :
    ∃ next, step.run process (List.replicate 5 (.sender number)) = some next ∧
      ¬RetriesLate next := by
  have retries :
      (step.run process (List.replicate 5 (.sender number))).map Process.log =
      some (process.log ++ [.finished number false] ++
        [.retry number (process.senders number).ts process.now]) := by
    simp [List.replicate, step, sender, acquire, setSender, record, pc, free,
      cleared]
  obtain ⟨next, ran, log⟩ := Option.map_eq_some_iff.mp retries
  refine ⟨next, ran, ?_⟩
  intro late
  have passed :=
    late number (process.senders number).ts process.now (by simp [log])
  omega

/-- In a run in which every sender that acquires the lock after its wait and
before its deadline finds the flag set, nobody retries before the deadline.
Any other run has a beginning that may go on to such a retry. -/
theorem retriesLate_of_foundInTime {events : List Event} {final : Process}
    (ran : step.run start events = some final) :
    (step.EveryStep FoundInTime start events →
      step.Always RetriesLate start events) ∧
      (¬step.EveryStep FoundInTime start events → ∃ past number next,
        past <+: events ∧
        step.run start (past ++ List.replicate 5 (.sender number)) = some next ∧
          ¬RetriesLate next) := by
  constructor
  · intro every
    refine (Machine.always_of_everyStep (fun process => Exclusive process ∧
      Decided process)
      ?_ ?_ every).mono fun _ holds => holds.2.late
    · rintro process event next ⟨exclusive, decided⟩ found stepped
      exact ⟨exclusive.step stepped, decided.step exclusive found stepped⟩
    · refine ⟨⟨?_, ?_⟩, ⟨?_, ?_, ?_⟩⟩ <;> intro n <;>
        simp [Process.start, ReceiverPc.Inside, SenderPc.Inside]
  · intro missed
    by_contra never
    refine missed (Machine.everyStep_of_run ran ?_)
    intro past event rest middle next split ranPast stepped _
    by_contra notFound
    cases event with
    | sender number =>
        simp only [FoundInTime, Classical.not_imp, Bool.not_eq_true] at notFound
        obtain ⟨pc, early, cleared⟩ := notFound
        have free : middle.lock = none := by
          simp only [step, sender, pc] at stepped
          exact (Option.ite_none_right_eq_some.mp stepped).1
        obtain ⟨after, ranOn, notLate⟩ := retries_early pc free early cleared
        refine never ⟨past, number, after, ⟨_, split⟩, ?_, notLate⟩
        rw [Machine.run_append, ranPast]
        exact ranOn
    | tick | receiver | timeout | spurious => exact notFound trivial

/-- The second sender retries after its deadline. -/
theorem retriesLate_of_foundInTime_twoSenders :
    step.Always RetriesLate start twoSenders := by
  have reached : (step.run start twoSenders).isSome = true := by decide
  obtain ⟨final, ran⟩ := Option.isSome_iff_exists.mp reached
  exact (retriesLate_of_foundInTime ran).1 (by decide)

/-- A sender whose wait ends spuriously at once. -/
def spuriousWake : List Event :=
  [.sender 0, .sender 0, .sender 0, .sender 0, .spurious 0, .sender 0,
    .sender 0, .sender 0, .sender 0, .sender 0]

/-- It retries although its deadline is 5000 milliseconds ahead. -/
theorem not_retriesLate_spuriousWake :
    ∃ process, step.run start spuriousWake = some process ∧
      .retry 0 5000 0 ∈ process.log ∧ ¬RetriesLate process := by
  have reached : (step.run start spuriousWake).map Process.log =
      some [.finished 0 false, .retry 0 5000 0] := by decide
  obtain ⟨process, ran, log⟩ := Option.map_eq_some_iff.mp reached
  have retried : .retry 0 5000 0 ∈ process.log := by simp [log]
  refine ⟨process, ran, retried, ?_⟩
  intro late
  exact absurd (late 0 5000 0 retried) (by decide)

end ConditionVariable
end LinuxCPractice
