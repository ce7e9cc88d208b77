import LinuxCPractice.ConditionVariable.Transition
import Mathlib.Data.List.Perm.Subperm

/-!
# Successes and receiver sections

The flag is a slot that a receiver fills when it sets the flag and a sender
empties when it leaves its section with what it has copied. What is known of a
slot holds of the flag: a sender succeeds only by a section of its own.
-/

namespace LinuxCPractice
namespace ConditionVariable

open Process

@[simp] theorem uses_concat (log : List Entry) (entry : Entry) :
    uses (log ++ [entry]) = uses log ++ entry.use.toList := by
  cases use : entry.use <;> simp [uses, use]

@[simp] theorem successes_concat (log : List Entry) (entry : Entry) :
    successes (log ++ [entry]) = successes log ++ entry.success?.toList := by
  cases succeeds : entry.success? <;> simp [successes, succeeds]

/-- What the slot holds. A sender that has cleared the flag but not yet left its
section is still about to take what it has copied. -/
def Process.full (process : Process) : Bool :=
  match process.lock with
  | some (.sender number) =>
      if (process.senders number).pc = .unlock then
        (process.senders number).isPacketReceivedCopy
      else process.isPacketReceived
  | _ => process.isPacketReceived

/-- The copy is the flag until the flag is cleared. -/
structure Copied (process : Process) : Prop where
  copied : ∀ number, (process.senders number).pc = .clear →
    (process.senders number).isPacketReceivedCopy = process.isPacketReceived
  cleared : ∀ number, (process.senders number).pc = .unlock →
    process.isPacketReceived = false

/-- The sender is not where its copy is compared with the flag. -/
def Sender.Elsewhere (sender : Sender) : Prop :=
  sender.pc ≠ .clear ∧ sender.pc ≠ .unlock

section Copied

variable {process next : Process} {thread : Thread}

/-- Only a thread in its section goes on. -/
theorem Copied.alone (exclusive : Exclusive process)
    (inside : process.InSection thread)
    (others : ∀ number, .sender number ≠ thread →
      next.senders number = process.senders number)
    (own : ∀ number, .sender number = thread →
      ((next.senders number).pc = .clear →
        (next.senders number).isPacketReceivedCopy = next.isPacketReceived) ∧
      ((next.senders number).pc = .unlock →
        next.isPacketReceived = false)) : Copied next := by
  have isOwn {number : Nat} (isInside : (next.senders number).pc.Inside) :
      .sender number = thread := by
    by_contra different
    rw [others number different] at isInside
    have lock := exclusive.sender number isInside
    rw [exclusive.lock_eq inside] at lock
    exact different (Option.some.inj lock).symm
  constructor
  · intro number pc
    exact (own number (isOwn (by simp [SenderPc.Inside, pc]))).1 pc
  · intro number pc
    exact (own number (isOwn (by simp [SenderPc.Inside, pc]))).2 pc

/-- The flag stays, and no sender comes to where its copy counts. -/
theorem Copied.keeps (copied : Copied process)
    (flag : next.isPacketReceived = process.isPacketReceived)
    (senders : ∀ number, next.senders number = process.senders number ∨
      (next.senders number).Elsewhere) : Copied next := by
  constructor
  · intro number pc
    rcases senders number with same | ⟨notClear, _⟩
    · rw [same] at pc ⊢
      rw [flag]
      exact copied.copied number pc
    · exact absurd pc notClear
  · intro number pc
    rcases senders number with same | ⟨_, notUnlock⟩
    · rw [same] at pc
      rw [flag]
      exact copied.cleared number pc
    · exact absurd pc notUnlock

end Copied

/-- A sender's copy of the flag is kept until it reports. -/
theorem Copied.step {process next : Process} {event : Event}
    (exclusive : Exclusive process)
    (copied : Copied process) (stepped : step process event = some next) :
    Copied next := by
  cases transition_of_step stepped with
  | tick | receiverLocks | receiverUnlocks =>
      exact copied.keeps rfl fun _ => .inl rfl
  | @receiverSets number _ pc =>
      have inside : process.InSection (.receiver number) := .inl pc
      exact .alone exclusive inside (fun _ _ => rfl) fun _ same => by cases same
  | receiverSignals | timesOut | wakes =>
      exact copied.keeps rfl (senders_of_wake rfl fun _ pc =>
        by simp [Sender.Elsewhere, pc])
  | reads | senderLocks | testsTrue | testsFalse | waits | relocks
  | senderUnlocks | succeeds
  | retries =>
      exact copied.keeps rfl
        (senders_of_update rfl (by simp [Sender.Elsewhere]))
  | @copies number pc =>
      have inside : process.InSection (.sender number) := .inr (.inr (.inl pc))
      refine .alone exclusive inside (fun other different => ?_) ?_
      · exact Function.update_of_ne
          (fun same => different (congrArg _ same)) _ _
      · rintro _ ⟨rfl⟩
        simp [setSender]
  | @clears number pc =>
      have inside : process.InSection (.sender number) :=
        .inr (.inr (.inr (.inl pc)))
      refine .alone exclusive inside (fun other different => ?_) ?_
      · exact Function.update_of_ne
          (fun same => different (congrArg _ same)) _ _
      · rintro _ ⟨rfl⟩
        simp [setSender]

theorem full_congr {process next : Process} (lock : next.lock = process.lock)
    (flag : next.isPacketReceived = process.isPacketReceived)
    (senders : ∀ number, (process.senders number).pc = .unlock ∨
      (next.senders number).pc = .unlock →
      next.senders number = process.senders number) :
    next.full = process.full := by
  unfold full
  rw [lock, flag]
  split
  · rename_i number _
    have same := senders number
    grind
  · rfl

/-- A step of a thread is a step of the slot or leaves it alone. -/
theorem slot_step {process next : Process} {event : Event}
    (exclusive : Exclusive process)
    (copied : Copied process) (stepped : step process event = some next) :
    (uses next.log = uses process.log ∧ next.full = process.full) ∨
      ∃ use, uses next.log = uses process.log ++ [use] ∧
        Slot.step process.full use = some next.full := by
  cases transition_of_step stepped with
  | @receiverSets number woken pc =>
      have lock := exclusive.receiver number (.inl pc)
      refine .inr ⟨.put number, by simp [record, setReceiver, Entry.use], ?_⟩
      simp [Slot.step, full, record, setReceiver, lock]
  | @senderUnlocks number pc =>
      have lock := exclusive.sender number (by simp [SenderPc.Inside, pc])
      have cleared := copied.cleared number pc
      refine .inr ⟨.take number process.full, ?_, ?_⟩
      · simp [record, setSender, Entry.use, full, lock, pc]
      · simp [Slot.step, full, record, setSender, cleared]
  | @clears number pc =>
      have lock := exclusive.sender number (by simp [SenderPc.Inside, pc])
      refine .inl ⟨rfl, ?_⟩
      simpa [full, setSender, lock, pc] using copied.copied number pc
  | @receiverSignals number woken pc =>
      have lock := exclusive.receiver number (.inr (.inl pc))
      exact .inl ⟨rfl, by simp [full, wake, setReceiver, lock]⟩
  | @receiverUnlocks number woken pc =>
      have lock := exclusive.receiver number (.inr (.inr pc))
      exact .inl ⟨rfl, by simp [full, setReceiver, lock]⟩
  | receiverLocks pc free => exact .inl ⟨rfl, by simp [full, setReceiver, free]⟩
  | senderLocks pc free => exact .inl ⟨rfl, by simp [full, setSender, free]⟩
  | relocks pc free => exact .inl ⟨rfl, by simp [full, setSender, free]⟩
  | @testsTrue number pc | @testsFalse number pc | @waits number pc
  | @copies number pc =>
      have lock := exclusive.sender number (by simp [SenderPc.Inside, pc])
      exact .inl ⟨rfl, by simp [full, setSender, lock, pc]⟩
  | tick => exact .inl ⟨rfl, rfl⟩
  | @reads number pc =>
      refine .inl ⟨rfl, full_congr rfl rfl fun n atUnlock => ?_⟩
      simp only [setSender, Function.update_apply] at atUnlock ⊢
      grind
  | @succeeds number pc | @retries number pc =>
      refine .inl ⟨by simp [record, setSender, Entry.use],
        full_congr rfl rfl ?_⟩
      intro n atUnlock
      simp only [record, setSender, Function.update_apply] at atUnlock ⊢
      grind
  | @timesOut number pc | @wakes number pc =>
      refine .inl ⟨rfl, full_congr rfl rfl fun n atUnlock => ?_⟩
      simp only [wake] at atUnlock ⊢
      grind

/-- A run of the threads is a run of the slot. -/
theorem slot_run {process : Process} {events : List Event}
    (ran : step.run start events = some process) :
    Exclusive process ∧ Copied process ∧
      Slot.step.run false (uses process.log) = some process.full := by
  refine Machine.run_invariant (fun process => Exclusive process ∧
    Copied process ∧
      Slot.step.run false (uses process.log) = some process.full) ?_ ?_ ran
  · rintro before event after ⟨exclusive, copied, slot⟩ stepped
    refine ⟨exclusive.step stepped, copied.step exclusive stepped, ?_⟩
    rcases slot_step exclusive copied stepped with ⟨sameUses, sameFull⟩
      | ⟨use, used, slotStepped⟩
    · rw [sameUses, sameFull, slot]
    · rw [used]
      exact Machine.run_concat_eq_some_iff.mpr ⟨_, slot, slotStepped⟩
  · refine ⟨⟨?_, ?_⟩, ⟨?_, ?_⟩, rfl⟩ <;> intro n <;>
      simp [Process.start, ReceiverPc.Inside, SenderPc.Inside]

/-! ## Every thread runs once -/

/-- The sections are those of the receivers that have reported. -/
theorem mem_sections_iff {log : List Entry} {number : Nat} :
    number ∈ sections log ↔ .received number ∈ log := by
  simp only [sections, Slot.givers, uses, List.mem_filterMap]
  constructor
  · rintro ⟨use, ⟨entry, present, read⟩, given⟩
    cases entry with
    | received receiver =>
        cases read
        cases given
        exact present
    | finished sender copy =>
        cases read
        cases given
    | success | retry => cases read
  · intro present
    exact ⟨_, ⟨_, present, rfl⟩, rfl⟩

/-- The winners are the senders that have found the flag set. -/
theorem mem_winners_iff {log : List Entry} {number : Nat} :
    number ∈ Slot.winners (uses log) ↔ .finished number true ∈ log := by
  simp only [Slot.winners, uses, List.mem_filterMap]
  constructor
  · rintro ⟨use, ⟨entry, present, read⟩, won⟩
    cases entry with
    | finished sender copy =>
        cases read
        cases copy <;> cases won
        exact present
    | received receiver =>
        cases read
        cases won
    | success | retry => cases read
  · intro present
    exact ⟨_, ⟨_, present, rfl⟩, rfl⟩

/-- The successes are those reported. -/
theorem mem_successes_iff {log : List Entry} {number : Nat} :
    number ∈ successes log ↔ .success number ∈ log := by
  simp only [successes, List.mem_filterMap]
  constructor
  · rintro ⟨entry, present, read⟩
    cases entry <;> cases read
    exact present
  · intro present
    exact ⟨_, present, rfl⟩

/-- What the log says about a thread is behind it. -/
structure Behind (process : Process) : Prop where
  received : ∀ number, .received number ∈ process.log →
    process.receivers number ≠ .lock ∧ process.receivers number ≠ .set
  finished : ∀ number copy, .finished number copy ∈ process.log →
    (process.senders number).pc = .branch ∨ (process.senders number).pc = .done
  copied : ∀ number copy, .finished number copy ∈ process.log →
    copy = (process.senders number).isPacketReceivedCopy
  branching : ∀ number, (process.senders number).pc = .branch →
    .finished number (process.senders number).isPacketReceivedCopy ∈ process.log
  succeeded : ∀ number, .success number ∈ process.log →
    (process.senders number).pc = .done
  done : ∀ number, (process.senders number).pc = .done →
    (process.senders number).isPacketReceivedCopy = true →
    .success number ∈ process.log
  retried : ∀ number deadline time, .retry number deadline time ∈ process.log →
    (process.senders number).pc = .done ∧
      (process.senders number).isPacketReceivedCopy = false

/-- A step that records nothing, of a thread that stays in front of what it will
record. -/
theorem Behind.keeps {process next : Process} (behind : Behind process)
    (log : next.log = process.log)
    (receivers : ∀ number, next.receivers number = process.receivers number ∨
      process.receivers number = .lock ∨ next.receivers number = .unlock ∨
      next.receivers number = .done)
    (senders : ∀ number, next.senders number = process.senders number ∨
      ((process.senders number).pc ≠ .branch ∧
        (process.senders number).pc ≠ .done ∧
        (next.senders number).pc ≠ .branch ∧
        (next.senders number).pc ≠ .done)) :
    Behind next := by
  obtain ⟨received, finished, copied, branching, succeeded, done, retried⟩ :=
    behind
  constructor <;> rw [log] <;> intro number
  case received =>
    have past := received number
    have moved := receivers number
    grind
  all_goals
    have moved := senders number
    grind

section Records

variable {process : Process} {number : Nat}

/-- A receiver that sets the flag. -/
theorem Behind.receives (behind : Behind process)
    (pc : process.receivers number = .set) :
    Behind ((process.setReceiver number .signal).record
      (.received number)) := by
  obtain ⟨received, finished, copied, branching, succeeded, done, retried⟩ :=
    behind
  have unreceived : .received number ∉ process.log := fun present =>
    (received number present).2 pc
  constructor <;> intro n <;> simp only [setReceiver, record, List.mem_append,
    List.mem_singleton, Function.update_apply] <;> grind

/-- A sender that has copied the flag. -/
theorem Behind.finishes (behind : Behind process)
    (pc : (process.senders number).pc = .unlock) :
    Behind ((process.setSender number { process.senders number with
        pc := .branch }).record
      (.finished number (process.senders number).isPacketReceivedCopy)) := by
  obtain ⟨received, finished, copied, branching, succeeded, done, retried⟩ :=
    behind
  have unfinished (copy : Bool) :
      .finished number copy ∉ process.log := fun present => by
    simpa [pc] using finished number copy present
  constructor <;> intro n <;> simp only [setSender, record, List.mem_append,
    List.mem_singleton, Function.update_apply] <;> grind

/-- A sender that reports what its copy says. -/
theorem Behind.decides {entry : Entry} (behind : Behind process)
    (pc : (process.senders number).pc = .branch)
    (decides : (process.senders number).isPacketReceivedCopy = true ∧
      entry = .success number ∨
      (process.senders number).isPacketReceivedCopy = false ∧
        ∃ deadline time, entry = .retry number deadline time) :
    Behind ((process.setSender number { process.senders number with
        pc := .done }).record
      entry) := by
  obtain ⟨received, finished, copied, branching, succeeded, done, retried⟩ :=
    behind
  have finishedNow := branching number pc
  obtain ⟨copy, rfl⟩ | ⟨copy, deadline, time, rfl⟩ := decides <;>
    constructor <;> intro n <;>
    simp only [setSender, record, List.mem_append, List.mem_singleton,
      Function.update_apply] <;> grind

end Records

/-- The reports stay behind the threads that have made them. -/
theorem Behind.step {process next : Process} {event : Event}
    (behind : Behind process)
    (stepped : step process event = some next) : Behind next := by
  cases transition_of_step stepped with
  | tick => exact behind.keeps rfl (fun _ => .inl rfl) fun _ => .inl rfl
  | receiverLocks pc | receiverSignals pc | receiverUnlocks pc =>
      refine behind.keeps rfl (fun n => ?_) fun n => ?_ <;>
        simp only [setReceiver, wake, Function.update_apply] <;> grind
  | reads pc | senderLocks pc | testsTrue pc | testsFalse pc | waits pc
  | relocks pc
  | copies pc | clears pc =>
      refine behind.keeps rfl (fun _ => .inl rfl) fun n => ?_
      simp only [setSender, Function.update_apply]
      grind
  | timesOut pc | wakes pc =>
      refine behind.keeps rfl (fun _ => .inl rfl) fun n => ?_
      simp only [wake]
      grind
  | receiverSets pc =>
      exact (behind.receives pc).keeps rfl (fun _ => .inl rfl) fun _ => .inl rfl
  | senderUnlocks pc =>
      exact (behind.finishes pc).keeps rfl (fun _ => .inl rfl) fun _ => .inl rfl
  | succeeds pc copy => exact behind.decides pc (.inl ⟨copy, rfl⟩)
  | retries pc copy => exact behind.decides pc (.inr ⟨copy, _, _, rfl⟩)

/-- No thread is in the log twice, and a success comes after the section that
has found the flag set. -/
structure Once (log : List Entry) : Prop where
  nodupSections : (sections log).Nodup
  nodupWinners : (Slot.winners (uses log)).Nodup
  nodupSuccesses : (successes log).Nodup
  earlier : History.Justified
    (fun past entry => ∀ number ∈ entry.success?,
      .finished number true ∈ past) log

namespace Once

variable {log : List Entry}

theorem nodup_concat {names : List Nat} (nodup : names.Nodup) {name : Nat}
    (new : name ∉ names) :
    (names ++ [name]).Nodup :=
  List.nodup_append'.mpr ⟨nodup, List.nodup_singleton name, by simpa using new⟩

/-- A receiver reports for the first time. -/
theorem received (once : Once log) {number : Nat}
    (new : .received number ∉ log) :
    Once (log ++ [.received number]) where
  nodupSections := by
    have appended : sections (log ++ [.received number]) =
        sections log ++ [number] := by
      simp [sections, Entry.use]
    rw [appended]
    exact nodup_concat once.nodupSections fun present =>
      new (mem_sections_iff.mp present)
  nodupWinners := by simpa [Entry.use] using once.nodupWinners
  nodupSuccesses := by simpa [Entry.success?] using once.nodupSuccesses
  earlier := once.earlier.concat (by simp [Entry.success?])

/-- A sender finishes for the first time. -/
theorem finished (once : Once log) {number : Nat} (new : .finished number true ∉ log)
    (copy : Bool) : Once (log ++ [.finished number copy]) where
  nodupSections := by simpa [sections, Entry.use] using once.nodupSections
  nodupWinners := by
    have appended : Slot.winners (uses (log ++ [.finished number copy])) =
        Slot.winners (uses log) ++ if copy then [number] else [] := by
      simp [Entry.use]
    rw [appended]
    cases copy with
    | false => simpa using once.nodupWinners
    | true => exact nodup_concat once.nodupWinners fun won => new (mem_winners_iff.mp won)
  nodupSuccesses := by simpa [Entry.success?] using once.nodupSuccesses
  earlier := once.earlier.concat (by simp [Entry.success?])

/-- A winner reports its success for the first time. -/
theorem success (once : Once log) {number : Nat} (new : .success number ∉ log)
    (won : .finished number true ∈ log) : Once (log ++ [.success number]) where
  nodupSections := by simpa [sections, Entry.use] using once.nodupSections
  nodupWinners := by simpa [Entry.use] using once.nodupWinners
  nodupSuccesses := by
    have appended : successes (log ++ [.success number]) =
        successes log ++ [number] := by
      simp [Entry.success?]
    rw [appended]
    exact nodup_concat once.nodupSuccesses fun present =>
      new (mem_successes_iff.mp present)
  earlier := once.earlier.concat (by simpa [Entry.success?] using won)

/-- A retry is reported as often as there are tries. -/
theorem retry (once : Once log) (number deadline time : Nat) :
    Once (log ++ [.retry number deadline time]) where
  nodupSections := by simpa [sections, Entry.use] using once.nodupSections
  nodupWinners := by simpa [Entry.use] using once.nodupWinners
  nodupSuccesses := by simpa [Entry.success?] using once.nodupSuccesses
  earlier := once.earlier.concat (by simp [Entry.success?])

end Once

/-- Every thread reports what it reports only once. -/
theorem Once.step {process next : Process} {event : Event}
    (behind : Behind process)
    (once : Once process.log) (stepped : step process event = some next) :
    Once next.log := by
  cases transition_of_step stepped with
  | @receiverSets number woken pc =>
      exact once.received fun present => (behind.received number present).2 pc
  | @senderUnlocks number pc =>
      refine once.finished (fun present => ?_) _
      rcases behind.finished number true present with branch | done
      · simp [pc] at branch
      · simp [pc] at done
  | @succeeds number pc copy =>
      refine once.success (fun present => ?_)
        (copy ▸ behind.branching number pc)
      simp [behind.succeeded number present] at pc
  | @retries number pc copy => exact once.retry _ _ _
  | _ => exact once

/-- In every run the reports are behind the threads and made once. -/
theorem once_run {process : Process} {events : List Event}
    (ran : step.run start events = some process) :
    Behind process ∧ Once process.log := by
  refine Machine.run_invariant (fun process => Behind process ∧
    Once process.log) ?_ ?_ ran
  · rintro before event after ⟨behind, once⟩ stepped
    exact ⟨behind.step stepped, once.step behind stepped⟩
  · refine ⟨⟨?_, ?_, ?_, ?_, ?_, ?_, ?_⟩,
      ⟨List.nodup_nil, List.nodup_nil, List.nodup_nil, ?_⟩⟩
    all_goals simp [Process.start]

/-! ## Successes -/

theorem uses_append (first second : List Entry) :
    uses (first ++ second) = uses first ++ uses second :=
  List.filterMap_append

/-- Only winners report a success. -/
theorem Once.successes_subset {log : List Entry} (once : Once log) :
    successes log ⊆ Slot.winners (uses log) := by
  intro sender present
  obtain ⟨past, rest, rfl⟩ := List.append_of_mem (mem_successes_iff.mp present)
  have finished := once.earlier past _ rest rfl sender rfl
  exact mem_winners_iff.mpr (List.mem_append_left _ finished)

/-- Every success has found what an earlier receiver section has left, and no
two successes the same. -/
theorem exists_supplier {process : Process} {events : List Event}
    (ran : step.run start events = some process) :
    ∃ supplier : Nat → Nat,
      History.Justified (fun past entry => ∀ sender ∈ entry.success?,
        .received (supplier sender) ∈ past) process.log ∧
      ∀ first ∈ successes process.log, ∀ second ∈ successes process.log,
        supplier first = supplier second → first = second := by
  obtain ⟨_, _, slot⟩ := slot_run ran
  obtain ⟨_, once⟩ := once_run ran
  obtain ⟨supplier, matching, _⟩ :=
    Slot.exists_matching slot once.nodupSections once.nodupWinners
  have supplied := History.justified_filterMap_iff.mp matching.earlier
  refine ⟨supplier, ?_, ?_⟩
  · intro past entry rest split sender succeeds
    obtain ⟨first, between, rfl⟩ :=
      List.append_of_mem (once.earlier past entry rest split sender succeeds)
    rw [List.append_assoc, List.cons_append] at split
    have came := supplied first _ _ split _ rfl sender rfl
    exact List.mem_append_left _ (mem_sections_iff.mp came)
  · intro first firstPresent second secondPresent
    exact matching.distinct first (once.successes_subset firstPresent) second
      (once.successes_subset secondPresent)

/-- The successes, and one more if the flag is set, are no more than the
receiver sections. -/
theorem length_successes_add_le {process : Process} {events : List Event}
    (ran : step.run start events = some process) :
    (successes process.log).length + process.isPacketReceived.toNat ≤
      (sections process.log).length := by
  obtain ⟨_, copied, slot⟩ := slot_run ran
  obtain ⟨_, once⟩ := once_run ran
  have bound : _ ≤ (sections process.log).length :=
    Slot.length_winners_add_le slot
  have fewer : (successes process.log).length ≤
      (Slot.winners (uses process.log)).length :=
    (once.nodupSuccesses.subperm once.successes_subset).length_le
  have flag : process.isPacketReceived.toNat ≤ process.full.toNat := by
    unfold full
    split
    · rename_i number _
      split
      · simp [copied.cleared number ‹_›]
      · exact Nat.le_refl _
    · exact Nat.le_refl _
  omega

/-- The first sender to leave its section after a receiver has set the flag has
found it set. -/
theorem next_finished_copy {process : Process} {events : List Event}
    (ran : step.run start events = some process)
    {past between rest : List Entry}
    {receiver sender : Nat} {copy : Bool}
    (split : process.log =
      past ++ .received receiver :: between ++ .finished sender copy :: rest)
    (next : ∀ other copy, .finished other copy ∉ between) : copy = true := by
  obtain ⟨_, _, slot⟩ := slot_run ran
  have used : uses process.log = (uses past ++ .put receiver :: uses between ++
      [.take sender copy]) ++ uses rest := by
    rw [split, uses_append, uses_append]
    simp [uses, Entry.use]
  rw [used, Machine.run_append] at slot
  obtain ⟨full, ranPart, _⟩ := Option.bind_eq_some_iff.mp slot
  refine Slot.next_take_found ranPart fun other found taken => ?_
  obtain ⟨entry, present, use⟩ := List.mem_filterMap.mp taken
  cases entry with
  | finished taker copied => exact next taker copied present
  | received | success | retry => cases use

/-- The successes and the set flag are covered by receiver sections, each
success by an earlier one of its own; and the first sender to leave its section
after a receiver has set the flag takes the success branch. -/
theorem successes_covered {process : Process} {events : List Event}
    (ran : step.run start events = some process) :
    (successes process.log).length + process.isPacketReceived.toNat ≤
        (sections process.log).length ∧
      (∃ supplier : Nat → Nat,
        History.Justified (fun past entry => ∀ sender ∈ entry.success?,
          .received (supplier sender) ∈ past) process.log ∧
        ∀ first ∈ successes process.log, ∀ second ∈ successes process.log,
          supplier first = supplier second → first = second) ∧
      ∀ past between rest receiver sender copy,
        process.log =
          past ++ .received receiver :: between ++ .finished sender copy ::
            rest →
        (∀ other copy, .finished other copy ∉ between) →
        (∀ deadline time, .retry sender deadline time ∉ process.log) ∧
          ((process.senders sender).pc = .done →
            sender ∈ successes process.log) := by
  refine ⟨length_successes_add_le ran, exists_supplier ran, ?_⟩
  intro past between rest receiver sender copy split next
  obtain ⟨behind, _⟩ := once_run ran
  have isCopy := behind.copied sender copy (by simp [split])
  rw [next_finished_copy ran split next] at isCopy
  constructor
  · intro deadline time retried
    rw [(behind.retried sender deadline time retried).2] at isCopy
    cases isCopy
  · intro done
    exact mem_successes_iff.mpr (behind.done sender done isCopy.symm)

/-- Two senders that wait for one receiver. The first one is woken by its
signal, the second one at its deadline. -/
def twoSenders : List Event :=
  [.sender 0, .sender 0, .sender 0, .sender 0, .sender 1, .sender 1, .sender 1,
    .sender 1,
    .receiver 0 [], .receiver 0 [], .receiver 0 [0], .receiver 0 [], .tick 5000,
    .timeout 1,
    .sender 0, .sender 0, .sender 0, .sender 0, .sender 0, .sender 1, .sender 1,
    .sender 1, .sender 1, .sender 1]

/-- One section and one success of two senders. -/
theorem successes_covered_twoSenders :
    ∃ process, step.run start twoSenders = some process ∧
      process.log = [.received 0, .finished 0 true, .success 0,
        .finished 1 false, .retry 1 5000 5000] ∧
      (successes process.log).length + process.isPacketReceived.toNat ≤
        (sections process.log).length := by
  have reached : (step.run start twoSenders).map Process.log =
      some [.received 0, .finished 0 true, .success 0, .finished 1 false,
        .retry 1 5000 5000] := by decide
  obtain ⟨process, ran, log⟩ := Option.map_eq_some_iff.mp reached
  exact ⟨process, ran, log, (successes_covered ran).1⟩

end ConditionVariable
end LinuxCPractice
