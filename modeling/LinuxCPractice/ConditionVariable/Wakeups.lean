import LinuxCPractice.ConditionVariable.Matching

/-!
# No wake-up is lost

While the flag is set, no sender is left in its wait without another thread on
its way: a receiver that is about to signal, or a sender that is about to empty
the flag. From there the threads alone, without time that passes and without a
wait that ends by itself, can bring a sender to its success branch.
-/

namespace LinuxCPractice
namespace ConditionVariable

open Process

/-! ## Who holds the lock -/

/-- Whoever has the lock is in its section. -/
def Held (process : Process) : Prop :=
  ∀ thread, process.lock = some thread → process.InSection thread

section

variable {process next : Process} {number : Nat} {thread : Thread}

/-- Nobody has a free lock. -/
theorem Held.of_free (free : next.lock = none) : Held next := by
  intro thread locked
  rw [free] at locked
  cases locked

/-- A thread acquires the lock and is in its section. -/
theorem Held.locks {goes : Prop} (process : Process)
    (lock : next.lock = some thread)
    (inside : ∀ other, next.InSection other ↔
      if other = thread then goes else process.InSection other)
    (enters : goes) : Held next := by
  intro other locked
  obtain rfl : thread = other := Option.some.inj (lock.symm.trans locked)
  exact (inside thread).mpr (by rwa [if_pos rfl])

/-- No thread leaves its section. -/
theorem Held.keeps (held : Held process) (lock : next.lock = process.lock)
    (inside : ∀ other, process.InSection other → next.InSection other) :
    Held next :=
  fun other locked => inside other (held other (lock ▸ locked))

/-- A thread goes on under the lock, or stays out of its section. -/
theorem Held.goesOn {goes : Prop} (held : Held process)
    (lock : next.lock = process.lock)
    (inside : ∀ other, next.InSection other ↔
      if other = thread then goes else process.InSection other)
    (stays : process.InSection thread → goes) : Held next := by
  refine held.keeps lock fun other isInside => (inside other).mpr ?_
  split
  case isTrue same => exact stays (same ▸ isInside)
  case isFalse => exact isInside

/-- A wakeup leaves the others in their sections. -/
theorem inSection_wake {woken : List Nat}
    (waiting : ∀ number ∈ woken, (process.senders number).pc = .waiting)
    (inside : process.InSection thread) :
    (process.wake woken).InSection thread := by
  cases thread with
  | receiver other => exact inside
  | sender other =>
      have notWoken : other ∉ woken := by
        intro present
        simp [InSection, SenderPc.Inside, waiting other present] at inside
      simpa [InSection, wake, notWoken] using inside

end

/-- Whoever has the lock is in its section. -/
theorem Held.step {process next : Process} {event : Event} (held : Held process)
    (stepped : step process event = some next) : Held next := by
  cases transition_of_step stepped with
  | tick => exact held.keeps rfl fun _ => id
  | receiverLocks pc =>
      refine .locks process rfl (fun _ => inSection_receiver rfl rfl) ?_
      simp [ReceiverPc.Inside]
  | receiverSets pc =>
      exact held.goesOn rfl (fun _ => inSection_receiver rfl rfl) fun _ => by
        simp [ReceiverPc.Inside]
  | @receiverSignals number woken pc waiting =>
      have waking : Held (process.wake woken) := held.keeps rfl fun _ =>
        inSection_wake waiting
      exact waking.goesOn rfl (fun _ => inSection_receiver rfl rfl) fun _ => by
        simp [ReceiverPc.Inside]
  | receiverUnlocks pc | waits pc | senderUnlocks pc => exact .of_free rfl
  | senderLocks pc | relocks pc =>
      refine .locks process rfl (fun _ => inSection_sender rfl rfl) ?_
      simp [SenderPc.Inside]
  | testsTrue pc | testsFalse pc | copies pc | clears pc =>
      exact held.goesOn rfl (fun _ => inSection_sender rfl rfl) fun _ => by
        simp [SenderPc.Inside]
  | reads pc | succeeds pc | retries pc =>
      refine held.goesOn rfl (fun _ => inSection_sender rfl rfl)
        fun inside => ?_
      simp [InSection, SenderPc.Inside, pc] at inside
  | timesOut pc | wakes pc =>
      refine held.keeps rfl fun _ => inSection_wake fun other present => ?_
      rw [List.mem_singleton.mp present]
      exact pc

/-! ## Who is on the way to the flag -/

/-- Behind its wait and going to empty the flag. -/
def SenderPc.Taking (pc : SenderPc) : Prop :=
  pc = .relock ∨ pc = .copy ∨ pc = .clear

/-- The flag is not set while a sender waits and nobody looks after it. -/
structure Watched (process : Process) : Prop where
  waiting : ∀ number, number ∈ process.waiting ↔
    (process.senders number).pc = .waiting
  testedFalse : ∀ number, (process.senders number).pc = .wait →
    process.isPacketReceived = false
  onTheWay : process.isPacketReceived = true → process.waiting ≠ [] →
    (∃ number, process.receivers number = .signal) ∨
      ∃ number, (process.senders number).pc.Taking

section

variable {process next : Process} {number : Nat}

/-- Nobody on the way stops, and the flag is not set. -/
theorem Watched.keeps (watched : Watched process)
    (flag : next.isPacketReceived = true → process.isPacketReceived = true)
    (waiting : next.waiting = process.waiting)
    (receivers : ∀ other, process.receivers other = .signal →
      next.receivers other = .signal)
    (senders : ∀ other, next.senders other = process.senders other ∨
      ((process.senders other).pc ≠ .waiting ∧
        (next.senders other).pc ≠ .waiting ∧
        ((next.senders other).pc = .wait → next.isPacketReceived = false) ∧
        ((process.senders other).pc.Taking → next.isPacketReceived = true →
          (next.senders other).pc.Taking))) : Watched next where
  waiting := by
    intro other
    rw [waiting, watched.waiting]
    have moved := senders other
    grind
  testedFalse := by
    intro other pc
    have before := watched.testedFalse other
    have moved := senders other
    grind
  onTheWay := by
    intro isTrue someWait
    rw [waiting] at someWait
    rcases watched.onTheWay (flag isTrue) someWait with ⟨other, signals⟩
      | ⟨other, taking⟩
    · exact .inl ⟨other, receivers other signals⟩
    · refine .inr ⟨other, ?_⟩
      rcases senders other with same | ⟨_, _, _, still⟩
      · rwa [same]
      · exact still taking isTrue

/-- A sender goes on outside its wait. -/
theorem Watched.sender {sender : Sender} (watched : Watched process)
    (flag : next.isPacketReceived = true → process.isPacketReceived = true)
    (waiting : next.waiting = process.waiting)
    (receivers : next.receivers = process.receivers)
    (senders : next.senders = Function.update process.senders number sender)
    (wasOutside : (process.senders number).pc ≠ .waiting)
    (outside : sender.pc ≠ .waiting)
    (tested : sender.pc = .wait → next.isPacketReceived = false)
    (taking : (process.senders number).pc.Taking →
      next.isPacketReceived = true →
      sender.pc.Taking) : Watched next := by
  refine watched.keeps flag waiting (fun other signals => receivers ▸ signals)
    fun other => ?_
  rw [senders, Function.update_apply]
  split
  case isTrue same => exact .inr (same ▸ ⟨wasOutside, outside, tested, taking⟩)
  case isFalse => exact .inl rfl

/-- A sender that is woken goes for the lock. -/
theorem taking_wake {woken : List Nat} (present : number ∈ woken) :
    ((process.wake woken).senders number).pc.Taking := by
  simp [wake, present, SenderPc.Taking]

/-- A wakeup adds no thread that waits. -/
theorem waiting_ne_nil_of_wake {woken : List Nat}
    (someWait : (process.wake woken).waiting ≠ []) :
    process.waiting ≠ [] := by
  intro none
  simp [wake, none] at someWait

/-- Some senders are woken. -/
theorem Watched.wake {woken : List Nat} (watched : Watched process)
    (someone : process.waiting ≠ [] → woken ≠ []) :
    Watched (process.wake woken) where
  waiting := by
    intro other
    have before := watched.waiting other
    simp only [Process.wake, List.mem_filter, decide_eq_true_eq]
    split <;> simp_all
  testedFalse := by
    intro other pc
    have before := watched.testedFalse other
    simp only [Process.wake] at pc ⊢
    split at pc
    · cases pc
    · exact before pc
  onTheWay := by
    intro _ someWait
    obtain ⟨other, present⟩ :=
      List.exists_mem_of_ne_nil woken
        (someone (waiting_ne_nil_of_wake someWait))
    exact .inr ⟨other, taking_wake present⟩

end

/-- A flag that is set is watched by somebody who wakes or takes it. -/
theorem Watched.step {process next : Process} {event : Event}
    (exclusive : Exclusive process)
    (watched : Watched process) (stepped : step process event = some next) :
    Watched next := by
  cases transition_of_step stepped with
  | tick => exact watched.keeps id rfl (fun _ => id) fun _ => .inl rfl
  | receiverLocks pc | receiverUnlocks pc =>
      refine watched.keeps id rfl (fun other signals => ?_) fun _ => .inl rfl
      simp only [setReceiver, Function.update_apply]
      grind
  | @receiverSets number woken pc =>
      refine ⟨watched.waiting, fun other atWait => ?_,
        fun _ _ => .inl ⟨number, ?_⟩⟩
      · have locked := exclusive.sender other (.inr (.inl atWait))
        rw [exclusive.receiver number (.inl pc)] at locked
        cases locked
      · simp [record, setReceiver]
  | @receiverSignals number woken pc waiting =>
      have someone : process.waiting ≠ [] → woken ≠ [] := by
        simp only [Process.step, receiver, pc, signal] at stepped
        grind
      have watchedWoken := watched.wake someone
      refine ⟨watchedWoken.waiting, watchedWoken.testedFalse,
        fun _ someWait => ?_⟩
      obtain ⟨other, present⟩ :=
        List.exists_mem_of_ne_nil woken
          (someone (waiting_ne_nil_of_wake someWait))
      exact .inr ⟨other, taking_wake present⟩
  | @waits number pc =>
      have isFalse := watched.testedFalse number pc
      refine ⟨fun other => ?_, fun other atWait => isFalse, fun isTrue => ?_⟩
      · have before := watched.waiting other
        simp only [setSender, List.mem_append, List.mem_singleton,
          Function.update_apply]
        grind
      · exact absurd (isFalse.symm.trans isTrue) Bool.false_ne_true
  | reads pc | senderLocks pc | testsTrue pc | relocks pc | copies pc
  | senderUnlocks pc
  | succeeds pc | retries pc =>
      refine watched.sender id rfl rfl rfl (by simp [pc]) (by simp) (by simp) ?_
      simp [SenderPc.Taking, pc]
  | testsFalse pc isFalse =>
      refine watched.sender id rfl rfl rfl (by simp [pc]) (by simp)
        (fun _ => isFalse) ?_
      simp [SenderPc.Taking, pc]
  | clears pc =>
      refine watched.sender (by simp) rfl rfl rfl (by simp [pc]) (by simp)
        (by simp) ?_
      simp
  | timesOut pc | wakes pc => exact watched.wake (by simp)

/-! ## From the flag to the success branch -/

/-- A step that a thread makes by itself. -/
@[simp] def Event.isThread : Event → Bool
  | .receiver _ _ | .sender _ => true
  | .tick _ | .timeout _ | .spurious _ => false

/-- The threads alone can bring one more sender to its success branch. -/
def Process.CanSucceed (process : Process) : Prop :=
  ∃ events later, Process.step.run process events = some later ∧
    (∀ event ∈ events, event.isThread = true) ∧
    (successes process.log).length < (successes later.log).length

section

variable {process next : Process} {number : Nat}

/-- If a step leads to where a success can follow, one can before it. -/
theorem canSucceed_of_step {event : Event}
    (stepped : Process.step process event = some next)
    (isThread : event.isThread = true)
    (log : successes next.log = successes process.log)
    (can : next.CanSucceed) : process.CanSucceed := by
  obtain ⟨events, later, ran, all, more⟩ := can
  refine ⟨event :: events, later, ?_, List.forall_mem_cons.mpr ⟨isThread, all⟩,
    log ▸ more⟩
  rw [Machine.run_cons, stepped, Option.bind_some, ran]

/-- A sender whose copy is set can succeed in front of its branch. -/
theorem canSucceed_branch (pc : (process.senders number).pc = .branch)
    (copy : (process.senders number).isPacketReceivedCopy = true) :
    process.CanSucceed := by
  have stepped : Process.step process (.sender number) = some
      ((process.setSender number { process.senders number with
          pc := .done }).record
        (.success number)) := by
    simp [Process.step, sender, pc, copy]
  refine ⟨[.sender number], _, by rw [Machine.run_cons, stepped]; rfl,
    by simp, ?_⟩
  simp [record, setSender, Entry.success?]

/-- A sender whose copy is set can succeed before it unlocks. -/
theorem canSucceed_unlock (pc : (process.senders number).pc = .unlock)
    (copy : (process.senders number).isPacketReceivedCopy = true) :
    process.CanSucceed := by
  have stepped : Process.step process (.sender number) = some
      { (process.setSender number { process.senders number with
          pc := .branch }).record
        (.finished number (process.senders number).isPacketReceivedCopy)
          with lock := none } := by
    simp [Process.step, sender, pc]
  refine canSucceed_of_step stepped rfl
    (by simp [record, setSender, Entry.success?])
    (@canSucceed_branch _ number ?_ ?_)
  · simp [record, setSender]
  · simpa [record, setSender] using copy

/-- A sender whose copy is set can succeed before it clears the flag. -/
theorem canSucceed_clear (pc : (process.senders number).pc = .clear)
    (copy : (process.senders number).isPacketReceivedCopy = true) :
    process.CanSucceed := by
  have stepped : Process.step process (.sender number) = some
      { process.setSender number { process.senders number with
          pc := .unlock } with
        isPacketReceived := false } := by
    simp [Process.step, sender, pc]
  refine canSucceed_of_step stepped rfl rfl (@canSucceed_unlock _ number ?_ ?_)
  · simp [setSender]
  · simpa [setSender] using copy

/-- While the flag is set a sender can succeed before it copies it. -/
theorem canSucceed_copy (pc : (process.senders number).pc = .copy)
    (isTrue : process.isPacketReceived = true) : process.CanSucceed := by
  have stepped : Process.step process (.sender number) =
      some (process.setSender number
        { process.senders number with
          pc := .clear, isPacketReceivedCopy := process.isPacketReceived }) := by
    simp [Process.step, sender, pc]
  refine canSucceed_of_step stepped rfl rfl (@canSucceed_clear _ number ?_ ?_)
  · simp [setSender]
  · simpa [setSender] using isTrue

/-- While the flag is set a sender can succeed before it tests it. -/
theorem canSucceed_test (pc : (process.senders number).pc = .test)
    (isTrue : process.isPacketReceived = true) : process.CanSucceed := by
  have stepped : Process.step process (.sender number) = some
      (process.setSender number { process.senders number with
          pc := .copy }) := by
    simp [Process.step, sender, pc, isTrue]
  exact canSucceed_of_step stepped rfl rfl
    (@canSucceed_copy _ number (by simp [setSender]) isTrue)

/-- While the flag is set a sender that can lock again can succeed. -/
theorem canSucceed_relock (pc : (process.senders number).pc = .relock)
    (free : process.lock = none) (isTrue : process.isPacketReceived = true) :
    process.CanSucceed := by
  have stepped : Process.step process (.sender number) = some
      { process.setSender number { process.senders number with
          pc := .copy } with
        lock := some (.sender number) } := by
    simp [Process.step, sender, pc, acquire, free, setSender]
  exact canSucceed_of_step stepped rfl rfl
    (@canSucceed_copy _ number (by simp [setSender]) isTrue)

/-- A woken sender goes on when the receiver has left its section. -/
theorem canSucceed_receiverUnlock {other : Nat}
    (pc : process.receivers number = .unlock)
    (woken : (process.senders other).pc = .relock)
    (isTrue : process.isPacketReceived = true) :
    process.CanSucceed := by
  have stepped : Process.step process (.receiver number []) = some
      { process.setReceiver number .done with lock := none } := by
    simp [Process.step, receiver, pc]
  exact canSucceed_of_step stepped rfl rfl (canSucceed_relock woken rfl isTrue)

/-- While the flag is set a sender can succeed if a receiver is to signal it. -/
theorem canSucceed_signal {other : Nat}
    (pc : process.receivers number = .signal)
    (waiting : (process.senders other).pc = .waiting)
    (isTrue : process.isPacketReceived = true) : process.CanSucceed := by
  have stepped : Process.step process (.receiver number [other]) = some
      ((process.wake [other]).setReceiver number .unlock) := by
    simp [Process.step, receiver, pc, signal, waiting]
  refine canSucceed_of_step stepped rfl rfl
    (@canSucceed_receiverUnlock _ number other ?_ ?_ isTrue)
  · simp [setReceiver]
  · simp [setReceiver, wake]

/-- A waiting sender can succeed if a receiver is to set the flag. -/
theorem canSucceed_set {other : Nat} (pc : process.receivers number = .set)
    (waiting : (process.senders other).pc = .waiting) : process.CanSucceed := by
  have stepped : Process.step process (.receiver number []) = some
      { (process.setReceiver number .signal).record (.received number) with
        isPacketReceived := true } := by
    simp [Process.step, receiver, pc]
  refine canSucceed_of_step stepped rfl
    (by simp [record, setReceiver, Entry.success?])
    (@canSucceed_signal _ number other ?_ waiting rfl)
  simp [record, setReceiver]

end

/-- The state that a run has reached, as far as the lock and the flag go. -/
structure Coordinated (process : Process) : Prop where
  exclusive : Exclusive process
  held : Held process
  copied : Copied process
  watched : Watched process

/-- In every run the threads are coordinated. -/
theorem coordinated_of_run {process : Process} {events : List Event}
    (ran : step.run start events = some process) : Coordinated process := by
  obtain ⟨exclusive, copied, _⟩ := slot_run ran
  have settled : (Exclusive process ∧ Held process) ∧ Watched process := by
    refine Machine.run_invariant
      (fun process => (Exclusive process ∧ Held process) ∧
        Watched process) ?_ ?_ ran
    · rintro before event after ⟨⟨exclusive, held⟩, watched⟩ stepped
      exact ⟨⟨exclusive.step stepped, held.step stepped⟩,
        watched.step exclusive stepped⟩
    · refine ⟨⟨⟨?_, ?_⟩, .of_free rfl⟩, ⟨?_, ?_, ?_⟩⟩ <;>
        simp [Process.start, ReceiverPc.Inside, SenderPc.Inside]
  exact ⟨exclusive, settled.1.2, copied, settled.2⟩

/-- Whoever is on the way and does not have the lock has been woken. -/
theorem Coordinated.onTheWay {process : Process}
    (coordinated : Coordinated process)
    (isTrue : process.isPacketReceived = true)
    (someWait : process.waiting ≠ []) :
    (∃ number, process.receivers number = .signal ∧
        process.lock = some (.receiver number)) ∨
      (∃ number, process.lock = some (.sender number)) ∨
      ∃ number, (process.senders number).pc = .relock := by
  rcases coordinated.watched.onTheWay isTrue someWait with
    ⟨number, pc⟩ | ⟨number, pc | pc | pc⟩
  · exact .inl ⟨number, pc, coordinated.exclusive.receiver number
      (.inr (.inl pc))⟩
  · exact .inr (.inr ⟨number, pc⟩)
  · exact .inr (.inl ⟨number, coordinated.exclusive.sender number
      (by simp [SenderPc.Inside, pc])⟩)
  · exact .inr (.inl ⟨number, coordinated.exclusive.sender number
      (by simp [SenderPc.Inside, pc])⟩)

/-- While the flag is set and a sender waits, the threads alone can bring a
sender to its success branch. -/
theorem Coordinated.canSucceed {process : Process}
    (coordinated : Coordinated process)
    (isTrue : process.isPacketReceived = true)
    (someWait : process.waiting ≠ []) :
    process.CanSucceed := by
  have onTheWay := coordinated.onTheWay isTrue someWait
  obtain ⟨exclusive, held, copied, watched⟩ := coordinated
  obtain ⟨other, present⟩ := List.exists_mem_of_ne_nil _ someWait
  have waiting := (watched.waiting other).mp present
  cases lock : process.lock with
  | none =>
      rcases onTheWay with ⟨_, _, held⟩ | ⟨_, held⟩ | ⟨woken, pc⟩
      · simp [lock] at held
      · simp [lock] at held
      · exact canSucceed_relock pc lock isTrue
  | some thread =>
      have inside := held thread lock
      cases thread with
      | receiver number =>
          rcases inside with pc | pc | pc
          · exact canSucceed_set pc waiting
          · exact canSucceed_signal pc waiting isTrue
          · rcases onTheWay with ⟨signals, atSignal, held⟩ | ⟨_, held⟩
              | ⟨woken, atRelock⟩
            · obtain rfl : number = signals := by simpa [lock] using held
              simp [pc] at atSignal
            · simp [lock] at held
            · exact canSucceed_receiverUnlock pc atRelock isTrue
      | sender number =>
          rcases inside with pc | pc | pc | pc | pc
          · exact canSucceed_test pc isTrue
          · exact absurd ((watched.testedFalse number pc).symm.trans isTrue)
              Bool.false_ne_true
          · exact canSucceed_copy pc isTrue
          · exact canSucceed_clear pc ((copied.copied number pc).trans isTrue)
          · exact absurd
              ((copied.cleared number pc).symm.trans isTrue) Bool.false_ne_true

/-- In every run, while the flag is set and a sender waits, a receiver is about
to signal or a sender is about to empty the flag, and the threads alone, without
the end of any wait by time or by itself, can bring a sender to its success
branch. -/
theorem no_wakeup_lost {process : Process} {events : List Event}
    (ran : step.run start events = some process)
    (isTrue : process.isPacketReceived = true)
    (someWait : process.waiting ≠ []) :
    ((∃ number, process.receivers number = .signal) ∨
        ∃ number, (process.senders number).pc.Taking) ∧
      ∃ more later, step.run process more = some later ∧
        (∀ event ∈ more, event.isThread = true) ∧
        (successes process.log).length < (successes later.log).length := by
  have coordinated := coordinated_of_run ran
  exact ⟨coordinated.watched.onTheWay isTrue someWait,
    coordinated.canSucceed isTrue someWait⟩

/-- Two senders wait when the receiver sets the flag. -/
def twoWaiting : List Event :=
  List.replicate 4 (.sender 0) ++ List.replicate 4 (.sender 1) ++
    [.receiver 0 [], .receiver 0 []]

/-- Two senders wait when the flag is set. -/
theorem no_wakeup_lost_twoWaiting :
    ∃ process, step.run start twoWaiting = some process ∧
      ∃ more later, step.run process more = some later ∧
        (∀ event ∈ more, event.isThread = true) ∧
        (successes process.log).length < (successes later.log).length := by
  have reached : (step.run start twoWaiting).map (fun process =>
      (process.isPacketReceived, process.waiting)) = some (true,
        [0, 1]) := by decide
  obtain ⟨process, ran, values⟩ := Option.map_eq_some_iff.mp reached
  obtain ⟨isTrue, waiting⟩ := Prod.mk.inj values
  exact ⟨process, ran, (no_wakeup_lost ran isTrue (by simp [waiting])).2⟩

end ConditionVariable
end LinuxCPractice
