import LinuxCPractice.MessageQueue.Transition

/-!
# Whether the message arrives

The writer removes its queue as soon as it has sent its message. The message
survives that only if the reader has called `msgrcv` on the same queue before.
-/

namespace LinuxCPractice
namespace MessageQueue

open World

/-- The message that was sent has been returned by `msgrcv` or is still in the
queue of the writer. -/
def Kept (world : World) : Prop :=
  ∀ message ∈ world.sent, world.received = some message ∨
    ∃ queue ∈ world.queues world.writer.msqid, message ∈ queue.messages

/-- When the writer removes its queue after sending, the reader has called
`msgrcv` on the same queue. -/
def ReaderCame (world : World) : Event → Prop
  | .msgctl true => world.sent = none ∨ world.called = some world.writer.msqid
  | _ => True

instance (world : World) (event : Event) :
    Decidable (ReaderCame world event) := by
  unfold ReaderCame
  split <;> infer_instance

/-- No queue holds a message, or none besides the given one. -/
def World.EmptyExcept (world : World) (holds : Nat → Prop) : Prop :=
  ∀ msqid queue, ¬holds msqid → world.queues msqid = some queue →
    queue.messages = []

/-- Which queues there are, and what has become of the reader's `msgrcv`. -/
structure Called (world : World) : Prop where
  unused : ∀ msqid, world.used ≤ msqid → world.queues msqid = none
  queue : world.writer.pc = .msgsnd ∨ world.writer.pc = .msgctl →
    ∃ queue, world.queues world.writer.msqid = some queue
  known : world.reader.pc = .msgrcv → world.reader.msqid < world.used
  uncalled : world.reader.pc = .fopen ∨ world.reader.pc = .fopenAppend ∨
    world.reader.pc = .ftok ∨ world.reader.pc = .msgget ∨
    world.reader.pc = .msgrcv →
    world.called = none ∧ world.received = none
  blocked : world.reader.pc = .blocked →
    world.called = some world.reader.msqid ∧
    world.received = none
  called : ∀ msqid, world.called = some msqid → msqid = world.reader.msqid ∧
    msqid < world.used ∧ (world.reader.pc = .blocked ∨
      ((∃ status, world.reader.pc = .exited status) ∧
        (world.received ≠ none ∨ world.queues msqid = none)))

section Called

variable {world next : World} {msqid other bound : Nat} {queue : Option Queue}
  {new : Queue}

theorem queues_setQueue : (world.setQueue msqid queue).queues other =
    if other = msqid then queue else world.queues other := by
  simp [setQueue, Function.update_apply]

/-- Identifiers not yet used stay so. -/
theorem unused_setQueue
    (unused : ∀ other, world.used ≤ other → world.queues other = none)
    (used : world.used ≤ bound) (inside : msqid < bound) :
    ∀ other, bound ≤ other →
      (world.setQueue msqid queue).queues other = none := by
  intro other beyond
  rw [queues_setQueue, if_neg (by omega)]
  exact unused other (Nat.le_trans used beyond)

/-- A queue that is set does not remove another. -/
theorem present_setQueue (present : ∃ queue, world.queues other = some queue) :
    ∃ queue, (world.setQueue msqid (some new)).queues other = some queue := by
  rw [queues_setQueue]
  split
  · exact ⟨new, rfl⟩
  · exact present

/-- A queue that is removed stays so. -/
theorem gone_setQueue (gone : world.queues other = none)
    (different : other ≠ msqid) :
    (world.setQueue msqid queue).queues other = none := by
  rw [queues_setQueue, if_neg different, gone]

/-- What is left after a queue has been removed has been there before. -/
theorem of_removed {kept : Queue}
    (found : (world.setQueue msqid none).queues other = some kept) :
    world.queues other = some kept := by
  rw [queues_setQueue] at found
  split at found
  · cases found
  · exact found

/-- The reader has not called `msgrcv` yet. -/
theorem Called.of_uncalled
    (unused : ∀ msqid, world.used ≤ msqid → world.queues msqid = none)
    (queue : world.writer.pc = .msgsnd ∨ world.writer.pc = .msgctl →
      ∃ queue, world.queues world.writer.msqid = some queue)
    (known : world.reader.pc = .msgrcv → world.reader.msqid < world.used)
    (notBlocked : world.reader.pc ≠ .blocked)
    (uncalled : world.called = none ∧ world.received = none) :
    Called world where
  unused := unused
  queue := queue
  known := known
  uncalled _ := uncalled
  blocked isBlocked := absurd isBlocked notBlocked
  called msqid isCalled := by
    rw [uncalled.1] at isCalled
    cases isCalled

/-- The call of `msgrcv` has come to its end. -/
theorem Called.of_ended
    (unused : ∀ msqid, world.used ≤ msqid → world.queues msqid = none)
    (queue : world.writer.pc = .msgsnd ∨ world.writer.pc = .msgctl →
      ∃ queue, world.queues world.writer.msqid = some queue)
    {status : Nat} (exited : world.reader.pc = .exited status)
    (isCalled : world.called = some world.reader.msqid)
    (used : world.reader.msqid < world.used)
    (result : world.received ≠ none ∨ world.queues world.reader.msqid = none) :
    Called world where
  unused := unused
  queue := queue
  known pc := by simp [exited] at pc
  uncalled pc := by simp [exited] at pc
  blocked pc := by simp [exited] at pc
  called msqid isQueue := by
    obtain rfl := Option.some.inj (isQueue.symm.trans isCalled)
    exact ⟨rfl, used, .inr ⟨⟨status, exited⟩, result⟩⟩

/-- A step of the writer that leaves the reader where it is. -/
theorem Called.keeps (called : Called world)
    (unused : ∀ msqid, next.used ≤ msqid → next.queues msqid = none)
    (queue : next.writer.pc = .msgsnd ∨ next.writer.pc = .msgctl →
      ∃ queue, next.queues next.writer.msqid = some queue)
    (reader : next.reader = world.reader)
    (sameCalled : next.called = world.called)
    (sameReceived : next.received = world.received)
    (used : world.used ≤ next.used)
    (gone : ∀ msqid < world.used, world.queues msqid = none →
      next.queues msqid = none) :
    Called next := by
  refine ⟨unused, queue, ?_, ?_, ?_, ?_⟩
  · rw [reader]
    exact fun pc => Nat.lt_of_lt_of_le (called.known pc) used
  · rw [reader, sameCalled, sameReceived]
    exact called.uncalled
  · rw [reader, sameCalled, sameReceived]
    exact called.blocked
  · rw [reader, sameCalled, sameReceived]
    intro msqid isCalled
    obtain ⟨same, isUsed, blocked | ⟨ended, received | removed⟩⟩ :=
      called.called msqid isCalled
    · exact ⟨same, Nat.lt_of_lt_of_le isUsed used, .inl blocked⟩
    · exact ⟨same, Nat.lt_of_lt_of_le isUsed used, .inr ⟨ended, .inl received⟩⟩
    · exact ⟨same, Nat.lt_of_lt_of_le isUsed used,
        .inr ⟨ended, .inr (gone msqid isUsed removed)⟩⟩

/-- The identifier of a queue has been used. -/
theorem Called.lt_used (called : Called world) {present : Queue}
    (found : world.queues msqid = some present) : msqid < world.used := by
  by_contra beyond
  rw [called.unused msqid (Nat.le_of_not_lt beyond)] at found
  cases found

/-- A process on its way to its queue leaves what the reader has called for. -/
theorem Called.early {role : Role} (called : Called world)
    (pc : (world.procs role).pc = .fopen ∨
      (world.procs role).pc = .fopenAppend ∨
      (world.procs role).pc = .ftok ∨ (world.procs role).pc = .msgget)
    (early : Early world role next) : Called next := by
  cases role with
  | reader =>
      have uncalled := called.uncalled (by
        rcases pc with pc | pc | pc | pc <;> simp [World.reader, pc])
      cases early with
      | @moves proc file notReady =>
          refine .of_uncalled called.unused called.queue ?_ ?_ uncalled
          · change proc.pc = .msgrcv → _
            rintro ready
            simp [ready] at notReady
          · change proc.pc ≠ .blocked
            rintro blocked
            simp [blocked] at notReady
      | @finds proc queue ready found =>
          refine .of_uncalled called.unused called.queue
            (fun _ => called.lt_used found) ?_ uncalled
          change proc.pc ≠ .blocked
          rw [ready]
          decide
      | @creates proc key ready new =>
          refine .of_uncalled (unused_setQueue called.unused (Nat.le_succ _)
            (Nat.lt_succ_self _))
            (fun sending => present_setQueue (called.queue sending))
            (fun _ => ?_) ?_ uncalled
          · change proc.msqid < world.used + 1
            rw [new]
            exact Nat.lt_succ_self _
          · change proc.pc ≠ .blocked
            rw [ready]
            decide
  | writer =>
      cases early with
      | @moves proc file notReady =>
          refine called.keeps called.unused ?_ rfl rfl rfl (Nat.le_refl _)
            fun _ _ => id
          change proc.pc = .msgsnd ∨ proc.pc = .msgctl → _
          rintro (ready | ready) <;> simp [ready] at notReady
      | @finds proc queue ready found =>
          exact called.keeps called.unused (fun _ => ⟨queue, found⟩) rfl rfl rfl
            (Nat.le_refl _)
            fun _ _ => id
      | @creates proc key ready new =>
          refine called.keeps
            (unused_setQueue called.unused (Nat.le_succ _) (Nat.lt_succ_self _))
            (fun _ => ?_) rfl
            rfl rfl (Nat.le_succ _) fun _ isUsed gone =>
              gone_setQueue gone (Nat.ne_of_lt isUsed)
          refine ⟨⟨key, []⟩, ?_⟩
          change (World.setQueue _ world.used _).queues proc.msqid = _
          rw [queues_setQueue, if_pos new]

/-- The reader's call stays on record. -/
theorem Called.step {stDev : Nat} {event : Event} (called : Called world)
    (stepped : step stDev world event = some next) : Called next := by
  cases transition_of_step stepped with
  | early pc _ early => exact called.early pc early
  | readFails pc gone =>
      exact .of_ended called.unused called.queue rfl rfl (called.known pc)
        (.inr gone)
  | @readBlocks key pc empty =>
      have isUsed := called.known pc
      obtain ⟨_, nothing⟩ := called.uncalled (by simp [pc])
      refine ⟨called.unused, called.queue, ?_, ?_, fun _ => ⟨rfl, nothing⟩, ?_⟩
      · rintro ⟨⟩
      · rintro (ready | ready | ready | ready | ready) <;> cases ready
      · rintro msqid ⟨rfl⟩
        exact ⟨rfl, isUsed, .inl rfl⟩
  | reads pc holds =>
      refine .of_ended (unused_setQueue called.unused (Nat.le_refl _)
        (called.known pc))
        (fun sending => present_setQueue (called.queue sending)) rfl rfl
        (called.known pc) (.inl ?_)
      exact Option.some_ne_none _
  | @handsOver message queue pc present blocked same =>
      obtain ⟨isCalled, _⟩ := called.blocked blocked
      obtain ⟨_, isUsed, _⟩ := called.called _ isCalled
      exact .of_ended called.unused
        (fun _ => ⟨queue, present⟩) rfl isCalled isUsed
        (.inl (Option.some_ne_none _))
  | @sends message queue pc present unread =>
      refine called.keeps
        (unused_setQueue called.unused (Nat.le_refl _) (called.lt_used present))
        (fun _ => present_setQueue ⟨queue, present⟩) rfl rfl rfl
        (Nat.le_refl _) ?_
      intro msqid _ gone
      refine gone_setQueue gone ?_
      rintro rfl
      exact Option.some_ne_none queue (present.symm.trans gone)
  | sendFails pc =>
      exact called.keeps called.unused
        (fun _ => called.queue (.inl pc)) rfl rfl rfl (Nat.le_refl _)
        fun _ _ => id
  | removesBlocked pc blocked same =>
      obtain ⟨isCalled, _⟩ := called.blocked blocked
      obtain ⟨_, isUsed, _⟩ := called.called _ isCalled
      obtain ⟨queue, present⟩ := called.queue (.inr pc)
      refine .of_ended (unused_setQueue called.unused (Nat.le_refl _)
        (called.lt_used present)) ?_
        rfl isCalled isUsed (.inr ?_)
      · rintro (⟨⟨⟩⟩ | ⟨⟨⟩⟩)
      · change (World.setQueue _ world.writer.msqid none).queues
          world.reader.msqid = none
        rw [queues_setQueue, if_pos same]
  | removes pc unread =>
      obtain ⟨queue, present⟩ := called.queue (.inr pc)
      refine called.keeps
        (unused_setQueue called.unused (Nat.le_refl _)
          (called.lt_used present)) ?_ rfl rfl rfl
        (Nat.le_refl _) ?_
      · rintro (⟨⟨⟩⟩ | ⟨⟨⟩⟩)
      · intro msqid _ gone
        rw [queues_setQueue]
        split
        · rfl
        · exact gone
  | removeFails pc =>
      refine called.keeps called.unused ?_ rfl rfl rfl (Nat.le_refl _)
        fun _ _ => id
      rintro (⟨⟨⟩⟩ | ⟨⟨⟩⟩)
  | unlinks pc =>
      refine called.keeps called.unused ?_ rfl rfl rfl (Nat.le_refl _)
        fun _ _ => id
      rintro (⟨⟨⟩⟩ | ⟨⟨⟩⟩)

end Called

/-- Where the one message can be. -/
structure Delivering (world : World) : Prop where
  unsent : world.sent = none →
    world.received = none ∧ world.EmptyExcept fun _ => False
  sending : world.sent ≠ none → world.writer.pc = .msgctl ∨
    world.writer.pc = .unlink ∨
    ∃ status, world.writer.pc = .exited status
  place : ∀ message, world.sent = some message →
    (world.received = some message ∧ world.called = some world.writer.msqid ∧
        world.EmptyExcept fun _ => False) ∨
      (world.received = none ∧ world.called ≠ some world.writer.msqid ∧
        world.EmptyExcept (· = world.writer.msqid) ∧
        ∃ queue, world.queues world.writer.msqid = some queue ∧
          queue.messages = [message])

section Delivering

variable {world next : World}

/-- The writer has not sent anything before `msgsnd`. -/
theorem Delivering.sent_eq_none (delivering : Delivering world)
    (early : world.writer.pc = .fopen ∨ world.writer.pc = .fopenAppend ∨
      world.writer.pc = .ftok ∨
      world.writer.pc = .msgget ∨ world.writer.pc = .msgsnd) : world.sent =
        none := by
  by_contra sent
  rcases delivering.sending sent with pc | pc | ⟨status, pc⟩ <;>
    simp [pc] at early

/-- A step by which no message is sent or received. Once a message has been sent
the writer has its queue, and nobody calls `msgrcv` on that. -/
theorem Delivering.keeps (delivering : Delivering world)
    (sent : next.sent = world.sent)
    (received : next.received = world.received)
    (writer : world.sent ≠ none → next.writer.msqid = world.writer.msqid ∧
      (next.writer.pc = .msgctl ∨ next.writer.pc = .unlink ∨
        ∃ status, next.writer.pc = .exited status))
    (called : world.sent ≠ none →
      (next.called = some world.writer.msqid ↔
        world.called = some world.writer.msqid))
    (queues : ∀ msqid queue, next.queues msqid = some queue →
      queue.messages = [] ∨ world.queues msqid = some queue)
    (present : world.sent ≠ none → world.called ≠ some world.writer.msqid →
      next.queues world.writer.msqid = world.queues world.writer.msqid) :
    Delivering next := by
  have empties {holds : Nat → Prop} (empty : world.EmptyExcept holds) :
      next.EmptyExcept holds := by
    intro msqid queue notHeld isQueue
    rcases queues msqid queue isQueue with none | before
    · exact none
    · exact empty msqid queue notHeld before
  refine ⟨?_, ?_, ?_⟩
  · intro unsent
    rw [sent] at unsent
    obtain ⟨nothing, empty⟩ := delivering.unsent unsent
    exact ⟨received.trans nothing, empties empty⟩
  · intro hasSent
    rw [sent] at hasSent
    exact (writer hasSent).2
  · intro message isSent
    rw [sent] at isSent
    have hasSent : world.sent ≠ none := by simp [isSent]
    rw [(writer hasSent).1, received, Ne, called hasSent]
    rcases delivering.place message isSent with
      ⟨isReceived, isCalled, empty⟩
        | ⟨nothing, notCalled, empty, queue, isQueue, holds⟩
    · exact .inl ⟨isReceived, isCalled, empties empty⟩
    · exact .inr ⟨nothing, notCalled, empties empty, queue,
        (present hasSent notCalled).trans isQueue, holds⟩

/-- A message that is in the queue of the writer. -/
theorem Delivering.queued (delivering : Delivering world)
    (hasSent : world.sent ≠ none)
    (elsewhere : world.received = none ∨
      world.called ≠ some world.writer.msqid) :
    ∃ message queue, world.sent = some message ∧
      world.queues world.writer.msqid = some queue ∧
      queue.messages = [message] ∧
      world.EmptyExcept (· = world.writer.msqid) := by
  obtain ⟨message, isSent⟩ := Option.ne_none_iff_exists'.mp hasSent
  rcases delivering.place message isSent with
    ⟨isReceived, isCalled, _⟩ | ⟨_, _, empty, queue, isQueue, holds⟩
  · rcases elsewhere with nothing | notCalled
    · rw [nothing] at isReceived
      cases isReceived
    · exact absurd isCalled notCalled
  · exact ⟨message, queue, isSent, isQueue, holds, empty⟩

/-- A process on its way to its queue leaves what is being delivered. -/
theorem Delivering.early {role : Role} (called : Called world)
    (delivering : Delivering world)
    (pc : (world.procs role).pc = .fopen ∨
      (world.procs role).pc = .fopenAppend ∨
      (world.procs role).pc = .ftok ∨ (world.procs role).pc = .msgget)
    (early : Early world role next) : Delivering next := by
  have writer : world.sent ≠ none → role = .reader := by
    intro hasSent
    cases role with
    | reader => rfl
    | writer =>
        refine absurd (delivering.sent_eq_none ?_) hasSent
        rcases pc with pc | pc | pc | pc <;> simp [World.writer, pc]
  cases early with
  | moves | finds =>
      refine delivering.keeps rfl rfl ?_ (fun _ => Iff.rfl) (fun _ _ => .inr)
        fun _ _ => rfl
      intro hasSent
      obtain rfl := writer hasSent
      exact ⟨rfl, delivering.sending hasSent⟩
  | creates ready new =>
      refine delivering.keeps rfl rfl ?_ (fun _ => Iff.rfl)
        (fun msqid queue found => ?_) ?_
      · intro hasSent
        obtain rfl := writer hasSent
        exact ⟨rfl, delivering.sending hasSent⟩
      · change (World.setQueue _ world.used _).queues msqid = _ at found
        rw [queues_setQueue] at found
        split at found
        · cases found
          exact .inl rfl
        · exact .inr found
      · intro hasSent notCalled
        obtain ⟨_, queue, _, isQueue, _⟩ :=
          delivering.queued hasSent (.inr notCalled)
        change (World.setQueue _ world.used _).queues _ = _
        rw [queues_setQueue, if_neg (Nat.ne_of_lt (called.lt_used isQueue))]
        rfl

/-- A call of `msgrcv` that gets no message is not on the queue where the
message is. -/
theorem Delivering.calls (delivering : Delivering world) {msqid : Nat}
    (uncalled : world.called = none)
    (nothing : ∀ queue message,
      world.queues msqid = some queue → queue.messages ≠ [message]) (hasSent :
        world.sent ≠ none) :
    some msqid = some world.writer.msqid ↔
      world.called = some world.writer.msqid := by
  obtain ⟨message, queue, _, isQueue, holds, _⟩ :=
    delivering.queued hasSent (.inr (by simp [uncalled]))
  rw [uncalled]
  constructor
  · rintro ⟨⟩
    exact absurd holds (nothing queue message isQueue)
  · rintro ⟨⟩

/-- The reader takes the message out of the queue of the writer. -/
theorem Delivering.reads (called : Called world) (delivering : Delivering world)
    {key : Nat}
    {message : Message} {messages : List Message}
    (pc : world.reader.pc = .msgrcv)
    (holds : world.queues world.reader.msqid =
      some ⟨key, message :: messages⟩) :
    Delivering
      { (world.setProc .reader { world.reader with pc := .exited 0 }).setQueue
        world.reader.msqid (some ⟨key, messages⟩) with
        called := some world.reader.msqid, received := some message } := by
  obtain ⟨_, nothing⟩ := called.uncalled (by simp [pc])
  have hasSent : world.sent ≠ none := by
    intro unsent
    cases (delivering.unsent unsent).2 _ _ not_false holds
  obtain ⟨sent, queue, isSent, isQueue, alone, empty⟩ :=
    delivering.queued hasSent (.inl nothing)
  have same : world.reader.msqid = world.writer.msqid := by
    by_contra different
    cases empty _ _ different holds
  rw [← same, holds] at isQueue
  cases isQueue
  obtain ⟨rfl, rfl⟩ := List.cons_eq_cons.mp alone
  refine ⟨fun unsent => absurd unsent hasSent,
    fun _ => delivering.sending hasSent, ?_⟩
  intro other isOther
  obtain rfl : message = other := Option.some.inj (isSent.symm.trans isOther)
  refine .inl ⟨rfl, congrArg some same, ?_⟩
  intro msqid queue _ found
  change (World.setQueue _ world.reader.msqid _).queues msqid = _ at found
  rw [queues_setQueue] at found
  split at found
  · cases found
    rfl
  case isFalse different => exact empty msqid queue (same ▸ different) found

/-- The writer puts the message into its queue, on which the reader does not
wait. -/
theorem Delivering.sends (called : Called world) (delivering : Delivering world)
    {message : Message} {queue : Queue} (pc : world.writer.pc = .msgsnd)
    (present : world.queues world.writer.msqid = some queue)
    (unread : ¬(world.reader.pc = .blocked ∧
      world.reader.msqid = world.writer.msqid)) :
    Delivering
      { (world.setProc .writer { world.writer with pc := .msgctl }).setQueue
        world.writer.msqid
          (some { queue with messages := queue.messages ++ [message] }) with
        sent := some message } := by
  obtain ⟨nothing, empty⟩ :=
    delivering.unsent (delivering.sent_eq_none (by simp [pc]))
  have notCalled : world.called ≠ some world.writer.msqid := by
    intro isCalled
    obtain ⟨same, _, blocked | ⟨_, received | gone⟩⟩ := called.called _ isCalled
    · exact unread ⟨blocked, same.symm⟩
    · exact received nothing
    · rw [present] at gone
      cases gone
  have alone := empty world.writer.msqid queue not_false present
  refine ⟨by simp, fun _ => .inl rfl, ?_⟩
  rintro other ⟨rfl⟩
  refine .inr ⟨nothing, notCalled, ?_, ?_⟩
  · intro msqid other notHere found
    have different : msqid ≠ world.writer.msqid := notHere
    change (World.setQueue _ world.writer.msqid _).queues msqid = _ at found
    rw [queues_setQueue, if_neg different] at found
    exact empty msqid other not_false found
  · refine ⟨{ queue with messages := queue.messages ++ [message] }, ?_,
      by simp [alone]⟩
    change (World.setQueue _ world.writer.msqid _).queues world.writer.msqid = _
    rw [queues_setQueue, if_pos rfl]

/-- If the reader comes in time the message stays on its way to it. -/
theorem Delivering.step {stDev : Nat} {event : Event} (called : Called world)
    (delivering : Delivering world) (came : ReaderCame world event)
    (stepped : step stDev world event = some next) : Delivering next := by
  cases transition_of_step stepped with
  | early pc _ early => exact delivering.early called pc early
  | readFails pc gone =>
      obtain ⟨uncalled, _⟩ := called.uncalled (by simp [pc])
      refine delivering.keeps rfl rfl
        (fun hasSent => ⟨rfl, delivering.sending hasSent⟩)
        (delivering.calls uncalled fun queue message found => ?_)
        (fun _ _ => .inr) fun _ _ => rfl
      rw [gone] at found
      cases found
  | readBlocks pc empty =>
      obtain ⟨uncalled, _⟩ := called.uncalled (by simp [pc])
      refine delivering.keeps rfl rfl
        (fun hasSent => ⟨rfl, delivering.sending hasSent⟩)
        (delivering.calls uncalled fun queue message found => ?_)
        (fun _ _ => .inr) fun _ _ => rfl
      rw [empty] at found
      cases found
      exact (List.cons_ne_nil message []).symm
  | reads pc holds => exact delivering.reads called pc holds
  | handsOver pc present blocked same =>
      obtain ⟨isCalled, _⟩ := called.blocked blocked
      have unsent := delivering.sent_eq_none (by simp [pc])
      refine ⟨by rintro ⟨⟩, fun _ => .inl rfl, ?_⟩
      rintro other ⟨rfl⟩
      exact .inl ⟨rfl, same ▸ isCalled, (delivering.unsent unsent).2⟩
  | sends pc present unread => exact delivering.sends called pc present unread
  | sendFails pc =>
      have unsent := delivering.sent_eq_none (by simp [pc])
      exact delivering.keeps rfl rfl (absurd unsent) (fun _ => Iff.rfl)
        (fun _ _ => .inr)
        fun _ _ => rfl
  | removesBlocked pc blocked same =>
      obtain ⟨isCalled, nothing⟩ := called.blocked blocked
      have unsent : world.sent = none := by
        by_contra hasSent
        obtain ⟨message, isSent⟩ := Option.ne_none_iff_exists'.mp hasSent
        rcases delivering.place message isSent with ⟨isReceived, _⟩
          | ⟨_, notCalled, _⟩
        · rw [nothing] at isReceived
          cases isReceived
        · exact notCalled (same ▸ isCalled)
      exact delivering.keeps rfl rfl (absurd unsent) (absurd unsent)
        (fun _ _ => .inr ∘ of_removed)
        (absurd unsent)
  | removes pc unread =>
      refine delivering.keeps rfl rfl (fun _ => ⟨rfl, .inr (.inl rfl)⟩)
        (fun _ => Iff.rfl)
        (fun _ _ => .inr ∘ of_removed) ?_
      intro hasSent notCalled
      exact (came.elim hasSent notCalled).elim
  | removeFails pc | unlinks pc =>
      exact delivering.keeps rfl rfl (fun _ => ⟨rfl, .inr (.inr ⟨_, rfl⟩)⟩)
        (fun _ => Iff.rfl)
        (fun _ _ => .inr) fun _ _ => rfl

end Delivering

/-- A message on its way to the reader is kept. -/
theorem Delivering.kept {world : World} (delivering : Delivering world) :
    Kept world := by
  intro message sent
  rcases delivering.place message sent with ⟨received, _⟩
    | ⟨_, _, _, queue, present, messages⟩
  · exact .inl received
  · exact .inr ⟨queue, present, by simp [messages]⟩

/-- `IPC_RMID` destroys the queue of the writer. -/
theorem queue_lost {stDev : Nat} {world next : World}
    (stepped : step stDev world (.msgctl true) = some next) :
    next.sent = world.sent ∧ next.received = world.received ∧
      next.queues next.writer.msqid = none := by
  cases transition_of_step stepped with
  | early _ other => exact absurd rfl (other true)
  | removesBlocked | removes => simp [World.writer, setProc, setQueue]

/-- A queue removed before the reader has come takes the message with it. -/
theorem Delivering.exposed {stDev : Nat} {world next : World} {event : Event}
    (delivering : Delivering world)
    (stepped : World.step stDev world event = some next)
    (kept : Kept next) : ReaderCame world event := by
  cases event with
  | msgctl succeeds =>
      cases succeeds with
      | false => trivial
      | true =>
          obtain ⟨sameSent, sameReceived, lost⟩ := queue_lost stepped
          cases sent : world.sent with
          | none => exact .inl sent
          | some message =>
              rcases delivering.place message sent with ⟨_, came, _⟩
                | ⟨nothing, _⟩
              · exact .inr came
              · rcases kept message (sameSent ▸ sent) with received
                  | ⟨queue, present, _⟩
                · rw [sameReceived, nothing] at received
                  cases received
                · rw [lost] at present
                  cases present
  | fopen | fopenAppend | ftok | msgget | msgrcv | msgsnd | unlink => trivial

/-- The message that the writer has sent is returned by the reader's `msgrcv` or
still in the queue, as long as the reader has called `msgrcv` on the same queue
when the writer removes it. -/
theorem kept_iff {stDev : Nat} {file : Option Nat} {events : List Event}
    {final : World}
    (ran : (step stDev).run (start file) events = some final) :
    (step stDev).Always Kept (start file) events ↔
      (step stDev).EveryStep ReaderCame (start file) events := by
  refine Machine.always_iff_everyStep (fun world => Called world ∧
    Delivering world)
    ?_ ?_ ?_ ⟨?_, ?_⟩ ran
  · rintro world event next ⟨called, delivering⟩ came stepped
    exact ⟨called.step stepped, delivering.step called came stepped⟩
  · rintro world ⟨_, delivering⟩
    exact delivering.kept
  · rintro world event next ⟨_, delivering⟩ stepped kept
    exact delivering.exposed stepped kept
  · constructor <;> simp [World.start, World.reader, World.writer]
  · constructor <;> simp [World.start, World.EmptyExcept]

/-- The reader creates the file and blocks in `msgrcv` before the writer
comes. -/
def readerFirst : List Event :=
  [.fopen .reader false, .fopenAppend .reader (some 7), .ftok .reader true,
    .msgget .reader true, .msgrcv, .fopen .writer true, .ftok .writer true,
    .msgget .writer true, .msgsnd [104, 105] true, .msgctl true, .unlink true]

/-- The reader waits before the writer sends. -/
theorem kept_iff_readerFirst :
    (step 0).Always Kept (start none) readerFirst := by
  have reached : ((step 0).run (start none) readerFirst).isSome =
      true := by decide
  obtain ⟨final, ran⟩ := Option.isSome_iff_exists.mp reached
  exact (kept_iff ran).mpr (by decide)

/-- The writer runs to its end before the reader makes its first step. -/
def writerFirst : List Event :=
  [.fopen .writer false, .fopenAppend .writer (some 7), .ftok .writer true,
    .msgget .writer true, .msgsnd [104, 105] true, .msgctl true, .unlink true,
    .fopen .reader false, .fopenAppend .reader (some 7), .ftok .reader true,
    .msgget .reader true, .msgrcv]

/-- The message is destroyed with the queue and the reader blocks. -/
theorem not_kept_writerFirst :
    ∃ final, (step 0).run (start none) writerFirst = some final ∧
      final.sent = some [104, 105] ∧ final.received = none ∧
      final.reader.pc = .blocked ∧
      ¬Kept final := by
  have reached : ((step 0).run (start none) writerFirst).map (fun world =>
      (world.sent, world.received, world.reader.pc,
        world.queues world.writer.msqid)) =
        some (some [104, 105], none, .blocked, none) := by decide
  obtain ⟨final, ran, values⟩ := Option.map_eq_some_iff.mp reached
  simp only [Prod.mk.injEq] at values
  obtain ⟨sent, received, blocked, destroyed⟩ := values
  refine ⟨final, ran, sent, received, blocked, ?_⟩
  intro kept
  rcases kept _ sent with returned | ⟨queue, present, _⟩
  · rw [received] at returned
    cases returned
  · rw [destroyed] at present
    cases present

end MessageQueue
end LinuxCPractice
