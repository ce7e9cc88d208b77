import LinuxCPractice.MessageQueue.Delivery

/-!
# How a run of both processes ends

Both make a few calls each, so that nothing can go on for ever. What is left at
the end is a reader with the writer's message, a reader that has failed, or a
reader that waits for good on a queue of its own.
-/

namespace LinuxCPractice
namespace MessageQueue

open World

variable {stDev : Nat} {world next : World} {event : Event}

section Parts

variable {role other : Role} {proc : Proc} {msqid : Nat} {queue : Option Queue}

@[grind =] theorem setProc_procs :
    (world.setProc role proc).procs other = if other = role then proc
      else world.procs other := by
  simp [setProc, Function.update_apply]

@[grind =] theorem setProc_queues :
    (world.setProc role proc).queues msqid = world.queues msqid :=
  rfl

@[grind =] theorem setProc_used :
    (world.setProc role proc).used = world.used := rfl

@[grind =] theorem setProc_sent :
    (world.setProc role proc).sent = world.sent := rfl

@[grind =] theorem setProc_received :
    (world.setProc role proc).received = world.received := rfl

@[grind =] theorem setQueue_procs :
    (world.setQueue msqid queue).procs role = world.procs role :=
  rfl

@[grind =] theorem setQueue_used :
    (world.setQueue msqid queue).used = world.used := rfl

@[grind =] theorem setQueue_sent :
    (world.setQueue msqid queue).sent = world.sent := rfl

@[grind =] theorem setQueue_received :
    (world.setQueue msqid queue).received = world.received := rfl

attribute [grind =] queues_setQueue

end Parts

/-! ## The length of a run -/

/-- The calls behind `msgget`. -/
def Role.calls : Role → Nat
  | .reader => 1
  | .writer => 3

/-- How many calls the process is away from its end at most. -/
def Pc.remaining (role : Role) : Pc → Nat
  | .fopen => role.calls + 4
  | .fopenAppend => role.calls + 3
  | .ftok => role.calls + 2
  | .msgget => role.calls + 1
  | .msgrcv => 1
  | .msgsnd => 3
  | .msgctl => 2
  | .unlink => 1
  | .blocked => 0
  | .exited _ => 0
  | .crashed => 0

/-- The calls that both processes have left. -/
def World.remaining (world : World) : Nat :=
  (world.procs .reader).pc.remaining .reader +
    (world.procs .writer).pc.remaining .writer

/-- The process that makes a call. -/
def Event.role : Event → Role
  | .fopen role _ | .fopenAppend role _ | .ftok role _ | .msgget role _ => role
  | .msgrcv => .reader
  | .msgsnd _ _ | .msgctl _ | .unlink _ => .writer

/-- The process comes closer to its end, and the other one no further away from
its. -/
structure Advances (world : World) (role : Role) (next : World) : Prop where
  closer : (next.procs role).pc.remaining role <
    (world.procs role).pc.remaining role
  others : ∀ other,
    (next.procs other).pc.remaining other ≤
      (world.procs other).pc.remaining other

/-- A process that advances has fewer calls left. -/
theorem Advances.remaining_lt {role : Role}
    (advances : Advances world role next) :
    next.remaining < world.remaining := by
  obtain ⟨closer, others⟩ := advances
  have reader := others .reader
  have writer := others .writer
  unfold World.remaining
  cases role <;> omega

/-- A step of the process that leaves the other one alone. -/
theorem advances_of_setProc {role : Role} {proc : Proc}
    (closer : proc.pc.remaining role < (world.procs role).pc.remaining role)
    (procs : next.procs = (world.setProc role proc).procs) :
    Advances world role next := by
  refine ⟨?_, fun other => ?_⟩
  · rw [procs]
    grind
  · rw [procs]
    grind

/-- A call of the writer that ends the call in which the reader is blocked. -/
theorem advances_of_wakes {writer reader : Proc}
    (closer : writer.pc.remaining .writer <
      (world.procs .writer).pc.remaining .writer)
    (ends : reader.pc.remaining .reader = 0)
    (procs : next.procs = ((world.setProc .writer writer).setProc .reader reader).procs) :
    Advances world .writer next := by
  refine ⟨?_, fun other => ?_⟩
  · rw [procs]
    grind
  · rw [procs]
    cases other <;> grind

/-- Each call brings the process that makes it closer to its end. -/
theorem step_advances (stepped : step stDev world event = some next) :
    Advances world event.role next := by
  cases event with
  | fopen role succeeds =>
      change Advances world role next
      obtain ⟨pc, opened⟩ := Option.ite_none_right_eq_some.mp stepped
      unfold World.fopen at opened
      cases succeeds with
      | false =>
          cases opened
          exact advances_of_setProc (by simp [pc, Pc.remaining]) rfl
      | true =>
          obtain ⟨_, equal⟩ := Option.ite_none_right_eq_some.mp opened
          cases equal
          exact advances_of_setProc (by simp [pc, Pc.remaining]) rfl
  | fopenAppend role inode =>
      change Advances world role next
      obtain ⟨pc, opened⟩ := Option.ite_none_right_eq_some.mp stepped
      unfold World.fopenAppend at opened
      cases inode with
      | none =>
          cases opened
          exact advances_of_setProc (by simp [pc, Pc.remaining]) rfl
      | some inode =>
          obtain ⟨_, equal⟩ := Option.ite_none_right_eq_some.mp opened
          cases equal
          exact advances_of_setProc (by simp [pc, Pc.remaining]) rfl
  | ftok role succeeds =>
      change Advances world role next
      obtain ⟨pc, got⟩ := Option.ite_none_right_eq_some.mp stepped
      unfold World.ftok at got
      cases succeeds with
      | false =>
          cases got
          exact advances_of_setProc (by simp [pc, Pc.remaining]) rfl
      | true =>
          obtain ⟨inode, _, rfl⟩ := Option.map_eq_some_iff.mp got
          exact advances_of_setProc (by simp [pc, Pc.remaining]) rfl
  | msgget role succeeds =>
      change Advances world role next
      obtain ⟨pc, got⟩ := Option.ite_none_right_eq_some.mp stepped
      have ready : role.proceed.remaining role < role.calls + 1 := by
        cases role <;> decide
      unfold World.msgget at got
      cases succeeds with
      | false =>
          cases got
          exact advances_of_setProc (by simp [pc, Pc.remaining]) rfl
      | true =>
          cases found : world.find (world.procs role).key with
          | none | some =>
              simp only [found, if_true] at got
              cases got
              exact advances_of_setProc
                (by simpa [pc, Pc.remaining] using ready) rfl
  | msgrcv =>
      change Advances world .reader next
      obtain ⟨pc, equal⟩ := Option.ite_none_right_eq_some.mp stepped
      cases equal
      unfold World.msgrcv
      simp only
      have last : (world.procs .reader).pc.remaining .reader = 1 := by
        rw [← World.reader, pc, Pc.remaining]
      split
      all_goals exact advances_of_setProc (by rw [last]; simp [Pc.remaining]) rfl
  | msgsnd message succeeds =>
      change Advances world .writer next
      obtain ⟨pc, sent⟩ := Option.ite_none_right_eq_some.mp stepped
      have left : (world.procs .writer).pc.remaining .writer = 3 := by
        rw [← World.writer, pc, Pc.remaining]
      unfold World.msgsnd at sent
      cases succeeds with
      | false =>
          cases sent
          exact advances_of_setProc (by rw [left]; simp [Pc.remaining]) rfl
      | true =>
          obtain ⟨queue, _, rfl⟩ := Option.map_eq_some_iff.mp sent
          split
          · exact advances_of_wakes (by rw [left]; simp [Pc.remaining]) rfl rfl
          · exact advances_of_setProc (by rw [left]; simp [Pc.remaining]) rfl
  | msgctl succeeds =>
      change Advances world .writer next
      obtain ⟨pc, equal⟩ := Option.ite_none_right_eq_some.mp stepped
      cases equal
      have left : (world.procs .writer).pc.remaining .writer = 2 := by
        rw [← World.writer, pc, Pc.remaining]
      unfold World.msgctl
      cases succeeds with
      | false =>
          exact advances_of_setProc (by rw [left]; simp [Pc.remaining]) rfl
      | true =>
          simp only [if_true]
          split
          · exact advances_of_wakes (by rw [left]; simp [Pc.remaining]) rfl rfl
          · exact advances_of_setProc (by rw [left]; simp [Pc.remaining]) rfl
  | unlink succeeds =>
      change Advances world .writer next
      obtain ⟨pc, equal⟩ := Option.ite_none_right_eq_some.mp stepped
      cases equal
      exact advances_of_setProc
        (by rw [← World.writer, pc]; simp [Pc.remaining]) rfl

/-! ## What holds of a run -/

/-- The process has not come to its end or is blocked. -/
def Pc.OnItsWay : Pc → Prop
  | .fopen | .fopenAppend | .ftok | .msgget => True
  | .msgrcv | .msgsnd | .msgctl | .unlink | .blocked | .exited _
  | .crashed => False

/-- Each process makes its own calls only. What is in a queue or was received is
what the writer has sent, what it has removed is gone, and the reader waits on
an empty queue. -/
structure Truthful (world : World) : Prop where
  reader : world.reader.pc ≠ .msgsnd ∧ world.reader.pc ≠ .msgctl ∧
    world.reader.pc ≠ .unlink
  writer : world.writer.pc ≠ .msgrcv ∧ world.writer.pc ≠ .blocked
  unsent : world.writer.pc.OnItsWay ∨ world.writer.pc = .msgsnd ∨
    world.writer.pc = .crashed →
    world.sent = none
  queued : ∀ msqid queue, world.queues msqid = some queue →
    ∀ message ∈ queue.messages, world.sent = some message
  received : ∀ message, world.received = some message →
    world.sent = some message
  returned : world.reader.pc = .exited 0 ↔ world.received ≠ none
  status : ∀ role status, (world.procs role).pc = .exited status →
    status = 0 ∨ status = 1
  known : world.writer.pc = .msgsnd ∨ world.writer.pc = .msgctl ∨
    world.writer.pc = .unlink ∨
    world.writer.pc = .exited 0 → world.writer.msqid < world.used
  removed : world.writer.pc = .unlink ∨ world.writer.pc = .exited 0 →
    world.queues world.writer.msqid = none
  waits : world.reader.pc = .blocked → ∃ key,
    world.queues world.reader.msqid = some ⟨key, []⟩

/-- A process on its way to its queue leaves the status of the reader true. -/
theorem Truthful.early {role : Role} (truthful : Truthful world)
    (called : Called world)
    (pc : (world.procs role).pc = .fopen ∨
      (world.procs role).pc = .fopenAppend ∨
      (world.procs role).pc = .ftok ∨ (world.procs role).pc = .msgget)
    (early : Early world role next) : Truthful next := by
  obtain ⟨reader, writer, unsent, queued, received, returned, status, known,
    removed, waits⟩ :=
    truthful
  have inUse (msqid : Nat) (queue : Queue) (found : world.queues msqid =
      some queue) :
      msqid < world.used := called.lt_used found
  cases early with
  | moves notReady =>
      cases role <;> constructor <;>
        grind [World.reader, World.writer, Pc.OnItsWay]
  | finds ready found =>
      cases role <;> constructor <;>
        grind [World.reader, World.writer, Pc.OnItsWay, Role.proceed]
  | creates ready new =>
      cases role <;> constructor <;>
        grind [World.reader, World.writer, Pc.OnItsWay, Role.proceed]

/-- The status of the reader stays true. -/
theorem Truthful.step (truthful : Truthful world) (called : Called world)
    (stepped : World.step stDev world event = some next) : Truthful next := by
  have transition := transition_of_step stepped
  clear stepped
  cases transition with
  | early pc _ early => exact truthful.early called pc early
  | readFails pc | readBlocks pc =>
      obtain ⟨_, nothing⟩ := called.uncalled (by simp [pc])
      obtain ⟨reader, writer, unsent, queued, received, returned, status, known,
        removed, waits⟩ :=
        truthful
      constructor <;> grind [World.reader, World.writer, Pc.OnItsWay]
  | @reads key message messages pc holds =>
      obtain ⟨reader, writer, unsent, queued, received, returned, status, known,
        removed, waits⟩ :=
        truthful
      have first : world.sent = some message :=
        queued _ _ holds message List.mem_cons_self
      have others (other : Message) (present : other ∈ messages) :
          world.sent = some other :=
        queued _ _ holds other (List.mem_cons_of_mem message present)
      constructor <;> grind [World.reader, World.writer, Pc.OnItsWay]
  | handsOver | sends | sendFails | removesBlocked | removes | removeFails =>
      obtain ⟨reader, writer, unsent, queued, received, returned, status, known,
        removed, waits⟩ :=
        truthful
      constructor <;> grind [World.reader, World.writer, Pc.OnItsWay]
  | unlinks pc =>
      obtain ⟨reader, writer, unsent, queued, received, returned, status, known,
        removed, waits⟩ :=
        truthful
      unfold World.unlink
      constructor <;> grind [World.reader, World.writer, Pc.OnItsWay]

/-! ## Nothing more can happen -/

/-- Neither process can make a step. -/
def Stopped (stDev : Nat) (world : World) : Prop :=
  ∀ event, step stDev world event = none

/-- Both processes are at their end, or the reader waits. It has exited with 0
exactly if it has the message of the writer. A queue on which it waits is empty,
and not the one that a writer has removed. -/
structure Outcome (world : World) : Prop where
  writer : world.writer.pc = .exited 0 ∨ world.writer.pc = .exited 1 ∨
    world.writer.pc = .crashed
  reader : world.reader.pc = .exited 0 ∨ world.reader.pc = .exited 1 ∨
    world.reader.pc = .crashed ∨ world.reader.pc = .blocked
  returned : world.reader.pc = .exited 0 ↔
    ∃ message, world.sent = some message ∧ world.received = some message
  removed : world.writer.pc = .exited 0 → world.queues world.writer.msqid = none
  waits : world.reader.pc = .blocked →
    (∃ key, world.queues world.reader.msqid = some ⟨key, []⟩) ∧
      (world.writer.pc = .exited 0 → world.writer.msqid ≠ world.reader.msqid)

/-- When nothing can happen any more, nobody is on its way to its queue. -/
theorem Stopped.not_early (stopped : Stopped stDev world) (role : Role) :
    ¬(world.procs role).pc.OnItsWay := by
  intro early
  cases pc : (world.procs role).pc with
  | fopen =>
      have none := stopped (.fopen role false)
      simp [World.step, pc, World.fopen] at none
  | fopenAppend =>
      have none := stopped (.fopenAppend role none)
      simp [World.step, pc, World.fopenAppend] at none
  | ftok =>
      have none := stopped (.ftok role false)
      simp [World.step, pc, World.ftok] at none
  | msgget =>
      have none := stopped (.msgget role false)
      simp [World.step, pc, World.msgget] at none
  | msgrcv | msgsnd | msgctl | unlink | blocked | exited | crashed =>
      simp [pc, Pc.OnItsWay] at early

/-- Then the writer has ended. -/
theorem Stopped.writer (stopped : Stopped stDev world)
    (truthful : Truthful world) :
    world.writer.pc = .exited 0 ∨ world.writer.pc = .exited 1 ∨
      world.writer.pc = .crashed := by
  have notEarly := stopped.not_early .writer
  rw [← World.writer] at notEarly
  cases pc : world.writer.pc with
  | fopen | fopenAppend | ftok | msgget => simp [pc, Pc.OnItsWay] at notEarly
  | msgrcv => exact absurd pc truthful.writer.1
  | blocked => exact absurd pc truthful.writer.2
  | msgsnd =>
      have none := stopped (.msgsnd [] false)
      simp [World.step, pc, World.msgsnd] at none
  | msgctl =>
      have none := stopped (.msgctl false)
      simp [World.step, pc] at none
  | unlink =>
      have none := stopped (.unlink false)
      simp [World.step, pc] at none
  | exited status =>
      rcases truthful.status .writer status pc with rfl | rfl
      · exact .inl rfl
      · exact .inr (.inl rfl)
  | crashed => exact .inr (.inr rfl)

/-- Then the reader has ended or waits for a message. -/
theorem Stopped.reader (stopped : Stopped stDev world)
    (truthful : Truthful world) :
    world.reader.pc = .exited 0 ∨ world.reader.pc = .exited 1 ∨
      world.reader.pc = .crashed ∨
      world.reader.pc = .blocked := by
  have notEarly := stopped.not_early .reader
  rw [← World.reader] at notEarly
  cases pc : world.reader.pc with
  | fopen | fopenAppend | ftok | msgget => simp [pc, Pc.OnItsWay] at notEarly
  | msgrcv =>
      have none := stopped .msgrcv
      simp [World.step, pc] at none
  | msgsnd => exact absurd pc truthful.reader.1
  | msgctl => exact absurd pc truthful.reader.2.1
  | unlink => exact absurd pc truthful.reader.2.2
  | exited status =>
      rcases truthful.status .reader status pc with rfl | rfl
      · exact .inl rfl
      · exact .inr (.inl rfl)
  | crashed => exact .inr (.inr (.inl rfl))
  | blocked => exact .inr (.inr (.inr rfl))

/-- Where a run stops it has one of the outcomes. -/
theorem Stopped.outcome (stopped : Stopped stDev world)
    (truthful : Truthful world) :
    Outcome world where
  writer := stopped.writer truthful
  reader := stopped.reader truthful
  returned := by
    rw [truthful.returned, Option.ne_none_iff_exists']
    constructor
    · rintro ⟨message, received⟩
      exact ⟨message, truthful.received message received, received⟩
    · rintro ⟨message, _, received⟩
      exact ⟨message, received⟩
  removed exited := truthful.removed (.inr exited)
  waits blocked := by
    obtain ⟨key, present⟩ := truthful.waits blocked
    refine ⟨⟨key, present⟩, ?_⟩
    intro exited same
    rw [← same, truthful.removed (.inr exited)] at present
    cases present

/-! ## Whole runs -/

section Runs

variable {file : Option Nat} {events : List Event} {final : World}

/-- In every run the status of the reader is true. -/
theorem truthful_of_run
    (ran : (step stDev).run (start file) events = some final) :
    Truthful final := by
  refine (Machine.run_invariant (fun world => Called world ∧ Truthful world) ?_
    ⟨?_, ?_⟩ ran).2
  · rintro world event next ⟨called, truthful⟩ stepped
    exact ⟨called.step stepped, truthful.step called stepped⟩
  · constructor <;> simp [World.start, World.reader, World.writer]
  · constructor <;> simp [World.start, World.reader, World.writer]

/-- Every state leads to one where nothing can happen any more. -/
theorem exists_stopped (stDev : Nat) (world : World) :
    ∃ events final, (step stDev).run world events = some final ∧
      Stopped stDev final := by
  obtain ⟨events, final, ran, stopped, _⟩ :=
    Machine.exists_run_to_end (fun _ => True)
    World.remaining (fun _ _ _ (_ : True) stepped =>
      (step_advances stepped).remaining_lt)
    (fun _ event next stepped => ⟨event, next, trivial, stepped⟩) world
  exact ⟨events, final, ran, stopped⟩

/-- The calls of one process in a run are bounded, whatever the other one
does. -/
theorem countP_role_le (ran : (step stDev).run (start file) events = some final)
    (role : Role) :
    events.countP (fun event => event.role = role) ≤ role.calls + 4 := by
  refine Nat.le_of_add_right_le
    (Machine.countP_add_le (fun event : Event => event.role = role)
      (fun world : World => (world.procs role).pc.remaining role) ?_ ran)
  intro world event next stepped
  have advances := step_advances stepped
  by_cases same : event.role = role
  · have closer := same ▸ advances.closer
    rw [if_pos same]
    omega
  · have others := advances.others role
    rw [if_neg same]
    omega

/-- The reader makes at most five calls and the writer seven, `fclose` aside,
whatever their order, and where neither can go on the run has one of the
outcomes. From everywhere a run can go on to one of them. -/
theorem run_outcome (ran : (step stDev).run (start file) events = some final) :
    events.countP (fun event => event.role = .reader) ≤ 5 ∧
      events.countP (fun event => event.role = .writer) ≤ 7 ∧
      (Stopped stDev final → Outcome final) ∧
      ∃ more last, (step stDev).run final more = some last ∧
        Stopped stDev last :=
  ⟨countP_role_le ran .reader, countP_role_le ran .writer,
    fun stopped => stopped.outcome (truthful_of_run ran),
    exists_stopped stDev final⟩

/-- The reader that comes when the writer has gone waits for good, on a queue
that it has created itself. -/
theorem run_outcome_writerFirst :
    ∃ final, (step 0).run (start none) writerFirst = some final ∧
      Stopped 0 final ∧
      Outcome final ∧ final.reader.pc = .blocked ∧
      final.writer.pc = .exited 0 := by
  have reached : ((step 0).run (start none) writerFirst).map (fun world =>
      (world.reader.pc, world.writer.pc)) = some (.blocked,
        .exited 0) := by decide
  obtain ⟨final, ran, pcs⟩ := Option.map_eq_some_iff.mp reached
  obtain ⟨blocked, exited⟩ := Prod.mk.inj pcs
  have stopped : Stopped 0 final := by
    intro event
    rw [World.reader] at blocked
    rw [World.writer] at exited
    cases event with
    | fopen role | fopenAppend role | ftok role | msgget role =>
        cases role <;> simp [World.step, blocked, exited]
    | msgrcv | msgsnd | msgctl | unlink =>
        simp [World.step, World.reader, World.writer, blocked, exited]
  exact ⟨final, ran, stopped, (run_outcome ran).2.2.1 stopped, blocked, exited⟩

end Runs

end MessageQueue
end LinuxCPractice
