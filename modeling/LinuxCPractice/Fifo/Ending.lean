import LinuxCPractice.Fifo.Imbalance

/-!
# Where the processes stop

No process runs for ever, and none is left inside `read` or `write`: whoever
waits for a writer there has one that can go on. Only `open` can block for good,
and then with nobody at the other end.
-/

namespace LinuxCPractice
namespace Fifo

open World

variable {count : Nat} {world next : World} {event : Event}

/-! ## The length of a run -/

/-- The kind of process that makes the call. -/
def Event.role : Event → Role
  | .mkfifo role _ _ | .open_ role _ _ | .close role _
  | .unlink role _ _ => role
  | .read _ => .reader
  | .write _ => .writer

/-- How many calls of its own the process has still to make at most. It does not
leave `open` by itself when it is blocked there. -/
def Pc.calls : Pc → Nat
  | .mkfifo => 5
  | .open_ => 4
  | .opening _ | .transfer _ => 3
  | .close _ => 2
  | .unlink => 1
  | .exited _ | .killed => 0

/-- A call is one of those of the process that makes it, and no other process
gets further away from its end. -/
theorem calls_le_of_step (stepped : World.step count world event = some next)
    (role : Role)
    (number : Nat) :
    (if event.role = role ∧ event.number = number then 1 else 0) +
        (next.procs role number).calls ≤ (world.procs role number).calls := by
  obtain ⟨_, transition⟩ := transition_of_step stepped
  clear stepped
  cases transition <;> grind [Pc.calls, Event.role, Event.number]

/-- The calls of one process in a run are bounded, whatever the others do. -/
theorem countP_process_le {name : Option Nat} {events : List Event}
    {final : World}
    (ran : (World.step count).run (start name) events = some final)
    (role : Role)
    (number : Nat) :
    events.countP (fun event => event.role = role ∧
      event.number = number) ≤ 5 :=
  Nat.le_of_add_right_le (Machine.countP_add_le
    (fun event : Event => event.role = role ∧ event.number = number)
    (fun world : World => (world.procs role number).calls)
    (fun _ _ _ stepped => calls_le_of_step stepped role number) ran)

/-! ## Statuses -/

/-- Who has exited has returned 0 or 2, and only writers are killed. -/
structure Exits (world : World) : Prop where
  status : ∀ role number status, world.procs role number = .exited status →
    status = 0 ∨ status = 2
  killed : ∀ role number, world.procs role number = .killed → role = .writer

/-- A process that ends has called `unlink` or failed. -/
theorem Exits.step (exits : Exits world)
    (stepped : World.step count world event = some next) :
    Exits next := by
  obtain ⟨_, transition⟩ := transition_of_step stepped
  clear stepped
  obtain ⟨status, killed⟩ := exits
  constructor
  · intro role number code exited
    have before := status role number code
    cases transition <;> grind
  · intro role number isKilled
    have before := killed role number
    cases transition <;> grind

/-! ## Nothing more can happen -/

/-- How a process is left: at its end or blocked inside `open` with nobody at
the other end of its FIFO. -/
def World.Left (world : World) (role : Role) (number : Nat) : Prop :=
  match world.procs role number with
  | .exited status => status = 0 ∨ status = 2
  | .killed => role = .writer
  | .opening inode => ∀ other, ¬(world.procs role.other other).Holds inode
  | .mkfifo | .open_ | .transfer _ | .close _ | .unlink => False

/-- A reader inside `read` has a message, or nobody can send one, or its writer
can go on. -/
theorem Stopped.not_reading (stopped : Stopped count world)
    (idle : Idle count world)
    (ends : Ends world) (number inode : Nat) :
    world.procs .reader number ≠ .transfer inode := by
  intro waits
  have active := idle.lt .reader number (by simp [waits])
  have empty := stopped.messages_eq_nil idle waits
  have written : (world.pipes inode).ends .writer ≠ [] := by
    intro unwritten
    have none := stopped (.read number)
    simp [World.step, Event.number, active, call, waits, World.read, empty,
      unwritten] at none
  obtain ⟨writer, isHeld⟩ := List.exists_mem_of_ne_nil _ written
  rcases (ends.mem inode .writer writer).mp isHeld with opening | transfer
    | close
  · exact ends.alone inode .writer writer number opening (.inr (.inl waits))
  · exact stopped.not_writing idle writer inode (.inl transfer)
  · exact stopped.not_writing idle writer inode (.inr close)

/-- When nothing can happen any more, each process has ended or waits in
`open`. -/
theorem Stopped.left (stopped : Stopped count world) (idle : Idle count world)
    (ends : Ends world) (exits : Exits world) (role : Role) {number : Nat}
    (active : number < count) : world.Left role number := by
  rw [World.Left]
  cases pc : world.procs role number with
  | mkfifo =>
      have none := stopped (.mkfifo role number none)
      simp [World.step, Event.number, active, call, pc, World.mkfifo] at none
  | open_ =>
      have none := stopped (.open_ role number false)
      simp [World.step, Event.number, active, call, pc, World.open_] at none
  | opening inode => exact fun other => ends.alone inode role number other pc
  | transfer inode =>
      cases role with
      | reader => exact stopped.not_reading idle ends number inode pc
      | writer => exact stopped.not_writing idle number inode (.inl pc)
  | close inode =>
      have none := stopped (.close role number)
      simp [World.step, Event.number, active, call, pc] at none
  | unlink =>
      have none := stopped (.unlink role number true)
      simp [World.step, Event.number, active, call, pc] at none
  | exited status => exact exits.status role number status pc
  | killed => exact exits.killed role number pc

/-! ## Whole runs -/

section Runs

variable {name : Option Nat} {events : List Event} {final : World}

/-- In every run the processes end as they should. -/
theorem exits_of_run
    (ran : (World.step count).run (start name) events = some final) :
    Exits final := by
  refine Machine.run_invariant Exits (fun _ _ _ exits stepped =>
    exits.step stepped) ?_ ran
  constructor <;> simp [start]

/-- Each process makes five calls at most, and where no process can make a step,
each has come to its end or is blocked inside `open` with nobody at the other
end, so that never a reader and a writer are left blocked on one FIFO. From
everywhere a run can go on to such an end. -/
theorem run_stops
    (ran : (World.step count).run (start name) events = some final) :
    (∀ role number,
        events.countP (fun event => event.role = role ∧
          event.number = number) ≤ 5) ∧
      (Stopped count final →
        (∀ role number, number < count → final.Left role number) ∧
        ∀ reader writer inode, final.procs .reader reader = .opening inode →
          final.procs .writer writer ≠ .opening inode) ∧
      ∃ more last, (World.step count).run final more = some last ∧
        Stopped count last := by
  have sound := sound_of_run ran
  refine ⟨countP_process_le ran, ?_, ?_⟩
  · intro stopped
    refine ⟨fun role number active =>
      stopped.left sound.idle sound.ends (exits_of_run ran) role active, ?_⟩
    intro reader writer inode blocked blockedOther
    exact sound.ends.alone inode .reader reader writer blocked
      (.inl blockedOther)
  · obtain ⟨more, last, ranOn, stopped, _⟩ := exists_stopped count final
    exact ⟨more, last, ranOn, stopped⟩

/-- The writer cannot open the FIFO in which the reader waits for it. -/
def writerFails : List Event :=
  [.mkfifo .reader 0 (some 7), .open_ .reader 0 true, .mkfifo .writer 0 none,
    .open_ .writer 0 false]

/-- A writer that fails leaves its reader in `open`. -/
theorem run_stops_writerFails :
    ∃ final, (World.step 1).run (start none) writerFails = some final ∧
      Stopped 1 final ∧
      final.procs .reader 0 = .opening 7 ∧ final.Left .reader 0 ∧
      final.Left .writer 0 := by
  have reached : ((World.step 1).run (start none) writerFails).map
      (fun world => (world.procs .reader 0, world.procs .writer 0)) =
        some (.opening 7, .exited 2) := by decide
  obtain ⟨final, ran, pcs⟩ := Option.map_eq_some_iff.mp reached
  obtain ⟨reader, writer⟩ := Prod.mk.inj pcs
  have stopped : Stopped 1 final := by
    intro event
    rw [World.step]
    split
    case isTrue active =>
      have only := Nat.lt_one_iff.mp active
      cases event with
      | mkfifo role | open_ role | close role | unlink role =>
          cases role <;> simp_all [Event.number, call]
      | read | write => simp_all [Event.number, call]
    case isFalse => rfl
  have left := ((run_stops ran).2.1 stopped).1
  exact ⟨final, ran, stopped, reader, left .reader 0 (by decide),
    left .writer 0 (by decide)⟩

end Runs

end Fifo
end LinuxCPractice
