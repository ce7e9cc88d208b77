import LinuxCPractice.ThreadMutex.Main

/-!
# What `main` returns of the threads

Where `main` stands decides which threads have returned, which of their texts
are printed and which of their buffers are freed.
-/

namespace LinuxCPractice
namespace ThreadMutex

/-! ## What `main` has done at each place -/

namespace Program

/-- What `main` prints of the threads of these callers. -/
def announced (callers : List (Option Int32 × Int32)) :
    List (Nat × Option String) :=
  callers.mapIdx fun number caller => (number, some s!"retval {caller.2}")

/-- All threads have been created; of the first ones so many have returned, so
many are printed and so many buffers freed. -/
structure Joined (program : Program) (joined printed freed : Nat) : Prop where
  all : program.process.threads.length = program.callers.length
  joined : ∀ number < joined, ∃ thread,
    program.process.threads[number]? = some thread ∧ thread.pc = .returned
  returned : program.returned = (announced program.callers).take printed
  freed : program.freed = List.range freed

/-- What holds where `main` stands. -/
def Place (program : Program) : MainPc → Prop
  | .mutexInit =>
      program.process.threads = [] ∧ program.returned = [] ∧ program.freed = []
  | .create => program.process.threads.length ≤ program.callers.length ∧
      program.returned = [] ∧ program.freed = []
  | .join number => program.Joined number number number
  | .printReturned number =>
      program.Joined (number + 1) number number ∧
        program.retvalPtr = some number
  | .free number =>
      program.Joined (number + 1) (number + 1) number ∧
        program.retvalPtr = some number
  | .destroy => program.Joined program.callers.length program.callers.length
      program.callers.length
  | .exitFailure _ => program.returned = [] ∧ program.freed = []
  | .exitSuccess => program.Joined program.callers.length program.callers.length
      program.callers.length ∧ program.process.lock = none
  | .undefined => False

/-- The invariant of the program. -/
structure Managed (program : Program) : Prop where
  serial : ∃ order, Serial program.callers program.view order
  tids : program.process.threads.map Thread.tid =
    (program.callers.take program.process.threads.length).map Prod.snd
  buffered : ∀ thread ∈ program.process.threads, thread.Buffered
  place : program.Place program.main

/-! ## The invariant -/

section Threads

variable {program : Program} {process : Process} {event : Event}

/-- The threads joined stay so. -/
theorem Joined.thread {joined printed freed : Nat}
    (isJoined : program.Joined joined printed freed)
    (stepped : Process.step program.process event = some process) :
    Joined { program with process := process } joined printed freed where
  all := (length_threads_of_step stepped).trans isJoined.all
  joined := by
    intro number isBefore
    obtain ⟨thread, found, returned⟩ := isJoined.joined number isBefore
    rcases advances_of_step stepped with
      ⟨_, other, changed, foundOther, threads, advances⟩ | ⟨_, threads, _⟩
    · have different : event.number ≠ number := by
        rintro rfl
        obtain rfl : other = thread :=
          Option.some.inj (foundOther.symm.trans found)
        exact advances.running returned
      exact ⟨thread, by rwa [threads, List.getElem?_set_ne different], returned⟩
    · exact ⟨thread, by rwa [threads], returned⟩
  returned := isJoined.returned
  freed := isJoined.freed

/-- A step of a thread leaves `main` where it fits. -/
theorem Place.thread {pc : MainPc} (place : program.Place pc)
    (running : pc ≠ .exitSuccess)
    (stepped : Process.step program.process event = some process) :
    Place { program with process := process } pc := by
  have sameLength := length_threads_of_step stepped
  cases pc with
  | mutexInit =>
      obtain ⟨none, rest⟩ := place
      rw [none, List.length_nil] at sameLength
      exact ⟨List.length_eq_zero_iff.mp sameLength, rest⟩
  | create => exact ⟨sameLength.trans_le place.1, place.2⟩
  | join number | destroy => exact Joined.thread place stepped
  | printReturned number | free number =>
      exact ⟨place.1.thread stepped, place.2⟩
  | exitFailure message | undefined => exact place
  | exitSuccess => exact absurd rfl running

theorem running_of_status (running : program.status = none) :
    program.process.failure = none ∧ program.main ≠ .exitSuccess := by
  unfold status at running
  split at running
  · refine ⟨‹_›, fun exited => ?_⟩
    simp [exited] at running
  · cases running

/-- A step of a thread keeps the invariant. -/
theorem Managed.thread (managed : program.Managed)
    (running : program.status = none)
    (stepped : Process.step program.process event = some process) :
    Managed { program with process := process } where
  serial := by
    obtain ⟨order, serial⟩ := managed.serial
    exact serial.step (view_of_thread stepped)
  tids := by
    simp only [length_threads_of_step stepped, ← managed.tids]
    rcases advances_of_step stepped with
      ⟨_, thread, changed, found, threads, advances⟩ | ⟨_, threads, _⟩
    · obtain ⟨bound, rfl⟩ := List.getElem?_eq_some_iff.mp found
      rw [threads, List.map_set, advances.tid]
      rw [← List.getElem_map Thread.tid (h := by simpa using bound),
        List.set_getElem_self]
    · rw [threads]
  buffered := by
    intro other present
    rcases advances_of_step stepped with
      ⟨_, thread, changed, found, threads, advances⟩ | ⟨_, threads, _⟩
    · rw [threads] at present
      rcases List.mem_or_eq_of_mem_set present with isOld | rfl
      · exact managed.buffered other isOld
      · exact advances.buffered
          (managed.buffered thread (List.mem_of_getElem? found))
    · rw [threads] at present
      exact managed.buffered other present
  place := managed.place.thread (running_of_status running).2 stepped

end Threads

section Main

variable {program next : Program} {number : Nat}

/-- The buffer of a thread that has returned. -/
theorem Managed.written {thread : Thread} (managed : program.Managed)
    (found : program.process.threads[number]? = some thread)
    (returned : thread.pc = .returned) :
    ∃ caller, program.callers[number]? = some caller ∧
      thread.buffer = .written s!"retval {caller.2}" := by
  obtain ⟨bound, _⟩ := List.getElem?_eq_some_iff.mp found
  have tid := congrArg (·[number]?) managed.tids
  simp only [List.getElem?_map, found, Option.map_some,
    List.getElem?_take_of_lt bound] at tid
  obtain ⟨caller, isCaller, same⟩ := Option.map_eq_some_iff.mp tid.symm
  refine ⟨caller, isCaller, ?_⟩
  rw [same]
  exact managed.buffered thread (List.mem_of_getElem? found) (.inr returned)

theorem Joined.fresh {joined printed : Nat}
    (isJoined : program.Joined joined printed number) :
    number ∉ program.freed := by
  simp [isJoined.freed]

theorem Joined.number_eq {printed freed : Nat}
    (isJoined : program.Joined number printed freed)
    (noneLeft : program.process.threads.length ≤ number) :
    number = program.callers.length := by
  have all := isJoined.all
  by_contra different
  obtain ⟨thread, found, _⟩ := isJoined.joined program.callers.length (by omega)
  have bound := (List.getElem?_eq_some_iff.mp found).1
  omega

theorem Managed.printReturned (managed : program.Managed)
    (place : program.Place (.printReturned number)) :
    (program.printReturned number).Place
      (program.printReturned number).main := by
  obtain ⟨isJoined, retvalPtr⟩ := place
  obtain ⟨thread, found, returned⟩ := isJoined.joined number (by omega)
  obtain ⟨caller, isCaller, written⟩ := managed.written found returned
  simp only [Program.printReturned, retvalPtr, found, Option.map_some, written,
    if_neg isJoined.fresh]
  refine ⟨⟨isJoined.all, isJoined.joined, ?_, isJoined.freed⟩, rfl⟩
  simp [isJoined.returned, announced, List.take_add_one, isCaller]

theorem Managed.freeReturned (place : program.Place (.free number)) :
    (program.freeReturned number).Place (program.freeReturned number).main := by
  obtain ⟨isJoined, retvalPtr⟩ := place
  simp only [Program.freeReturned, retvalPtr, if_neg isJoined.fresh]
  refine ⟨isJoined.all, isJoined.joined, isJoined.returned, ?_⟩
  simp [isJoined.freed, List.range_succ]

theorem Joined.noneLater {joined printed freed : Nat}
    (isJoined : program.Joined joined printed freed) :
    program.view = program.process := by
  simp [view, Process.withLater, isJoined.all]

theorem Joined.allReturned {printed freed : Nat}
    (isJoined : program.Joined program.callers.length printed freed) :
    program.process.AllReturned := by
  intro thread present
  obtain ⟨number, found⟩ := List.mem_iff_getElem?.mp present
  have bound := (List.getElem?_eq_some_iff.mp found).1
  obtain ⟨other, foundOther, returned⟩ :=
    isJoined.joined number (by rwa [isJoined.all] at bound)
  rwa [Option.some.inj (found.symm.trans foundOther)]

/-- When all threads have returned, nobody holds the mutex. -/
theorem Managed.free (managed : program.Managed)
    (place : program.Place .destroy) :
    program.process.lock = none := by
  obtain ⟨order, serial⟩ := managed.serial
  rw [Joined.noneLater place] at serial
  exact (serial.perm_range (Joined.allReturned place)).2

/-- A step of `main` goes on to a place that fits. -/
theorem Managed.mainPlace {succeeds : Bool} (managed : program.Managed)
    (stepped : program.mainStep succeeds = some next) :
    next.Place next.main := by
  have place := managed.place
  unfold mainStep at stepped
  split at stepped
  case h_1 pc =>
    cases stepped
    rw [pc] at place
    cases succeeds with
    | true => exact ⟨by simp [place.1], place.2⟩
    | false => exact place.2
  case h_2 pc =>
    rw [pc] at place
    split at stepped
    · rename_i caller isNext
      cases stepped
      have bound := (List.getElem?_eq_some_iff.mp isNext).1
      cases succeeds with
      | true =>
          simp only [if_true, createThread, pc]
          exact ⟨by simpa using Nat.succ_le_of_lt bound, place.2⟩
      | false => exact place.2
    · rename_i noneLeft
      cases stepped
      obtain ⟨most, returned, freed⟩ := place
      exact ⟨most.antisymm (List.getElem?_eq_none_iff.mp noneLeft), by simp,
        by simpa using returned, by simpa using freed⟩
  case h_3 number pc =>
    rw [pc] at place
    split at stepped
    · rename_i thread found
      obtain ⟨returned, equal⟩ := Option.ite_none_right_eq_some.mp stepped
      cases equal
      obtain ⟨caller, _, written⟩ := managed.written found returned
      refine ⟨⟨place.all, ?_, place.returned, place.freed⟩,
        by simp [returnValue, written]⟩
      intro other isBefore
      rcases Nat.lt_succ_iff_lt_or_eq.mp isBefore with isBefore | rfl
      · exact place.joined other isBefore
      · exact ⟨thread, found, returned⟩
    · rename_i noneLeft
      cases stepped
      rw [place.number_eq (List.getElem?_eq_none_iff.mp noneLeft)] at place
      exact ⟨place.all, place.joined, place.returned, place.freed⟩
  case h_4 number pc =>
    cases stepped
    rw [pc] at place
    exact managed.printReturned place
  case h_5 number pc =>
    cases stepped
    rw [pc] at place
    exact Managed.freeReturned place
  case h_6 pc =>
    cases stepped
    rw [pc] at place
    simp only [if_pos (managed.free place)]
    exact ⟨⟨place.all, place.joined, place.returned, place.freed⟩,
      managed.free place⟩
  all_goals cases stepped

/-- A step of `main` keeps the invariant. -/
theorem Managed.main {succeeds : Bool} (managed : program.Managed)
    (stepped : program.mainStep succeeds = some next) : next.Managed := by
  obtain ⟨sameView, sameCallers⟩ := view_of_main stepped
  have place := managed.mainPlace stepped
  have serial : ∃ order, Serial next.callers next.view order := by
    rw [sameView, sameCallers]
    exact managed.serial
  rcases proceeds_of_main stepped with ⟨same, _⟩ | ⟨caller, isNext, rfl⟩
  · exact ⟨serial, by rw [same, sameCallers]; exact managed.tids,
      by rw [same]; exact managed.buffered, place⟩
  · refine ⟨serial, ?_, ?_, place⟩
    · simp only [createThread, List.length_append, List.length_singleton,
        List.take_add_one, List.map_append, managed.tids, isNext]
      rfl
    · intro thread present
      rw [createThread, List.mem_append, List.mem_singleton] at present
      rcases present with isOld | rfl
      · exact managed.buffered thread isOld
      · exact Thread.buffered_start caller

end Main

theorem managed_start (callers : List (Option Int32 × Int32)) :
    (start callers).Managed where
  serial := ⟨[], serial_start callers⟩
  tids := rfl
  buffered := by simp [start, Process.start]
  place := ⟨rfl, rfl, rfl⟩

/-- In every run `main` joins and frees as it should. -/
theorem managed_of_run {callers : List (Option Int32 × Int32)}
    {events : List MainEvent}
    {final : Program} (ran : step.run (start callers) events = some final) :
    final.Managed ∧ final.callers = callers := by
  refine Machine.run_invariant (fun program => program.Managed ∧
    program.callers = callers) ?_
    ⟨managed_start callers, rfl⟩ ran
  rintro program event next ⟨managed, same⟩ stepped
  obtain ⟨running, moves⟩ := moves_of_step stepped
  cases moves with
  | main can => exact ⟨managed.main can, (view_of_main can).2.trans same⟩
  | thread can => exact ⟨managed.thread running can, same⟩

/-! ## What `main` returns of the threads -/

/-- What `main` has printed is the beginning of what it announces. -/
theorem Place.returned_announced {program : Program} {pc : MainPc}
    (place : program.Place pc) :
    program.returned <+: announced program.callers := by
  cases pc with
  | mutexInit | create | exitFailure message => simp_all [Place]
  | join number | destroy =>
      rw [Joined.returned place]
      exact List.take_prefix ..
  | printReturned number | free number | exitSuccess =>
      rw [place.1.returned]
      exact List.take_prefix ..
  | undefined => exact place.elim

theorem Joined.freed_joined {program : Program}
    {joined printed freed number : Nat}
    (isJoined : program.Joined joined printed freed) (most : freed ≤ joined)
    (isFreed : number ∈ program.freed) :
    ∃ thread, program.process.threads[number]? = some thread ∧
      thread.pc = .returned := by
  rw [isJoined.freed, List.mem_range] at isFreed
  exact isJoined.joined number (by omega)

/-- What is freed belongs to a thread that has returned. -/
theorem Place.freed_joined {program : Program} {pc : MainPc} {number : Nat}
    (place : program.Place pc) (isFreed : number ∈ program.freed) :
    ∃ thread, program.process.threads[number]? = some thread ∧
      thread.pc = .returned := by
  cases pc with
  | mutexInit | create | exitFailure message => simp_all [Place]
  | join number | destroy => exact Joined.freed_joined place le_rfl isFreed
  | printReturned number | free number =>
      exact place.1.freed_joined (by omega) isFreed
  | exitSuccess => exact place.1.freed_joined le_rfl isFreed
  | undefined => exact place.elim

/-- Nothing is freed twice. -/
theorem Place.freed_nodup {program : Program} {pc : MainPc}
    (place : program.Place pc) :
    program.freed.Nodup := by
  cases pc with
  | mutexInit | create | exitFailure message => simp_all [Place]
  | join number | destroy => exact Joined.freed place ▸ List.nodup_range
  | printReturned number | free number | exitSuccess =>
      exact place.1.freed ▸ List.nodup_range
  | undefined => exact place.elim

end Program

open Program

/-- A run of the program is one of the threads under the mutex. `main` never
uses a buffer too early or too late and frees none twice; it prints what the
threads return in the order of their creation, each with its own identifier; and
when it exits successfully, all is printed and freed, each thread has counted,
and the mutex that it destroyed was free. -/
theorem run_main {callers : List (Option Int32 × Int32)}
    {events : List MainEvent}
    {final : Program}
    (ran : Program.step.run (Program.start callers) events = some final) :
    (∃ moves,
      Process.step.run (Process.start callers) moves = some final.view) ∧
      final.main ≠ .undefined ∧ final.returned <+: announced callers ∧
      final.freed.Nodup ∧
      (∀ number ∈ final.freed, ∃ thread,
        final.process.threads[number]? = some thread ∧ thread.pc = .returned) ∧
      (final.main = .exitSuccess →
        final.returned = announced callers ∧
        final.freed = List.range callers.length ∧
          final.process.AllReturned ∧ final.process.lock = none ∧
          final.process.sharedCounter = Int32.ofNat callers.length) := by
  obtain ⟨managed, rfl⟩ := managed_of_run ran
  have place := managed.place
  refine ⟨⟨_, run_view ran⟩, ?_, place.returned_announced, place.freed_nodup,
    fun number isFreed => place.freed_joined isFreed, fun exited => ?_⟩
  · intro undefined
    rwa [undefined] at place
  · rw [exited] at place
    obtain ⟨isJoined, free⟩ := place
    obtain ⟨order, serial⟩ := managed.serial
    have returned := isJoined.allReturned
    refine ⟨?_, isJoined.freed, returned, free, ?_⟩
    · rw [isJoined.returned, announced, ← List.length_mapIdx, List.take_length]
    · exact (serial.of_allReturned (isJoined.noneLater ▸ returned)).2

/-- The second thread takes the mutex first and is joined last. -/
def secondFirst : List MainEvent :=
  List.replicate 4 (.main true) ++ List.replicate 10 (.thread ⟨1, true⟩) ++
    List.replicate 10 (.thread ⟨0, true⟩) ++ List.replicate 8 (.main true)

/-- The second of two threads passes first. -/
theorem run_main_secondFirst :
    ∃ final, Program.step.run (ofTids 531 532) secondFirst = some final ∧
      final.process.output = [.passed 1 20, .counter 1 1, .passed 0 10,
        .counter 0 2] ∧
      final.returned = announced [(some 10, 531), (some 20, 532)] ∧
      final.freed = [0, 1] := by
  have reached :
      (Program.step.run (ofTids 531 532) secondFirst).map (fun final =>
        (final.process.output, final.main)) =
      some ([.passed 1 20, .counter 1 1, .passed 0 10, .counter 0 2],
        .exitSuccess) := by decide
  obtain ⟨final, ran, values⟩ := Option.map_eq_some_iff.mp reached
  obtain ⟨output, exited⟩ := Prod.mk.inj values
  obtain ⟨returned, freed, _⟩ := (run_main ran).2.2.2.2.2 exited
  exact ⟨final, ran, output, returned, freed⟩

end ThreadMutex
end LinuxCPractice
