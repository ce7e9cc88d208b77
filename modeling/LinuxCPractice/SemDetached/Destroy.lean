import LinuxCPractice.SemDetached.Defs

/-!
# Destroying the semaphore

Nothing joins the threads before `sem_destroy`, which `main` calls as soon as it
has created the last of them. The semaphore is used properly when all threads
have left it by then, and only then can nothing go wrong afterwards.
-/

namespace LinuxCPractice
namespace SemDetached

open Process

/-- `sem_destroy` is called while no thread is blocked in `sem_wait`, and no
thread calls `sem_wait` or `sem_post` after it. -/
def ProperUse (process : Process) : Event → Prop
  | .main _ => process.main = .destroy → .blocked ∉ process.threads
  | .thread _ => process.destroyed = false
  | .tick _ => True

/-- `sem_destroy` is called when every thread created has called `sem_post`. -/
def AllPosted (process : Process) : Event → Prop
  | .main _ => process.main = .destroy → ∀ pc ∈ process.threads, pc = .done
  | _ => True

instance (process : Process) (event : Event) :
    Decidable (ProperUse process event) := by
  unfold ProperUse
  split <;> infer_instance

instance (process : Process) (event : Event) :
    Decidable (AllPosted process event) := by
  unfold AllPosted
  split <;> infer_instance

/-- After `sem_destroy` no thread has anything left to do. -/
def LeftAlone (process : Process) : Prop :=
  process.destroyed = true → (∀ pc ∈ process.threads, pc = .done) ∧
    (process.main = .exited ∨ ∃ wake, process.main = .sleepLast wake)

@[simp] theorem wait_destroyed (process : Process) (number : Nat) :
    (process.wait number).destroyed = process.destroyed := by
  unfold wait
  split <;> rfl

/-- A thread that makes a step is not done. -/
theorem exists_thread_of_threadStep {process next : Process} {number : Nat}
    (stepped : process.threadStep number = some next) :
    next.destroyed = process.destroyed ∧ ∃ pc ∈ process.threads,
      pc ≠ .done := by
  unfold threadStep at stepped
  split at stepped
  · cases stepped
  · split at stepped
    case h_1 found =>
      cases stepped
      exact ⟨wait_destroyed process number, _, List.mem_of_getElem? found,
        by simp⟩
    case h_2 found =>
      split at stepped
      · cases stepped
      · cases stepped
        exact ⟨wait_destroyed process number, _, List.mem_of_getElem? found,
          by simp⟩
    case h_3 found =>
      obtain ⟨_, equal⟩ := Option.ite_none_right_eq_some.mp stepped
      cases equal
      exact ⟨rfl, _, List.mem_of_getElem? found, by simp⟩
    case h_4 | h_5 => cases stepped

/-- `main` destroys the semaphore, exits behind its last sleep, or is not yet
there. -/
theorem mainStep_cases {process next : Process} {succeeds : Bool}
    (stepped : process.mainStep succeeds = some next) :
    (process.main = .destroy ∧ next =
        { process with destroyed := true, main := .sleepLast (process.now + 30) }) ∨
      (∃ wake, process.main = .sleepLast wake ∧
        next = { process with main := .exited }) ∨
      (process.main ≠ .exited ∧ (∀ wake, process.main ≠ .sleepLast wake) ∧
        next.destroyed = process.destroyed) := by
  unfold mainStep at stepped
  split at stepped
  case h_1 pc =>
    cases stepped
    exact .inr (.inr (by simp [pc]))
  case h_2 pc =>
    cases stepped
    exact .inr (.inr (by cases succeeds <;> simp [pc, proceed]))
  case h_3 pc =>
    cases stepped
    exact .inr (.inr (by simp [pc, proceed, create]))
  case h_4 pc =>
    obtain ⟨_, equal⟩ := Option.ite_none_right_eq_some.mp stepped
    cases equal
    exact .inr (.inr (by simp [pc]))
  case h_5 pc =>
    cases stepped
    exact .inl ⟨pc, rfl⟩
  case h_6 wake pc =>
    obtain ⟨_, equal⟩ := Option.ite_none_right_eq_some.mp stepped
    cases equal
    exact .inr (.inl ⟨wake, pc, rfl⟩)
  case h_7 => cases stepped

/-- A semaphore that is left alone stays so if all threads have posted. -/
theorem LeftAlone.step {process next : Process} {event : Event}
    (alone : LeftAlone process)
    (posted : AllPosted process event)
    (stepped : Process.step process event = some next) :
    LeftAlone next := by
  cases event with
  | tick duration =>
      cases stepped
      exact alone
  | main succeeds =>
      rcases mainStep_cases stepped with ⟨pc, rfl⟩ | ⟨wake, pc, rfl⟩ | ⟨notExited, awake, same⟩
      · exact fun _ => ⟨posted pc, .inr ⟨_, rfl⟩⟩
      · exact fun destroyed => ⟨(alone destroyed).1, .inl rfl⟩
      · intro destroyed
        obtain ⟨_, exited | ⟨wake, sleeps⟩⟩ := alone (same ▸ destroyed)
        · exact absurd exited notExited
        · exact absurd sleeps (awake wake)
  | thread number =>
      intro destroyed
      obtain ⟨same, pc, present, notDone⟩ := exists_thread_of_threadStep stepped
      exact absurd ((alone (same ▸ destroyed)).1 pc present) notDone

/-- A semaphore that is left alone is used properly. -/
theorem LeftAlone.properUse {process next : Process} {event : Event}
    (alone : LeftAlone process)
    (posted : AllPosted process event)
    (stepped : Process.step process event = some next) :
    ProperUse process event := by
  cases event with
  | tick duration => trivial
  | main succeeds =>
      intro pc blocked
      cases posted pc _ blocked
  | thread number =>
      obtain ⟨_, pc, present, notDone⟩ := exists_thread_of_threadStep stepped
      change process.destroyed = false
      by_contra destroyed
      exact notDone ((alone (by simpa using destroyed)).1 pc present)

/-! ## Threads that are not done -/

/-- What a thread that is not done may do after `sem_destroy`. -/
theorem exists_threadStep {process : Process} {number : Nat} {pc : ThreadPc}
    (found : process.threads[number]? = some pc) (notDone : pc ≠ .done)
    (notBlocked : pc ≠ .blocked) (running : process.main ≠ .exited) :
    ∃ duration next,
      step.run process [.tick duration, .thread number] = some next := by
  cases pc with
  | start => exact ⟨0, by simp [Process.step, threadStep, found, running]⟩
  | blocked => exact absurd rfl notBlocked
  | inside wake =>
      refine ⟨wake - process.now, ?_⟩
      have late : wake ≤ process.now + (wake - process.now) := by omega
      simp [Process.step, threadStep, found, running, late]
  | done => exact absurd rfl notDone

/-- After `sem_destroy` a step of a thread is an improper use. -/
theorem not_everyStep_thread {process : Process}
    (destroyed : process.destroyed = true)
    (duration number : Nat) :
    ¬step.EveryStep ProperUse process [.tick duration, .thread number] := by
  rintro ⟨_, later⟩
  have unused := (later _ rfl).1
  simp [ProperUse, destroyed] at unused

/-- If every thread created has called `sem_post` by the time of `sem_destroy`,
the semaphore is used properly throughout. Any run in which one has not may,
from there on, go on to an improper use. -/
theorem properUse_of_allPosted {value count : Nat} {events : List Event}
    {final : Process}
    (ran : step.run (start value count) events = some final) :
    (step.EveryStep AllPosted (start value count) events →
        step.EveryStep ProperUse (start value count) events) ∧
      (¬step.EveryStep AllPosted (start value count) events → ∃ past more next,
        past <+: events ∧
          step.run (start value count) (past ++ more) = some next ∧
          ¬step.EveryStep ProperUse (start value count) (past ++ more)) := by
  constructor
  · exact Machine.everyStep_of_everyStep LeftAlone
      (fun _ _ _ alone posted stepped => alone.step posted stepped)
      (fun _ _ _ alone posted stepped => alone.properUse posted stepped)
      (fun destroyed => by cases destroyed) ran
  · intro fails
    obtain ⟨past, event, rest, middle, next, split, ranPast, stepped,
      notPosted⟩ :=
      Machine.exists_not_meets_of_not_everyStep ran fails
    cases event with
    | tick | thread => exact absurd trivial notPosted
    | main succeeds =>
        simp only [AllPosted, Classical.not_imp, not_forall] at notPosted
        obtain ⟨pc, threadPc, present, notDone⟩ := notPosted
        by_cases isBlocked : threadPc = .blocked
        · refine ⟨past, [.main succeeds], next, ⟨_, split⟩, ?_, ?_⟩
          · exact Machine.run_concat_eq_some_iff.mpr ⟨middle, ranPast, stepped⟩
          · rw [Machine.everyStep_append_iff ranPast]
            rintro ⟨_, proper, _⟩
            exact proper pc (isBlocked ▸ present)
        · have destroys : next =
              { middle with destroyed := true, main := .sleepLast (middle.now + 30) } := by
            rw [Process.step, mainStep, pc] at stepped
            exact (Option.some.inj stepped).symm
          obtain ⟨number, found⟩ := List.mem_iff_getElem?.mp present
          have foundNext : next.threads[number]? = some threadPc := by
            rw [destroys, ← found]
          obtain ⟨duration, after, ranOn⟩ :=
            exists_threadStep foundNext notDone isBlocked (by simp [destroys])
          have ranDestroy : step.run (start value count)
              (past ++ [.main succeeds]) = some next :=
            Machine.run_concat_eq_some_iff.mpr ⟨middle, ranPast, stepped⟩
          refine ⟨past, [.main succeeds] ++ [.tick duration, .thread number],
            after, ⟨_, split⟩, ?_, ?_⟩
          · rw [← List.append_assoc, Machine.run_append, ranDestroy]
            exact ranOn
          · rw [← List.append_assoc, Machine.everyStep_append_iff ranDestroy]
            exact fun every =>
              not_everyStep_thread (by rw [destroys]) duration number every.2

/-- Two threads, the second of which is blocked behind the first. Both are done
when `main` gets to `sem_destroy`. -/
def secondBlocked : List Event :=
  [.main true, .main true, .main true, .thread 0, .tick 2, .main true,
    .main true,
    .thread 1, .tick 2, .thread 0, .thread 1, .tick 4, .thread 1, .main true]

/-- The second thread is blocked until the first one posts. -/
theorem properUse_of_allPosted_secondBlocked :
    (step.run (start 1 2) (secondBlocked.take 8)).map Process.threads =
        some [.inside 4, .blocked] ∧
      step.EveryStep ProperUse (start 1 2) secondBlocked := by
  have reached : (step.run (start 1 2) secondBlocked).isSome = true := by decide
  obtain ⟨final, ran⟩ := Option.isSome_iff_exists.mp reached
  exact ⟨by decide, (properUse_of_allPosted ran).1 (by decide)⟩

/-- The three threads of `main`, the first in its critical section and the
others blocked behind it, each started two seconds after the one before. -/
def threeThreads : List Event :=
  [.main true, .main true, .main true, .thread 0, .tick 2, .main true,
    .main true, .thread 1,
    .tick 2, .main true, .main true, .thread 2, .main true]

/-- `main` destroys the semaphore while two threads are blocked in
`sem_wait`. -/
theorem not_properUse_threeThreads :
    ∃ final, step.run (start 1 3) threeThreads = some final ∧
      final.destroyed = true ∧
      final.threads = [.inside 4, .blocked, .blocked] ∧
      ¬step.EveryStep ProperUse (start 1 3) threeThreads :=
  ⟨⟨4, .sleepLast 34, 0, [.inside 4, .blocked, .blocked], 0, true⟩, by decide,
    rfl, rfl, by decide⟩

end SemDetached
end LinuxCPractice
