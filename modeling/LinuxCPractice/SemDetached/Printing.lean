import LinuxCPractice.SemDetached.Defs
import LinuxCPractice.Descriptor
import Mathlib.Data.List.Perm.Subperm

/-!
# What the detached threads print

The statements of `thread` between `sem_wait` and `sem_post` one by one, over
the steps of the process. The semaphore lets at most as many threads in as its
initial value says, and so the lines they print show at most as many inside at a
time. With the value one the semaphore works like a mutex.
-/

namespace LinuxCPractice
namespace SemDetached

open Process

/-! ## Statements -/

/-- Where a thread stands between `sem_wait` and `sem_post`: at the first
`printf`, in its sleep, at the second `printf` or at `sem_post`. -/
inductive Place
  | enter
  | sleep (wake : Nat)
  | exit
  | post
  deriving DecidableEq

/-- A thread prints that it has entered as it opens its section, and that it is
just exiting as it closes it. -/
abbrev Line : Type := Use Nat

/-- The text of a line is the same for all threads. -/
def Line.text : Line → String
  | .opens _ => "\nEntered..\n"
  | .closes _ => "\nJust Exiting...\n"

/-- The process with the places of the threads that are inside, and its
output. -/
structure Program where
  process : Process
  places : Nat → Place
  output : List Line

namespace Program

/-- The program before `main` has created a thread. -/
def start (value count : Nat) : Program where
  process := Process.start value count
  places := fun _ => .enter
  output := []

/-- A thread that goes on to another place in its section. -/
def goto (program : Program) (number : Nat) (place : Place) : Program :=
  { program with places := Function.update program.places number place }

/-- A thread outside its section, or at the `sem_post` that ends it. -/
def callSem (program : Program) (number : Nat) : Option Program :=
  (program.process.threadStep number).map fun process =>
    { program.goto number .enter with process := process }

/-- One statement of `thread`. The threads end with the process. -/
def threadStep (program : Program) (number : Nat) : Option Program :=
  match program.process.threads[number]? with
  | some (.inside _) =>
      if program.process.main = .exited then none
      else
        match program.places number with
        | .enter => some
            { program.goto number (.sleep (program.process.now + 4)) with
              output := program.output ++ [.opens number] }
        | .sleep wake =>
            if wake ≤ program.process.now then some (program.goto number .exit)
            else none
        | .exit => some
            { program.goto number .post with
                output := program.output ++ [.closes number] }
        | .post => program.callSem number
  | _ => program.callSem number

/-- One step of the program. -/
def step : Machine Program Event := fun program event =>
  match event with
  | .thread number => program.threadStep number
  | .tick _ | .main _ =>
      (Process.step program.process event).map fun process =>
        { program with process := process }

end Program

/-! ## The semaphore -/

/-- What a step of a thread does: it blocks in `sem_wait`, enters or posts. -/
inductive Moves (process : Process) (number : Nat) : Process → Prop
  | blocks (found : process.threads[number]? = some .start) :
      Moves process number (process.setThread number .blocked)
  | enters {pc : ThreadPc} (found : process.threads[number]? = some pc)
      (outside : pc = .start ∨ pc = .blocked) (free : 0 < process.sem) :
      Moves process number
        { process.setThread number (.inside (process.now + 4)) with
            sem := process.sem - 1 }
  | posts {wake : Nat}
      (found : process.threads[number]? = some (.inside wake)) :
      Moves process number { process.setThread number .done with
          sem := process.sem + 1 }

/-- The steps of a thread are its moves. -/
theorem threadStep_moves {process next : Process} {number : Nat}
    (stepped : process.threadStep number = some next) :
    process.main ≠ .exited ∧ Moves process number next := by
  unfold Process.threadStep at stepped
  split at stepped
  · cases stepped
  · rename_i running
    refine ⟨running, ?_⟩
    split at stepped
    case h_1 found =>
      cases stepped
      unfold wait
      split
      · exact .blocks found
      · exact .enters found (.inl rfl) (by omega)
    case h_2 found =>
      obtain ⟨nonzero, equal⟩ := Option.ite_none_left_eq_some.mp stepped
      cases equal
      unfold wait
      rw [if_neg nonzero]
      exact .enters found (.inr rfl) (by omega)
    case h_3 found =>
      obtain ⟨_, equal⟩ := Option.ite_none_right_eq_some.mp stepped
      cases equal
      exact .posts found
    case h_4 | h_5 => cases stepped

/-- The thread is between `sem_wait` and `sem_post`. -/
def Inside (process : Process) (number : Nat) : Prop :=
  ∃ wake, process.threads[number]? = some (.inside wake)

/-- A thread that is set to a place inside or outside. -/
theorem inside_setThread {process : Process} {number : Nat} {old pc : ThreadPc}
    (found : process.threads[number]? = some old) (other : Nat) :
    Inside (process.setThread number pc) other ↔
      if other = number then ∃ wake, pc = .inside wake
      else Inside process other := by
  have bound := (List.getElem?_eq_some_iff.mp found).1
  unfold Inside setThread
  by_cases same : number = other
  · subst same
    simp [bound]
  · rw [List.getElem?_set_ne same, if_neg fun equal => same equal.symm]

/-- A thread moves only itself. -/
theorem Moves.others {process next : Process} {number other : Nat}
    (moves : Moves process number next) (different : other ≠ number) :
    next.threads[other]? = process.threads[other]? := by
  cases moves <;> exact List.getElem?_set_ne (Ne.symm different)

/-- A thread that is done does not move. -/
theorem Moves.not_done {process next : Process} {number : Nat}
    (moves : Moves process number next) :
    process.threads[number]? ≠ some .done := by
  cases moves with
  | blocks found | posts found => simp [found]
  | enters found outside free => rcases outside with rfl | rfl <;> simp [found]

/-- The thread is done if it was inside before. -/
theorem Moves.done_iff {process next : Process} {number : Nat}
    (moves : Moves process number next) :
    next.threads[number]? = some .done ↔ Inside process number := by
  cases moves with
  | blocks found =>
      obtain ⟨bound, same⟩ := List.getElem?_eq_some_iff.mp found
      simp [Inside, setThread, bound, same]
  | enters found outside free =>
      obtain ⟨bound, same⟩ := List.getElem?_eq_some_iff.mp found
      rcases outside with rfl | rfl <;> simp [Inside, setThread, bound, same]
  | posts found =>
      obtain ⟨bound, same⟩ := List.getElem?_eq_some_iff.mp found
      simp [Inside, setThread, bound, same]

/-- `main` may only add a thread that has not begun. -/
theorem mainStep_threads {process next : Process} {succeeds : Bool}
    (stepped : process.mainStep succeeds = some next) :
    next.sem = process.sem ∧
      (next.threads = process.threads ∨
        next.threads = process.threads ++ [.start]) := by
  unfold mainStep at stepped
  split at stepped
  case h_1 | h_5 =>
    cases stepped
    exact ⟨rfl, .inl rfl⟩
  case h_2 =>
    cases stepped
    cases succeeds <;> exact ⟨rfl, .inl rfl⟩
  case h_3 =>
    cases stepped
    cases succeeds
    · exact ⟨rfl, .inl rfl⟩
    · exact ⟨rfl, .inr rfl⟩
  case h_4 | h_6 =>
    obtain ⟨_, equal⟩ := Option.ite_none_right_eq_some.mp stepped
    cases equal
    exact ⟨rfl, .inl rfl⟩
  case h_7 => cases stepped

/-- A step of `main` leaves the threads in their sections. -/
theorem mainStep_inside {process next : Process} {succeeds : Bool}
    (stepped : process.mainStep succeeds = some next) (number wake : Nat) :
    next.threads[number]? = some (.inside wake) ↔
      process.threads[number]? = some (.inside wake) := by
  rcases (mainStep_threads stepped).2 with same | added
  · rw [same]
  · rw [added, List.getElem?_append]
    split
    · rfl
    · rename_i beyond
      rw [List.getElem?_eq_none (Nat.not_lt.mp beyond)]
      cases number - process.threads.length <;> simp

/-- A step of `main` takes no thread out of its section. -/
theorem inside_mainStep {process next : Process} {succeeds : Bool}
    (stepped : process.mainStep succeeds = some next) (number : Nat) :
    Inside next number ↔ Inside process number :=
  exists_congr fun wake => mainStep_inside stepped number wake

/-- `holders` are the threads that are inside. -/
structure Holders (process : Process) (value : Nat)
    (holders : List Nat) : Prop where
  nodup : holders.Nodup
  inside : ∀ number, number ∈ holders ↔ Inside process number
  total : process.sem + holders.length = value

/-- The semaphore counts how many more threads it lets in. -/
theorem Holders.step {process next : Process} {value : Nat} {holders : List Nat}
    {event : Event}
    (isHolders : Holders process value holders)
    (stepped : Process.step process event = some next) :
    ∃ holders, Holders next value holders := by
  obtain ⟨nodup, inside, total⟩ := isHolders
  cases event with
  | tick duration =>
      cases stepped
      exact ⟨holders, nodup, inside, total⟩
  | main succeeds =>
      exact ⟨holders, nodup,
        fun number =>
          (inside number).trans (inside_mainStep stepped number).symm,
        (mainStep_threads stepped).1 ▸ total⟩
  | thread number =>
      cases (threadStep_moves stepped).2 with
      | blocks found =>
          refine ⟨holders, nodup, fun other => ?_, total⟩
          rw [inside, inside_setThread found]
          split
          · rename_i same
            simp [Inside, same, found]
          · rfl
      | @enters pc found outside free =>
          have notInside : number ∉ holders := by
            rw [inside, Inside, found]
            rcases outside with rfl | rfl <;> simp
          refine ⟨number :: holders, List.nodup_cons.mpr ⟨notInside, nodup⟩,
            fun other => ?_, ?_⟩
          · rw [List.mem_cons, inside]
            refine Iff.trans ?_ (inside_setThread found other).symm
            by_cases same : other = number <;> simp [same]
          · simp only [List.length_cons]
            omega
      | posts found =>
          have isInside : number ∈ holders := (inside number).mpr ⟨_, found⟩
          refine ⟨holders.erase number, nodup.erase number, fun other => ?_, ?_⟩
          · rw [nodup.mem_erase_iff, inside]
            refine Iff.trans ?_ (inside_setThread found other).symm
            by_cases same : other = number <;> simp [same]
          · have length := List.length_erase_add_one isInside
            simp only
            omega

/-! ## The lines -/

/-- What a statement of a thread does. -/
inductive Statement (program : Program) (number : Nat) : Program → Prop
  | entered (isInside : Inside program.process number)
      (place : program.places number = .enter) :
      Statement program number
        { program.goto number (.sleep (program.process.now + 4)) with
          output := program.output ++ [.opens number] }
  | slept {wake : Nat} (isInside : Inside program.process number)
      (place : program.places number = .sleep wake)
      (hasSlept : wake ≤ program.process.now) :
      Statement program number (program.goto number .exit)
  | exiting (isInside : Inside program.process number)
      (place : program.places number = .exit) :
      Statement program number
        { program.goto number .post with
            output := program.output ++ [.closes number] }
  | calls {process : Process} (moves : Moves program.process number process)
      (place : Inside program.process number → program.places number = .post) :
      Statement program number { program.goto number .enter with
          process := process }

/-- The steps of a thread are its statements. -/
theorem threadStep_statement {program next : Program} {number : Nat}
    (stepped : program.threadStep number = some next) :
    Statement program number next := by
  unfold Program.threadStep at stepped
  split at stepped
  case h_1 wake found =>
    have isInside : Inside program.process number := ⟨wake, found⟩
    obtain ⟨_, stepped⟩ := Option.ite_none_left_eq_some.mp stepped
    split at stepped
    case h_1 place =>
      cases stepped
      exact .entered isInside place
    case h_2 place =>
      obtain ⟨hasSlept, equal⟩ := Option.ite_none_right_eq_some.mp stepped
      cases equal
      exact .slept isInside place hasSlept
    case h_3 place =>
      cases stepped
      exact .exiting isInside place
    case h_4 place =>
      obtain ⟨process, called, rfl⟩ := Option.map_eq_some_iff.mp stepped
      exact .calls (threadStep_moves called).2 fun _ => place
  case h_2 outside =>
    obtain ⟨process, called, rfl⟩ := Option.map_eq_some_iff.mp stepped
    exact .calls (threadStep_moves called).2 fun ⟨wake, found⟩ =>
      absurd found (outside wake)

/-- The thread has printed its first line and not its second. -/
def Shown (program : Program) (number : Nat) : Prop :=
  Inside program.process number ∧
    (program.places number = .exit ∨ ∃ wake,
      program.places number = .sleep wake)

/-- The thread is behind its first `printf`. -/
def Passed (program : Program) (number : Nat) : Prop :=
  Inside program.process number ∧ program.places number ≠ .enter ∨
    program.process.threads[number]? = some .done

/-- The lines so far, of which each thread prints either at most once. -/
structure Listing (program : Program) (value : Nat) : Prop where
  justified : History.Justified Use.Allowed program.output
  held : ∀ number, number ∈ Use.held program.output ↔ Shown program number
  bounded : ∀ front, front <+: program.output → (Use.held front).length ≤ value
  once : ∀ number, program.output.count (.opens number) ≤ 1
  passed : ∀ number, .opens number ∈ program.output ↔ Passed program number

namespace Listing

variable {program next : Program} {value : Nat}

/-- A step that prints nothing. -/
theorem of_eq (listing : Listing program value)
    (output : next.output = program.output)
    (shown : ∀ number, Shown next number ↔ Shown program number)
    (passed : ∀ number, Passed next number ↔ Passed program number) :
    Listing next value where
  justified := output ▸ listing.justified
  held := fun number => by rw [output, listing.held, shown]
  bounded := output ▸ listing.bounded
  once := output ▸ listing.once
  passed := fun number => by rw [output, listing.passed, passed]

/-- A step that prints one line. -/
theorem concat (listing : Listing program value) {line : Line}
    {holders : List Nat}
    (output : next.output = program.output ++ [line])
    (allowed : Use.Allowed program.output line)
    (held : ∀ number, number ∈ Use.held (program.output ++ [line]) ↔
      Shown next number)
    (isHolders : Holders next.process value holders)
    (fresh : ∀ number, line = .opens number → .opens number ∉ program.output)
    (passed : ∀ number, .opens number ∈ program.output ++ [line] ↔
      Passed next number) :
    Listing next value := by
  have justified := listing.justified.concat allowed
  refine ⟨output ▸ justified, output ▸ held, ?_,
    fun number => ?_, output ▸ passed⟩
  · rw [output]
    intro front isPrefix
    rcases List.prefix_concat_iff.mp isPrefix with rfl | earlier
    · have fewer : (Use.held (program.output ++ [line])).length ≤
          holders.length := by
        refine ((Use.WellUsed.of_justified
          justified).nodup.subperm ?_).length_le
        intro number present
        exact (isHolders.inside number).mpr ((held number).mp present).1
      have total := isHolders.total
      omega
    · exact listing.bounded front earlier
  · rw [output, List.count_append]
    have before := listing.once number
    by_cases same : line = .opens number
    · have none := List.count_eq_zero.mpr (fresh number same)
      rw [none, same]
      simp
    · rw [List.count_singleton, if_neg (by simpa using same)]
      exact before

/-- The lines of one statement. -/
theorem statement (listing : Listing program value) {number : Nat}
    {holders : List Nat}
    (isHolders : Holders next.process value holders)
    (made : Statement program number next) :
    Listing next value := by
  cases made with
  | entered isInside place =>
      have notHeld : number ∉ Use.held program.output := by
        rw [listing.held, Shown, place]
        simp
      have notPassed : ¬Passed program number := by
        obtain ⟨wake, found⟩ := isInside
        simp [Passed, place, found]
      refine listing.concat rfl notHeld (fun other => ?_) isHolders
        (fun other same => ?_)
        fun other => ?_
      · rw [Use.held_concat_opens, List.mem_append, List.mem_singleton,
          listing.held]
        by_cases same : other = number
        · subst same
          simp [Shown, Program.goto, isInside]
        · simp [Shown, Program.goto, same]
      · cases same
        exact fun present => notPassed ((listing.passed number).mp present)
      · rw [List.mem_append, listing.passed]
        by_cases same : other = number
        · subst same
          simp [Passed, Program.goto, isInside]
        · simp [Passed, Program.goto, same]
  | @slept wake isInside place hasSlept =>
      refine listing.of_eq rfl (fun other => ?_) fun other => ?_
      · by_cases same : other = number
        · subst same
          simp [Shown, Program.goto, place]
        · simp [Shown, Program.goto, same]
      · by_cases same : other = number
        · subst same
          simp [Passed, Program.goto, place, isInside]
        · simp [Passed, Program.goto, same]
  | exiting isInside place =>
      have isHeld : number ∈ Use.held program.output :=
        (listing.held number).mpr ⟨isInside, .inl place⟩
      refine listing.concat rfl isHeld (fun other => ?_) isHolders
        (fun other same => ?_)
        fun other => ?_
      · rw [Use.held_concat_closes,
          (Use.WellUsed.of_justified listing.justified).nodup.mem_erase_iff,
          listing.held]
        by_cases same : other = number
        · subst same
          simp [Shown, Program.goto]
        · simp [Shown, Program.goto, same]
      · cases same
      · rw [List.mem_append, listing.passed]
        by_cases same : other = number
        · subst same
          simp [Passed, Program.goto, place, isInside]
        · simp [Passed, Program.goto, same]
  | @calls process moves place =>
      refine listing.of_eq rfl (fun other => ?_) fun other => ?_
      · by_cases same : other = number
        · subst same
          constructor
          · rintro ⟨_, exits | ⟨wake, sleeps⟩⟩ <;> simp [Program.goto] at *
          · rintro ⟨isInside, exits | ⟨wake, sleeps⟩⟩ <;> simp_all
        · simp [Shown, Inside, Program.goto, same, moves.others same]
      · by_cases same : other = number
        · subst same
          simp only [Passed, Program.goto, Function.update_self, ne_eq,
            not_true_eq_false, and_false, false_or]
          rw [moves.done_iff]
          exact ⟨fun isInside => .inl ⟨isInside, by simp [place isInside]⟩,
            fun passed => passed.elim And.left fun isDone =>
              absurd isDone moves.not_done⟩
        · simp [Passed, Inside, Program.goto, same, moves.others same]

/-- The lines stay as they are while time passes and `main` goes on. -/
theorem process (listing : Listing program value) {process : Process}
    {event : Event}
    (stepped : Process.step program.process event = some process)
    (outside : ∀ number, event ≠ .thread number) :
    Listing { program with process := process } value := by
  cases event with
  | thread number => exact absurd rfl (outside number)
  | tick duration =>
      cases stepped
      exact listing.of_eq rfl (fun _ => .rfl) fun _ => .rfl
  | main succeeds =>
      refine listing.of_eq rfl (fun number => ?_) fun number => ?_
      · exact and_congr_left fun _ => inside_mainStep stepped number
      · refine or_congr
          (and_congr_left fun _ => inside_mainStep stepped number) ?_
        rcases (mainStep_threads stepped).2 with same | added
        · rw [same]
        · rw [added, List.getElem?_append]
          split
          · rfl
          · rename_i beyond
            rw [List.getElem?_eq_none (Nat.not_lt.mp beyond)]
            cases number - program.process.threads.length <;> simp

end Listing

/-! ## Runs -/

/-- Any other step leaves the output and the places. -/
theorem step_of_ne_thread (program : Program) {event : Event}
    (outside : ∀ number, event ≠ .thread number) :
    Program.step program event =
      (Process.step program.process event).map
        fun process => { program with process := process } := by
  cases event with
  | thread number => exact absurd rfl (outside number)
  | tick | main => rfl

/-- A step of the program is a step of the process, or the process stays as it
is. -/
theorem process_of_step {program next : Program} {event : Event}
    (stepped : Program.step program event = some next) :
    Process.step program.process event = some next.process ∨
      next.process = program.process := by
  by_cases isThread : ∃ number, event = .thread number
  · obtain ⟨number, rfl⟩ := isThread
    have called : program.callSem number = some next →
        Process.step program.process (.thread number) = some next.process := by
      intro isCall
      obtain ⟨process, moved, rfl⟩ := Option.map_eq_some_iff.mp isCall
      exact moved
    change program.threadStep number = some next at stepped
    unfold Program.threadStep at stepped
    split at stepped
    · obtain ⟨_, stepped⟩ := Option.ite_none_left_eq_some.mp stepped
      split at stepped
      case h_1 | h_3 =>
        cases stepped
        exact .inr rfl
      case h_2 =>
        obtain ⟨_, equal⟩ := Option.ite_none_right_eq_some.mp stepped
        cases equal
        exact .inr rfl
      case h_4 => exact .inl (called stepped)
    · exact .inl (called stepped)
  · rw [step_of_ne_thread program (not_exists.mp isThread)] at stepped
    obtain ⟨process, moved, rfl⟩ := Option.map_eq_some_iff.mp stepped
    exact .inl moved

/-- The semaphore counts the threads inside, and the lines show them. -/
structure Invariant (program : Program) (value : Nat) : Prop where
  holders : ∃ holders, Holders program.process value holders
  listing : Listing program value

theorem invariant_start (value count : Nat) :
    Invariant (Program.start value count) value where
  holders :=
    ⟨[], List.nodup_nil,
      fun _ => by simp [Inside, Program.start, Process.start], rfl⟩
  listing :=
    { justified := History.justified_nil _
      held := fun _ => by simp [Shown, Inside, Program.start, Process.start]
      bounded := by
        intro front isPrefix
        rw [List.prefix_nil.mp isPrefix]
        simp
      once := fun _ => by simp [Program.start]
      passed := fun _ =>
        by simp [Passed, Inside, Program.start, Process.start] }

/-- Every step keeps the invariant. -/
theorem Invariant.step {program next : Program} {value : Nat} {event : Event}
    (invariant : Invariant program value)
    (stepped : Program.step program event = some next) :
    Invariant next value := by
  obtain ⟨⟨holders, isHolders⟩, listing⟩ := invariant
  have nextHolders : ∃ holders, Holders next.process value holders := by
    rcases process_of_step stepped with moved | same
    · exact isHolders.step moved
    · exact ⟨holders, same ▸ isHolders⟩
  refine ⟨nextHolders, ?_⟩
  by_cases isThread : ∃ number, event = .thread number
  · obtain ⟨number, rfl⟩ := isThread
    obtain ⟨nextHolders, isNextHolders⟩ := nextHolders
    exact listing.statement isNextHolders (threadStep_statement stepped)
  · have outside := not_exists.mp isThread
    rw [step_of_ne_thread program outside] at stepped
    obtain ⟨process, moved, rfl⟩ := Option.map_eq_some_iff.mp stepped
    exact listing.process moved outside

/-- In every run the invariant holds. -/
theorem invariant_of_run {value count : Nat} {events : List Event}
    {final : Program}
    (ran : Program.step.run (Program.start value count) events = some final) :
    Invariant final value :=
  Machine.run_invariant (fun program => Invariant program value)
    (fun _ _ _ invariant stepped => invariant.step stepped)
    (invariant_start value count) ran

/-- Whatever the initial value of the semaphore, the number of threads and the
order of their statements: at any point of the output at most as many threads
have entered and are not yet exiting as the initial value says, each thread
enters at most once and only a thread that has entered exits, and it was the
steps of the process that led here. -/
theorem entered_le_value {value count : Nat} {events : List Event}
    {final : Program}
    (ran : Program.step.run (Program.start value count) events = some final) :
    (∀ front, front <+: final.output → (Use.held front).length ≤ value) ∧
      Use.WellUsed final.output ∧
      (∀ number, final.output.count (.opens number) ≤ 1) ∧
      ∃ moves, Process.step.run (Process.start value count) moves =
        some final.process := by
  obtain ⟨_, listing⟩ := invariant_of_run ran
  refine ⟨listing.bounded, .of_justified listing.justified, listing.once, ?_⟩
  refine Machine.exists_run_of_simulation Program.process ?_ ran
  intro program event next stepped
  rcases process_of_step stepped with moved | same
  · exact ⟨[event], by simp [moved]⟩
  · exact ⟨[], by simp [same]⟩

/-- With the value one the semaphore works like a mutex: the threads enter and
exit one after another. -/
theorem alternates_of_one {count : Nat} {events : List Event} {final : Program}
    (ran : Program.step.run (Program.start 1 count) events = some final) :
    ∃ order : List Nat, order.Nodup ∧
      (final.output =
        order.flatMap (fun number => [.opens number, .closes number]) ∨
        ∃ last ∉ order, final.output =
          order.flatMap (fun number => [.opens number, .closes number]) ++
            [.opens last]) := by
  obtain ⟨_, listing⟩ := invariant_of_run ran
  obtain ⟨order, split⟩ :=
    Use.serial_of_justified listing.justified listing.bounded
  have distinct : (order ++ Use.held final.output).Nodup := by
    rw [← Use.opened_serial, ← split, List.nodup_iff_count_le_one]
    intro number
    rw [Use.count_opened]
    exact listing.once number
  have few := listing.bounded _ (List.prefix_refl _)
  refine ⟨order, (List.nodup_append.mp distinct).1, ?_⟩
  cases held : Use.held final.output with
  | nil => exact .inl (by rwa [held, List.map_nil, List.append_nil] at split)
  | cons last rest =>
      rw [held, List.length_cons] at few
      obtain rfl : rest = [] := List.length_eq_zero_iff.mp (by omega)
      rw [held] at split distinct
      refine .inr ⟨last, fun present => ?_, split⟩
      exact (List.nodup_append.mp distinct).2.2 last present last
        List.mem_cons_self rfl

/-- Two threads that enter one after the other. -/
def twoThreads : List Event :=
  [.main true, .main true, .main true, .thread 0, .thread 0, .tick 2,
    .main true, .main true,
    .thread 1, .tick 2, .thread 0, .thread 0, .thread 0, .thread 1, .thread 1]

/-- The second of two threads has entered behind the first. -/
theorem entered_le_value_twoThreads :
    ∃ final, Program.step.run (Program.start 1 2) twoThreads = some final ∧
      final.output = [.opens 0, .closes 0, .opens 1] ∧
      ∀ front, front <+: final.output → (Use.held front).length ≤ 1 := by
  have reached :
      (Program.step.run (Program.start 1 2) twoThreads).map Program.output =
      some [.opens 0, .closes 0, .opens 1] := by decide
  obtain ⟨final, ran, output⟩ := Option.map_eq_some_iff.mp reached
  exact ⟨final, ran, output, (entered_le_value ran).1⟩

/-- Two threads with a semaphore of one. -/
theorem alternates_of_one_twoThreads :
    ∃ final, Program.step.run (Program.start 1 2) twoThreads = some final ∧
      ∃ order : List Nat, order.Nodup ∧
        (final.output =
          order.flatMap (fun number => [.opens number, .closes number]) ∨
          ∃ last ∉ order, final.output =
            order.flatMap (fun number => [.opens number, .closes number]) ++
              [.opens last]) := by
  have reached : (Program.step.run (Program.start 1 2) twoThreads).isSome =
      true := by decide
  obtain ⟨final, ran⟩ := Option.isSome_iff_exists.mp reached
  exact ⟨final, ran, alternates_of_one ran⟩

end SemDetached
end LinuxCPractice
