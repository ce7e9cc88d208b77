import LinuxCPractice.ThreadMutex.Defs
import Mathlib.Data.List.Perm.Subperm
import Mathlib.Data.List.Range

/-!
# Threads that run one after another

What the threads of a run print is what they would have printed had they called
`trythis` one after another, in the order in which they took the mutex. The
counter line of the `k`-th of them shows `k`, as long as the counter, an `int`,
can hold it.
-/

namespace LinuxCPractice
namespace ThreadMutex

open Process

/-! ## Serial transcripts -/

/-- The lines of one call, by the thread that is the first one, the second one
and so on from position zero. -/
def service (arg : Option Int32) (number position : Nat) : List Line :=
  passedLines number arg ++ [.counter number (Int32.ofNat (position + 1))]

/-- The argument of a thread. -/
def argument (callers : List (Option Int32 × Int32))
    (number : Nat) : Option Int32 :=
  callers[number]?.bind Prod.fst

/-- The output of threads that run one after another. -/
def transcript (callers : List (Option Int32 × Int32))
    (order : List Nat) : List Line :=
  order.zipIdx.flatMap fun served =>
    service (argument callers served.1) served.1 served.2

/-- Each `passed data` line is directly followed by the `counter` line of its
thread. -/
def Followed (output : List Line) : Prop :=
  ∀ before number data after, output = before ++ .passed number data :: after →
    ∃ value rest, after = .counter number value :: rest

@[simp] theorem transcript_nil (callers : List (Option Int32 × Int32)) :
    transcript callers [] = [] := rfl

/-- One thread more passes behind the others. -/
theorem transcript_concat (callers : List (Option Int32 × Int32))
    (order : List Nat)
    (number : Nat) :
    transcript callers (order ++ [number]) =
      transcript callers order ++ service
        (argument callers number) number order.length := by
  simp [transcript, List.zipIdx_append]

theorem Followed.append {first second : List Line} (ofFirst : Followed first)
    (ofSecond : Followed second) : Followed (first ++ second) := by
  intro before number data after split
  rcases List.append_eq_append_iff.mp split with
    ⟨middle, beforeSplit, secondSplit⟩ | ⟨middle, firstSplit, restSplit⟩
  · exact ofSecond middle number data after secondSplit
  · cases middle with
    | nil => exact ofSecond [] number data after restSplit.symm
    | cons line middle =>
        obtain ⟨rfl, rfl⟩ := List.cons.inj restSplit
        obtain ⟨value, rest, rfl⟩ :=
          ofFirst before number data middle firstSplit
        exact ⟨value, rest ++ second, rfl⟩

theorem followed_nil : Followed [] := by
  intro before number data after split
  simp at split

theorem followed_singleton (number : Nat) (value : Int32) :
    Followed [.counter number value] := by
  intro before other data after split
  cases List.append_eq_singleton_iff.mp split.symm <;> simp_all

theorem followed_service (arg : Option Int32) (number position : Nat) :
    Followed (service arg number position) := by
  cases arg with
  | none => exact followed_singleton number _
  | some passed =>
      intro before other data after split
      cases before with
      | nil =>
          cases split
          exact ⟨_, [], rfl⟩
      | cons head before =>
          exact followed_singleton number _ before other data after
            (List.cons.inj split).2

/-- In a transcript each thread is followed by its own line. -/
theorem followed_transcript (callers : List (Option Int32 × Int32))
    (order : List Nat) :
    Followed (transcript callers order) := by
  induction order using List.reverseRecOn with
  | nil => exact followed_nil
  | append_singleton order number inductionHypothesis =>
      rw [transcript_concat]
      exact inductionHypothesis.append (followed_service _ number _)

@[simp] theorem counterValues_append (first second : List Line) :
    counterValues (first ++ second) =
      counterValues first ++ counterValues second :=
  List.filterMap_append

/-- In a transcript the counter counts up from one. -/
theorem counterValues_transcript (callers : List (Option Int32 × Int32))
    (order : List Nat) :
    counterValues (transcript callers order) =
      (List.range' 1 order.length).map Int32.ofNat := by
  induction order using List.reverseRecOn with
  | nil => rfl
  | append_singleton order number inductionHypothesis =>
      rw [transcript_concat, counterValues_append, inductionHypothesis,
        List.length_append,
        List.length_singleton, List.range'_concat, List.map_append]
      congr 1
      cases arg : argument callers number <;>
        simp [service, passedLines, counterValues, Nat.add_comm]

/-! ## Who holds the mutex -/

namespace Pc

/-- Between `pthread_mutex_lock` and `pthread_mutex_unlock`. -/
@[simp] def isInside : Pc → Bool
  | .lock | .returned => false
  | _ => true

/-- Behind the first `printf` and not behind the second. -/
@[simp] def isPending : Pc → Bool
  | .load | .store _ | .sleep | .read | .printCounter _ => true
  | .lock | .printPassed | .malloc | .snprintf | .unlock | .returned => false

/-- Behind the store and not behind the second `printf`. -/
@[simp] def isUncounted : Pc → Bool
  | .sleep | .read | .printCounter _ => true
  | _ => false

/-- Behind the second `printf`. -/
@[simp] def hasPrinted : Pc → Bool
  | .malloc | .snprintf | .unlock | .returned => true
  | _ => false

/-- The value read last, where it is still of use. -/
@[simp] def loaded : Pc → Option Int32
  | .store value | .printCounter value => some value
  | _ => none

end Pc

/-- What the threads that have printed their `counter` line, in this order,
leave to the thread that holds the mutex. -/
structure Holding (callers : List (Option Int32 × Int32)) (process : Process)
    (order : List Nat) (number : Nat) (thread : Thread) : Prop where
  output : process.output = transcript callers order ++
    if thread.pc.isPending then passedLines number thread.arg else []
  sharedCounter : process.sharedCounter =
    Int32.ofNat (order.length + if thread.pc.isUncounted then 1 else 0)
  loaded : ∀ value ∈ thread.pc.loaded, value = process.sharedCounter

/-- The process has come as far as if the threads in `order` had run one after
another. -/
structure Serial (callers : List (Option Int32 × Int32)) (process : Process)
    (order : List Nat) : Prop where
  arguments : process.threads.map Thread.arg = callers.map Prod.fst
  nodup : order.Nodup
  printed : ∀ number, number ∈ order ↔
    ∃ thread, process.threads[number]? = some thread ∧
      thread.pc.hasPrinted = true
  holder : ∀ number thread, process.threads[number]? = some thread →
    (thread.pc.isInside = true ↔ process.lock = some number)
  exists_holder : ∀ number, process.lock = some number →
    number < process.threads.length
  free : process.lock = none → process.output = transcript callers order ∧
    process.sharedCounter = Int32.ofNat order.length
  held : ∀ number thread, process.lock = some number →
    process.threads[number]? = some thread →
    Holding callers process order number thread

/-- All steps of a thread. -/
inductive Transition (process : Process) (number : Nat) (thread : Thread) :
    Process → Prop
  | locks (pc : thread.pc = .lock) (free : process.lock = none) :
      Transition process number thread
        { process.setThread number { thread with pc := .printPassed } with
            lock := some number }
  | printsPassed (pc : thread.pc = .printPassed) :
      Transition process number thread
        ((process.setThread number { thread with pc := .load }).print
          (passedLines number thread.arg))
  | loads (pc : thread.pc = .load) :
      Transition process number thread
        (process.setThread number
          { thread with pc := .store process.sharedCounter })
  | stores {loaded} (pc : thread.pc = .store loaded) :
      Transition process number thread
        { process.setThread number { thread with pc := .sleep } with
            sharedCounter := loaded + 1 }
  | sleeps (pc : thread.pc = .sleep) :
      Transition process number thread
        (process.setThread number { thread with pc := .read })
  | reads (pc : thread.pc = .read) :
      Transition process number thread
        (process.setThread number
          { thread with pc := .printCounter process.sharedCounter })
  | printsCounter {loaded} (pc : thread.pc = .printCounter loaded) :
      Transition process number thread
        ((process.setThread number { thread with pc := .malloc }).print
          [.counter number loaded])
  | allocates (pc : thread.pc = .malloc) :
      Transition process number thread
        (process.setThread number { thread with pc := .snprintf, buffer := .allocated })
  | fails (pc : thread.pc = .malloc) :
      Transition process number thread
        { process with failure := some "malloc() error" }
  | formats (pc : thread.pc = .snprintf) :
      Transition process number thread (process.setThread number
        { thread with pc := .unlock, buffer := .written s!"retval {thread.tid}" })
  | unlocks (pc : thread.pc = .unlock) :
      Transition process number thread
        { process.setThread number { thread with pc := .returned } with
            lock := none }

theorem transition_of_trythis {process next : Process} {number : Nat} {thread : Thread}
    {allocates : Bool} (stepped : process.trythis number thread allocates = some next) :
    Transition process number thread next := by
  unfold trythis at stepped
  split at stepped
  case h_1 pc =>
    obtain ⟨free, equal⟩ := Option.ite_none_right_eq_some.mp stepped
    cases equal
    exact .locks pc free
  case h_2 pc =>
    cases stepped
    exact .printsPassed pc
  case h_3 pc =>
    cases stepped
    exact .loads pc
  case h_4 pc =>
    cases stepped
    exact .stores pc
  case h_5 pc =>
    cases stepped
    exact .sleeps pc
  case h_6 pc =>
    cases stepped
    exact .reads pc
  case h_7 pc =>
    cases stepped
    exact .printsCounter pc
  case h_8 pc =>
    cases stepped
    cases allocates with
    | true => exact .allocates pc
    | false => exact .fails pc
  case h_9 pc =>
    cases stepped
    exact .formats pc
  case h_10 pc =>
    cases stepped
    exact .unlocks pc
  case h_11 => cases stepped

/-! ## Steps keep the order -/

section

variable {callers : List (Option Int32 × Int32)} {process next : Process}
  {order : List Nat} {number : Nat} {thread changed : Thread}

/-- A thread keeps the argument it was called with. -/
theorem map_arg_set {threads : List Thread}
    (found : threads[number]? = some thread)
    (sameArg : changed.arg = thread.arg) :
    (threads.set number changed).map Thread.arg = threads.map Thread.arg := by
  obtain ⟨bound, rfl⟩ := List.getElem?_eq_some_iff.mp found
  have mapped : number < (threads.map Thread.arg).length := by simpa using bound
  have same : changed.arg = (threads.map Thread.arg)[number] := by
    rw [sameArg, List.getElem_map]
  rw [List.map_set, same, List.set_getElem_self]

theorem Serial.arg_eq (serial : Serial callers process order)
    (found : process.threads[number]? = some thread) :
    thread.arg = argument callers number := by
  have same := congrArg (·[number]?) serial.arguments
  simp only [List.getElem?_map, found, Option.map_some] at same
  cases caller : callers[number]? with
  | none => simp [caller] at same
  | some caller => simp_all [argument]

/-- A step by which a thread takes the mutex or goes on holding it. -/
theorem Serial.of_holding {later : List Nat}
    (serial : Serial callers process order)
    (found : process.threads[number]? = some thread)
    (threads : next.threads = process.threads.set number changed)
    (sameArg : changed.arg = thread.arg) (inside : changed.pc.isInside = true)
    (available : process.lock = none ∨ process.lock = some number)
    (locked : next.lock = some number) (nodup : later.Nodup)
    (printed : ∀ other, other ∈ later ↔
      if other = number then changed.pc.hasPrinted = true else other ∈ order)
    (holding : Holding callers next later number changed) :
    Serial callers next later where
  arguments := by rw [threads, map_arg_set found sameArg, serial.arguments]
  nodup := nodup
  printed := by
    intro other
    rw [printed, threads, List.getElem?_set]
    have before := serial.printed other
    grind
  holder := by
    intro other otherThread otherFound
    rw [threads, List.getElem?_set] at otherFound
    have before := serial.holder other
    grind
  exists_holder := by
    intro other otherLocked
    have inRange := (List.getElem?_eq_some_iff.mp found).1
    grind
  free := by
    intro free
    rw [locked] at free
    cases free
  held := by
    intro other otherThread otherLocked otherFound
    rw [threads, List.getElem?_set] at otherFound
    grind

theorem Serial.exists_thread (serial : Serial callers process order)
    (locked : process.lock = some number) :
    ∃ thread, process.threads[number]? = some thread ∧
      thread.pc.isInside = true := by
  have found := List.getElem?_eq_getElem (serial.exists_holder number locked)
  exact ⟨_, found, (serial.holder number _ found).mpr locked⟩

/-- What the holder of the mutex prints and stores is decided by the order. -/
theorem Serial.holding (serial : Serial callers process order)
    (found : process.threads[number]? = some thread)
    (inside : thread.pc.isInside = true) :
    process.lock = some number ∧
      Holding callers process order number thread := by
  have locked := (serial.holder number thread found).mp inside
  exact ⟨locked, serial.held number thread locked found⟩

/-- A step of the holder that prints no `counter` line. -/
theorem Serial.of_silent (serial : Serial callers process order)
    (found : process.threads[number]? = some thread)
    (threads : next.threads = process.threads.set number changed)
    (sameArg : changed.arg = thread.arg) (inside : changed.pc.isInside = true)
    (available : process.lock = none ∨ process.lock = some number)
    (locked : next.lock = some number)
    (same : changed.pc.hasPrinted = thread.pc.hasPrinted)
    (holding : Holding callers next order number changed) :
    Serial callers next order := by
  apply serial.of_holding found threads sameArg inside available locked
    serial.nodup ?_ holding
  intro other
  have before := serial.printed other
  grind

/-- Every transition continues the transcript. -/
theorem Serial.transition (serial : Serial callers process order)
    (found : process.threads[number]? = some thread)
    (transition : Transition process number thread next) :
    ∃ later, Serial callers next later := by
  cases transition with
  | locks pc free =>
      obtain ⟨output, sharedCounter⟩ := serial.free free
      exact ⟨order, serial.of_silent found rfl rfl rfl (.inl free) rfl
        (by simp [pc])
        ⟨by simpa using output, by simpa using sharedCounter, by simp⟩⟩
  | printsPassed pc | loads pc | sleeps pc | reads pc | allocates pc
  | formats pc =>
      obtain ⟨locked, output, sharedCounter, loaded⟩ := serial.holding found (by simp [pc])
      exact ⟨order, serial.of_silent found rfl rfl rfl (.inr locked) locked
        (by simp [pc])
        ⟨by simpa [pc] using output, by simpa [pc] using sharedCounter,
          by simp⟩⟩
  | stores pc =>
      obtain ⟨locked, output, sharedCounter, loaded⟩ := serial.holding found (by simp [pc])
      refine ⟨order, serial.of_silent found rfl rfl rfl (.inr locked) locked
        (by simp [pc])
        ⟨by simpa [pc] using output, ?_, by simp⟩⟩
      simp [pc] at loaded sharedCounter
      simp [loaded, sharedCounter]
  | printsCounter pc =>
      obtain ⟨locked, output, sharedCounter, loaded⟩ := serial.holding found (by simp [pc])
      have fresh : number ∉ order := by
        intro present
        obtain ⟨other, otherFound, hasPrinted⟩ := (serial.printed number).mp present
        grind [Pc.hasPrinted]
      refine ⟨order ++ [number], serial.of_holding found rfl rfl rfl (.inr locked) locked ?_ ?_
        ⟨?_, ?_, by simp⟩⟩
      · exact List.nodup_append.mpr ⟨serial.nodup, by simp, by grind⟩
      · intro other
        grind [Pc.hasPrinted]
      · rw [transcript_concat, ← serial.arg_eq found]
        simp [pc] at loaded sharedCounter output
        simp [output, service, loaded, sharedCounter]
      · simpa [pc] using sharedCounter
  | fails pc =>
      exact ⟨order, { serial with
        held := fun other otherThread locked otherFound =>
          let holding := serial.held other otherThread locked otherFound
          ⟨holding.output, holding.sharedCounter, holding.loaded⟩ }⟩
  | unlocks pc =>
      obtain ⟨locked, output, sharedCounter, loaded⟩ := serial.holding found (by simp [pc])
      refine ⟨order, ?_, serial.nodup, ?_, ?_, by simp, ?_, by simp⟩
      · refine (map_arg_set found ?_).trans serial.arguments
        rfl
      · intro other
        have before := serial.printed other
        grind [setThread_threads, Pc.hasPrinted]
      · intro other otherThread otherFound
        have before := serial.holder other
        grind [setThread_threads, Pc.isInside]
      · intro _
        exact ⟨by simpa [pc] using output, by simpa [pc] using sharedCounter⟩

end

/-- Every step continues the transcript. -/
theorem Serial.step {callers : List (Option Int32 × Int32)}
    {process next : Process}
    {order : List Nat} {event : Event} (serial : Serial callers process order)
    (stepped : Process.step process event = some next) :
    ∃ later, Serial callers next later := by
  obtain ⟨_, stepped⟩ := Option.ite_none_right_eq_some.mp stepped
  obtain ⟨thread, found, stepped⟩ := Option.bind_eq_some_iff.mp stepped
  exact serial.transition found (transition_of_trythis stepped)

theorem serial_start (callers : List (Option Int32 × Int32)) :
    Serial callers (start callers) [] where
  arguments := by simp [start, Thread.start]
  nodup := List.nodup_nil
  printed := by
    intro number
    simp [start, Thread.start]
  holder := by
    intro number thread found
    obtain ⟨caller, _, rfl⟩ :=
      Option.map_eq_some_iff.mp ((List.getElem?_map ..).symm.trans found)
    simp [start, Thread.start]
  exists_holder := by simp [start]
  free := fun _ => ⟨rfl, rfl⟩
  held := by simp [start]

/-- Every run comes as far as some threads that run one after another, whatever
the order in which the steps are taken. -/
theorem exists_serial_of_run {callers : List (Option Int32 × Int32)}
    {events : List Event}
    {final : Process} (ran : step.run (start callers) events = some final) :
    ∃ order, Serial callers final order := by
  refine Machine.run_invariant
    (fun process => ∃ order, Serial callers process order) ?_
    ⟨[], serial_start callers⟩ ran
  rintro process event next ⟨order, serial⟩ stepped
  exact serial.step stepped

end ThreadMutex
end LinuxCPractice
