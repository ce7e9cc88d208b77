import LinuxCPractice.ThreadMutex.Serial
import Mathlib.Algebra.GroupWithZero.Nat

/-!
# What the threads print and count

The threads of every run can all be brought to return, and then they have served
one after another. The counter is an `int`: with more threads than it can count,
it ends up negative.
-/

namespace LinuxCPractice
namespace ThreadMutex

open Process

/-! ## Bringing all threads to return -/

/-- The number of steps a thread has left when `malloc` succeeds. -/
def Pc.remaining : Pc → Nat
  | .lock => 10
  | .printPassed => 9
  | .load => 8
  | .store _ => 7
  | .sleep => 6
  | .read => 5
  | .printCounter _ => 4
  | .malloc => 3
  | .snprintf => 2
  | .unlock => 1
  | .returned => 0

/-- The steps that all threads have left. -/
def Process.remaining (process : Process) : Nat :=
  (process.threads.map fun thread => thread.pc.remaining).sum

theorem sum_remaining_set {threads : List Thread} {number : Nat}
    {thread changed : Thread}
    (found : threads[number]? = some thread)
    (less : changed.pc.remaining < thread.pc.remaining) :
    ((threads.set number changed).map fun thread => thread.pc.remaining).sum <
      (threads.map fun thread => thread.pc.remaining).sum := by
  induction threads generalizing number with
  | nil => simp at found
  | cons head threads inductionHypothesis =>
      cases number with
      | zero =>
          obtain rfl : head = thread := by simpa using found
          simpa using less
      | succ number =>
          have foundTail : threads[number]? = some thread := by
            simpa using found
          simpa using inductionHypothesis foundTail

/-- A step whose allocation succeeds comes closer to the end. -/
theorem remaining_of_step {process next : Process} {event : Event}
    (allocates : event.allocates = true)
    (stepped : Process.step process event = some next) :
    next.remaining < process.remaining ∧ next.failure = process.failure := by
  obtain ⟨_, stepped⟩ := Option.ite_none_right_eq_some.mp stepped
  obtain ⟨thread, found, stepped⟩ := Option.bind_eq_some_iff.mp stepped
  rw [allocates] at stepped
  unfold trythis at stepped
  split at stepped
  case h_1 pc =>
    obtain ⟨_, equal⟩ := Option.ite_none_right_eq_some.mp stepped
    cases equal
    exact ⟨sum_remaining_set found (by simp [pc, Pc.remaining]), rfl⟩
  case h_11 => cases stepped
  all_goals
    next pc =>
      cases stepped
      exact ⟨sum_remaining_set found (by simp [pc, Pc.remaining]), rfl⟩

/-- Where a thread can make a step, it can make one with a `malloc` that
succeeds. -/
theorem exists_step_allocates {process next : Process} {event : Event}
    (stepped : Process.step process event = some next) :
    ∃ after, Process.step process ⟨event.number, true⟩ = some after := by
  obtain ⟨running, stepped⟩ := Option.ite_none_right_eq_some.mp stepped
  obtain ⟨thread, found, stepped⟩ := Option.bind_eq_some_iff.mp stepped
  simp only [Process.step, running, found, if_true, Option.bind_some]
  unfold trythis at stepped ⊢
  split at stepped <;> simp_all

/-- A thread that has not returned can make a step, unless it has to wait for
the mutex. -/
theorem exists_step_of_thread {process : Process} {number : Nat}
    {thread : Thread}
    (running : process.failure = none)
    (found : process.threads[number]? = some thread)
    (notReturned : thread.pc ≠ .returned)
    (canLock : thread.pc = .lock → process.lock = none) :
    ∃ event next, Process.step process event = some next := by
  refine ⟨⟨number, true⟩, ?_⟩
  simp only [Process.step, running, found, if_true, Option.bind_some]
  unfold trythis
  split <;> simp_all

/-- While a thread has not returned, the process can go on. -/
theorem exists_step {callers : List (Option Int32 × Int32)} {process : Process}
    {order : List Nat} (serial : Serial callers process order)
    (running : process.failure = none) (unfinished : ¬process.AllReturned) :
    ∃ event next, Process.step process event = some next := by
  cases locked : process.lock with
  | none =>
      simp only [AllReturned, not_forall] at unfinished
      obtain ⟨thread, present, notReturned⟩ := unfinished
      obtain ⟨number, found⟩ := List.mem_iff_getElem?.mp present
      exact exists_step_of_thread running found notReturned fun _ => locked
  | some number =>
      obtain ⟨thread, found, inside⟩ := serial.exists_thread locked
      refine exists_step_of_thread running found ?_ ?_
      · intro returned
        simp [returned] at inside
      · intro atLock
        simp [atLock] at inside

/-- All threads return in some run, in which `malloc` always succeeds. -/
theorem exists_run_allReturned (callers : List (Option Int32 × Int32)) :
    ∃ events final, step.run (start callers) events = some final ∧
      final.AllReturned := by
  have closer : ∀ process event next, event.allocates = true →
      step process event = some next → next.remaining < process.remaining :=
    fun _ _ _ allocates stepped => (remaining_of_step allocates stepped).1
  have possible : ∀ process event next, step process event = some next →
      ∃ other after, other.allocates = true ∧
        step process other = some after := by
    intro process event next stepped
    obtain ⟨after, steppedOther⟩ := exists_step_allocates stepped
    exact ⟨⟨event.number, true⟩, after, rfl, steppedOther⟩
  obtain ⟨events, final, ran, ended, allocate⟩ :=
    Machine.exists_run_to_end (fun event : Event => event.allocates =
      true) Process.remaining
      closer possible (start callers)
  have running : final.failure = none :=
    Machine.run_invariant_of_everyStep (fun process => process.failure = none)
      (fun _ _ _ running allocates stepped =>
        (remaining_of_step allocates stepped).2.trans running)
      rfl ((Machine.everyStep_event_iff ran).mpr allocate) ran
  obtain ⟨order, serial⟩ := exists_serial_of_run ran
  refine ⟨events, final, ran, ?_⟩
  by_contra unfinished
  obtain ⟨event, next, stepped⟩ := exists_step serial running unfinished
  rw [ended event] at stepped
  cases stepped

/-! ## The lines of the threads that have served -/

/-- Below `2 ^ 31` the numbers are what they count. -/
theorem range'_map_toInt {count : Nat} (few : count < 2147483648) :
    ((List.range' 1 count).map Int32.ofNat).map Int32.toInt =
      (List.range' 1 count).map Int.ofNat := by
  rw [List.map_map]
  apply List.map_congr_left
  intro position present
  have bound := (List.mem_range'_1.mp present).2
  exact Int32.toInt_ofNat_of_lt (by omega)

section

variable {callers : List (Option Int32 × Int32)} {process : Process}
  {order : List Nat}

theorem Serial.length_threads (serial : Serial callers process order) :
    process.threads.length = callers.length := by
  simpa using congrArg List.length serial.arguments

theorem Serial.subset_range (serial : Serial callers process order) :
    order ⊆ List.range callers.length := by
  intro number present
  obtain ⟨thread, found, _⟩ := (serial.printed number).mp present
  rw [List.mem_range, ← serial.length_threads]
  exact (List.getElem?_eq_some_iff.mp found).1

/-- No thread passes twice. -/
theorem Serial.length_le (serial : Serial callers process order) :
    order.length ≤ callers.length := by
  simpa using (serial.nodup.subperm serial.subset_range).length_le

/-- When all threads have returned, each has served, and the mutex is free. -/
theorem Serial.perm_range (serial : Serial callers process order)
    (returned : process.AllReturned) :
    order.Perm (List.range callers.length) ∧ process.lock = none := by
  constructor
  · apply (List.perm_ext_iff_of_nodup serial.nodup List.nodup_range).mpr
    intro number
    refine ⟨fun present => serial.subset_range present, fun present => ?_⟩
    rw [List.mem_range, ← serial.length_threads] at present
    have found := List.getElem?_eq_getElem present
    exact (serial.printed number).mpr
      ⟨_, found, by simp [returned _ (List.mem_of_getElem? found)]⟩
  · by_contra held
    obtain ⟨number, locked⟩ := Option.ne_none_iff_exists'.mp held
    obtain ⟨thread, found, inside⟩ := serial.exists_thread locked
    simp [returned _ (List.mem_of_getElem? found)] at inside

/-- The output is that of the threads in `order`, and perhaps the `passed data`
line of one more. -/
theorem Serial.output_cases (serial : Serial callers process order) :
    process.output = transcript callers order ∨ ∃ number data,
      process.output = transcript callers order ++ [.passed number data] := by
  cases locked : process.lock with
  | none => exact .inl (serial.free locked).1
  | some number =>
      obtain ⟨thread, found, _⟩ := serial.exists_thread locked
      rw [(serial.held number thread locked found).output]
      split
      · cases arg : thread.arg with
        | none => simp [passedLines]
        | some data => exact .inr ⟨number, data, by simp [passedLines]⟩
      · simp

/-- The counter counts up from one. -/
theorem Serial.counterValues (serial : Serial callers process order) :
    counterValues process.output =
      (List.range' 1 order.length).map Int32.ofNat := by
  rcases serial.output_cases with output | ⟨number, data, output⟩
  · rw [output, counterValues_transcript]
  · rw [output, counterValues_append, counterValues_transcript]
    simp [ThreadMutex.counterValues]

/-- When all threads have returned each has passed. -/
theorem Serial.of_allReturned (serial : Serial callers process order)
    (returned : process.AllReturned) :
    order.length = callers.length ∧
      process.sharedCounter = Int32.ofNat callers.length := by
  obtain ⟨isPerm, free⟩ := serial.perm_range returned
  have all : order.length = callers.length := by simpa using isPerm.length_eq
  exact ⟨all, all ▸ (serial.free free).2⟩

/-- At any time each `passed data` line but the last line is directly followed
by the `counter` line of its thread. -/
theorem Serial.followed (serial : Serial callers process order)
    {before after : List Line}
    {number : Nat} {data : Int32}
    (split : process.output = before ++ .passed number data :: after) :
    after = [] ∨ ∃ value rest, after = .counter number value :: rest := by
  have settled := followed_transcript callers order
  rcases serial.output_cases with output | ⟨last, lastData, output⟩
  · exact .inr (settled before number data after (output.symm.trans split))
  · rcases List.eq_nil_or_concat after with nothing | ⟨rest, line, rfl⟩
    · exact .inl nothing
    · right
      rw [output, List.concat_eq_append, ← List.cons_append,
        ← List.append_assoc] at split
      obtain ⟨value, more, rfl⟩ :=
        settled before number data rest (List.append_inj_left' split rfl)
      exact ⟨value, more ++ [line], by simp⟩

end

/-- Less than `2 ^ 31` threads print the lines `counter: 1`, `counter: 2` and so
on in this order, each directly behind the `passed data` line of the same
thread, and count to their number. -/
theorem counter_of_run {callers : List (Option Int32 × Int32)}
    {events : List Event}
    {final : Process} (few : callers.length < 2147483648)
    (ran : step.run (start callers) events = some final) :
    (∃ printed ≤ callers.length, (counterValues final.output).map Int32.toInt =
        (List.range' 1 printed).map Int.ofNat) ∧
      (∀ before number data after,
        final.output = before ++ .passed number data :: after →
        after = [] ∨ ∃ value rest, after = .counter number value :: rest) ∧
      (final.AllReturned →
        (counterValues final.output).map Int32.toInt =
            (List.range' 1 callers.length).map Int.ofNat ∧
          Followed final.output ∧
          final.sharedCounter.toInt = callers.length) := by
  obtain ⟨order, serial⟩ := exists_serial_of_run ran
  have bound := serial.length_le
  have values : (counterValues final.output).map Int32.toInt =
      (List.range' 1 order.length).map Int.ofNat := by
    rw [serial.counterValues, range'_map_toInt (by omega)]
  refine ⟨⟨order.length, bound, values⟩, fun _ _ _ _ split =>
    serial.followed split, ?_⟩
  intro returned
  obtain ⟨all, sharedCounter⟩ := serial.of_allReturned returned
  have output := (serial.free (serial.perm_range returned).2).1
  refine ⟨all ▸ values, output ▸ followed_transcript callers order, ?_⟩
  rw [sharedCounter, Int32.toInt_ofNat_of_lt (by omega)]

/-- Two threads, of which the second takes the mutex first. -/
theorem counter_of_run_two :
    ∃ final, step.run (start [(some 10, 531), (some 20, 532)])
        ((List.replicate 10 ⟨1, true⟩) ++ (List.replicate 10 ⟨0, true⟩)) =
          some final ∧
      final.output = [.passed 1 20, .counter 1 1, .passed 0 10, .counter 0 2] ∧
      final.sharedCounter.toInt = 2 := by
  have reached : (step.run (start [(some 10, 531), (some 20, 532)])
      ((List.replicate 10 ⟨1, true⟩) ++ (List.replicate 10 ⟨0, true⟩))).map
        (fun final =>
          (final.output, decide (final.threads.map Thread.pc =
            [.returned, .returned]))) =
      some ([.passed 1 20, .counter 1 1, .passed 0 10, .counter 0 2],
        true) := by decide
  obtain ⟨final, ran, values⟩ := Option.map_eq_some_iff.mp reached
  obtain ⟨output, returned⟩ := Prod.mk.inj values
  refine ⟨final, ran, output, ((counter_of_run (by decide) ran).2.2 ?_).2.2⟩
  intro thread present
  have isReturned : thread.pc ∈ final.threads.map Thread.pc :=
    List.mem_map_of_mem present
  simpa [of_decide_eq_true returned] using isReturned

/-- With `2 ^ 31` threads the last line and the counter itself are negative. -/
theorem counter_wraps :
    ∃ events final,
      step.run (start (List.replicate 2147483648 (none, 0))) events =
        some final ∧
      final.AllReturned ∧ final.sharedCounter.toInt = -2147483648 ∧
      (counterValues final.output).map Int32.toInt ≠
        (List.range' 1 2147483648).map Int.ofNat := by
  obtain ⟨events, final, ran, returned⟩ :=
    exists_run_allReturned (List.replicate 2147483648 (none, 0))
  obtain ⟨order, serial⟩ := exists_serial_of_run ran
  have sharedCounter := (serial.of_allReturned returned).2
  rw [List.length_replicate] at sharedCounter
  refine ⟨events, final, ran, returned, ?_, ?_⟩
  · rw [sharedCounter]
    decide
  · intro equal
    have present :
        Int.ofNat 2147483648 ∈ (List.range' 1 2147483648).map Int.ofNat :=
      List.mem_map_of_mem (List.mem_range'_1.mpr ⟨by omega, by omega⟩)
    rw [← equal] at present
    obtain ⟨value, _, isLarge⟩ := List.mem_map.mp present
    exact absurd (isLarge ▸ value.toInt_lt) (by decide)

end ThreadMutex
end LinuxCPractice
