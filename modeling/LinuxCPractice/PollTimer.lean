import LinuxCPractice.Machine
import LinuxCPractice.Numeral
import Mathlib.Algebra.GroupWithZero.Nat

/-!
# The timer on `poll`

The loop of `poll_timer.c`. Each call of `poll` takes place between two
instants, and the clock is read after a timeout. The number of the command line
is an `unsigned long` for the program, but `poll` gets what is left of it in an
`int`, so that a large number may become a short wait.
-/

namespace LinuxCPractice
namespace PollTimer

/-! ## Data -/

/-- A reading of the clock. -/
structure Timespec where
  tvSec : Nat
  tvNsec : Nat
  secFits : tvSec < 9223372036854775808
  nsecFits : tvNsec < 1000000000

/-- The instant of a reading in nanoseconds. -/
def Timespec.instant (ts : Timespec) : Nat := ts.tvSec * 1000000000 + ts.tvNsec

/-- The result of `poll`, and behind a timeout the reading of the clock, if
there is one. -/
inductive Outcome
  | failed
  | ready
  | timedOut (now : Option Timespec)

/-- A call of `poll` with the instants at which it is made and returns. -/
structure Event where
  called : Nat
  returned : Nat
  outcome : Outcome

/-- The loop of `main`. No event comes before `moment`, and `first` is the first
reading of the clock. -/
structure Timer where
  running : Bool
  tsStart : Timespec
  printed : List Nat
  first : Timespec
  moment : Nat

/-! ## The program -/

/-- `timeout`, if `main` accepts the argument. -/
def timeout (arg : List UInt8) : Option Nat :=
  if Numeral.endOffset arg = 0 then none else some (Numeral.strtoul arg)

/-- What `poll` gets of `timeout`. -/
def pollTimeout (timeout : Nat) : Int := (BitVec.ofNat 32 timeout).toInt

/-- The value that is printed, in the type `unsigned long`. -/
def elapsed (start now : Timespec) : Nat :=
  (((now.tvSec : Int) - start.tvSec) % 18446744073709551616).toNat

namespace Timer

/-- The timer once the first time has been read. -/
def start (first : Timespec) : Timer where
  running := true
  tsStart := first
  printed := []
  first := first
  moment := first.instant

/-- A timeout comes no earlier than the milliseconds that `poll` got, and never
if they are negative. The clock does not run backwards. -/
def step (timeout : Nat) : Machine Timer Event := fun timer event =>
  if timer.running ∧ timer.moment ≤ event.called ∧
    event.called ≤ event.returned then
    match event.outcome with
    | .failed => some { timer with running := false }
    | .ready => some { timer with moment := event.returned }
    | .timedOut reading =>
        if 0 ≤ pollTimeout timeout ∧
            event.called + (pollTimeout timeout).toNat * 1000000 ≤
              event.returned then
          match reading with
          | none => some { timer with running := false }
          | some now =>
              if event.returned ≤ now.instant then
                some { timer with
                  tsStart := now
                  printed := timer.printed ++ [elapsed timer.tsStart now]
                  moment := now.instant }
              else none
        else none
  else none

/-- No printed value is below the whole seconds of the number given. -/
def PrintsEnough (timeout : Nat) (timer : Timer) : Prop :=
  ∀ value ∈ timer.printed, timeout / 1000 ≤ value

/-- The printed values make up the time between the first reading and the latest
one behind a timeout, up to less than a second. -/
def SumsUp (timer : Timer) : Prop :=
  ((timer.printed.sum : Int) * 1000000000 -
    (timer.tsStart.instant - timer.first.instant)).natAbs < 1000000000

/-! ## One step -/

section Step

variable {timeout : Nat} {timer next : Timer} {event : Event}

/-- A step either prints nothing and leaves the start as it is, or it follows a
timeout. -/
theorem step_cases (stepped : timer.step timeout event = some next) :
    (next.printed = timer.printed ∧ next.tsStart = timer.tsStart ∧
      next.first = timer.first ∧
        timer.moment ≤ next.moment) ∨
      ∃ now : Timespec, 0 ≤ pollTimeout timeout ∧
        timer.moment + (pollTimeout timeout).toNat * 1000000 ≤ now.instant ∧
        next = { timer with
          tsStart := now
          printed := timer.printed ++ [elapsed timer.tsStart now]
          moment := now.instant } := by
  unfold step at stepped
  split at stepped
  · rename_i order
    split at stepped
    · cases stepped
      exact .inl ⟨rfl, rfl, rfl, le_refl _⟩
    · cases stepped
      exact .inl ⟨rfl, rfl, rfl, order.2.1.trans order.2.2⟩
    · split at stepped
      · rename_i late
        split at stepped
        · cases stepped
          exact .inl ⟨rfl, rfl, rfl, le_refl _⟩
        · rename_i now _
          split at stepped <;> cases stepped
          exact .inr ⟨now, late.1, by omega, rfl⟩
      · cases stepped
  · cases stepped

/-- A wait that is just long enough may time out. -/
theorem step_timedOut {now : Timespec} (running : timer.running = true)
    (timed : 0 ≤ pollTimeout timeout)
    (late : timer.moment + (pollTimeout timeout).toNat * 1000000 ≤
      now.instant) :
    timer.step timeout ⟨timer.moment, now.instant, .timedOut (some now)⟩ =
      some { timer with
        tsStart := now
        printed := timer.printed ++ [elapsed timer.tsStart now]
        moment := now.instant } := by
  have order : timer.moment ≤ now.instant := by omega
  simp [step, running, timed, late, order]

/-- The seconds between two readings, with the nanoseconds of both dropped. -/
theorem elapsed_add {start now : Timespec}
    (order : start.instant ≤ now.instant) :
    elapsed start now + start.tvSec = now.tvSec := by
  have startFits := start.nsecFits
  have nowFits := now.nsecFits
  have bound := now.secFits
  rw [Timespec.instant, Timespec.instant] at order
  have later : start.tvSec ≤ now.tvSec := by omega
  rw [elapsed]
  omega

/-- The printed values add up to the seconds since the first reading. -/
structure Telescopes (timer : Timer) : Prop where
  started : timer.tsStart.instant ≤ timer.moment
  sum : timer.printed.sum + timer.first.tvSec = timer.tsStart.tvSec

theorem telescopes_start (first : Timespec) : (start first).Telescopes :=
  ⟨le_refl _, Nat.zero_add _⟩

/-- The values printed add up to the time between the readings. -/
theorem Telescopes.step (telescopes : timer.Telescopes)
    (stepped : timer.step timeout event = some next) : next.Telescopes := by
  rcases step_cases stepped with ⟨printed, tsStart, first, later⟩
    | ⟨now, _, late, rfl⟩
  · refine ⟨?_, ?_⟩
    · rw [tsStart]
      exact telescopes.started.trans later
    · rw [printed, first, tsStart]
      exact telescopes.sum
  · have order : timer.tsStart.instant ≤ now.instant := by
      have started := telescopes.started
      omega
    refine ⟨le_refl _, ?_⟩
    have sum := telescopes.sum
    have last := elapsed_add order
    rw [List.sum_append, List.sum_singleton]
    dsimp only
    omega

/-- The sum of the values comes close to the time that has passed. -/
theorem Telescopes.sumsUp (telescopes : timer.Telescopes) : timer.SumsUp := by
  have sum := telescopes.sum
  have startFits := timer.tsStart.nsecFits
  have firstFits := timer.first.nsecFits
  rw [SumsUp, Timespec.instant, Timespec.instant]
  omega

/-- A wait that is not cut short lasts its whole seconds. -/
theorem le_elapsed {start now : Timespec} {milliseconds : Nat}
    (late : start.instant + milliseconds * 1000000 ≤ now.instant) :
    milliseconds / 1000 ≤ elapsed start now := by
  have startFits := start.nsecFits
  have nowFits := now.nsecFits
  have last := elapsed_add (show start.instant ≤ now.instant by omega)
  rw [Timespec.instant, Timespec.instant] at late
  omega

end Step

end Timer

/-! ## Runs -/

/-- `poll` waits for the number given, or for ever. -/
def PollWaits (timeout : Nat) : Prop :=
  timeout < 2147483648 ∨ 2147483648 ≤ timeout % 4294967296

instance (timeout : Nat) : Decidable (PollWaits timeout) :=
  inferInstanceAs (Decidable (_ ∨ _))

/-- A timeout below `2 ^ 31` is the one that `poll` is given. -/
theorem pollTimeout_of_lt {timeout : Nat}
    (small : timeout % 4294967296 < 2147483648) :
    pollTimeout timeout = (timeout % 4294967296 : Nat) := by
  rw [pollTimeout, BitVec.toInt_eq_toNat_cond, BitVec.toNat_ofNat,
    if_pos (by omega)]

/-- From there on `poll` is given a negative one. -/
theorem pollTimeout_of_le {timeout : Nat}
    (large : 2147483648 ≤ timeout % 4294967296) :
    pollTimeout timeout < 0 := by
  rw [pollTimeout, BitVec.toInt_eq_toNat_cond, BitVec.toNat_ofNat,
    if_neg (by omega)]
  omega

/-- A wait for the number given keeps the promise about the printed values. -/
theorem Timer.printsEnough_step {timeout : Nat} {timer next : Timer}
    {event : Event}
    (waits : PollWaits timeout) (telescopes : timer.Telescopes)
    (enough : timer.PrintsEnough timeout)
    (stepped : timer.step timeout event = some next) :
    next.PrintsEnough timeout := by
  rcases step_cases stepped with ⟨printed, _⟩ | ⟨now, timed, late, rfl⟩
  · rw [PrintsEnough, printed]
    exact enough
  · intro value isPrinted
    rcases List.mem_append.mp isPrinted with earlier | last
    · exact enough value earlier
    · rw [List.mem_singleton.mp last]
      rcases waits with small | forever
      · rw [pollTimeout_of_lt (by omega), Int.toNat_natCast,
          Nat.mod_eq_of_lt (by omega)] at late
        have started := telescopes.started
        exact le_elapsed (by omega)
      · have never := pollTimeout_of_le forever
        omega

/-- A reading after so many milliseconds. -/
def readingAt (milliseconds : Nat)
    (fits : milliseconds < 4294967296) : Timespec where
  tvSec := milliseconds / 1000
  tvNsec := milliseconds % 1000 * 1000000
  secFits := by omega
  nsecFits := by omega

/-- The instant of a reading. -/
theorem instant_readingAt {milliseconds : Nat}
    (fits : milliseconds < 4294967296) :
    (readingAt milliseconds fits).instant = milliseconds * 1000000 := by
  simp only [readingAt, Timespec.instant]
  omega

/-- When the number is cut to a smaller one, the first wait is too short
already. -/
theorem exists_run_too_short {timeout : Nat} (cut : ¬PollWaits timeout) :
    ∃ first events final,
      (Timer.step timeout).run (.start first) events = some final ∧
      ¬final.PrintsEnough timeout := by
  obtain ⟨large, small⟩ := not_or.mp cut
  have fits : timeout % 4294967296 < 4294967296 := Nat.mod_lt _ (by decide)
  have waits := pollTimeout_of_lt (not_le.mp small)
  let first := readingAt 0 (by decide)
  let now := readingAt (timeout % 4294967296) fits
  have early :
      (Timer.start first).moment + (pollTimeout timeout).toNat * 1000000 ≤
      now.instant := by
    change first.instant + _ ≤ _
    rw [instant_readingAt, instant_readingAt, waits, Int.toNat_natCast]
    omega
  have stepped := Timer.step_timedOut rfl (by omega) early
  have ran : (Timer.step timeout).run (.start first)
      [⟨(Timer.start first).moment, now.instant, .timedOut (some now)⟩] = some
        { Timer.start first with
          tsStart := now
          printed := [elapsed first now]
          moment := now.instant } := by
    rw [Machine.run_cons, stepped]
    rfl
  refine ⟨first, _, _, ran, fun enough => ?_⟩
  have isPrinted : elapsed first now ∈ [elapsed first now] :=
    List.mem_singleton_self _
  have short : timeout / 1000 ≤ elapsed first now := enough _ isPrinted
  have order : first.instant ≤ now.instant := by
    rw [instant_readingAt, instant_readingAt]
    exact Nat.mul_le_mul_right _ (Nat.zero_le _)
  have value : elapsed first now + first.tvSec = now.tvSec :=
    Timer.elapsed_add order
  have whole : now.tvSec = timeout % 4294967296 / 1000 := rfl
  omega

/-- The loop of `main` behind its first reading of the clock, for an argument
that is accepted. -/
def main (arg : List UInt8) (first : Timespec)
    (events : List Event) : Option Timer :=
  (timeout arg).bind fun number => (Timer.step number).run (.start first) events

/-- For every argument that is accepted: in all runs the printed values are at
least the whole seconds of the number, and they sum up to the time that has
passed, exactly when the number gets through to `poll` or makes it wait for
ever. -/
theorem elapsed_is_enough_iff {arg : List UInt8} {number : Nat}
    (accepted : timeout arg = some number) :
    (∀ first events final, main arg first events = some final →
        final.PrintsEnough number ∧ final.SumsUp) ↔ PollWaits number := by
  have runs : ∀ first events, main arg first events =
      (Timer.step number).run (.start first) events := by
    intro first events
    rw [main, accepted, Option.bind_some]
  simp only [runs]
  constructor
  · intro always
    by_contra cut
    obtain ⟨first, events, final, ran, short⟩ := exists_run_too_short cut
    exact short (always first events final ran).1
  · intro waits first events final ran
    have invariant := Machine.run_invariant
      (fun timer => timer.PrintsEnough number ∧ timer.Telescopes)
      (fun _ _ _ kept stepped =>
        ⟨Timer.printsEnough_step waits kept.2 kept.1 stepped,
          kept.2.step stepped⟩)
      ⟨fun _ isPrinted => absurd isPrinted (List.not_mem_nil),
        Timer.telescopes_start first⟩ ran
    exact ⟨invariant.1, invariant.2.sumsUp⟩

/-- A wait of one and a half seconds. -/
def waitFor1500 : List Event :=
  [⟨0, 1500000000, .timedOut (some (readingAt 1500 (by decide)))⟩]

/-- A timeout of a second and a half. -/
theorem elapsed_is_enough_iff_1500 :
    ∃ final, main (CString.ofString "1500")
      (readingAt 0 (by decide)) waitFor1500 = some final ∧
      final.printed = [1] ∧ final.PrintsEnough 1500 ∧ final.SumsUp := by
  have reached :
      (main (CString.ofString "1500") (readingAt 0 (by decide)) waitFor1500).map
      Timer.printed = some [1] := by decide
  obtain ⟨final, ran, printed⟩ := Option.map_eq_some_iff.mp reached
  exact ⟨final, ran, printed, (elapsed_is_enough_iff (by decide)).mpr
    (by decide) _ _ _ ran⟩

/-- Of the number 4294967296 nothing is left for `poll`, which returns at
once. -/
theorem not_elapsed_is_enough :
    ¬∀ (arg : List UInt8) (number : Nat) (first : Timespec)
      (events : List Event) (final : Timer), timeout arg = some number →
          main arg first events = some final →
      final.PrintsEnough number ∧ final.SumsUp := by
  intro claimed
  have accepted : timeout (CString.ofString "4294967296") =
      some 4294967296 := by decide
  obtain ⟨first, events, final, ran, short⟩ :=
    exists_run_too_short (show ¬PollWaits 4294967296 by decide)
  refine short (claimed _ _ first events final accepted ?_).1
  rw [main, accepted, Option.bind_some, ran]

end PollTimer
end LinuxCPractice
