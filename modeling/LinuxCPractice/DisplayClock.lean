import Mathlib.Algebra.Ring.Divisibility.Basic
import Mathlib.Algebra.Ring.Int.Defs
import Mathlib.Data.String.Defs
import Mathlib.Tactic.Linarith

/-!
# The fields of a clock

`display_clock` of `time.c` splits the seconds of a clock into days, hours,
minutes and seconds. The seconds of the minute are computed behind a cast of all
the seconds to `int`, the hours and the minutes behind a remainder that fits
one.
-/

namespace LinuxCPractice
namespace DisplayClock

/-- What `clock_gettime` fills in. -/
structure Timespec where
  tvSec : Int64
  tvNsec : Int64
  deriving DecidableEq

/-- The fields that are printed in brackets. -/
structure Fields where
  days : Option Int64
  hours : Int32
  minutes : Int32
  seconds : Int32
  deriving DecidableEq

/-- `SECS_IN_DAY` -/
def secsInDay : Int64 := 24 * 60 * 60

/-- Only a positive number of days is printed. -/
def fields (ts : Timespec) : Fields where
  days :=
    let days := ts.tvSec / secsInDay
    if 0 < days then some days else none
  hours := (ts.tvSec % secsInDay).toInt32 / 3600
  minutes := (ts.tvSec % 3600).toInt32 / 60
  seconds := ts.tvSec.toInt32 % 60

/-- The text of the fields. -/
def Fields.text (fields : Fields) : String :=
  (match fields.days with
    | some days => s!"{days} days + "
    | none => "") ++
  (toString fields.hours).leftpad 2 ++ "h " ++
    (toString fields.minutes).leftpad 2 ++ "m " ++
    (toString fields.seconds).leftpad 2 ++ "s"

/-- The first line printed for a clock, or the message with which the program
exits. The broken-down time behind it, of the realtime clock only, is left to
`localtime`. -/
def displayClock (name : String) (clock : Option Timespec) :
    Except String String :=
  match clock with
  | none => .error "clock_gettime"
  | some ts =>
      .ok (name ++ String.ofList (List.replicate (15 - name.length) ' ') ++
        ": " ++
        (toString ts.tvSec).leftpad 10 ++ "." ++
        (toString (ts.tvNsec / 1000000)).leftpad 3 '0' ++ " (" ++
        (fields ts).text ++ ")\n")

/-- The fields are in their ranges and together make up the time. -/
abbrev Fields.Recombine (fields : Fields) (seconds : Int) : Prop :=
  (0 ≤ fields.hours.toInt ∧ fields.hours.toInt < 24) ∧
    (0 ≤ fields.minutes.toInt ∧ fields.minutes.toInt < 60) ∧
    (0 ≤ fields.seconds.toInt ∧ fields.seconds.toInt < 60) ∧
    (fields.days.getD 0).toInt * 86400 + fields.hours.toInt * 3600 +
      fields.minutes.toInt * 60 + fields.seconds.toInt = seconds

/-! ## The fields that are cast behind the remainder -/

section

variable {ts : Timespec} (nonneg : 0 ≤ ts.tvSec.toInt)

include nonneg

/-- A remainder of a time fits an `int`. -/
theorem toInt_remainder (modulus : Int64) (positive : 0 < modulus.toInt)
    (small : modulus.toInt ≤ 86400) :
    (ts.tvSec % modulus).toInt32.toInt = ts.tvSec.toInt % modulus.toInt := by
  rw [Int64.toInt_toInt32, Int64.toInt_mod, Int.tmod_eq_emod_of_nonneg nonneg]
  have lower := Int.emod_nonneg ts.tvSec.toInt positive.ne'
  have upper := Int.emod_lt_of_pos ts.tvSec.toInt positive
  exact Int.bmod_eq_of_le (by omega) (by omega)

/-- The number of days that are shown. -/
theorem toInt_days :
    ((fields ts).days.getD 0).toInt = ts.tvSec.toInt / 86400 := by
  have quotient : (ts.tvSec / secsInDay).toInt = ts.tvSec.toInt / 86400 := by
    rw [Int64.toInt_div_of_ne_right _ _ (by decide),
      Int.tdiv_eq_ediv_of_nonneg nonneg]
    rfl
  simp only [fields]
  split
  · exact quotient
  · next notPositive =>
      rw [Int64.lt_iff_toInt_lt, quotient] at notPositive
      simp at notPositive ⊢
      omega

/-- The number of hours that are shown. -/
theorem toInt_hours :
    (fields ts).hours.toInt = ts.tvSec.toInt % 86400 / 3600 := by
  have remainder := toInt_remainder nonneg secsInDay (by decide) (by decide)
  rw [fields, Int32.toInt_div_of_ne_right _ _ (by decide), remainder]
  exact Int.tdiv_eq_ediv_of_nonneg (Int.emod_nonneg _ (by decide))

/-- The number of minutes that are shown. -/
theorem toInt_minutes :
    (fields ts).minutes.toInt = ts.tvSec.toInt % 3600 / 60 := by
  have remainder := toInt_remainder nonneg 3600 (by decide) (by decide)
  rw [fields, Int32.toInt_div_of_ne_right _ _ (by decide), remainder]
  exact Int.tdiv_eq_ediv_of_nonneg (Int.emod_nonneg _ (by decide))

/-- The days, hours and minutes are right whatever the seconds are. -/
theorem recombine_iff_seconds :
    (fields ts).Recombine ts.tvSec.toInt ↔
      (fields ts).seconds.toInt = ts.tvSec.toInt % 60 := by
  rw [Fields.Recombine, toInt_days nonneg, toInt_hours nonneg,
    toInt_minutes nonneg]
  have hour : ts.tvSec.toInt % 86400 % 3600 = ts.tvSec.toInt % 3600 :=
    Int.emod_emod_of_dvd _ (by decide)
  have minute : ts.tvSec.toInt % 3600 % 60 = ts.tvSec.toInt % 60 :=
    Int.emod_emod_of_dvd _ (by decide)
  omega

end

/-! ## The field that is cast before the remainder -/

/-- The cast drops the upper half of the time, a multiple of `2 ^ 32`, and takes
the lower half for a negative number from `2 ^ 31` on. -/
theorem toInt_seconds (ts : Timespec) :
    (fields ts).seconds.toInt = if ts.tvSec.toInt % 4294967296 < 2147483648 then
      ts.tvSec.toInt % 4294967296 % 60
    else -((4294967296 - ts.tvSec.toInt % 4294967296) % 60) := by
  have upper :=
    Int.emod_lt_of_pos ts.tvSec.toInt (show 0 < 4294967296 by decide)
  have lower :=
    Int.emod_nonneg ts.tvSec.toInt (show (4294967296 : Int) ≠ 0 by decide)
  rw [fields, Int32.toInt_mod, Int64.toInt_toInt32, Int.bmod_def]
  split
  · next small =>
      rw [if_pos (by omega), Int.tmod_eq_emod_of_nonneg (by omega)]
      rfl
  · next large =>
      rw [if_neg (by omega), ← Int.neg_sub, Int.neg_tmod,
        Int.tmod_eq_emod_of_nonneg (by omega)]
      rfl

/-- `2 ^ 32` is sixteen more than a multiple of sixty. -/
theorem sixty_dvd_iff {upper : Int} :
    60 ∣ 4294967296 * upper ↔ 15 ∣ upper := by omega

/-- The seconds survive the loss of the upper half exactly if it is a multiple
of 15. -/
theorem emod_sixty_of_low {seconds upper lower : Int}
    (split : seconds = 4294967296 * upper + lower) :
    lower % 60 = seconds % 60 ↔ 15 ∣ upper := by
  rw [eq_comm, Int.emod_eq_emod_iff_emod_sub_eq_zero, split, Int.add_sub_cancel,
    ← Int.dvd_iff_emod_eq_zero, sixty_dvd_iff]

/-- A remainder below zero is equal to one above zero when both are zero. -/
theorem emod_sixty_of_high {seconds upper missing : Int}
    (split : seconds = 4294967296 * (upper + 1) - missing) :
    -(missing % 60) = seconds % 60 ↔ 15 ∣ upper + 1 ∧ 60 ∣ seconds := by
  have zero : -(missing % 60) = seconds % 60 ↔
      missing % 60 = 0 ∧ seconds % 60 = 0 := by
    have lowerMissing := Int.emod_nonneg missing (show (60 : Int) ≠ 0 by decide)
    have lowerSeconds := Int.emod_nonneg seconds (show (60 : Int) ≠ 0 by decide)
    clear split
    omega
  have rest : missing = 4294967296 * (upper + 1) - seconds := by
    rw [split, Int.sub_sub_self]
  rw [zero, ← Int.dvd_iff_emod_eq_zero, ← Int.dvd_iff_emod_eq_zero, rest]
  exact and_congr_left fun divides => (dvd_sub_left divides).trans sixty_dvd_iff

/-- The cast leaves the seconds of the minute as they are: what it drops is a
whole number of minutes, and there is no remainder to take the sign of a
negative number. -/
def CastHarmless (seconds : Int) : Prop :=
  (seconds % 4294967296 < 2147483648 ∧ 15 ∣ seconds / 4294967296) ∨
    (2147483648 ≤ seconds % 4294967296 ∧ 15 ∣ seconds / 4294967296 + 1 ∧
      60 ∣ seconds)

instance (seconds : Int) : Decidable (CastHarmless seconds) :=
  inferInstanceAs (Decidable (_ ∨ _))

/-- The printed fields make up the time exactly when the cast of the seconds to
`int` is harmless. -/
theorem recombine_iff_castHarmless {ts : Timespec}
    (nonneg : 0 ≤ ts.tvSec.toInt) :
    (fields ts).Recombine ts.tvSec.toInt ↔ CastHarmless ts.tvSec.toInt := by
  have split := Int.mul_ediv_add_emod ts.tvSec.toInt 4294967296
  rw [recombine_iff_seconds nonneg, toInt_seconds, CastHarmless]
  by_cases small : ts.tvSec.toInt % 4294967296 < 2147483648
  · rw [if_pos small, emod_sixty_of_low split.symm]
    simp [small, not_le.mpr small]
  · have splitHigh :
        ts.tvSec.toInt = 4294967296 * (ts.tvSec.toInt / 4294967296 + 1) -
        (4294967296 - ts.tvSec.toInt % 4294967296) := by
      linarith only [split]
    rw [if_neg small, emod_sixty_of_high splitHigh]
    simp [small, not_lt.mp small]

/-- The last second for which the cast changes nothing. -/
theorem recombine_iff_castHarmless_last :
    (fields ⟨2147483647, 0⟩).Recombine 2147483647 ↔ CastHarmless 2147483647 :=
  recombine_iff_castHarmless
    (show 0 ≤ (Timespec.mk 2147483647 0).tvSec.toInt by decide)

/-- The second after it is shown as minus eight. -/
theorem not_recombine_of_cast :
    fields ⟨2147483648, 0⟩ = ⟨some 24855, 3, 14, -8⟩ ∧
      ¬(fields ⟨2147483648, 0⟩).Recombine 2147483648 := by
  decide

end DisplayClock
end LinuxCPractice
