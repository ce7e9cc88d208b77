import LinuxCPractice.Numeral
import LinuxCPractice.SortAndSearch

/-!
# From the command line to the report

`main` of `sortandsearch.c` as a whole. The length of the array is a number of
the command line, which `main` itself limits to 256. A single call of
`getentropy` fills the array, and gives no more than 256 bytes. That is enough
for 64 numbers.
-/

namespace LinuxCPractice
namespace SortAndSearch

open Comparator

/-- `sizeof(int)` -/
def sizeofInt : Nat := 4

/-- What `getentropy` is documented to do: fill an array with `count` numbers,
or fail. It fails for more than 256 bytes. -/
structure Getentropy where
  run : Nat → Option (List Int32)
  fills : ∀ count buffer, run count = some buffer → buffer.length = count
  limit : ∀ count, 256 < count * sizeofInt → run count = none

/-- A `getentropy` whose numbers are those from zero on. -/
def Getentropy.counting : Getentropy where
  run count :=
    if count * sizeofInt ≤ 256 then some ((List.range count).map Int32.ofNat)
    else none
  fills count buffer filled := by
    obtain ⟨_, same⟩ := Option.ite_none_right_eq_some.mp filled
    simp [← Option.some.inj same]
  limit count long := if_neg (Nat.not_le.mpr long)

/-- `main` exits with a failure and a message, or returns behind its report. -/
inductive Outcome
  | exited (message : String)
  | returned (report : Report)
  deriving DecidableEq

section Main

variable (memory : Bool) (getentropy : Getentropy) (qsort : Qsort Int32)
  (bsearch : Bsearch Int32)

/-- `main`, with `memory` for the array or without. -/
def main (args : List (List UInt8)) : Outcome :=
  match args with
  | [_, arg] =>
      let len := Numeral.strtoul arg
      if Numeral.endOffset arg = 0 then .exited "strtoul failed\n"
      else if 256 < len then .exited "max len is 256\n"
      else if memory = false then .exited "reallocarray failed\n"
      else
        match getentropy.run len with
        | none => .exited "getentropy failed\n"
        | some buffer => .returned (report qsort bsearch buffer)
  | _ => .exited "need to type len to generate random-data-buffer\n"

/-! ## The arguments that lead to a report -/

/-- The argument stands for a number of at most 64. With a minus that is zero,
or a number just below `2 ^ 64`, which comes out positive. -/
def Short (arg : List UInt8) : Prop :=
  let parts := Numeral.scan arg
  parts.digits ≠ [] ∧
    if parts.sign = [45] then
      Numeral.magnitude parts.digits = 0 ∨
        18446744073709551552 ≤ Numeral.magnitude parts.digits ∧
          Numeral.magnitude parts.digits ≤ 18446744073709551615
    else Numeral.magnitude parts.digits ≤ 64

/-- `strtoul` moves on exactly if there are digits. -/
theorem endOffset_ne_zero_iff {arg : List UInt8} :
    Numeral.endOffset arg ≠ 0 ↔ (Numeral.scan arg).digits ≠ [] := by
  simp only [Numeral.endOffset]
  split
  · rename_i none
    simp [none]
  · rename_i number
    simp [number]

/-- The argument is short exactly if it has digits for at most 64. -/
theorem short_iff {arg : List UInt8} :
    Short arg ↔ (Numeral.scan arg).digits ≠ [] ∧ Numeral.strtoul arg ≤ 64 := by
  apply and_congr_right
  intro _
  simp only [Numeral.strtoul]
  split <;> split <;> omega

/-- One number is asked for. -/
example : Numeral.strtoul (CString.ofString "-18446744073709551615") =
      1 := by decide

variable {memory getentropy qsort bsearch}

/-- Behind all checks stands an array of at most 64 numbers. -/
theorem main_eq_returned_iff {args : List (List UInt8)} {shown : Report} :
    main memory getentropy qsort bsearch args = .returned shown ↔
      ∃ program arg buffer, args = [program, arg] ∧
        (Numeral.scan arg).digits ≠ [] ∧
        Numeral.strtoul arg ≤ 64 ∧ memory = true ∧
        getentropy.run (Numeral.strtoul arg) = some buffer ∧
        shown = report qsort bsearch buffer := by
  match args with
  | [] | [_] | _ :: _ :: _ :: _ => simp [main]
  | [program, arg] =>
      have short (buffer : List Int32)
          (filled : getentropy.run (Numeral.strtoul arg) = some buffer) :
          Numeral.strtoul arg ≤ 64 := by
        by_contra long
        rw [getentropy.limit _ (by rw [sizeofInt]; omega)] at filled
        cases filled
      simp only [main]
      constructor
      · intro returns
        split at returns
        · cases returns
        rename_i number
        split at returns
        · cases returns
        split at returns
        · cases returns
        rename_i allocated
        split at returns
        · cases returns
        rename_i buffer filled
        cases returns
        exact ⟨program, arg, buffer, rfl, endOffset_ne_zero_iff.mp number,
          short buffer filled, by simpa using allocated, filled, rfl⟩
      · rintro ⟨_, _, buffer, ⟨⟩, number, few, allocated, filled, rfl⟩
        have inside : ¬256 < Numeral.strtoul arg := by omega
        simp only [endOffset_ne_zero_iff.mpr number, inside, allocated, filled,
          if_false, Bool.true_eq_false]

/-- Of all command lines `main` reports only for those with one argument that
stands for at most 64, read as `strtoul` does, and then exactly if there are
memory and random numbers for it. Every longer array that its own check lets
pass ends it in `getentropy`. The report is of that many numbers, and correct
whenever any two of them are less than `2 ^ 31` apart. -/
theorem main_reports (args : List (List UInt8)) :
    ((∃ shown, main memory getentropy qsort bsearch args = .returned shown) ↔
        ∃ program arg, args = [program, arg] ∧ Short arg ∧ memory = true ∧
          (getentropy.run (Numeral.strtoul arg)).isSome) ∧
      (∀ program arg, args = [program, arg] → (Numeral.scan arg).digits ≠ [] →
        64 < Numeral.strtoul arg → Numeral.strtoul arg ≤ 256 → memory = true →
        main memory getentropy qsort bsearch args =
          .exited "getentropy failed\n") ∧
      ∀ shown, main memory getentropy qsort bsearch args = .returned shown →
        ∃ program arg, args = [program, arg] ∧
          shown.first.length = Numeral.strtoul arg ∧
          (Narrow shown.first → shown.Correct) := by
  refine ⟨?_, ?_, ?_⟩
  · simp only [main_eq_returned_iff, short_iff]
    constructor
    · rintro ⟨_, program, arg, buffer, rfl, number, few, allocated, filled, _⟩
      exact ⟨program, arg, rfl, ⟨number, few⟩, allocated, by rw [filled]; rfl⟩
    · rintro ⟨program, arg, rfl, ⟨number, few⟩, allocated, filled⟩
      obtain ⟨buffer, filled⟩ := Option.isSome_iff_exists.mp filled
      exact ⟨_, program, arg, buffer, rfl, number, few, allocated, filled, rfl⟩
  · rintro program arg rfl number long inside allocated
    have empty : getentropy.run (Numeral.strtoul arg) = none :=
      getentropy.limit _ (by rw [sizeofInt]; omega)
    have passes : ¬256 < Numeral.strtoul arg := by omega
    simp only [main, endOffset_ne_zero_iff.mpr number, passes, allocated, empty,
      if_false, Bool.true_eq_false]
  · intro shown returns
    obtain ⟨program, arg, buffer, rfl, _, _, _, filled, rfl⟩ :=
      main_eq_returned_iff.mp returns
    exact ⟨program, arg, rfl, getentropy.fills _ _ filled,
      fun narrow =>
        correct_of_agrees qsort bsearch (agrees_sub_iff_narrow.mpr narrow)⟩

/-- Three numbers are asked for, sorted and searched. -/
theorem main_reports_three :
    ∃ shown, main true .counting .insertion .linear
        [CString.ofString "sortandsearch", CString.ofString "3"] =
          .returned shown ∧
      shown.first.length = 3 ∧ shown.Correct := by
  obtain ⟨reports, _, correct⟩ :=
    @main_reports true .counting .insertion .linear
    [CString.ofString "sortandsearch", CString.ofString "3"]
  have short : Short (CString.ofString "3") := short_iff.mpr (by decide)
  obtain ⟨shown, returned⟩ := reports.mpr ⟨_, _, rfl, short, rfl, by decide⟩
  obtain ⟨_, _, ⟨⟩, length, correct⟩ := correct shown returned
  refine ⟨shown, returned, length, correct ?_⟩
  obtain ⟨_, _, buffer, ⟨⟩, _, _, _, filled, rfl⟩ :=
    main_eq_returned_iff.mp returned
  have numbers : some buffer = some [0, 1, 2] := filled.symm.trans (by decide)
  obtain rfl := Option.some.inj numbers
  decide

end Main

end SortAndSearch
end LinuxCPractice
