import LinuxCPractice.Comparator

/-!
# Sorting an array and searching for an element of it

`main` of `sortandsearch.c` behind `getentropy`, for any array of numbers. Both
`qsort` and `bsearch` are given the same comparison function, a subtraction.
-/

namespace LinuxCPractice
namespace SortAndSearch

open Comparator

/-- The comparison of `qsort` and `bsearch`, a difference that may wrap
around. -/
def comparison : Comparator Int32 := fun first second => first - second

/-- What is printed: the array before and behind `qsort`, and whether `bsearch`
has found the key. -/
structure Report where
  first : List Int32
  second : List Int32
  key : Int32
  found : Bool
  deriving DecidableEq

/-- The three lines. -/
def Report.text (report : Report) : String :=
  let line (numbers : List Int32) :=
    String.join (numbers.map fun number => s!"{number} ") ++ "\n"
  line report.first ++ line report.second ++
    if report.found then s!"{report.key} found\n"
    else s!"{report.key} NOT found\n"

/-- The sample is the first element, or zero. -/
def report (qsort : Qsort Int32) (bsearch : Bsearch Int32)
    (buffer : List Int32) : Report :=
  let key := buffer.head?.getD 0
  let sorted := qsort.run comparison buffer
  { first := buffer
    second := sorted
    key := key
    found := (bsearch.run comparison key sorted).isSome }

/-- The second line is the ascending permutation of the first, and a sample is
found. -/
structure Report.Correct (report : Report) : Prop where
  permutation : report.second.Perm report.first
  ascending : report.second.Pairwise fun first second =>
    first.toInt ≤ second.toInt
  found : report.first ≠ [] → report.found = true

/-- The report is correct if the comparison agrees with the values. -/
theorem correct_of_agrees (qsort : Qsort Int32) (bsearch : Bsearch Int32)
    {buffer : List Int32}
    (agrees : Agrees comparison Int32.toInt buffer) :
    (report qsort bsearch buffer).Correct := by
  obtain ⟨permutation, ascends⟩ :=
    qsort.sorts comparison buffer agrees.totalPreorder
  refine ⟨permutation, ?_, ?_⟩
  · refine ascends.imp_of_mem ?_
    intro first second isFirst isSecond ordered
    have greater :=
      agrees.pos_iff (permutation.mem_iff.mp isFirst)
        (permutation.mem_iff.mp isSecond)
    omega
  · intro nonempty
    obtain ⟨key, rest, rfl⟩ := List.exists_cons_of_ne_nil nonempty
    have isKey : key ∈ key :: rest := List.mem_cons_self
    have order : TotalPreorder comparison
        (key :: qsort.run comparison (key :: rest)) := by
      refine (agrees.subset ?_).totalPreorder
      exact List.cons_subset.mpr ⟨isKey, permutation.subset⟩
    have finds := bsearch.finds comparison key _ order ascends
    change (bsearch.run comparison key
      (qsort.run comparison (key :: rest))).isSome = true
    cases search :
      bsearch.run comparison key (qsort.run comparison (key :: rest)) with
    | some position => rfl
    | none =>
        rw [search] at finds
        exact absurd ((agrees.eq_zero_iff isKey isKey).mpr rfl)
          (finds key (permutation.mem_iff.mpr isKey))

/-- The comparison function agrees with the order of the numbers, so that every
correct `qsort` and `bsearch` print a correct report, exactly when any two
elements are less than `2 ^ 31` apart. -/
theorem agrees_and_correct_iff_narrow (buffer : List Int32) :
    (Agrees comparison Int32.toInt buffer ∧ TotalPreorder comparison buffer ∧
        ∀ qsort bsearch, (report qsort bsearch buffer).Correct) ↔
          Narrow buffer := by
  constructor
  · rintro ⟨agrees, _, _⟩
    exact agrees_sub_iff_narrow.mp agrees
  · intro narrow
    have agrees : Agrees comparison Int32.toInt buffer :=
      agrees_sub_iff_narrow.mpr narrow
    exact ⟨agrees, agrees.totalPreorder,
      fun qsort bsearch => correct_of_agrees qsort bsearch agrees⟩

/-- Two numbers too far apart are sorted the wrong way round. -/
theorem not_correct_of_wide :
    report Qsort.insertion Bsearch.linear [2147483647, -2] =
        ⟨[2147483647, -2], [2147483647, -2], 2147483647, true⟩ ∧
      ¬(Agrees comparison Int32.toInt [2147483647, -2] ∧
        TotalPreorder comparison [2147483647, -2] ∧
        ∀ qsort bsearch, (report qsort bsearch [2147483647, -2]).Correct) := by
  refine ⟨by decide, ?_⟩
  rintro ⟨agrees, _⟩
  exact absurd (agrees_sub_iff_narrow.mp agrees) (by decide)

end SortAndSearch
end LinuxCPractice
