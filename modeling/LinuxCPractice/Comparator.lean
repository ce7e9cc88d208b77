import Mathlib.Data.List.Sort
import Mathlib.Data.Int.Order.Basic
import Mathlib.Tactic.SplitIfs

/-!
# Comparison functions

A comparison function in C returns an `int` of which only the sign counts. The
library functions that are given one expect that it orders the elements they
come upon.
-/

namespace LinuxCPractice

/-- The result of a comparison, as the sign of an `int`. -/
abbrev Comparator (α : Type*) := α → α → Int32

namespace Comparator

variable {α : Type*}

/-- The function orders the elements, some of which may be equivalent. -/
structure TotalPreorder (compare : Comparator α)
    (elements : List α) : Prop where
  antisymmetric : ∀ first ∈ elements, ∀ second ∈ elements,
    0 < (compare first second).toInt ↔ (compare second first).toInt < 0
  transitive : ∀ first ∈ elements, ∀ second ∈ elements, ∀ third ∈ elements,
    (compare first second).toInt ≤ 0 → (compare second third).toInt ≤ 0 →
      (compare first third).toInt ≤ 0

/-- The sign is that of the difference of two values. -/
def Agrees (compare : Comparator α) (value : α → Int)
    (elements : List α) : Prop :=
  ∀ first ∈ elements, ∀ second ∈ elements,
    (compare first second).toInt.sign = (value first - value second).sign

namespace Agrees

variable {compare : Comparator α} {value : α → Int} {elements : List α}
  {first second : α}

/-- A negative result means less. -/
theorem neg_iff (agrees : Agrees compare value elements)
    (isFirst : first ∈ elements)
    (isSecond : second ∈ elements) :
    (compare first second).toInt < 0 ↔ value first < value second := by
  rw [← Int.sign_eq_neg_one_iff_neg, agrees first isFirst second isSecond,
    Int.sign_eq_neg_one_iff_neg]
  omega

/-- A result of zero means equal. -/
theorem eq_zero_iff (agrees : Agrees compare value elements)
    (isFirst : first ∈ elements)
    (isSecond : second ∈ elements) :
    (compare first second).toInt = 0 ↔ value first = value second := by
  rw [← Int.sign_eq_zero_iff_zero, agrees first isFirst second isSecond,
    Int.sign_eq_zero_iff_zero]
  omega

/-- A positive result means greater. -/
theorem pos_iff (agrees : Agrees compare value elements)
    (isFirst : first ∈ elements)
    (isSecond : second ∈ elements) :
    0 < (compare first second).toInt ↔ value second < value first := by
  rw [← Int.sign_eq_one_iff_pos, agrees first isFirst second isSecond,
    Int.sign_eq_one_iff_pos]
  omega

/-- A comparison that agrees with a value orders the elements. -/
theorem totalPreorder (agrees : Agrees compare value elements) :
    TotalPreorder compare elements where
  antisymmetric := by
    intro first isFirst second isSecond
    rw [agrees.pos_iff isFirst isSecond, agrees.neg_iff isSecond isFirst]
  transitive := by
    intro first isFirst second isSecond third isThird
    have firstSecond := agrees.pos_iff isFirst isSecond
    have secondThird := agrees.pos_iff isSecond isThird
    have firstThird := agrees.pos_iff isFirst isThird
    omega

theorem subset {others : List α} (agrees : Agrees compare value elements)
    (contained : others ⊆ elements) : Agrees compare value others :=
  fun first isFirst second isSecond =>
    agrees first (contained isFirst) second (contained isSecond)

end Agrees

/-! ## Sorting and searching -/

/-- The elements ascend in the order of the comparison function. -/
def Ascending (compare : Comparator α) (elements : List α) : Prop :=
  elements.Pairwise fun first second => (compare first second).toInt ≤ 0

/-- What `qsort` is documented to do. -/
structure Qsort (α : Type*) where
  run : Comparator α → List α → List α
  sorts : ∀ compare elements, TotalPreorder compare elements →
    (run compare elements).Perm elements ∧ Ascending compare
      (run compare elements)

/-- What `bsearch` is documented to do with a key: find the position of an
equivalent element, if there is one. -/
structure Bsearch (α : Type*) where
  run : Comparator α → α → List α → Option Nat
  finds : ∀ compare key elements, TotalPreorder compare (key :: elements) →
    Ascending compare elements →
    match run compare key elements with
    | some position => ∃ element, elements[position]? = some element ∧
        (compare key element).toInt = 0
    | none => ∀ element ∈ elements, (compare key element).toInt ≠ 0

/-- Insertion sort by a comparison that orders the elements puts them in
order. -/
theorem TotalPreorder.pairwise_insertionSort {compare : Comparator α}
    {elements : List α}
    (order : TotalPreorder compare elements) :
    ((elements.attach.insertionSort fun first second =>
      (compare first.1 second.1).toInt ≤ 0).map
      Subtype.val).Pairwise fun first second =>
        (compare first second).toInt ≤ 0 := by
  have total : Std.Total fun first second : {element // element ∈ elements} =>
      (compare first.1 second.1).toInt ≤ 0 := by
    refine ⟨fun first second => ?_⟩
    have antisymmetric := order.antisymmetric first.1 first.2 second.1 second.2
    omega
  have transitive : IsTrans _ fun first second :
      {element // element ∈ elements} =>
      (compare first.1 second.1).toInt ≤ 0 :=
    ⟨fun first second third =>
      order.transitive first.1 first.2 second.1 second.2 third.1 third.2⟩
  rw [List.pairwise_map]
  exact List.pairwise_insertionSort _ _

/-- Insertion sort. -/
def Qsort.insertion : Qsort α where
  run compare elements := (elements.attach.insertionSort fun first second =>
    (compare first.1 second.1).toInt ≤ 0).map Subtype.val
  sorts compare elements order := by
    refine ⟨?_, order.pairwise_insertionSort⟩
    have permuted := (List.perm_insertionSort (fun first second =>
      (compare first.1 second.1).toInt ≤ 0) elements.attach).map Subtype.val
    simpa using permuted

/-- A search from the front. -/
def Bsearch.linear : Bsearch α where
  run compare key elements := elements.findIdx? fun element =>
    (compare key element).toInt = 0
  finds compare key elements _ _ := by
    split
    · next position found =>
        obtain ⟨bound, matches_, _⟩ :=
          List.findIdx?_eq_some_iff_getElem.mp found
        exact ⟨_, List.getElem?_eq_getElem bound, of_decide_eq_true matches_⟩
    · next notFound =>
        intro element present
        have differs := List.findIdx?_eq_none_iff.mp notFound element present
        exact of_decide_eq_false differs

/-! ## Subtraction -/

/-- Any two values are less than `2 ^ 31` apart. -/
def Narrow (values : List Int32) : Prop :=
  ∀ first ∈ values, ∀ second ∈ values, first.toInt - second.toInt < 2147483648

instance (values : List Int32) : Decidable (Narrow values) :=
  have (first : Int32) :
      Decidable (∀ second ∈ values, first.toInt - second.toInt < 2147483648) :=
    List.decidableBAll _ _
  List.decidableBAll _ _

theorem Narrow.subset {values others : List Int32} (narrow : Narrow values)
    (contained : others ⊆ values) : Narrow others :=
  fun first isFirst second isSecond =>
    narrow first (contained isFirst) second (contained isSecond)

/-- The difference of two numbers of 32 bits fits into 33. -/
theorem toInt_sub_toInt_range (first second : Int32) :
    -4294967296 < first.toInt - second.toInt ∧
      first.toInt - second.toInt < 4294967296 := by
  have firstUpper := first.toInt_lt
  have firstLower := first.le_toInt
  have secondUpper := second.toInt_lt
  have secondLower := second.le_toInt
  omega

/-- Where a difference leaves the range of an `int`, it comes back at the other
end. -/
theorem toInt_sub_eq (first second : Int32) :
    (first - second).toInt =
      if 2147483648 ≤ first.toInt - second.toInt then
        first.toInt - second.toInt - 4294967296
      else if first.toInt - second.toInt < -2147483648 then
        first.toInt - second.toInt + 4294967296
      else first.toInt - second.toInt := by
  have range := toInt_sub_toInt_range first second
  rw [Int32.toInt_sub, Int.bmod_def]
  split_ifs <;> omega

/-- Only equal numbers have the difference zero. -/
theorem toInt_sub_eq_zero_iff {first second : Int32} :
    (first - second).toInt = 0 ↔ first = second := by
  have range := toInt_sub_toInt_range first second
  rw [toInt_sub_eq, ← Int32.toInt_inj]
  split_ifs <;> omega

/-- A difference has the sign of the numbers as long as they are not too far
apart. -/
theorem sign_sub_iff (first second : Int32) :
    (first - second).toInt.sign = (first.toInt - second.toInt).sign ↔
      first.toInt - second.toInt < 2147483648 ∧
        -2147483648 ≤ first.toInt - second.toInt := by
  have range := toInt_sub_toInt_range first second
  rw [toInt_sub_eq]
  split
  · rw [Int.sign_eq_neg_one_of_neg (by omega),
      Int.sign_eq_one_of_pos (by omega)]
    omega
  next =>
  split
  · rw [Int.sign_eq_one_of_pos (by omega),
      Int.sign_eq_neg_one_of_neg (by omega)]
    omega
  · omega

/-- Subtraction orders the numbers exactly when no two of them are too far
apart. -/
theorem agrees_sub_iff_narrow {values : List Int32} :
    Agrees (fun first second => first - second) Int32.toInt values ↔
      Narrow values := by
  constructor
  · intro agrees first isFirst second isSecond
    exact ((sign_sub_iff first second).mp
      (agrees first isFirst second isSecond)).1
  · intro narrow first isFirst second isSecond
    apply (sign_sub_iff first second).mpr
    have upper := narrow first isFirst second isSecond
    have lower := narrow second isSecond first isFirst
    omega

end Comparator
end LinuxCPractice
