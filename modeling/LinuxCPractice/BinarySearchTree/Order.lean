import LinuxCPractice.BinarySearchTree.Insertion

/-!
# Walking, finding and deleting

The walk prints the numbers in ascending order, and each of them is found,
exactly when no two of them are so far apart that their difference wraps around.
Otherwise there is a shape of the tree in which one of them is not found.
-/

namespace LinuxCPractice
namespace BinarySearchTree

open SearchTree Program

/-- The numbers printed by a walk. -/
def printed (root : BinaryTree Cell) : List Int32 :=
  ((twalk root).filterMap action).filterMap fun line =>
    match line with
    | .node value _ => some value
    | _ => none

/-- The walk prints exactly these numbers, in strictly ascending order. -/
structure Lists (root : BinaryTree Cell) (values : List Int32) : Prop where
  ascending : (printed root).Pairwise fun first second =>
    first.toInt < second.toInt
  permutation : (printed root).Perm values

/-- The numbers, with enough memory for all of them. -/
def withMemory (values : List Int32) : List Request :=
  values.map fun value => ⟨value, .enough⟩

@[simp] theorem map_value_withMemory (values : List Int32) :
    (withMemory values).map Request.value = values := by
  simp [withMemory, Function.comp_def]

/-- None of these requests runs out of memory. -/
theorem memory_withMemory (values : List Int32) :
    ∀ request ∈ withMemory values, request.memory = .enough := by
  simp [withMemory]

/-- However the tree is balanced, all numbers are inserted and the walk lists
them, a number is found exactly if it is one of them, and when one of them is
deleted the walk lists the others. -/
def Ordered (values : List Int32) : Prop :=
  ∀ shape : Nat → Shape, ∃ program,
    insertAll shape (withMemory values) start = some (program, true) ∧
      Lists program.root values ∧
      (∀ key, (tfind compare key program.root).isSome ↔ key.value ∈ values) ∧
      ∀ key deleteShape, key.value ∈ values →
        ∃ root, tdelete compare key deleteShape program.root = some root ∧
          Lists root (values.erase key.value)

/-- What is printed are the elements of the tree from left to right. -/
theorem printed_eq (root : BinaryTree Cell) :
    printed root = (inorder root).map Cell.value := by
  rw [← filterMap_walk 0 root, printed, twalk, List.filterMap_filterMap]
  induction walk 0 root with
  | nil => rfl
  | cons visit visits inductionHypothesis =>
      obtain ⟨cell, which, depth⟩ := visit
      cases which <;> simp_all [action]

/-- The number of a cell. -/
def number (cell : Cell) : Int := cell.value.toInt

/-- The difference orders cells as their values exactly if these are close to
each other. -/
theorem agrees_iff_narrow {cells : List Cell} :
    Comparator.Agrees compare number cells ↔
      Comparator.Narrow (cells.map Cell.value) := by
  rw [← Comparator.agrees_sub_iff_narrow]
  simp [Comparator.Agrees, compare, number]

/-- A tree lists the values exactly if it holds them in order. -/
theorem lists_iff {root : BinaryTree Cell} {values : List Int32} :
    Lists root values ↔
      Sorted number root ∧ ((inorder root).map Cell.value).Perm values := by
  rw [← printed_eq]
  refine ⟨fun lists => ⟨?_, lists.permutation⟩, fun ⟨sorted, permutation⟩ =>
    ⟨?_, permutation⟩⟩
  · have ascending := lists.ascending
    rwa [printed_eq, List.pairwise_map] at ascending
  · rwa [printed_eq, List.pairwise_map]

/-- The tree stays sorted while distinct numbers are inserted that are not too
far apart. -/
theorem sorted_insertAll {shape : Nat → Shape} {requests : List Request}
    {program final : Program}
    {went : Bool} (holds : program.Holds) (sorted : Sorted number program.root)
    (distinct : (program.obtained.map Cell.value ++
      requests.map Request.value).Nodup)
    (narrow : Comparator.Narrow
      (program.obtained.map Cell.value ++ requests.map Request.value))
    (ran : insertAll shape requests program = some (final, went)) :
    Sorted number final.root := by
  induction requests generalizing program with
  | nil =>
      cases ran
      exact sorted
  | cons request requests inductionHypothesis =>
      have fresh : request.value ∉ program.obtained.map Cell.value :=
        fun present =>
          (List.nodup_append.mp distinct).2.2 _ present _ (by simp) rfl
      rw [insertAll_cons_of_fresh holds fresh] at ran
      cases memory : request.memory with
      | noCell =>
          rw [memory] at ran
          cases ran
          exact sorted
      | noNode =>
          rw [memory] at ran
          cases ran
      | enough =>
          rw [memory] at ran
          have search : find compare ⟨program.obtained.length,
            request.value⟩ program.root = none :=
            find_eq_none_of_fresh holds fresh
          have agrees : Comparator.Agrees compare number
              (⟨program.obtained.length, request.value⟩ ::
                inorder program.root) := by
            refine agrees_iff_narrow.mpr
              (narrow.subset (List.cons_subset.mpr ⟨by simp, ?_⟩))
            exact fun value present =>
              List.mem_append_left _ ((holds.map Cell.value).mem_iff.mp present)
          have added :
              (program.added
                (shape program.obtained.length) request.value).obtained.map
              Cell.value ++ requests.map Request.value =
                program.obtained.map Cell.value ++
                  (request :: requests).map Request.value := by
            simp [Program.added]
          refine inductionHypothesis (holds.added fresh _) ?_ (added ▸ distinct)
            (added ▸ narrow) ran
          have inserted := sorted.insert agrees search
          rwa [Sorted, Program.added, inorder_reshape]

/-- Values that are close to each other come out in order, whatever the tree. -/
theorem ordered_of_narrow {values : List Int32} (distinct : values.Nodup)
    (narrow : Comparator.Narrow values) : Ordered values := by
  intro shape
  obtain ⟨program, went, holds, obtained⟩ :=
    insertAll_of_enough shape (memory_withMemory values)
    (by rwa [map_value_withMemory])
  rw [map_value_withMemory] at obtained
  have startHolds : start.Holds := List.Perm.refl _
  have sorted : Sorted number program.root :=
    sorted_insertAll startHolds List.Pairwise.nil
      (by simpa [start] using distinct)
      (by simpa [start] using narrow) went
  have permutation : ((inorder program.root).map Cell.value).Perm values :=
    obtained ▸ holds.map Cell.value
  have finds (key : Cell) (isElement : key.value ∈ values) :
      ∃ found, find compare key program.root = some found ∧
        found.value = key.value := by
    obtain ⟨cell, present, same⟩ :=
      List.mem_map.mp (permutation.mem_iff.mpr isElement)
    have agrees :
        Comparator.Agrees compare number (key :: inorder program.root) :=
      agrees_iff_narrow.mpr
        (narrow.subset (List.cons_subset.mpr ⟨isElement, permutation.subset⟩))
    exact ⟨cell, find_of_sorted sorted agrees present
      (by rw [number, same, number]), same⟩
  refine ⟨program, went, lists_iff.mpr ⟨sorted, permutation⟩, ?_, ?_⟩
  · intro key
    constructor
    · intro isFound
      obtain ⟨found, search⟩ := Option.isSome_iff_exists.mp isFound
      obtain ⟨present, equal⟩ := mem_of_find search
      rw [compare_eq_zero_iff.mp equal]
      exact permutation.mem_iff.mp (List.mem_map_of_mem present)
    · intro isElement
      obtain ⟨found, search, _⟩ := finds key isElement
      rw [tfind, search]
      rfl
  · intro key deleteShape isElement
    obtain ⟨found, search, same⟩ := finds key isElement
    obtain ⟨before, after, split, removed⟩ := inorder_remove search
    refine ⟨reshape deleteShape (remove compare key program.root),
      by simp [tdelete, search], ?_⟩
    refine lists_iff.mpr ⟨?_, ?_⟩
    · have := sorted.remove search
      rwa [Sorted, inorder_reshape]
    · rw [inorder_reshape, removed, ← same]
      rw [split] at permutation
      have moved : ((found :: (before ++ after)).map Cell.value).Perm values :=
        (List.perm_middle.symm.map Cell.value).trans permutation
      simpa using moved.erase found.value

/-- If the values come out in order from every tree, they are close to each
other. -/
theorem narrow_of_ordered {values : List Int32} (distinct : values.Nodup)
    (ordered : Ordered values) : Comparator.Narrow values := by
  intro larger isLarger smaller isSmaller
  by_contra wide
  obtain ⟨shape, final, cell, left, right, went, _, _, root, isRoot⟩ :=
    exists_insertAll_root (memory_withMemory values)
      (by rwa [map_value_withMemory])
      (by rwa [map_value_withMemory] : smaller ∈ _)
  obtain ⟨program, sameWent, lists, finds, _⟩ := ordered shape
  obtain rfl : final = program := by simpa using went.symm.trans sameWent
  obtain ⟨sorted, _⟩ := lists_iff.mp lists
  have isFound := (finds ⟨0, larger⟩).mpr isLarger
  obtain ⟨found, search⟩ := Option.isSome_iff_exists.mp isFound
  have wraps : (larger - smaller).toInt < 0 := by
    have range := Comparator.toInt_sub_toInt_range larger smaller
    rw [Comparator.toInt_sub_eq, if_pos (by omega)]
    omega
  have compared : compare ⟨0, larger⟩ cell = larger - smaller := by
    rw [compare, isRoot]
  rw [root] at sorted search
  rw [tfind, find, compared, if_neg (by omega), if_pos wraps] at search
  obtain ⟨present, equal⟩ := mem_of_find search
  have less := (sorted_node_iff.mp sorted).2.2.1 found present
  rw [number, number, isRoot, ← compare_eq_zero_iff.mp equal] at less
  simp only at less
  omega

/-- However the tree is balanced, the walk lists distinct numbers in ascending
order, each is found and the rest is listed when it is deleted, exactly when any
two of the numbers are less than `2 ^ 31` apart. -/
theorem ordered_iff_narrow {values : List Int32} (distinct : values.Nodup) :
    Ordered values ↔ Comparator.Narrow values :=
  ⟨narrow_of_ordered distinct, ordered_of_narrow distinct⟩

theorem ordered_iff_narrow_dummy : Ordered dummy ↔ Comparator.Narrow dummy :=
  ordered_iff_narrow (by decide)

/-- Two numbers too far apart are walked the wrong way round. -/
theorem not_ordered_of_wide :
    (insertAll (fun _ => .nil) (withMemory [2147483647, -2]) start).map
        (fun ended => printed ended.1.root) = some [2147483647, -2] ∧
      ¬Ordered [2147483647, -2] := by
  refine ⟨by decide, fun ordered => ?_⟩
  exact absurd (narrow_of_ordered (by decide) ordered) (by decide)

end BinarySearchTree
end LinuxCPractice
