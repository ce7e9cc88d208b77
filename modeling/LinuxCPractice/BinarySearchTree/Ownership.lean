import LinuxCPractice.BinarySearchTree.Insertion
import Mathlib.Data.List.Count

/-!
# Who frees the cells

`tdestroy` frees the cells that are in the tree. A cell that was rejected
because the tree held an equal number, and the cell of the number that was
deleted, are not.
-/

namespace LinuxCPractice
namespace BinarySearchTree

open SearchTree Program

/-- Every cell obtained from `malloc` has been freed exactly once. -/
def FreesAll (ending : Ending) : Prop :=
  ∀ cell ∈ ending.program.obtained, ending.freed.count cell.address = 1

/-- There is no memory for a cell or a node before all numbers are inserted, and
until then no number comes twice. -/
def RunsOutFirst (requests : List Request) : Prop :=
  (∃ request ∈ requests, request.memory ≠ .enough) ∧
    (obtainedValues requests).Nodup

section

variable {shape : Nat → Shape} {program final : Program}
  {requests : List Request}

/-- The cells are numbered in the order in which they were obtained. -/
def Program.Numbered (program : Program) : Prop :=
  program.obtained.map Cell.address = List.range program.obtained.length

/-- The loop over the array keeps the addresses numbered. -/
theorem Program.Numbered.insertAll {went : Bool} (numbered : program.Numbered)
    (ran : insertAll shape requests program = some (final, went)) :
    final.Numbered := by
  induction requests generalizing program with
  | nil =>
      cases ran
      exact numbered
  | cons request requests inductionHypothesis =>
      simp only [Program.insertAll] at ran
      split at ran
      · cases ran
        exact numbered
      obtain ⟨⟨val, root⟩, _, ran⟩ := Option.bind_eq_some_iff.mp ran
      have more : Numbered ⟨root, program.obtained ++
          [⟨program.obtained.length, request.value⟩], program.output⟩ := by
        rw [Numbered, List.map_append, numbered]
        simp [List.range_succ]
      simp only at ran
      split at ran
      · cases ran
        exact more
      · exact inductionHypothesis more ran

/-- No address is obtained twice. -/
theorem Program.Numbered.nodup (numbered : program.Numbered) :
    (program.obtained.map Cell.address).Nodup := by
  rw [numbered]
  exact List.nodup_range

/-- What is freed are the cells in the tree. -/
theorem mem_freed_iff {root : BinaryTree Cell} {address : Nat} :
    address ∈ (tdestroy root).map Cell.address ↔
      address ∈ (inorder root).map Cell.address :=
  ((perm_tdestroy root).map Cell.address).mem_iff

/-- Destroying the tree frees what has been obtained, each element once. -/
theorem freesAll_of_holds (numbered : program.Numbered)
    (holds : program.Holds) :
    FreesAll ⟨program, (tdestroy program.root).map Cell.address⟩ := by
  intro cell present
  have freed : ((tdestroy program.root).map Cell.address).Perm
      (program.obtained.map Cell.address) :=
    ((perm_tdestroy program.root).trans holds).map Cell.address
  change ((tdestroy program.root).map Cell.address).count cell.address = 1
  rw [freed.count_eq]
  exact List.count_eq_one_of_mem numbered.nodup (List.mem_map_of_mem present)

/-- A cell that is not in the tree is not freed. -/
theorem not_freesAll_of_notMem {ending : Ending} {cell : Cell}
    (freed : ending.freed = (tdestroy ending.program.root).map Cell.address)
    (present : cell ∈ ending.program.obtained)
    (lost : cell.address ∉ (inorder ending.program.root).map Cell.address) :
    ¬FreesAll ending := by
  intro freesAll
  have once := freesAll cell present
  rw [freed, List.count_eq_zero_of_not_mem
    (fun freed => lost (mem_freed_iff.mp freed))] at once
  cases once

/-! ## Two ways to lose a cell -/

/-- A number that is at the root already is rejected. -/
theorem not_freesAll_of_duplicate (shape : Nat → Shape)
    (numbered : program.Numbered)
    (holds : program.Holds) {cell : Cell} {left right : BinaryTree Cell}
    (root : program.root = .node cell left right)
    {request : Request} (hasCell : request.memory ≠ .noCell)
    (equal : request.value = cell.value)
    (requests : List Request) :
    ∃ rejected,
      insertAll shape (request :: requests) program = some (rejected, false) ∧
      ¬FreesAll ⟨rejected, (tdestroy rejected.root).map Cell.address⟩ := by
  have search :
      find compare ⟨program.obtained.length, request.value⟩ program.root =
      some cell := by
    rw [root, find, if_pos (compare_eq_zero_iff.mpr equal)]
  have isNumber : ∀ address ∈ program.obtained.map Cell.address,
      address < program.obtained.length := by
    rw [numbered]
    exact fun address => List.mem_range.mp
  have isOther : cell ≠ ⟨program.obtained.length, request.value⟩ := by
    intro same
    have present : cell ∈ program.obtained := holds.mem_iff.mp (by simp [root])
    have below := isNumber cell.address (List.mem_map_of_mem present)
    rw [same] at below
    exact absurd below (lt_irrefl _)
  refine ⟨⟨reshape (shape program.obtained.length) program.root,
    program.obtained ++ [⟨program.obtained.length, request.value⟩],
    program.output⟩, ?_, ?_⟩
  · simp [insertAll, hasCell, tsearch, search, isOther]
  · apply not_freesAll_of_notMem rfl
      (List.mem_append_right _ (List.mem_singleton_self _))
    intro present
    rw [inorder_reshape, (holds.map Cell.address).mem_iff] at present
    exact absurd (isNumber _ present) (lt_irrefl _)

/-- A number that is deleted leaves its cell behind. -/
theorem not_freesAll_of_delete (numbered : program.Numbered)
    (holds : program.Holds)
    {cell key : Cell} {left right : BinaryTree Cell}
    (root : program.root = .node cell left right)
    (equal : key.value = cell.value) (deleteShape : Shape) :
    ¬FreesAll ⟨program.delete key deleteShape,
      (tdestroy (program.delete key deleteShape).root).map Cell.address⟩ := by
  have search : find compare key program.root = some cell := by
    rw [root, find, if_pos (compare_eq_zero_iff.mpr equal)]
  obtain ⟨before, after, split, removed⟩ := inorder_remove search
  have deleted : (program.delete key deleteShape).root =
      reshape deleteShape (remove compare key program.root) ∧
        (program.delete key deleteShape).obtained = program.obtained := by
    simp [delete, tfind, tdelete, search]
  have addresses :
      (cell.address :: (before ++ after).map Cell.address).Nodup := by
    have moved : (cell :: (before ++ after)).Perm program.obtained :=
      (List.perm_middle.symm.trans (split ▸ List.Perm.refl _)).trans holds
    exact (moved.map Cell.address).nodup_iff.mpr numbered.nodup
  have present : cell ∈ (program.delete key deleteShape).obtained := by
    rw [deleted.2]
    exact holds.mem_iff.mp (by simp [root])
  refine not_freesAll_of_notMem rfl present ?_
  rw [deleted.1, inorder_reshape, removed]
  exact (List.nodup_cons.mp addresses).1

theorem nodup_concat {values : List Int32} {value : Int32}
    (distinct : values.Nodup)
    (isNew : value ∉ values) : (values ++ [value]).Nodup :=
  List.nodup_append.mpr ⟨distinct, by simp, by grind⟩

/-- The first number that comes twice. -/
theorem exists_duplicate {seen requests : List Request}
    (enough : ∀ request ∈ seen, request.memory = .enough)
    (distinct : (seen.map Request.value).Nodup)
    (twice : ¬(seen.map Request.value ++ obtainedValues requests).Nodup) :
    ∃ first request rest, seen ++ requests = first ++ request :: rest ∧
      (∀ request ∈ first, request.memory = .enough) ∧
      (first.map Request.value).Nodup ∧
      request.memory ≠ .noCell ∧ request.value ∈ first.map Request.value := by
  induction requests generalizing seen with
  | nil => exact absurd (by simpa [obtainedValues] using distinct) twice
  | cons request requests inductionHypothesis =>
      by_cases again : request.memory ≠ .noCell ∧
        request.value ∈ seen.map Request.value
      · exact ⟨seen, request, requests, rfl, enough, distinct, again⟩
      · cases memory : request.memory with
        | noCell =>
            exact absurd
              (by simpa [obtainedValues, memory] using distinct) twice
        | noNode =>
            have isNew : request.value ∉ seen.map Request.value :=
              fun old => again ⟨by simp [memory], old⟩
            refine absurd ?_ twice
            simpa [obtainedValues, memory] using nodup_concat distinct isNew
        | enough =>
            have isNew : request.value ∉ seen.map Request.value :=
              fun old => again ⟨by simp [memory], old⟩
            have more : ((seen ++ [request]).map Request.value).Nodup := by
              simpa using nodup_concat distinct isNew
            obtain ⟨first, other, rest, split, found⟩ := inductionHypothesis
              (List.forall_mem_append.mpr ⟨enough, by simpa using memory⟩) more
              (by simpa [obtainedValues, memory] using twice)
            exact ⟨first, other, rest, by simpa using split, found⟩

end

/-- However the tree is balanced, every cell has been freed exactly once when
`main` ends behind `tdestroy`, exactly when memory runs out before all numbers
are inserted and before one comes twice. -/
theorem freesAll_iff_runsOutFirst {requests : List Request} {key : Cell}
    (isElement : key.value ∈ requests.map Request.value) :
    (∀ shape deleteShape ending,
      main shape deleteShape requests key = some ending →
        FreesAll ending) ↔ RunsOutFirst requests := by
  have startHolds : start.Holds := List.Perm.refl _
  have startNumbered : start.Numbered := rfl
  constructor
  · intro frees
    have noDuplicate : (obtainedValues requests).Nodup := by
      by_contra twice
      obtain ⟨first, request, rest, split, enough, distinct, hasCell, again⟩ :=
        exists_duplicate
          (fun _ none => absurd none List.not_mem_nil) List.nodup_nil twice
      obtain ⟨shape, middle, cell, left, right, went, holds, _, root, equal⟩ :=
        exists_insertAll_root enough distinct again
      obtain ⟨rejected, stops, loses⟩ := not_freesAll_of_duplicate shape
        (startNumbered.insertAll went) holds root hasCell equal.symm rest
      rw [List.nil_append] at split
      refine loses (frees shape .nil _ ?_)
      rw [main, split, insertAll_append went, stops]
      rfl
    refine ⟨?_, noDuplicate⟩
    by_contra allEnough
    have enough : ∀ request ∈ requests, request.memory = .enough := by
      simpa using allEnough
    rw [obtainedValues_of_enough enough] at noDuplicate
    obtain ⟨shape, middle, cell, left, right, went, holds, _, root, equal⟩ :=
      exists_insertAll_root enough noDuplicate isElement
    refine not_freesAll_of_delete
      (startNumbered.insertAll went) holds root equal.symm .nil
      (frees shape .nil _ ?_)
    simp [main, went]
  · rintro ⟨⟨request, present, fails⟩, distinct⟩ shape deleteShape ending ends
    have stops : decide (∀ request ∈ requests, request.memory = .enough) =
        false :=
      decide_eq_false fun enough => fails (enough request present)
    rcases insertAll_of_nodup startHolds distinct with ⟨crashes, _⟩
      | ⟨final, ended, holds, _⟩
    · rw [main, crashes] at ends
      cases ends
    · rw [main, ended, stops] at ends
      cases ends
      exact freesAll_of_holds (startNumbered.insertAll ended) holds

/-- There is no memory for the second cell. -/
theorem freesAll_iff_runsOutFirst_two :
    (∀ shape deleteShape ending,
        main shape deleteShape [⟨179, .enough⟩, ⟨102, .noCell⟩] ⟨2, 179⟩ =
          some ending →
          FreesAll ending) ↔ RunsOutFirst [⟨179, .enough⟩, ⟨102, .noCell⟩] :=
  freesAll_iff_runsOutFirst (by decide)

/-- The cell of the number that is deleted is not freed. -/
theorem not_freesAll_dummy :
    ∃ ending,
      main (fun _ => .nil) .nil (dummy.map fun value => ⟨value, .enough⟩)
        ⟨11, 35⟩ =
      some ending ∧ ending.freed.length = 10 ∧ ¬FreesAll ending := by
  have reached :
      (main (fun _ => .nil) .nil (dummy.map fun value => ⟨value, .enough⟩)
        ⟨11, 35⟩).map (fun ending => (decide (⟨10, 35⟩ ∈ ending.program.obtained),
          ending.freed.count 10, ending.freed.length)) = some (true, 0,
            10) := by decide
  obtain ⟨ending, ended, values⟩ := Option.map_eq_some_iff.mp reached
  simp only [Prod.mk.injEq, decide_eq_true_eq] at values
  obtain ⟨obtained, notFreed, length⟩ := values
  refine ⟨ending, ended, length, fun freesAll => ?_⟩
  have once := freesAll ⟨10, 35⟩ obtained
  rw [notFreed] at once
  cases once

end BinarySearchTree
end LinuxCPractice
