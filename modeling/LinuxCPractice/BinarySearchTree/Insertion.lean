import LinuxCPractice.BinarySearchTree.Defs

/-!
# What the loop leaves in the tree

As long as no number comes twice, the tree holds the cells obtained from
`malloc`, and it may hold them in any shape: any of them may be the root.
-/

namespace LinuxCPractice
namespace BinarySearchTree

open SearchTree Program

/-- Equal cells are those with equal values, also when the subtraction wraps
around. -/
theorem compare_eq_zero_iff {first second : Cell} :
    (compare first second).toInt = 0 ↔ first.value = second.value :=
  Comparator.toInt_sub_eq_zero_iff

/-- The numbers for which the loop obtains a cell, unless one comes twice. -/
def obtainedValues : List Request → List Int32
  | [] => []
  | request :: requests =>
      match request.memory with
      | .noCell => []
      | .noNode => [request.value]
      | .enough => request.value :: obtainedValues requests

/-- With enough memory every element is obtained. -/
theorem obtainedValues_of_enough {requests : List Request}
    (enough : ∀ request ∈ requests, request.memory = .enough) :
    obtainedValues requests = requests.map Request.value := by
  induction requests with
  | nil => rfl
  | cons request requests inductionHypothesis =>
      obtain ⟨first, rest⟩ := List.forall_mem_cons.mp enough
      simp [obtainedValues, first, inductionHypothesis rest]

/-- The tree holds the cells obtained. -/
def Program.Holds (program : Program) : Prop :=
  (inorder program.root).Perm program.obtained

section

variable {program : Program} {shape : Nat → Shape}

/-- A value that has not been obtained is not in the tree. -/
theorem find_eq_none_of_fresh (holds : program.Holds) {key : Cell}
    (fresh : key.value ∉ program.obtained.map Cell.value) :
    find compare key program.root = none := by
  by_contra isFound
  obtain ⟨found, search⟩ := Option.ne_none_iff_exists'.mp isFound
  obtain ⟨present, equal⟩ := mem_of_find search
  apply fresh
  rw [compare_eq_zero_iff.mp equal]
  exact List.mem_map_of_mem (holds.mem_iff.mp present)

/-- The program behind a `tsearch` that has added a cell. -/
def Program.added (program : Program) (shape : Shape)
    (value : Int32) : Program :=
  { program with
    root := reshape shape (insert compare ⟨program.obtained.length,
      value⟩ program.root)
    obtained := program.obtained ++ [⟨program.obtained.length, value⟩] }

/-- A new value is added to the tree as it is to the elements obtained. -/
theorem Program.Holds.added (holds : program.Holds) {value : Int32}
    (fresh : value ∉ program.obtained.map Cell.value) (shape : Shape) :
    (program.added shape value).Holds := by
  have search : find compare ⟨program.obtained.length, value⟩ program.root =
      none :=
    find_eq_none_of_fresh holds fresh
  rw [Holds, Program.added, inorder_reshape]
  refine (perm_insert search).trans ((holds.cons _).trans ?_)
  exact (List.perm_append_singleton _ _).symm

/-- A number that is new is added to the tree. -/
theorem insertAll_cons_of_fresh (holds : program.Holds) {request : Request}
    (fresh : request.value ∉ program.obtained.map Cell.value)
    (requests : List Request) :
    insertAll shape (request :: requests) program =
      match request.memory with
      | .noCell => some (program.print [.mallocFailed], false)
      | .noNode => none
      | .enough => insertAll shape requests
          (program.added (shape program.obtained.length) request.value) := by
  have search : find compare ⟨program.obtained.length,
    request.value⟩ program.root = none :=
    find_eq_none_of_fresh holds fresh
  cases memory : request.memory <;>
    simp [insertAll, memory, tsearch, search, Program.added]

/-- As long as no number comes twice, the loop ends when there is no memory for
a cell or a node, or goes through, and the tree holds all cells obtained. -/
theorem insertAll_of_nodup {requests : List Request} (holds : program.Holds)
    (distinct : (program.obtained.map Cell.value ++
      obtainedValues requests).Nodup) :
    (insertAll shape requests program = none ∧
        ∃ request ∈ requests, request.memory ≠ .enough) ∨
      ∃ final, insertAll shape requests program =
          some (final, decide (∀ request ∈ requests,
            request.memory = .enough)) ∧
        final.Holds ∧
        final.obtained.map Cell.value =
          program.obtained.map Cell.value ++ obtainedValues requests := by
  induction requests generalizing program with
  | nil => exact .inr ⟨program, by simp [insertAll], holds,
        by simp [obtainedValues]⟩
  | cons request requests inductionHypothesis =>
      have fresh (obtains : request.value ∈ obtainedValues
          (request :: requests)) :
          request.value ∉ program.obtained.map Cell.value :=
        fun present =>
          (List.nodup_append.mp distinct).2.2 _ present _ obtains rfl
      cases memory : request.memory with
      | noCell =>
          refine .inr ⟨program.print [.mallocFailed], ?_, holds, ?_⟩
          · simp [insertAll, memory]
          · simp [obtainedValues, memory, Program.print]
      | noNode =>
          refine .inl ⟨?_, request, List.mem_cons_self, by simp [memory]⟩
          rw [insertAll_cons_of_fresh holds
            (fresh (by simp [obtainedValues, memory])), memory]
      | enough =>
          have isFresh := fresh (by simp [obtainedValues, memory])
          have added :
              (program.added
                (shape program.obtained.length) request.value).obtained.map
              Cell.value ++ obtainedValues requests =
                program.obtained.map Cell.value ++ obtainedValues
                  (request :: requests) := by
            simp [Program.added, obtainedValues, memory]
          rw [insertAll_cons_of_fresh holds isFresh, memory, ← added]
          rw [← added] at distinct
          rcases inductionHypothesis (holds.added isFresh _) distinct with
            ⟨crashes, failing, present, fails⟩ | ⟨final, ends, held, values⟩
          · exact .inl ⟨crashes, failing, List.mem_cons_of_mem _ present, fails⟩
          · exact .inr ⟨final, by simpa [memory] using ends, held, values⟩

/-! ## Runs on a part of the array -/

/-- Only the shapes for the cells that are inserted matter. -/
theorem insertAll_congr {other : Nat → Shape} {requests : List Request}
    (same : ∀ number, number < program.obtained.length + requests.length →
      shape number = other number) :
    insertAll shape requests program = insertAll other requests program := by
  induction requests generalizing program with
  | nil => rfl
  | cons request requests inductionHypothesis =>
      have now := same program.obtained.length (by simp)
      have later (root : BinaryTree Cell) : insertAll shape requests
          ⟨root, program.obtained ++ [⟨program.obtained.length, request.value⟩],
            program.output⟩ =
            insertAll other requests
          ⟨root, program.obtained ++ [⟨program.obtained.length, request.value⟩],
            program.output⟩ := by
        apply inductionHypothesis
        intro number bound
        apply same
        simp at bound ⊢
        omega
      simp only [insertAll, now, later]

/-- The loop over an array in two parts, of which it goes through the first. -/
theorem insertAll_append {first second : List Request} {middle : Program}
    (went : insertAll shape first program = some (middle, true)) :
    insertAll shape (first ++ second) program =
      insertAll shape second middle := by
  induction first generalizing program with
  | nil =>
      cases went
      rfl
  | cons request first inductionHypothesis =>
      simp only [List.cons_append, insertAll] at went ⊢
      split at went
      · cases went
      next hasCell =>
      obtain ⟨⟨val, root⟩, searched, went⟩ := Option.bind_eq_some_iff.mp went
      rw [if_neg hasCell, searched, Option.bind_some]
      simp only at went ⊢
      split at went
      · cases went
      next isNew =>
      rw [if_neg isNew]
      exact inductionHypothesis went

/-- With enough memory the loop goes through distinct numbers. -/
theorem insertAll_of_enough (shape : Nat → Shape) {requests : List Request}
    (enough : ∀ request ∈ requests, request.memory = .enough)
    (distinct : (requests.map Request.value).Nodup) :
    ∃ final, insertAll shape requests start = some (final, true) ∧ final.Holds ∧
      final.obtained.map Cell.value = requests.map Request.value := by
  rw [← obtainedValues_of_enough enough] at distinct
  have holds : start.Holds := List.Perm.refl _
  rcases insertAll_of_nodup holds distinct with
    ⟨_, failing, present, fails⟩ | ⟨final, ends, held, values⟩
  · exact absurd (enough failing present) fails
  · refine ⟨final, ?_, held, values.trans (obtainedValues_of_enough enough)⟩
    rw [ends, decide_eq_true enough]

/-- Any of the numbers may then be at the root of the tree. -/
theorem exists_insertAll_root {requests : List Request}
    (enough : ∀ request ∈ requests, request.memory = .enough)
    (distinct : (requests.map Request.value).Nodup) {value : Int32}
    (isElement : value ∈ requests.map Request.value) :
    ∃ shape final cell left right,
      insertAll shape requests start = some (final, true) ∧
      final.Holds ∧ final.obtained.map Cell.value = requests.map Request.value ∧
      final.root = .node cell left right ∧ cell.value = value := by
  rcases List.eq_nil_or_concat requests with rfl | ⟨front, last, rfl⟩
  · simp at isElement
  rw [List.concat_eq_append] at enough distinct isElement ⊢
  rw [List.map_append] at distinct
  obtain ⟨middle, went, holds, values⟩ := insertAll_of_enough (fun _ => .nil)
    (fun request present => enough request (List.mem_append_left _ present))
    (List.nodup_append.mp distinct).1
  have fresh : last.value ∉ middle.obtained.map Cell.value := by
    rw [values]
    exact fun present =>
      (List.nodup_append.mp distinct).2.2 _ present _ (by simp) rfl
  have length : middle.obtained.length = front.length := by
    simpa using congrArg List.length values
  -- the last `tsearch` leaves the tree in the shape that has this number at its
  -- root
  have added := holds.added fresh .nil
  have addedValues : (middle.added .nil last.value).obtained.map Cell.value =
      (front ++ [last]).map Request.value := by
    simp [Program.added, values]
  obtain ⟨cell, present, isValue⟩ :
    ∃ cell ∈ (middle.added .nil last.value).obtained,
      cell.value = value := by
    rw [← addedValues] at isElement
    exact List.mem_map.mp isElement
  obtain ⟨before, after, split⟩ :=
    List.append_of_mem (added.mem_iff.mpr present)
  rw [Program.added, inorder_reshape] at split
  obtain ⟨shape, left, right, shaped, _⟩ := exists_shape_of_inorder split
  refine ⟨fun number => if number = front.length then shape else .nil,
    middle.added shape last.value, cell, left, right, ?_,
    holds.added fresh shape, ?_, shaped, isValue⟩
  · have sameFront :
        insertAll (fun number => if number = front.length then shape else .nil)
        front start = some (middle, true) := by
      rw [← went]
      apply insertAll_congr
      intro number bound
      have : number ≠ front.length := by
        simp [start] at bound
        omega
      exact if_neg this
    rw [insertAll_append sameFront, insertAll_cons_of_fresh holds fresh,
      enough last (by simp)]
    simp [insertAll, length]
  · simp [Program.added, values]

end

end BinarySearchTree
end LinuxCPractice
