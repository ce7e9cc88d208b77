import LinuxCPractice.Comparator
import Mathlib.Data.Tree.Basic

/-!
# Search trees that see only the sign of a comparison

The trees of `tsearch` hold pointers to keys, which they compare by a function
that is given with each operation. How a tree is balanced is left open: each
operation that changes the tree is given the shape it leaves it in.
-/

namespace LinuxCPractice
namespace SearchTree

variable {α : Type*}

/-! ## Trees and their shapes -/

/-- The keys from left to right. -/
def inorder : BinaryTree α → List α
  | .nil => []
  | .node key left right => inorder left ++ key :: inorder right

@[simp] theorem inorder_nil : inorder (.nil : BinaryTree α) = [] := rfl

@[simp] theorem inorder_node (key : α) (left right : BinaryTree α) :
    inorder (.node key left right) = inorder left ++ key :: inorder right := rfl

/-- The tree has as many keys as nodes. -/
theorem length_inorder (tree : BinaryTree α) :
    (inorder tree).length = tree.numNodes := by
  induction tree with
  | nil => rfl
  | node key left right leftHypothesis rightHypothesis =>
      simp [leftHypothesis, rightHypothesis]
      omega

/-- A tree without its keys. -/
abbrev Shape := BinaryTree Unit

/-- The tree of a shape with these elements in order. -/
def fill : Shape → List α → BinaryTree α
  | .nil, _ => .nil
  | .node _ left right, elements =>
      match elements.drop left.numNodes with
      | [] => .nil
      | key :: rest =>
          .node key (fill left (elements.take left.numNodes)) (fill right rest)

/-- The tree of a shape holds its elements in order. -/
theorem inorder_fill {shape : Shape} {elements : List α}
    (fits : elements.length = shape.numNodes) :
    inorder (fill shape elements) = elements := by
  induction shape generalizing elements with
  | nil => simpa [fill, eq_comm] using fits
  | node _ left right leftHypothesis rightHypothesis =>
      simp only [BinaryTree.numNodes] at fits
      cases split : elements.drop left.numNodes with
      | nil =>
          have lengths := congrArg List.length split
          simp at lengths
          omega
      | cons key rest =>
          have lengths := congrArg List.length split
          simp only [List.length_drop, List.length_cons] at lengths
          rw [fill, split, inorder_node, leftHypothesis (by simp; omega),
            rightHypothesis (by omega), ← split, List.take_append_drop]

/-- The same elements in another shape, if it is one for as many. -/
def reshape (shape : Shape) (tree : BinaryTree α) : BinaryTree α :=
  if shape.numNodes = tree.numNodes then fill shape (inorder tree) else tree

@[simp] theorem inorder_reshape (shape : Shape) (tree : BinaryTree α) :
    inorder (reshape shape tree) = inorder tree := by
  unfold reshape
  split
  · next same => exact inorder_fill (by rw [length_inorder, same])
  · rfl

/-- A list as a tree. -/
def spine : Nat → Shape
  | 0 => .nil
  | count + 1 => .node () .nil (spine count)

@[simp] theorem numNodes_spine (count : Nat) :
    (spine count).numNodes = count := by
  induction count with
  | zero => rfl
  | succ count inductionHypothesis => simp [spine, inductionHypothesis]

/-- Any element may be the root of a tree. -/
theorem exists_shape_of_inorder {tree : BinaryTree α} {before after : List α}
    {root : α}
    (split : inorder tree = before ++ root :: after) :
    ∃ shape left right, reshape shape tree = .node root left right ∧
      inorder left = before ∧
      inorder right = after := by
  have size := length_inorder tree
  rw [split] at size
  have fits :
      (BinaryTree.node () (spine before.length) (spine after.length)).numNodes =
      tree.numNodes := by
    simp at size ⊢
    omega
  refine ⟨.node () (spine before.length) (spine after.length),
    fill (spine before.length) before, fill (spine after.length) after, ?_,
    inorder_fill (by simp), inorder_fill (by simp)⟩
  rw [reshape, if_pos fits, split]
  simp [fill]

/-! ## Operations -/

/-- The element found for a key. -/
def find (compare : Comparator α) (key : α) : BinaryTree α → Option α
  | .nil => none
  | .node element left right =>
      if (compare key element).toInt = 0 then some element
      else if (compare key element).toInt < 0 then find compare key left
      else find compare key right

/-- The tree with a new leaf for a key that was not found. -/
def insert (compare : Comparator α) (key : α) : BinaryTree α → BinaryTree α
  | .nil => .node key .nil .nil
  | .node element left right =>
      if (compare key element).toInt = 0 then .node element left right
      else if (compare key element).toInt < 0 then
        .node element (insert compare key left) right
      else .node element left (insert compare key right)

/-- Two trees one behind the other. -/
def join : BinaryTree α → BinaryTree α → BinaryTree α
  | .nil, after => after
  | .node element left right, after => .node element left (join right after)

/-- The tree without the element found for a key. -/
def remove (compare : Comparator α) (key : α) : BinaryTree α → BinaryTree α
  | .nil => .nil
  | .node element left right =>
      if (compare key element).toInt = 0 then join left right
      else if (compare key element).toInt < 0 then
        .node element (remove compare key left) right
      else .node element left (remove compare key right)

/-- `tsearch` returns the element found, or else the key it has added, or a null
pointer when there is no memory for another node. -/
def tsearch (compare : Comparator α) (key : α) (allocates : Bool)
    (shape : Shape)
    (tree : BinaryTree α) : Option (α × BinaryTree α) :=
  match find compare key tree with
  | some found => some (found, reshape shape tree)
  | none =>
      if allocates then some (key, reshape shape (insert compare key tree))
      else none

/-- `tfind`, which searches and adds nothing. -/
def tfind (compare : Comparator α) (key : α) (tree : BinaryTree α) : Option α :=
  find compare key tree

/-- `tdelete` returns a null pointer when the key is not found. -/
def tdelete (compare : Comparator α) (key : α) (shape : Shape)
    (tree : BinaryTree α) :
    Option (BinaryTree α) :=
  (find compare key tree).map fun _ => reshape shape (remove compare key tree)

/-- When `twalk` calls its function. -/
inductive Visit
  | preorder
  | postorder
  | endorder
  | leaf
  deriving DecidableEq

/-- The visits to the nodes of a tree whose root has this depth. -/
def walk (depth : Nat) : BinaryTree α → List (α × Visit × Nat)
  | .nil => []
  | .node key .nil .nil => [(key, .leaf, depth)]
  | .node key left right =>
      (key, .preorder, depth) :: walk (depth + 1) left ++
        (key, .postorder, depth) :: walk (depth + 1) right ++
        [(key, .endorder, depth)]

/-- `twalk`, which begins at depth zero. -/
def twalk (tree : BinaryTree α) : List (α × Visit × Nat) := walk 0 tree

/-- The elements in the order in which `tdestroy` frees them. -/
def tdestroy : BinaryTree α → List α
  | .nil => []
  | .node key left right => tdestroy left ++ tdestroy right ++ [key]

/-! ## What is in the tree behind an operation -/

/-- What is found is in the tree and compares as equal. -/
theorem mem_of_find {compare : Comparator α} {key found : α}
    {tree : BinaryTree α}
    (search : find compare key tree = some found) :
    found ∈ inorder tree ∧ (compare key found).toInt = 0 := by
  induction tree with
  | nil => cases search
  | node element left right leftHypothesis rightHypothesis =>
      unfold find at search
      split_ifs at search with equal less
      · cases search
        exact ⟨by simp, equal⟩
      · obtain ⟨inLeft, equal⟩ := leftHypothesis search
        exact ⟨by simp [inLeft], equal⟩
      · obtain ⟨inRight, equal⟩ := rightHypothesis search
        exact ⟨by simp [inRight], equal⟩

/-- An insertion adds one key. -/
theorem perm_insert {compare : Comparator α} {key : α} {tree : BinaryTree α}
    (search : find compare key tree = none) :
    (inorder (insert compare key tree)).Perm (key :: inorder tree) := by
  induction tree with
  | nil => exact List.Perm.refl _
  | node element left right leftHypothesis rightHypothesis =>
      unfold find at search
      unfold insert
      split_ifs at search ⊢ with equal less
      · exact (leftHypothesis search).append_right _
      · have inserted :
            (inorder left ++ element :: inorder (insert compare key right)).Perm
            (inorder left ++ element :: key :: inorder right) :=
          ((rightHypothesis search).cons element).append_left _
        have moved : (inorder left ++ [element] ++ key :: inorder right).Perm
            (key :: (inorder left ++ [element] ++ inorder right)) :=
              List.perm_middle
        simpa using inserted.trans (by simpa using moved)

@[simp] theorem inorder_join (before after : BinaryTree α) :
    inorder (join before after) = inorder before ++ inorder after := by
  induction before with
  | nil => rfl
  | node element left right _ rightHypothesis => simp [join, rightHypothesis]

/-- The element found is taken out and the others are left in their order. -/
theorem inorder_remove {compare : Comparator α} {key found : α}
    {tree : BinaryTree α}
    (search : find compare key tree = some found) :
    ∃ before after, inorder tree = before ++ found :: after ∧
      inorder (remove compare key tree) = before ++ after := by
  induction tree with
  | nil => cases search
  | node element left right leftHypothesis rightHypothesis =>
      unfold find at search
      unfold remove
      split_ifs at search ⊢ with equal less
      · cases search
        exact ⟨inorder left, inorder right, rfl, inorder_join left right⟩
      · obtain ⟨before, after, split, removed⟩ := leftHypothesis search
        exact ⟨before, after ++ element :: inorder right, by simp [split],
          by simp [removed]⟩
      · obtain ⟨before, after, split, removed⟩ := rightHypothesis search
        exact ⟨inorder left ++ element :: before, after, by simp [split],
          by simp [removed]⟩

/-- Each element is visited once between its subtrees, or as a leaf. -/
theorem filterMap_walk (depth : Nat) (tree : BinaryTree α) :
    ((walk depth tree).filter fun visit =>
      visit.2.1 = .postorder ∨ visit.2.1 = .leaf).map Prod.fst =
        inorder tree := by
  induction tree generalizing depth with
  | nil => rfl
  | node key left right leftHypothesis rightHypothesis =>
      have leftVisits := leftHypothesis (depth + 1)
      have rightVisits := rightHypothesis (depth + 1)
      cases left with
      | nil =>
          cases right with
          | nil => simp [walk]
          | node _ _ _ => simp_all [walk]
      | node _ _ _ => simp_all [walk]

/-- `tdestroy` frees each key once. -/
theorem perm_tdestroy (tree : BinaryTree α) :
    (tdestroy tree).Perm (inorder tree) := by
  induction tree with
  | nil => exact List.Perm.refl _
  | node key left right leftHypothesis rightHypothesis =>
      have ended : (tdestroy left ++ tdestroy right ++ [key]).Perm
          (key :: (inorder left ++ inorder right)) :=
        (List.perm_append_singleton key _).trans
          ((leftHypothesis.append rightHypothesis).cons key)
      exact ended.trans List.perm_middle.symm

/-! ## Trees that are sorted by a value -/

section

variable {compare : Comparator α} {value : α → Int} {key : α}
  {tree : BinaryTree α}

/-- The values of the elements ascend. -/
def Sorted (value : α → Int) (tree : BinaryTree α) : Prop :=
  (inorder tree).Pairwise fun first second => value first < value second

/-- A tree is in order exactly if its subtrees are and the key lies between
theirs. -/
theorem sorted_node_iff {element : α} {left right : BinaryTree α} :
    Sorted value (.node element left right) ↔
      Sorted value left ∧ Sorted value right ∧
        (∀ smaller ∈ inorder left, value smaller < value element) ∧
        (∀ larger ∈ inorder right, value element < value larger) ∧
        ∀ smaller ∈ inorder left, ∀ larger ∈ inorder right,
          value smaller < value larger := by
  simp only [Sorted, inorder_node, List.pairwise_append, List.pairwise_cons,
    List.forall_mem_cons]
  grind

/-- What a comparison with the root says, and that the subtrees are compared in
the same order. -/
theorem agrees_node {root : α} {left right : BinaryTree α}
    (agrees : Comparator.Agrees compare value
      (key :: inorder (.node root left right))) :
    ((compare key root).toInt = 0 ↔ value key = value root) ∧
      ((compare key root).toInt < 0 ↔ value key < value root) ∧
      Comparator.Agrees compare value (key :: inorder left) ∧
      Comparator.Agrees compare value (key :: inorder right) := by
  have isKey : key ∈ key :: inorder (.node root left right) :=
    List.mem_cons_self
  have isRoot : root ∈ key :: inorder (.node root left right) := by simp
  exact ⟨agrees.eq_zero_iff isKey isRoot, agrees.neg_iff isKey isRoot,
    agrees.subset (List.cons_subset_cons key (by simp)),
    agrees.subset (List.cons_subset_cons key (by simp))⟩

/-- In a sorted tree an element is found if the comparison function agrees with
the values. -/
theorem find_of_sorted (sorted : Sorted value tree)
    (agrees : Comparator.Agrees compare value (key :: inorder tree))
    {element : α}
    (present : element ∈ inorder tree) (same : value element = value key) :
    find compare key tree = some element := by
  induction tree with
  | nil => simp at present
  | node root left right leftHypothesis rightHypothesis =>
      obtain ⟨sortedLeft, sortedRight, smaller, larger, _⟩ :=
        sorted_node_iff.mp sorted
      obtain ⟨equal, less, agreesLeft, agreesRight⟩ := agrees_node agrees
      rcases List.mem_append.mp present with inLeft | present
      · have below := smaller element inLeft
        rw [find, if_neg (by omega), if_pos (by omega)]
        exact leftHypothesis sortedLeft agreesLeft inLeft
      rcases List.mem_cons.mp present with rfl | inRight
      · rw [find, if_pos (by omega)]
      · have above := larger element inRight
        rw [find, if_neg (by omega), if_neg (by omega)]
        exact rightHypothesis sortedRight agreesRight inRight

/-- An insertion adds its key. -/
theorem mem_insert_iff (search : find compare key tree = none) {element : α} :
    element ∈ inorder (insert compare key tree) ↔
      element = key ∨ element ∈ inorder tree := by
  rw [(perm_insert search).mem_iff, List.mem_cons]

/-- An insertion keeps the order. -/
theorem Sorted.insert (sorted : Sorted value tree)
    (agrees : Comparator.Agrees compare value (key :: inorder tree))
    (search : find compare key tree = none) :
    Sorted value (insert compare key tree) := by
  induction tree with
  | nil => simp [SearchTree.insert, Sorted]
  | node root left right leftHypothesis rightHypothesis =>
      obtain ⟨sortedLeft, sortedRight, smaller, larger, across⟩ :=
        sorted_node_iff.mp sorted
      obtain ⟨equal, less, agreesLeft, agreesRight⟩ := agrees_node agrees
      unfold find at search
      unfold SearchTree.insert
      split_ifs at search ⊢ with isEqual isLess
      · have inserted := leftHypothesis sortedLeft agreesLeft search
        refine sorted_node_iff.mpr ⟨inserted, sortedRight, ?_, larger, ?_⟩
        · intro element present
          rcases (mem_insert_iff search).mp present with rfl | old
          · exact less.mp isLess
          · exact smaller element old
        · intro element present other isLarger
          rcases (mem_insert_iff search).mp present with rfl | old
          · have above := larger other isLarger
            omega
          · exact across element old other isLarger
      · have inserted := rightHypothesis sortedRight agreesRight search
        refine sorted_node_iff.mpr ⟨sortedLeft, inserted, smaller, ?_, ?_⟩
        · intro element present
          rcases (mem_insert_iff search).mp present with rfl | old
          · omega
          · exact larger element old
        · intro other isSmaller element present
          rcases (mem_insert_iff search).mp present with rfl | old
          · have below := smaller other isSmaller
            omega
          · exact across other isSmaller element old

/-- A removal keeps the order. -/
theorem Sorted.remove (sorted : Sorted value tree) {found : α}
    (search : find compare key tree = some found) :
    Sorted value (remove compare key tree) := by
  obtain ⟨before, after, split, removed⟩ := inorder_remove search
  rw [Sorted, removed]
  rw [Sorted, split] at sorted
  exact sorted.sublist ((List.sublist_cons_self found after).append_left before)

end

end SearchTree
end LinuxCPractice
