import LinuxCPractice.SearchTree

/-!
# Integers in a search tree

`main` of `binarysearchtree.c` with any numbers in place of those in `dummy`.
The tree holds pointers to cells that come from `malloc`, one for each number.
-/

namespace LinuxCPractice
namespace BinarySearchTree

open SearchTree

/-! ## Data -/

/-- An `int` in memory. What `malloc` returns is named by how many cells it has
returned before. -/
structure Cell where
  address : Nat
  value : Int32
  deriving DecidableEq

/-- What `malloc` does while a number is inserted: it may have no memory for the
cell, or none for the node of the tree. -/
inductive Memory
  | noCell
  | noNode
  | enough
  deriving DecidableEq

/-- A number of the array and the memory there is for it. -/
structure Request where
  value : Int32
  memory : Memory
  deriving DecidableEq

/-- The numbers in the source. -/
def dummy : List Int32 := [179, 102, 220, 124, 214, 40, 16, 12, 70, 161, 35]

/-- A line that the program prints. -/
inductive Line
  | node (value : Int32) (depth : Nat)
  | found (value : Int32)
  | deleted (value : Int32)
  | mallocFailed
  deriving DecidableEq

/-- The text of a line, an element with its depth in the tree. -/
def Line.text : Line → String
  | .node value depth => (toString value).leftpad 6 ++ s!"\tdepth: {depth}\n"
  | .found value => s!"{value} is found\n"
  | .deleted value => s!"{value} is deleted successfully\n"
  | .mallocFailed => "malloc failed\n"

/-! ## The functions given to the tree -/

/-- The comparison that is passed to `tsearch`, `tfind` and `tdelete`. -/
def compare : Comparator Cell := fun first second => first.value - second.value

/-- Print an element when it is visited between its subtrees, or as a leaf. -/
def action (visit : Cell × Visit × Nat) : Option Line :=
  match visit with
  | (_, .preorder, _) => none
  | (cell, .postorder, depth) => some (.node cell.value depth)
  | (_, .endorder, _) => none
  | (cell, .leaf, depth) => some (.node cell.value depth)

/-! ## The program -/

/-- The tree, the cells obtained from `malloc` and the lines printed. -/
structure Program where
  root : BinaryTree Cell
  obtained : List Cell
  output : List Line
  deriving DecidableEq

namespace Program

/-- The program before the loop over the array. -/
def start : Program where
  root := .nil
  obtained := []
  output := []

/-- Lines printed behind the output so far. -/
def print (program : Program) (lines : List Line) : Program :=
  { program with output := program.output ++ lines }

/-- `twalk` with `action`. -/
def walk (program : Program) : Program :=
  program.print ((twalk program.root).filterMap action)

@[simp] theorem print_root (program : Program) (lines : List Line) :
    (program.print lines).root = program.root := rfl

@[simp] theorem print_obtained (program : Program) (lines : List Line) :
    (program.print lines).obtained = program.obtained := rfl

@[simp] theorem walk_root (program : Program) :
    program.walk.root = program.root := rfl

@[simp] theorem walk_obtained (program : Program) :
    program.walk.obtained = program.obtained := rfl

/-- The loop that inserts the numbers; `true` says that it went through. A
`goto` leaves it when there is no memory for a cell, or when the tree holds an
equal number already. When there is none for a node, `tsearch` returns a null
pointer, which is dereferenced. The shape is that in which `tsearch` leaves the
tree it has been called for with a cell. -/
def insertAll (shape : Nat → Shape) :
    List Request → Program → Option (Program × Bool)
  | [], program => some (program, true)
  | request :: requests, program =>
      if request.memory = .noCell then
        some (program.print [.mallocFailed], false)
      else
        let ptr : Cell := ⟨program.obtained.length, request.value⟩
        (tsearch compare ptr (request.memory = .enough)
          (shape ptr.address) program.root).bind
          fun (val, root) =>
            let program :=
              { program with root := root, obtained := program.obtained ++ [ptr] }
            if val ≠ ptr then some (program, false)
            else insertAll shape requests program

/-- The rest of the block in front of `out`: walk the tree and delete a
number. -/
def delete (key : Cell) (shape : Shape) (program : Program) : Program :=
  let program := program.walk
  if (tfind compare key program.root).isSome then
    let program := program.print [.found key.value]
    match tdelete compare key shape program.root with
    | some root => { program.print [.deleted key.value] with root := root }.walk
    | none => program
  else program

/-- The program behind `out`, with the addresses passed to `free` by
`freenode`. -/
structure Ending where
  program : Program
  freed : List Nat
  deriving DecidableEq

/-- `main` for an element of the array to delete, or the end by a null
pointer. -/
def main (shape : Nat → Shape) (deleteShape : Shape) (requests : List Request)
    (key : Cell) :
    Option Ending :=
  (insertAll shape requests start).map fun (program, wentThrough) =>
    let program := if wentThrough then program.delete key deleteShape
      else program
    ⟨program, (tdestroy program.root).map Cell.address⟩

end Program
end BinarySearchTree
end LinuxCPractice
