import LinuxCPractice.Buffer

/-!
# Reading a file line by line

A call of `fgets` takes the next line of a file, or as much of it as its buffer
can hold. Called until it returns null it cuts the file into pieces, and what it
has cut can be put together again.
-/

namespace LinuxCPractice
namespace Lines

variable {size : Nat} {content line : List UInt8} {pieces : List (List UInt8)}

/-! ## One call -/

/-- The first line stands at the beginning. -/
theorem prefix_firstLine (content : List UInt8) :
    Buffer.firstLine content <+: content := by
  induction content with
  | nil => exact List.prefix_refl []
  | cons byte rest inductionHypothesis =>
      rw [Buffer.firstLine]
      split
      · exact List.cons_prefix_cons.mpr ⟨rfl, List.nil_prefix⟩
      · exact List.cons_prefix_cons.mpr ⟨rfl, inductionHypothesis⟩

/-- Only where there is nothing the first line is empty. -/
theorem firstLine_eq_nil_iff :
    Buffer.firstLine content = [] ↔ content = [] := by
  cases content with
  | nil => exact Iff.rfl
  | cons byte rest =>
      rw [Buffer.firstLine]
      split <;> simp

/-- `fgets` fails exactly at the end. -/
theorem fgets_eq_none_iff :
    Buffer.fgets size content = none ↔ content = [] := by
  unfold Buffer.fgets
  split <;> simp_all

/-- What is read stands at the start of the file. -/
theorem prefix_of_fgets (reads : Buffer.fgets size content = some line) :
    line <+: content := by
  unfold Buffer.fgets at reads
  split at reads
  · cases reads
  · cases reads
    exact (List.take_prefix (size - 1) _).trans (prefix_firstLine content)

/-- What has been read and what is left make up the content. -/
theorem append_drop_of_fgets (reads : Buffer.fgets size content = some line) :
    line ++ content.drop line.length = content := by
  obtain ⟨rest, split⟩ := prefix_of_fgets reads
  rw [← split, List.drop_left]

/-- With room for it a line that is read is not empty. -/
theorem ne_nil_of_fgets (room : 2 ≤ size)
    (reads : Buffer.fgets size content = some line) :
    line ≠ [] := by
  unfold Buffer.fgets at reads
  split at reads
  · cases reads
  · rename_i present
    cases reads
    have someLine : Buffer.firstLine content ≠ [] :=
      mt firstLine_eq_nil_iff.mp present
    rw [ne_eq, List.take_eq_nil_iff]
    exact not_or.mpr ⟨by omega, someLine⟩

/-- A call that returns a line has come further. -/
theorem length_drop_lt_of_fgets (room : 2 ≤ size)
    (reads : Buffer.fgets size content = some line) :
    (content.drop line.length).length < content.length := by
  have split := congrArg List.length (append_drop_of_fgets reads)
  have positive := List.length_pos_iff.mpr (ne_nil_of_fgets room reads)
  rw [List.length_append] at split
  omega

/-! ## All calls -/

/-- The pieces in which a file is read to its end. -/
inductive Pieces (size : Nat) : List UInt8 → List (List UInt8) → Prop
  | done : Pieces size [] []
  | piece {file piece : List UInt8} {others : List (List UInt8)}
      (reads : Buffer.fgets size file = some piece)
      (rest : Pieces size (file.drop piece.length) others) :
      Pieces size file (piece :: others)

/-- Nothing is lost or doubled. -/
theorem Pieces.flatten_eq (read : Pieces size content pieces) :
    pieces.flatten = content := by
  induction read with
  | done => rfl
  | piece reads _ inductionHypothesis =>
      rw [List.flatten_cons, inductionHypothesis]
      exact append_drop_of_fgets reads

/-- A buffer with room for a byte is enough to come to the end of the file. -/
theorem exists_pieces (room : 2 ≤ size) (content : List UInt8) :
    ∃ pieces, Pieces size content pieces ∧ pieces.length ≤ content.length := by
  induction left :
    content.length using Nat.strongRecOn generalizing content with
  | ind left inductionHypothesis =>
      subst left
      cases reads : Buffer.fgets size content with
      | none =>
          obtain rfl := fgets_eq_none_iff.mp reads
          exact ⟨[], .done, Nat.le_refl 0⟩
      | some line =>
          have shorter := length_drop_lt_of_fgets room reads
          obtain ⟨pieces, rest, few⟩ := inductionHypothesis _ shorter _ rfl
          refine ⟨line :: pieces, .piece reads rest, ?_⟩
          rw [List.length_cons]
          omega

/-! ## The loop -/

/-- The loop `while (fgets(buffer, size, fp))` with at most `fuel` calls. Its
body returns what it prints and the buffer it leaves. -/
def whileFgets (size : Nat) (body : List UInt8 → List UInt8 × List UInt8) :
    Nat → List UInt8 → List UInt8 → Option (List UInt8 × List UInt8)
  | 0, _, _ => none
  | fuel + 1, buffer, content =>
      match Buffer.fgets size content with
      | none => some ([], buffer)
      | some line =>
          let (printed, left) := body (Buffer.overwrite buffer (line ++ [0]))
          (whileFgets size body fuel left (content.drop line.length)).map fun
            (later, last) =>
            (printed ++ later, last)

/-- A body that turns each piece into some text, and leaves the buffer as the
next round needs it, prints the texts of all pieces. -/
theorem Pieces.whileFgets_eq {body : List UInt8 → List UInt8 × List UInt8}
    (ready : List UInt8 → Prop) (text : List UInt8 → List UInt8)
    (prints : ∀ buffer line, ready buffer → line.length ≤ size - 1 →
      (body (Buffer.overwrite buffer (line ++ [0]))).1 = text line)
    (leaves : ∀ buffer line, ready buffer → line.length ≤ size - 1 →
      ready (body (Buffer.overwrite buffer (line ++ [0]))).2)
    (read : Pieces size content pieces) {fuel : Nat}
    (enough : pieces.length < fuel)
    {buffer : List UInt8} (initially : ready buffer) :
    ∃ last, whileFgets size body fuel buffer content =
      some (pieces.flatMap text, last) ∧
      ready last := by
  induction read generalizing fuel buffer with
  | done =>
      obtain ⟨fuel, rfl⟩ := Nat.exists_eq_add_one.mpr enough
      exact ⟨buffer, rfl, initially⟩
  | @piece content line pieces reads _ inductionHypothesis =>
      obtain ⟨fuel, rfl⟩ := Nat.exists_eq_add_one.mpr (Nat.zero_lt_of_lt enough)
      have fits := Buffer.length_le_of_fgets reads
      have left : pieces.length < fuel := Nat.lt_of_succ_lt_succ enough
      obtain ⟨last, later, readyLast⟩ :=
        inductionHypothesis left (leaves buffer line initially fits)
      refine ⟨last, ?_, readyLast⟩
      rw [whileFgets, reads]
      simp only [later, Option.map_some, prints buffer line initially fits,
        List.flatMap_cons]

end Lines
end LinuxCPractice
