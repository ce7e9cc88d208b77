import LinuxCPractice.Lines

/-!
# The output of a command

`main` in `popen.c`, which prints what a command writes. The buffer takes a line
of the output, or 255 bytes of it, is printed as a string and cleared.
-/

namespace LinuxCPractice
namespace Popen

open Lines

/-- The size of the buffer. -/
def bufferSize : Nat := 256

/-- The cleared buffer. -/
def cleared : List UInt8 := List.replicate bufferSize 0

/-- One round: `printf("%s", buffer)`, which reads on into the memory behind the
buffer until it comes to a NUL, and `memset`. -/
def body (beyond buffer : List UInt8) : List UInt8 × List UInt8 :=
  (CString.text (buffer ++ beyond), cleared)

/-- The loop with at most `fuel` calls of `fgets`: what it prints, and the
buffer it leaves. -/
def loop (beyond : List UInt8) : Nat → List UInt8 → List UInt8 →
      Option (List UInt8 × List UInt8) :=
  whileFgets bufferSize (body beyond)

/-- The exit status of `main` and what it prints, for the output of the command
or a null pointer from `popen`. That failure is reported as `"popen error"` on
standard error. -/
def main (beyond : List UInt8) (fuel : Nat) (fp : Option (List UInt8)) :
    Option (Nat × List UInt8) :=
  match fp with
  | none => some (1, [])
  | some stream =>
      (loop beyond fuel cleared stream).map fun (printed, _) => (0, printed)

/-! ## What is printed -/

variable {stream : List UInt8}

/-- The line in the buffer is printed up to its first NUL, and nothing behind
it. -/
theorem body_overwrite (beyond buffer line : List UInt8) :
    body beyond (Buffer.overwrite buffer (line ++ [0])) =
      (CString.text line, cleared) := by
  have nul : (0 : UInt8) ∈ line ++ [0] :=
    List.mem_append_right line (List.mem_singleton.mpr rfl)
  have ends : CString.text (line ++ [0]) = CString.text line := by
    by_cases clean : 0 ∈ line
    · exact CString.text_append_of_mem clean [0]
    · rw [CString.text_append_of_notMem clean,
        CString.text_eq_self_of_notMem clean]
      simp [CString.text]
  rw [body, Buffer.overwrite, List.append_assoc,
    CString.text_append_of_mem nul, ends]

/-- The loop comes to the end of the stream and prints its pieces, each of them
as a string. -/
theorem exists_pieces_of_loop (beyond stream : List UInt8) :
    ∃ pieces, Pieces bufferSize stream pieces ∧ ∀ fuel, stream.length < fuel →
      loop beyond fuel cleared stream =
        some (pieces.flatMap CString.text, cleared) := by
  obtain ⟨pieces, read, few⟩ :=
    exists_pieces (show 2 ≤ bufferSize by decide) stream
  refine ⟨pieces, read, ?_⟩
  intro fuel enough
  have prints : ∀ buffer line, buffer = cleared → line.length ≤ bufferSize - 1 →
      (body beyond (Buffer.overwrite buffer (line ++ [0]))).1 =
        CString.text line := by
    intro buffer line _ _
    rw [body_overwrite]
  have leaves : ∀ buffer line, buffer = cleared → line.length ≤ bufferSize - 1 →
      (body beyond (Buffer.overwrite buffer (line ++ [0]))).2 = cleared := by
    intro buffer line _ _
    rw [body_overwrite]
  obtain ⟨last, printed, rfl⟩ :=
    read.whileFgets_eq (· = cleared) CString.text prints leaves
    (Nat.lt_of_le_of_lt few enough) rfl
  exact printed

/-- Strings without a NUL are printed as they are. -/
theorem flatMap_text_of_notMem {pieces : List (List UInt8)}
    (clean : 0 ∉ pieces.flatten) :
    pieces.flatMap CString.text = pieces.flatten := by
  induction pieces with
  | nil => rfl
  | cons piece pieces inductionHypothesis =>
      rw [List.flatten_cons, List.mem_append, not_or] at clean
      rw [List.flatMap_cons, List.flatten_cons, inductionHypothesis clean.2,
        CString.text_eq_self_of_notMem clean.1]

/-- No NUL is ever printed. -/
theorem notMem_flatMap_text (pieces : List (List UInt8)) :
    (0 : UInt8) ∉ pieces.flatMap CString.text := by
  intro printed
  obtain ⟨piece, _, present⟩ := List.mem_flatMap.mp printed
  exact CString.notMem_text piece present

/-- The output of the command is printed as it is, however it is cut into
lines. -/
theorem loop_prints_stream (beyond : List UInt8) (clean : 0 ∉ stream)
    {fuel : Nat}
    (enough : stream.length < fuel) :
    loop beyond fuel cleared stream = some (stream, cleared) := by
  obtain ⟨pieces, read, printed⟩ := exists_pieces_of_loop beyond stream
  have whole := read.flatten_eq
  rw [printed fuel enough, flatMap_text_of_notMem (whole ▸ clean), whole]

/-- A line that does not fit into the buffer and a last one without its
newline. -/
theorem loop_prints_stream_long_line :
    loop [] 304 cleared (List.replicate 300 97 ++ [10, 121, 111]) =
      some (List.replicate 300 97 ++ [10, 121, 111], cleared) := by
  apply loop_prints_stream
  · rw [List.mem_append, List.mem_replicate]
    decide
  · rw [List.length_append, List.length_replicate]
    decide

/-- `main` copies the output of the command exactly when there is no NUL in
it. -/
theorem main_copies_iff (beyond : List UInt8) {fuel : Nat}
    (enough : stream.length < fuel) :
    main beyond fuel (some stream) = some (0, stream) ↔ 0 ∉ stream := by
  obtain ⟨pieces, read, printed⟩ := exists_pieces_of_loop beyond stream
  have whole := read.flatten_eq
  have output : main beyond fuel (some stream) =
      some (0, pieces.flatMap CString.text) := by
    rw [main, printed fuel enough, Option.map_some]
  rw [output]
  constructor
  · intro copied
    have same : pieces.flatMap CString.text = stream :=
      congrArg Prod.snd (Option.some.inj copied)
    rw [← same]
    exact notMem_flatMap_text pieces
  · intro clean
    rw [flatMap_text_of_notMem (whole ▸ clean), whole]

end Popen
end LinuxCPractice
