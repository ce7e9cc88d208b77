import LinuxCPractice.CString
import Mathlib.Data.List.TakeWhile

/-!
# Buffers that are filled and printed

A buffer is a list of bytes. Receiving into it replaces its first bytes and
leaves the others as they were; printing it as a string reads memory from its
address on, up to the first NUL, which may lie behind the buffer.
-/

namespace LinuxCPractice

namespace CString

/-- The string found in memory, without its NUL. -/
def text (memory : List UInt8) : List UInt8 :=
  memory.takeWhile (· ≠ 0)

/-- A text holds no NUL. -/
theorem notMem_text (memory : List UInt8) : 0 ∉ text memory := by
  intro present
  simpa using List.mem_takeWhile_imp present

/-- Without a NUL in front, the string goes on behind it. -/
theorem text_append_of_notMem {front : List UInt8} (clean : 0 ∉ front)
    (rest : List UInt8) :
    text (front ++ rest) = front ++ text rest := by
  unfold text
  apply List.takeWhile_append_of_pos
  intro byte present
  simpa using fun zero : byte = 0 => clean (zero ▸ present)

/-- Without a NUL all of the memory is text. -/
theorem text_eq_self_of_notMem {memory : List UInt8} (clean : 0 ∉ memory) :
    text memory = memory := by
  simpa [text] using text_append_of_notMem clean []

/-- A NUL in front ends the string there. -/
theorem text_append_of_mem {front : List UInt8} (nul : 0 ∈ front)
    (rest : List UInt8) :
    text (front ++ rest) = text front := by
  induction front with
  | nil => simp at nul
  | cons byte front inductionHypothesis =>
      by_cases zero : byte = 0
      · simp [text, zero]
      · have later : 0 ∈ front :=
          (List.mem_cons.mp nul).resolve_left fun equal => zero equal.symm
        have same := inductionHypothesis later
        unfold text at same ⊢
        simpa [zero] using same

/-- The string ends inside the first bytes exactly when they hold a NUL. -/
theorem strlen_append_lt_iff {front rest : List UInt8} :
    strlen (front ++ rest) < front.length ↔ 0 ∈ front := by
  constructor
  · intro ends
    by_contra clean
    rw [strlen_append_of_notMem clean] at ends
    omega
  · intro nul
    exact strlen_append_lt_of_mem nul rest

end CString

namespace Buffer

/-- Store bytes at the start of a buffer. -/
def overwrite (buffer chunk : List UInt8) : List UInt8 :=
  chunk ++ buffer.drop chunk.length

/-- A chunk that fits leaves the length of the buffer. -/
theorem length_overwrite {buffer chunk : List UInt8}
    (fits : chunk.length ≤ buffer.length) :
    (overwrite buffer chunk).length = buffer.length := by
  rw [overwrite, List.length_append, List.length_drop]
  omega

@[simp] theorem take_overwrite (buffer chunk : List UInt8) :
    (overwrite buffer chunk).take chunk.length = chunk :=
  List.take_left

/-! ## Reading a line -/

/-- A file up to and including its first newline. -/
def firstLine : List UInt8 → List UInt8
  | [] => []
  | byte :: rest => if byte = 10 then [byte] else byte :: firstLine rest

/-- What `fgets` reads from a file into a buffer of `size` bytes, without the
NUL it adds: nothing from an empty file, and otherwise at most `size - 1` bytes
of the first line. -/
def fgets (size : Nat) (content : List UInt8) : Option (List UInt8) :=
  if content = [] then none else some ((firstLine content).take (size - 1))

/-- A line read is shorter than the size that `fgets` is given. -/
theorem length_le_of_fgets {size : Nat} {content line : List UInt8}
    (reads : fgets size content = some line) : line.length ≤ size - 1 := by
  unfold fgets at reads
  split at reads
  · cases reads
  · cases reads
    exact List.length_take_le _ _

/-- A line read holds no bytes that the first line does not hold. -/
theorem notMem_of_fgets {size : Nat} {content line : List UInt8} {byte : UInt8}
    (reads : fgets size content = some line)
    (absent : byte ∉ firstLine content) :
    byte ∉ line := by
  unfold fgets at reads
  split at reads
  · cases reads
  · cases reads
    exact fun present => absent (List.mem_of_mem_take present)

end Buffer

/-! ## Printing a message -/

/-- A message at the start of a buffer, the text printed from the buffer's
address on and the number of bytes of memory read for that. -/
structure Print where
  message : List UInt8
  text : List UInt8
  reach : Nat
  deriving DecidableEq

namespace Print

/-- Print a buffer whose first `count` bytes are the message. The bytes behind
the buffer are given up to the next NUL. -/
def shown (buffer : List UInt8) (count : Nat) (beyond : List UInt8) : Print :=
  ⟨buffer.take count, CString.text (buffer ++ (beyond ++ [0])),
    CString.strlen (buffer ++ (beyond ++ [0])) + 1⟩

/-- The text is that of the message alone, and printing it has read nothing
behind the `size` bytes of the buffer. -/
def Faithful (size : Nat) (print : Print) : Prop :=
  print.text = CString.text print.message ∧ print.reach ≤ size

instance (size : Nat) : DecidablePred (Faithful size) :=
  fun _ => inferInstanceAs (Decidable (_ ∧ _))

/-- The message carries its own end, or the byte behind it in the buffer is a
NUL. -/
def Ended (buffer : List UInt8) (count : Nat) : Prop :=
  0 ∈ buffer.take (count + 1)

instance (buffer : List UInt8) (count : Nat) : Decidable (Ended buffer count) :=
  inferInstanceAs (Decidable (_ ∈ _))

/-- A message that is not ended is followed in the text by what the buffer or
the memory behind it holds, or is read on to the end of the buffer. -/
theorem faithful_shown_iff {buffer : List UInt8} {count : Nat}
    (beyond : List UInt8)
    (fits : count ≤ buffer.length) :
    (shown buffer count beyond).Faithful buffer.length ↔
      Ended buffer count := by
  have inside : CString.strlen (buffer ++ (beyond ++ [0])) + 1 ≤ buffer.length ↔
      0 ∈ buffer :=
    CString.strlen_append_lt_iff
  obtain ⟨message, rest, rfl, rfl⟩ : ∃ message rest, buffer = message ++ rest ∧
      message.length = count :=
    ⟨buffer.take count, buffer.drop count, (List.take_append_drop _ _).symm,
      List.length_take_of_le fits⟩
  have next : (message ++ rest).take (message.length + 1) =
      message ++ rest.take 1 :=
    List.take_length_add_append 1
  simp only [Faithful, shown, Ended, next, List.take_left, inside]
  rw [List.append_assoc, List.mem_append, List.mem_append]
  by_cases nul : 0 ∈ message
  · simp [nul, CString.text_append_of_mem nul]
  · rw [CString.text_append_of_notMem nul, CString.text_eq_self_of_notMem nul,
      List.append_right_eq_self]
    cases rest with
    | nil => simp [nul]
    | cons byte rest =>
        by_cases zero : byte = 0
        · simp [zero, CString.text]
        · have different : (0 : UInt8) ≠ byte := fun equal => zero equal.symm
          simp [nul, zero, different, CString.text]

/-- What is shown of a buffer depends on the bytes received and those behind
them. -/
theorem shown_eq (buffer : List UInt8) (count : Nat) (beyond : List UInt8) :
    ∃ rest, shown buffer count beyond =
      ⟨buffer.take count, CString.text (buffer.take count ++ rest),
        CString.strlen (buffer.take count ++ rest) + 1⟩ := by
  refine ⟨buffer.drop count ++ (beyond ++ [0]), ?_⟩
  rw [← List.append_assoc (buffer.take count), List.take_append_drop, shown]

/-- Printing reads nothing but the message exactly when the message holds a
NUL. -/
theorem reach_shown_le_iff (buffer : List UInt8) (count : Nat)
    (beyond : List UInt8) :
    (shown buffer count beyond).reach ≤
      (shown buffer count beyond).message.length ↔
      0 ∈ buffer.take count := by
  obtain ⟨rest, shown⟩ := shown_eq buffer count beyond
  rw [shown]
  exact CString.strlen_append_lt_iff

/-- The text is then that of the message. -/
theorem text_shown_of_mem {buffer : List UInt8} {count : Nat}
    (beyond : List UInt8)
    (nul : 0 ∈ buffer.take count) :
    (shown buffer count beyond).text = CString.text (buffer.take count) := by
  obtain ⟨rest, shown⟩ := shown_eq buffer count beyond
  rw [shown]
  exact CString.text_append_of_mem nul rest

/-- Two faithful texts of one message are the same. -/
theorem Faithful.text_eq {size : Nat} {first second : Print}
    (faithful : first.Faithful size)
    (alsoFaithful : second.Faithful size)
    (same : first.message = second.message) :
    first.text = second.text := by
  rw [faithful.1, alsoFaithful.1, same]

end Print
end LinuxCPractice
