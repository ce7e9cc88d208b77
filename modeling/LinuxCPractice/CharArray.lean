import LinuxCPractice.Buffer

/-!
# Arrays of characters

An array keeps its size. `strncpy` stores a string at its start, cut off at a
number of bytes or filled up to it with NULs, and leaves the bytes behind that
number as they are. An array that holds a string and NULs behind it holds the
next string in the same way, however long the two are.
-/

namespace LinuxCPractice

/-- An array of `size` bytes. -/
structure CharArray (size : Nat) where
  bytes : List UInt8
  length_bytes : bytes.length = size

namespace CharArray

variable {size : Nat}

/-- An array that has been cleared. -/
def zeroed (size : Nat) : CharArray size where
  bytes := List.replicate size 0
  length_bytes := List.length_replicate

/-- The string at the start of the array. -/
def text (array : CharArray size) : List UInt8 := CString.text array.bytes

/-- The `count` bytes that `strncpy` stores. -/
def padded (source : List UInt8) (count : Nat) : List UInt8 :=
  (CString.text source ++ List.replicate count 0).take count

/-- The padded string has the length asked for. -/
theorem length_padded (source : List UInt8) (count : Nat) :
    (padded source count).length = count := by
  rw [padded, List.length_take, List.length_append, List.length_replicate]
  omega

/-- `strncpy` from the string that `source` points at. -/
def strncpy (array : CharArray size) (source : List UInt8) (count : Nat)
    (fits : count ≤ size) :
    CharArray size where
  bytes := Buffer.overwrite array.bytes (padded source count)
  length_bytes := by
    have room : (padded source count).length ≤ array.bytes.length := by
      rw [length_padded, array.length_bytes]
      exact fits
    exact (Buffer.length_overwrite room).trans array.length_bytes

/-! ## An array with one string in it -/

/-- The array holds the string and nothing but NULs behind it. -/
def Holds (array : CharArray size) (string : List UInt8) : Prop :=
  array.bytes = string ++ List.replicate (size - string.length) 0

/-- A cleared array holds the empty string. -/
theorem holds_zeroed (size : Nat) : (zeroed size).Holds [] := rfl

/-- The string cut off at the count, with zeros behind it. -/
theorem padded_eq (source : List UInt8) (count : Nat) :
    padded source count = (CString.text source).take count ++
      List.replicate (count - ((CString.text source).take count).length) 0 := by
  have behind : min (count - (CString.text source).length) count =
      count - min count (CString.text source).length := by omega
  rw [padded, List.take_append, List.take_replicate, List.length_take, behind]

/-- A copy that is at least as long as the string held before replaces it. -/
theorem Holds.strncpy {array : CharArray size} {old : List UInt8}
    (holds : array.Holds old)
    (source : List UInt8) {count : Nat} (short : old.length ≤ count)
    (fits : count ≤ size) :
    (array.strncpy source count fits).Holds
      ((CString.text source).take count) := by
  have behind : array.bytes.drop count = List.replicate (size - count) 0 := by
    rw [holds, List.drop_append, List.drop_of_length_le short,
      List.drop_replicate, List.nil_append]
    congr 1
    omega
  have zeros :
      count - ((CString.text source).take count).length + (size - count) =
      size - ((CString.text source).take count).length := by
    rw [List.length_take]
    omega
  show Buffer.overwrite array.bytes (padded source count) = _
  rw [Buffer.overwrite, length_padded, behind, padded_eq, List.append_assoc,
    List.replicate_append_replicate, zeros]

/-- The array ends in a NUL, shows as much of the argument as it has room for
and keeps nothing else. -/
structure Shows (array : CharArray size) (argument : List UInt8) : Prop where
  ended : 0 ∈ array.bytes
  text_eq : array.text = argument.take (size - 1)
  cleared : ∀ byte ∈ array.bytes.drop array.text.length, byte = 0

/-- A string that has been cut off for the NUL is shown to where it was cut. -/
theorem Holds.shows {array : CharArray size} {argument : List UInt8}
    (holds : array.Holds (argument.take (size - 1))) (positive : 0 < size)
    (clean : 0 ∉ argument) : array.Shows argument := by
  have short : (argument.take (size - 1)).length < size := by
    rw [List.length_take]
    omega
  have text_eq : array.text = argument.take (size - 1) := by
    have cleanStart : 0 ∉ argument.take (size - 1) := fun present =>
      clean (List.mem_of_mem_take present)
    obtain ⟨zeros, more⟩ :=
      Nat.exists_eq_add_one_of_ne_zero (Nat.sub_ne_zero_of_lt short)
    rw [text, holds, more, CString.text_append_of_notMem cleanStart,
      List.replicate_succ]
    simp [CString.text]
  refine ⟨?_, text_eq, ?_⟩
  · rw [holds, List.mem_append, List.mem_replicate]
    exact .inr ⟨Nat.sub_ne_zero_of_lt short, rfl⟩
  · rw [text_eq, holds, List.drop_left]
    intro byte present
    exact List.eq_of_mem_replicate present

end CharArray
end LinuxCPractice
