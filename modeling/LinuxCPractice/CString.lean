import Mathlib.Data.List.Basic

/-!
# Strings in memory

A C string is read from memory up to the first NUL byte. The functions below
take the bytes of memory from the string's address on.
-/

namespace LinuxCPractice
namespace CString

/-- Number of bytes before the first NUL. -/
def strlen (memory : List UInt8) : Nat :=
  (memory.takeWhile (· ≠ 0)).length

/-- Without a NUL in front, the search goes on behind the text. -/
theorem strlen_append_of_notMem {text : List UInt8} (clean : 0 ∉ text)
    (rest : List UInt8) :
    strlen (text ++ rest) = text.length + strlen rest := by
  have whole : ∀ byte ∈ text, decide (byte ≠ 0) = true := by
    intro byte member
    simpa using fun zero : byte = 0 => clean (zero ▸ member)
  rw [strlen, List.takeWhile_append_of_pos whole, List.length_append, strlen]

/-- A NUL in the text ends the string there. -/
theorem strlen_append_lt_of_mem {text : List UInt8} (nul : 0 ∈ text)
    (rest : List UInt8) :
    strlen (text ++ rest) < text.length := by
  induction text with
  | nil => simp at nul
  | cons byte text inductionHypothesis =>
      by_cases zero : byte = 0
      · simp [strlen, zero]
      · have later : 0 ∈ text := by
          rcases List.mem_cons.mp nul with equal | later
          · exact absurd equal.symm zero
          · exact later
        have shorter := inductionHypothesis later
        simp only [strlen] at shorter ⊢
        simpa [zero] using shorter

@[simp] theorem strlen_zero_cons (rest : List UInt8) :
    strlen (0 :: rest) = 0 := by
  simp [strlen]

/-! ## Strings as values -/

/-- A string by the bytes in front of its NUL. -/
structure Text where
  bytes : List UInt8
  clean : 0 ∉ bytes

/-- The bytes of a string literal. -/
def ofString (literal : String) : List UInt8 :=
  literal.toUTF8.data.toList

/-! ## The last occurrence of a byte -/

/-- The position at which `strrchr` finds a byte, behind `bytes` the NUL. -/
def strrchr : List UInt8 → UInt8 → Option Nat
  | [], target => if target = 0 then some 0 else none
  | byte :: rest, target =>
      match strrchr rest target with
      | some position => some (position + 1)
      | none => if byte = target then some 0 else none

/-- `strrchr` finds nothing exactly if the byte does not occur. -/
theorem strrchr_eq_none_iff {bytes : List UInt8} {target : UInt8}
    (visible : target ≠ 0) :
    strrchr bytes target = none ↔ target ∉ bytes := by
  induction bytes with
  | nil => simp [strrchr, visible]
  | cons byte rest inductionHypothesis =>
      cases found : strrchr rest target <;> grind [strrchr]

theorem strrchr_append {before after : List UInt8} {target : UInt8}
    (visible : target ≠ 0)
    (last : target ∉ after) :
    strrchr (before ++ target :: after) target = some before.length := by
  induction before with
  | nil => simp [strrchr, (strrchr_eq_none_iff visible).mpr last]
  | cons byte before inductionHypothesis => simp [strrchr, inductionHypothesis]

/-- A byte that occurs has a last occurrence. -/
theorem exists_last_of_mem {bytes : List UInt8} {target : UInt8}
    (present : target ∈ bytes) :
    ∃ before after, bytes = before ++ target :: after ∧ target ∉ after := by
  obtain ⟨after, before, split, first⟩ :=
    List.eq_append_cons_of_mem (List.mem_reverse.mpr present)
  refine ⟨before.reverse, after.reverse, ?_, by simpa using first⟩
  rw [← List.reverse_reverse bytes, split]
  simp

/-- The byte is found where it stands and behind which it does not stand
again. -/
theorem strrchr_eq_some_iff {bytes : List UInt8} {target : UInt8}
    {position : Nat}
    (visible : target ≠ 0) :
    strrchr bytes target = some position ↔
      ∃ before after, bytes = before ++ target :: after ∧
        before.length = position ∧
        target ∉ after := by
  constructor
  · intro found
    have present : target ∈ bytes := by
      by_contra absent
      rw [(strrchr_eq_none_iff visible).mpr absent] at found
      cases found
    obtain ⟨before, after, split, last⟩ := exists_last_of_mem present
    rw [split, strrchr_append visible last] at found
    exact ⟨before, after, split, Option.some.inj found, last⟩
  · rintro ⟨before, after, rfl, rfl, last⟩
    exact strrchr_append visible last

end CString
end LinuxCPractice
