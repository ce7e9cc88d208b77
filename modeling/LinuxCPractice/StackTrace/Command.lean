import LinuxCPractice.Shell
import LinuxCPractice.StackTrace.Frames

/-!
# The command for a frame as the shell reads it

The program name stands in the command without quotes. The shell takes it as it
is exactly when it is a bare word, and `sprintf` puts all of it there when it
has at most 256 bytes.
-/

namespace LinuxCPractice
namespace StackTrace

open Shell

/-- The words the command is meant to have. -/
def addr2lineWords (programName addr : List UInt8) : List (List UInt8) :=
  [CString.ofString "addr2line", CString.ofString "-e", programName,
    CString.ofString "-f", addr]

/-- The command is made of its words. -/
theorem addr2lineCmd_eq (programName addr : List UInt8) :
    addr2lineCmd programName addr =
      unwords (addr2lineWords (programName.take 256) addr) := by
  have front : CString.ofString "addr2line -e " =
      CString.ofString "addr2line" ++ 32 ::
        (CString.ofString "-e" ++ [32]) := by decide
  have flag : CString.ofString " -f " =
      32 :: (CString.ofString "-f" ++ [32]) := by decide
  simp [addr2lineCmd, addr2lineWords, unwords, front, flag]

/-! ## Bare words -/

/-- Without an asterisk, a question mark and an opening bracket there is no
pattern. -/
theorem isPattern_unquoted {bytes : List UInt8}
    (ordinary : ∀ byte ∈ bytes, byte ≠ 42 ∧ byte ≠ 63 ∧ byte ≠ 91) :
    (Word.unquoted bytes).isPattern = false := by
  induction bytes with
  | nil => rfl
  | cons byte bytes inductionHypothesis =>
      obtain ⟨⟨noAsterisk, noQuestion, noBracket⟩, rest⟩ :=
        List.forall_mem_cons.mp ordinary
      change (_ || (Word.unquoted bytes).isPattern) = false
      rw [inductionHypothesis rest]
      simp [noAsterisk, noQuestion, noBracket]

/-- A number has no special byte, no byte of a pattern, no number sign and no
tilde. -/
theorem IsHex.ordinary {number : List UInt8} (isHex : IsHex number)
    {byte : UInt8}
    (present : byte ∈ number) :
    isSpecial byte = false ∧ (byte ≠ 42 ∧ byte ≠ 63 ∧ byte ≠ 91) ∧ byte ≠ 35 ∧
      byte ≠ 126 := by
  have other : ∀ sign ∈ ([32, 9, 10, 124, 38, 59, 60, 62, 40, 41, 36, 96, 92,
    39, 34, 42, 63, 91,
      35, 126] : List UInt8), (!isHexDigit sign && sign != 120) = true :=
    List.all_eq_true.mp (by decide)
  have different : ∀ sign ∈
      ([32, 9, 10, 124, 38, 59, 60, 62, 40, 41, 36, 96, 92, 39, 34, 42, 63,
        91, 35, 126] : List UInt8), byte ≠ sign := by
    rintro sign listed rfl
    have outside := other byte listed
    rw [Bool.and_eq_true, Bool.not_eq_true', bne_iff_ne] at outside
    exact isHex.notMem outside.1 outside.2 present
  simp only [List.forall_mem_cons] at different
  simp [isSpecial, isBlank, isOperator, isExpansion, isQuoting, different]

/-- A number is a bare word. -/
theorem IsHex.bare {number : List UInt8}
    (isHex : IsHex number) : Bare number where
  nonempty := by
    obtain ⟨digits, some, rfl, _⟩ := isHex
    simp [some]
  noComment := fun sign => (isHex.ordinary (List.mem_of_head? sign)).2.2.1 rfl
  ordinary := fun _ present => (isHex.ordinary present).1
  noPattern := isPattern_unquoted fun _ present => (isHex.ordinary present).2.1
  noTilde := by
    cases number with
    | nil => rfl
    | cons byte number =>
        have noTilde := (isHex.ordinary List.mem_cons_self).2.2.2
        simpa [Word.unquoted, Word.isTilde] using noTilde

/-- A word is ordinary if all its bytes are. -/
theorem ordinary_of_all {word : List UInt8}
    (all : word.all (fun byte => !isSpecial byte) = true) :
    ∀ byte ∈ word, isSpecial byte = false := by
  intro byte present
  have ordinary := List.all_eq_true.mp all byte present
  rwa [Bool.not_eq_true'] at ordinary

theorem bare_addr2line : Bare (CString.ofString "addr2line") :=
  ⟨by decide, by decide, ordinary_of_all (by decide), by decide, by decide⟩

theorem bare_fileFlag : Bare (CString.ofString "-e") :=
  ⟨by decide, by decide, ordinary_of_all (by decide), by decide, by decide⟩

theorem bare_functionFlag : Bare (CString.ofString "-f") :=
  ⟨by decide, by decide, ordinary_of_all (by decide), by decide, by decide⟩

/-- All words of the command are bare if the name is. -/
theorem bare_addr2lineWords {programName addr : List UInt8} (isHex : IsHex addr)
    (bare : Bare programName) :
    ∀ word ∈ addr2lineWords programName addr, Bare word := by
  simp [addr2lineWords, bare_addr2line, bare_fileFlag, bare, bare_functionFlag,
    isHex.bare]

/-- The length of the command. -/
theorem length_unwords_addr2lineWords (programName addr : List UInt8) :
    (unwords (addr2lineWords programName addr)).length =
      programName.length + addr.length + 17 := by
  have front : (CString.ofString "addr2line").length = 9 := by decide
  have file : (CString.ofString "-e").length = 2 := by decide
  have function : (CString.ofString "-f").length = 2 := by decide
  simp [addr2lineWords, unwords, front, file, function]
  omega

/-- The shell reads the command as the five words it is meant to have exactly
when the program name is a bare word of at most 256 bytes and the command fits
its buffer. -/
theorem words_addr2line_iff {addr : List UInt8} (isHex : IsHex addr)
    (programName : CString.Text) :
    (∃ command, addr2line programName.bytes addr = some command ∧
        words command = some (addr2lineWords programName.bytes addr)) ↔
      Bare programName.bytes ∧ programName.bytes.length ≤ 256 ∧
        programName.bytes.length + addr.length ≤ 494 := by
  have length := length_unwords_addr2lineWords
  constructor
  · rintro ⟨command, formats, read⟩
    obtain ⟨fits, equal⟩ := Option.ite_none_right_eq_some.mp formats
    obtain rfl := Option.some.inj equal
    rw [addr2lineCmd_eq] at read fits
    have long := length_unwords_le read
    have cut := List.length_take_le 256 programName.bytes
    have short : programName.bytes.length ≤ 256 := by
      rw [length, length] at long
      omega
    rw [List.take_of_length_le short] at read fits
    refine ⟨words_unwords_iff.mp read _ (by simp [addr2lineWords]), short, ?_⟩
    rw [length] at fits
    omega
  · rintro ⟨bare, short, fits⟩
    have whole : programName.bytes.take 256 = programName.bytes :=
      List.take_of_length_le short
    have formatted : addr2lineCmd programName.bytes addr =
        unwords (addr2lineWords programName.bytes addr) := by
      rw [addr2lineCmd_eq, whole]
    refine ⟨_, if_pos ?_, ?_⟩
    · rw [formatted, length]
      omega
    · rw [formatted]
      exact words_unwords (bare_addr2lineWords isHex bare)

/-- A program in the current directory. -/
theorem words_addr2line_iff_dot : ∃ programName : CString.Text,
    programName.bytes = CString.ofString "./a.out" ∧
      ((∃ command, addr2line programName.bytes (CString.ofString "0x1f") =
        some command ∧
          words command =
            some (addr2lineWords programName.bytes (CString.ofString "0x1f"))) ↔
        Bare programName.bytes ∧ programName.bytes.length ≤ 256 ∧
          programName.bytes.length + (CString.ofString "0x1f").length ≤ 494) :=
  ⟨⟨CString.ofString "./a.out", by decide⟩, rfl,
    words_addr2line_iff ⟨CString.ofString "1f", by decide, by decide,
      List.all_eq_true.mp (by decide)⟩ _⟩

/-- A blank in the program name makes another word of what is behind it. -/
theorem words_addr2line_blank :
    (addr2line (CString.ofString "./a b") (CString.ofString "0x1f")).map words =
        some (some [CString.ofString "addr2line", CString.ofString "-e",
          CString.ofString "./a", CString.ofString "b", CString.ofString "-f",
          CString.ofString "0x1f"]) ∧
      ¬∃ command, addr2line (CString.ofString "./a b")
        (CString.ofString "0x1f") = some command ∧
        words command =
          some (addr2lineWords (CString.ofString "./a b")
            (CString.ofString "0x1f")) := by
  have six : (addr2line (CString.ofString "./a b")
      (CString.ofString "0x1f")).map words =
      some (some [CString.ofString "addr2line", CString.ofString "-e",
        CString.ofString "./a", CString.ofString "b", CString.ofString "-f",
        CString.ofString "0x1f"]) := by decide
  refine ⟨six, ?_⟩
  rintro ⟨command, formats, read⟩
  rw [formats, Option.map_some, read] at six
  exact absurd six (by decide)

end StackTrace
end LinuxCPractice
