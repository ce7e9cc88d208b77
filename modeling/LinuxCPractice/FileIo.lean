import LinuxCPractice.Numeral

/-!
# What follows a number

The end of `main` in `file_io.c`, which reads a number from the start of a file
and tells from `endptr` whether there is one and whether it is all there is. Its
second test looks at what `endptr` points at only if `endptr` is null, so that
nothing is ever found behind a number.
-/

namespace LinuxCPractice
namespace FileIo

/-- The three messages. -/
inductive Message
  | noValidDigit
  | more
  | noMore
  deriving DecidableEq

/-- `!endptr && endptr[0] != '\0'`, with `endptr` as an offset into `sp` or
null. There is no result when the null pointer is read through. -/
def moreTest (sp : List UInt8) (endptr : Option Nat) : Option Bool :=
  if endptr = none then (endptr.bind fun offset => sp[offset]?).map (· ≠ 0)
  else some false

/-- The value and the message that are printed. `strtol` always sets
`endptr`. -/
def classify (sp : List UInt8) : Option (Int × Message) :=
  let value := Numeral.strtol sp
  let endptr := some (Numeral.endOffset sp)
  if endptr = some 0 then some (value, .noValidDigit)
  else
    (moreTest sp endptr).map fun more =>
      if more then (value, .more) else (value, .noMore)

/-! ## The three classes -/

/-- The string begins with a number, behind white space and a sign, and `rest`
follows it. -/
def NumberThen (text rest : List UInt8) : Prop :=
  ∃ parts : Numeral.Parts, parts.Proper ∧ parts.digits ≠ [] ∧
    parts.text = text ∧
    parts.rest = rest

/-- The message for the memory `sp` is the one that its string deserves. -/
def ClassifiesWell (sp text : List UInt8) : Prop :=
  ∃ value message, classify sp = some (value, message) ∧
    (message = .noValidDigit ↔ ∀ rest, ¬NumberThen text rest) ∧
    (message = .more ↔ ∃ rest, rest ≠ [] ∧ NumberThen text rest) ∧
    (message = .noMore ↔ NumberThen text [])

/-- A number stands in front of the rest exactly if there are digits to scan. -/
theorem numberThen_iff {text rest : List UInt8} :
    NumberThen text rest ↔
      (Numeral.scan text).digits ≠ [] ∧ (Numeral.scan text).rest = rest := by
  constructor
  · rintro ⟨parts, proper, number, rfl, rfl⟩
    rw [Numeral.scan_text proper number]
    exact ⟨number, rfl⟩
  · rintro ⟨number, same⟩
    exact ⟨Numeral.scan text, Numeral.proper_scan text, number,
      Numeral.text_scan text, same⟩

/-- What is printed depends on the digits alone. -/
theorem classify_append_nul (text tail : List UInt8) :
    classify (text ++ 0 :: tail) =
      some (Numeral.strtol (text ++ 0 :: tail),
        if (Numeral.scan text).digits = [] then .noValidDigit
        else .noMore) := by
  have offset : Numeral.endOffset (text ++ 0 :: tail) = 0 ↔
      (Numeral.scan text).digits = [] := by
    simp only [Numeral.endOffset, Numeral.scan_append_nul]
    split
    · rename_i none
      simp [none]
    · rename_i number
      simp [number]
  by_cases number : (Numeral.scan text).digits = []
  · simp [classify, offset, number]
  · simp [classify, offset, number, moreTest]

/-- The message is right exactly when nothing follows a number. -/
theorem classifiesWell_iff (text tail : List UInt8) :
    ClassifiesWell (text ++ 0 :: tail) text ↔ ¬∃ rest, rest ≠ [] ∧
      NumberThen text rest := by
  simp only [ClassifiesWell, classify_append_nul, numberThen_iff]
  by_cases number : (Numeral.scan text).digits = []
  · simp [number]
  · by_cases alone : (Numeral.scan text).rest = []
    · simp [number, alone]
    · simp [number, alone]

/-- What the program writes to its file and reads back. -/
def sample : List UInt8 := CString.ofString "3 selam1\n5 selam2\n"

/-- The lines of the sample follow the number 3, but the program denies it. -/
theorem not_classifiesWell_sample :
    ¬∀ (text tail : List UInt8), 0 ∉ text →
      ClassifiesWell (text ++ 0 :: tail) text := by
  intro claimed
  obtain ⟨value, message, printed, _, more, _⟩ := claimed sample [] (by decide)
  have isMore :=
    more.mpr ⟨sample.drop 1, by decide, numberThen_iff.mpr (by decide)⟩
  have denied : (classify (sample ++ 0 :: [])).map Prod.snd =
      some .noMore := by decide
  rw [printed, isMore] at denied
  cases denied

end FileIo
end LinuxCPractice
