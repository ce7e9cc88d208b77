import LinuxCPractice.CString
import Mathlib.Data.List.TakeWhile

/-!
# Numbers at the start of a string

What `strtol` and `strtoul` read in base ten: white space, at most one sign and
digits. They report where the digits end, or the start of the string when there
are none, and a number that does not fit its type becomes the nearest one that
does.
-/

namespace LinuxCPractice
namespace Numeral

/-- White space in the C locale. -/
def isSpace (byte : UInt8) : Bool := byte = 32 || (9 ≤ byte && byte ≤ 13)

/-- A plus or a minus. -/
def isSign (byte : UInt8) : Bool := byte = 43 || byte = 45

/-- A decimal digit. -/
def isDigit (byte : UInt8) : Bool := 48 ≤ byte && byte ≤ 57

/-- A string cut behind its white space, its sign and its digits. -/
structure Parts where
  spaces : List UInt8
  sign : List UInt8
  digits : List UInt8
  rest : List UInt8
  deriving DecidableEq

/-- The string that has these parts. -/
def Parts.text (parts : Parts) : List UInt8 :=
  parts.spaces ++ parts.sign ++ parts.digits ++ parts.rest

/-- Each part holds only bytes of its kind, and the digits are all of them. -/
structure Parts.Proper (parts : Parts) : Prop where
  spaces : ∀ byte ∈ parts.spaces, isSpace byte = true
  sign : parts.sign = [] ∨ ∃ byte, isSign byte = true ∧ parts.sign = [byte]
  digits : ∀ byte ∈ parts.digits, isDigit byte = true
  rest : ∀ byte ∈ parts.rest.head?, isDigit byte = false

/-- The sign at the start of a string. -/
def signOf (text : List UInt8) : List UInt8 := (text.take 1).filter isSign

/-- Cut a string from left to right. -/
def scan (text : List UInt8) : Parts :=
  let behindSpaces := text.dropWhile isSpace
  let behindSign := behindSpaces.drop (signOf behindSpaces).length
  { spaces := text.takeWhile isSpace
    sign := signOf behindSpaces
    digits := behindSign.takeWhile isDigit
    rest := behindSign.dropWhile isDigit }

/-- The number that the digits stand for. -/
def magnitude (digits : List UInt8) : Nat :=
  digits.foldl (fun value digit => 10 * value + (digit.toNat - 48)) 0

/-- The offset at which `*endptr` points into the string. -/
def endOffset (text : List UInt8) : Nat :=
  let parts := scan text
  if parts.digits = [] then 0
  else (parts.spaces ++ parts.sign ++ parts.digits).length

/-- The result of `strtol`. -/
def strtol (text : List UInt8) : Int :=
  let parts := scan text
  if parts.sign = [45] then max (-9223372036854775808) (-magnitude parts.digits)
  else min 9223372036854775807 (magnitude parts.digits)

/-- The result of `strtoul`. A minus negates the number in its type. -/
def strtoul (text : List UInt8) : Nat :=
  let parts := scan text
  if 18446744073709551615 < magnitude parts.digits then 18446744073709551615
  else if parts.sign = [45] then
    (18446744073709551616 - magnitude parts.digits) % 18446744073709551616
  else magnitude parts.digits

/-! ## The parts of a string -/

/-- The sign stands in front of what is left. -/
theorem signOf_append_drop (text : List UInt8) :
    signOf text ++ text.drop (signOf text).length = text := by
  cases text with
  | nil => rfl
  | cons byte rest =>
      by_cases isSigned : isSign byte = true <;> simp [signOf, isSigned]

/-- The parts make up the text. -/
theorem text_scan (text : List UInt8) : (scan text).text = text := by
  simp only [Parts.text, scan]
  rw [List.append_assoc, List.takeWhile_append_dropWhile, List.append_assoc,
    signOf_append_drop, List.takeWhile_append_dropWhile]

/-- What is left begins with a byte that stops. -/
theorem head?_dropWhile {stop : UInt8 → Bool} {text : List UInt8} :
    ∀ byte ∈ (text.dropWhile stop).head?, stop byte = false := by
  intro byte isHead
  have first := List.head?_dropWhile_not stop text
  rw [Option.mem_def.mp isHead] at first
  exact first

/-- The parts of a text are what they should be. -/
theorem proper_scan (text : List UInt8) : (scan text).Proper := by
  refine ⟨fun byte => List.mem_takeWhile_imp, ?_,
    fun byte => List.mem_takeWhile_imp, head?_dropWhile⟩
  change signOf _ = [] ∨ ∃ byte, isSign byte = true ∧ signOf _ = [byte]
  cases text.dropWhile isSpace with
  | nil => exact .inl rfl
  | cons byte rest =>
      by_cases isSigned : isSign byte = true
      · exact .inr ⟨byte, isSigned, by simp [signOf, isSigned]⟩
      · exact .inl (by simp [signOf, isSigned])

/-- A front of one kind is what `takeWhile` gives when the kind ends behind
it. -/
theorem span_append {kind : UInt8 → Bool} {front back : List UInt8}
    (whole : ∀ byte ∈ front, kind byte = true)
    (ends : ∀ byte ∈ back.head?, kind byte = false) :
    (front ++ back).takeWhile kind = front ∧
      (front ++ back).dropWhile kind = back := by
  rw [List.takeWhile_append_of_pos whole, List.dropWhile_append_of_pos whole]
  cases back with
  | nil => simp
  | cons byte rest => simp [ends byte rfl]

theorem isSpace_of_isSign {byte : UInt8} (isSigned : isSign byte = true) :
    isSpace byte = false := by
  simp only [isSign, Bool.or_eq_true, decide_eq_true_eq] at isSigned
  rcases isSigned with rfl | rfl <;> rfl

/-- The codes of the digits. -/
theorem isDigit_iff {byte : UInt8} :
    isDigit byte = true ↔ 48 ≤ byte.toNat ∧ byte.toNat ≤ 57 := by
  simp [isDigit, UInt8.le_iff_toNat_le]

theorem isSpace_of_isDigit {byte : UInt8} (digit : isDigit byte = true) :
    isSpace byte = false := by
  rw [isDigit_iff] at digit
  have other : byte ≠ 32 := by
    rintro rfl
    exact absurd digit.1 (by decide)
  have large : ¬byte ≤ 13 := by
    rw [UInt8.le_iff_toNat_le]
    change ¬byte.toNat ≤ 13
    omega
  simp [isSpace, other, large]

theorem isSign_of_isDigit {byte : UInt8} (digit : isDigit byte = true) :
    isSign byte = false := by
  by_contra isSigned
  rw [Bool.not_eq_false, isSign, Bool.or_eq_true, decide_eq_true_eq,
    decide_eq_true_eq]
    at isSigned
  rcases isSigned with rfl | rfl <;> cases digit

/-- There is only one way to cut a string that begins with a number. -/
theorem scan_text {parts : Parts} (proper : parts.Proper)
    (number : parts.digits ≠ []) :
    scan parts.text = parts := by
  obtain ⟨spaces, sign, digits, rest⟩ := parts
  obtain ⟨allSpaces, oneSign, allDigits, ends⟩ := proper
  dsimp only at *
  obtain ⟨first, others, rfl⟩ := List.exists_cons_of_ne_nil number
  have isFirst := allDigits first List.mem_cons_self
  have behindSpaces : ∀ byte ∈ (sign ++ (first :: others ++ rest)).head?,
      isSpace byte = false := by
    rcases oneSign with rfl | ⟨byte, isSigned, rfl⟩
    · rintro _ ⟨⟩
      exact isSpace_of_isDigit isFirst
    · rintro _ ⟨⟩
      exact isSpace_of_isSign isSigned
  have cut : signOf (sign ++ (first :: others ++ rest)) = sign := by
    rcases oneSign with rfl | ⟨byte, isSigned, rfl⟩
    · simp [signOf, isSign_of_isDigit isFirst]
    · simp [signOf, isSigned]
  have atSpaces := span_append allSpaces behindSpaces
  have atDigits := span_append allDigits ends
  rw [Parts.text, List.append_assoc, List.append_assoc]
  simp only [scan, atSpaces, cut, List.drop_left, atDigits]

/-! ## The end of a string -/

section Stop

variable {kind : UInt8 → Bool} {stop : UInt8} {tail : List UInt8}

/-- A byte of another kind ends the bytes of one kind. -/
theorem takeWhile_append_stop (ends : kind stop = false) (text : List UInt8) :
    (text ++ stop :: tail).takeWhile kind = text.takeWhile kind := by
  induction text with
  | nil => simp [ends]
  | cons byte text inductionHypothesis =>
      by_cases isKind : kind byte = true
      · simp [isKind, inductionHypothesis]
      · simp [isKind]

/-- Behind the bytes of one kind everything is left. -/
theorem dropWhile_append_stop (ends : kind stop = false) (text : List UInt8) :
    (text ++ stop :: tail).dropWhile kind =
      text.dropWhile kind ++ stop :: tail := by
  induction text with
  | nil => simp [ends]
  | cons byte text inductionHypothesis =>
      by_cases isKind : kind byte = true
      · simp [isKind, inductionHypothesis]
      · simp [isKind]

/-- Nothing behind the NUL of a string is looked at. -/
theorem scan_append_nul (text tail : List UInt8) :
    scan (text ++ 0 :: tail) =
      { scan text with rest := (scan text).rest ++ 0 :: tail } := by
  have sign : ∀ front : List UInt8,
      signOf (front ++ 0 :: tail) = signOf front := by
    intro front
    cases front <;> rfl
  have short : ∀ front : List UInt8, (signOf front).length ≤ front.length := by
    intro front
    have whole := congrArg List.length (signOf_append_drop front)
    rw [List.length_append] at whole
    omega
  simp only [scan, takeWhile_append_stop (show isSpace 0 = false from rfl),
    dropWhile_append_stop (show isSpace 0 = false from rfl), sign,
    List.drop_append_of_le_length (short _),
    takeWhile_append_stop (show isDigit 0 = false from rfl),
    dropWhile_append_stop (show isDigit 0 = false from rfl)]

end Stop

end Numeral
end LinuxCPractice
