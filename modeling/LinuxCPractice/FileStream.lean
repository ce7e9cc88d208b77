import LinuxCPractice.Lines
import LinuxCPractice.Numeral

/-!
# Three ways to read a file

`main` of `file_stream.c` behind its writes, for any content of the file: it
copies the file byte by byte, then line by line with a number and a word scanned
from the third line, and then with a single `fread`. The buffers for the scanned
word and for the last reading have fixed sizes which no call is told or which
leave no room for a NUL.
-/

namespace LinuxCPractice
namespace FileStream

open Lines

/-! ## The program -/

/-- `sizeof(s)` and `sizeof(sp)` -/
def bufferSize : Nat := 100

/-- `sizeof(data)` -/
def dataSize : Nat := 20

/-- `ERANGE` -/
def erange : Nat := 34

/-- `INT_MAX`, from which `i` cannot be counted up. -/
def intMax : Nat := 2147483647

/-- An array that has been cleared. -/
def cleared : List UInt8 := List.replicate bufferSize 0

/-- The line between two readings. -/
def separator : List UInt8 := CString.ofString "------- seperator -------\n"

/-- A byte of the stream as an `int`, or `EOF`. -/
def fgetc : List UInt8 → Int × List UInt8
  | [] => (-1, [])
  | byte :: rest => (byte.toNat, rest)

/-- The conversion to `char`. -/
def charOf (c : Int) : UInt8 := UInt8.ofNat (c % 256).toNat

/-- The loop of `fgetc` and `printf("%c")` with at most `fuel` calls. -/
def copyBytes : Nat → List UInt8 → Option (List UInt8)
  | 0, _ => none
  | fuel + 1, content =>
      let (c, rest) := fgetc content
      if c = -1 then some [] else (copyBytes fuel rest).map (charOf c :: ·)

/-- The variables behind `sscanf`. -/
structure Scanned where
  lon : Int
  data : List UInt8
  errno : Nat
  deriving DecidableEq

/-- The word that `%s` takes, behind white space. -/
def word (rest : List UInt8) : List UInt8 :=
  (rest.dropWhile Numeral.isSpace).takeWhile fun byte => !Numeral.isSpace byte

/-- `sscanf` with `"%ld %s\n"`. A word that `data` has no room for is written
beyond it. -/
def sscanf (text : List UInt8) : Option Scanned :=
  let parts := Numeral.scan text
  if parts.digits = [] then some ⟨0, [], 0⟩
  else if (word parts.rest).length < dataSize then
    let exact : Int :=
      if parts.sign = [45] then -Numeral.magnitude parts.digits
      else Numeral.magnitude parts.digits
    some ⟨Numeral.strtol text, word parts.rest, if Numeral.strtol text =
      exact then 0 else erange⟩
  else none

/-- The two lines about the scanned values. -/
def Scanned.text (scanned : Scanned) : List UInt8 :=
  CString.ofString s!"errno: {scanned.errno}\n" ++
    CString.ofString s!"int: {scanned.lon}, " ++
    scanned.data ++ [10]

/-- One round of the loop of `fgets` with `i` still to be counted up: what it
prints of the string in `s`. -/
def round (i : Nat) (text : List UInt8) : Option (List UInt8) :=
  if i < intMax then
    if i + 1 = 3 then
      (sscanf text).map fun scanned =>
        CString.ofString "asd: " ++ text ++ scanned.text
    else some (CString.ofString "asd: " ++ text)
  else none

/-- The loop of `fgets` with at most `fuel` calls. -/
def copyLines : Nat → Nat → List UInt8 → List UInt8 → Option (List UInt8)
  | 0, _, _, _ => none
  | fuel + 1, i, s, content =>
      match Buffer.fgets bufferSize content with
      | none => some []
      | some line =>
          (round i (CString.text (Buffer.overwrite s (line ++ [0])))).bind
            fun printed =>
            (copyLines fuel (i + 1) cleared (content.drop line.length)).map
              (printed ++ ·)

/-- `fread` into the cleared `sp` and `printf("%s", sp)`, which leaves `sp` if
there is no NUL in it. -/
def copyBuffer (content : List UInt8) : Option (List UInt8) :=
  let sp := Buffer.overwrite cleared (content.take bufferSize)
  if 0 ∈ sp then some (CString.text sp) else none

/-- What `main` prints, if all that it does is defined. -/
def main (fuel : Nat) (content : List UInt8) : Option (List UInt8) :=
  (copyBytes fuel content).bind fun bytes =>
    (copyLines fuel 0 cleared content).bind fun lines =>
      (copyBuffer content).map fun buffer =>
        bytes ++ separator ++ lines ++ separator ++ buffer

/-- What `main` has written before. -/
def written : List UInt8 := CString.ofString "abc\nhello world\n3 ppp\n"

/-! ## The first reading -/

/-- A byte read as a number is the same byte. -/
theorem charOf_toNat (byte : UInt8) : charOf byte.toNat = byte := by
  have small := byte.toNat_lt
  rw [charOf, Int.emod_eq_of_lt (by omega) (by omega), Int.toNat_natCast,
    UInt8.ofNat_toNat]

/-- No byte is taken for `EOF`. -/
theorem copyBytes_eq {content : List UInt8} {fuel : Nat}
    (enough : content.length < fuel) :
    copyBytes fuel content = some content := by
  induction content generalizing fuel with
  | nil =>
      obtain ⟨fuel, rfl⟩ := Nat.exists_eq_add_one.mpr enough
      rfl
  | cons byte rest inductionHypothesis =>
      obtain ⟨fuel, rfl⟩ := Nat.exists_eq_add_one.mpr (Nat.zero_lt_of_lt enough)
      have notEof : ¬(byte.toNat : Int) = -1 := by omega
      have later := inductionHypothesis (Nat.lt_of_succ_lt_succ enough)
      simp only [copyBytes, fgetc, notEof, if_false, later, Option.map_some,
        charOf_toNat]

/-! ## The second reading -/

/-- The number on the line is followed by a word that has room in `data`, or
there is no number. -/
def Fits (text : List UInt8) : Prop :=
  (Numeral.scan text).digits = [] ∨
    (word (Numeral.scan text).rest).length < dataSize

instance (text : List UInt8) : Decidable (Fits text) :=
  inferInstanceAs (Decidable (_ ∨ _))

/-- `sscanf` converts the text exactly if it fits. -/
theorem isSome_sscanf_iff {text : List UInt8} :
    (sscanf text).isSome ↔ Fits text := by
  simp only [sscanf, Fits]
  split
  · simp_all
  · split <;> simp_all

/-- What is printed for a piece of the file, with its place among the pieces. -/
def shown (piece : List UInt8 × Nat) : List UInt8 :=
  let text := CString.text piece.1
  CString.ofString "asd: " ++ text ++
    if piece.2 = 2 then ((sscanf text).map Scanned.text).getD [] else []

/-- The piece is counted, and as the third one it does not overrun `data`. -/
def Sound (piece : List UInt8 × Nat) : Prop :=
  piece.2 < intMax ∧ (piece.2 = 2 → Fits (CString.text piece.1))

instance (piece : List UInt8 × Nat) : Decidable (Sound piece) :=
  inferInstanceAs (Decidable (_ ∧ (_ → _)))

/-- Every round of the loop is defined. -/
def AllSound (pieces : List (List UInt8 × Nat)) : Prop :=
  ∀ piece ∈ pieces, Sound piece

instance (pieces : List (List UInt8 × Nat)) : Decidable (AllSound pieces) :=
  inferInstanceAs (Decidable (∀ _ ∈ _, _))

/-- A round shows its piece if that is sound. -/
theorem round_eq (i : Nat) (piece : List UInt8) :
    round i (CString.text piece) =
      if Sound (piece, i) then some (shown (piece, i)) else none := by
  by_cases third : i = 2
  · subst third
    have counted : 2 < intMax := by decide
    simp only [round, shown, Sound, if_true, true_implies, counted, true_and]
    cases scanned : sscanf (CString.text piece) with
    | none =>
        have overruns : ¬Fits (CString.text piece) := by
          rw [← isSome_sscanf_iff, scanned]
          exact Bool.false_ne_true
        simp [overruns]
    | some values =>
        have fits := isSome_sscanf_iff.mp (by rw [scanned]; rfl)
        simp [fits]
  · have other : ¬i + 1 = 3 := by omega
    simp [round, shown, Sound, third]

/-- Up to its first NUL the buffer holds the line. -/
theorem text_overwrite (s line : List UInt8) :
    CString.text (Buffer.overwrite s (line ++ [0])) = CString.text line := by
  have nul : (0 : UInt8) ∈ line ++ [0] :=
    List.mem_append_right line (List.mem_singleton.mpr rfl)
  rw [Buffer.overwrite, CString.text_append_of_mem nul]
  by_cases clean : 0 ∈ line
  · exact CString.text_append_of_mem clean [0]
  · rw [CString.text_append_of_notMem clean,
      CString.text_eq_self_of_notMem clean]
    simp [CString.text]

/-- The loop goes over the pieces of the file with their places. -/
theorem copyLines_eq {content : List UInt8} {pieces : List (List UInt8)}
    (read : Pieces bufferSize content pieces) {fuel : Nat}
    (enough : pieces.length < fuel)
    (i : Nat) (s : List UInt8) :
    copyLines fuel i s content =
      if AllSound (pieces.zipIdx i) then some ((pieces.zipIdx i).flatMap shown)
      else none := by
  induction read generalizing fuel i s with
  | done =>
      obtain ⟨fuel, rfl⟩ := Nat.exists_eq_add_one.mpr enough
      simp [copyLines, Buffer.fgets, AllSound]
  | @piece content line pieces reads _ inductionHypothesis =>
      obtain ⟨fuel, rfl⟩ := Nat.exists_eq_add_one.mpr (Nat.zero_lt_of_lt enough)
      have later :=
        inductionHypothesis (Nat.lt_of_succ_lt_succ enough) (i + 1) cleared
      have both : AllSound ((line, i) :: pieces.zipIdx (i + 1)) ↔
          Sound (line, i) ∧ AllSound (pieces.zipIdx (i + 1)) :=
        List.forall_mem_cons
      rw [List.zipIdx_cons, List.flatMap_cons, copyLines, reads]
      simp only [text_overwrite, round_eq, later]
      by_cases sound : Sound (line, i)
      · rw [if_pos sound, Option.bind_some]
        by_cases rest : AllSound (pieces.zipIdx (i + 1))
        · rw [if_pos rest, if_pos (both.mpr ⟨sound, rest⟩), Option.map_some]
        · rw [if_neg rest, if_neg (mt both.mp fun all => rest all.2),
            Option.map_none]
      · rw [if_neg sound, if_neg (mt both.mp fun all => sound all.1),
          Option.bind_none]

/-! ## The third reading -/

/-- Only a NUL of the file ends the string when the file fills the buffer. -/
theorem copyBuffer_eq (content : List UInt8) :
    copyBuffer content =
      if content.length < bufferSize ∨ 0 ∈ content.take bufferSize then
        some (CString.text content)
      else none := by
  have front :
      CString.text (content.take bufferSize ++ content.drop bufferSize) =
      CString.text content := by rw [List.take_append_drop]
  have behind : cleared.drop (content.take bufferSize).length =
      List.replicate (bufferSize - content.length) 0 := by
    rw [cleared, List.drop_replicate, List.length_take]
    congr 1
    omega
  rw [copyBuffer, Buffer.overwrite, behind]
  by_cases nul : 0 ∈ content.take bufferSize
  · rw [CString.text_append_of_mem nul] at front
    rw [if_pos (List.mem_append_left _ nul), if_pos (.inr nul),
      CString.text_append_of_mem nul, front]
  · by_cases short : content.length < bufferSize
    · have whole : content.take bufferSize = content :=
        List.take_of_length_le (by omega)
      obtain ⟨count, left⟩ :=
        Nat.exists_eq_add_one.mpr (Nat.sub_pos_of_lt short)
      rw [whole] at nul ⊢
      rw [left, List.replicate_succ, if_pos (by simp), if_pos (.inl short),
        CString.text_append_of_notMem nul, CString.text_eq_self_of_notMem nul]
      simp [CString.text]
    · have full : bufferSize - content.length = 0 := by omega
      rw [full, List.replicate_zero, List.append_nil, if_neg nul,
        if_neg (not_or.mpr ⟨short, nul⟩)]

/-! ## The program as a whole -/

/-- For any content of the file, `fgets` cuts it into pieces which make it up.
All that `main` does is defined exactly when `i` can count the pieces, the word
behind the number on the third one has room in `data`, and the file does not
fill `sp` without a NUL. Then the first reading shows the file as it is, the
second its pieces, and the third what is in front of the first NUL. -/
theorem main_readings {content : List UInt8} {fuel : Nat}
    (enough : content.length < fuel) :
    ∃ pieces, Pieces bufferSize content pieces ∧ pieces.flatten = content ∧
      main fuel content =
        if AllSound pieces.zipIdx ∧
            (content.length < bufferSize ∨ 0 ∈ content.take bufferSize) then
          some (content ++ separator ++ pieces.zipIdx.flatMap shown ++
            separator ++
            CString.text content)
        else none := by
  obtain ⟨pieces, read, few⟩ :=
    exists_pieces (show 2 ≤ bufferSize by decide) content
  refine ⟨pieces, read, read.flatten_eq, ?_⟩
  rw [main, copyBytes_eq enough, Option.bind_some,
    copyLines_eq read (Nat.lt_of_le_of_lt few enough), copyBuffer_eq]
  by_cases sound : AllSound pieces.zipIdx
  · by_cases ends : content.length < bufferSize ∨ 0 ∈ content.take bufferSize
    · rw [if_pos sound, if_pos ends, if_pos ⟨sound, ends⟩, Option.bind_some,
        Option.map_some]
    · rw [if_pos sound, if_neg ends, if_neg (fun all => ends all.2),
        Option.bind_some, Option.map_none]
  · rw [if_neg sound, Option.bind_none, if_neg (fun all => sound all.1)]

/-- The file that the program writes. -/
theorem main_readings_written :
    ∃ pieces, Pieces bufferSize written pieces ∧ pieces.flatten = written ∧
      main 30 written =
        some (written ++ separator ++ pieces.zipIdx.flatMap shown ++
          separator ++
          CString.text written) := by
  obtain ⟨pieces, read, whole, output⟩ :=
    main_readings (show written.length < 30 by decide)
  have defined : (main 30 written).isSome = true := by decide
  refine ⟨pieces, read, whole, ?_⟩
  rw [output] at defined ⊢
  split at defined
  case isTrue sound => rw [if_pos sound]
  case isFalse => cases defined

end FileStream
end LinuxCPractice
