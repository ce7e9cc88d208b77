import LinuxCPractice.StackTrace.Defs

/-!
# The text between the last plus sign and the last closing bracket

`getaddr` finds it where both are there, in this order, and the text is not
exactly as long as the buffer. The result of a `strrchr` that fails is not
looked at: without a plus sign the function gives up only because the closing
bracket is far away from `NULL`.
-/

namespace LinuxCPractice
namespace StackTrace

/-- The text strictly between the last plus sign and a later last closing
bracket. -/
def Between (bytes text : List UInt8) : Prop :=
  ∃ before after, bytes = before ++ 43 :: text ++ 41 :: after ∧
    43 ∉ text ∧ 43 ∉ after ∧ 41 ∉ after

/-- Zero is returned and nothing stored, or one is returned and the text between
stored with a NUL, all of it inside the buffer. -/
def Extracts (line : Line) (size : Int32) : Outcome → Prop
  | .returned value stored => value = 0 ∧ stored = [] ∨
      value = 1 ∧ stored.length ≤ size.toInt ∧
        ∃ text, Between line.bytes text ∧ stored = text ++ [0]
  | .undefined => False

/-- The last closing bracket comes behind the last plus sign, with a text
between them that is not just as long as the buffer, or there is a closing
bracket but no plus sign, and the bracket is further from the start of memory
than the buffer is long. -/
def Delimited (line : Line) (size : Int32) : Prop :=
  (∃ text, Between line.bytes text ∧ text.length ≠ size.toInt) ∨
    43 ∉ line.bytes ∧ ∃ before after, line.bytes = before ++ 41 :: after ∧
    41 ∉ after ∧
      size.toInt + 1 < line.address + before.length

/-- The last signs of a delimited text. -/
theorem Between.strrchr {bytes text : List UInt8}
    (between : Between bytes text) :
    ∃ position, CString.strrchr bytes 43 = some position ∧
      CString.strrchr bytes 41 = some (position + 1 + text.length) ∧
      ∀ rest, ((bytes ++ rest).drop (position + 1)).take text.length =
        text := by
  obtain ⟨before, after, rfl, absent, absentAfter, last⟩ := between
  refine ⟨before.length, ?_, ?_, ?_⟩
  · rw [List.append_assoc, List.cons_append]
    exact CString.strrchr_append (by decide) (by simp [absent, absentAfter])
  · rw [CString.strrchr_append (by decide) last]
    simp
    omega
  · intro rest
    simp

/-- Both bytes are there, in this order. -/
theorem between_of_strrchr {bytes : List UInt8} {plus bracket : Nat}
    (foundPlus : CString.strrchr bytes 43 = some plus)
    (foundBracket : CString.strrchr bytes 41 = some bracket)
    (inOrder : plus < bracket) :
    ∃ text, Between bytes text ∧ bracket = plus + 1 + text.length := by
  obtain ⟨before, rest, split, rfl, absent⟩ :=
    (CString.strrchr_eq_some_iff (by decide)).mp foundPlus
  obtain ⟨front, after, splitBracket, rfl, last⟩ :=
    (CString.strrchr_eq_some_iff (by decide)).mp foundBracket
  rcases List.append_eq_append_iff.mp (split.symm.trans splitBracket) with
    ⟨middle, rfl, middleSplit⟩ | ⟨middle, rfl, middleSplit⟩
  · cases middle with
    | nil => simp at inOrder
    | cons byte text =>
        obtain ⟨rfl, rfl⟩ := List.cons.inj middleSplit
        refine ⟨text, ⟨before, after, by simp [split], ?_, ?_, last⟩, ?_⟩
        · exact fun present => absent (by simp [present])
        · exact fun present => absent (by simp [present])
        · rw [List.length_append, List.length_cons]
          omega
  · rw [List.length_append] at inOrder
    omega

section

variable {line : Line} {size : Int32} {text : List UInt8}

/-! ## The three ways `getaddr` goes -/

/-- A delimited address is copied if it fits. -/
theorem getaddr_of_between (between : Between line.bytes text) :
    getaddr (some line) size =
      if size.toInt < text.length then .returned 0 []
      else .returned 1 (text ++ [0]) := by
  obtain ⟨position, plus, bracket, copied⟩ := between.strrchr
  have inside : position + 1 + text.length ≤ line.bytes.length := by
    obtain ⟨before, after, split, length, _⟩ :=
      (CString.strrchr_eq_some_iff (by decide)).mp bracket
    simp [split, length]
  have length : ((line.address + (position + 1 + text.length) : Nat) : Int) -
      (line.address + position + 1 : Nat) = text.length := by
    omega
  have read : line.read (line.address + position + 1) text.length =
      some text := by
    have offset : line.address + position + 1 - line.address =
        position + 1 := by omega
    rw [Line.read, if_pos (by omega), offset, Int.toNat_natCast, copied]
  simp only [getaddr, Line.strrchr, plus, bracket, length, read, gt_iff_lt]

/-- A closing bracket in front of the plus sign, or none, gives a negative
length. -/
theorem getaddr_of_disordered (positive : 0 < size.toInt) {plus : Nat}
    (foundPlus : CString.strrchr line.bytes 43 = some plus)
    (disordered : ∀ bracket, CString.strrchr line.bytes 41 = some bracket →
      bracket ≤ plus) :
    getaddr (some line) size = .undefined := by
  have before : line.strrchr 41 < line.strrchr 43 + 1 := by
    simp only [Line.strrchr, foundPlus]
    split
    · next bracket found =>
        have inFront := disordered bracket found
        omega
    · omega
  have read : line.read (line.strrchr 43 + 1)
      ((line.strrchr 41 : Int) - (line.strrchr 43 + 1 : Nat)) = none := if_neg
      (by omega)
  simp only [getaddr]
  rw [if_neg (by omega), read]

/-- Without a plus sign, what is copied begins at the first address. -/
theorem getaddr_of_notMem (size : Int32) (noPlus : 43 ∉ line.bytes) :
    getaddr (some line) size = .returned 0 [] ∧
      size.toInt + 1 < line.strrchr 41 ∨
      line.strrchr 41 ≤ size.toInt + 1 ∧ ∀ stored,
        getaddr (some line) size ≠ .returned 0 stored := by
  have absent : line.strrchr 43 = 0 := by
    simp [Line.strrchr, (CString.strrchr_eq_none_iff (by decide)).mpr noPlus]
  simp only [getaddr, absent]
  by_cases far : size.toInt + 1 < line.strrchr 41
  · rw [if_pos (by omega)]
    exact .inl ⟨rfl, far⟩
  · rw [if_neg (by omega)]
    refine .inr ⟨by omega, fun stored => ?_⟩
    split <;> simp

/-- A delimited address is extracted unless it just fits without its NUL. -/
theorem extracts_of_between (between : Between line.bytes text) :
    Extracts line size (getaddr (some line) size) ↔
      text.length ≠ size.toInt := by
  rw [getaddr_of_between between]
  split
  · have different : (text.length : Int) ≠ size.toInt := by omega
    simp [Extracts, different]
  · simp only [Extracts, List.length_append, List.length_singleton]
    constructor
    · rintro (⟨zero, _⟩ | ⟨_, inside, _⟩)
      · cases zero
      · omega
    · intro different
      exact .inr ⟨trivial, by omega, text, between, rfl⟩

/-! ## Exactly when it extracts the text -/

/-- The delimited text is unique in its length. -/
theorem Between.length_eq {bytes other : List UInt8}
    (between : Between bytes text)
    (also : Between bytes other) : text.length = other.length := by
  obtain ⟨position, plus, bracket, _⟩ := between.strrchr
  obtain ⟨otherPosition, otherPlus, otherBracket, _⟩ := also.strrchr
  obtain rfl := Option.some.inj (plus.symm.trans otherPlus)
  have same := Option.some.inj (bracket.symm.trans otherBracket)
  omega

/-- A delimited text stands behind a plus sign. -/
theorem Between.mem {bytes : List UInt8} (between : Between bytes text) :
    43 ∈ bytes := by
  obtain ⟨before, after, rfl, _⟩ := between
  simp

/-- The last closing bracket is further away than the buffer is long. -/
theorem lt_strrchr_iff (positive : 0 < size.toInt) :
    size.toInt + 1 < line.strrchr 41 ↔ ∃ before after,
      line.bytes = before ++ 41 :: after ∧
      41 ∉ after ∧ size.toInt + 1 < line.address + before.length := by
  constructor
  · intro far
    cases found : CString.strrchr line.bytes 41 with
    | none =>
        simp only [Line.strrchr, found] at far
        omega
    | some position =>
        simp only [Line.strrchr, found] at far
        obtain ⟨before, after, split, rfl, last⟩ :=
          (CString.strrchr_eq_some_iff (by decide)).mp found
        exact ⟨before, after, split, last, by omega⟩
  · rintro ⟨before, after, split, last, far⟩
    simp only [Line.strrchr, split,
      CString.strrchr_append (by decide : (41 : UInt8) ≠ 0) last]
    omega

/-- `getaddr` returns zero and stores nothing, or returns one with the text
between the last plus sign and a later last closing bracket stored inside the
buffer, exactly when they delimit a text that is not just as long as the buffer,
or it gives up for a bracket without a plus sign. -/
theorem extracts_iff_delimited (line : Line) {size : Int32}
    (positive : 0 < size.toInt) :
    Extracts line size (getaddr (some line) size) ↔ Delimited line size := by
  cases plus : CString.strrchr line.bytes 43 with
  | none =>
      have noPlus := (CString.strrchr_eq_none_iff (by decide)).mp plus
      have noText : ¬∃ text, Between line.bytes text ∧
          text.length ≠ size.toInt :=
        fun ⟨_, between, _⟩ => noPlus between.mem
      rw [Delimited, or_iff_right noText, and_iff_right noPlus,
        ← lt_strrchr_iff positive]
      rcases getaddr_of_notMem size noPlus with ⟨gives, far⟩ | ⟨near, goesOn⟩
      · simp [gives, Extracts, far]
      · refine ⟨fun extracts => ?_, fun far => by omega⟩
        cases outcome : getaddr (some line) size with
        | undefined => simp [outcome, Extracts] at extracts
        | returned value stored =>
            rw [outcome] at extracts
            rcases extracts with ⟨rfl, _⟩ | ⟨_, _, text, between, _⟩
            · exact absurd outcome (goesOn stored)
            · exact absurd between.mem noPlus
  | some position =>
      have isPlus : 43 ∈ line.bytes := by
        by_contra noPlus
        simp [(CString.strrchr_eq_none_iff (by decide)).mpr noPlus] at plus
      rw [Delimited, or_iff_left fun far => far.1 isPlus]
      by_cases ordered : ∃ bracket,
        CString.strrchr line.bytes 41 = some bracket ∧
          position < bracket
      · obtain ⟨bracket, found, inOrder⟩ := ordered
        obtain ⟨text, between, _⟩ := between_of_strrchr plus found inOrder
        rw [extracts_of_between between]
        refine ⟨fun different => ⟨text, between, different⟩, ?_⟩
        rintro ⟨other, also, different⟩
        rwa [between.length_eq also]
      · have disordered : ∀ bracket,
            CString.strrchr line.bytes 41 = some bracket →
            bracket ≤ position :=
          fun bracket found => not_lt.mp fun inOrder => ordered ⟨bracket, found,
            inOrder⟩
        rw [getaddr_of_disordered positive plus disordered]
        refine ⟨False.elim, ?_⟩
        rintro ⟨text, between, _⟩
        obtain ⟨other, otherPlus, bracket, _⟩ := between.strrchr
        obtain rfl := Option.some.inj (plus.symm.trans otherPlus)
        have inFront := disordered _ bracket
        omega

end

/-- The frame of a function in a program. -/
theorem extracts_iff_delimited_frame : ∃ line : Line,
    line.bytes = CString.ofString "./a.out(main+0x1f) [0x4011b6]" ∧
      (Extracts line 32 (getaddr (some line) 32) ↔ Delimited line 32) ∧
      getaddr (some line) 32 = .returned 1 (CString.ofString "0x1f" ++ [0]) :=
  ⟨⟨⟨CString.ofString "./a.out(main+0x1f) [0x4011b6]", by decide⟩, 0x500000,
    by decide, by decide⟩,
    rfl, extracts_iff_delimited _ (by decide), by decide⟩

/-- The frame of a function in no known program gives a negative length. -/
theorem not_extracts_of_no_signs : ∃ line :
    Line, line.bytes = CString.ofString "[0x4011b6]" ∧
    getaddr (some line) 32 = .undefined ∧
    ¬Extracts line 32 (getaddr (some line) 32) := by
  refine ⟨⟨⟨CString.ofString "[0x4011b6]", by decide⟩, 0x500000, by decide,
    by decide⟩, rfl,
    by decide, ?_⟩
  rw [extracts_iff_delimited _ (by decide)]
  rintro (⟨text, between, _⟩ | ⟨_, before, after, split, _⟩)
  · exact absurd between.mem (by decide)
  · have bracket : 41 ∈ CString.ofString "[0x4011b6]" := by
      change CString.ofString "[0x4011b6]" = before ++ 41 :: after at split
      simp [split]
    exact absurd bracket (by decide)

end StackTrace
end LinuxCPractice
