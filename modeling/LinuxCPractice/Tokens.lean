import LinuxCPractice.Buffer
import Mathlib.Data.List.TakeWhile

/-!
# Tokens of a string

`strtok_r` cuts a string in place: it writes a NUL behind each token and keeps
where to go on in a save pointer. A loop over the tokens may have another one
in its body, which cuts the token at hand with a save pointer of its own. As
long as the body stays within the token, the loop comes to exactly the tokens
that the string had at first.

Memory is a list of bytes and a pointer is an offset into it.
-/

namespace LinuxCPractice
namespace Tokens

variable {delimiters : List UInt8}

/-- The maximal runs of bytes that are no delimiters, from left to right. -/
def runs (delimiters text : List UInt8) : List (List UInt8) :=
  (text.splitOnP (· ∈ delimiters)).filter (· ≠ [])

/-- Number of delimiters at the start of a string. -/
def strspn (string delimiters : List UInt8) : Nat :=
  (string.takeWhile (· ∈ delimiters)).length

/-- Number of bytes in front of the first delimiter or the NUL. -/
def strcspn (string delimiters : List UInt8) : Nat :=
  (string.takeWhile fun byte => byte ≠ 0 && byte ∉ delimiters).length

/-- The token that a call has found, or a null pointer, with the memory and the
save pointer it leaves. -/
structure Cut where
  token : Option Nat
  memory : List UInt8
  save : Nat
  deriving DecidableEq

/-- One call of `strtok_r`, which goes on from the save pointer when `str` is
null. There is no result when both are null or a byte outside of memory is
read. -/
def strtok_r (memory : List UInt8) (str : Option Nat) (delimiters : List UInt8)
    (save : Option Nat) : Option Cut := do
  let string ← str <|> save
  let start := string + strspn (memory.drop string) delimiters
  let first ← memory[start]?
  if first = 0 then some ⟨none, memory, start⟩
  else do
    let stop := start + strcspn (memory.drop start) delimiters
    let last ← memory[stop]?
    if last = 0 then some ⟨some start, memory, stop⟩
    else some ⟨some start, memory.set stop 0, stop + 1⟩

/-- The string at an offset, if it ends within memory. -/
def stringAt (memory : List UInt8) (offset : Nat) : Option (List UInt8) :=
  if 0 ∈ memory.drop offset then some (CString.text (memory.drop offset))
  else none

/-- The loop `for (str = s; ; str = NULL)` that gets a token and leaves when
there is none. Its body returns what it prints and the memory it leaves. -/
def forEachToken {Line : Type} (delimiters : List UInt8)
    (body : List UInt8 → Nat → Option (List Line × List UInt8)) :
    Nat → List UInt8 → Option Nat → Option Nat → Option (List Line × List UInt8)
  | 0, _, _, _ => none
  | fuel + 1, memory, str, save => do
      let cut ← strtok_r memory str delimiters save
      match cut.token with
      | none => some ([], cut.memory)
      | some token => do
          let (lines, left) ← body cut.memory token
          let (later, last) ← forEachToken delimiters body fuel left none
              (some cut.save)
          some (lines ++ later, last)

theorem stringAt_append {token : List UInt8} (clean : 0 ∉ token)
    (front tail : List UInt8) :
    stringAt (front ++ token ++ 0 :: tail) front.length = some token := by
  rw [stringAt, List.append_assoc, List.drop_left, if_pos (by simp),
    CString.text_append_of_notMem clean]
  simp [CString.text]

/-! ## The first token -/

/-- A run of bytes that are no delimiters. -/
structure IsToken (delimiters token : List UInt8) : Prop where
  nonempty : token ≠ []
  apart : ∀ byte ∈ token, byte ∉ delimiters

/-- Where the first token of a text lies. -/
inductive FirstToken (delimiters : List UInt8) : List UInt8 → Prop
  | none {skipped : List UInt8} (only : ∀ byte ∈ skipped, byte ∈ delimiters) :
      FirstToken delimiters skipped
  | last {skipped token : List UInt8}
      (only : ∀ byte ∈ skipped, byte ∈ delimiters)
      (isToken : IsToken delimiters token) :
        FirstToken delimiters (skipped ++ token)
  | before {skipped token rest : List UInt8} {delimiter : UInt8}
      (only : ∀ byte ∈ skipped, byte ∈ delimiters)
      (isToken : IsToken delimiters token)
      (behind : delimiter ∈ delimiters) :
      FirstToken delimiters (skipped ++ token ++ delimiter :: rest)

/-- A text up to the first byte that is not of a kind. -/
theorem exists_span (kind : UInt8 → Prop) [DecidablePred kind]
    (text : List UInt8) :
    ∃ front back, text = front ++ back ∧ (∀ byte ∈ front, kind byte) ∧
      ∀ byte ∈ back.head?, ¬kind byte := by
  refine ⟨text.takeWhile fun byte => kind byte, text.dropWhile fun byte =>
    kind byte,
    List.takeWhile_append_dropWhile.symm, ?_, ?_⟩
  · intro byte isFront
    simpa using List.mem_takeWhile_imp isFront
  · intro byte isHead
    have stops := List.head?_dropWhile_not (fun byte => decide (kind byte)) text
    rw [Option.mem_def.mp isHead] at stops
    exact of_decide_eq_false stops

/-- Every text has its first token or none. -/
theorem firstToken (delimiters text : List UInt8) :
    FirstToken delimiters text := by
  obtain ⟨skipped, behind, rfl, only, stops⟩ :=
    exists_span (· ∈ delimiters) text
  obtain ⟨token, rest, rfl, apart, ends⟩ := exists_span (· ∉ delimiters) behind
  cases token with
  | nil =>
      cases rest with
      | nil => simpa using FirstToken.none only
      | cons delimiter rest =>
          exact absurd (stops delimiter rfl) (ends delimiter rfl)
  | cons byte token =>
      have isToken : IsToken delimiters (byte :: token) :=
        ⟨List.cons_ne_nil _ _, apart⟩
      cases rest with
      | nil => simpa using FirstToken.last only isToken
      | cons delimiter rest =>
          rw [← List.append_assoc]
          exact .before only isToken (not_not.mp (ends delimiter rfl))

/-! ## The runs of a text -/

/-- Delimiters alone have no run. -/
theorem runs_eq_nil {text : List UInt8}
    (only : ∀ byte ∈ text, byte ∈ delimiters) :
    runs delimiters text = [] := by
  induction text with
  | nil => simp [runs]
  | cons byte text inductionHypothesis =>
      obtain ⟨isDelimiter, rest⟩ := List.forall_mem_cons.mp only
      have behind := inductionHypothesis rest
      simpa [runs, List.splitOnP_cons_eq_if_modifyHead, isDelimiter]
        using behind

/-- Delimiters in front add no run. -/
theorem runs_skip {skipped : List UInt8}
    (only : ∀ byte ∈ skipped, byte ∈ delimiters)
    (text : List UInt8) :
    runs delimiters (skipped ++ text) = runs delimiters text := by
  induction skipped with
  | nil => rfl
  | cons byte skipped inductionHypothesis =>
      obtain ⟨isDelimiter, rest⟩ := List.forall_mem_cons.mp only
      rw [← inductionHypothesis rest]
      simp [runs, List.splitOnP_cons_eq_if_modifyHead, isDelimiter]

namespace IsToken

variable {token : List UInt8}

/-- A token is one run. -/
theorem runs_eq (isToken : IsToken delimiters token) :
    runs delimiters token = [token] := by
  rw [runs, List.splitOnP_eq_singleton fun byte inside =>
    by simpa using isToken.apart byte inside]
  simp [isToken.nonempty]

theorem runs_append (isToken : IsToken delimiters token) {delimiter : UInt8}
    (behind : delimiter ∈ delimiters) (rest : List UInt8) :
    runs delimiters (token ++ delimiter :: rest) =
      token :: runs delimiters rest := by
  rw [runs, List.splitOnP_append_cons_of_forall_mem
    (fun byte inside => by simpa using isToken.apart byte inside) delimiter
    (by simpa using behind)]
  simp [isToken.nonempty, runs]

end IsToken

/-! ## One call -/

theorem strspn_append {skipped rest : List UInt8}
    (only : ∀ byte ∈ skipped, byte ∈ delimiters)
    (ends : ∀ byte ∈ rest.head?, byte ∉ delimiters) :
    strspn (skipped ++ rest) delimiters = skipped.length := by
  rw [strspn, List.takeWhile_append_of_pos (by simpa using only)]
  cases rest with
  | nil => simp
  | cons byte rest => simp [ends byte rfl]

theorem strcspn_append {token rest : List UInt8}
    (apart : ∀ byte ∈ token, byte ∉ delimiters)
    (clean : 0 ∉ token)
    (ends : ∀ byte ∈ rest.head?, byte = 0 ∨ byte ∈ delimiters) :
    strcspn (token ++ rest) delimiters = token.length := by
  have whole : ∀ byte ∈ token, byte ≠ 0 ∧ byte ∉ delimiters :=
    fun byte inside => ⟨ne_of_mem_of_not_mem inside clean, apart byte inside⟩
  rw [strcspn, List.takeWhile_append_of_pos (by simpa using whole)]
  cases rest with
  | nil => simp
  | cons byte rest => rcases ends byte rfl with zero | isDelimiter <;> simp [*]

section Call

variable {front skipped token tail : List UInt8} {str save : Option Nat}

/-- There are only delimiters left. -/
theorem strtok_r_none (visible : 0 ∉ delimiters)
    (only : ∀ byte ∈ skipped, byte ∈ delimiters)
    (located : (str <|> save) = some front.length) :
    strtok_r (front ++ skipped ++ 0 :: tail) str delimiters save =
      some ⟨none, front ++ skipped ++ 0 :: tail,
        (front ++ skipped).length⟩ := by
  have span : strspn (skipped ++ 0 :: tail) delimiters = skipped.length :=
    strspn_append only (by simpa using visible)
  simp [strtok_r, located, span]

/-- The byte behind the token is the end of the string or becomes a NUL. -/
theorem strtok_r_some (clean : 0 ∉ token)
    (only : ∀ byte ∈ skipped, byte ∈ delimiters)
    (isToken : IsToken delimiters token)
    {stop : UInt8} (ends : stop = 0 ∨ stop ∈ delimiters)
    (located : (str <|> save) = some front.length) :
    strtok_r (front ++ skipped ++ token ++ stop :: tail) str delimiters save =
      some ⟨some (front ++ skipped).length,
        front ++ skipped ++ token ++ 0 :: tail,
        (front ++ skipped ++ token).length + if stop = 0 then 0 else 1⟩ := by
  obtain ⟨byte, rest, rfl⟩ := List.exists_cons_of_ne_nil isToken.nonempty
  have atFirst : byte ≠ 0 := fun zero => clean (zero ▸ List.mem_cons_self)
  have start : front.length +
      strspn ((front ++ skipped ++ (byte :: rest) ++ stop ::
        tail).drop front.length) delimiters =
        (front ++ skipped).length := by
    rw [List.append_assoc, List.append_assoc, List.drop_left,
      strspn_append only (by simpa using isToken.apart byte List.mem_cons_self),
      List.length_append]
  have first : (front ++ skipped ++ (byte :: rest) ++ stop ::
      tail)[(front ++ skipped).length]? =
      some byte := by
    rw [List.append_assoc, List.getElem?_append_right (Nat.le_refl _),
      Nat.sub_self]
    rfl
  have finish : (front ++ skipped).length +
      strcspn ((front ++ skipped ++ (byte :: rest) ++ stop :: tail).drop
        (front ++ skipped).length) delimiters =
          (front ++ skipped ++ (byte :: rest)).length := by
    rw [List.append_assoc, List.drop_left,
      strcspn_append isToken.apart clean (by simpa using ends),
      ← List.length_append]
  have last : (front ++ skipped ++ (byte :: rest) ++ stop :: tail)[
      (front ++ skipped ++ (byte :: rest)).length]? = some stop := by
    rw [List.getElem?_append_right (Nat.le_refl _), Nat.sub_self]
    rfl
  simp only [strtok_r, located, Option.bind_eq_bind, Option.bind_some, start,
    first, atFirst, if_false, finish, last]
  split
  · rename_i zero
    rw [zero, Nat.add_zero]
  · rw [List.set_append_right _ _ (Nat.le_refl _), Nat.sub_self,
      List.set_cons_zero]

end Call

/-! ## A loop over the tokens -/

section Loop

variable {Line : Type}
  {body : List UInt8 → Nat → Option (List Line × List UInt8)}
  {printed : List UInt8 → List Line} {bound : Nat}

/-- For each token of at most `bound` bytes the body prints its lines, and it
changes no byte of memory outside of the token. -/
def StaysWithin (delimiters : List UInt8) (bound : Nat)
    (body : List UInt8 → Nat → Option (List Line × List UInt8))
    (printed : List UInt8 → List Line) : Prop :=
  ∀ front token tail : List UInt8, IsToken delimiters token → 0 ∉ token →
    token.length ≤ bound →
    ∃ left : List UInt8, left.length = token.length ∧
      body (front ++ token ++ 0 :: tail) front.length =
        some (printed token, front ++ left ++ 0 :: tail)

/-- One round of the loop with a token. -/
theorem forEachToken_succ (within : StaysWithin delimiters bound body printed)
    {front skipped token : List UInt8} {stop : UInt8} {str save : Option Nat}
    (only : ∀ byte ∈ skipped, byte ∈ delimiters)
    (isToken : IsToken delimiters token)
    (clean : 0 ∉ token) (small : token.length ≤ bound)
    (ends : stop = 0 ∨ stop ∈ delimiters)
    (located : (str <|> save) = some front.length) (fuel : Nat)
    (tail : List UInt8) :
    ∃ left : List UInt8, left.length = token.length ∧
      forEachToken delimiters body (fuel + 1)
        (front ++ skipped ++ token ++ stop :: tail) str save =
        (forEachToken delimiters body fuel
          (front ++ skipped ++ left ++ 0 :: tail) none
          (some ((front ++ skipped ++ token).length + if stop = 0 then 0
            else 1))).map
          fun result => (printed token ++ result.1, result.2) := by
  obtain ⟨left, same, runs⟩ :=
    within (front ++ skipped) token tail isToken clean small
  refine ⟨left, same, ?_⟩
  rw [forEachToken, strtok_r_some clean only isToken ends located]
  simp only [Option.bind_eq_bind, Option.bind_some, runs]
  cases forEachToken delimiters body fuel
    (front ++ skipped ++ left ++ 0 :: tail) none _ <;> rfl

/-- The loop ends, having come to the runs of the text in turn, and has changed
nothing outside of the text. -/
theorem forEachToken_eq (visible : 0 ∉ delimiters)
    (within : StaysWithin delimiters bound body printed) {fuel : Nat}
    {front text tail : List UInt8}
    {str save : Option Nat} (clean : 0 ∉ text) (small : text.length ≤ bound)
    (enough : text.length < fuel)
    (located : (str <|> save) = some front.length) :
    ∃ left : List UInt8, left.length = text.length ∧
      forEachToken delimiters body fuel (front ++ text ++ 0 :: tail) str save =
        some ((runs delimiters text).flatMap printed,
          front ++ left ++ 0 :: tail) := by
  induction fuel generalizing front text str save with
  | zero => omega
  | succ fuel inductionHypothesis =>
      cases firstToken delimiters text with
      | none only =>
          refine ⟨text, rfl, ?_⟩
          rw [forEachToken, strtok_r_none visible only located,
            runs_eq_nil only]
          rfl
      | @last skipped token only isToken =>
          simp only [List.mem_append, not_or, List.length_append]
            at clean small enough
          have positive := List.length_pos_of_ne_nil isToken.nonempty
          obtain ⟨left, same, round⟩ :=
            forEachToken_succ within only isToken clean.2 (by omega)
            (Or.inl (rfl : (0 : UInt8) = 0)) located fuel tail
          -- The save pointer stays at the end of the string.
          have resumes : (none <|> some (front ++ skipped ++ token).length) =
              some (front ++ skipped ++ left).length := by simp [same]
          have later : ∃ rest : List UInt8, rest.length = 0 ∧
              forEachToken delimiters body fuel
                (front ++ skipped ++ left ++ [] ++ 0 :: tail) none
                (some (front ++ skipped ++ token).length) =
              some ((runs delimiters []).flatMap printed,
                front ++ skipped ++ left ++ rest ++ 0 :: tail) :=
            inductionHypothesis List.not_mem_nil (Nat.zero_le _)
              (by rw [List.length_nil]; omega) resumes
          obtain ⟨rest, empty, later⟩ := later
          rw [List.append_nil] at later
          refine ⟨skipped ++ left, by simp [same], ?_⟩
          rw [runs_skip only, isToken.runs_eq, ← List.append_assoc, round,
            if_pos rfl,
            Nat.add_zero, later, List.eq_nil_of_length_eq_zero empty]
          simp [runs]
      | @before skipped token rest delimiter only isToken behind =>
          simp only [List.mem_append, List.mem_cons, not_or, List.length_append,
            List.length_cons] at clean small enough
          obtain ⟨⟨_, tokenClean⟩, _, restClean⟩ := clean
          obtain ⟨left, same, round⟩ :=
            forEachToken_succ within only isToken tokenClean (by omega)
            (.inr behind) located fuel (rest ++ 0 :: tail)
          have resumes :
              (none <|> some ((front ++ skipped ++ token).length + 1)) =
              some (front ++ skipped ++ left ++ [0]).length := by
                simp [same, Nat.add_assoc]
          obtain ⟨leftRest, sameRest, later⟩ :=
            inductionHypothesis restClean (by omega) (by omega)
            resumes
          refine ⟨skipped ++ left ++ 0 :: leftRest,
            by simp [same, sameRest], ?_⟩
          have notEnd : delimiter ≠ 0 := ne_of_mem_of_not_mem behind visible
          rw [if_neg notEnd] at round
          rw [List.append_assoc skipped, runs_skip only,
            isToken.runs_append behind, List.flatMap_cons]
          simp only [List.append_assoc, List.cons_append, List.nil_append]
            at round later ⊢
          rw [round, later]
          rfl

end Loop

end Tokens
end LinuxCPractice
