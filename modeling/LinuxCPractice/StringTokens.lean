import LinuxCPractice.Tokens

/-!
# Tokens of tokens

The end of `main` in `str_ncpy-casecmp-chr-rchr-fry-tok_r.c`: two loops over
`strtok_r` on one buffer. The outer one cuts the buffer at its spaces, and each
of its tokens that has a comma is cut again by the inner one, with a save
pointer of its own. The inner loop writes into the token at hand alone, so the
outer one comes to the tokens that the buffer had at first.
-/

namespace LinuxCPractice
namespace StringTokens

open Tokens

/-- A printed line: `" --> %s\n"` in the outer loop and `"\t--> %s\n"` in the
inner one. -/
inductive Line
  | token1 (string : List UInt8)
  | token2 (string : List UInt8)
  deriving DecidableEq

/-- The body of the inner loop. -/
def printToken2 (memory : List UInt8) (token2 : Nat) :
    Option (List Line × List UInt8) := do
  let string ← stringAt memory token2
  some ([.token2 string], memory)

/-- The body of the outer loop. -/
def printToken1 (fuel : Nat) (memory : List UInt8) (token1 : Nat) :
    Option (List Line × List UInt8) := do
  let string ← stringAt memory token1
  if 44 ∈ string then do
    let (lines, left) ← forEachToken [44] printToken2 fuel memory
        (some token1) none
    some (.token1 string :: lines, left)
  else some ([.token1 string], memory)

/-- The loops on the buffer at offset 0, each with at most `fuel` rounds. -/
def splitString (fuel : Nat) (s_strtok_r : List UInt8) :
    Option (List Line × List UInt8) :=
  forEachToken [32] (printToken1 fuel) fuel s_strtok_r (some 0) none

/-! ## The lines -/

/-- The runs of a token between its commas, if it has one. -/
def innerLines (token : List UInt8) : List Line :=
  if 44 ∈ token then (runs [44] token).map .token2 else []

/-- Each run between spaces and behind it its own runs. -/
def lines (text : List UInt8) : List Line :=
  (runs [32] text).flatMap fun token => .token1 token :: innerLines token

/-- The tokens behind a comma are printed from within the string. -/
theorem printToken2_within (bound : Nat) :
    StaysWithin [44] bound printToken2 fun token => [.token2 token] := by
  intro front token tail _ clean _
  refine ⟨token, rfl, ?_⟩
  rw [printToken2, stringAt_append clean]
  rfl

/-- The inner loop leaves everything outside of its token as it was. -/
theorem printToken1_within {fuel bound : Nat} (enough : bound < fuel) :
    StaysWithin [32] bound (printToken1 fuel) fun token =>
      .token1 token :: innerLines token := by
  intro front token tail _ clean small
  simp only [printToken1, stringAt_append clean, Option.bind_eq_bind,
    Option.bind_some, innerLines]
  by_cases comma : 44 ∈ token
  · obtain ⟨left, same, cut⟩ :=
      forEachToken_eq (by decide) (printToken2_within bound) clean small
      (Nat.lt_of_le_of_lt small enough)
      (rfl : (some front.length <|> none) = some front.length)
    refine ⟨left, same, ?_⟩
    rw [if_pos comma, if_pos comma, cut, List.map_eq_flatMap]
    rfl
  · refine ⟨token, rfl, ?_⟩
    rw [if_neg comma, if_neg comma]

/-- Both loops end and print the lines of the string, whose length they keep. -/
theorem splitString_prints {text : List UInt8} (clean : 0 ∉ text)
    (tail : List UInt8) {fuel : Nat}
    (enough : text.length < fuel) :
    ∃ left : List UInt8, left.length = text.length ∧
      splitString fuel (text ++ 0 :: tail) =
        some (lines text, left ++ 0 :: tail) := by
  have atStart : (some 0 <|> none) = some ([] : List UInt8).length := rfl
  exact forEachToken_eq (by decide) (printToken1_within enough) clean
    (Nat.le_refl _) enough atStart

/-- The string of the program. -/
def sample : List UInt8 := CString.ofString "this is strtok string1,string2"

/-- The string of the program. -/
theorem splitString_prints_sample :
    ∃ left : List UInt8, left.length = sample.length ∧
      splitString 31 (sample ++ 0 :: []) =
        some (lines sample, left ++ 0 :: []) :=
  splitString_prints (by decide) [] (by decide)

example : lines sample =
    [.token1 (CString.ofString "this"), .token1 (CString.ofString "is"),
      .token1 (CString.ofString "strtok"),
      .token1 (CString.ofString "string1,string2"),
      .token2 (CString.ofString "string1"),
      .token2 (CString.ofString "string2")] := by
  decide

end StringTokens
end LinuxCPractice
