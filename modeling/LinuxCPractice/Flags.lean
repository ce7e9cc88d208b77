import LinuxCPractice.GetoptLong

/-!
# Options without arguments

A program whose options take no argument sees a command line as a list of
letters. They are those of its elements from left to right, however
`getopt_long` permutes these meanwhile.
-/

namespace LinuxCPractice
namespace Flags

open GetoptLong

/-- The options of a program, none of which takes an argument. -/
structure Table where
  optstring : List UInt8
  longopts : List LongOption
  short : 58 ∉ optstring
  long : ∀ p ∈ longopts, p.has_arg = .no_argument

namespace Table

variable (table : Table)

/-- What a character of an element stands for. -/
def shortLetter (c : UInt8) : UInt8 :=
  if (shortOption table.optstring c).isSome then c else 63

/-- What an element stands for behind its two hyphens. -/
def longLetter (string : List UInt8) : UInt8 :=
  match findLong table.longopts (string.takeWhile (· ≠ 61)) with
  | none => 63
  | some p => if string.dropWhile (· ≠ 61) = [] then p.val else 63

/-- The letters of an element with options. -/
def elementLetters (string : List UInt8) : List UInt8 :=
  if string.tail.head? = some 45 then [table.longLetter (string.drop 2)]
  else string.tail.map table.shortLetter

variable {Word : Type} (text : Word → List UInt8)

/-- The letters of a command line, up to the element `--`. -/
def letters : List Word → List UInt8
  | [] => []
  | word :: rest =>
      if isNonoption (text word) then letters rest
      else if text word = [45, 45] then []
      else table.elementLetters (text word) ++ letters rest

/-- The loop of `main` over the calls of `getopt_long`, with at most `fuel`
rounds. `take` is the body of the loop, which may leave `main`. -/
def loop {Settings Ending : Type}
    (take : Settings → UInt8 → Except Ending Settings) :
    Nat → Settings → State Word → Option (Except Ending Settings)
  | 0, _, _ => none
  | fuel + 1, settings, state => do
      let (state, option) ← getoptLong text table.optstring table.longopts state
      match option with
      | none => some (.ok settings)
      | some c =>
          match take settings c with
          | .error ending => some (.error ending)
          | .ok settings => loop take fuel settings state

end Table

section Loop

variable {table : Table} {Word : Type} {text : Word → List UInt8}
  {Settings Ending : Type}
  {take : Settings → UInt8 → Except Ending Settings}

/-- The loop goes from one state to another over some letters. -/
def Reads (table : Table) (text : Word → List UInt8)
    (take : Settings → UInt8 → Except Ending Settings) (state : State Word)
    (letters : List UInt8) (next : State Word) : Prop :=
  ∀ fuel settings, table.loop text take (fuel + letters.length) settings state =
    match (letters.foldlM take settings : Except Ending Settings) with
    | .error ending => some (.error ending)
    | .ok settings => table.loop text take fuel settings next

theorem Reads.refl (state : State Word) :
    Reads table text take state [] state :=
  fun _ _ => rfl

/-- One call reads a letter. -/
theorem Reads.cons {state middle next : State Word} {c : UInt8}
    {letters : List UInt8}
    (call : getoptLong text table.optstring table.longopts state =
      some (middle, some c))
    (later : Reads table text take middle letters next) :
    Reads table text take state (c :: letters) next := by
  intro fuel settings
  rw [List.length_cons, ← Nat.add_assoc, Table.loop, call, List.foldlM_cons]
  cases taken : take settings c with
  | error ending => simp [taken, bind, Except.bind]
  | ok settings => simpa [taken, bind, Except.bind] using later fuel settings

/-- The loop ends behind some letters. -/
def Ends (table : Table) (text : Word → List UInt8)
    (take : Settings → UInt8 → Except Ending Settings) (state : State Word)
    (letters : List UInt8) : Prop :=
  ∀ fuel settings, letters.length < fuel →
    table.loop text take fuel settings state =
      some (letters.foldlM take settings)

/-- A call that finds nothing ends the loop. -/
theorem Ends.of_none {state final : State Word}
    (call : getoptLong text table.optstring table.longopts state =
      some (final, none)) :
    Ends table text take state [] := by
  intro fuel settings enough
  obtain ⟨fuel, rfl⟩ := Nat.exists_eq_add_one.mpr enough
  rw [Table.loop, call]
  rfl

/-- What is read before the end comes before what is read at it. -/
theorem Reads.ends {state next : State Word} {letters others : List UInt8}
    (reads : Reads table text take state letters next)
    (later : Ends table text take next others) :
    Ends table text take state (letters ++ others) := by
  intro fuel settings enough
  rw [List.length_append] at enough
  obtain ⟨left, rfl⟩ :=
    Nat.exists_eq_add_of_le' (show letters.length ≤ fuel by omega)
  rw [reads, List.foldlM_append]
  cases letters.foldlM take settings with
  | error ending => rfl
  | ok settings => exact later left settings (by omega)

/-- States with the same next call are alike. -/
theorem Ends.congr {state other : State Word} {letters : List UInt8}
    (same : getoptLong text table.optstring table.longopts state =
      getoptLong text table.optstring table.longopts other)
    (ends : Ends table text take other letters) :
    Ends table text take state letters := by
  intro fuel settings enough
  rw [← ends fuel settings enough]
  obtain ⟨fuel, rfl⟩ := Nat.exists_eq_add_one.mpr (Nat.zero_lt_of_lt enough)
  rw [Table.loop, Table.loop, same]

/-! ## Elements -/

variable (program : Word) (options skipped rest : List Word)

variable {word : Word}

/-- No character of the option string takes an argument. -/
theorem shortOption_eq (table : Table) (c : UInt8) :
    shortOption table.optstring c = none ∨
      shortOption table.optstring c = some .no_argument := by
  unfold shortOption
  split
  · exact .inl rfl
  · rename_i first behind split
    have notArgument : behind.head? ≠ some 58 := by
      intro colon
      refine table.short
        (List.dropWhile_subset _ (split ▸ List.mem_cons_of_mem first ?_))
      exact List.mem_of_mem_head? colon
    rw [if_pos notArgument]
    split
    · exact .inl rfl
    · exact .inr rfl

/-- A character is used up, with it perhaps the element. -/
theorem shortStep_within (table : Table) (c : UInt8) (behind : List UInt8) :
    shortStep table.optstring (within program options skipped word rest
      (c :: behind)) =
      some (if behind = [] then between program options skipped [word] rest none
        else within program options skipped word rest behind,
          table.shortLetter c) := by
  rcases shortOption_eq table c with letter | letter <;>
    cases behind <;>
    simp [shortStep, letter, Table.shortLetter, within, between]

/-- The letters of an element with short options, the first of which the next
call comes to. -/
theorem reads_short {state : State Word} {c : UInt8} {behind : List UInt8}
    (call : getoptLong text table.optstring table.longopts state =
      (shortStep table.optstring (within program options skipped word rest
        (c :: behind))).map
        fun found => (found.1, some found.2)) :
    Reads table text take state ((c :: behind).map table.shortLetter)
      (between program options skipped [word] rest none) := by
  induction behind generalizing state c with
  | nil =>
      rw [shortStep_within] at call
      exact .cons call (.refl _)
  | cons other behind inductionHypothesis =>
      rw [shortStep_within] at call
      exact .cons call (inductionHypothesis
        (getoptLong_within program options skipped rest text _ _ word
          (List.cons_ne_nil _ _)))

/-- The letter of an element with a long option. -/
theorem longStep_eq (table : Table) (string : List UInt8) :
    longStep table.longopts string (between program options skipped []
      (word :: rest) none) =
      some (between program options skipped [word] rest none,
        table.longLetter string) := by
  have left := leave_between program options skipped [word] rest none [] none
  have used :
      leave (between program options skipped [] (word :: rest) none) none
      ((between program options skipped [] (word :: rest) none).optind + 1) =
        between program options skipped [word] rest none := left
  unfold longStep Table.longLetter
  simp only
  cases found : findLong table.longopts (string.takeWhile (· ≠ 61)) with
  | none => simp only [used]
  | some p =>
      have flag := table.long p (mem_of_findLong found)
      by_cases bare : string.dropWhile (· ≠ 61) = []
      · simp only [bare, flag, used, ne_eq, not_true_eq_false, if_false,
          if_true, reduceCtorEq]
      · simp only [bare, flag, used, ne_eq, not_true_eq_false,
          not_false_eq_true, if_false, if_true]

/-- The letters of an element. -/
theorem reads_element (isOption : isNonoption (text word) = false)
    (notTerminator : text word ≠ [45, 45]) :
    Reads table text take (between program options skipped []
      (word :: rest) none)
      (table.elementLetters (text word))
      (between program options skipped [word] rest none) := by
  have call :=
    getoptLong_element program options skipped rest text table.optstring
    table.longopts isOption
  rw [if_neg notTerminator] at call
  unfold Table.elementLetters
  split
  case isTrue isLong =>
    rw [if_pos isLong, longStep_eq] at call
    exact .cons call (.refl _)
  case isFalse isShort =>
    rw [if_neg isShort] at call
    cases chars : (text word).tail with
    | nil => simp [isNonoption, chars] at isOption
    | cons c behind =>
        rw [chars] at call
        exact reads_short program options skipped rest call

/-- However `getopt_long` permutes the elements, the loop goes over the letters
of the command line. -/
theorem ends_between :
    Ends table text take (between program options skipped [] rest none)
      (table.letters text rest) := by
  induction rest generalizing options skipped with
  | nil =>
      exact .of_none (getoptLong_nil program options skipped text
        table.optstring table.longopts)
  | cons word rest inductionHypothesis =>
      unfold Table.letters
      split
      case isTrue isOperand =>
        exact .congr
          (getoptLong_operand program options skipped rest text _ _ isOperand)
          (inductionHypothesis options (skipped ++ [word]))
      case isFalse notOperand =>
        have isOption : isNonoption (text word) = false :=
          Bool.eq_false_iff.mpr notOperand
        have call := getoptLong_element program options skipped rest text
          table.optstring table.longopts isOption
        split
        case isTrue isTerminator =>
          rw [if_pos isTerminator] at call
          exact .of_none call
        case isFalse notTerminator =>
          exact (reads_element program options skipped rest isOption
            notTerminator).ends
            (.congr (getoptLong_found program options skipped
              [word] rest none text _ _)
              (inductionHypothesis (options ++ [word]) skipped))

/-- The loop goes over the letters of the command line. -/
theorem loop_eq {fuel : Nat} (settings : Settings)
    (enough : (table.letters text rest).length < fuel) :
    table.loop text take fuel settings (initial (program :: rest)) =
      some ((table.letters text rest).foldlM take settings) := by
  have start :
      initial (program :: rest) = between program [] [] [] rest none := by
    simp [initial, between]
  rw [start]
  exact ends_between program [] [] rest fuel settings enough

end Loop

end Flags
end LinuxCPractice
