import LinuxCPractice.GetoptLong

/-!
# Options with an optional argument

`main` in `getopt.c`. For an optional argument that is not attached to its
option the program itself takes the next element, if there is one that does not
begin with a hyphen, by adding to `optind` between two calls of `getopt_long`.
The elements of a command line without unknown options are read from left to
right, each of them once.
-/

namespace LinuxCPractice
namespace Getopt

open GetoptLong

variable {Word : Type} (text : Word → List UInt8)

/-- The option string of `main`. -/
def optstring : List UInt8 := CString.ofString "ba:c::"

/-- The table `parameters` of long options. -/
def parameters : List LongOption :=
  [⟨CString.ofString "aaa", .required_argument, 97⟩,
    ⟨CString.ofString "bbb", .no_argument, 98⟩,
    ⟨CString.ofString "ccc", .optional_argument, 99⟩]

/-- A printed line: `"'a' argument's data is %s\n"`, `"'b' is the argument\n"`,
`"'c' argument's data is %s\n"` or `"'c' is the argument\n"` and
`"unknown argument\n"`. -/
inductive Line (Word : Type)
  | a (optarg : Option (Argument Word))
  | b
  | c (optarg : Option (Argument Word))
  | unknown
  deriving DecidableEq

/-- The macro `OPTIONAL_ARGUMENT_IS_PRESENT`. There is no result when `argv` is
read behind its elements. -/
def optionalArgumentIsPresent (state : State Word) :
    Option (State Word × Bool) :=
  if state.optarg.isNone ∧ state.optind < state.argv.length then
    (state.argv[state.optind]?).map fun word =>
      if (text word).head? ≠ some 45 then
        ({ state with optarg := some (.element word), optind := state.optind + 1 }, true)
      else (state, false)
  else some (state, state.optarg.isSome)

/-- What a round of the loop comes to. -/
inductive Round (Word : Type)
  | printed (line : Line Word) (state : State Word)
  | unknown (state : State Word)
  | finished (state : State Word)

/-- One round of the loop: the next option and the line printed for it. -/
def round (state : State Word) : Option (Round Word) := do
  let (state, c) ← getoptLong text optstring parameters state
  match c with
  | none => some (.finished state)
  | some c =>
      if c = 97 then some (.printed (.a state.optarg) state)
      else if c = 98 then some (.printed .b state)
      else if c = 99 then do
        let (state, present) ← optionalArgumentIsPresent text state
        some (.printed (.c (if present then state.optarg else none)) state)
      else some (.unknown state)

/-- The loop with at most `fuel` rounds, with the lines it prints and the state
it leaves. -/
def loop : Nat → State Word → Option (List (Line Word) × State Word)
  | 0, _ => none
  | fuel + 1, state => do
      match ← round text state with
      | .printed line next => do
          let (lines, final) ← loop fuel next
          some (line :: lines, final)
      | .unknown final => some ([.unknown], final)
      | .finished final => some ([], final)

/-! ## The elements from left to right -/

/-- What the last option of an element still needs. -/
inductive Need
  | nothing
  | required
  | optional
  | unknown
  deriving DecidableEq

/-- The options in an element behind its hyphen. -/
def readShort : List UInt8 → List (Line Word) × Need
  | [] => ([], .nothing)
  | c :: behind =>
      if c = 98 then (.b :: (readShort behind).1, (readShort behind).2)
      else if c = 97 then
        if behind = [] then ([], .required)
        else ([.a (some (.attached behind))], .nothing)
      else if c = 99 then
        if behind = [] then ([], .optional)
        else ([.c (some (.attached behind))], .nothing)
      else ([], .unknown)

/-- The option in an element behind two hyphens. -/
def readLong (string : List UInt8) : List (Line Word) × Need :=
  let nameend := string.dropWhile (· ≠ 61)
  match (findLong parameters (string.takeWhile (· ≠ 61))).map
    LongOption.has_arg with
  | none => ([], .unknown)
  | some .required_argument =>
      if nameend = [] then ([], .required)
      else ([.a (some (.attached nameend.tail))], .nothing)
  | some .no_argument =>
      if nameend = [] then ([.b], .nothing) else ([], .unknown)
  | some .optional_argument =>
      if nameend = [] then ([], .optional)
      else ([.c (some (.attached nameend.tail))], .nothing)

/-- The lines of an element with options and what its last option needs. -/
def readElement (string : List UInt8) : List (Line Word) × Need :=
  if string.tail.head? = some 45 then readLong (string.drop 2)
  else readShort string.tail

/-- The line of an option that needs more and the element that it takes. A
required argument is the next element, whatever that is, and an optional one the
next element if it does not begin with a hyphen. -/
def supply : Need → List Word → Option (List (Line Word) × Option Word)
  | .nothing, _ => some ([], none)
  | .required, [] => none
  | .required, word :: _ => some ([.a (some (.element word))], some word)
  | .optional, [] => some ([.c none], none)
  | .optional, word :: _ =>
      if (text word).head? = some 45 then some ([.c none], none)
      else some ([.c (some (.element word))], some word)
  | .unknown, _ => none

/-- What an element is, with the lines of its options and the element they
take. -/
inductive Item (Word : Type)
  | operand (word : Word)
  | option (word : Word) (lines : List (Line Word)) (value : Option Word)
  | terminator (word : Word)
  | unknown (word : Word) (lines : List (Line Word))
  deriving DecidableEq

/-- The elements from left to right, up to the first one with an unknown option
or without the argument it needs. An element that an option has taken is passed
over. -/
def account : Bool → List Word → List (Item Word)
  | _, [] => []
  | true, _ :: rest => account false rest
  | false, word :: rest =>
      if isNonoption (text word) then .operand word :: account false rest
      else if text word = [45, 45] then .terminator word :: rest.map .operand
      else
        let read := readElement (text word)
        match supply text read.2 rest with
        | none => [.unknown word read.1]
        | some (lines, value) =>
            .option word (read.1 ++ lines) value :: account value.isSome rest

namespace Item

/-- The lines printed for an item. -/
def lines : Item Word → List (Line Word)
  | .operand _ => []
  | .option _ lines _ => lines
  | .terminator _ => []
  | .unknown _ lines => lines ++ [.unknown]

/-- The elements that are used up as options or as their values. -/
def options : Item Word → List Word
  | .operand _ => []
  | .option word _ value => word :: value.toList
  | .terminator word => [word]
  | .unknown _ _ => []

/-- The operands of an item, at most one. -/
def operands : Item Word → List Word
  | .operand word => [word]
  | _ => []

/-- All elements of an item in their order. -/
def words : Item Word → List Word
  | .unknown word _ => [word]
  | item => item.options ++ item.operands

/-- An item that is no unknown option. -/
def Known : Item Word → Prop
  | .unknown _ _ => False
  | _ => True

instance : DecidablePred (Known : Item Word → Prop)
  | .operand _ => .isTrue trivial
  | .option _ _ _ => .isTrue trivial
  | .terminator _ => .isTrue trivial
  | .unknown _ _ => .isFalse id

end Item

/-! ## Rounds -/

section Rounds

variable {text : Word → List UInt8}

/-- The loop prints some lines and comes from one state to another. -/
def Prints (text : Word → List UInt8) (state : State Word)
    (lines : List (Line Word))
    (next : State Word) : Prop :=
  ∀ fuel, loop text (fuel + lines.length) state =
    (loop text fuel next).map fun result => (lines ++ result.1, result.2)

theorem Prints.refl (state : State Word) : Prints text state [] state := by
  intro fuel
  cases loop text fuel state <;> simp

/-- One round prints a line. -/
theorem Prints.cons {state middle next : State Word} {line : Line Word}
    {lines : List (Line Word)}
    (printed : round text state = some (.printed line middle))
    (later : Prints text middle lines next) :
    Prints text state (line :: lines) next := by
  intro fuel
  rw [List.length_cons, ← Nat.add_assoc, loop, printed]
  change (loop text (fuel + lines.length) middle).bind _ = _
  rw [later fuel]
  cases loop text fuel next <;> rfl

/-- What is printed first stands first. -/
theorem Prints.append {state middle next : State Word}
    {lines others : List (Line Word)}
    (first : Prints text state lines middle)
    (later : Prints text middle others next) :
    Prints text state (lines ++ others) next := by
  intro fuel
  rw [List.length_append, Nat.add_comm lines.length, ← Nat.add_assoc, first,
    later]
  cases loop text fuel next <;> simp

/-- The option `a` is printed with its argument. -/
theorem Prints.a {state next : State Word}
    (call : getoptLong text optstring parameters state = some (next, some 97)) :
    Prints text state [.a next.optarg] next := by
  refine .cons ?_ (.refl next)
  rw [round, call]
  rfl

/-- The option `b` is printed. -/
theorem Prints.b {state next : State Word}
    (call : getoptLong text optstring parameters state = some (next, some 98)) :
    Prints text state [.b] next := by
  refine .cons ?_ (.refl next)
  rw [round, call]
  rfl

/-- An attached argument leaves nothing to the macro. -/
theorem Prints.c {state next : State Word}
    (call : getoptLong text optstring parameters state = some (next, some 99))
    (attached : next.optarg.isSome = true) :
    Prints text state [.c next.optarg] next := by
  have present : optionalArgumentIsPresent text next = some (next, true) := by
    have notUnset : ¬next.optarg.isNone = true := by
      rw [← Option.not_isSome, attached]
      decide
    rw [optionalArgumentIsPresent, if_neg fun both => notUnset both.1, attached]
  refine .cons ?_ (.refl next)
  rw [round, call]
  simp [present]

/-- States with the same next round are alike. -/
theorem loop_congr {state other : State Word}
    (same : round text state = round text other)
    (fuel : Nat) : loop text fuel state = loop text fuel other := by
  cases fuel with
  | zero => rfl
  | succ fuel => rw [loop, loop, same]

/-- The loop prints some lines and ends. -/
def Ends (text : Word → List UInt8) (state : State Word)
    (lines : List (Line Word))
    (final : State Word) : Prop :=
  ∀ fuel, lines.length < fuel → loop text fuel state = some (lines, final)

/-- A round that finds nothing ends the loop. -/
theorem Ends.of_finished {state final : State Word}
    (finished : round text state = some (.finished final)) :
    Ends text state [] final := by
  intro fuel enough
  obtain ⟨fuel, rfl⟩ := Nat.exists_eq_add_one.mpr enough
  rw [loop, finished]
  rfl

/-- A round with an unknown option ends the loop. -/
theorem Ends.of_unknown {state final : State Word}
    (unknown : round text state = some (.unknown final)) :
    Ends text state [.unknown] final := by
  intro fuel enough
  obtain ⟨fuel, rfl⟩ := Nat.exists_eq_add_one.mpr (Nat.zero_lt_of_lt enough)
  rw [loop, unknown]
  rfl

/-- What is printed before the end comes before what is printed at it. -/
theorem Prints.ends {state next final : State Word}
    {lines others : List (Line Word)}
    (prints : Prints text state lines next)
    (later : Ends text next others final) :
    Ends text state (lines ++ others) final := by
  intro fuel enough
  rw [List.length_append] at enough
  obtain ⟨left, rfl⟩ :=
    Nat.exists_eq_add_of_le' (show lines.length ≤ fuel by omega)
  rw [prints left, later left (by omega)]
  rfl

theorem Ends.congr {state other final : State Word} {lines : List (Line Word)}
    (same : round text state = round text other)
    (ends : Ends text other lines final) :
    Ends text state lines final :=
  fun fuel enough => (loop_congr same fuel).trans (ends fuel enough)

theorem Prints.congr {state other next : State Word} {lines : List (Line Word)}
    (same : round text state = round text other)
    (prints : Prints text other lines next) :
    Prints text state lines next :=
  fun fuel => (loop_congr same _).trans (prints fuel)

variable (program : Word) (options skipped found rest : List Word)

/-- The options found last may as well stand with the others already. -/
theorem round_between (text : Word → List UInt8)
    (optarg : Option (Argument Word)) :
    round text (between program options skipped found rest optarg) =
      round text (between program (options ++ found) skipped [] rest none) := by
  rw [round, round, getoptLong_found]

/-- An operand may as well have been skipped already. -/
theorem round_operand {word : Word}
    (isOperand : isNonoption (text word) = true) :
    round text (between program options skipped [] (word :: rest) none) =
      round text (between program options (skipped ++ [word])
        [] rest none) := by
  rw [round, round, getoptLong_operand _ _ _ _ _ _ _ isOperand]

/-- When no element is left the round is the last. -/
theorem round_nil :
    ∃ final, round text (between program options skipped [] [] none) =
      some (.finished final) ∧
      Finished program options skipped final := by
  refine ⟨finish (between program options skipped [] [] none), ?_,
    finished_finish _ _ (by simp [between]) rfl (by simp [between])⟩
  rw [round, getoptLong_nil]
  rfl

/-- The round at the element `--` is the last. -/
theorem round_terminator {word : Word} (isTerminator : text word = [45, 45]) :
    ∃ final, round text (between program options skipped []
      (word :: rest) none) =
        some (.finished final) ∧
      Finished program (options ++ [word]) (skipped ++ rest) final := by
  have isOption : isNonoption (text word) = false := by rw [isTerminator]; rfl
  refine ⟨_, ?_,
    finished_terminate_between program options skipped rest none word⟩
  rw [round, getoptLong_element _ _ _ _ _ _ _ isOption, if_pos isTerminator]
  rfl

variable {word : Word}

/-- A state whose next rounds supply the last option of an element, which needs
more, as they should. -/
def Awaits (text : Word → List UInt8) (program : Word)
    (options skipped : List Word) (word : Word)
    (rest : List Word) (state : State Word) (need : Need) : Prop :=
  match supply text need rest with
  | none => ∃ final, round text state = some (.unknown final)
  | some (lines, value) =>
      ∃ optarg,
        Prints text state lines
          (between program options skipped (word :: value.toList)
            (rest.drop value.toList.length) optarg)

/-- The last option of an element that needs nothing more. -/
theorem awaits_nothing (optarg : Option (Argument Word)) :
    Awaits text program options skipped word rest
      (between program options skipped [word] rest optarg) .nothing :=
  ⟨optarg, .refl _⟩

/-! ### Short options -/

theorem shortOption_97 :
    shortOption optstring 97 = some .required_argument := by decide

theorem shortOption_98 :
    shortOption optstring 98 = some .no_argument := by decide

theorem shortOption_99 :
    shortOption optstring 99 = some .optional_argument := by decide

/-- There are no other short options. -/
theorem shortOption_other {c : UInt8} (not_a : c ≠ 97) (not_b : c ≠ 98)
    (not_c : c ≠ 99) :
    shortOption optstring c = none := by
  have letters : optstring = [98, 97, 58, 99, 58, 58] := by decide
  by_cases isColon : c = 58
  · rw [isColon]
    decide
  · simp [shortOption, letters, not_a.symm, not_b.symm, not_c.symm,
      Ne.symm isColon]

/-- The option `b` uses up its character, with it perhaps the element. -/
theorem shortStep_b (behind : List UInt8) :
    shortStep optstring (within program options skipped word rest
      (98 :: behind)) =
      some (if behind = [] then between program options skipped [word] rest none
        else within program options skipped word rest behind, 98) := by
  cases behind with
  | nil => exact shortStep_flag program options skipped rest shortOption_98
  | cons c behind =>
      simp only [shortStep, within, shortOption_98]
      simp

/-- An unknown character. -/
theorem shortStep_other {c : UInt8} (behind : List UInt8) (not_a : c ≠ 97)
    (not_b : c ≠ 98)
    (not_c : c ≠ 99) :
    ∃ state, shortStep optstring (within program options skipped word rest
      (c :: behind)) =
      some (state, 63) := by
  simp [shortStep, within, shortOption_other not_a not_b not_c]

/-- The program takes the next element for an optional argument that is not
attached. -/
theorem optionalArgumentIsPresent_between (text : Word → List UInt8)
    (word : Word) :
    ∃ state present, optionalArgumentIsPresent text
        (between program options skipped [word] rest none) = some
        (state, present) ∧
      ∃ line value, supply text .optional rest = some ([line], value) ∧
        line = .c (if present then state.optarg else none) ∧
        state = between program options skipped (word :: value.toList)
          (rest.drop value.toList.length) state.optarg := by
  have unset : (between program options skipped
      [word] rest none).optarg.isNone = true := rfl
  have inside := optind_between_lt_iff program options skipped [word] rest none
  have first := getElem?_between program options skipped [word] rest none
  rw [optionalArgumentIsPresent, first]
  cases rest with
  | nil => exact ⟨_, _, if_neg fun both => inside.mp both.2 rfl, _, _, rfl, rfl, rfl⟩
  | cons value rest =>
      rw [if_pos ⟨unset, inside.mpr (List.cons_ne_nil _ _)⟩]
      by_cases hyphen : (text value).head? = some 45
      · refine ⟨between program options skipped [word] (value :: rest) none, false, ?_, .c none,
          none, ?_, rfl, rfl⟩
        · simp [hyphen]
        · simp [supply, hyphen]
      · refine ⟨between program options skipped [word, value] rest (some (.element value)), true,
          ?_, .c (some (.element value)), some value, ?_, rfl, rfl⟩
        · simp [hyphen, between]
        · simp [supply, hyphen]

/-- An option that lacks its optional argument when `getopt_long` returns. -/
theorem awaits_optional {state : State Word}
    (call : getoptLong text optstring parameters state =
      some (between program options skipped [word] rest none, some 99)) :
    Awaits text program options skipped word rest state .optional := by
  obtain ⟨next, present, taken, line, value, supplied, printed, reached⟩ :=
    optionalArgumentIsPresent_between program options skipped rest text word
  rw [Awaits, supplied]
  refine ⟨next.optarg, ?_⟩
  rw [← reached]
  refine .cons ?_ (.refl next)
  rw [round, call]
  simp [taken, printed]

/-- A question mark ends the loop. -/
theorem round_unknown {state final : State Word}
    (call : getoptLong text optstring parameters state =
      some (final, some 63)) :
    round text state = some (.unknown final) := by
  rw [round, call]
  rfl

/-- An option that looks for its required argument in the next element. -/
theorem awaits_required {state : State Word}
    (missing : rest = [] →
      ∃ final,
        getoptLong text optstring parameters state = some (final, some 63))
    (taken : ∀ value behind, rest = value :: behind →
      getoptLong text optstring parameters state =
        some (between program options skipped [word, value] behind
          (some (.element value)),
          some 97)) :
    Awaits text program options skipped word rest state .required := by
  cases rest with
  | nil =>
      obtain ⟨final, call⟩ := missing rfl
      exact ⟨final, round_unknown call⟩
  | cons value behind =>
      refine ⟨some (.element value), .cons ?_ (.refl _)⟩
      rw [round, taken value behind rfl]
      rfl

/-- The option `a` at the end of the last element. -/
theorem shortStep_a_last :
    ∃ state, shortStep optstring (within program options skipped word [] [97]) =
      some (state, 63) := by
  have atEnd :=
    (optind_between_succ_eq_iff program options skipped [] none word).mpr rfl
  refine ⟨leave (within program options skipped word [] [97]) none
    ((between program options skipped [] [word] none).optind + 1), ?_⟩
  simp only [shortStep, within, shortOption_97, if_true, ne_eq,
    not_true_eq_false, if_false, atEnd]

/-- The option `a` at the end of an element takes the next one as its
argument. -/
theorem awaits_within_a :
    Awaits text program options skipped word rest
      (within program options skipped word rest [97]) .required := by
  have call := getoptLong_within program options skipped rest text optstring
    parameters word (List.cons_ne_nil (97 : UInt8) [])
  apply awaits_required
  · rintro rfl
    obtain ⟨state, step⟩ := shortStep_a_last program options skipped
    rw [step] at call
    exact ⟨state, call⟩
  · rintro value behind rfl
    have step :
        shortStep optstring (within program options skipped word _ [97]) = _ :=
      shortStep_element program options skipped behind shortOption_97 value
    rw [step] at call
    exact call

/-- An unknown option needs nothing more. -/
theorem Awaits.unknown {state final : State Word}
    (call : getoptLong text optstring parameters state =
      some (final, some 63)) :
    Awaits text program options skipped word rest state .unknown :=
  ⟨final, round_unknown call⟩

/-- The option `c` at the end of an element. -/
theorem shortStep_c :
    shortStep optstring (within program options skipped word rest [99]) =
      some (between program options skipped [word] rest none, 99) := by
  have left := leave_between program options skipped [word] rest none [99] none
  simp only [shortStep, within, shortOption_99, if_true, ne_eq,
    not_true_eq_false, if_false]
  exact congrArg (fun state => some (state, 99)) left

/-- The options of an element are printed one by one, down to the one that needs
more. -/
theorem readShort_prints {chars : List UInt8} (more : chars ≠ []) :
    ∃ lines need next, readShort chars = (lines, need) ∧
      Prints text (within program options skipped word rest chars) lines next ∧
      Awaits text program options skipped word rest next need := by
  induction chars with
  | nil => exact absurd rfl more
  | cons c behind inductionHypothesis =>
      have call := getoptLong_within program options skipped rest text optstring
        parameters word more
      by_cases is_b : c = 98
      · subst is_b
        rw [shortStep_b] at call
        by_cases last : behind = []
        · subst last
          exact ⟨[.b], .nothing, between program options skipped
            [word] rest none, rfl,
            .b call, awaits_nothing program options skipped rest none⟩
        · rw [if_neg last] at call
          obtain ⟨lines, need, next, read, prints, awaits⟩ :=
            inductionHypothesis last
          exact ⟨.b :: lines, need, next, by simp [readShort, read],
            (Prints.b call).append prints, awaits⟩
      · by_cases is_a : c = 97
        · subst is_a
          by_cases last : behind = []
          · subst last
            exact ⟨[], .required, _, rfl, .refl _,
              awaits_within_a program options skipped rest⟩
          · have step : shortStep optstring
                (within program options skipped word rest _) = _ :=
              shortStep_attached program options skipped rest
                (.inl shortOption_97) last
            rw [step] at call
            exact ⟨[.a (some (.attached behind))], .nothing,
              between program options skipped [word] rest
                (some (.attached behind)),
              by simp [readShort, last], .a call,
              awaits_nothing program options skipped rest _⟩
        · by_cases is_c : c = 99
          · subst is_c
            by_cases last : behind = []
            · subst last
              rw [shortStep_c] at call
              exact ⟨[], .optional, _, rfl, .refl _,
                awaits_optional program options skipped rest call⟩
            · have step : shortStep optstring
                  (within program options skipped word rest _) = _ :=
                shortStep_attached program options skipped rest
                  (.inr shortOption_99) last
              rw [step] at call
              exact ⟨[.c (some (.attached behind))], .nothing,
                between program options skipped [word] rest
                  (some (.attached behind)),
                by simp [readShort, last], .c call rfl,
                awaits_nothing program options skipped rest _⟩
          · obtain ⟨state, step⟩ :=
              shortStep_other program options skipped rest behind is_a is_b is_c
            rw [step] at call
            exact ⟨[], .unknown, _, by simp [readShort, is_b, is_a, is_c],
              .refl _, .unknown program options skipped rest call⟩

/-! ### Long options -/

/-- A long option that is not in the table. -/
theorem longStep_unknown {string : List UInt8} (state : State Word)
    (absent : findLong parameters (string.takeWhile (· ≠ 61)) = none) :
    longStep parameters string state =
      some (leave state none (state.optind + 1), 63) := by
  rw [longStep, absent]

/-- A long option with its argument behind an equals sign. -/
theorem longStep_attached {string : List UInt8} {p : LongOption}
    (found : findLong parameters (string.takeWhile (· ≠ 61)) = some p)
    (takes : p.has_arg ≠ .no_argument) (more : string.dropWhile (· ≠ 61) ≠ []) :
    longStep parameters string (between program options skipped []
      (word :: rest) none) =
      some (between program options skipped [word] rest
        (some (.attached (string.dropWhile (· ≠ 61)).tail)), p.val) := by
  rw [longStep, found]
  simp only [if_pos more, if_pos takes]
  exact congrArg (fun state => some (state, p.val))
    (leave_between program options skipped [word] rest none [] _)

/-- A long option without an argument. -/
theorem longStep_alone {string : List UInt8} {p : LongOption}
    (found : findLong parameters (string.takeWhile (· ≠ 61)) = some p)
    (optional : p.has_arg ≠ .required_argument)
    (alone : string.dropWhile (· ≠ 61) = []) :
    longStep parameters string (between program options skipped []
      (word :: rest) none) =
      some (between program options skipped [word] rest none, p.val) := by
  rw [longStep, found]
  simp only [alone, ne_eq, not_true_eq_false, if_false, if_neg optional]
  exact congrArg (fun state => some (state, p.val))
    (leave_between program options skipped [word] rest none [] none)

/-- A long option that takes the next element as its argument, if there is
one. -/
theorem longStep_required {string : List UInt8} {p : LongOption}
    (found : findLong parameters (string.takeWhile (· ≠ 61)) = some p)
    (required : p.has_arg = .required_argument)
    (alone : string.dropWhile (· ≠ 61) = []) :
    longStep parameters string (between program options skipped []
      (word :: rest) none) =
      if (between program options skipped [] (word :: rest) none).optind + 1 <
          (between program options skipped []
            (word :: rest) none).argv.length then
        rest.head?.map fun value =>
          (leave (between program options skipped [] (word :: rest) none)
            (some (.element value))
            ((between program options skipped [] (word :: rest) none).optind +
              1 + 1), p.val)
      else some
        (leave (between program options skipped [] (word :: rest) none) none
          ((between program options skipped [] (word :: rest) none).optind + 1),
          63) := by
  rw [longStep, found,
    ← getElem?_between_succ program options skipped rest none word]
  simp only [alone, ne_eq, not_true_eq_false, if_false, if_pos required]

/-- A long option with an argument that it does not take. -/
theorem longStep_superfluous {string : List UInt8} {p : LongOption}
    (state : State Word)
    (found : findLong parameters (string.takeWhile (· ≠ 61)) = some p)
    (none_taken : p.has_arg = .no_argument)
    (more : string.dropWhile (· ≠ 61) ≠ []) :
    longStep parameters string state =
      some (leave state none (state.optind + 1), 63) := by
  rw [longStep, found]
  simp only [if_pos more, none_taken, ne_eq, not_true_eq_false, if_false]

/-- The long options stand for the short ones. -/
theorem val_of_mem {p : LongOption} (listed : p ∈ parameters) :
    p.has_arg = .required_argument ∧ p.val = 97 ∨ p.has_arg = .no_argument ∧
      p.val = 98 ∨
      p.has_arg = .optional_argument ∧ p.val = 99 := by
  revert p
  decide

/-- The option of an element is printed, unless it needs more. -/
theorem readLong_prints {string : List UInt8}
    (call : getoptLong text optstring parameters
        (between program options skipped [] (word :: rest) none) =
      (longStep parameters string (between program options skipped []
        (word :: rest) none)).map
        fun found => (found.1, some found.2)) :
    ∃ lines need next, readLong string = (lines, need) ∧
      Prints text (between program options skipped []
        (word :: rest) none) lines next ∧
      Awaits text program options skipped word rest next need := by
  cases found : findLong parameters (string.takeWhile (· ≠ 61)) with
  | none =>
      rw [longStep_unknown _ found] at call
      exact ⟨[], .unknown, _, by rw [readLong, found]; rfl, .refl _,
        .unknown program options skipped rest call⟩
  | some p =>
      rcases val_of_mem (mem_of_findLong found) with ⟨takes, val⟩ | ⟨takes, val⟩
        | ⟨takes, val⟩ <;>
        by_cases alone : string.dropWhile (· ≠ 61) = []
      · rw [longStep_required _ _ _ _ found takes alone, val] at call
        refine ⟨[], .required, _, ?_, .refl _, ?_⟩
        · rw [readLong, found, Option.map_some, takes]
          exact if_pos alone
        · have inside :=
            optind_between_succ_lt_iff program options skipped rest none word
          apply awaits_required
          · intro last
            rw [if_neg (mt inside.mp (not_not.mpr last))] at call
            exact ⟨_, call⟩
          · rintro value behind rfl
            rw [if_pos (inside.mpr (List.cons_ne_nil _ _))] at call
            exact call.trans (congrArg (fun state => some (state, some 97))
              (leave_between program options skipped [word, value] behind none
                [] _))
      · rw [longStep_attached _ _ _ _ found (by rw [takes]; decide) alone, val,
          Option.map_some] at call
        refine ⟨_, .nothing, _, ?_, .a call,
          awaits_nothing program options skipped rest _⟩
        rw [readLong, found, Option.map_some, takes]
        exact if_neg alone
      · rw [longStep_alone _ _ _ _ found (by rw [takes]; decide) alone, val]
          at call
        refine ⟨[.b], .nothing, between program options skipped
          [word] rest none, ?_, .b call,
          awaits_nothing program options skipped rest none⟩
        rw [readLong, found, Option.map_some, takes]
        exact if_pos alone
      · rw [longStep_superfluous _ found takes alone] at call
        refine ⟨[], .unknown, _, ?_, .refl _,
          .unknown program options skipped rest call⟩
        rw [readLong, found, Option.map_some, takes]
        exact if_neg alone
      · rw [longStep_alone _ _ _ _ found (by rw [takes]; decide) alone, val]
          at call
        refine ⟨[], .optional, _, ?_, .refl _,
          awaits_optional program options skipped rest call⟩
        rw [readLong, found, Option.map_some, takes]
        exact if_pos alone
      · rw [longStep_attached _ _ _ _ found (by rw [takes]; decide) alone, val,
          Option.map_some] at call
        refine ⟨_, .nothing, _, ?_, .c call rfl,
          awaits_nothing program options skipped rest _⟩
        rw [readLong, found, Option.map_some, takes]
        exact if_neg alone

/-! ### Elements -/

/-- An element prints the lines of its options and leaves what the last one
needs. -/
theorem readElement_prints (isOption : isNonoption (text word) = false)
    (notTerminator : text word ≠ [45, 45]) :
    ∃ lines need next, readElement (text word) = (lines, need) ∧
      Prints text (between program options skipped []
        (word :: rest) none) lines next ∧
      Awaits text program options skipped word rest next need := by
  have call := getoptLong_element program options skipped rest text optstring
    parameters isOption
  rw [if_neg notTerminator] at call
  by_cases isLong : (text word).tail.head? = some 45
  · rw [if_pos isLong] at call
    rw [readElement, if_pos isLong]
    exact readLong_prints program options skipped rest call
  · rw [if_neg isLong] at call
    rw [readElement, if_neg isLong]
    have more : (text word).tail ≠ [] := by
      intro alone
      simp [isNonoption, alone] at isOption
    have same :
        round text (between program options skipped [] (word :: rest) none) =
        round text (within program options skipped word rest
          (text word).tail) := by
      rw [round, round, call,
        getoptLong_within program options skipped rest text
        optstring parameters word more]
      rfl
    obtain ⟨lines, need, next, read, prints, awaits⟩ :=
      readShort_prints program options skipped rest more
    exact ⟨lines, need, next, read, prints.congr same, awaits⟩

/-- An option takes nothing but the next element. -/
theorem take_of_supply {need : Need} {lines : List (Line Word)}
    {value : Option Word}
    (supplied : supply text need rest = some (lines, value)) :
    rest = value.toList ++ rest.drop value.toList.length := by
  cases need with
  | nothing =>
      cases supplied
      rfl
  | required =>
      cases rest with
      | nil => cases supplied
      | cons next behind =>
          cases supplied
          rfl
  | optional =>
      cases rest with
      | nil =>
          cases supplied
          rfl
      | cons next behind =>
          rw [supply] at supplied
          split at supplied <;> cases supplied <;> rfl
  | unknown => cases supplied

/-- What an option has taken is passed over. -/
theorem account_isSome {need : Need} {lines : List (Line Word)}
    {value : Option Word}
    (supplied : supply text need rest = some (lines, value)) :
    account text value.isSome rest =
      account text false (rest.drop value.toList.length) := by
  cases value with
  | none => rfl
  | some next =>
      rw [take_of_supply rest supplied]
      simp [account]

/-- The elements are read one after the other, and an option takes the next one
with it. -/
theorem account_induction {motive : List Word → List (Item Word) → Prop}
    (nil : motive [] [])
    (operand : ∀ word rest, isNonoption (text word) = true →
      motive rest (account text false rest) →
        motive (word :: rest) (.operand word :: account text false rest))
    (terminator : ∀ word rest, text word = [45, 45] →
      motive (word :: rest) (.terminator word :: rest.map .operand))
    (unknown : ∀ word rest, isNonoption (text word) = false →
      text word ≠ [45, 45] →
      supply text (readElement (text word) : List (Line Word) × Need).2 rest =
        none →
        motive (word :: rest) [.unknown word (readElement (text word)).1])
    (option : ∀ word rest lines value, isNonoption (text word) = false →
      text word ≠ [45, 45] →
      supply text (readElement (text word) : List (Line Word) × Need).2 rest =
          some (lines, value) →
        motive (rest.drop value.toList.length)
            (account text false (rest.drop value.toList.length)) →
          motive (word :: rest)
            (.option word ((readElement (text word)).1 ++ lines) value ::
              account text false (rest.drop value.toList.length)))
    (words : List Word) : motive words (account text false words) := by
  induction length : words.length using Nat.strongRecOn generalizing words with
  | _ count inductionHypothesis =>
      cases words with
      | nil => exact nil
      | cons word rest =>
          have shorter : rest.length < count := by
            rw [← length]
            exact Nat.lt_succ_self _
          cases isOption : isNonoption (text word) with
          | true =>
              rw [account, if_pos isOption]
              exact operand word rest isOption
                (inductionHypothesis _ shorter rest rfl)
          | false =>
              rw [account, if_neg (by rw [isOption]; decide)]
              by_cases isTerminator : text word = [45, 45]
              · rw [if_pos isTerminator]
                exact terminator word rest isTerminator
              · rw [if_neg isTerminator]
                cases supplied : supply text
                    (readElement (text word) : List
                      (Line Word) × Need).2 rest with
                | none =>
                    simp only [supplied]
                    exact unknown word rest isOption isTerminator supplied
                | some result =>
                    obtain ⟨lines, value⟩ := result
                    simp only [supplied, account_isSome rest supplied]
                    have left : (rest.drop value.toList.length).length <
                        count :=
                      Nat.lt_of_le_of_lt
                        (by rw [List.length_drop]; omega) shorter
                    exact option word rest lines value isOption isTerminator
                      supplied
                      (inductionHypothesis _ left _ rfl)

/-- The loop prints the lines of the items and ends, and without unknown options
it leaves the elements arranged. -/
def Reads (text : Word → List UInt8) (program : Word)
    (options skipped words : List Word)
    (items : List (Item Word)) : Prop :=
  ∃ final, Ends text (between program options skipped [] words none)
      (items.flatMap Item.lines) final ∧
    ((∀ item ∈ items, item.Known) →
      Finished program (options ++ items.flatMap Item.options)
        (skipped ++ items.flatMap Item.operands) final)

/-- An operand is skipped. -/
theorem reads_operand {items : List (Item Word)}
    (isOperand : isNonoption (text word) = true)
    (reads : Reads text program options (skipped ++ [word]) rest items) :
    Reads text program options skipped (word :: rest)
      (.operand word :: items) := by
  obtain ⟨final, ends, atEnd⟩ := reads
  have same := round_operand program options skipped rest isOperand
  refine ⟨final, ends.congr same, fun known => ?_⟩
  have finished := atEnd (List.forall_mem_cons.mp known).2
  simpa [Item.options, Item.operands] using finished

/-- Behind `--` all elements are operands. -/
theorem reads_terminator (isTerminator : text word = [45, 45]) :
    Reads text program options skipped (word :: rest)
      (.terminator word :: rest.map .operand) := by
  obtain ⟨final, finished, atEnd⟩ :=
    round_terminator program options skipped rest isTerminator
  have none_printed : (rest.map Item.operand).flatMap Item.lines = [] := by
    simp [List.flatMap_map, Item.lines]
  have none_taken : (rest.map Item.operand).flatMap Item.options = [] := by
    simp [List.flatMap_map, Item.options]
  have all_left : (rest.map Item.operand).flatMap Item.operands = rest := by
    simp [List.flatMap_map, Item.operands]
  rw [Reads, List.flatMap_cons, List.flatMap_cons, List.flatMap_cons,
    none_printed, none_taken, all_left]
  exact ⟨final, .of_finished finished, fun _ => atEnd⟩

/-- An element whose last option is not supplied is unknown. -/
theorem reads_unknown (isOption : isNonoption (text word) = false)
    (notTerminator : text word ≠ [45, 45])
    (unsupplied : supply text
      (readElement (text word) : List (Line Word) × Need).2 rest = none) :
    Reads text program options skipped (word :: rest)
      [.unknown word (readElement (text word)).1] := by
  obtain ⟨lines, need, next, read, prints, awaits⟩ :=
    readElement_prints program options skipped rest isOption notTerminator
  rw [read] at unsupplied ⊢
  rw [Awaits, unsupplied] at awaits
  obtain ⟨final, unknown⟩ := awaits
  have ends := prints.ends (.of_unknown unknown)
  exact ⟨final, by simpa [Item.lines] using ends,
    fun known => (known _ (List.mem_singleton_self _)).elim⟩

/-- An element with options and the value it takes. -/
theorem reads_option {lines : List (Line Word)} {value : Option Word}
    {items : List (Item Word)}
    (isOption : isNonoption (text word) = false)
    (notTerminator : text word ≠ [45, 45])
    (supplied : supply text
      (readElement (text word) : List (Line Word) × Need).2 rest =
      some (lines, value))
    (reads : Reads text program (options ++ word :: value.toList) skipped
      (rest.drop value.toList.length) items) :
    Reads text program options skipped (word :: rest)
      (.option word ((readElement (text word)).1 ++ lines) value :: items) := by
  obtain ⟨own, need, next, read, prints, awaits⟩ :=
    readElement_prints program options skipped rest isOption notTerminator
  rw [read] at supplied ⊢
  rw [Awaits, supplied] at awaits
  obtain ⟨optarg, printsMore⟩ := awaits
  obtain ⟨final, ends, atEnd⟩ := reads
  have same := round_between program options skipped (word :: value.toList)
    (rest.drop value.toList.length) text optarg
  refine ⟨final, (prints.append printsMore).ends (ends.congr same),
    fun known => ?_⟩
  have finished := atEnd (List.forall_mem_cons.mp known).2
  simpa [Item.options, Item.operands] using finished

/-- The loop reads the elements that are left from left to right. -/
theorem reads_account (text : Word → List UInt8) (words : List Word) :
    Reads text program options skipped words (account text false words) := by
  revert options skipped
  refine account_induction (motive := fun words items =>
    ∀ options skipped,
      Reads text program options skipped words items) ?_ ?_ ?_ ?_ ?_ words
  · intro options skipped
    obtain ⟨final, finished, atEnd⟩ := round_nil program options skipped
    exact ⟨final, .of_finished finished, fun _ => by simpa using atEnd⟩
  · intro word rest isOperand reads options skipped
    exact reads_operand program options skipped rest isOperand (reads _ _)
  · intro word rest isTerminator options skipped
    exact reads_terminator program options skipped rest isTerminator
  · intro word rest isOption notTerminator unsupplied options skipped
    exact reads_unknown program options skipped rest isOption notTerminator
      unsupplied
  · intro word rest lines value isOption notTerminator supplied reads options
      skipped
    exact reads_option program options skipped rest isOption notTerminator
      supplied (reads _ _)

end Rounds

/-! ## Every element once -/

/-- The element that a line prints, if it is a whole one. -/
def Line.elements : Line Word → List Word
  | .a (some (.element word)) => [word]
  | .c (some (.element word)) => [word]
  | _ => []

/-- The elements of the command line that an item takes as a value. -/
def Item.values : Item Word → List Word
  | .option _ _ value => value.toList
  | _ => []

/-- The last option of an element is one with an optional argument, and there is
none attached to it. -/
def LacksOptional (text : Word → List UInt8) (word : Word) : Prop :=
  (readElement (text word) : List (Line Word) × Need).2 = .optional

/-- The elements are those of the items, each of them once. An element that has
been taken by an option is printed by this option alone, and an optional
argument that is not attached is the element directly behind its option, if
there is one that does not begin with a hyphen. -/
structure Accounts (text : Word → List UInt8) (words : List Word)
    (items : List (Item Word)) :
    Prop where
  covered : items.flatMap Item.words = words
  printed : (items.flatMap Item.lines).flatMap Line.elements =
    items.flatMap Item.values
  optional : ∀ before word lines value after,
    items = before ++ .option word lines value :: after →
    LacksOptional text word →
    ∃ rest, words = before.flatMap Item.words ++ word :: rest ∧
      value = rest.head?.filter (fun next => (text next).head? ≠ some 45) ∧
      lines.getLast? = some (.c (value.map .element))

section Accounts

variable {text : Word → List UInt8} {word : Word} {rest : List Word}

/-- Short options print no element of the command line. -/
theorem elements_readShort (chars : List UInt8) :
    (readShort chars : List (Line Word) × Need).1.flatMap Line.elements =
      [] := by
  induction chars with
  | nil => rfl
  | cons c behind inductionHypothesis =>
      rw [readShort]
      split
      · simpa [Line.elements] using inductionHypothesis
      · split
        · split <;> rfl
        · split
          · split <;> rfl
          · rfl

/-- An element prints no other one. -/
theorem elements_readElement (string : List UInt8) :
    (readElement string : List (Line Word) × Need).1.flatMap Line.elements =
      [] := by
  rw [readElement]
  split
  · rw [readLong]
    split
    · rfl
    · split <;> rfl
    · split <;> rfl
    · split <;> rfl
  · exact elements_readShort _

/-- An element is printed exactly when it has been taken. -/
theorem elements_supply {need : Need} {lines : List (Line Word)}
    {value : Option Word}
    (supplied : supply text need rest = some (lines, value)) :
    lines.flatMap Line.elements = value.toList := by
  cases need with
  | nothing =>
      cases supplied
      rfl
  | required =>
      cases rest with
      | nil => cases supplied
      | cons next behind =>
          cases supplied
          rfl
  | optional =>
      cases rest with
      | nil =>
          cases supplied
          rfl
      | cons next behind =>
          rw [supply] at supplied
          split at supplied <;> cases supplied <;> rfl
  | unknown => cases supplied

/-- An optional argument is taken from the next element unless that begins with
a hyphen. -/
theorem supply_optional {lines : List (Line Word)} {value : Option Word}
    (supplied : supply text .optional rest = some (lines, value)) :
    value = rest.head?.filter (fun next => (text next).head? ≠ some 45) ∧
      lines = [.c (value.map .element)] := by
  cases rest with
  | nil =>
      cases supplied
      exact ⟨rfl, rfl⟩
  | cons next behind =>
      rw [supply] at supplied
      split at supplied
      · rename_i hyphen
        cases supplied
        exact ⟨by simp [Option.filter, hyphen], rfl⟩
      · rename_i noHyphen
        cases supplied
        exact ⟨by simp [Option.filter, noHyphen], rfl⟩

namespace Accounts

theorem nil : Accounts text ([] : List Word) [] :=
  ⟨rfl, rfl, fun before _ _ _ _ items => by simp at items⟩

/-- One item in front of others. -/
theorem cons {items : List (Item Word)} {words : List Word}
    (accounts : Accounts text words items) (item : Item Word)
    (printed : item.lines.flatMap Line.elements = item.values)
    (optional : ∀ word lines value, item = .option word lines value →
      LacksOptional text word →
      ∃ rest, item.words ++ words = word :: rest ∧
        value = rest.head?.filter (fun next => (text next).head? ≠ some 45) ∧
        lines.getLast? = some (.c (value.map .element))) :
    Accounts text (item.words ++ words) (item :: items) where
  covered := by rw [List.flatMap_cons, accounts.covered]
  printed := by
    rw [List.flatMap_cons, List.flatMap_append, printed, accounts.printed,
      List.flatMap_cons]
  optional := by
    intro before word lines value after split lacks
    cases before with
    | nil =>
        cases split
        exact optional word lines value rfl lacks
    | cons first before =>
        cases split
        obtain ⟨rest, place, taken⟩ :=
          accounts.optional before word lines value after rfl lacks
        exact ⟨rest, by rw [place, List.flatMap_cons, List.append_assoc], taken⟩

end Accounts

/-- Operands account for themselves. -/
theorem accounts_operands (words : List Word) :
    Accounts text words (words.map .operand) := by
  induction words with
  | nil => exact .nil
  | cons word rest inductionHypothesis =>
      exact inductionHypothesis.cons (.operand word) rfl fun _ _ _ isOption =>
        by cases isOption

/-- An element with options and its value. -/
theorem accounts_option {lines : List (Line Word)} {value : Option Word}
    {items : List (Item Word)}
    (supplied : supply text
      (readElement (text word) : List (Line Word) × Need).2 rest =
      some (lines, value))
    (accounts : Accounts text (rest.drop value.toList.length) items) :
    Accounts text (word :: rest)
      (.option word ((readElement (text word)).1 ++ lines) value :: items) := by
  have split := take_of_supply rest supplied
  have printed : ((readElement (text word)).1 ++ lines).flatMap Line.elements =
      value.toList := by
    rw [List.flatMap_append, elements_readElement, elements_supply supplied]
    rfl
  have whole :=
    accounts.cons
      (.option word ((readElement (text word)).1 ++ lines) value) printed ?_
  · simpa [Item.words, Item.options, Item.operands, ← split] using whole
  · rintro _ _ _ isOption lacks
    cases isOption
    unfold LacksOptional at lacks
    rw [lacks] at supplied
    obtain ⟨taken, last⟩ := supply_optional supplied
    refine ⟨rest, ?_, taken, ?_⟩
    · simpa [Item.words, Item.options, Item.operands] using split.symm
    · rw [last, List.getLast?_concat]

/-- Without unknown options every element is accounted for. -/
theorem accounts_account (words : List Word) :
    (∀ item ∈ account text false words, item.Known) →
      Accounts text words (account text false words) := by
  refine account_induction (motive := fun words items =>
    (∀ item ∈ items, item.Known) →
      Accounts text words items) ?_ ?_ ?_ ?_ ?_ words
  · exact fun _ => .nil
  · intro word rest _ accounts known
    exact (accounts (List.forall_mem_cons.mp known).2).cons (.operand word) rfl
      fun _ _ _ isOption => by cases isOption
  · intro word rest _ _
    exact (accounts_operands rest).cons (.terminator word) rfl
      fun _ _ _ isOption => by cases isOption
  · intro word rest _ _ _ known
    exact (known _ (List.mem_singleton_self _)).elim
  · intro word rest lines value _ _ supplied accounts known
    exact accounts_option supplied (accounts (List.forall_mem_cons.mp known).2)

end Accounts

/-- For every command line without unknown options the loop prints the lines of
its items in order, and it leaves the options in front of the operands, which
`optind` points at. -/
theorem ends_initial (text : Word → List UInt8) (argv : List Word)
    (known : ∀ item ∈ account text false argv.tail, item.Known) :
    Accounts text argv.tail (account text false argv.tail) ∧
      ∃ final, Ends text (initial argv)
        ((account text false argv.tail).flatMap Item.lines) final ∧
        final.argv =
          argv.take 1 ++ ((account text false argv.tail).flatMap Item.options ++
            (account text false argv.tail).flatMap Item.operands) ∧
        final.optind =
          1 + ((account text false argv.tail).flatMap Item.options).length := by
  refine ⟨accounts_account argv.tail known, ?_⟩
  cases argv with
  | nil => exact ⟨initial [], .of_finished rfl, rfl, rfl⟩
  | cons program words =>
      obtain ⟨final, ends, finished⟩ := reads_account program [] [] text words
      obtain ⟨arranged, position⟩ := finished known
      exact ⟨final, ends, by simpa using arranged, by simpa using position⟩

/-- A command line with everything that the program knows. -/
def sample : List (List UInt8) :=
  ["getopt", "in", "-bc", "x", "--aa=1", "-", "-a", "-b", "--ccc", "-c2", "-c", "", "--", "-c"].map
    CString.ofString

/-- A command line with options, operands and a value. -/
theorem ends_initial_sample :
    (∀ item ∈ account id false sample.tail, item.Known) ∧
      Accounts id sample.tail (account id false sample.tail) ∧
      ∃ final, Ends id (initial sample)
        ((account id false sample.tail).flatMap Item.lines) final ∧
        final.argv =
          sample.take 1 ++
            ((account id false sample.tail).flatMap Item.options ++
              (account id false sample.tail).flatMap Item.operands) ∧
        final.optind =
          1 + ((account id false sample.tail).flatMap Item.options).length :=
  ⟨by decide, ends_initial id sample (by decide)⟩

example : (account id false sample.tail).flatMap Item.operands =
    ["in", "-", "-c"].map CString.ofString := by
  decide

end Getopt
end LinuxCPractice
