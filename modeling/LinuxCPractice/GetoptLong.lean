import LinuxCPractice.CString

/-!
# Scanning command lines

`getopt_long` as the C library has it, with elements of `argv` that are permuted
so that the ones that are no options come last. It keeps the range of the
elements that it has skipped and, when more options have been found behind them,
exchanges the two ranges on its next call. Whatever has been added to `optind`
since then belongs to the options.

An element is a pointer. Its string is given by a function, and `argc` is the
length of `argv`.
-/

namespace LinuxCPractice
namespace GetoptLong

/-- Whether an option takes an argument. -/
inductive HasArg
  | no_argument
  | required_argument
  | optional_argument
  deriving DecidableEq

/-- An entry of the table of long options whose `flag` is null. -/
structure LongOption where
  name : List UInt8
  has_arg : HasArg
  val : UInt8
  deriving DecidableEq

/-- What `optarg` points at: the rest of an element or a whole one. -/
inductive Argument (Word : Type)
  | attached (string : List UInt8)
  | element (word : Word)
  deriving DecidableEq

/-- The variables of the scan. The string at `nextchar` is empty when the
pointer is null. -/
@[ext] structure State (Word : Type) where
  argv : List Word
  optind : Nat
  optarg : Option (Argument Word)
  nextchar : List UInt8
  first_nonopt : Nat
  last_nonopt : Nat

variable {Word : Type}

/-- The state before the first call. -/
def initial (argv : List Word) : State Word := ⟨argv, 1, none, [], 1, 1⟩

/-- An element that is no option: it does not begin with a hyphen or is nothing
else. -/
def isNonoption (string : List UInt8) : Bool :=
  string.head? ≠ some 45 || string.tail = []

/-- Whether a character of the option string takes an argument, if it is one of
them. -/
def shortOption (optstring : List UInt8) (c : UInt8) : Option HasArg :=
  match optstring.dropWhile (· ≠ c) with
  | [] => none
  | _ :: behind =>
      if c = 58 ∨ c = 59 then none
      else if behind.head? ≠ some 58 then some .no_argument
      else if behind.tail.head? ≠ some 58 then some .required_argument
      else some .optional_argument

/-- The long option of a name: the one that has it, or one that begins with it,
if there are not several different ones. -/
def findLong (longopts : List LongOption)
    (name : List UInt8) : Option LongOption :=
  match longopts.find? (·.name = name) with
  | some p => some p
  | none =>
      match longopts.filter (name.isPrefixOf ·.name) with
      | [] => none
      | p :: others =>
          if others.all fun q => q.has_arg = p.has_arg && q.val = p.val then
            some p else none

/-- Exchange the skipped elements with the options behind them. -/
def exchange (state : State Word) : State Word :=
  let front := state.argv.take state.first_nonopt
  let nonopts := (state.argv.take state.last_nonopt).drop state.first_nonopt
  let options := (state.argv.take state.optind).drop state.last_nonopt
  { state with
    argv := front ++ options ++ nonopts ++ state.argv.drop state.optind
    first_nonopt := state.first_nonopt + (state.optind - state.last_nonopt)
    last_nonopt := state.optind }

/-- Bring the options found last in front of the skipped elements. -/
def arrange (state : State Word) : State Word :=
  let last := min state.last_nonopt state.optind
  let first := min state.first_nonopt state.optind
  let state := { state with first_nonopt := first, last_nonopt := last }
  if first ≠ last ∧ last ≠ state.optind then exchange state
  else if last ≠ state.optind then { state with first_nonopt := state.optind }
  else state

/-- Skip the elements that are no options. -/
def skip (text : Word → List UInt8) (state : State Word) : State Word :=
  let skipped := (state.argv.drop state.optind).takeWhile fun word =>
    isNonoption (text word)
  { state with
    optind := state.optind + skipped.length
    last_nonopt := state.optind + skipped.length }

/-- At the element `--` everything behind it is skipped. -/
def terminate (state : State Word) : State Word :=
  let state := { state with optind := state.optind + 1 }
  let state :=
    if state.first_nonopt ≠ state.last_nonopt ∧
      state.last_nonopt ≠ state.optind then
      exchange state
    else if state.first_nonopt = state.last_nonopt then
      { state with first_nonopt := state.optind }
    else state
  { state with last_nonopt := state.argv.length, optind := state.argv.length }

/-- The end of the scan, with `optind` at the elements that are no options. -/
def finish (state : State Word) : State Word :=
  if state.first_nonopt ≠ state.last_nonopt then
    { state with optind := state.first_nonopt }
  else state

/-- Leave the element at hand, with an argument for the option found last. -/
def leave (state : State Word) (optarg : Option (Argument Word))
    (optind : Nat) : State Word :=
  { state with optarg := optarg, optind := optind, nextchar := [] }

/-- The next character of an element with short options. -/
def shortStep (optstring : List UInt8) (state : State Word) :
    Option (State Word × UInt8) :=
  match state.nextchar with
  | [] => none
  | c :: behind =>
      let optind := if behind = [] then state.optind + 1 else state.optind
      match shortOption optstring c with
      | none => some ({ state with nextchar := behind, optind := optind }, 63)
      | some .no_argument =>
          some ({ state with nextchar := behind, optind := optind }, c)
      | some .optional_argument =>
          if behind ≠ [] then
            some (leave state (some (.attached behind)) (optind + 1), c)
          else some (leave state none optind, c)
      | some .required_argument =>
          if behind ≠ [] then
            some (leave state (some (.attached behind)) (optind + 1), c)
          else if optind = state.argv.length then
            some (leave state none optind, 63)
          else
            (state.argv[optind]?).map fun word =>
              (leave state (some (.element word)) (optind + 1), c)

/-- An element with a long option, from behind its two hyphens on. -/
def longStep (longopts : List LongOption) (string : List UInt8)
    (state : State Word) :
    Option (State Word × UInt8) :=
  let name := string.takeWhile (· ≠ 61)
  let nameend := string.dropWhile (· ≠ 61)
  let optind := state.optind + 1
  match findLong longopts name with
  | none => some (leave state none optind, 63)
  | some p =>
      if nameend ≠ [] then
        if p.has_arg ≠ .no_argument then
          some (leave state (some (.attached nameend.tail)) optind, p.val)
        else some (leave state none optind, 63)
      else if p.has_arg = .required_argument then
        if optind < state.argv.length then
          (state.argv[optind]?).map fun word =>
            (leave state (some (.element word)) (optind + 1), p.val)
        else some (leave state none optind, 63)
      else some (leave state none optind, p.val)

/-- A call that has come to the next element. -/
def elementStep (text : Word → List UInt8) (optstring : List UInt8)
    (longopts : List LongOption)
    (state : State Word) : Option (State Word × Option UInt8) :=
  if state.optind = state.argv.length then some (finish state, none)
  else
    (state.argv[state.optind]?).bind fun word =>
      if text word = [45, 45] then some (finish (terminate state), none)
      else if (text word).tail.head? = some 45 then
        (longStep longopts ((text word).drop 2) state).map fun found =>
          (found.1, some found.2)
      else
        (shortStep optstring { state with nextchar := (text word).tail }).map
          fun found => (found.1, some found.2)

/-- One call. The result is the option found, a question mark for an unknown one
and `none` at the end. There is no result when `argv` is read behind its
elements. -/
def getoptLong (text : Word → List UInt8) (optstring : List UInt8)
    (longopts : List LongOption)
    (state : State Word) : Option (State Word × Option UInt8) :=
  if state.argv.length < 1 then some (state, none)
  else
    let state := { state with optarg := none }
    if state.nextchar = [] then
      elementStep text optstring longopts (skip text (arrange state))
    else (shortStep optstring state).map fun found => (found.1, some found.2)

/-! ## Between two elements -/

/-- The state between two elements, by the options behind which the skipped
elements stand already, the skipped elements, the options found behind them and
what is left. -/
def between (program : Word) (options skipped found rest : List Word)
    (optarg : Option (Argument Word)) : State Word where
  argv := program :: (options ++ skipped ++ found ++ rest)
  optind := 1 + options.length + skipped.length + found.length
  optarg := optarg
  nextchar := []
  first_nonopt := 1 + options.length
  last_nonopt := 1 + options.length + skipped.length

section Between

variable (program : Word) (options skipped found rest : List Word)
  (optarg : Option (Argument Word)) (text : Word → List UInt8)

/-- `optind` stands behind the options found last. -/
theorem optind_between :
    (between program options skipped found rest optarg).optind =
      (program :: options ++ skipped ++ found).length := by
  simp only [between, List.length_append, List.length_cons]
  omega

/-- The elements in their order. -/
theorem argv_between :
    (between program options skipped found rest optarg).argv =
      program :: options ++ skipped ++ found ++ rest := rfl

/-- What is left starts at `optind`. -/
theorem drop_between :
    (between program options skipped found rest optarg).argv.drop
      (between program options skipped found rest optarg).optind = rest := by
  rw [optind_between, argv_between, List.drop_left]

/-- The two ranges change places. -/
theorem exchange_between :
    exchange (between program options skipped found rest optarg) =
      between program (options ++ found) skipped [] rest optarg := by
  have first :
      (between program options skipped found rest optarg).first_nonopt =
      (program :: options).length := by
    simp only [between, List.length_cons]
    omega
  have last : (between program options skipped found rest optarg).last_nonopt =
      (program :: options ++ skipped).length := by
    simp only [between, List.length_append, List.length_cons]
    omega
  have front : (program :: options ++ skipped ++ found ++ rest).take
      (program :: options).length = program :: options := by
    rw [List.append_assoc, List.append_assoc, List.take_left]
  have nonopts : ((program :: options ++ skipped ++ found ++ rest).take
      (program :: options ++ skipped).length).drop (program :: options).length =
        skipped := by
    rw [List.append_assoc _ found, List.take_left, List.drop_left]
  have later : ((program :: options ++ skipped ++ found ++ rest).take
      (program :: options ++ skipped ++ found).length).drop
        (program :: options ++ skipped).length = found := by
    rw [List.take_left, List.drop_left]
  ext1
  · simp only [exchange, drop_between]
    rw [argv_between, first, last, optind_between, front, nonopts, later]
    simp [between]
  · simp only [exchange, between, List.length_append, List.length_nil]
    omega
  · rfl
  · rfl
  · simp only [exchange, between, List.length_append]
    omega
  · simp only [exchange, between, List.length_append]
    omega

/-- The options found last come to the others. -/
theorem arrange_between :
    ∃ last, arrange (between program options skipped found rest optarg) =
      { between program (options ++ found) skipped [] rest optarg with
          last_nonopt := last } := by
  have ordered :
      min (between program options skipped found rest optarg).last_nonopt
      (between program options skipped found rest optarg).optind =
        (between program options skipped found rest optarg).last_nonopt := by
    simp only [between]
    omega
  have orderedFirst :
      min (between program options skipped found rest optarg).first_nonopt
      (between program options skipped found rest optarg).optind =
        (between program options skipped found rest optarg).first_nonopt := by
    simp only [between]
    omega
  simp only [arrange, ordered, orderedFirst]
  split
  · exact ⟨_, exchange_between program options skipped found rest optarg⟩
  · rename_i oneEmpty
    cases found with
    | nil => exact ⟨1 + options.length + skipped.length, by simp [between]⟩
    | cons word found =>
        cases skipped with
        | nil => exact ⟨1 + options.length, by simp [between, Nat.add_assoc]⟩
        | cons other skipped => simp [between] at oneEmpty

/-- A call brings the options found last to the others and skips what follows
them. -/
theorem skip_arrange_between :
    skip text (arrange (between program options skipped found rest optarg)) =
      between program (options ++ found)
        (skipped ++ rest.takeWhile fun word => isNonoption (text word)) []
        (rest.dropWhile fun word => isNonoption (text word)) optarg := by
  obtain ⟨last, arranged⟩ :=
    arrange_between program options skipped found rest optarg
  have left := drop_between program (options ++ found) skipped [] rest optarg
  rw [arranged]
  simp only [skip, left]
  ext1
  · simp [between]
  · simp only [between, List.length_append, List.length_nil]
    omega
  · rfl
  · rfl
  · rfl
  · simp only [between, List.length_append, List.length_nil]
    omega

/-- What a call does depends on the order of the elements alone. -/
theorem getoptLong_between (optstring : List UInt8)
    (longopts : List LongOption) :
    getoptLong text optstring longopts
        (between program options skipped found rest optarg) =
      elementStep text optstring longopts (between program (options ++ found)
        (skipped ++ rest.takeWhile fun word => isNonoption (text word)) []
        (rest.dropWhile fun word => isNonoption (text word)) none) := by
  have some_argv :
      ¬(between program options skipped found rest optarg).argv.length < 1 := by
    simp [between]
  rw [getoptLong, if_neg some_argv]
  refine (if_pos rfl).trans ?_
  exact congrArg (elementStep text optstring longopts)
    (skip_arrange_between program options skipped found rest none text)

/-- Moving `optind` past elements makes them options found. -/
theorem leave_between (chars : List UInt8) (value : Option (Argument Word)) :
    leave { between program options skipped [] (found ++ rest) optarg with
        nextchar := chars } value
        (1 + options.length + skipped.length + found.length) =
      between program options skipped found rest value := by
  simp [leave, between]

/-- The scan has come to its end and left the elements that are no options
behind. -/
structure Finished (operands : List Word) (state : State Word) : Prop where
  argv : state.argv = program :: (options ++ operands)
  optind : state.optind = 1 + options.length

omit skipped found rest optarg text in
/-- The scan ends in front of the operands. -/
theorem finished_finish {state : State Word} {operands : List Word}
    (argv : state.argv = program :: (options ++ operands))
    (first : state.first_nonopt = 1 + options.length)
    (last : state.last_nonopt = state.optind) :
    Finished program options operands (finish state) := by
  unfold finish
  split
  · exact ⟨argv, first⟩
  · rename_i same
    exact ⟨argv, by rw [← last, ← not_not.mp same, first]⟩

/-- The element `--` stands behind the options as if it were one. -/
theorem finished_terminate_between (word : Word) :
    Finished program (options ++ [word]) (skipped ++ rest)
      (finish (terminate (between program options skipped []
        (word :: rest) optarg))) := by
  have next : { between program options skipped [] (word :: rest) optarg with
      optind :=
        (between program options skipped []
          (word :: rest) optarg).optind + 1 } =
        between program options skipped [word] rest optarg := by
    simp [between]
  apply finished_finish
  · rw [terminate, next]
    cases skipped with
    | nil => simp [between]
    | cons other skipped =>
        rw [exchange_between]
        simp [between]
  · rw [terminate, next]
    cases skipped with
    | nil => simp [between, Nat.add_assoc]
    | cons other skipped =>
        rw [exchange_between]
        simp [between]
  · rfl

/-- The element at `optind` is the first one that is left. -/
theorem getElem?_between :
    (between program options skipped found rest optarg).argv[
      (between program options skipped found rest optarg).optind]? =
        rest.head? := by
  rw [← List.head?_drop, drop_between]

theorem optind_between_lt_iff :
    (between program options skipped found rest optarg).optind <
      (between program options skipped found rest optarg).argv.length ↔
        rest ≠ [] := by
  rw [optind_between, argv_between, ← List.length_pos_iff]
  simp only [List.length_append]
  omega

theorem optind_between_eq_iff :
    (between program options skipped found rest optarg).optind =
      (between program options skipped found rest optarg).argv.length ↔
        rest = [] := by
  rw [optind_between, argv_between, ← List.length_eq_zero_iff]
  simp only [List.length_append]
  omega

/-- Behind the element at `optind` comes what is left behind it. -/
theorem getElem?_between_succ (word : Word) :
    (between program options skipped [] (word :: rest) optarg).argv[
      (between program options skipped [] (word :: rest) optarg).optind + 1]? =
        rest.head? := by
  have next := getElem?_between program options skipped [word] rest optarg
  simpa [between] using next

theorem optind_between_succ_eq_iff (word : Word) :
    (between program options skipped [] (word :: rest) optarg).optind + 1 =
      (between program options skipped [] (word :: rest) optarg).argv.length ↔
        rest = [] := by
  have next := optind_between_eq_iff program options skipped [word] rest optarg
  simpa [between] using next

theorem optind_between_succ_lt_iff (word : Word) :
    (between program options skipped [] (word :: rest) optarg).optind + 1 <
      (between program options skipped [] (word :: rest) optarg).argv.length ↔
        rest ≠ [] := by
  have next := optind_between_lt_iff program options skipped [word] rest optarg
  simpa [between] using next

/-! ## Calls -/

variable (optstring : List UInt8) (longopts : List LongOption)

/-- The options found last may as well stand with the others already. -/
theorem getoptLong_found :
    getoptLong text optstring longopts
        (between program options skipped found rest optarg) =
      getoptLong text optstring longopts
        (between program (options ++ found) skipped [] rest none) := by
  rw [getoptLong_between, getoptLong_between, List.append_nil]

/-- An operand may as well have been skipped already. -/
theorem getoptLong_operand {word : Word}
    (isOperand : isNonoption (text word) = true) :
    getoptLong text optstring longopts
        (between program options skipped [] (word :: rest) none) =
      getoptLong text optstring longopts
        (between program options (skipped ++ [word]) [] rest none) := by
  rw [getoptLong_between, getoptLong_between]
  simp [isOperand]

/-- When no element is left the scan comes to its end. -/
theorem getoptLong_nil :
    getoptLong text optstring longopts
        (between program options skipped [] [] none) =
      some (finish (between program options skipped [] [] none), none) := by
  have atEnd :=
    (optind_between_eq_iff program options skipped [] [] none).mpr rfl
  rw [getoptLong_between]
  simp [elementStep, atEnd]

/-- A call that comes to an element with options. -/
theorem getoptLong_element {word : Word}
    (isOption : isNonoption (text word) = false) :
    getoptLong text optstring longopts
        (between program options skipped [] (word :: rest) none) =
      if text word = [45, 45] then
        some (finish (terminate
          (between program options skipped [] (word :: rest) none)), none)
      else if (text word).tail.head? = some 45 then
        (longStep longopts ((text word).drop 2)
          (between program options skipped [] (word :: rest) none)).map
            fun found => (found.1, some found.2)
      else
        (shortStep optstring
          { between program options skipped [] (word :: rest) none with
            nextchar := (text word).tail }).map
              fun found => (found.1, some found.2) := by
  have notEnd :
      ¬(between program options skipped [] (word :: rest) none).optind =
      (between program options skipped [] (word :: rest) none).argv.length := by
    rw [optind_between_eq_iff]
    simp
  have first := getElem?_between program options skipped [] (word :: rest) none
  rw [getoptLong_between]
  simp [isOption, elementStep, notEnd, first]

end Between

/-- The state within an element, with characters of it left. -/
def within (program : Word) (options skipped : List Word) (word : Word)
    (rest : List Word) (nextchar : List UInt8) : State Word :=
  { between program options skipped [] (word :: rest) none with
    nextchar := nextchar }

/-- A call within an element takes its next character. -/
theorem getoptLong_within (program : Word) (options skipped rest : List Word)
    (text : Word → List UInt8) (optstring : List UInt8)
    (longopts : List LongOption) (word : Word) {chars : List UInt8}
    (more : chars ≠ []) :
    getoptLong text optstring longopts
        (within program options skipped word rest chars) =
      (shortStep optstring (within program options skipped word rest chars)).map
        fun found => (found.1, some found.2) := by
  have some_argv :
      ¬(within program options skipped word rest chars).argv.length < 1 := by
    simp [within, between]
  rw [getoptLong, if_neg some_argv]
  exact if_neg more

/-! ## Without long options -/

/-- A call of `getopt` that has come to the next element. Two hyphens at its
start mean nothing to it. -/
def shortElementStep (text : Word → List UInt8) (optstring : List UInt8)
    (state : State Word) :
    Option (State Word × Option UInt8) :=
  if state.optind = state.argv.length then some (finish state, none)
  else
    (state.argv[state.optind]?).bind fun word =>
      if text word = [45, 45] then some (finish (terminate state), none)
      else
        (shortStep optstring { state with nextchar := (text word).tail }).map
          fun found => (found.1, some found.2)

/-- One call of `getopt`. -/
def getopt (text : Word → List UInt8) (optstring : List UInt8)
    (state : State Word) :
    Option (State Word × Option UInt8) :=
  if state.argv.length < 1 then some (state, none)
  else
    let state := { state with optarg := none }
    if state.nextchar = [] then
      shortElementStep text optstring (skip text (arrange state))
    else (shortStep optstring state).map fun found => (found.1, some found.2)

section Short

variable {text : Word → List UInt8} {optstring : List UInt8} (program : Word)
  (options skipped found rest : List Word) (optarg : Option (Argument Word))

/-- What a call of `getopt` does depends on the order of the elements alone. -/
theorem getopt_between (text : Word → List UInt8) (optstring : List UInt8) :
    getopt text optstring (between program options skipped found rest optarg) =
      shortElementStep text optstring (between program (options ++ found)
        (skipped ++ rest.takeWhile fun word => isNonoption (text word)) []
        (rest.dropWhile fun word => isNonoption (text word)) none) := by
  have some_argv :
      ¬(between program options skipped found rest optarg).argv.length < 1 := by
    simp [between]
  rw [getopt, if_neg some_argv]
  refine (if_pos rfl).trans ?_
  exact congrArg (shortElementStep text optstring)
    (skip_arrange_between program options skipped found rest none text)

/-- At the last element the scan ends. -/
theorem getopt_nil (text : Word → List UInt8) (optstring : List UInt8) :
    ∃ final, getopt text optstring
      (between program options [] found [] optarg) =
      some (final, none) := by
  have atEnd :=
    (optind_between_eq_iff program (options ++ found) [] [] [] none).mpr rfl
  rw [getopt_between]
  simp [shortElementStep, atEnd]

/-- A call that comes to an element with short options. -/
theorem getopt_element {word : Word}
    (isOption : isNonoption (text word) = false)
    (notTerminator : text word ≠ [45, 45]) :
    getopt text optstring
      (between program options [] found (word :: rest) optarg) =
      (shortStep optstring
        { between program (options ++ found) [] [] (word :: rest) none with
          nextchar := (text word).tail }).map fun result => (result.1,
            some result.2) := by
  have notEnd :
      ¬(between program (options ++ found) [] [] (word :: rest) none).optind =
      (between program (options ++ found) [] []
        (word :: rest) none).argv.length := by
    rw [optind_between_eq_iff]
    simp
  have first :=
    getElem?_between program (options ++ found) [] [] (word :: rest) none
  rw [getopt_between]
  simp [isOption, shortElementStep, notEnd, first, notTerminator]

variable {c : UInt8} {word : Word}

/-- The last character of an element, for an option without an argument. -/
theorem shortStep_flag (flag : shortOption optstring c = some .no_argument) :
    shortStep optstring
        { between program options skipped [] (word :: rest) none with
            nextchar := [c] } =
      some (between program options skipped [word] rest none, c) := by
  simp only [shortStep, flag, if_true]
  simp [between]

/-- The rest of an element is the argument. -/
theorem shortStep_attached {behind : List UInt8}
    (takes : shortOption optstring c = some .required_argument ∨
      shortOption optstring c = some .optional_argument) (more : behind ≠ []) :
    shortStep optstring
        { between program options skipped [] (word :: rest) none with
          nextchar := c :: behind } =
      some (between program options skipped [word] rest
        (some (.attached behind)), c) := by
  have left := leave_between program options skipped [word] rest none
    (c :: behind)
    (some (.attached behind))
  rcases takes with takes | takes
  · simp only [shortStep, takes, if_neg more, if_pos more]
    exact congrArg (fun state => some (state, c)) left
  · simp only [shortStep, takes, if_neg more, if_pos more]
    exact congrArg (fun state => some (state, c)) left

/-- The next element is the argument. -/
theorem shortStep_element
    (takes : shortOption optstring c = some .required_argument)
    (value : Word) :
    shortStep optstring
        { between program options skipped [] (word :: value :: rest) none with
          nextchar := [c] } =
      some (between program options skipped [word, value] rest
        (some (.element value)), c) := by
  have left := leave_between program options skipped [word, value] rest none [c]
    (some (.element value))
  have next :=
    getElem?_between_succ program options skipped (value :: rest) none word
  have notEnd :=
    mt (optind_between_succ_eq_iff program options skipped (value :: rest) none
      word).mp (List.cons_ne_nil value rest)
  simp only [shortStep, takes, if_true, if_neg notEnd, next, ne_eq,
    not_true_eq_false, if_false, List.head?_cons, Option.map_some]
  exact congrArg (fun state => some (state, c)) left

end Short

/-- A long option that is found is in the table. -/
theorem mem_of_findLong {longopts : List LongOption} {name : List UInt8}
    {p : LongOption}
    (found : findLong longopts name = some p) : p ∈ longopts := by
  unfold findLong at found
  split at found
  · rename_i exact isExact
    cases found
    exact List.mem_of_find?_eq_some isExact
  · split at found
    · cases found
    · rename_i first others matching
      split at found
      · cases found
        exact List.mem_of_mem_filter (matching ▸ List.mem_cons_self)
      · cases found

end GetoptLong
end LinuxCPractice
