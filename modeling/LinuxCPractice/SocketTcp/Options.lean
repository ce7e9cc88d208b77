import LinuxCPractice.CharArray
import LinuxCPractice.GetoptLong
import LinuxCPractice.SocketTcp.Defs

/-!
# The options of the file server

`main` in `socket_tcp.c`. The argument of an option is copied into the array of
the option, which may hold an earlier argument by then. What is left in the
three arrays when the loop over the options has come to its end decides what
`main` does.
-/

namespace LinuxCPractice
namespace SocketTcp
namespace Options

open GetoptLong

/-- The option string of `main`. -/
def optstring : List UInt8 := CString.ofString "hcp:d:f:"

/-- Size of `port` -/
def portSize : Nat := 32

/-- The variables of `main` that the options set. -/
structure Settings where
  isServer : Bool
  port : CharArray portSize
  data : CharArray bufSize
  file : CharArray bufSize

/-- The variables before the loop, all three arrays cleared. -/
def Settings.start : Settings where
  isServer := true
  port := .zeroed portSize
  data := .zeroed bufSize
  file := .zeroed bufSize

/-- An option that the loop has taken, with the argument it has copied. -/
inductive Taken (Word : Type)
  | c
  | p (optarg : Argument Word)
  | d (optarg : Argument Word)
  | f (optarg : Argument Word)
  deriving DecidableEq

/-- The messages `main` ends with. -/
inductive Message
  | readTheSourceCode
  | unknownArgument
  | specifyPortNumber
  | specifyFile
  | specifyData
  deriving DecidableEq

/-- The argument of `perror`, which prints the text of `errno` behind it. -/
def Message.text : Message → String
  | .readTheSourceCode => "read the source code\n"
  | .unknownArgument => "unknown argument\n"
  | .specifyPortNumber => "specify port number\n"
  | .specifyFile => "specify file\n"
  | .specifyData => "specify data\n"

/-- The texts tell the messages apart. -/
theorem Message.text_injective : Function.Injective Message.text := by
  intro message other same
  cases message <;> cases other <;>
    first | rfl | exact absurd same (by decide)

/-- How the loop is left: at its end, by `exit` at the option `h` or by `return`
at an unknown one. -/
inductive Ending
  | finished (settings : Settings)
  | help
  | unknown

/-- What a round of the loop comes to. -/
inductive Round (Word : Type)
  | taken (option : Taken Word) (settings : Settings) (state : State Word)
  | left (ending : Ending)

variable {Word : Type} (text : Word → List UInt8)

/-- The string `optarg` points at. -/
def string : Argument Word → List UInt8
  | .attached string => string
  | .element word => text word

/-- What an option does to the variables. -/
def Settings.take (settings : Settings) : Taken Word → Settings
  | .c => { settings with isServer := false }
  | .p optarg =>
      { settings with
        port := settings.port.strncpy (string text optarg) (portSize - 1)
          (Nat.sub_le _ _) }
  | .d optarg =>
      { settings with
        data := settings.data.strncpy (string text optarg) (bufSize - 1)
          (Nat.sub_le _ _) }
  | .f optarg =>
      { settings with
        file := settings.file.strncpy (string text optarg) (bufSize - 1)
          (Nat.sub_le _ _) }

/-- One round: the next option, and what is done for it. There is no result when
`argv` is read behind its elements or a null pointer is copied from. -/
def round (settings : Settings) (state : State Word) : Option (Round Word) := do
  let (state, option) ← getopt text optstring state
  match option with
  | none => some (.left (.finished settings))
  | some option =>
      if option = 104 then some (.left .help)
      else if option = 99 then
        some (.taken .c (settings.take text (.c : Taken Word)) state)
      else if option = 112 then
        state.optarg.map fun optarg =>
          .taken (.p optarg) (settings.take text (.p optarg)) state
      else if option = 100 then
        state.optarg.map fun optarg =>
          .taken (.d optarg) (settings.take text (.d optarg)) state
      else if option = 102 then
        state.optarg.map fun optarg =>
          .taken (.f optarg) (settings.take text (.f optarg)) state
      else some (.left .unknown)

/-- The loop with at most `fuel` rounds, with the options it has taken and how
it is left. -/
def loop : Nat → Settings → State Word → Option (List (Taken Word) × Ending)
  | 0, _, _ => none
  | fuel + 1, settings, state => do
      match ← round text settings state with
      | .left ending => some ([], ending)
      | .taken option settings state => do
          let (options, ending) ← loop fuel settings state
          some (option :: options, ending)

/-- `main` ends with a message and a status, or calls one of the two
functions. -/
inductive Outcome
  | ended (message : Message) (status : Nat)
  | workAsServer (port filePath : List UInt8)
  | workAsClient (port data : List UInt8)
  deriving DecidableEq

/-- `main` behind its loop. -/
def dispatch (settings : Settings) : Outcome :=
  if CString.strlen settings.port.bytes = 0 then .ended .specifyPortNumber 1
  else if settings.isServer then
    if CString.strlen settings.file.bytes = 0 then .ended .specifyFile 1
    else .workAsServer settings.port.text settings.file.text
  else if CString.strlen settings.data.bytes = 0 then .ended .specifyData 1
  else .workAsClient settings.port.text settings.data.text

/-- `main`, with at most `fuel` rounds of its loop. -/
def main (fuel : Nat) (argv : List Word) : Option Outcome :=
  (loop text fuel .start (initial argv)).map fun (_, ending) =>
    match ending with
    | .help => .ended .readTheSourceCode 0
    | .unknown => .ended .unknownArgument 2
    | .finished settings => dispatch settings

/-! ## The arguments of one option -/

namespace Taken

/-- Whether the option is `c`. -/
def c? : Taken Word → Bool
  | .c => true
  | _ => false

/-- The argument of the option `p`. -/
def p? : Taken Word → Option (Argument Word)
  | .p optarg => some optarg
  | _ => none

/-- The argument of the option `d`. -/
def d? : Taken Word → Option (Argument Word)
  | .d optarg => some optarg
  | _ => none

/-- The argument of the option `f`. -/
def f? : Taken Word → Option (Argument Word)
  | .f optarg => some optarg
  | _ => none

end Taken

/-- The string of the last argument that is one of the options selected. It is
empty if there is none. -/
def lastArgument (select : Taken Word → Option (Argument Word))
    (options : List (Taken Word)) :
    List UInt8 :=
  match (options.filterMap select).getLast? with
  | none => []
  | some optarg => CString.text (string text optarg)

/-! ## Rounds -/

section Rounds

variable {text : Word → List UInt8} {settings next : Settings}
  {past options : List (Taken Word)}
  {option : Taken Word}

/-- One option more is the last one if it is selected. -/
theorem lastArgument_concat (select : Taken Word → Option (Argument Word))
    (past : List (Taken Word)) (option : Taken Word) :
    lastArgument text select (past ++ [option]) =
      match select option with
      | none => lastArgument text select past
      | some optarg => CString.text (string text optarg) := by
  cases selected : select option with
  | none =>
      rw [lastArgument, List.filterMap_append,
        List.filterMap_cons_none selected, List.filterMap_nil, List.append_nil]
      rfl
  | some optarg =>
      rw [lastArgument, List.filterMap_append,
        List.filterMap_cons_some selected,
        List.filterMap_nil, List.getLast?_append]
      rfl

/-- The variables behind some options. -/
structure Settings.Keeps (text : Word → List UInt8) (settings : Settings)
    (past : List (Taken Word)) : Prop where
  isServer : settings.isServer = !past.any Taken.c?
  port : settings.port.Holds ((lastArgument text Taken.p? past).take
    (portSize - 1))
  data : settings.data.Holds ((lastArgument text Taken.d? past).take
    (bufSize - 1))
  file : settings.file.Holds ((lastArgument text Taken.f? past).take
    (bufSize - 1))

theorem Settings.keeps_start (text : Word → List UInt8) :
    Settings.start.Keeps text ([] : List (Taken Word)) where
  isServer := rfl
  port := CharArray.holds_zeroed portSize
  data := CharArray.holds_zeroed bufSize
  file := CharArray.holds_zeroed bufSize

/-- An array takes the argument of its own option, whatever it has held, and
keeps what it holds at every other one. -/
theorem Settings.Keeps.take (keeps : settings.Keeps text past)
    (option : Taken Word) :
    (settings.take text option).Keeps text (past ++ [option]) := by
  have short : ∀ (argument : List UInt8) (count : Nat),
    (argument.take count).length ≤ count :=
    fun argument count => List.length_take_le count argument
  cases option with
  | c =>
      refine ⟨by simp [Settings.take, Taken.c?], ?_, ?_, ?_⟩ <;>
        rw [lastArgument_concat]
      · exact keeps.port
      · exact keeps.data
      · exact keeps.file
  | p optarg =>
      refine ⟨by simp [Settings.take, Taken.c?, keeps.isServer], ?_, ?_, ?_⟩ <;>
        rw [lastArgument_concat]
      · exact keeps.port.strncpy (string text optarg) (short _ _)
          (Nat.sub_le _ _)
      · exact keeps.data
      · exact keeps.file
  | d optarg =>
      refine ⟨by simp [Settings.take, Taken.c?, keeps.isServer], ?_, ?_, ?_⟩ <;>
        rw [lastArgument_concat]
      · exact keeps.port
      · exact keeps.data.strncpy (string text optarg) (short _ _)
          (Nat.sub_le _ _)
      · exact keeps.file
  | f optarg =>
      refine ⟨by simp [Settings.take, Taken.c?, keeps.isServer], ?_, ?_, ?_⟩ <;>
        rw [lastArgument_concat]
      · exact keeps.port
      · exact keeps.data
      · exact keeps.file.strncpy (string text optarg) (short _ _)
          (Nat.sub_le _ _)

/-- A round that takes an option does no more than what the option says. -/
theorem round_result {state : State Word} {result : Round Word}
    (played : round text settings state = some result) :
    (∃ option left, result = .taken option (settings.take text option) left) ∨
      result = .left (.finished settings) ∨ result = .left .help ∨
      result = .left .unknown := by
  unfold round at played
  obtain ⟨⟨reached, found⟩, _, rest⟩ := Option.bind_eq_some_iff.mp played
  cases found with
  | none =>
      cases rest
      exact .inr (.inl rfl)
  | some letter =>
      simp only at rest
      split at rest
      · cases rest
        exact .inr (.inr (.inl rfl))
      split at rest
      · cases rest
        exact .inl ⟨.c, reached, rfl⟩
      split at rest
      · obtain ⟨optarg, _, rfl⟩ := Option.map_eq_some_iff.mp rest
        exact .inl ⟨.p optarg, reached, rfl⟩
      split at rest
      · obtain ⟨optarg, _, rfl⟩ := Option.map_eq_some_iff.mp rest
        exact .inl ⟨.d optarg, reached, rfl⟩
      split at rest
      · obtain ⟨optarg, _, rfl⟩ := Option.map_eq_some_iff.mp rest
        exact .inl ⟨.f optarg, reached, rfl⟩
      · cases rest
        exact .inr (.inr (.inr rfl))

/-- The loop keeps the last arguments. -/
theorem Settings.Keeps.loop {fuel : Nat} {state : State Word} {final : Settings}
    (keeps : settings.Keeps text past)
    (ran : loop text fuel settings state = some (options, .finished final)) :
    final.Keeps text (past ++ options) := by
  induction fuel generalizing settings state past options with
  | zero => cases ran
  | succ fuel inductionHypothesis =>
      unfold Options.loop at ran
      obtain ⟨result, played, rest⟩ := Option.bind_eq_some_iff.mp ran
      rcases round_result played with ⟨option, left, rfl⟩ | rfl | rfl | rfl
      · obtain ⟨⟨others, ending⟩, later, same⟩ :=
          Option.bind_eq_some_iff.mp rest
        cases same
        have reached := inductionHypothesis (keeps.take option) later
        rwa [List.append_assoc, List.singleton_append] at reached
      · cases rest
        rwa [List.append_nil]
      · cases rest
      · cases rest

/-- An argument holds no NUL. -/
theorem notMem_lastArgument (text : Word → List UInt8)
    (select : Taken Word → Option (Argument Word))
    (options : List (Taken Word)) :
    0 ∉ lastArgument text select options := by
  unfold lastArgument
  split
  · exact List.not_mem_nil
  · exact CString.notMem_text _

/-- The arrays show the last arguments. -/
theorem Settings.Keeps.shows (keeps : settings.Keeps text past) :
    settings.port.Shows (lastArgument text Taken.p? past) ∧
      settings.data.Shows (lastArgument text Taken.d? past) ∧
      settings.file.Shows (lastArgument text Taken.f? past) := by
  refine ⟨keeps.port.shows (by decide) ?_, keeps.data.shows (by decide) ?_,
    keeps.file.shows (by decide) ?_⟩
  · exact notMem_lastArgument text Taken.p? past
  · exact notMem_lastArgument text Taken.d? past
  · exact notMem_lastArgument text Taken.f? past

/-- When the loop has come to its end the settings are those of its options. -/
theorem keeps_of_loop {fuel : Nat} {argv : List Word} {final : Settings}
    (ran : loop text fuel .start (initial argv) =
      some (options, .finished final)) :
    final.Keeps text options :=
  (Settings.keeps_start text).loop ran

/-- At the end of the loop each array shows the last argument of its own option
and nothing else. -/
theorem arrays_show_last_arguments {fuel : Nat} {argv : List Word}
    {final : Settings}
    (ran : loop text fuel .start (initial argv) =
      some (options, .finished final)) :
    final.port.Shows (lastArgument text Taken.p? options) ∧
      final.data.Shows (lastArgument text Taken.d? options) ∧
      final.file.Shows (lastArgument text Taken.f? options) :=
  (keeps_of_loop ran).shows

end Rounds

/-! ## Command lines -/

section CommandLines

/-- The letter that `getopt` returns for an option. -/
def Taken.letter : Taken Word → UInt8
  | .c => 99
  | .p _ => 112
  | .d _ => 100
  | .f _ => 102

/-- The argument of an option that takes one. -/
def Taken.optarg : Taken Word → Option (Argument Word)
  | .c => none
  | .p optarg | .d optarg | .f optarg => some optarg

/-- The elements that an option is written as. -/
def Taken.words (option : Taken (List UInt8)) : List (List UInt8) :=
  match option.optarg with
  | none => [[45, option.letter]]
  | some (.attached string) => [45 :: option.letter :: string]
  | some (.element word) => [[45, option.letter], word]

/-- An argument that is attached to its option is not empty. -/
def Taken.Proper (option : Taken (List UInt8)) : Prop :=
  option.optarg ≠ some (.attached [])

instance (option : Taken (List UInt8)) : Decidable option.Proper :=
  inferInstanceAs (Decidable (_ ≠ _))

variable (settings : Settings) (program : List UInt8)
  (done found rest : List (List UInt8))
  (optarg : Option (Argument (List UInt8))) {option : Taken (List UInt8)}

/-- All options but `c` take an argument. -/
theorem shortOption_letter (option : Taken (List UInt8)) :
    shortOption optstring option.letter =
      if option.optarg = none then some .no_argument
      else some .required_argument := by
  have c : shortOption optstring 99 = some .no_argument := by decide
  have p : shortOption optstring 112 = some .required_argument := by decide
  have d : shortOption optstring 100 = some .required_argument := by decide
  have f : shortOption optstring 102 = some .required_argument := by decide
  cases option with
  | c => exact c
  | p => exact p
  | d => exact d
  | f => exact f

theorem letter_ne_hyphen (option : Taken (List UInt8)) :
    option.letter ≠ 45 := by
  cases option with
  | c => exact show (99 : UInt8) ≠ 45 by decide
  | p => exact show (112 : UInt8) ≠ 45 by decide
  | d => exact show (100 : UInt8) ≠ 45 by decide
  | f => exact show (102 : UInt8) ≠ 45 by decide

/-- `getopt` reads an option with its argument from its elements. -/
theorem getopt_words (proper : option.Proper) :
    getopt id optstring
      (between program done [] found (option.words ++ rest) optarg) =
      some (between program (done ++ found) [] option.words rest option.optarg,
        some option.letter) := by
  have letter := shortOption_letter option
  have isOption : ∀ string,
      isNonoption (id (45 :: option.letter :: string)) = false :=
    fun string => by simp [isNonoption]
  have notTerminator : ∀ string,
      id (45 :: option.letter :: string) ≠ [45, 45] :=
    fun string same =>
      letter_ne_hyphen option (List.cons.inj (List.cons.inj same).2).1
  cases takes : option.optarg with
  | none =>
      rw [if_pos takes] at letter
      simp only [Taken.words, takes, List.singleton_append]
      rw [getopt_element program done found rest optarg (isOption [])
        (notTerminator [])]
      exact congrArg (Option.map _) (shortStep_flag program (done ++ found)
        [] rest letter)
  | some argument =>
      rw [if_neg (by simp [takes])] at letter
      cases argument with
      | attached string =>
          have more : string ≠ [] := by
            rintro rfl
            exact proper takes
          simp only [Taken.words, takes, List.singleton_append]
          rw [getopt_element program done found rest optarg (isOption string)
            (notTerminator string)]
          exact congrArg (Option.map _)
            (shortStep_attached program (done ++ found) [] rest
              (.inl letter) more)
      | element word =>
          simp only [Taken.words, takes, List.cons_append, List.nil_append]
          rw [getopt_element program done found (word :: rest) optarg
            (isOption [])
            (notTerminator [])]
          exact congrArg (Option.map _)
            (shortStep_element program (done ++ found) [] rest letter word)

/-- The words of an option are one round. -/
theorem round_words (proper : option.Proper) :
    round id settings
      (between program done [] found (option.words ++ rest) optarg) =
      some (.taken option (settings.take id option)
        (between program (done ++ found)
          [] option.words rest option.optarg)) := by
  rw [round, getopt_words program done found rest optarg proper]
  cases option <;> rfl

/-- Without words the round is the last. -/
theorem round_nil :
    round id settings (between program done [] found [] optarg) =
      some (.left (.finished settings)) := by
  obtain ⟨final, atEnd⟩ := getopt_nil program done found optarg id optstring
  rw [round, atEnd]
  rfl

/-- The loop takes the options of a command line one after the other. -/
theorem loop_words {options : List (Taken (List UInt8))}
    (proper : ∀ option ∈ options, option.Proper) :
    ∃ final, loop id (options.length + 1) settings
        (between program done [] found (options.flatMap Taken.words) optarg) =
      some (options, .finished final) := by
  induction options generalizing settings done found optarg with
  | nil =>
      refine ⟨settings, ?_⟩
      rw [List.flatMap_nil, loop, round_nil]
      rfl
  | cons option options inductionHypothesis =>
      rw [List.forall_mem_cons] at proper
      obtain ⟨final, later⟩ :=
        inductionHypothesis (settings.take id option) (done ++ found)
        option.words option.optarg proper.2
      refine ⟨final, ?_⟩
      rw [List.flatMap_cons, List.length_cons, loop,
        round_words settings program done found _ optarg proper.1]
      simp [later]

theorem initial_eq_between :
    initial (program :: rest) = between program [] [] [] rest none := by
  simp [initial, between]

/-- Every sequence of options is that of a command line. -/
theorem loop_commandLine {options : List (Taken (List UInt8))}
    (proper : ∀ option ∈ options, option.Proper) :
    ∃ final, loop id (options.length + 1) settings
        (initial (program :: options.flatMap Taken.words)) =
      some (options, .finished final) := by
  rw [initial_eq_between]
  exact loop_words settings program [] [] none proper

/-- A longer argument in front of a shorter one leaves nothing in the array. -/
theorem arrays_show_last_arguments_shorter :
    ∃ final, loop id 5 .start (initial [[], [45, 112], [56, 48, 56, 48],
      [45, 99], [45, 112],
        [56, 48], [45, 100, 104, 105]]) =
        some ([.p (.element [56, 48, 56, 48]), .c, .p (.element [56, 48]),
          .d (.attached [104, 105])], .finished final) ∧
      final.port.Shows [56, 48] ∧ final.data.Shows [104, 105] ∧
      final.file.Shows [] := by
  obtain ⟨final, ran⟩ := loop_commandLine .start []
    (show ∀ option ∈ [.p (.element [56, 48, 56, 48]), .c,
      .p (.element [56, 48]),
      .d (.attached [104, 105])], Taken.Proper option by decide)
  exact ⟨final, ran, arrays_show_last_arguments ran⟩

end CommandLines

/-! ## What `main` does -/

theorem strlen_eq_zero_iff {size : Nat} {array : CharArray size} :
    CString.strlen array.bytes = 0 ↔ array.text = [] :=
  List.length_eq_zero_iff

/-- `main` works with the last arguments, as far as the arrays have room for
them. -/
theorem main_of_loop {text : Word → List UInt8} {options : List (Taken Word)}
    {fuel : Nat}
    {argv : List Word} {final : Settings}
    (ran : loop text fuel .start (initial argv) =
      some (options, .finished final)) :
    main text fuel argv =
      let port := (lastArgument text Taken.p? options).take (portSize - 1)
      let data := (lastArgument text Taken.d? options).take (bufSize - 1)
      let file := (lastArgument text Taken.f? options).take (bufSize - 1)
      if port = [] then some (.ended .specifyPortNumber 1)
      else if options.any Taken.c? then
        if data = [] then some (.ended .specifyData 1)
        else some (.workAsClient port data)
      else if file = [] then some (.ended .specifyFile 1)
      else some (.workAsServer port file) := by
  have keeps := keeps_of_loop ran
  obtain ⟨port, data, file⟩ := keeps.shows
  simp only [main, ran, Option.map_some, dispatch, strlen_eq_zero_iff,
    port.text_eq, data.text_eq, file.text_eq, keeps.isServer]
  cases options.any Taken.c? with
  | true => simp only [Bool.not_true, Bool.false_eq_true, if_false, if_true,
        apply_ite some]
  | false => simp only [Bool.not_false, Bool.false_eq_true, if_false, if_true,
        apply_ite some]

end Options
end SocketTcp
end LinuxCPractice
