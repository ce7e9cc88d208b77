import LinuxCPractice.Machine
import Mathlib.Algebra.GroupWithZero.Nat
import Mathlib.Tactic.SplitIfs

/-!
# The words of a shell command

A shell reads a command byte by byte. Blanks end words, quotes and backslashes
keep the bytes behind them as they are, and a number sign at the start of a word
begins a comment. Nothing is said about commands with operators or expansions,
or that begin with a reserved word or an assignment: what they do is not decided
by their words.
-/

namespace LinuxCPractice
namespace Shell

/-! ## Bytes -/

/-- A space or a tab. -/
def isBlank (byte : UInt8) : Bool :=
  byte = 32 || byte = 9

/-- A newline or a byte of one of the operators `|`, `&`, `;`, `<`, `>`, `(` and
`)`. -/
def isOperator (byte : UInt8) : Bool :=
  [10, 124, 38, 59, 60, 62, 40, 41].contains byte

/-- A dollar sign or a backquote. -/
def isExpansion (byte : UInt8) : Bool :=
  [36, 96].contains byte

/-- A backslash, a single or a double quote. -/
def isQuoting (byte : UInt8) : Bool :=
  [92, 39, 34].contains byte

/-- A byte that means more to the shell than itself. -/
def isSpecial (byte : UInt8) : Bool :=
  isBlank byte || isOperator byte || isExpansion byte || isQuoting byte

/-! ## Words -/

/-- A byte of a word, and whether it was quoted. -/
structure Glyph where
  byte : UInt8
  quoted : Bool
  deriving DecidableEq

/-- The bytes of a word, each with whether it was quoted. -/
abbrev Word := List Glyph

namespace Word

/-- A bracket is closed if there is at least one glyph in it, and no slash. -/
def closes : Word → Bool
  | glyph :: next :: rest =>
      glyph.byte ≠ 47 && (next = ⟨93, false⟩ || closes (next :: rest))
  | _ => false

/-- The exclamation mark at the start of a bracket is not one of these
glyphs. -/
def opensBracket : Word → Bool
  | ⟨33, false⟩ :: rest => closes rest
  | word => closes word

/-- An unquoted asterisk, question mark or bracket expression makes a word a
pattern for file names. -/
def isPattern : Word → Bool
  | [] => false
  | glyph :: rest =>
      !glyph.quoted &&
          (glyph.byte = 42 || glyph.byte = 63 || glyph.byte =
            91 && opensBracket rest) ||
        isPattern rest

/-- A word that begins with an unquoted tilde stands for a home directory. -/
def isTilde : Word → Bool
  | glyph :: _ => glyph = ⟨126, false⟩
  | [] => false

/-- The bytes of a word without their quoting. -/
def bytes (word : Word) : List UInt8 :=
  word.map Glyph.byte

/-- A word none of which was quoted. -/
def unquoted (bytes : List UInt8) : Word :=
  bytes.map fun byte => ⟨byte, false⟩

end Word

/-! ## Reading a command -/

/-- What the bytes before have done to the next one. -/
inductive Mode
  | plain
  | escape
  | single
  | double
  | doubleEscape
  | comment
  deriving DecidableEq

/-- The words read, and the one that is being read. -/
structure Lexer where
  mode : Mode
  current : Option Word
  words : List Word
  deriving DecidableEq

namespace Lexer

/-- The lexer in front of the first byte. -/
def start : Lexer where
  mode := .plain
  current := none
  words := []

/-- Go on, in a word that may have begun just now. -/
def quote (lexer : Lexer) (mode : Mode) : Lexer :=
  { lexer with mode := mode, current := some (lexer.current.getD []) }

/-- A byte becomes part of the word at hand. -/
def push (lexer : Lexer) (mode : Mode) (glyph : Glyph) : Lexer :=
  { lexer with mode := mode, current := some (lexer.current.getD [] ++ [glyph]) }

/-- End the word that is being read. -/
def blank (lexer : Lexer) : Lexer :=
  { lexer with current := none, words := lexer.words ++ lexer.current.toList }

/-- Read one byte. Behind a backslash a newline is dropped, and between double
quotes a backslash escapes only what would be special there. -/
def step : Machine Lexer UInt8 := fun lexer byte =>
  match lexer.mode with
  | .plain =>
      if isBlank byte then some lexer.blank
      else if isOperator byte || isExpansion byte then none
      else if byte = 92 then some { lexer with mode := .escape }
      else if byte = 39 then some (lexer.quote .single)
      else if byte = 34 then some (lexer.quote .double)
      else if byte = 35 ∧ lexer.current = none then
        some { lexer with mode := .comment }
      else some (lexer.push .plain ⟨byte, false⟩)
  | .escape =>
      if byte = 10 then some { lexer with mode := .plain }
      else some (lexer.push .plain ⟨byte, true⟩)
  | .single =>
      if byte = 39 then some { lexer with mode := .plain }
      else some (lexer.push .single ⟨byte, true⟩)
  | .double =>
      if byte = 34 then some { lexer with mode := .plain }
      else if isExpansion byte then none
      else if byte = 92 then some { lexer with mode := .doubleEscape }
      else some (lexer.push .double ⟨byte, true⟩)
  | .doubleEscape =>
      if byte = 10 then some { lexer with mode := .double }
      else if isExpansion byte || byte = 34 || byte = 92 then
        some (lexer.push .double ⟨byte, true⟩)
      else some ((lexer.push .double ⟨92, true⟩).push .double ⟨byte, true⟩)
  | .comment => if byte = 10 then none else some lexer

/-- No quote and no backslash may be open at the end. -/
def finish (lexer : Lexer) : Option (List Word) :=
  match lexer.mode with
  | .plain | .comment => some (lexer.words ++ lexer.current.toList)
  | _ => none

end Lexer

/-- The words of a command that is no more than its words. -/
def words (command : List UInt8) : Option (List (List UInt8)) :=
  ((Lexer.step.run .start command).bind Lexer.finish).bind fun words =>
    if words.any fun word => word.isPattern || word.isTilde then none
    else some (words.map Word.bytes)

/-- Words with one space between two of them. -/
def unwords (words : List (List UInt8)) : List UInt8 :=
  [32].intercalate words

/-- A word that the shell takes as it is. -/
structure Bare (word : List UInt8) : Prop where
  nonempty : word ≠ []
  noComment : word.head? ≠ some 35
  ordinary : ∀ byte ∈ word, isSpecial byte = false
  noPattern : (Word.unquoted word).isPattern = false
  noTilde : (Word.unquoted word).isTilde = false

/-! ## Words that are as long as the command -/

/-- A backslash between double quotes may turn out to be a byte of the word. -/
@[simp] def Mode.pending : Mode → Nat
  | .doubleEscape => 1
  | _ => 0

/-- The bytes of a command it takes at least to read this far. -/
def Lexer.weight (lexer : Lexer) : Nat :=
  (lexer.words.map fun word => word.length + 1).sum +
    (lexer.current.getD []).length +
    lexer.mode.pending

/-- A word of which each byte was read as it is. -/
structure Plain (word : Word) : Prop where
  nonempty : word ≠ []
  noComment : word.head? ≠ some ⟨35, false⟩
  ordinary : ∀ glyph ∈ word, glyph.quoted = false ∧ isSpecial glyph.byte = false

/-- The lexer is in no quotes and has come upon plain words only. -/
structure Lexer.AllPlain (lexer : Lexer) : Prop where
  mode : lexer.mode = .plain
  current : ∀ word ∈ lexer.current, Plain word
  words : ∀ word ∈ lexer.words, Plain word

/-- A byte adds itself to the weight of what has been read. -/
theorem weight_push (lexer : Lexer) (mode : Mode) (glyph : Glyph) :
    (lexer.push mode glyph).weight + lexer.mode.pending = lexer.weight + 1 + mode.pending := by
  simp [Lexer.weight, Lexer.push]
  omega

/-- A quotation mark adds nothing. -/
theorem weight_quote (lexer : Lexer) (mode : Mode) :
    (lexer.quote mode).weight + lexer.mode.pending =
      lexer.weight + mode.pending := by
  simp [Lexer.weight, Lexer.quote]
  omega

theorem weight_mode (lexer : Lexer) (mode : Mode) :
    ({ lexer with mode := mode } : Lexer).weight + lexer.mode.pending =
      lexer.weight + mode.pending := by
  simp [Lexer.weight]
  omega

/-- A blank behind a word adds one. -/
theorem weight_blank (lexer : Lexer) (plain : lexer.mode = .plain) :
    lexer.blank.weight = lexer.weight + if lexer.current = none then 0
      else 1 := by
  cases current : lexer.current with
  | none => simp [Lexer.weight, Lexer.blank, plain, current]
  | some word => simp [Lexer.weight, Lexer.blank, plain, current, Nat.add_assoc]

/-- Outside of quotes a byte ends a word, belongs to one as it is or adds
nothing to the weight. -/
theorem step_cases_of_plain {lexer next : Lexer} {byte : UInt8}
    (plain : lexer.mode = .plain)
    (stepped : Lexer.step lexer byte = some next) :
    isBlank byte = true ∧ next = lexer.blank ∨
      isSpecial byte = false ∧ (byte = 35 → lexer.current ≠ none) ∧
        next = lexer.push .plain ⟨byte, false⟩ ∨
      next.weight = lexer.weight := by
  simp only [Lexer.step, plain] at stepped
  split at stepped
  · next blank =>
      cases stepped
      exact .inl ⟨blank, rfl⟩
  next notBlank =>
  split at stepped
  · cases stepped
  next notOperator =>
  split at stepped
  · cases stepped
    have weight := weight_mode lexer .escape
    rw [plain] at weight
    exact .inr (.inr weight)
  next notBackslash =>
  split at stepped
  · cases stepped
    have weight := weight_quote lexer .single
    rw [plain] at weight
    exact .inr (.inr weight)
  next notSingle =>
  split at stepped
  · cases stepped
    have weight := weight_quote lexer .double
    rw [plain] at weight
    exact .inr (.inr weight)
  next notDouble =>
  split at stepped
  · cases stepped
    have weight := weight_mode lexer .comment
    rw [plain] at weight
    exact .inr (.inr weight)
  next notComment =>
  cases stepped
  refine .inr (.inl ⟨?_, fun sign none => notComment ⟨sign, none⟩, rfl⟩)
  simp_all [isSpecial, isQuoting]

/-- A byte adds at most one to the weight. -/
theorem weight_step {lexer next : Lexer} {byte : UInt8}
    (stepped : Lexer.step lexer byte = some next) :
    next.weight ≤ lexer.weight + 1 := by
  cases mode : lexer.mode with
  | plain =>
      rcases step_cases_of_plain mode stepped with ⟨_, rfl⟩ | ⟨_, _, rfl⟩ | same
      · rw [weight_blank lexer mode]
        split <;> omega
      · have pushed := weight_push lexer .plain ⟨byte, false⟩
        simp only [mode, Mode.pending] at pushed
        omega
      · omega
  | escape | single | double | doubleEscape | comment =>
      simp only [Lexer.step, mode] at stepped
      split_ifs at stepped <;> cases stepped <;>
        simp [Lexer.weight, Lexer.push, mode] <;> omega

/-- An ordinary byte is a plain word. -/
theorem Plain.singleton {byte : UInt8} (ordinary : isSpecial byte = false)
    (noSign : byte ≠ 35) : Plain [⟨byte, false⟩] :=
  ⟨by simp, by simpa using noSign, by simpa using ordinary⟩

/-- An ordinary byte continues a plain word. -/
theorem Plain.concat {word : Word} {byte : UInt8} (plain : Plain word)
    (ordinary : isSpecial byte = false) : Plain (word ++ [⟨byte, false⟩]) where
  nonempty := by simp
  noComment := by
    rw [List.head?_append_of_ne_nil _ plain.nonempty]
    exact plain.noComment
  ordinary := by
    intro glyph present
    rcases List.mem_append.mp present with old | new
    · exact plain.ordinary glyph old
    · obtain rfl := List.mem_singleton.mp new
      exact ⟨rfl, ordinary⟩

/-- A byte that adds one was read as it is, or ended a word. -/
theorem Lexer.AllPlain.step {lexer next : Lexer} {byte : UInt8}
    (allPlain : lexer.AllPlain)
    (stepped : Lexer.step lexer byte = some next) (adds : next.weight = lexer.weight + 1) :
    next.AllPlain := by
  rcases step_cases_of_plain allPlain.mode stepped with
    ⟨_, rfl⟩ | ⟨ordinary, inWord, rfl⟩ | same
  · refine ⟨allPlain.mode, by simp [Lexer.blank], ?_⟩
    intro word present
    rcases List.mem_append.mp present with old | new
    · exact allPlain.words word old
    · exact allPlain.current word (by simpa using new)
  · refine ⟨rfl, ?_, allPlain.words⟩
    intro word present
    obtain rfl := Option.some.inj present
    cases current : lexer.current with
    | none => exact Plain.singleton ordinary fun sign => inWord sign current
    | some front => exact (allPlain.current front current).concat ordinary
  · omega

/-- Reading a command that is no longer than its words need it to be. -/
theorem allPlain_of_run {command : List UInt8} {final : Lexer}
    (ran : Lexer.step.run .start command = some final) :
    final.weight ≤ command.length ∧ (final.weight = command.length →
      final.AllPlain) := by
  refine Machine.run_invariant_past (fun past lexer => lexer.weight ≤
    past.length ∧
    (lexer.weight = past.length → lexer.AllPlain)) ?_ ?_ ran
  · exact ⟨Nat.le_refl _, fun _ => ⟨rfl, by simp [Lexer.start],
      by simp [Lexer.start]⟩⟩
  · rintro past lexer byte next _ ⟨bound, tight⟩ stepped
    have adds := weight_step stepped
    rw [List.length_append, List.length_singleton]
    refine ⟨by omega, fun equal => ?_⟩
    exact (tight (by omega)).step stepped (by omega)

/-- The length of words with a blank between them. -/
theorem length_unwords_cons (word : List UInt8) (words : List (List UInt8)) :
    (unwords (word :: words)).length + 1 =
      ((word :: words).map fun word => word.length + 1).sum := by
  induction words generalizing word with
  | nil => simp [unwords]
  | cons next words inductionHypothesis =>
      have rest := inductionHypothesis next
      simp only [unwords, List.intercalate_cons_cons, List.length_append,
        List.length_singleton, List.map_cons, List.sum_cons] at rest ⊢
      omega

/-- What has been read of a command by its end. -/
theorem exists_lexer_of_words {command : List UInt8} {found : List (List UInt8)}
    (read : words command = some found) :
    ∃ final read, Lexer.step.run .start command = some final ∧
      final.finish = some read ∧
      (∀ word ∈ read, word.isPattern = false ∧ word.isTilde = false) ∧
      read.map Word.bytes = found := by
  obtain ⟨read, finished, equal⟩ := Option.bind_eq_some_iff.mp read
  obtain ⟨final, ran, finish⟩ := Option.bind_eq_some_iff.mp finished
  obtain ⟨noneExpanded, equal⟩ := Option.ite_none_left_eq_some.mp equal
  refine ⟨final, read, ran, finish, ?_, Option.some.inj equal⟩
  simpa using noneExpanded

/-- The words read are no longer than the weight, and plain if the lexer has
only seen plain ones. -/
theorem sum_of_finish {final : Lexer} {read : List Word}
    (finish : final.finish = some read) :
    (read.map fun word => word.length + 1).sum ≤ final.weight + 1 ∧
      (final.AllPlain → ∀ word ∈ read, Plain word) := by
  have equal : read = final.words ++ final.current.toList := by
    unfold Lexer.finish at finish
    split at finish <;> simp_all
  subst equal
  constructor
  · cases current : final.current <;> simp [Lexer.weight, current] <;> omega
  · intro allPlain word present
    rcases List.mem_append.mp present with old | last
    · exact allPlain.words word old
    · exact allPlain.current word (by simpa using last)

/-- The length of the words read with a blank between them. -/
theorem length_unwords_map (read : List Word) :
    (unwords (read.map Word.bytes)).length =
      (read.map fun word => word.length + 1).sum - 1 := by
  cases read with
  | nil => rfl
  | cons word read =>
      have total := length_unwords_cons word.bytes (read.map Word.bytes)
      have same : (read.map Word.bytes).map (fun word => word.length + 1) =
          read.map fun word => word.length + 1 := by
        simp [Word.bytes]
      rw [List.map_cons, same] at total
      simp only [List.map_cons, List.sum_cons, Word.bytes, List.length_map]
        at total ⊢
      omega

/-- A command is at least as long as its words with single spaces between
them. -/
theorem length_unwords_le {command : List UInt8} {found : List (List UInt8)}
    (read : words command = some found) :
    (unwords found).length ≤ command.length := by
  obtain ⟨final, read, ran, finish, _, rfl⟩ := exists_lexer_of_words read
  have bound := (allPlain_of_run ran).1
  have total := (sum_of_finish finish).1
  rw [length_unwords_map]
  omega

/-- A plain word that is not expanded is bare. -/
theorem Plain.bare {word : Word} (plain : Plain word)
    (noPattern : word.isPattern = false)
    (noTilde : word.isTilde = false) : Bare word.bytes := by
  have same : Word.unquoted word.bytes = word := by
    have each : ∀ glyph ∈ word, (⟨glyph.byte, false⟩ : Glyph) = glyph := by
      intro glyph present
      rw [← (plain.ordinary glyph present).1]
    rw [Word.unquoted, Word.bytes, List.map_map]
    exact List.map_congr_left each |>.trans (List.map_id _)
  refine ⟨by simpa [Word.bytes] using plain.nonempty, ?_, ?_, by rwa [same],
    by rwa [same]⟩
  · intro first
    rw [Word.bytes, List.head?_map] at first
    obtain ⟨glyph, head, sign⟩ := Option.map_eq_some_iff.mp first
    apply plain.noComment
    rw [head, ← sign, ← (plain.ordinary glyph (List.mem_of_head? head)).1]
  · intro byte present
    obtain ⟨glyph, presentGlyph, rfl⟩ := List.mem_map.mp present
    exact (plain.ordinary glyph presentGlyph).2

/-- If it is no longer than that, the shell has taken each word as it is. -/
theorem bare_of_words {command : List UInt8} {found : List (List UInt8)}
    (read : words command = some found)
    (tight : command.length ≤ (unwords found).length) :
    ∀ word ∈ found, Bare word := by
  obtain ⟨final, read, ran, finish, unexpanded, rfl⟩ :=
    exists_lexer_of_words read
  obtain ⟨bound, allPlain⟩ := allPlain_of_run ran
  obtain ⟨total, plain⟩ := sum_of_finish finish
  rw [length_unwords_map] at tight
  intro bytes present
  obtain ⟨word, presentWord, rfl⟩ := List.mem_map.mp present
  have isPlain : Plain word := by
    apply plain (allPlain ?_) word presentWord
    omega
  exact isPlain.bare (unexpanded word presentWord).1
    (unexpanded word presentWord).2

/-! ## Bare words are read as they are -/

/-- An ordinary byte becomes part of the word. -/
theorem step_ordinary {lexer : Lexer} {byte : UInt8}
    (plain : lexer.mode = .plain)
    (ordinary : isSpecial byte = false)
    (inWord : byte = 35 → lexer.current ≠ none) :
    Lexer.step lexer byte = some (lexer.push .plain ⟨byte, false⟩) := by
  simp_all [Lexer.step, isSpecial, isQuoting]

/-- A blank ends the word that was being read. -/
theorem step_blank {lexer : Lexer} {word : Word} (plain : lexer.mode = .plain) :
    Lexer.step { lexer with current := some word } 32 =
      some { lexer with current := none, words := lexer.words ++ [word] } := by
  simp [Lexer.step, plain, isBlank, Lexer.blank]

/-- Ordinary bytes become part of the word. -/
theorem run_ordinary {lexer : Lexer} {word : Word} {bytes : List UInt8}
    (plain : lexer.mode = .plain) (inWord : lexer.current = some word)
    (ordinary : ∀ byte ∈ bytes, isSpecial byte = false) :
    Lexer.step.run lexer bytes =
      some { lexer with current := some (word ++ Word.unquoted bytes) } := by
  induction bytes generalizing lexer word with
  | nil => simp [Word.unquoted, ← inWord]
  | cons byte bytes inductionHypothesis =>
      obtain ⟨first, rest⟩ := List.forall_mem_cons.mp ordinary
      have pushed : (lexer.push .plain ⟨byte, false⟩).current = some (word ++ [⟨byte, false⟩]) := by
        simp [Lexer.push, inWord]
      rw [Machine.run_cons, step_ordinary plain first (by simp [inWord]),
        Option.bind_some, inductionHypothesis rfl pushed rest]
      simp [Lexer.push, plain, Word.unquoted]

/-- A bare word is read as it is. -/
theorem run_bare {lexer : Lexer} {word : List UInt8}
    (plain : lexer.mode = .plain)
    (between : lexer.current = none) (bare : Bare word) :
    Lexer.step.run lexer word =
      some { lexer with current := some (Word.unquoted word) } := by
  cases word with
  | nil => exact absurd rfl bare.nonempty
  | cons byte bytes =>
      obtain ⟨first, rest⟩ := List.forall_mem_cons.mp bare.ordinary
      have noSign : byte = 35 → lexer.current ≠ none :=
        fun sign => absurd (congrArg some sign) bare.noComment
      have pushed : (lexer.push .plain ⟨byte, false⟩).current = some [⟨byte, false⟩] := by
        simp [Lexer.push, between]
      rw [Machine.run_cons, step_ordinary plain first noSign, Option.bind_some,
        run_ordinary rfl pushed rest]
      simp [Lexer.push, plain, Word.unquoted]

/-- Bare words with a blank between them are read as they are. -/
theorem finish_run_unwords {lexer : Lexer} {found : List (List UInt8)}
    (plain : lexer.mode = .plain) (between : lexer.current = none)
    (bare : ∀ word ∈ found, Bare word) :
    (Lexer.step.run lexer (unwords found)).bind Lexer.finish =
      some (lexer.words ++ found.map Word.unquoted) := by
  induction found generalizing lexer with
  | nil => simp [unwords, Lexer.finish, plain, between]
  | cons word found inductionHypothesis =>
      obtain ⟨first, rest⟩ := List.forall_mem_cons.mp bare
      cases found with
      | nil => simp [unwords, run_bare plain between first, Lexer.finish, plain]
      | cons next found =>
          have split : unwords (word :: next :: found) =
              word ++ 32 :: unwords (next :: found) := by
            simp [unwords]
          have later : ({ lexer with
              current := none, words :=
                lexer.words ++ [Word.unquoted word] } : Lexer).mode =
                .plain := plain
          rw [split, Machine.run_append, run_bare plain between first,
            Option.bind_some,
            Machine.run_cons, step_blank plain, Option.bind_some,
            inductionHypothesis later rfl rest]
          simp

/-- Bare words with single spaces between them are the words of a command. -/
theorem words_unwords {found : List (List UInt8)}
    (bare : ∀ word ∈ found, Bare word) :
    words (unwords found) = some found := by
  rw [words, finish_run_unwords rfl rfl bare]
  have unexpanded : ((Lexer.start.words ++ found.map Word.unquoted).any
      fun word => word.isPattern || word.isTilde) = false := by
    simp only [Lexer.start, List.nil_append, List.any_map, List.any_eq_false]
    intro word present
    simp [(bare word present).noPattern, (bare word present).noTilde]
  rw [Option.bind_some, unexpanded]
  simp [Lexer.start, Word.bytes, Word.unquoted, Function.comp_def]

/-- Words are those of the command that has single spaces between them exactly
when all of them are bare. -/
theorem words_unwords_iff {found : List (List UInt8)} :
    words (unwords found) = some found ↔ ∀ word ∈ found, Bare word :=
  ⟨fun read => bare_of_words read (Nat.le_refl _), words_unwords⟩

end Shell
end LinuxCPractice
