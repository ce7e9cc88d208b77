import LinuxCPractice.Flags
import LinuxCPractice.Fifo.Defs
import LinuxCPractice.MessageQueue.Defs

/-!
# Programs with two roles

The loops over the options in `ipc_fifo.c`, `ipc_msgqueue.c` and `socket_udp.c`.
They differ in their options and in the role a program has without any.
-/

namespace LinuxCPractice
namespace Roles

open GetoptLong Flags

/-! ## The loops -/

/-- How a round leaves `main`: `print_help` exits and an unknown option
returns. -/
inductive Ending
  | help
  | unknown
  deriving DecidableEq

/-- The status `main` returns when an option ends it. -/
def Ending.status : Ending → Nat
  | .help => 1
  | .unknown => 2

/-- The options of a program, and the value that each but `h` gives to its
variable. -/
structure Program extends Table where
  choices : List (UInt8 × Bool)
  initially : Bool
  help : choices.lookup 104 = none

variable {Word : Type} (text : Word → List UInt8)

namespace Program

variable (program : Program)

/-- What an option makes of the role, if it is known. -/
def choice (option : UInt8) : Option Bool := program.choices.lookup option

/-- `switch (option)`. -/
def take (_ : Bool) (option : UInt8) : Except Ending Bool :=
  if option = 104 then .error .help
  else
    match program.choice option with
    | some value => .ok value
    | none => .error .unknown

/-- The loop with at most `fuel` rounds: the status with which it leaves `main`
or the value of the variable behind it. -/
def loop (fuel : Nat) (argv : List Word) : Option (Except Nat Bool) :=
  (program.toTable.loop text program.take fuel program.initially
    (initial argv)).map
    (Except.mapError Ending.status)

end Program

/-- The options of `ipc_fifo.c`. -/
def ipcFifo : Program where
  optstring := CString.ofString "hrw"
  longopts := [⟨CString.ofString "reader", .no_argument, 114⟩,
    ⟨CString.ofString "writer", .no_argument, 119⟩,
    ⟨CString.ofString "help", .no_argument, 104⟩]
  short := by decide
  long := by decide
  choices := [(114, false), (119, true)]
  initially := false
  help := by decide

/-- The options of `ipc_msgqueue.c`. -/
def ipcMsgqueue : Program where
  optstring := CString.ofString "hrw"
  longopts := [⟨CString.ofString "reader", .no_argument, 114⟩,
    ⟨CString.ofString "writer", .no_argument, 119⟩,
    ⟨CString.ofString "help", .no_argument, 104⟩]
  short := by decide
  long := by decide
  choices := [(114, false), (119, true)]
  initially := false
  help := by decide

/-- The options of `socket_udp.c`. -/
def socketUdp : Program where
  optstring := CString.ofString "hc"
  longopts := [⟨CString.ofString "client", .no_argument, 99⟩,
    ⟨CString.ofString "help", .no_argument, 104⟩]
  short := by decide
  long := by decide
  choices := [(99, false)]
  initially := true
  help := by decide

/-! ## What the programs do behind their loops -/

/-- `main` of `ipc_fifo.c` tests `!is_writer`. -/
def mainFifo (fuel : Nat) (argv : List Word) : Option (Except Nat Fifo.Role) :=
  (ipcFifo.loop text fuel argv).map (Except.map fun isWriter =>
    if !isWriter then .reader else .writer)

/-- So does `main` of `ipc_msgqueue.c`. -/
def mainMsgqueue (fuel : Nat) (argv : List Word) :
    Option (Except Nat MessageQueue.Role) :=
  (ipcMsgqueue.loop text fuel argv).map (Except.map fun isWriter =>
    if !isWriter then .reader else .writer)

/-- The two functions of `socket_udp.c` with the port they get. -/
inductive Call
  | workAsServer (port : List UInt8)
  | workAsClient (port : List UInt8)
  deriving DecidableEq

/-- `main` of `socket_udp.c`, which fixes the port. -/
def mainUdp (fuel : Nat) (argv : List Word) : Option (Except Nat Call) :=
  let port := CString.ofString "9191"
  (socketUdp.loop text fuel argv).map (Except.map fun isServer =>
    if isServer then .workAsServer port else .workAsClient port)

/-! ## Letters -/

namespace Program

variable {text} {program : Program}

/-- The first letter that is no choice decides, and without one the last
letter. -/
def outcome (program : Program) (value : Bool)
    (letters : List UInt8) : Except Nat Bool :=
  match letters.find? fun c => (program.choice c).isNone with
  | some c => .error (if c = 104 then 1 else 2)
  | none => .ok ((letters.getLast?.bind program.choice).getD value)

/-- The status of the loop is that of its last letter or of the one that ends
it. -/
theorem mapError_foldlM_take (value : Bool) (letters : List UInt8) :
    (letters.foldlM program.take value).mapError Ending.status =
      program.outcome value letters := by
  induction letters generalizing value with
  | nil => rfl
  | cons c letters inductionHypothesis =>
      have isHelp : c = 104 → program.choice c = none := by
        rintro rfl
        exact program.help
      cases chosen : program.choice c with
      | none =>
          rw [outcome, List.find?_cons_of_pos (by simp [chosen])]
          by_cases help : c = 104
          · simp [take, help, bind, Except.bind, Except.mapError, Ending.status]
          · simp [take, chosen, help, bind, Except.bind, Except.mapError,
              Ending.status]
      | some next =>
          have notHelp : c ≠ 104 := fun help => by simp [isHelp help] at chosen
          have later := inductionHypothesis next
          simp only [List.foldlM_cons, take, if_neg notHelp, chosen, bind,
            Except.bind]
          rw [later, outcome, outcome,
            List.find?_cons_of_neg (by simp [chosen])]
          cases others : letters.find? fun c => (program.choice c).isNone with
          | some other => rfl
          | none =>
              cases letters with
              | nil => simp [chosen]
              | cons other letters =>
                  have known := List.find?_eq_none.mp others
                  have last :=
                    known _ (List.getLast_mem (List.cons_ne_nil other letters))
                  obtain ⟨role, isRole⟩ :=
                    Option.ne_none_iff_exists'.mp (by simpa using last)
                  simp [List.getLast?_eq_getLast_of_ne_nil, isRole]

/-- Whatever the command line, the loop comes to its end. It leaves `main` at
the first letter that is not the choice of a role, and otherwise the last letter
has given the variable its value. -/
theorem loop_chooses (text : Word → List UInt8) (program : Program)
    (name : Word)
    (rest : List Word) {fuel : Nat}
    (enough : (program.letters text rest).length < fuel) :
    program.loop text fuel (name :: rest) =
      some (program.outcome program.initially (program.letters text rest)) := by
  rw [loop, loop_eq name rest program.initially enough, Option.map_some,
    mapError_foldlM_take]

/-- An element of several letters, an operand, the beginning of a long option
and one behind `--`. -/
theorem loop_chooses_writer :
    mainFifo id 4 ([CString.ofString "ipc_fifo", CString.ofString "-rr",
      CString.ofString "x",
      CString.ofString "--wri", CString.ofString "--", CString.ofString "-h"]) =
        some (.ok .writer) := by
  rw [mainFifo, loop_chooses id ipcFifo _ _ (by decide)]
  decide

end Program

end Roles
end LinuxCPractice
