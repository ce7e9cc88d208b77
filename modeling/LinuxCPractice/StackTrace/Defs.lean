import LinuxCPractice.Buffer
import Mathlib.Data.List.Infix

/-!
# The frames of a stack trace

`getaddr`, `addr2line` and `posix_print_stack_trace` of `sigaction.c`. A pointer
is an address, zero for `NULL`: `getaddr` computes with the results of `strrchr`
before it has looked at them.
-/

namespace LinuxCPractice
namespace StackTrace

/-! ## Lines -/

/-- A string in memory. It lies in the lower half of the address space, where
the difference of two addresses is a `ptrdiff_t`. -/
structure Line extends CString.Text where
  address : Nat
  mapped : 0 < address
  low : address + bytes.length < 0x8000000000000000

/-- The address of the last such byte, or `NULL`. -/
def Line.strrchr (line : Line) (target : UInt8) : Nat :=
  match CString.strrchr line.bytes target with
  | some position => line.address + position
  | none => 0

/-- What is read from an address on, as long as it is part of the line. -/
def Line.read (line : Line) (source : Nat)
    (length : Int) : Option (List UInt8) :=
  if line.address ≤ source ∧ 0 ≤ length ∧
      source + length ≤ line.address + line.bytes.length + 1 then
    some (((line.bytes ++ [0]).drop (source - line.address)).take length.toNat)
  else none

/-! ## The address of a frame -/

/-- What `getaddr` returns and the bytes it has stored from the start of
`address` on, or a `memcpy` of a negative length or from outside the line. -/
inductive Outcome
  | returned (value : Int32) (stored : List UInt8)
  | undefined
  deriving DecidableEq

/-- The bytes looked for are a plus sign and a closing bracket. -/
def getaddr (line : Option Line) (size : Int32) : Outcome :=
  match line with
  | none => .returned 0 []
  | some line =>
      let addrBeg := line.strrchr 43 + 1
      let addrEnd := line.strrchr 41
      let length : Int := addrEnd - addrBeg
      if length > size.toInt then .returned 0 []
      else
        match line.read addrBeg length with
        | some text => .returned 1 (text ++ [0])
        | none => .undefined

/-! ## The command for a frame -/

/-- What `sprintf` makes of the program name and the address. -/
def addr2lineCmd (programName addr : List UInt8) : List UInt8 :=
  CString.ofString "addr2line -e " ++ programName.take 256 ++
    CString.ofString " -f " ++ addr

/-- The command that is passed to `system`, if it fits the buffer of 512 bytes
with its NUL. -/
def addr2line (programName addr : List UInt8) : Option (List UInt8) :=
  if (addr2lineCmd programName addr).length + 1 ≤ 512 then
    some (addr2lineCmd programName addr)
  else none

/-! ## The trace -/

/-- Text printed and commands run. -/
inductive Action
  | print (text : List UInt8)
  | system (command : List UInt8)
  deriving DecidableEq

/-- What was done so far, and the number of frames shown partially. -/
structure Trace where
  actions : List Action
  f : Nat
  deriving DecidableEq

namespace Trace

/-- Actions behind those performed so far. -/
def perform (trace : Trace) (actions : List Action) : Trace :=
  { trace with actions := trace.actions ++ actions }

/-- The flag in front of the width puts a blank in front of the number. -/
def showPartially (trace : Trace) (message : List UInt8) : Trace where
  actions :=
    trace.actions ++
      [.print (CString.ofString s!"show partially:  {trace.f + 1}: " ++
        message ++ CString.ofString "\n")]
  f := trace.f + 1

end Trace

/-- One frame, where `system` returns `result command`, unless something is
stored outside `addr` or outside the buffer for the command. -/
def printFrame (programName : CString.Text) (result : List UInt8 → Int32)
    (trace : Trace)
    (message : Line) : Option Trace :=
  let printed := trace.perform [.print (message.bytes ++ CString.ofString "\n")]
  if programName.bytes <:+: message.bytes then
    match getaddr (some message) 32 with
    | .undefined => none
    | .returned value stored =>
        if 32 < stored.length then none
        else if value = 0 then some (printed.showPartially message.bytes)
        else
          (addr2line programName.bytes (CString.text stored)).map fun command =>
            let called := printed.perform [.print (CString.ofString "\t\n"),
              .system command]
            if result command = 0 then called
            else called.showPartially message.bytes
  else some printed

/-- All frames. -/
def posixPrintStackTrace (programName : CString.Text)
    (result : List UInt8 → Int32)
    (messages : List Line) : Option Trace :=
  messages.foldlM (printFrame programName result) ⟨[], 0⟩

end StackTrace
end LinuxCPractice
