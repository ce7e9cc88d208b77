import LinuxCPractice.StackTrace.Address

/-!
# Frames of functions in programs

A frame as `backtrace_symbols` prints it ends in an address between a plus sign
and a closing bracket, and the location in square brackets. Whatever the path
and the symbol are, `getaddr` finds the address, and a command with an address
that short fits its buffer.
-/

namespace LinuxCPractice
namespace StackTrace

/-- A hexadecimal digit. -/
def isHexDigit (byte : UInt8) : Bool :=
  (48 ≤ byte && byte ≤ 57) || (97 ≤ byte && byte ≤ 102) || (65 ≤
    byte && byte ≤ 70)

/-- A number written `0x` and at least one digit. -/
def IsHex (number : List UInt8) : Prop :=
  ∃ digits, digits ≠ [] ∧ number = CString.ofString "0x" ++ digits ∧
    ∀ digit ∈ digits, isHexDigit digit = true

/-- A frame with an address that is short enough for the buffer of the trace. -/
structure Frame where
  path : List UInt8
  symbol : List UInt8
  address : List UInt8
  location : List UInt8
  isHex_address : IsHex address
  isHex_location : IsHex location
  short : address.length < 32

/-- What `backtrace_symbols` prints. -/
def Frame.bytes (frame : Frame) : List UInt8 :=
  frame.path ++ CString.ofString "(" ++ frame.symbol ++ CString.ofString "+" ++
    frame.address ++
    CString.ofString ") [" ++ frame.location ++ CString.ofString "]"

/-- Numbers have neither NULs nor any of the signs around them. -/
theorem IsHex.notMem {number : List UInt8} (isHex : IsHex number) {sign : UInt8}
    (other : isHexDigit sign = false) (notX : sign ≠ 120) : sign ∉ number := by
  obtain ⟨digits, _, rfl, hexDigits⟩ := isHex
  intro present
  rcases List.mem_append.mp present with front | digit
  · have zeroX : CString.ofString "0x" = [48, 120] := by decide
    rw [zeroX] at front
    rcases List.mem_pair.mp front with rfl | rfl
    · exact absurd other (by decide)
    · exact notX rfl
  · rw [hexDigits sign digit] at other
    cases other

/-- Behind the address there is neither a plus sign nor another closing
bracket. -/
theorem Frame.notMem_location (frame : Frame) {sign : UInt8}
    (other : isHexDigit sign = false)
    (visible : sign ∉ CString.ofString " [x]") :
    sign ∉ CString.ofString " [" ++ frame.location ++ CString.ofString "]" := by
  have outside : sign ∉ ([32, 91, 120, 93] : List UInt8) := by
    rwa [show CString.ofString " [x]" = [32, 91, 120, 93] by decide] at visible
  have absent := frame.isHex_location.notMem other (by simp_all)
  rw [show CString.ofString " [" = [32, 91] by decide,
    show CString.ofString "]" = [93] by decide]
  simp_all

/-- The address of a frame is delimited. -/
theorem Frame.between (frame : Frame) : Between frame.bytes frame.address := by
  refine ⟨frame.path ++ CString.ofString "(" ++ frame.symbol,
    CString.ofString " [" ++ frame.location ++ CString.ofString "]", ?_,
    frame.isHex_address.notMem (by decide) (by decide),
    frame.notMem_location (by decide) (by decide),
    frame.notMem_location (by decide) (by decide)⟩
  have plus : CString.ofString "+" = [43] := by decide
  have bracket :
      CString.ofString ") [" = 41 :: CString.ofString " [" := by decide
  simp [Frame.bytes, plus, bracket]

/-- The command for an address that short fits its buffer, however long the
program name is. -/
theorem addr2line_of_short {address : List UInt8} (short : address.length < 32)
    (programName : List UInt8) :
    (addr2lineCmd programName address).length + 1 ≤ 512 ∧
      addr2line programName address =
        some (addr2lineCmd programName address) := by
  have fits : (addr2lineCmd programName address).length + 1 ≤ 512 := by
    have front : (CString.ofString "addr2line -e ").length = 13 := by decide
    have flag : (CString.ofString " -f ").length = 4 := by decide
    have name := List.length_take_le 256 programName
    simp only [addr2lineCmd, List.length_append, front, flag]
    omega
  exact ⟨fits, if_pos fits⟩

/-- The address of a frame holds no NUL. -/
theorem text_address (frame : Frame) :
    CString.text (frame.address ++ [0]) = frame.address := by
  rw [CString.text_append_of_notMem (frame.isHex_address.notMem (by decide)
    (by decide))]
  simp [CString.text]

/-- Of a frame `getaddr` stores exactly the address, and for every program name
the command with this address fits its buffer. -/
theorem getaddr_frame {line : Line} {frame : Frame}
    (framed : line.bytes = frame.bytes) :
    getaddr (some line) 32 = .returned 1 (frame.address ++ [0]) ∧
      ∀ programName : CString.Text,
        (addr2lineCmd programName.bytes
          (CString.text (frame.address ++ [0]))).length + 1 ≤ 512 ∧
          addr2line programName.bytes (CString.text (frame.address ++ [0])) =
            some (addr2lineCmd programName.bytes frame.address) := by
  constructor
  · have short := frame.short
    rw [getaddr_of_between (framed ▸ frame.between), if_neg]
    change ¬(32 : Int) < _
    omega
  · intro programName
    rw [text_address]
    exact addr2line_of_short frame.short programName.bytes

/-- A path and a symbol with signs of their own. -/
theorem getaddr_frame_signs : ∃ (line : Line) (frame : Frame),
    frame.path = CString.ofString "./a+b(1)" ∧
      frame.symbol = CString.ofString "operator+()" ∧
      frame.address = CString.ofString "0x1F" ∧
      getaddr (some line) 32 = .returned 1 (frame.address ++ [0]) := by
  let frame : Frame :=
    { path := CString.ofString "./a+b(1)"
      symbol := CString.ofString "operator+()"
      address := CString.ofString "0x1F"
      location := CString.ofString "0x4011b6"
      isHex_address := ⟨CString.ofString "1F", by decide, by decide,
        List.all_eq_true.mp (by decide)⟩
      isHex_location := ⟨CString.ofString "4011b6", by decide, by decide,
        List.all_eq_true.mp (by decide)⟩
      short := by decide }
  let line : Line := ⟨⟨frame.bytes, by decide⟩, 0x500000, by decide, by decide⟩
  have framed : line.bytes = frame.bytes := rfl
  exact ⟨line, frame, rfl, rfl, rfl, (getaddr_frame framed).1⟩

/-! ## The whole trace -/

/-- The commands run for a trace. -/
def Trace.commands (trace : Trace) : List (List UInt8) :=
  trace.actions.filterMap fun action =>
    match action with
    | .print _ => none
    | .system command => some command

/-- A frame of the program leads to the command for its address, any other frame
to none. -/
theorem printFrame_frame {line : Line} {frame : Frame}
    (framed : line.bytes = frame.bytes)
    (programName : CString.Text) (result : List UInt8 → Int32) (trace : Trace) :
    ∃ next, printFrame programName result trace line = some next ∧
      next.commands = trace.commands ++
        if programName.bytes <:+: frame.bytes then
          [addr2lineCmd programName.bytes frame.address]
        else [] := by
  obtain ⟨stored, formats⟩ := getaddr_frame framed
  have short := frame.short
  simp only [printFrame, stored, (formats programName).2, framed]
  split
  · rw [if_neg (by simp; omega), if_neg (by decide)]
    refine ⟨_, rfl, ?_⟩
    by_cases succeeds :
      result (addr2lineCmd programName.bytes frame.address) = 0 <;>
      simp [succeeds, Trace.commands, Trace.perform, Trace.showPartially]
  · exact ⟨_, rfl, by simp [Trace.commands, Trace.perform]⟩

/-- All frames are printed with their addresses. -/
theorem foldlM_printFrame (programName : CString.Text)
    (result : List UInt8 → Int32)
    {messages : List Line} {frames : List Frame}
    (framed : messages.map (fun message => message.bytes) =
      frames.map Frame.bytes)
    (trace : Trace) :
    ∃ final,
      messages.foldlM (printFrame programName result) trace = some final ∧
      final.commands = trace.commands ++
        (frames.filter fun frame => programName.bytes <:+: frame.bytes).map
          fun frame => addr2lineCmd programName.bytes frame.address := by
  induction messages generalizing frames trace with
  | nil =>
      obtain rfl := List.map_eq_nil_iff.mp framed.symm
      exact ⟨trace, rfl, by simp⟩
  | cons line messages inductionHypothesis =>
      cases frames with
      | nil => cases framed
      | cons frame frames =>
          obtain ⟨same, framedTail⟩ := List.cons.inj framed
          obtain ⟨next, printed, nextCommands⟩ :=
            printFrame_frame same programName result trace
          obtain ⟨final, ran, finalCommands⟩ :=
            inductionHypothesis framedTail next
          refine ⟨final, ?_, ?_⟩
          · rw [List.foldlM_cons, printed]
            exact ran
          · rw [finalCommands, nextCommands]
            by_cases named : programName.bytes <:+: frame.bytes <;> simp [named]

/-- A stack trace of frames runs the commands for those that name the program,
in their order, whatever the commands return. -/
theorem posixPrintStackTrace_frames (programName : CString.Text)
    (result : List UInt8 → Int32)
    {messages : List Line} {frames : List Frame}
    (framed : messages.map (fun message => message.bytes) =
      frames.map Frame.bytes) :
    ∃ trace, posixPrintStackTrace programName result messages = some trace ∧
      trace.commands =
        (frames.filter fun frame => programName.bytes <:+: frame.bytes).map
        fun frame => addr2lineCmd programName.bytes frame.address :=
  foldlM_printFrame programName result framed ⟨[], 0⟩

end StackTrace
end LinuxCPractice
