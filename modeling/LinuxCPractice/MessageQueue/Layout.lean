import LinuxCPractice.Buffer

/-!
# The layout of a message

`msgsnd` and `msgrcv` of `ipc_msgqueue.c` at the level of bytes. For the kernel
a message is a type of eight bytes and a text, and only the text counts for its
size. The writer hands over the bare string with the size of the whole string,
and the reader a bare buffer with the size of the whole buffer. So each side is
off by the size of the type, and only the visible text survives.
-/

namespace LinuxCPractice
namespace MessageQueue

/-- Size of a `long`. -/
def typeSize : Nat := 8

/-- Size of the reader's buffer. -/
def bufferSize : Nat := 100

/-- A message in the kernel: the bytes of its type and its text. -/
structure Frame where
  mtype : Vector UInt8 8
  mtext : List UInt8
  deriving DecidableEq

/-- The message as it lies in the memory of a process. -/
def Frame.bytes (message : Frame) : List UInt8 :=
  message.mtype.toList ++ message.mtext

/-- The bytes of a `long`, the lowest first. -/
def long (bytes : Vector UInt8 8) : Int :=
  (BitVec.ofNat 64
    (bytes.toList.foldr (fun byte rest => byte.toNat + 256 * rest) 0)).toInt

/-! ## The writer -/

/-- Memory from the writer's string on: the string with its NUL, and the eight
bytes that lie behind it. -/
def writerMemory (string : List UInt8) (beyond : Vector UInt8 8) : List UInt8 :=
  string ++ [0] ++ beyond.toList

/-- The message that `msgsnd` takes from memory. -/
def frame (memory : List UInt8) (msgsz : Nat) : Frame where
  mtype := Vector.ofFn fun index => memory.getD index 0
  mtext := (memory.drop typeSize).take msgsz

/-- `msgsnd(msqid, string, strlen(string) + 1, 0)`. A type below 1 is
refused. -/
def msgsnd (string : List UInt8) (beyond : Vector UInt8 8) : Option Frame :=
  let message := frame (writerMemory string beyond) (string.length + 1)
  if 1 ≤ long message.mtype then some message else none

/-- How many bytes `msgsnd` reads. It looks at the type before it takes the
text. -/
def bytesRead (string : List UInt8) (beyond : Vector UInt8 8) : Nat :=
  match msgsnd string beyond with
  | some message => message.bytes.length
  | none => typeSize

/-! ## The reader -/

/-- `msgrcv(msqid, buffer, sizeof(buffer), 0, 0)` on memory from the buffer on.
A text that is too long is refused. -/
def msgrcv (memory : List UInt8) (message : Frame) : Option (List UInt8) :=
  if message.mtext.length ≤ bufferSize then
    some (Buffer.overwrite memory message.bytes)
  else none

/-- What the reader prints about a message. Its buffer is cleared, and `behind`
lies behind it. -/
def printed (behind : List UInt8) (message : Frame) : Option (List UInt8) :=
  (msgrcv (List.replicate bufferSize 0 ++ behind) message).map CString.text

/-- How many bytes `msgrcv` writes of a message that it accepts. -/
def bytesWritten (message : Frame) : Nat := message.bytes.length

/-! ## What both sides are for -/

/-- Sending reads only the string with its NUL, receiving writes only into the
buffer, and what is sent is printed. -/
def Transmits (string : List UInt8) (beyond : Vector UInt8 8)
    (behind : List UInt8)
    (received : Frame) : Prop :=
  bytesRead string beyond ≤ string.length + 1 ∧
    bytesWritten received ≤ bufferSize ∧
    (msgsnd string beyond).bind (printed behind) = some string

section Layout

variable {string : List UInt8} {beyond : Vector UInt8 8}

/-- The writer's memory holds a type and the string with its NUL. -/
theorem length_writerMemory (string : List UInt8) (beyond : Vector UInt8 8) :
    (writerMemory string beyond).length = typeSize + (string.length + 1) := by
  simp [writerMemory, typeSize]
  omega

/-- The bytes of a message are those of its type and its text. -/
theorem length_bytes (message : Frame) :
    message.bytes.length = typeSize + message.mtext.length := by
  simp [Frame.bytes, typeSize]

/-- What the writer hands over. -/
abbrev handed (string : List UInt8) (beyond : Vector UInt8 8) : Frame :=
  frame (writerMemory string beyond) (string.length + 1)

/-- The message covers the whole string and the eight bytes behind it. -/
theorem bytes_handed (string : List UInt8) (beyond : Vector UInt8 8) :
    (handed string beyond).bytes = writerMemory string beyond := by
  have length := length_writerMemory string beyond
  have rest : ((writerMemory string beyond).drop typeSize).length ≤
      string.length + 1 := by
    rw [List.length_drop]
    omega
  have front : (handed string beyond).mtype.toList =
      (writerMemory string beyond).take typeSize := by
    rw [typeSize] at length
    apply List.ext_getElem
    · simp [typeSize, length]
    · intro index _ inside
      have before : index < (writerMemory string beyond).length := by
        rw [List.length_take] at inside
        omega
      simp [frame, before]
  rw [Frame.bytes, front]
  change _ ++ ((writerMemory string beyond).drop typeSize).take
    (string.length + 1) = _
  rw [List.take_of_length_le rest, List.take_append_drop]

/-- The text handed over is the string with its NUL. -/
theorem length_mtext (string : List UInt8) (beyond : Vector UInt8 8) :
    (handed string beyond).mtext.length = string.length + 1 := by
  have total := length_bytes (handed string beyond)
  rw [bytes_handed, length_writerMemory] at total
  omega

/-- `msgsnd` refuses a type that is not positive. -/
theorem msgsnd_eq (string : List UInt8) (beyond : Vector UInt8 8) :
    msgsnd string beyond =
      if 1 ≤ long (handed string beyond).mtype then some (handed string beyond)
      else none := rfl

/-- The reader prints the string although both sides are off. -/
theorem printed_handed (clean : 0 ∉ string) (behind : List UInt8) :
    printed behind (handed string beyond) =
      if string.length < bufferSize then some string else none := by
  rw [printed, msgrcv, length_mtext, bytes_handed]
  by_cases short : string.length < bufferSize
  · rw [if_pos (by omega), if_pos short, Option.map_some, Buffer.overwrite,
      writerMemory,
      List.append_assoc, List.append_assoc, CString.text_append_of_notMem clean]
    simp [CString.text]
  · rw [if_neg (by omega), if_neg short, Option.map_none]

/-- No string is transmitted as it should be: what is sent is read beyond the
end of the string, and a text of more than 92 bytes is written beyond the
buffer. Only what is printed comes out right. -/
theorem not_transmits (clean : 0 ∉ string) (behind : List UInt8)
    (received : Frame) :
    ¬Transmits string beyond behind received ∧
      (bytesRead string beyond ≤ string.length + 1 ↔
        msgsnd string beyond = none ∧ 7 ≤ string.length) ∧
      (bytesWritten received ≤ bufferSize ↔ received.mtext.length ≤ 92) ∧
      ((msgsnd string beyond).bind (printed behind) = some string ↔
        1 ≤ long (handed string beyond).mtype ∧
          string.length < bufferSize) := by
  have read : bytesRead string beyond =
      if 1 ≤ long (handed string beyond).mtype then
        typeSize + (string.length + 1)
      else typeSize := by
    rw [bytesRead, msgsnd_eq]
    split <;> rename_i same <;> split at same <;> cases same
    · rename_i valid
      rw [if_pos valid, bytes_handed, length_writerMemory]
    · rename_i refused
      rw [if_neg refused]
  have written : bytesWritten received = typeSize + received.mtext.length :=
    length_bytes received
  rw [Transmits, read, written, msgsnd_eq]
  by_cases valid : 1 ≤ long (handed string beyond).mtype
  · rw [if_pos valid, if_pos valid, Option.bind_some, printed_handed clean,
      typeSize, bufferSize]
    refine ⟨fun transmits => by omega, by simp, by omega, ?_⟩
    simp [valid]
  · rw [if_neg valid, if_neg valid, Option.bind_none, typeSize, bufferSize]
    refine ⟨fun transmits => by simp at transmits, by simp, by omega, ?_⟩
    simp [valid]

end Layout

/-- The string of the program, with zeros behind it. -/
theorem not_transmits_hello :
    ¬Transmits (CString.ofString "hello from writer") (Vector.replicate 8 0) []
      (handed (CString.ofString "hello from writer") (Vector.replicate 8 0)) :=
  (not_transmits (by decide) [] _).1

/-- Some strings are not transmitted as they are. -/
theorem exists_not_transmits :
    ¬∀ (string : List UInt8) (beyond : Vector UInt8 8) (behind : List UInt8)
      (received : Frame),
      0 ∉ string → received.mtext.length ≤ bufferSize →
      Transmits string beyond behind received := by
  intro claimed
  have transmits :=
    claimed (CString.ofString "hello from writer") (Vector.replicate 8 0) []
    (handed (CString.ofString "hello from writer") (Vector.replicate 8 0))
    (by decide) (by decide)
  exact absurd transmits.1 (by decide)

end MessageQueue
end LinuxCPractice
