import Mathlib.Data.Nat.Notation

/-!
# Wait statuses

How a process terminates, the status word in which `waitpid` returns this, and
the macros that take the word apart. A status is given by its bits as a natural
number.
-/

namespace LinuxCPractice

/-- The number of a signal. -/
abbrev Signal := { number : Nat // 1 ≤ number ∧ number ≤ 64 }

/-- How a process has terminated; a killed one may have left a core dump. -/
inductive Termination
  | exited (code : UInt8)
  | killed (signal : Signal) (core : Bool)
  deriving DecidableEq

namespace WaitStatus

/-- The status word of a terminated process. -/
def ofTermination : Termination → Nat
  | .exited code => code.toNat * 256
  | .killed signal core => signal.val + if core then 128 else 0

/-- Conversion of a byte to `signed char`. -/
def signedChar (byte : Nat) : Int := if byte < 128 then byte
    else (byte : Int) - 256

/-- `WEXITSTATUS` -/
def wExitStatus (status : Nat) : Nat := status / 256 % 256

/-- `WTERMSIG` -/
def wTermSig (status : Nat) : Nat := status % 128

/-- `WSTOPSIG` -/
def wStopSig (status : Nat) : Nat := wExitStatus status

/-- `WIFEXITED` -/
def wIfExited (status : Nat) : Bool := wTermSig status = 0

/-- `WIFSIGNALED` -/
def wIfSignaled (status : Nat) : Bool := 0 < signedChar (status % 128 + 1) / 2

/-- `WIFSTOPPED` -/
def wIfStopped (status : Nat) : Bool := status % 256 = 127

/-- `WIFCONTINUED` -/
def wIfContinued (status : Nat) : Bool := status = 65535

/-- The status of a child that has exited. -/
theorem ofTermination_exited (code : UInt8) :
    ofTermination (.exited code) = code.toNat * 256 := rfl

/-- The status of a child that was killed. -/
theorem ofTermination_killed (signal : Signal) (core : Bool) :
    ofTermination (.killed signal core) = signal.val + if core then 128
      else 0 := rfl

@[simp] theorem wTermSig_exited (code : UInt8) :
    wTermSig (ofTermination (.exited code)) = 0 := by
  rw [wTermSig, ofTermination_exited]
  omega

@[simp] theorem wTermSig_killed (signal : Signal) (core : Bool) :
    wTermSig (ofTermination (.killed signal core)) = signal.val := by
  have := signal.property
  rw [wTermSig, ofTermination_killed]
  split <;> omega

@[simp] theorem wIfExited_exited (code : UInt8) :
    wIfExited (ofTermination (.exited code)) = true := by
  simp [wIfExited]

@[simp] theorem wExitStatus_exited (code : UInt8) :
    wExitStatus (ofTermination (.exited code)) = code.toNat := by
  have := code.toNat_lt
  rw [wExitStatus, ofTermination_exited]
  omega

@[simp] theorem wIfExited_killed (signal : Signal) (core : Bool) :
    wIfExited (ofTermination (.killed signal core)) = false := by
  have := signal.property
  rw [wIfExited, wTermSig_killed]
  simp only [decide_eq_false_iff_not]
  omega

@[simp] theorem wIfSignaled_killed (signal : Signal) (core : Bool) :
    wIfSignaled (ofTermination (.killed signal core)) = true := by
  have := signal.property
  have low : ofTermination (.killed signal core) % 128 = signal.val :=
    wTermSig_killed signal core
  rw [wIfSignaled, low, signedChar, if_pos (by omega)]
  simp only [decide_eq_true_eq]
  omega

end WaitStatus
end LinuxCPractice
