import Mathlib.Data.List.Perm.Subperm
import Mathlib.Data.List.Nodup

/-!
# Signals of a process

The handlers, the mask, the pending signals and the handlers that have been
entered, for a process with one thread whose handlers block the signal they
handle and no other. A signal that is generated twice before it is delivered is
pending once.
-/

namespace LinuxCPractice

/-- A signal and its `si_code`. -/
structure Siginfo (Signal : Type*) where
  signo : Signal
  code : Int
  deriving DecidableEq

/-- A handler that has been entered, and where it stands. -/
structure Activation (Signal Pc : Type*) where
  info : Siginfo Signal
  pc : Pc
  deriving DecidableEq

/-- The signals with a handler, the blocked signals, the signals generated and
not delivered, and the handlers entered and not left, the innermost first. -/
structure Signals (Signal Pc : Type*) where
  handled : List Signal
  mask : List Signal
  pending : List (Siginfo Signal)
  active : List (Activation Signal Pc)
  deriving DecidableEq

namespace Signals

variable {Signal Pc : Type*}

/-- The signals that are being handled, the innermost first. -/
def handling (signals : Signals Signal Pc) : List Signal :=
  signals.active.map fun activation => activation.info.signo

/-- The numbers of the signals that are pending. -/
def pendingSignals (signals : Signals Signal Pc) : List Signal :=
  signals.pending.map Siginfo.signo

/-- The signal is not delivered for the present. -/
def Blocked (signals : Signals Signal Pc) (signal : Signal) : Prop :=
  signal ∈ signals.mask ∨ signal ∈ signals.handling

/-- Nothing is left to be delivered. -/
def Settled (signals : Signals Signal Pc) : Prop :=
  ∀ signal ∈ signals.pendingSignals, signals.Blocked signal

/-! ## Operations -/

/-- Install a handler. -/
def handle (signals : Signals Signal Pc)
    (signal : Signal) : Signals Signal Pc :=
  { signals with handled := signals.handled ++ [signal] }

/-- A signal is added to the mask. -/
def block (signals : Signals Signal Pc) (signal : Signal) : Signals Signal Pc :=
  { signals with mask := signal :: signals.mask }

/-- Enter the handler at its first statement. -/
def enter (signals : Signals Signal Pc) (info : Siginfo Signal)
    (pc : Pc) : Signals Signal Pc :=
  { signals with active := ⟨info, pc⟩ :: signals.active }

/-- The innermost handler goes on. -/
def goOn (signals : Signals Signal Pc) (pc : Pc) : Signals Signal Pc :=
  match signals.active with
  | [] => signals
  | activation :: outer =>
      { signals with active := { activation with pc := pc } :: outer }

section

variable [DecidableEq Signal]

instance (signals : Signals Signal Pc) (signal : Signal) :
    Decidable (signals.Blocked signal) :=
  inferInstanceAs (Decidable (_ ∨ _))

instance (signals : Signals Signal Pc) : Decidable signals.Settled :=
  inferInstanceAs (Decidable (∀ signal ∈ signals.pendingSignals,
    signals.Blocked signal))

/-- A signal is taken out of the mask. -/
def unblock (signals : Signals Signal Pc)
    (signal : Signal) : Signals Signal Pc :=
  { signals with mask := signals.mask.filter (· ≠ signal) }

/-- The signal is pending from now on, if it was not before. -/
def generate (signals : Signals Signal Pc)
    (info : Siginfo Signal) : Signals Signal Pc :=
  if info.signo ∈ signals.pendingSignals then signals
  else { signals with pending := signals.pending ++ [info] }

/-- Take a signal that is not blocked off the pending ones. -/
def accept (signals : Signals Signal Pc) (signal : Signal) :
    Option (Siginfo Signal × Signals Signal Pc) :=
  if signals.Blocked signal then none
  else
    (signals.pending.find? fun info => info.signo = signal).map fun info =>
      (info, { signals with pending := signals.pending.filter fun info =>
        info.signo ≠ signal })

end

/-! ## What the operations leave alone -/

section

variable (signals : Signals Signal Pc) (signal : Signal) (info : Siginfo Signal)
  (pc : Pc)

@[simp] theorem handling_handle :
    (signals.handle signal).handling = signals.handling := rfl

@[simp] theorem handling_block :
    (signals.block signal).handling = signals.handling := rfl

@[simp] theorem handling_enter :
    (signals.enter info pc).handling = info.signo :: signals.handling := rfl

@[simp] theorem pendingSignals_handle :
    (signals.handle signal).pendingSignals = signals.pendingSignals := rfl

@[simp] theorem pendingSignals_block :
    (signals.block signal).pendingSignals = signals.pendingSignals := rfl

@[simp] theorem pendingSignals_enter :
    (signals.enter info pc).pendingSignals = signals.pendingSignals := rfl

@[simp] theorem goOn_handled : (signals.goOn pc).handled = signals.handled := by
  unfold goOn
  split <;> rfl

@[simp] theorem goOn_mask : (signals.goOn pc).mask = signals.mask := by
  unfold goOn
  split <;> rfl

@[simp] theorem goOn_pending : (signals.goOn pc).pending = signals.pending := by
  unfold goOn
  split <;> rfl

@[simp] theorem handling_goOn :
    (signals.goOn pc).handling = signals.handling := by
  unfold goOn handling
  split
  · rfl
  case h_2 same => simp [same]

variable [DecidableEq Signal]

@[simp] theorem handling_unblock :
    (signals.unblock signal).handling = signals.handling := rfl

@[simp] theorem pendingSignals_unblock :
    (signals.unblock signal).pendingSignals = signals.pendingSignals := rfl

/-- A signal that is generated is pending. -/
theorem mem_pendingSignals_generate {other : Signal} :
    other ∈ (signals.generate info).pendingSignals ↔
      other ∈ signals.pendingSignals ∨ other = info.signo := by
  unfold generate
  split
  · constructor
    · exact .inl
    · rintro (present | rfl) <;> assumption
  · simp [pendingSignals]

@[simp] theorem generate_handled :
    (signals.generate info).handled = signals.handled := by
  unfold generate
  split <;> rfl

@[simp] theorem generate_mask :
    (signals.generate info).mask = signals.mask := by
  unfold generate
  split <;> rfl

@[simp] theorem generate_active :
    (signals.generate info).active = signals.active := by
  unfold generate
  split <;> rfl

end

/-! ## Handlers within handlers -/

/-- Only signals with a handler are being handled, each once. -/
structure Nested (signals : Signals Signal Pc) : Prop where
  nodup : signals.handling.Nodup
  handled : signals.handling ⊆ signals.handled

variable {signals : Signals Signal Pc} {signal : Signal} {info : Siginfo Signal}

/-- Installing a handler leaves the nesting. -/
theorem Nested.handle (nested : Nested signals) (signal : Signal) :
    Nested (signals.handle signal) where
  nodup := nested.nodup
  handled := fun _ present => List.mem_append_left _ (nested.handled present)

/-- A handler that goes on leaves the nesting. -/
theorem Nested.goOn (nested : Nested signals) (pc : Pc) :
    Nested (signals.goOn pc) where
  nodup := by simpa using nested.nodup
  handled := by simpa using nested.handled

/-! ## Delivery -/

variable [DecidableEq Signal]

/-- A signal that is delivered was pending and not blocked; nothing but the
pending signals changes. -/
theorem accept_eq_some {next : Signals Signal Pc}
    (accepted : signals.accept signal = some (info, next)) :
    ¬signals.Blocked signal ∧ info ∈ signals.pending ∧ info.signo = signal ∧
      next = { signals with
        pending := signals.pending.filter fun info =>
          info.signo ≠ signal } := by
  unfold accept at accepted
  split at accepted
  · cases accepted
  · rename_i free
    obtain ⟨found, isFound, same⟩ := Option.map_eq_some_iff.mp accepted
    cases same
    exact ⟨free, List.mem_of_find?_eq_some isFound,
      by simpa using List.find?_some isFound, rfl⟩

/-- A signal that is delivered is no longer pending. -/
theorem mem_pendingSignals_of_accept {next : Signals Signal Pc} {other : Signal}
    (accepted : signals.accept signal = some (info, next)) :
    other ∈ next.pendingSignals ↔
      other ∈ signals.pendingSignals ∧ other ≠ signal := by
  obtain ⟨_, _, _, rfl⟩ := accept_eq_some accepted
  simp only [pendingSignals, List.mem_map, List.mem_filter, decide_eq_true_eq]
  constructor
  · rintro ⟨info, ⟨present, different⟩, rfl⟩
    exact ⟨⟨info, present, rfl⟩, different⟩
  · rintro ⟨⟨info, present, rfl⟩, different⟩
    exact ⟨info, ⟨present, different⟩, rfl⟩

/-- What is pending and not blocked can be delivered. -/
theorem exists_accept (pending : signal ∈ signals.pendingSignals)
    (free : ¬signals.Blocked signal) :
    ∃ info next, signals.accept signal = some (info, next) := by
  unfold accept
  rw [if_neg free]
  obtain ⟨info, present, rfl⟩ := List.mem_map.mp pending
  obtain ⟨found, isFound⟩ := Option.isSome_iff_exists.mp
    (List.find?_isSome (p := fun other => other.signo = info.signo).mpr
      ⟨info, present, by simp⟩)
  exact ⟨found, _, by rw [isFound]; rfl⟩

/-- A signal that is generated leaves the nesting. -/
theorem Nested.generate (nested : Nested signals) (info : Siginfo Signal) :
    Nested (signals.generate info) := by
  unfold Signals.generate
  split
  · exact nested
  · exact ⟨nested.nodup, nested.handled⟩

/-- A handler is entered for a signal that is not being handled. -/
theorem Nested.enter (nested : Nested signals) {next : Signals Signal Pc}
    (accepted : signals.accept signal = some (info, next))
    (handled : signal ∈ signals.handled)
    (pc : Pc) : Nested (next.enter info pc) := by
  obtain ⟨free, _, rfl, rfl⟩ := accept_eq_some accepted
  exact ⟨List.nodup_cons.mpr ⟨fun present => free (.inr present), nested.nodup⟩,
    List.cons_subset.mpr ⟨handled, nested.handled⟩⟩

end Signals
end LinuxCPractice
