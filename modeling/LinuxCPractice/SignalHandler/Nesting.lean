import LinuxCPractice.SignalHandler.Defs

/-!
# Handlers that interrupt each other

A handler blocks its own signal only, so another signal may interrupt it, and
the handler of that signal may be interrupted in turn. No handler returns: what
was interrupted never goes on.
-/

namespace LinuxCPractice
namespace SignalHandler

open Process

/-! ## The steps -/

/-- What a step does. -/
inductive Moves (process : Process) : Event → Process → Prop
  | generate (info : Siginfo Signal) :
      Moves process (.generate info)
        { process with signals := process.signals.generate info }
  | deliver {signal : Signal} {info : Siginfo Signal}
      {signals : Signals Signal HandlerPc}
      (accepted : process.signals.accept signal = some (info, signals)) :
      Moves process (.deliver signal) (process.deliver info signals)
  | main (succeeds : Bool) (settled : process.signals.Settled)
      (idle : process.signals.active = []) :
      Moves process (.main succeeds) (process.mainStep succeeds)
  | handler {activation : Activation Signal HandlerPc}
      {outer : List (Activation Signal HandlerPc)}
      (innermost : process.signals.active = activation :: outer)
      (messages : List StackTrace.Line) (result : List UInt8 → Int32) :
      Moves process (.handler messages result)
        (process.handlerStep activation messages result)

theorem step_moves {process next : Process} {event : Event}
    (stepped : step process event = some next) :
    process.ending = none ∧ Moves process event next := by
  unfold step at stepped
  split at stepped
  · cases stepped
  · rename_i running
    refine ⟨not_not.mp running, ?_⟩
    split at stepped
    case h_1 info =>
      cases stepped
      exact .generate info
    case h_2 signal =>
      obtain ⟨⟨info, signals⟩, accepted, rfl⟩ :=
        Option.map_eq_some_iff.mp stepped
      exact .deliver accepted
    case h_3 succeeds =>
      obtain ⟨⟨settled, idle⟩, equal⟩ :=
        Option.ite_none_right_eq_some.mp stepped
      cases equal
      exact .main succeeds settled idle
    case h_4 messages result =>
      obtain ⟨_, stepped⟩ := Option.ite_none_right_eq_some.mp stepped
      obtain ⟨activation, isHead, rfl⟩ := Option.map_eq_some_iff.mp stepped
      obtain ⟨outer, innermost⟩ := List.head?_eq_some_iff.mp isHead
      exact .handler innermost messages result

section

variable (process : Process)

@[simp] theorem print_signals (output : List Output) :
    (process.print output).signals = process.signals := rfl

@[simp] theorem print_main (output : List Output) :
    (process.print output).main = process.main := rfl

@[simp] theorem print_output (output : List Output) :
    (process.print output).output = process.output ++ output := rfl

@[simp] theorem print_ending (output : List Output) :
    (process.print output).ending = process.ending := rfl

/-- `main` enters no handler and leaves none. -/
@[simp] theorem mainStep_active (succeeds : Bool) :
    (process.mainStep succeeds).signals.active = process.signals.active := by
  unfold mainStep
  split <;> (try unfold checked) <;> (try split) <;>
    simp [Signals.handle, Signals.block,
      Signals.unblock]

@[simp] theorem handling_mainStep (succeeds : Bool) :
    (process.mainStep succeeds).signals.handling =
      process.signals.handling := by
  rw [Signals.handling, mainStep_active, Signals.handling]

@[simp] theorem handlerStep_main (activation : Activation Signal HandlerPc)
    (messages : List StackTrace.Line) (result : List UInt8 → Int32) :
    (process.handlerStep activation messages result).main = process.main := by
  unfold handlerStep
  split
  · rfl
  · split <;> rfl
  · rfl

/-- A handler changes nothing about the signals but its own place. -/
theorem handlerStep_signals (activation : Activation Signal HandlerPc)
    (messages : List StackTrace.Line) (result : List UInt8 → Int32) :
    (process.handlerStep activation messages result).signals = process.signals ∨
      ∃ pc, (process.handlerStep activation messages result).signals =
        process.signals.goOn pc := by
  unfold handlerStep
  split
  · exact .inr ⟨.trace, rfl⟩
  · split
    · exact .inr ⟨.exit, rfl⟩
    · exact .inl rfl
  · exact .inl rfl

/-- Nothing printed is taken back. -/
theorem output_handlerStep (activation : Activation Signal HandlerPc)
    (messages : List StackTrace.Line) (result : List UInt8 → Int32) :
    process.output ⊆
      (process.handlerStep activation messages result).output := by
  unfold handlerStep
  split
  · exact List.subset_append_left _ _
  · split
    · exact List.subset_append_left _ _
    · exact List.Subset.refl _
  · exact List.Subset.refl _

@[simp] theorem deliver_main (info : Siginfo Signal)
    (signals : Signals Signal HandlerPc) :
    (process.deliver info signals).main = process.main := by
  unfold deliver
  split
  · rfl
  · split <;> rfl

/-- A handler is entered, or the signal has its default action. -/
theorem deliver_signals (info : Siginfo Signal)
    (signals : Signals Signal HandlerPc) :
    (process.deliver info signals).signals = signals.enter info .report ∧
        info.signo ∈ signals.handled ∨
      (process.deliver info signals).signals = signals ∧
      info.signo ∉ signals.handled := by
  unfold deliver
  split
  · rename_i handled
    exact .inl ⟨rfl, handled⟩
  · rename_i unhandled
    refine .inr ⟨?_, unhandled⟩
    split <;> rfl

/-! ### Where a step may end the process -/

/-- `main` ends the process by a failed call or by `abort`. -/
theorem ending_mainStep (succeeds : Bool) :
    (process.mainStep succeeds).ending = process.ending ∨
      (process.mainStep succeeds).ending = some (.exited 1) ∨
      process.main = .raised ∧ (process.mainStep succeeds).ending = some
        (.killed .sigabrt) := by
  unfold mainStep
  split
  case h_1 | h_2 | h_4 => cases succeeds <;> simp [checked]
  case h_5 | h_8 => split <;> simp
  case h_11 pc => exact .inr (.inr ⟨pc, rfl⟩)
  all_goals exact .inl rfl

/-- A signal without a handler may end the process. -/
theorem ending_deliver (info : Siginfo Signal)
    (signals : Signals Signal HandlerPc) :
    (process.deliver info signals).ending = process.ending ∨
      info.signo ∉ signals.handled ∧ info.signo.terminates = true ∧
        (process.deliver info signals).ending = some (.killed info.signo) := by
  unfold deliver
  split
  · exact .inl rfl
  · rename_i unhandled
    split
    · rename_i terminates
      exact .inr ⟨unhandled, terminates, rfl⟩
    · exact .inl rfl

/-- A handler ends the process, or it stops at frames it cannot print. -/
theorem ending_handlerStep (activation : Activation Signal HandlerPc)
    (messages : List StackTrace.Line) (result : List UInt8 → Int32) :
    (process.handlerStep activation messages result).ending = process.ending ∨
      (process.handlerStep activation messages result).ending = some
        (.exited 1) ∨
      StackTrace.posixPrintStackTrace process.program result messages = none ∧
        (process.handlerStep activation messages result).ending =
          some .undefined := by
  unfold handlerStep
  split
  · exact .inl rfl
  · split
    · exact .inl rfl
    · rename_i undefined
      exact .inr (.inr ⟨undefined, rfl⟩)
  · exact .inr (.inl rfl)

@[simp] theorem deliver_output (info : Siginfo Signal)
    (signals : Signals Signal HandlerPc) :
    (process.deliver info signals).output = process.output := by
  unfold deliver
  split
  · rfl
  · split <;> rfl

end

/-! ## The handlers that are installed -/

/-- The handlers installed by the time `main` gets here. -/
def Installed (process : Process) : Prop :=
  match process.main with
  | .malloc | .sigaltstack => process.signals.handled = []
  | .sigaction left => process.signals.handled ++ left = registered
  | _ => process.signals.handled = registered

theorem Installed.subset {process : Process} (installed : Installed process) :
    process.signals.handled ⊆ registered := by
  unfold Installed at installed
  split at installed
  · simp [installed]
  · simp [installed]
  · exact installed ▸ List.subset_append_left _ _
  · exact fun _ => installed ▸ id

/-- Which handlers are installed depends on the place of `main`. -/
theorem Installed.of_eq {process next : Process} (installed : Installed process)
    (main : next.main = process.main)
    (handled : next.signals.handled = process.signals.handled) :
    Installed next := by
  unfold Installed
  rw [main, handled]
  exact installed

/-- `main` installs one handler after the other. -/
theorem Installed.mainStep {process : Process} (installed : Installed process)
    (succeeds : Bool) : Installed (process.mainStep succeeds) := by
  unfold Process.mainStep
  split
  case h_1 pc | h_2 pc =>
    rw [Installed, pc] at installed
    cases succeeds
    · rw [Installed]
      simp [checked, pc, installed]
    · simp [Installed, checked, installed]
  case h_3 pc =>
    rw [Installed, pc] at installed
    simpa [Installed] using installed
  case h_4 signal left pc =>
    rw [Installed, pc] at installed
    cases succeeds
    · rw [Installed]
      simp [checked, pc, installed]
    · simpa [Installed, checked, Signals.handle] using installed
  case h_5 pc =>
    rw [Installed, pc] at installed
    split <;> simpa [Installed, Signals.block] using installed
  case h_6 pc | h_7 pc | h_9 pc | h_10 pc | h_11 pc =>
    rw [Installed, pc] at installed
    simpa [Installed, Signals.unblock, pc] using installed
  case h_8 pc =>
    rw [Installed, pc] at installed
    split <;> simpa [Installed] using installed

/-- Only installed handlers are entered, and none twice. -/
structure Ordered (process : Process) : Prop where
  nested : process.signals.Nested
  installed : Installed process

/-- Every step keeps the handlers in order. -/
theorem Ordered.moves {process next : Process} {event : Event}
    (ordered : Ordered process)
    (moves : Moves process event next) : Ordered next := by
  obtain ⟨nested, installed⟩ := ordered
  cases moves with
  | generate info => exact ⟨nested.generate info, installed.of_eq rfl (by simp)⟩
  | @deliver signal info signals accepted =>
      obtain ⟨_, _, same, rest⟩ := Signals.accept_eq_some accepted
      have handledRest : signals.handled = process.signals.handled := by
        rw [rest]
      rcases deliver_signals process info signals with ⟨entered, handled⟩
        | ⟨ignored, _⟩
      · rw [same, handledRest] at handled
        refine ⟨?_, installed.of_eq (deliver_main ..)
          (by rw [entered]; exact handledRest)⟩
        rw [entered]
        exact nested.enter accepted handled .report
      · refine ⟨?_, installed.of_eq (deliver_main ..)
          (by rw [ignored, handledRest])⟩
        rw [ignored, rest]
        exact ⟨nested.nodup, nested.handled⟩
  | main succeeds settled idle =>
      refine ⟨⟨?_, ?_⟩, installed.mainStep succeeds⟩
      · rw [handling_mainStep]
        exact nested.nodup
      · rw [handling_mainStep, Signals.handling, idle]
        exact List.nil_subset _
  | handler innermost messages result =>
      rcases handlerStep_signals process _ messages result with same
        | ⟨pc, same⟩
      · exact ⟨same ▸ nested, installed.of_eq (handlerStep_main ..)
          (by rw [same])⟩
      · exact ⟨same ▸ nested.goOn pc, installed.of_eq (handlerStep_main ..)
          (by rw [same]; simp)⟩

theorem ordered_start (program : CString.Text) (inherited : List Signal) :
    Ordered (start program inherited) where
  nested := ⟨(List.nodup_nil : ([] : List Signal).Nodup), List.nil_subset _⟩
  installed := rfl

/-- In every run the handlers are in order. -/
theorem ordered_of_run {program : CString.Text} {inherited : List Signal}
    {events : List Event}
    {final : Process}
    (ran : step.run (start program inherited) events = some final) :
    Ordered final :=
  Machine.run_invariant Ordered (fun _ _ _ ordered stepped =>
    ordered.moves (step_moves stepped).2)
    (ordered_start program inherited) ran

/-! ## What was interrupted -/

/-- `main` stands where it stood, and so does every handler but the
innermost. -/
structure Suspended (process later : Process) : Prop where
  main : later.main = process.main
  outer : process.signals.active.tail <:+ later.signals.active.tail
  entered : later.signals.active ≠ []

/-- What is suspended stays so. -/
theorem Suspended.moves {process later next : Process} {event : Event}
    (suspended : Suspended process later) (moves : Moves later event next) :
    Suspended process next := by
  obtain ⟨main, outer, entered⟩ := suspended
  have grows : process.signals.active.tail <:+ later.signals.active :=
    outer.trans (List.tail_suffix _)
  cases moves with
  | generate info => exact ⟨main, by simpa using outer, by simpa using entered⟩
  | @deliver signal info signals accepted =>
      obtain ⟨_, _, _, rest⟩ := Signals.accept_eq_some accepted
      refine ⟨(deliver_main ..).trans main, ?_, ?_⟩
      · rcases deliver_signals later info signals with ⟨same, _⟩ | ⟨same, _⟩
        · rw [same, rest]
          exact grows
        · rwa [same, rest]
      · rcases deliver_signals later info signals with ⟨same, _⟩ | ⟨same, _⟩
        · rw [same]
          exact List.cons_ne_nil _ _
        · rwa [same, rest]
  | main succeeds settled idle => exact absurd idle entered
  | handler innermost messages result =>
      refine ⟨(handlerStep_main ..).trans main, ?_, ?_⟩
      · rcases handlerStep_signals later _ messages result with same
          | ⟨pc, same⟩
        · rwa [same]
        · simpa [same, Signals.goOn, innermost] using outer
      · rcases handlerStep_signals later _ messages result with same
          | ⟨pc, same⟩
        · rwa [same]
        · simp [same, Signals.goOn, innermost]

/-- In every run the handlers entered are handlers for different signals, all of
them registered, so that there are at most seven; and when one has been entered,
neither `main` nor a handler around the innermost ever makes another step. -/
theorem run_nested {program : CString.Text} {inherited : List Signal}
    {events : List Event}
    {process : Process}
    (ran : step.run (start program inherited) events = some process) :
    process.signals.handling.Nodup ∧ process.signals.handling ⊆ registered ∧
      process.signals.active.length ≤ 7 ∧
      (process.signals.active ≠ [] → ∀ more later,
        step.run process more = some later →
        Suspended process later) := by
  obtain ⟨nested, installed⟩ := ordered_of_run ran
  have registeredOnly := List.Subset.trans nested.handled installed.subset
  refine ⟨nested.nodup, registeredOnly, ?_, fun entered more later ranOn => ?_⟩
  · simpa [Signals.handling, registered] using
      (nested.nodup.subperm registeredOnly).length_le
  · exact Machine.run_invariant (Suspended process)
      (fun _ _ _ suspended stepped => suspended.moves (step_moves stepped).2)
      ⟨rfl, List.suffix_rfl, entered⟩ ranOn

/-- An interrupt during the trace that the handler of `SIGTERM` prints. -/
def interrupted : List Event :=
  [.main true, .main true] ++ List.replicate 8 (.main true) ++
    [.generate ⟨.sigterm, siUser⟩, .deliver .sigterm, .handler [] fun _ => 0,
      .generate ⟨.sigint, siUser⟩, .deliver .sigint]

/-- A second signal interrupts the handler of the first. -/
theorem run_nested_interrupted :
    ∃ process,
      step.run (start ⟨CString.ofString "./a", by decide⟩ []) interrupted =
        some process ∧
      process.signals.handling = [.sigint, .sigterm] ∧
      ∀ more later, step.run process more = some later →
        Suspended process later := by
  have reached :
      (step.run (start ⟨CString.ofString "./a", by decide⟩ []) interrupted).map
      (fun process => process.signals.handling) = some
      [.sigint, .sigterm] := by decide
  obtain ⟨process, ran, handling⟩ := Option.map_eq_some_iff.mp reached
  refine ⟨process, ran, handling, (run_nested ran).2.2.2 ?_⟩
  intro none
  simp [Signals.handling, none] at handling

end SignalHandler
end LinuxCPractice
