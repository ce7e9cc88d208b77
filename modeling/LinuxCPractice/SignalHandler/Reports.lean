import LinuxCPractice.SignalHandler.Nesting

/-!
# What the handlers report

Each handler prints one line about its signal, as its first step. A handler that
is interrupted before never prints it.
-/

namespace LinuxCPractice
namespace SignalHandler

open Process

/-- The lines about caught signals. -/
def reports (output : List Output) : List Output :=
  output.filter fun line =>
    match line with
    | .caught _ => true
    | _ => false

/-- What the handlers that have reported say, in the order in which they were
entered. -/
def accounts (active : List (Activation Signal HandlerPc)) : List Output :=
  (active.reverse.filter fun activation => activation.pc ≠ .report).flatMap
    fun activation => caught activation.info

@[simp] theorem reports_append (first second : List Output) :
    reports (first ++ second) = reports first ++ reports second :=
  List.filter_append ..

@[simp] theorem reports_trace (actions : List StackTrace.Action) :
    reports (actions.map Output.trace) = [] := by
  simp [reports]

@[simp] theorem reports_caught (info : Siginfo Signal) :
    reports (caught info) = caught info := by
  unfold caught
  cases (posixSignalHandler info.signo).text info.code <;> rfl

/-- The account of the innermost handler comes last. -/
theorem accounts_cons (activation : Activation Signal HandlerPc)
    (outer : List (Activation Signal HandlerPc)) :
    accounts (activation :: outer) =
      accounts outer ++ if activation.pc = .report then []
        else caught activation.info := by
  by_cases atReport : activation.pc = .report <;> simp [accounts, atReport]

/-- `main` reports no signal. -/
theorem reports_mainStep (process : Process) (succeeds : Bool) :
    reports (process.mainStep succeeds).output = reports process.output := by
  unfold Process.mainStep
  split
  case h_1 | h_2 | h_4 => cases succeeds <;> simp [checked, reports]
  case h_5 | h_8 => split <;> simp [reports]
  all_goals simp [reports]

/-- Every step keeps the reports equal to the accounts. -/
theorem Moves.reports {process next : Process} {event : Event}
    (moves : Moves process event next)
    (accounted : reports process.output = accounts process.signals.active) :
    SignalHandler.reports next.output = accounts next.signals.active := by
  cases moves with
  | generate info => simpa using accounted
  | @deliver signal info signals accepted =>
      obtain ⟨_, _, _, rest⟩ := Signals.accept_eq_some accepted
      rw [deliver_output, accounted]
      rcases deliver_signals process info signals with ⟨same, _⟩ | ⟨same, _⟩
      · rw [same, Signals.enter, accounts_cons, rest]
        simp
      · rw [same, rest]
  | main succeeds settled idle =>
      rw [reports_mainStep, accounted, mainStep_active]
  | @handler activation outer innermost messages result =>
      unfold Process.handlerStep
      rw [innermost, accounts_cons] at accounted
      split
      · rename_i pc
        simp only [print_output, reports_append, reports_caught, accounted,
          Signals.goOn, innermost, accounts_cons, pc]
        simp
      · rename_i pc
        split
        · simp only [print_output, reports_append, reports_trace, accounted,
            Signals.goOn, innermost, accounts_cons, pc]
          simp
        · rw [accounted, innermost, accounts_cons]
      · rw [accounted, innermost, accounts_cons]

/-- In every run the lines about signals are those of the handlers entered, each
for a registered signal of its own, in the order in which they were entered; a
handler that was interrupted before its report never makes it. -/
theorem run_reports {program : CString.Text} {inherited : List Signal}
    {events : List Event}
    {final : Process}
    (ran : step.run (start program inherited) events = some final) :
    reports final.output = accounts final.signals.active ∧
      ∀ text, .caught text ∈ final.output → ∃ info : Siginfo Signal,
        info.signo ∈ registered ∧ info.signo ∈ final.signals.handling ∧
          (posixSignalHandler info.signo).text info.code = some text := by
  have accounted : reports final.output = accounts final.signals.active :=
    Machine.run_invariant
      (fun process => reports process.output = accounts process.signals.active)
      (fun _ _ _ accounted stepped => (step_moves stepped).2.reports accounted)
        rfl ran
  refine ⟨accounted, fun text present => ?_⟩
  have reported : .caught text ∈ reports final.output :=
    List.mem_filter.mpr ⟨present, rfl⟩
  rw [accounted, accounts, List.mem_flatMap] at reported
  obtain ⟨activation, isActive, said⟩ := reported
  have isHandled : activation.info.signo ∈ final.signals.handling :=
    List.mem_map_of_mem (List.mem_reverse.mp (List.mem_of_mem_filter isActive))
  have ordered := ordered_of_run ran
  refine ⟨activation.info,
    ordered.installed.subset (ordered.nested.handled isHandled),
    isHandled, ?_⟩
  rw [caught] at said
  cases found :
    (posixSignalHandler activation.info.signo).text activation.info.code with
  | none => simp [found] at said
  | some other =>
      obtain rfl : text = other := by simpa [found] using said
      rfl

/-- Two signals are reported. -/
theorem run_reports_interrupted :
    ∃ final, step.run (start ⟨CString.ofString "./a", by decide⟩
      []) interrupted = some final ∧
      ∀ text, .caught text ∈ final.output → ∃ info : Siginfo Signal,
        info.signo ∈ registered ∧ info.signo ∈ final.signals.handling ∧
          (posixSignalHandler info.signo).text info.code = some text := by
  have reached :
      (step.run (start ⟨CString.ofString "./a", by decide⟩
        []) interrupted).isSome =
      true := by decide
  obtain ⟨final, ran⟩ := Option.isSome_iff_exists.mp reached
  exact ⟨final, ran, (run_reports ran).2⟩

end SignalHandler
end LinuxCPractice
