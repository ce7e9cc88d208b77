import LinuxCPractice.SignalHandler.Nesting
import LinuxCPractice.StackTrace.Frames

/-!
# How the program ends

The program never ends with status zero. It sends itself `SIGUSR1`, which it has
blocked before, and later `SIGABRT`, which it catches.
-/

namespace LinuxCPractice
namespace SignalHandler

open Process

/-! ## The signals the program sends itself -/

namespace MainPc

/-- Behind `kill`. -/
@[simp] def hasSent : MainPc → Bool
  | .sleep | .sigpending | .assert | .abort | .raised => true
  | _ => false

/-- Behind `sigpending`. -/
@[simp] def hasAsked : MainPc → Bool
  | .assert | .abort | .raised => true
  | _ => false

end MainPc

/-- The signal is pending or being handled. -/
def Present (process : Process) (signal : Signal) : Prop :=
  signal ∈ process.signals.pendingSignals ∨ signal ∈ process.signals.handling

/-- The signal is pending, blocked by the mask and not being handled. -/
structure Withheld (signals : Signals Signal HandlerPc)
    (signal : Signal) : Prop where
  pending : signal ∈ signals.pendingSignals
  masked : signal ∈ signals.mask
  unhandled : signal ∉ signals.handling

/-- What the program has sent itself is still there, and the line about
`SIGUSR1` is printed when `main` is behind `sigpending`. -/
structure SentItself (process : Process) : Prop where
  sent : process.main.hasSent = true → Present process .sigusr1
  told : process.main.hasAsked = true →
    .line "The signal is blocked 302\n" ∈ process.output ∧
      Withheld process.signals .sigusr1
  raised : process.main = .raised →
    Present process .sigabrt ∧ .sigabrt ∉ process.signals.mask

/-- A signal that is present with its handler installed stays present. -/
theorem Present.deliver {process : Process} {other signal : Signal}
    {info : Siginfo Signal}
    {signals : Signals Signal HandlerPc} (present : Present process signal)
    (accepted : process.signals.accept other = some (info, signals))
    (handled : signal ∈ process.signals.handled) :
    Present (process.deliver info signals) signal := by
  obtain ⟨_, _, same, rest⟩ := Signals.accept_eq_some accepted
  have pendingRest : signal ∈ signals.pendingSignals ↔
      signal ∈ process.signals.pendingSignals ∧ signal ≠ other :=
    Signals.mem_pendingSignals_of_accept accepted
  have handlingRest : signals.handling = process.signals.handling := by
    rw [rest]; rfl
  have handledRest : signals.handled = process.signals.handled := by rw [rest]
  by_cases isOther : signal = other
  · subst isOther
    refine .inr ?_
    rcases deliver_signals process info signals with ⟨entered, _⟩
      | ⟨_, unhandled⟩
    · simp [entered, same]
    · exact absurd handled (by rwa [same, handledRest] at unhandled)
  · have still : signal ∈ signals.pendingSignals ∨
        signal ∈ signals.handling := by
      rw [pendingRest, handlingRest]
      exact present.imp_left fun pending => ⟨pending, isOther⟩
    rcases deliver_signals process info signals with ⟨entered, _⟩ | ⟨ignored, _⟩
    · rw [Present, entered]
      exact still.imp_right (List.mem_cons_of_mem _)
    · rwa [Present, ignored]

/-- By the time `main` has sent a signal all handlers are installed. -/
theorem Installed.of_hasSent {process : Process} (installed : Installed process)
    (sent : process.main.hasSent = true) :
    process.signals.handled = registered := by
  unfold Installed at installed
  split at installed <;> simp_all

/-- While `main` goes on, what is present is pending and blocked. -/
theorem Present.withheld {process : Process} {signal : Signal}
    (present : Present process signal)
    (settled : process.signals.Settled) (idle : process.signals.active = []) :
    Withheld process.signals signal := by
  have noHandler : signal ∉ process.signals.handling := by
    simp [Signals.handling, idle]
  have pending := present.resolve_right noHandler
  exact ⟨pending, (settled signal pending).resolve_right noHandler, noHandler⟩

namespace Withheld

variable {signals : Signals Signal HandlerPc} {signal : Signal}

/-- A signal that is generated leaves the one that is withheld. -/
theorem generate (withheld : Withheld signals signal) (info : Siginfo Signal) :
    Withheld (signals.generate info) signal where
  pending :=
    (Signals.mem_pendingSignals_generate ..).mpr (.inl withheld.pending)
  masked := by simpa using withheld.masked
  unhandled := by simpa [Signals.handling] using withheld.unhandled

/-- Another signal may be unblocked. -/
theorem unblock (withheld : Withheld signals signal) {other : Signal}
    (different : signal ≠ other) :
    Withheld (signals.unblock other) signal where
  pending := withheld.pending
  masked := by simpa [Signals.unblock, different] using withheld.masked
  unhandled := withheld.unhandled

/-- A handler may go on. -/
theorem goOn (withheld : Withheld signals signal) (pc : HandlerPc) :
    Withheld (signals.goOn pc) signal where
  pending := by simpa [Signals.pendingSignals] using withheld.pending
  masked := by simpa using withheld.masked
  unhandled := by simpa using withheld.unhandled

/-- Another signal is delivered. -/
theorem deliver {process : Process} (withheld : Withheld process.signals signal)
    {other : Signal}
    {info : Siginfo Signal} {next : Signals Signal HandlerPc}
    (accepted : process.signals.accept other = some (info, next)) :
    Withheld (process.deliver info next).signals signal := by
  obtain ⟨free, _, same, rest⟩ := Signals.accept_eq_some accepted
  have different : signal ≠ other := by
    rintro rfl
    exact free (.inl withheld.masked)
  have still : Withheld next signal := by
    refine ⟨(Signals.mem_pendingSignals_of_accept accepted).mpr
      ⟨withheld.pending, different⟩, ?_, ?_⟩
    · rw [rest]
      exact withheld.masked
    · rw [rest]
      exact withheld.unhandled
  rcases deliver_signals process info next with ⟨entered, _⟩ | ⟨ignored, _⟩
  · rw [entered]
    refine ⟨still.pending, still.masked, ?_⟩
    rw [Signals.handling_enter, same]
    exact fun present =>
      (List.mem_cons.mp present).elim different still.unhandled
  · rwa [ignored]

end Withheld

/-- A step of `main` keeps the signals it has sent itself present or its
handlers run. -/
theorem SentItself.mainStep {process : Process} (itself : SentItself process)
    (settled : process.signals.Settled) (idle : process.signals.active = [])
    (succeeds : Bool) :
    SentItself (process.mainStep succeeds) := by
  obtain ⟨sent, told, raised⟩ := itself
  unfold Process.mainStep
  split
  case h_1 pc | h_2 pc => cases succeeds <;> constructor <;> simp [checked, pc]
  case h_3 pc => constructor <;> simp
  case h_4 pc => cases succeeds <;> constructor <;> simp [checked, pc]
  case h_5 pc => split <;> constructor <;> simp
  case h_6 pc =>
    constructor
    · exact fun _ =>
        .inl ((Signals.mem_pendingSignals_generate ..).mpr (.inr rfl))
    · simp
    · simp
  case h_7 pc =>
    constructor
    · exact fun _ => sent (by simp [pc])
    · simp
    · simp
  case h_8 pc =>
    -- `SIGUSR1` is blocked here, or its handler would have been entered.
    have withheld := (sent (by simp [pc])).withheld settled idle
    rw [if_pos ⟨withheld.pending, withheld.masked⟩]
    exact ⟨fun _ => .inl withheld.pending, fun _ => ⟨by simp, withheld⟩,
      by simp⟩
  case h_9 pc =>
    obtain ⟨printed, withheld⟩ := told (by simp [pc])
    exact ⟨fun _ => .inl withheld.pending, fun _ => ⟨by simp [printed],
      withheld⟩, by simp⟩
  case h_10 pc =>
    obtain ⟨printed, withheld⟩ := told (by simp [pc])
    have still :=
      (withheld.unblock (by decide : Signal.sigusr1 ≠ .sigabrt)).generate
      ⟨.sigabrt, siTkill⟩
    refine ⟨fun _ => .inl still.pending, fun _ => ⟨printed, still⟩,
      fun _ => ⟨.inl ?_, ?_⟩⟩
    · exact (Signals.mem_pendingSignals_generate ..).mpr (.inr rfl)
    · simp [Signals.unblock]
  case h_11 pc =>
    obtain ⟨present, unmasked⟩ := raised pc
    exact absurd (present.withheld settled idle).masked unmasked

/-- Every step keeps the signals that `main` has sent itself present. -/
theorem SentItself.moves {process next : Process} {event : Event}
    (itself : SentItself process)
    (ordered : Ordered process) (moves : Moves process event next) :
    SentItself next := by
  have handledAll := ordered.installed.of_hasSent
  cases moves with
  | generate info =>
      have still : ∀ signal, Present process signal → Present
          { process with signals := process.signals.generate info } signal := by
        rintro signal (pending | handling)
        · exact .inl ((Signals.mem_pendingSignals_generate ..).mpr
            (.inl pending))
        · exact .inr (by simpa [Signals.handling] using handling)
      refine ⟨fun sent => still _ (itself.sent sent),
        fun asked => ?_, fun isRaised => ?_⟩
      · exact ⟨(itself.told asked).1, (itself.told asked).2.generate info⟩
      · obtain ⟨present, unmasked⟩ := itself.raised isRaised
        exact ⟨still _ present, by simpa using unmasked⟩
  | @deliver signal info signals accepted =>
      have mask : (process.deliver info signals).signals.mask =
          process.signals.mask := by
        obtain ⟨_, _, _, rest⟩ := Signals.accept_eq_some accepted
        rcases deliver_signals process info signals with ⟨same, _⟩ | ⟨same, _⟩
        · rw [same, rest]
          rfl
        · rw [same, rest]
      rw [← deliver_main process info signals] at handledAll
      refine ⟨fun sent => ?_, fun asked => ?_, fun isRaised => ?_⟩
      · refine (itself.sent (by simpa using sent)).deliver accepted ?_
        rw [handledAll sent]
        decide
      · obtain ⟨printed, withheld⟩ := itself.told (by simpa using asked)
        exact ⟨by simpa using printed, withheld.deliver accepted⟩
      · obtain ⟨present, unmasked⟩ := itself.raised (by simpa using isRaised)
        refine ⟨present.deliver accepted ?_, mask ▸ unmasked⟩
        rw [handledAll (by rw [isRaised]; rfl)]
        decide
  | main succeeds settled idle => exact itself.mainStep settled idle succeeds
  | @handler activation outer innermost messages result =>
      have output := output_handlerStep process activation messages result
      rw [← handlerStep_main process activation messages result] at handledAll
      obtain ⟨sent, told, raised⟩ := itself
      rw [← handlerStep_main process activation messages result]
        at sent told raised
      rcases handlerStep_signals process activation messages result with same
        | ⟨pc, same⟩
      · simp only [Present, ← same] at sent told raised
        exact ⟨sent, fun asked => ⟨output (told asked).1, (told asked).2⟩,
          raised⟩
      · have still : ∀ signal, Present process signal →
            Present (process.handlerStep activation messages result)
              signal := by
          intro signal present
          simpa only [Present, same, Signals.handling_goOn,
            Signals.pendingSignals, Signals.goOn_pending] using present
        refine ⟨fun isSent => still _ (sent isSent),
          fun asked => ?_, fun isRaised => ?_⟩
        · exact ⟨output (told asked).1, same ▸ (told asked).2.goOn pc⟩
        · exact ⟨still _ (raised isRaised).1,
            by simpa [same] using (raised isRaised).2⟩

/-- The invariants of every run. -/
structure Invariant (process : Process) : Prop where
  ordered : Ordered process
  itself : SentItself process

theorem invariant_start (program : CString.Text) (inherited : List Signal) :
    Invariant (start program inherited) where
  ordered := ordered_start program inherited
  itself := ⟨nofun, nofun, nofun⟩

/-- Every step keeps the invariant. -/
theorem Invariant.moves {process next : Process} {event : Event}
    (invariant : Invariant process)
    (moves : Moves process event next) : Invariant next where
  ordered := invariant.ordered.moves moves
  itself := invariant.itself.moves invariant.ordered moves

/-- Every run keeps the invariant. -/
theorem invariant_of_run {process final : Process} {events : List Event}
    (invariant : Invariant process)
    (ran : step.run process events = some final) :
    Invariant final :=
  Machine.run_invariant Invariant
    (fun _ _ _ invariant stepped => invariant.moves (step_moves stepped).2)
      invariant ran

/-- `main` never gets behind `abort`. -/
theorem Invariant.not_raised {process : Process} (invariant : Invariant process)
    (settled : process.signals.Settled) (idle : process.signals.active = []) :
    process.main ≠ .raised := by
  intro isRaised
  obtain ⟨present, unmasked⟩ := invariant.itself.raised isRaised
  exact unmasked (present.withheld settled idle).masked

/-! ## The status of the process -/

/-- The process exits with status one, or is killed by a signal that it has no
handler for. -/
def Process.EndsBadly (process : Process) : Prop :=
  match process.ending with
  | some (.exited status) => status = 1
  | some (.killed signal) =>
      signal ∉ process.signals.handled ∧ signal.terminates = true
  | some .undefined | none => True

/-- A step that ends the process ends it badly. -/
theorem Moves.endsBadly {process next : Process} {event : Event}
    (moves : Moves process event next) (running : process.ending = none)
    (invariant : Invariant process) : next.EndsBadly := by
  cases moves with
  | generate info => simp [Process.EndsBadly, running]
  | @deliver signal info signals accepted =>
      rcases ending_deliver process info signals with same
        | ⟨unhandled, terminates, killed⟩
      · simp [Process.EndsBadly, same, running]
      · rw [Process.EndsBadly, killed]
        refine ⟨?_, terminates⟩
        rcases deliver_signals process info signals with ⟨_, handled⟩
          | ⟨ignored, _⟩
        · exact absurd handled unhandled
        · rwa [ignored]
  | main succeeds settled idle =>
      rcases ending_mainStep process succeeds with same | exited | ⟨isRaised, _⟩
      · simp [Process.EndsBadly, same, running]
      · simp [Process.EndsBadly, exited]
      · exact absurd isRaised (invariant.not_raised settled idle)
  | @handler activation outer innermost messages result =>
      rcases ending_handlerStep process activation messages result with
        same | exited | ⟨_, undefined⟩
      · simp [Process.EndsBadly, same, running]
      · simp [Process.EndsBadly, exited]
      · simp [Process.EndsBadly, undefined]

/-- Every run that ends the process ends it badly. -/
theorem endsBadly_of_run {program : CString.Text} {inherited : List Signal}
    {events : List Event} {final : Process}
    (ran : step.run (start program inherited) events = some final) :
    final.EndsBadly := by
  refine (Machine.run_invariant (fun process => Invariant process ∧
    process.EndsBadly) ?_
    ⟨invariant_start program inherited, trivial⟩ ran).2
  intro process event next holds stepped
  obtain ⟨running, moves⟩ := step_moves stepped
  exact ⟨holds.1.moves moves, moves.endsBadly running holds.1⟩

/-- A registered signal without a handler is one that `sigaction` is still to be
called for. -/
theorem Installed.before {process : Process} (installed : Installed process)
    {signal : Signal}
    (isRegistered : signal ∈ registered)
    (unhandled : signal ∉ process.signals.handled) :
    process.main = .malloc ∨ process.main = .sigaltstack ∨
      ∃ left, process.main = .sigaction left ∧ signal ∈ left := by
  unfold Installed at installed
  split at installed
  · exact .inl ‹_›
  · exact .inr (.inl ‹_›)
  · rename_i left pc
    rw [← installed] at isRegistered
    exact .inr
      (.inr ⟨left, pc,
        (List.mem_append.mp isRegistered).resolve_left unhandled⟩)
  · exact absurd (installed ▸ isRegistered) unhandled

/-- What a step leaves undefined comes from the frames it prints. -/
theorem Moves.undefined {process next : Process} {event : Event}
    (moves : Moves process event next) (running : process.ending = none)
    (undefined : next.ending = some .undefined) :
    ∃ messages result, event = .handler messages result ∧
      StackTrace.posixPrintStackTrace process.program result messages =
        none := by
  cases moves with
  | generate info => simp [running] at undefined
  | @deliver signal info signals accepted =>
      rcases ending_deliver process info signals with same | ⟨_, _, same⟩ <;>
        simp [same, running] at undefined
  | main succeeds settled idle =>
      rcases ending_mainStep process succeeds with same | same | ⟨_, same⟩ <;>
        simp [same, running] at undefined
  | @handler activation outer innermost messages result =>
      rcases ending_handlerStep process activation messages result with same
        | same | ⟨fails, _⟩
      · simp [same, running] at undefined
      · simp [same] at undefined
      · exact ⟨messages, result, rfl, fails⟩

/-- A run is undefined only if a handler prints lines that are not frames. -/
theorem undefined_of_run {process final : Process} {events : List Event}
    (ran : step.run process events = some final)
    (running : process.ending = none)
    (undefined : final.ending = some .undefined) :
    ∃ messages result, .handler messages result ∈ events ∧
      ∀ frames : List StackTrace.Frame,
        messages.map (fun message => message.bytes) ≠
          frames.map StackTrace.Frame.bytes := by
  rcases List.eq_nil_or_concat events with rfl | ⟨past, event, rfl⟩
  · cases ran
    simp [running] at undefined
  · rw [List.concat_eq_append] at ran ⊢
    obtain ⟨middle, _, stepped⟩ := Machine.run_concat_eq_some_iff.mp ran
    obtain ⟨runs, moves⟩ := step_moves stepped
    obtain ⟨messages, result, rfl, fails⟩ := moves.undefined runs undefined
    refine ⟨messages, result, by simp, fun frames framed => ?_⟩
    obtain ⟨trace, printed, _⟩ :=
      StackTrace.posixPrintStackTrace_frames middle.program result framed
    rw [printed] at fails
    cases fails

/-- No run ends with another exit status than one. A run that ends by a signal
ends by one that has no handler; of the registered signals this can only be one
that `sigaction` is still to be called for. A run of which all traces are made
of frames is defined. -/
theorem run_ending {program : CString.Text} {inherited : List Signal}
    {events : List Event}
    {final : Process}
    (ran : step.run (start program inherited) events = some final) :
    (∀ status, final.ending = some (.exited status) → status = 1) ∧
      (∀ signal, final.ending = some (.killed signal) →
        signal ∉ final.signals.handled ∧
        (signal ∈ registered →
          final.main = .malloc ∨ final.main = .sigaltstack ∨
          ∃ left, final.main = .sigaction left ∧ signal ∈ left)) ∧
      ((∀ messages result, .handler messages result ∈ events →
          ∃ frames : List StackTrace.Frame,
            messages.map (fun message => message.bytes) =
              frames.map StackTrace.Frame.bytes) →
        final.ending ≠ some .undefined) := by
  have bad := endsBadly_of_run ran
  have ordered := ordered_of_run ran
  refine ⟨fun status ended => ?_, fun signal ended => ?_,
    fun framed ended => ?_⟩
  · simpa [Process.EndsBadly, ended] using bad
  · rw [Process.EndsBadly, ended] at bad
    exact ⟨bad.1, fun isRegistered =>
      ordered.installed.before isRegistered bad.1⟩
  · obtain ⟨messages, result, present, noFrames⟩ :=
      undefined_of_run ran rfl ended
    obtain ⟨frames, same⟩ := framed messages result present
    exact noFrames frames same

/-- Nothing comes from outside and all calls succeed. -/
def undisturbed : List Event :=
  List.replicate 16 (.main true) ++
    [.deliver .sigabrt, .handler [] fun _ => 0, .handler [] fun _ => 0,
      .handler [] fun _ => 0]

/-- No signal comes from outside. -/
theorem run_ending_undisturbed :
    ∃ final, step.run (start ⟨CString.ofString "./a", by decide⟩
      []) undisturbed = some final ∧
      final.output =
        [.line "Blocking SISGUSR1...\n", .line "The signal is blocked 302\n",
          .assertion "false",
          .caught "Caught SIGABRT: usually caused by an abort() or assert()\n"] ∧
      ∀ status, final.ending = some (.exited status) → status = 1 := by
  have reached :
      (step.run (start ⟨CString.ofString "./a", by decide⟩ []) undisturbed).map
      Process.output = some [.line "Blocking SISGUSR1...\n",
        .line "The signal is blocked 302\n", .assertion "false",
        .caught "Caught SIGABRT: usually caused by an abort() or assert()\n"] := by
    decide
  obtain ⟨final, ran, output⟩ := Option.map_eq_some_iff.mp reached
  exact ⟨final, ran, output, (run_ending ran).1⟩

/-! ## What becomes of `SIGUSR1` -/

/-- What `main` has asked stays asked. -/
theorem Moves.hasAsked {process next : Process} {event : Event}
    (moves : Moves process event next) (asked : process.main.hasAsked = true) :
    next.main.hasAsked = true := by
  cases moves with
  | generate info => exact asked
  | deliver accepted => rwa [deliver_main]
  | main succeeds settled idle =>
      unfold Process.mainStep
      split <;> simp_all
  | handler innermost messages result => rwa [handlerStep_main]

/-- When `main` is behind `sigpending`, it has printed that the signal is
blocked, and from there on `SIGUSR1` is pending for good: it is never
handled. -/
theorem run_sigusr1 {program : CString.Text} {inherited : List Signal}
    {events : List Event}
    {process : Process}
    (ran : step.run (start program inherited) events = some process)
    (asked : process.main.hasAsked = true) :
    .line "The signal is blocked 302\n" ∈ process.output ∧
      ∀ more later, step.run process more = some later →
        Withheld later.signals .sigusr1 := by
  have invariant := invariant_of_run (invariant_start program inherited) ran
  refine ⟨(invariant.itself.told asked).1, fun more later ranOn => ?_⟩
  have askedLater : later.main.hasAsked = true :=
    Machine.run_invariant (fun process => process.main.hasAsked = true)
      (fun _ _ _ asked stepped => (step_moves stepped).2.hasAsked asked)
        asked ranOn
  exact ((invariant_of_run invariant ranOn).itself.told askedLater).2

/-- The run up to the line about the blocked signal. -/
theorem run_sigusr1_undisturbed :
    ∃ process, step.run (start ⟨CString.ofString "./a", by decide⟩ [])
        (undisturbed.take 14) = some process ∧
      ∀ more later, step.run process more = some later →
        Withheld later.signals .sigusr1 := by
  have reached : (step.run (start ⟨CString.ofString "./a", by decide⟩ [])
      (undisturbed.take 14)).map (fun process => process.main.hasAsked) =
        some true := by decide
  obtain ⟨process, ran, asked⟩ := Option.map_eq_some_iff.mp reached
  exact ⟨process, ran, (run_sigusr1 ran asked).2⟩

end SignalHandler
end LinuxCPractice
