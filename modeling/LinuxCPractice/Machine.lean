import Mathlib.Data.List.Basic
import Mathlib.Data.List.Induction

/-!
# Event-driven machines

A machine answers each event either with its next state or with `none`, when
the event cannot happen in the present state. A run is a finite list of
events, all of them possible. Properties of every visited state and of every
step taken are recursive predicates on the event list, so that they can be
evaluated on a concrete run.
-/

namespace LinuxCPractice

/-- A partial, deterministic reaction to events. -/
abbrev Machine (State Event : Type*) := State → Event → Option State

namespace Machine

variable {State Event : Type*} {machine : Machine State Event}

/-- Feed a list of events to the machine. -/
def run (machine : Machine State Event) : State → List Event → Option State
  | state, [] => some state
  | state, event :: events =>
      (machine state event).bind fun next => run machine next events

@[simp] theorem run_nil (state : State) :
    machine.run state [] = some state := rfl

@[simp] theorem run_cons (state : State) (event : Event) (events : List Event) :
    machine.run state (event :: events) =
      (machine state event).bind fun next => machine.run next events := rfl

/-- A run may be cut anywhere into two runs. -/
theorem run_append (state : State) (first second : List Event) :
    machine.run state (first ++ second) =
      (machine.run state first).bind fun middle =>
        machine.run middle second := by
  induction first generalizing state with
  | nil => rfl
  | cons event first inductionHypothesis =>
      cases stepped : machine state event with
      | none => simp [stepped]
      | some next => simpa [stepped] using inductionHypothesis next

/-- The last step of a nonempty run. -/
theorem run_concat_eq_some_iff {state final : State} {events : List Event}
    {event : Event} :
    machine.run state (events ++ [event]) = some final ↔
      ∃ middle, machine.run state events = some middle ∧
        machine middle event = some final := by
  simp [run_append, Option.bind_eq_some_iff]

/-- Some run leads from `start` to `state`. -/
def Reachable (machine : Machine State Event) (start state : State) : Prop :=
  ∃ events, machine.run start events = some state

theorem Reachable.refl (start : State) : machine.Reachable start start :=
  ⟨[], rfl⟩

/-- What is reachable from a reachable state is reachable. -/
theorem Reachable.trans {first second third : State}
    (reachable : machine.Reachable first second)
    (onward : machine.Reachable second third) :
    machine.Reachable first third := by
  obtain ⟨events, ran⟩ := reachable
  obtain ⟨later, ranLater⟩ := onward
  exact ⟨events ++ later, by rw [run_append, ran, Option.bind_some, ranLater]⟩

/-- A step leads to a reachable state. -/
theorem Reachable.step {start state next : State} {event : Event}
    (reachable : machine.Reachable start state)
    (stepped : machine state event = some next) :
    machine.Reachable start next := by
  obtain ⟨events, ran⟩ := reachable
  exact ⟨events ++ [event], run_concat_eq_some_iff.mpr ⟨state, ran, stepped⟩⟩

/-- A machine with a single event comes to one end only. -/
theorem Reachable.end_unique {machine : Machine State Unit}
    {start first second : State}
    (reachesFirst : machine.Reachable start first)
    (endsFirst : machine first () = none)
    (reachesSecond : machine.Reachable start second)
    (endsSecond : machine second () = none) :
    first = second := by
  obtain ⟨events, ran⟩ := reachesFirst
  obtain ⟨others, ranOthers⟩ := reachesSecond
  induction events generalizing start others with
  | nil =>
      cases ran
      cases others with
      | nil => exact Option.some.inj ranOthers
      | cons event others => simp [endsFirst] at ranOthers
  | cons event events inductionHypothesis =>
      obtain ⟨next, stepped, ranTail⟩ := Option.bind_eq_some_iff.mp ran
      cases others with
      | nil =>
          cases ranOthers
          rw [endsSecond] at stepped
          cases stepped
      | cons other others =>
          rw [run_cons, stepped, Option.bind_some] at ranOthers
          exact inductionHypothesis ranTail others ranOthers

/-! ## Properties of every visited state and of every step taken -/

/-- Every state visited by the run satisfies `holds`. -/
def Always (machine : Machine State Event) (holds : State → Prop) :
    State → List Event → Prop
  | state, [] => holds state
  | state, event :: events =>
      holds state ∧ ∀ next ∈ machine state event,
        Always machine holds next events

instance decidableAlways (holds : State → Prop) [DecidablePred holds] :
    ∀ state events, Decidable (machine.Always holds state events)
  | state, [] => inferInstanceAs (Decidable (holds state))
  | state, event :: events =>
      have (next : State) : Decidable (machine.Always holds next events) :=
        decidableAlways holds next events
      inferInstanceAs (Decidable (holds state ∧
        ∀ next ∈ machine state event, machine.Always holds next events))

/-- Every step taken by the run satisfies `meets` in the state before it. -/
def EveryStep (machine : Machine State Event) (meets : State → Event → Prop) :
    State → List Event → Prop
  | _, [] => True
  | state, event :: events =>
      meets state event ∧ ∀ next ∈ machine state event,
        EveryStep machine meets next events

instance decidableEveryStep (meets : State → Event → Prop)
    [∀ state event, Decidable (meets state event)] :
    ∀ state events, Decidable (machine.EveryStep meets state events)
  | _, [] => inferInstanceAs (Decidable True)
  | state, event :: events =>
      have (next : State) : Decidable (machine.EveryStep meets next events) :=
        decidableEveryStep meets next events
      inferInstanceAs (Decidable (meets state event ∧
        ∀ next ∈ machine state event, machine.EveryStep meets next events))

/-- The states visited by a run are those its prefixes lead to. -/
theorem always_iff {holds : State → Prop} {state : State}
    {events : List Event} :
    machine.Always holds state events ↔
      ∀ first, first <+: events → ∀ middle,
        machine.run state first = some middle →
        holds middle := by
  induction events generalizing state with
  | nil =>
      constructor
      · intro now first isPrefix middle ran
        rw [List.prefix_nil.mp isPrefix] at ran
        cases ran
        exact now
      · intro everywhere
        exact everywhere [] List.nil_prefix state rfl
  | cons event events inductionHypothesis =>
      constructor
      · rintro ⟨now, later⟩ first isPrefix middle ran
        cases first with
        | nil =>
            cases ran
            exact now
        | cons head first =>
            obtain ⟨rfl, tailPrefix⟩ := List.cons_prefix_cons.mp isPrefix
            obtain ⟨next, stepped, ranTail⟩ := Option.bind_eq_some_iff.mp ran
            exact inductionHypothesis.mp
              (later next stepped) first tailPrefix middle ranTail
      · intro everywhere
        refine ⟨everywhere [] List.nil_prefix state rfl, ?_⟩
        intro next stepped
        apply inductionHypothesis.mpr
        intro first isPrefix middle ran
        refine everywhere (event :: first)
          (List.cons_prefix_cons.mpr ⟨rfl, isPrefix⟩) middle ?_
        rw [run_cons, Option.mem_def.mp stepped]
        exact ran

/-- What holds in every state of a run holds in its last one. -/
theorem Always.last {holds : State → Prop} {state final : State}
    {events : List Event}
    (always : machine.Always holds state events)
    (ran : machine.run state events = some final) : holds final :=
  always_iff.mp always events (List.prefix_refl events) final ran

/-- What holds in every state of a run holds in every state of its beginning. -/
theorem Always.of_append {holds : State → Prop} {state : State}
    {first second : List Event}
    (always : machine.Always holds state (first ++ second)) :
    machine.Always holds state first := by
  apply always_iff.mpr
  intro opening isPrefix middle ran
  exact always_iff.mp always opening
    (isPrefix.trans (List.prefix_append _ _)) middle ran

theorem Always.mono {holds weaker : State → Prop} {state : State}
    {events : List Event}
    (always : machine.Always holds state events)
    (weaken : ∀ state, holds state → weaker state) :
    machine.Always weaker state events := by
  apply always_iff.mpr
  intro first isPrefix middle ran
  exact weaken middle (always_iff.mp always first isPrefix middle ran)

/-- Of a successful run, what every step meets may be shown knowing how the run
came to the step and how it goes on. -/
theorem everyStep_of_run {meets : State → Event → Prop} {state final : State}
    {events : List Event} (ran : machine.run state events = some final)
    (meetsStep : ∀ past event rest middle next, past ++ event :: rest = events →
      machine.run state past = some middle → machine middle event = some next →
      machine.run next rest = some final → meets middle event) :
    machine.EveryStep meets state events := by
  induction events generalizing state with
  | nil => trivial
  | cons head events inductionHypothesis =>
      obtain ⟨next, stepped, ranTail⟩ := Option.bind_eq_some_iff.mp ran
      refine ⟨meetsStep [] head events state next rfl rfl stepped ranTail, ?_⟩
      intro other sameStep
      obtain rfl : next = other := Option.some.inj (stepped.symm.trans sameStep)
      apply inductionHypothesis ranTail
      intro past event rest middle after split ranPast steppedPast ranRest
      refine meetsStep
        (head :: past) event rest middle after ?_ ?_ steppedPast ranRest
      · rw [List.cons_append, split]
      · rw [run_cons, stepped, Option.bind_some, ranPast]

/-- The steps of a run that goes on after some events. -/
theorem everyStep_append_iff {meets : State → Event → Prop}
    {state middle : State}
    {first second : List Event} (ran : machine.run state first = some middle) :
    machine.EveryStep meets state (first ++ second) ↔
      machine.EveryStep meets state first ∧
        machine.EveryStep meets middle second := by
  induction first generalizing state with
  | nil =>
      cases ran
      simp [EveryStep]
  | cons event first inductionHypothesis =>
      obtain ⟨next, stepped, ranTail⟩ := Option.bind_eq_some_iff.mp ran
      simp only [List.cons_append, EveryStep, stepped, Option.mem_some_iff,
        forall_eq', inductionHypothesis ranTail, and_assoc]

/-- A run with a step that does not meet `meets` may be cut in front of it. -/
theorem exists_not_meets_of_not_everyStep {meets : State → Event → Prop}
    {state final : State}
    {events : List Event} (ran : machine.run state events = some final)
    (fails : ¬machine.EveryStep meets state events) :
    ∃ past event rest middle next, past ++ event :: rest = events ∧
      machine.run state past = some middle ∧ machine middle event = some next ∧
      ¬meets middle event := by
  by_contra none
  refine fails (everyStep_of_run ran ?_)
  intro past event rest middle next split ranPast stepped _
  by_contra notMeets
  exact none ⟨past, event, rest, middle, next, split, ranPast, stepped,
    notMeets⟩

/-- A condition on the events alone. -/
theorem everyStep_event_iff {meets : Event → Prop} {state final : State}
    {events : List Event}
    (ran : machine.run state events = some final) :
    machine.EveryStep (fun _ event => meets event) state events ↔
      ∀ event ∈ events, meets event := by
  induction events generalizing state with
  | nil => simp [EveryStep]
  | cons event events inductionHypothesis =>
      obtain ⟨next, stepped, ranTail⟩ := Option.bind_eq_some_iff.mp ran
      rw [EveryStep, stepped, List.forall_mem_cons]
      simp only [Option.mem_some_iff, forall_eq', inductionHypothesis ranTail]

/-! ## Invariants -/

/-- An invariant preserved by the steps that meet `meets` holds in every state
visited by a run of such steps. -/
theorem always_of_everyStep
    {meets : State → Event → Prop} (invariant : State → Prop)
    (preserved : ∀ state event next, invariant state → meets state event →
      machine state event = some next → invariant next)
    {state : State} {events : List Event}
    (initially : invariant state)
    (every : machine.EveryStep meets state events) :
    machine.Always invariant state events := by
  induction events generalizing state with
  | nil => exact initially
  | cons event events inductionHypothesis =>
      refine ⟨initially, fun next stepped => ?_⟩
      exact inductionHypothesis
        (preserved state event next initially every.1 stepped)
        (every.2 next stepped)

/-- Under such an invariant the steps of a run may be known to meet more. -/
theorem everyStep_of_everyStep
    {meets proper : State → Event → Prop} (invariant : State → Prop)
    (preserved : ∀ state event next, invariant state → meets state event →
      machine state event = some next → invariant next)
    (implies : ∀ state event next, invariant state → meets state event →
      machine state event = some next → proper state event)
    {state final : State} {events : List Event} (initially : invariant state)
    (ran : machine.run state events = some final)
    (every : machine.EveryStep meets state events) :
    machine.EveryStep proper state events := by
  induction events generalizing state with
  | nil => trivial
  | cons event events inductionHypothesis =>
      obtain ⟨next, stepped, ranTail⟩ := Option.bind_eq_some_iff.mp ran
      refine ⟨implies state event next initially every.1 stepped, ?_⟩
      intro other sameStep
      obtain rfl : next = other := Option.some.inj (stepped.symm.trans sameStep)
      exact inductionHypothesis
        (preserved state event next initially every.1 stepped)
        ranTail (every.2 next stepped)

/-- In particular it holds at the end. -/
theorem run_invariant_of_everyStep
    {meets : State → Event → Prop} (invariant : State → Prop)
    (preserved : ∀ state event next, invariant state → meets state event →
      machine state event = some next → invariant next)
    {state final : State} {events : List Event}
    (initially : invariant state)
    (every : machine.EveryStep meets state events)
    (ran : machine.run state events = some final) : invariant final :=
  (always_of_everyStep invariant preserved initially every).last ran

/-- When the property follows from the invariant and a step that does not meet
`meets` breaks it at once, the property holds throughout a run exactly when all
its steps meet `meets`. -/
theorem always_iff_everyStep
    {meets : State → Event → Prop} {holds : State → Prop}
    (invariant : State → Prop)
    (preserved : ∀ state event next, invariant state → meets state event →
      machine state event = some next → invariant next)
    (sound : ∀ state, invariant state → holds state)
    (exposed : ∀ state event next, invariant state →
      machine state event = some next →
      holds next → meets state event)
    {state final : State} {events : List Event} (initially : invariant state)
    (ran : machine.run state events = some final) :
    machine.Always holds state events ↔
      machine.EveryStep meets state events := by
  constructor
  · intro always
    induction events generalizing state with
    | nil => trivial
    | cons event events inductionHypothesis =>
        obtain ⟨next, stepped, ranTail⟩ := Option.bind_eq_some_iff.mp ran
        have later := always.2 next stepped
        have now : holds next := by
          cases events with
          | nil => exact later
          | cons _ _ => exact later.1
        have met := exposed state event next initially stepped now
        refine ⟨met, ?_⟩
        intro other sameStep
        obtain rfl : next = other :=
          Option.some.inj (stepped.symm.trans sameStep)
        exact inductionHypothesis
          (preserved state event next initially met stepped) ranTail later
  · intro every
    exact (always_of_everyStep invariant preserved initially every).mono sound

/-- An invariant preserved by every step holds at the end of every run. -/
theorem run_invariant (invariant : State → Prop)
    (preserved : ∀ state event next, invariant state →
      machine state event = some next → invariant next)
    {state final : State} {events : List Event}
    (initially : invariant state)
    (ran : machine.run state events = some final) : invariant final := by
  induction events generalizing state with
  | nil =>
      cases ran
      exact initially
  | cons event events inductionHypothesis =>
      obtain ⟨next, stepped, ranTail⟩ := Option.bind_eq_some_iff.mp ran
      exact inductionHypothesis
        (preserved state event next initially stepped) ranTail

/-- A property that each step keeps exactly if it meets `meets` holds at the end
of a run exactly when it did at the start and all steps meet `meets`. -/
theorem run_iff_everyStep
    {meets : State → Event → Prop} {holds : State → Prop}
    (invariant : State → Prop)
    (preserved : ∀ state event next, invariant state →
      machine state event = some next → invariant next)
    (keeps : ∀ state event next, invariant state →
      machine state event = some next →
      (holds next ↔ holds state ∧ meets state event))
    {state final : State} {events : List Event} (initially : invariant state)
    (ran : machine.run state events = some final) :
    holds final ↔ holds state ∧ machine.EveryStep meets state events := by
  induction events generalizing state with
  | nil =>
      cases ran
      simp [EveryStep]
  | cons event events inductionHypothesis =>
      obtain ⟨next, stepped, ranTail⟩ := Option.bind_eq_some_iff.mp ran
      rw [inductionHypothesis
        (preserved state event next initially stepped) ranTail,
        keeps state event next initially stepped, EveryStep, stepped, and_assoc]
      simp only [Option.mem_some_iff, forall_eq']

/-- An invariant that relates a state to the events that led to it. -/
theorem run_invariant_past {start : State}
    (invariant : List Event → State → Prop)
    (initially : invariant [] start)
    (preserved : ∀ past state event next, machine.run start past = some state →
      invariant past state → machine state event = some next →
      invariant (past ++ [event]) next)
    {final : State} {events : List Event}
    (ran : machine.run start events = some final) : invariant events final := by
  induction events using List.reverseRecOn generalizing final with
  | nil =>
      cases ran
      exact initially
  | append_singleton past event inductionHypothesis =>
      obtain ⟨middle, ranPast, stepped⟩ := run_concat_eq_some_iff.mp ran
      exact preserved past middle event final ranPast
        (inductionHypothesis ranPast) stepped

/-- How many steps of the run meet `meets`. -/
def countSteps (machine : Machine State Event) (meets : State → Event → Prop)
    [∀ state event, Decidable (meets state event)] : State → List Event → Nat
  | _, [] => 0
  | state, event :: events =>
      (if meets state event then 1 else 0) +
        ((machine state event).map fun next =>
          countSteps machine meets next events).getD 0

/-- One more step behind a run. -/
theorem countSteps_concat {meets : State → Event → Prop}
    [∀ state event, Decidable (meets state event)] {state middle next : State}
    {events : List Event} {event : Event}
    (ran : machine.run state events = some middle)
    (stepped : machine middle event = some next) :
    machine.countSteps meets state (events ++ [event]) =
      machine.countSteps meets state events + if meets middle event then 1
        else 0 := by
  induction events generalizing state with
  | nil =>
      cases ran
      simp [countSteps, stepped]
  | cons head events inductionHypothesis =>
      obtain ⟨after, steppedHead, ranTail⟩ := Option.bind_eq_some_iff.mp ran
      simp only [List.cons_append, countSteps, steppedHead, Option.map_some,
        Option.getD_some, inductionHypothesis ranTail, Nat.add_assoc]

/-! ## Runs to the end -/

/-- If some of the events bring every state closer to the end, a run of these
events alone leads to a state in which none of them can happen. -/
theorem exists_run_to_rest (allowed : Event → Prop) (remaining : State → Nat)
    (closer : ∀ state event next, allowed event →
      machine state event = some next →
      remaining next < remaining state)
    (state : State) :
    ∃ events final, machine.run state events = some final ∧
      (∀ event, allowed event → machine final event = none) ∧ ∀ event ∈ events,
        allowed event := by
  induction left : remaining state using Nat.strongRecOn generalizing state with
  | ind left inductionHypothesis =>
      subst left
      by_cases rests : ∀ event, allowed event → machine state event = none
      · exact ⟨[], state, rfl, rests, by simp⟩
      · obtain ⟨event, can⟩ := not_forall.mp rests
        obtain ⟨isAllowed, possible⟩ := Classical.not_imp.mp can
        obtain ⟨next, stepped⟩ := Option.ne_none_iff_exists'.mp possible
        obtain ⟨events, final, ran, nothing, all⟩ :=
          inductionHypothesis _
            (closer state event next isAllowed stepped) next rfl
        refine ⟨event :: events, final, ?_, nothing, ?_⟩
        · rw [run_cons, stepped, Option.bind_some, ran]
        · exact List.forall_mem_cons.mpr ⟨isAllowed, all⟩

/-- If moreover one of them can happen where anything can, nothing at all can
happen there. -/
theorem exists_run_to_end (allowed : Event → Prop) (remaining : State → Nat)
    (closer : ∀ state event next, allowed event →
      machine state event = some next →
      remaining next < remaining state)
    (possible : ∀ state event next, machine state event = some next →
      ∃ other after, allowed other ∧ machine state other = some after)
    (state : State) :
    ∃ events final, machine.run state events = some final ∧
      (∀ event, machine final event = none) ∧ ∀ event ∈ events,
        allowed event := by
  obtain ⟨events, final, ran, rests, all⟩ :=
    exists_run_to_rest allowed remaining closer state
  refine ⟨events, final, ran, fun event => ?_, all⟩
  by_contra can
  obtain ⟨next, stepped⟩ := Option.ne_none_iff_exists'.mp can
  obtain ⟨other, after, isAllowed, steppedOther⟩ :=
    possible final event next stepped
  rw [rests other isAllowed] at steppedOther
  cases steppedOther

/-- A run of such events alone is no longer than the distance it has covered. -/
theorem length_run_le {allowed : Event → Prop} {remaining : State → Nat}
    (closer : ∀ state event next, allowed event →
      machine state event = some next →
      remaining next < remaining state)
    {state final : State} {events : List Event}
    (ran : machine.run state events = some final)
    (all : ∀ event ∈ events, allowed event) :
    events.length + remaining final ≤ remaining state := by
  induction events generalizing state with
  | nil =>
      cases ran
      simp
  | cons event events inductionHypothesis =>
      obtain ⟨next, stepped, ranTail⟩ := Option.bind_eq_some_iff.mp ran
      obtain ⟨isAllowed, rest⟩ := List.forall_mem_cons.mp all
      have less := closer state event next isAllowed stepped
      have tail := inductionHypothesis ranTail rest
      rw [List.length_cons]
      omega

/-- If one kind of events covers some distance each and no other event takes it
back, there are no more of them in a run than the distance it has covered. -/
theorem countP_add_le (mine : Event → Prop) [DecidablePred mine]
    (remaining : State → Nat)
    (closer : ∀ state event next, machine state event = some next →
      (if mine event then 1 else 0) + remaining next ≤ remaining state)
    {state final : State} {events : List Event}
    (ran : machine.run state events = some final) :
    events.countP mine + remaining final ≤ remaining state := by
  induction events generalizing state with
  | nil =>
      cases ran
      simp
  | cons event events inductionHypothesis =>
      obtain ⟨next, stepped, ranTail⟩ := Option.bind_eq_some_iff.mp ran
      have first := closer state event next stepped
      have tail := inductionHypothesis ranTail
      rw [List.countP_cons]
      simp only [decide_eq_true_eq]
      omega

/-- If from every state in which the goal is not reached some run comes closer
to it, then some run reaches it. -/
theorem exists_run_until {invariant goal : State → Prop}
    (remaining : State → Nat)
    (closer : ∀ state, invariant state → ¬goal state → ∃ events next,
      machine.run state events = some next ∧ invariant next ∧
        remaining next < remaining state)
    {state : State} (holds : invariant state) :
    ∃ events final, machine.run state events = some final ∧ invariant final ∧
      goal final := by
  induction left : remaining state using Nat.strongRecOn generalizing state with
  | ind left inductionHypothesis =>
      subst left
      by_cases reached : goal state
      · exact ⟨[], state, rfl, holds, reached⟩
      · obtain ⟨events, next, ran, nextHolds, less⟩ :=
          closer state holds reached
        obtain ⟨more, final, ranOn, finalHolds, finalReached⟩ :=
          inductionHypothesis _ less nextHolds rfl
        exact ⟨events ++ more, final,
          by rw [run_append, ran, Option.bind_some, ranOn],
          finalHolds, finalReached⟩

/-! ## Logs -/

/-- A machine of which every step is matched by a run of another machine: so are
its runs. -/
theorem exists_run_of_simulation {Abstract Label : Type*}
    {abstract : Machine Abstract Label}
    (view : State → Abstract)
    (follows : ∀ state event next, machine state event = some next →
      ∃ moves, abstract.run (view state) moves = some (view next))
    {state final : State} {events : List Event}
    (ran : machine.run state events = some final) :
    ∃ moves, abstract.run (view state) moves = some (view final) := by
  induction events generalizing state with
  | nil =>
      cases ran
      exact ⟨[], rfl⟩
  | cons event events inductionHypothesis =>
      obtain ⟨next, stepped, ranTail⟩ := Option.bind_eq_some_iff.mp ran
      obtain ⟨first, followed⟩ := follows state event next stepped
      obtain ⟨second, followedTail⟩ := inductionHypothesis ranTail
      exact ⟨first ++ second,
        by rw [run_append, followed, Option.bind_some, followedTail]⟩

/-- A machine of which each step either is a step of the component, under the
label it is given, or leaves the component alone: its runs are runs of the
component. -/
theorem run_component {Part Label : Type*} {component : Machine Part Label}
    (part : State → Part) (label : Event → Option Label)
    (moves : ∀ state event next move, machine state event = some next →
      label event = some move → component (part state) move = some (part next))
    (rests : ∀ state event next, machine state event = some next →
      label event = none → part next = part state)
    {state final : State} {events : List Event}
    (ran : machine.run state events = some final) :
    component.run (part state) (events.filterMap label) =
      some (part final) := by
  induction events generalizing state with
  | nil =>
      cases ran
      rfl
  | cons event events inductionHypothesis =>
      obtain ⟨next, stepped, ranTail⟩ := Option.bind_eq_some_iff.mp ran
      cases labelled : label event with
      | none =>
          rw [List.filterMap_cons_none labelled,
            ← rests state event next stepped labelled]
          exact inductionHypothesis ranTail
      | some move =>
          rw [List.filterMap_cons_some labelled, run_cons,
            moves state event next move stepped labelled]
          exact inductionHypothesis ranTail

end Machine
end LinuxCPractice
