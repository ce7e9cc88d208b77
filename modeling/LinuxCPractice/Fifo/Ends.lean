import LinuxCPractice.Fifo.Transition
import Mathlib.Data.List.Nodup

/-!
# Who has a FIFO open, and where a message can be

These hold in every run. Whether a message arrives is another matter.
-/

namespace LinuxCPractice
namespace Fifo

open World

/-! ## The parts of a step -/

namespace Pipe

variable {pipe : Pipe} {role other : Role} {number holder : Nat}

/-- An end that is opened has one holder more. -/
theorem mem_addEnd : holder ∈ (pipe.addEnd role number).ends other ↔
    holder ∈ pipe.ends other ∨ other = role ∧ holder = number := by
  by_cases same : other = role
  · subst same
    simp [addEnd]
  · simp [addEnd, same]

/-- Nobody holds an end twice. -/
theorem nodup_addEnd (nodup : (pipe.ends other).Nodup)
    (new : number ∉ pipe.ends role) :
    ((pipe.addEnd role number).ends other).Nodup := by
  by_cases same : other = role
  · subst same
    simpa [addEnd, List.nodup_append, nodup] using
      fun held isHeld => ne_of_mem_of_not_mem isHeld new
  · simpa [addEnd, same] using nodup

/-- An end that is closed has one holder less. -/
theorem mem_removeEnd (nodup : (pipe.ends other).Nodup) :
    holder ∈ (pipe.removeEnd role number).ends other ↔
      holder ∈ pipe.ends other ∧ ¬(other = role ∧ holder = number) := by
  by_cases same : other = role
  · subst same
    simp [removeEnd, nodup.mem_erase_iff, and_comm]
  · simp [removeEnd, same]

/-- Closing an end leaves the holders distinct. -/
theorem nodup_removeEnd (nodup : (pipe.ends other).Nodup) :
    ((pipe.removeEnd role number).ends other).Nodup := by
  by_cases same : other = role
  · subst same
    simpa [removeEnd] using nodup.erase number
  · simpa [removeEnd, same] using nodup

@[simp, grind =] theorem addEnd_messages :
    (pipe.addEnd role number).messages = pipe.messages := rfl

/-- All messages are lost or none. -/
theorem removeEnd_messages : (pipe.removeEnd role number).messages = [] ∨
    (pipe.removeEnd role number).messages = pipe.messages := by
  unfold removeEnd
  simp only
  split
  · exact .inl rfl
  · exact .inr rfl

/-- Closing an end adds no message. -/
theorem removeEnd_messages_sublist :
    (pipe.removeEnd role number).messages.Sublist pipe.messages := by
  rcases @removeEnd_messages pipe role number with lost | kept
  · rw [lost]
    exact List.nil_sublist _
  · rw [kept]

/-- Closing an end loses messages only if it was the last one. -/
theorem removeEnd_messages_eq
    (unheld : (∀ other, (pipe.removeEnd role number).ends other = []) →
      pipe.messages = []) :
    (pipe.removeEnd role number).messages = pipe.messages := by
  by_cases none : ∀ other, (pipe.removeEnd role number).ends other = []
  · rw [unheld none]
    rcases @removeEnd_messages pipe role number with lost | kept
    · exact lost
    · rw [kept, unheld none]
  · unfold removeEnd at none ⊢
    simp only at none ⊢
    refine if_neg fun both => none fun other => ?_
    cases other with
    | reader => exact both.1
    | writer => exact both.2

end Pipe

namespace World

variable {world : World} {role other : Role} {number holder inode i : Nat}
  {pc : Pc} {pipe : Pipe}
  {text : Option Nat}

@[grind =] theorem setPc_procs :
    (world.setPc role number pc).procs other holder =
    if other = role ∧ holder = number then pc
    else world.procs other holder := by
  by_cases same : other = role
  · subst same
    simp [setPc, Function.update_apply]
  · simp [setPc, same]

@[grind =] theorem setPipe_pipes : (world.setPipe inode pipe).pipes i =
    if i = inode then pipe else world.pipes i := by
  simp [setPipe, Function.update_apply]

@[grind =] theorem wake_procs : (world.wake role inode).procs other holder =
    if other = role ∧ world.procs role holder = .opening inode then
      .transfer inode
    else world.procs other holder := by
  by_cases same : other = role
  · subst same
    simp [wake]
  · simp [wake, same]

@[grind =] theorem print_printed : (world.print number text).printed holder =
    if holder = number then some text else world.printed holder := by
  simp [print, Function.update_apply]

@[simp, grind =] theorem setPc_pipes :
    (world.setPc role number pc).pipes i = world.pipes i := rfl

@[simp, grind =] theorem setPc_written :
    (world.setPc role number pc).written = world.written := rfl

@[simp, grind =] theorem setPc_printed :
    (world.setPc role number pc).printed holder = world.printed holder := rfl

@[simp, grind =] theorem setPipe_procs :
    (world.setPipe inode pipe).procs other holder =
      world.procs other holder := rfl

@[simp, grind =] theorem setPipe_written :
    (world.setPipe inode pipe).written = world.written := rfl

@[simp, grind =] theorem setPipe_printed :
    (world.setPipe inode pipe).printed holder = world.printed holder := rfl

@[simp, grind =] theorem wake_pipes :
    (world.wake role inode).pipes i = world.pipes i := rfl

@[simp, grind =] theorem wake_written :
    (world.wake role inode).written = world.written := rfl

@[simp, grind =] theorem wake_printed :
    (world.wake role inode).printed holder = world.printed holder := rfl

@[simp, grind =] theorem print_procs :
    (world.print number text).procs other holder =
      world.procs other holder := rfl

@[simp, grind =] theorem print_pipes :
    (world.print number text).pipes i = world.pipes i := rfl

@[simp, grind =] theorem print_written :
    (world.print number text).written = world.written := rfl

@[grind =] theorem unlink_procs {succeeds : Bool} :
    (world.unlink role number succeeds).procs other holder =
      if other = role ∧ holder = number then .exited 0
      else world.procs other holder := by
  simp [unlink, setPc_procs]

@[simp, grind =] theorem unlink_pipes {succeeds : Bool} :
    (world.unlink role number succeeds).pipes i = world.pipes i := rfl

@[simp, grind =] theorem unlink_written {succeeds : Bool} :
    (world.unlink role number succeeds).written = world.written := rfl

@[simp, grind =] theorem unlink_printed {succeeds : Bool} :
    (world.unlink role number succeeds).printed holder =
      world.printed holder := rfl

end World

/-! ## Ends -/

/-- A process has the FIFO open. -/
def Pc.Holds (pc : Pc) (inode : Nat) : Prop :=
  pc = .opening inode ∨ pc = .transfer inode ∨ pc = .close inode

/-- The processes that have a FIFO open are those inside or past `open`. A call
of `open` blocks only while the other end is not open. -/
structure Ends (world : World) : Prop where
  nodup : ∀ inode role, ((world.pipes inode).ends role).Nodup
  mem : ∀ inode role number, number ∈ (world.pipes inode).ends role ↔
    (world.procs role number).Holds inode
  alone : ∀ inode role number holder, world.procs role number = .opening inode →
    ¬(world.procs role.other holder).Holds inode

/-- An end is closed exactly if no process holds it. -/
theorem Ends.nil_iff {world : World} (ends : Ends world) {inode : Nat}
    {role : Role} :
    (world.pipes inode).ends role = [] ↔
      ∀ number, ¬(world.procs role number).Holds inode := by
  simp only [List.eq_nil_iff_forall_not_mem, ends.mem]

section Ends

variable {world next : World} {role : Role} {number inode : Nat} {old pc : Pc}

/-- A step that neither opens nor closes a FIFO. -/
theorem Ends.moves (ends : Ends world) (was : world.procs role number = old)
    (same : ∀ i, pc.Holds i ↔ old.Holds i) (goes : ∀ i, pc ≠ .opening i)
    (procs : next.procs = (world.setPc role number pc).procs)
    (pipes : ∀ i other,
      (next.pipes i).ends other = (world.pipes i).ends other) :
    Ends next := by
  have holds (other : Role) (holder i : Nat) :
      (next.procs other holder).Holds i ↔
        (world.procs other holder).Holds i := by
    rw [procs, setPc_procs]
    split
    case isTrue moved => rw [moved.1, moved.2, was, same]
    case isFalse => rfl
  constructor
  · intro i other
    rw [pipes]
    exact ends.nodup i other
  · intro i other holder
    rw [pipes, holds]
    exact ends.mem i other holder
  · intro i other holder waiting blocked
    rw [holds]
    rw [procs, setPc_procs] at blocked
    split at blocked
    · exact absurd blocked (goes i)
    · exact ends.alone i other holder waiting blocked

/-- A process that opens its end holds it. -/
theorem Ends.addEnd (ends : Ends world)
    (opens : world.procs role number = .open_)
    (passes : pc = .opening inode ∧ (world.pipes inode).ends role.other = [] ∨
      pc = .transfer inode) :
    Ends (((world.wake role.other inode).setPc role number pc).setPipe inode
      ((world.pipes inode).addEnd role number)) := by
  rw [ends.nil_iff] at passes
  obtain ⟨nodup, mem, alone⟩ := ends
  have new : number ∉ (world.pipes inode).ends role := by
    rw [mem, opens]
    simp [Pc.Holds]
  constructor
  · intro i other
    rw [setPipe_pipes]
    split
    · exact Pipe.nodup_addEnd (nodup inode other) new
    · exact nodup i other
  · intro i other holder
    rw [setPipe_pipes]
    by_cases same : i = inode
    · subst same
      rw [if_pos rfl, Pipe.mem_addEnd, mem]
      simp only [setPc_procs, wake_procs, setPipe_procs]
      grind [Pc.Holds]
    · rw [if_neg same]
      simp only [setPc_procs, wake_procs, setPipe_procs]
      exact (mem i other holder).trans (by grind [Pc.Holds])
  · intro i other holder waiting
    simp only [setPc_procs, wake_procs, setPipe_procs]
    cases other <;> cases role <;> grind [Pc.Holds, Role.other]

/-- A process that closes its end no longer holds it. -/
theorem Ends.removeEnd (ends : Ends world)
    (had : world.procs role number = .transfer inode ∨
      world.procs role number = .close inode)
    (leaves : ∀ i, ¬pc.Holds i) :
    Ends ((world.setPc role number pc).setPipe inode
      ((world.pipes inode).removeEnd role number)) := by
  obtain ⟨nodup, mem, alone⟩ := ends
  constructor
  · intro i other
    rw [setPipe_pipes]
    split
    · exact Pipe.nodup_removeEnd (nodup inode other)
    · exact nodup i other
  · intro i other holder
    rw [setPipe_pipes]
    by_cases same : i = inode
    · subst same
      rw [if_pos rfl, Pipe.mem_removeEnd (nodup i other), mem, setPipe_procs,
        setPc_procs]
      grind
    · rw [if_neg same, setPipe_procs, setPc_procs]
      exact (mem i other holder).trans (by grind [Pc.Holds])
  · intro i other holder waiting blocked
    rw [setPipe_procs, setPc_procs] at blocked ⊢
    have goes : pc ≠ .opening i := fun equal => leaves i (.inl equal)
    have before : world.procs other holder = .opening i := by grind
    have absent := alone i other holder waiting before
    grind

end Ends

/-- The ends of the pipes are held by the processes that have opened them. -/
theorem Ends.step {count : Nat} {world next : World} {event : Event}
    (ends : Ends world)
    (stepped : World.step count world event = some next) : Ends next := by
  obtain ⟨_, transition⟩ := transition_of_step stepped
  cases transition with
  | mkfifoFails pc | openFails pc | readsNothing pc | unlinks pc =>
      exact ends.moves pc (by simp [Pc.Holds]) (by simp) rfl (fun _ _ => rfl)
  | @creates role number inode pc nameless free =>
      refine ends.moves pc (by simp [Pc.Holds]) (by simp) rfl ?_
      intro i other
      by_cases same : i = inode
      · subst same
        cases other with
        | reader => simpa [setPipe, Pipe.empty] using free.1.symm
        | writer => simpa [setPipe, Pipe.empty] using free.2.symm
      · simp [setPipe, setPc, same]
  | blocks pc named alone => exact ends.addEnd pc (.inl ⟨rfl, alone⟩)
  | opens pc named joined => exact ends.addEnd pc (.inr rfl)
  | reads pc | writes pc =>
      refine ends.moves pc (by simp [Pc.Holds]) (by simp) rfl ?_
      intro i other
      grind
  | killed pc unreadable => exact ends.removeEnd (.inl pc) (by simp [Pc.Holds])
  | closes pc => exact ends.removeEnd (.inr pc) (by simp [Pc.Holds])

/-- The other processes do not start. -/
def Idle (count : Nat) (world : World) : Prop :=
  ∀ role number, count ≤ number → world.procs role number = .mkfifo

/-- The processes from `count` on stay at their beginning. -/
theorem Idle.step {count : Nat} {world next : World} {event : Event}
    (idle : Idle count world)
    (stepped : World.step count world event = some next) : Idle count next := by
  obtain ⟨active, transition⟩ := transition_of_step stepped
  clear stepped
  intro role number outside
  have before := idle role number outside
  cases transition <;> grind [Event.number]

/-- A process that has started is one of the first `count`. -/
theorem Idle.lt {count : Nat} {world : World} (idle : Idle count world)
    (role : Role)
    (number : Nat) (started : world.procs role number ≠ .mkfifo) :
    number < count := by
  by_contra outside
  exact started (idle role number (Nat.le_of_not_lt outside))

/-! ## Messages -/

/-- The process is past its `read` or `write`. -/
def Pc.Past : Pc → Prop
  | .close _ | .unlink | .exited _ | .killed => True
  | .mkfifo | .open_ | .opening _ | .transfer _ => False

/-- A message that was written is in one place at most, and what is in a FIFO or
was printed has been written. -/
structure Traced (world : World) : Prop where
  written : ∀ message ∈ world.written, (world.procs .writer message).Past
  sent : ∀ inode, ∀ message ∈ (world.pipes inode).messages,
    message ∈ world.written
  nodup : ∀ inode, (world.pipes inode).messages.Nodup
  single : ∀ message first second, message ∈ (world.pipes first).messages →
    message ∈ (world.pipes second).messages → first = second
  reader : ∀ number, world.printed number ≠ none →
    (world.procs .reader number).Past
  printed : ∀ number message, world.printed number = some (some message) →
    message ∈ world.written ∧ ∀ inode, message ∉ (world.pipes inode).messages
  once : ∀ first second message, world.printed first = some (some message) →
    world.printed second = some (some message) → first = second

section Traced

variable {world next : World} {role other : Role} {number holder inode : Nat}
  {pc : Pc}

/-- A process that has got past its transfer stays past it. -/
theorem past_setPc (lasts : (world.procs role number).Past → pc.Past)
    (past : (world.procs other holder).Past) :
    ((world.setPc role number pc).procs other holder).Past := by
  rw [setPc_procs]
  split
  case isTrue moved =>
    rw [moved.1, moved.2] at past
    exact lasts past
  case isFalse => exact past

/-- A wakeup takes nobody past its transfer. -/
theorem past_wake : ((world.wake role inode).procs other holder).Past ↔
    (world.procs other holder).Past := by
  rw [wake_procs]
  split
  case isTrue woken =>
    rw [woken.1, woken.2]
    exact Iff.rfl
  case isFalse => exact Iff.rfl

/-- A pipe that loses messages leaves the others as they are. -/
theorem sublist_setPipe {pipe : Pipe}
    (messages : pipe.messages.Sublist (world.pipes inode).messages) (i : Nat) :
    ((world.setPipe inode pipe).pipes i).messages.Sublist
      (world.pipes i).messages := by
  rw [setPipe_pipes]
  split
  case isTrue same => rwa [same]
  case isFalse => exact List.Sublist.refl _

/-- A step by which no message is written or printed. Messages may get lost. -/
theorem Traced.keeps (traced : Traced world)
    (past : ∀ role number, (world.procs role number).Past →
      (next.procs role number).Past)
    (messages : ∀ inode, (next.pipes inode).messages.Sublist
      (world.pipes inode).messages)
    (written : next.written = world.written)
    (printed : next.printed = world.printed) :
    Traced next := by
  constructor
  · intro message isWritten
    rw [written] at isWritten
    exact past _ _ (traced.written message isWritten)
  · intro inode message isIn
    rw [written]
    exact traced.sent inode message ((messages inode).subset isIn)
  · intro inode
    exact (traced.nodup inode).sublist (messages inode)
  · intro message first second isFirst isSecond
    exact traced.single message first second ((messages first).subset isFirst)
      ((messages second).subset isSecond)
  · intro number hasPrinted
    rw [printed] at hasPrinted
    exact past _ _ (traced.reader number hasPrinted)
  · intro number message isPrinted
    rw [printed] at isPrinted
    obtain ⟨isWritten, nowhere⟩ := traced.printed number message isPrinted
    rw [written]
    exact ⟨isWritten,
      fun inode isIn => nowhere inode ((messages inode).subset isIn)⟩
  · rw [printed]
    exact traced.once

/-- A reader prints an empty text or a message that is nowhere else. -/
theorem Traced.print (traced : Traced world)
    (past : (world.procs .reader number).Past)
    {text : Option Nat}
    (taken : ∀ message ∈ text, message ∈ world.written ∧
      (∀ inode, message ∉ (world.pipes inode).messages) ∧
      ∀ reader, world.printed reader ≠ some (some message)) :
    Traced (world.print number text) := by
  have cases {reader message : Nat}
      (isPrinted : (world.print number text).printed reader =
        some (some message)) :
      reader = number ∧ message ∈ text ∨
        world.printed reader = some (some message) := by
    rw [print_printed] at isPrinted
    split at isPrinted
    case isTrue same => exact .inl ⟨same, Option.some.inj isPrinted⟩
    case isFalse => exact .inr isPrinted
  refine ⟨traced.written, traced.sent, traced.nodup, traced.single, ?_, ?_, ?_⟩
  · intro reader hasPrinted
    rw [print_printed] at hasPrinted
    split at hasPrinted
    case isTrue same => rwa [same]
    case isFalse => exact traced.reader reader hasPrinted
  · intro reader message isPrinted
    rcases cases isPrinted with ⟨_, isTaken⟩ | before
    · exact ⟨(taken message isTaken).1, (taken message isTaken).2.1⟩
    · exact traced.printed reader message before
  · intro first second message isFirst isSecond
    rcases cases isFirst with ⟨rfl, isTaken⟩ | before
    · rcases cases isSecond with ⟨rfl, _⟩ | beforeSecond
      · rfl
      · exact absurd beforeSecond ((taken message isTaken).2.2 second)
    · rcases cases isSecond with ⟨rfl, isTaken⟩ | beforeSecond
      · exact absurd before ((taken message isTaken).2.2 first)
      · exact traced.once first second message before beforeSecond

/-- A writer puts a new message into a FIFO. -/
theorem Traced.sends (traced : Traced world)
    (past : (world.procs .writer number).Past)
    (new : number ∉ world.written)
    (messages : ∀ i, (next.pipes i).messages =
      if i = inode then (world.pipes inode).messages ++ [number]
      else (world.pipes i).messages)
    (procs : next.procs = world.procs)
    (written : next.written = world.written ++ [number])
    (printed : next.printed = world.printed) : Traced next := by
  have nowhere (i : Nat) : number ∉ (world.pipes i).messages :=
    fun isIn => new (traced.sent i number isIn)
  have cases {message i : Nat} (isIn : message ∈ (next.pipes i).messages) :
      message ∈ (world.pipes i).messages ∨ message = number ∧ i = inode := by
    rw [messages] at isIn
    split at isIn
    case isTrue same =>
      subst same
      rcases List.mem_append.mp isIn with before | isNew
      · exact .inl before
      · exact .inr ⟨List.mem_singleton.mp isNew, rfl⟩
    case isFalse => exact .inl isIn
  constructor
  · intro message isWritten
    rw [procs]
    rw [written] at isWritten
    rcases List.mem_append.mp isWritten with before | isNew
    · exact traced.written message before
    · rwa [List.mem_singleton.mp isNew]
  · intro i message isIn
    rw [written]
    apply List.mem_append.mpr
    rcases cases isIn with before | ⟨isNew, _⟩
    · exact .inl (traced.sent i message before)
    · exact .inr (List.mem_singleton.mpr isNew)
  · intro i
    rw [messages]
    split
    case isTrue =>
      rw [← List.concat_eq_append]
      exact (traced.nodup inode).concat (nowhere inode)
    case isFalse => exact traced.nodup i
  · intro message first second isFirst isSecond
    rcases cases isFirst with before | ⟨rfl, rfl⟩
    · rcases cases isSecond with beforeSecond | ⟨rfl, _⟩
      · exact traced.single message first second before beforeSecond
      · exact absurd before (nowhere first)
    · rcases cases isSecond with beforeSecond | ⟨_, same⟩
      · exact absurd beforeSecond (nowhere second)
      · exact same.symm
  · rw [printed, procs]
    exact traced.reader
  · intro reader message isPrinted
    rw [printed] at isPrinted
    rw [written]
    obtain ⟨isWritten, before⟩ := traced.printed reader message isPrinted
    refine ⟨List.mem_append_left _ isWritten, fun i isIn => ?_⟩
    rcases cases isIn with isBefore | ⟨rfl, _⟩
    · exact before i isBefore
    · exact new isWritten
  · rw [printed]
    exact traced.once

/-- A reader takes a message out of a FIFO and prints it. -/
theorem Traced.reads (traced : Traced world) {message : Nat}
    {messages : List Nat}
    (holds : (world.pipes inode).messages = message :: messages) :
    Traced (((world.setPc .reader number (.close inode)).setPipe inode
      { world.pipes inode with messages := messages }).print number
        (some message)) := by
  have takes : messages.Sublist (world.pipes inode).messages := by
    rw [holds]
    exact List.sublist_cons_self message messages
  have isIn : message ∈ (world.pipes inode).messages := by
    rw [holds]
    exact List.mem_cons_self
  have taken : Traced ((world.setPc .reader number (.close inode)).setPipe inode
      { world.pipes inode with messages := messages }) :=
    traced.keeps (fun _ _ => past_setPc fun _ => trivial)
      (sublist_setPipe takes) rfl rfl
  refine taken.print ?_ ?_
  · rw [setPipe_procs, setPc_procs, if_pos ⟨rfl, rfl⟩]
    trivial
  · rintro _ ⟨rfl⟩
    refine ⟨traced.sent inode message isIn, ?_, ?_⟩
    · intro i isLeft
      rw [setPipe_pipes] at isLeft
      split at isLeft
      case isTrue =>
        have once := traced.nodup inode
        rw [holds, List.nodup_cons] at once
        exact once.1 isLeft
      case isFalse different =>
        exact different (traced.single message i inode isLeft isIn)
    · intro reader isPrinted
      exact (traced.printed reader message isPrinted).2 inode isIn

end Traced

/-- Whatever is in a pipe has been written and not been read. -/
theorem Traced.step {count : Nat} {world next : World} {event : Event}
    (traced : Traced world)
    (stepped : World.step count world event = some next) : Traced next := by
  obtain ⟨_, transition⟩ := transition_of_step stepped
  cases transition with
  | mkfifoFails pc | openFails pc | unlinks pc =>
      refine traced.keeps (fun _ _ => past_setPc ?_)
        (fun _ => List.Sublist.refl _) rfl rfl
      simp [pc, Pc.Past]
  | @creates role number inode pc nameless free =>
      refine traced.keeps (fun _ _ => past_setPc ?_)
        (sublist_setPipe ?_) rfl rfl
      · simp [pc, Pc.Past]
      · exact List.nil_sublist _
  | blocks pc named _ | opens pc named _ =>
      refine traced.keeps (fun _ _ past => past_setPc ?_ (past_wake.mpr past))
        (sublist_setPipe (List.Sublist.refl _)) rfl rfl
      rw [past_wake, pc]
      exact False.elim
  | reads pc holds => exact traced.reads holds
  | @readsNothing number inode pc empty ended =>
      have moved : Traced (world.setPc .reader number (.close inode)) :=
        traced.keeps (fun _ _ => past_setPc fun _ => trivial)
          (fun _ => List.Sublist.refl _) rfl rfl
      refine moved.print ?_ (fun _ isTaken => ?_)
      · rw [setPc_procs, if_pos ⟨rfl, rfl⟩]
        trivial
      · cases isTaken
  | @writes number inode pc readable =>
      have moved : Traced (world.setPc .writer number (.close inode)) :=
        traced.keeps (fun _ _ => past_setPc fun _ => trivial)
          (fun _ => List.Sublist.refl _) rfl rfl
      have new : number ∉ world.written := by
        intro isWritten
        have past := traced.written number isWritten
        rw [pc] at past
        exact past
      have moreIn (i : Nat) : ((world.setPipe inode { world.pipes inode with
            messages :=
              (world.pipes inode).messages ++ [number] }).pipes i).messages =
          if i = inode then (world.pipes inode).messages ++ [number]
          else (world.pipes i).messages := by
        rw [setPipe_pipes]
        split <;> rfl
      refine moved.sends ?_ new moreIn rfl rfl rfl
      rw [setPc_procs, if_pos ⟨rfl, rfl⟩]
      trivial
  | killed pc _ | closes pc =>
      exact traced.keeps (fun _ _ => past_setPc fun _ => trivial)
        (sublist_setPipe Pipe.removeEnd_messages_sublist) rfl rfl

end Fifo
end LinuxCPractice
