import LinuxCPractice.Fifo.Ends

/-!
# One message for each reader

A reader takes one message and each writer sends one, but nothing ties a reader
to a writer. When the last writer gives a FIFO up, the messages in it have to be
as many as the readers that have not read yet: the others among the readers
print an empty text, the others among the messages are lost.
-/

namespace LinuxCPractice
namespace Fifo

open World

namespace World

/-- The readers that have the FIFO open and have not read yet. -/
def waiting (world : World) (inode : Nat) : List Nat :=
  ((world.pipes inode).ends .reader).filter fun number =>
    world.procs .reader number = .transfer inode

/-- The FIFO that a writer gives up in this step. -/
def givesUp (world : World) : Event → Option Nat
  | .write number =>
      match world.procs .writer number with
      | .transfer inode =>
          if (world.pipes inode).ends .reader = [] then some inode else none
      | _ => none
  | .close .writer number =>
      match world.procs .writer number with
      | .close inode => some inode
      | _ => none
  | _ => none

/-- No other writer has got past opening the FIFO. -/
def LastWriter (world : World) (number inode : Nat) : Prop :=
  ∀ other ∈ (world.pipes inode).ends .writer,
    other = number ∨ world.procs .writer other = .opening inode

instance (world : World) (number inode : Nat) :
    Decidable (world.LastWriter number inode) :=
  inferInstanceAs (Decidable (∀ other ∈ _, _))

end World

/-- When the last writer gives a FIFO up, it holds one message for each reader
that has not read yet. -/
def Balanced (world : World) (event : Event) : Prop :=
  ∀ inode ∈ world.givesUp event, world.LastWriter event.number inode →
    (world.pipes inode).messages.length = (world.waiting inode).length

instance (world : World) (event : Event) : Decidable (Balanced world event) :=
  inferInstanceAs (Decidable (∀ inode ∈ _, _))

/-! ## Readers that have not read yet -/

/-- The readers that wait at a pipe are those in their `read`. -/
theorem Ends.mem_waiting {world : World} (ends : Ends world)
    {number inode : Nat} :
    number ∈ world.waiting inode ↔
      world.procs .reader number = .transfer inode := by
  simp only [waiting, List.mem_filter, ends.mem, decide_eq_true_eq]
  grind [Pc.Holds]

/-- No reader waits twice. -/
theorem Ends.nodup_waiting {world : World} (ends : Ends world) (inode : Nat) :
    (world.waiting inode).Nodup :=
  (ends.nodup inode .reader).filter _

/-- As many readers wait if the same are in their `read`. -/
theorem Ends.length_waiting_eq {world next : World} (ends : Ends world)
    (endsNext : Ends next)
    (inode : Nat)
    (same : ∀ number, next.procs .reader number = .transfer inode ↔
      world.procs .reader number = .transfer inode) :
    (next.waiting inode).length = (world.waiting inode).length := by
  apply List.Perm.length_eq
  rw [List.perm_ext_iff_of_nodup (endsNext.nodup_waiting inode)
    (ends.nodup_waiting inode)]
  intro number
  rw [ends.mem_waiting, endsNext.mem_waiting, same]

/-- One reader has read. -/
theorem Ends.length_waiting_succ {world next : World} (ends : Ends world)
    (endsNext : Ends next) {reader inode : Nat}
    (was : world.procs .reader reader = .transfer inode)
    (leaves : ∀ number, next.procs .reader number = .transfer inode ↔
      world.procs .reader number = .transfer inode ∧ number ≠ reader) :
    (world.waiting inode).length = (next.waiting inode).length + 1 := by
  change _ = (reader :: next.waiting inode).length
  apply List.Perm.length_eq
  rw [List.perm_ext_iff_of_nodup (ends.nodup_waiting inode)]
  · intro number
    rw [List.mem_cons, ends.mem_waiting, endsNext.mem_waiting, leaves]
    grind
  · rw [List.nodup_cons, endsNext.mem_waiting, leaves]
    exact ⟨by simp, endsNext.nodup_waiting inode⟩

/-! ## Balance -/

/-- The writer has got past opening the FIFO and not given it up. -/
def World.Writing (world : World) (number inode : Nat) : Prop :=
  world.procs .writer number = .transfer inode ∨
    world.procs .writer number = .close inode

/-- Without a writer a FIFO holds one message for each reader that has not read
yet, and no message is lost. -/
structure InBalance (world : World) : Prop where
  even : ∀ inode, (∀ number, ¬world.Writing number inode) →
    (world.pipes inode).messages.length = (world.waiting inode).length
  kept : ∀ message ∈ world.written,
    (∃ number, world.printed number = some (some message)) ∨
      ∃ inode, message ∈ (world.pipes inode).messages
  text : ∀ number, world.printed number ≠ some none

/-- A step by which no message is written, read or lost. -/
theorem InBalance.keeps {world next : World} (inBalance : InBalance world)
    (ends : Ends world)
    (endsNext : Ends next)
    (even : ∀ inode, (∀ number, ¬next.Writing number inode) →
      (world.pipes inode).messages.length = (world.waiting inode).length ∧
        ∀ number, next.procs .reader number = .transfer inode ↔
          world.procs .reader number = .transfer inode)
    (messages : ∀ inode,
      (next.pipes inode).messages = (world.pipes inode).messages)
    (written : next.written = world.written)
    (printed : next.printed = world.printed) :
    InBalance next := by
  constructor
  · intro inode unwritten
    obtain ⟨before, same⟩ := even inode unwritten
    rw [messages, before, ends.length_waiting_eq endsNext inode same]
  · intro message isWritten
    rw [written] at isWritten
    simp only [printed, messages]
    exact inBalance.kept message isWritten
  · rw [printed]
    exact inBalance.text

/-- No writer gives a FIFO up, and nobody joins one that has no writer. -/
theorem InBalance.keeps_of_persist {world next : World}
    (inBalance : InBalance world)
    (ends : Ends world) (endsNext : Ends next)
    (persist : ∀ number inode, world.Writing number inode →
      next.Writing number inode)
    (joins : ∀ number inode, (next.procs .reader number = .transfer inode ↔
      world.procs .reader number = .transfer inode) ∨ ∃ writer,
      next.Writing writer inode)
    (messages : ∀ inode,
      (next.pipes inode).messages = (world.pipes inode).messages)
    (written : next.written = world.written)
    (printed : next.printed = world.printed) :
    InBalance next := by
  refine inBalance.keeps ends endsNext ?_ messages written printed
  intro inode unwritten
  refine ⟨inBalance.even inode ?_, ?_⟩
  · intro number writing
    exact unwritten number (persist number inode writing)
  · intro number
    rcases joins number inode with same | ⟨writer, writing⟩
    · exact same
    · exact absurd writing (unwritten writer)

/-- A process that opens an end keeps the balance. -/
theorem InBalance.opens {world : World} {role : Role} {number inode : Nat}
    {pc : Pc}
    (inBalance : InBalance world) (ends : Ends world)
    (was : world.procs role number = .open_)
    (passes : pc = .opening inode ∧ (world.pipes inode).ends role.other = [] ∨
      pc = .transfer inode ∧ (world.pipes inode).ends role.other ≠ []) :
    InBalance
      (((world.wake role.other inode).setPc role number pc).setPipe inode
        ((world.pipes inode).addEnd role number)) := by
  have endsNext := ends.addEnd was (passes.imp_right And.left)
  rw [Ne, ends.nil_iff] at passes
  refine inBalance.keeps_of_persist ends endsNext ?_ ?_ ?_ rfl rfl
  · grind [Writing]
  · intro reader i
    by_cases same : i = inode
    · subst same
      rcases passes with ⟨rfl, alone⟩ | ⟨rfl, joined⟩
      · left
        grind [Pc.Holds]
      · right
        cases role with
        | reader =>
            obtain ⟨writer, holds⟩ := not_forall_not.mp joined
            refine ⟨writer, ?_⟩
            grind [Role.other, Pc.Holds, Writing]
        | writer => exact ⟨number, by grind [Writing]⟩
    · left
      grind
  · grind

/-- Whoever gives up a FIFO loses no message if it is in balance then. -/
theorem InBalance.closes {world : World} {role : Role} {number inode : Nat}
    {pc : Pc}
    (inBalance : InBalance world) (ends : Ends world)
    (had : world.procs role number = .transfer inode ∧ role = .writer ∨
      world.procs role number = .close inode)
    (leaves : ∀ i, ¬pc.Holds i)
    (even : (∀ other, world.Writing other inode →
      role = .writer ∧ other = number) →
      (world.pipes inode).messages.length = (world.waiting inode).length) :
    InBalance ((world.setPc role number pc).setPipe inode
      ((world.pipes inode).removeEnd role number)) := by
  have endsNext := ends.removeEnd (had.imp_left And.left) leaves
  have kept : ((world.pipes inode).removeEnd role number).messages =
      (world.pipes inode).messages := by
    apply Pipe.removeEnd_messages_eq
    intro unheld
    have only (other : Role) (holder : Nat)
        (holds : (world.procs other holder).Holds inode) :
        other = role ∧ holder = number := by
      by_contra different
      have member := (Pipe.mem_removeEnd (ends.nodup inode other)).mpr
        ⟨(ends.mem inode other holder).mpr holds, different⟩
      rw [unheld other] at member
      cases member
    rw [← List.length_eq_zero_iff, even, List.length_eq_zero_iff,
      List.eq_nil_iff_forall_not_mem]
    · intro reader waits
      rw [ends.mem_waiting] at waits
      have isCloser := only .reader reader (.inr (.inl waits))
      grind
    · intro other writing
      have isCloser := only .writer other (by grind [Writing, Pc.Holds])
      exact ⟨isCloser.1.symm, isCloser.2⟩
  refine inBalance.keeps ends endsNext ?_ ?_ rfl rfl
  · intro i unwritten
    refine ⟨?_, ?_⟩
    · by_cases same : i = inode
      · subst same
        apply even
        intro other writing
        by_contra different
        refine unwritten other ?_
        simp only [Writing, setPipe_procs, setPc_procs]
        grind [Writing]
      · apply inBalance.even
        intro other writing
        refine unwritten other ?_
        simp only [Writing, setPipe_procs, setPc_procs]
        grind [Writing]
    · intro reader
      have notHeld := leaves i
      grind [Pc.Holds]
  · grind

/-- A writer that is alone at a pipe is its last one. -/
theorem Ends.lastWriter {world : World} (ends : Ends world) {number inode : Nat}
    (only : ∀ other, world.Writing other inode → other = number) :
    world.LastWriter number inode := by
  intro other member
  rw [ends.mem] at member
  rcases member with opening | writing
  · exact .inr opening
  · exact .inl (only other writing)

/-- A balanced step keeps the balance. -/
theorem InBalance.step {count : Nat} {world next : World} {event : Event}
    (inBalance : InBalance world) (ends : Ends world) (traced : Traced world)
    (balanced : Balanced world event)
    (stepped : World.step count world event = some next) : InBalance next := by
  have endsNext := ends.step stepped
  obtain ⟨_, transition⟩ := transition_of_step stepped
  clear stepped
  cases transition with
  | mkfifoFails pc | openFails pc | unlinks pc =>
      refine inBalance.keeps_of_persist ends endsNext ?_ ?_
        (fun _ => rfl) rfl rfl
      · grind [Writing]
      · grind
  | @creates role number inode pc nameless free =>
      have empty : (world.pipes inode).messages = [] := by
        have unwritten := ends.nil_iff.mp free.2
        rw [← List.length_eq_zero_iff, inBalance.even inode,
          List.length_eq_zero_iff, waiting, free.1, List.filter_nil]
        intro number writing
        exact unwritten number (.inr writing)
      refine inBalance.keeps_of_persist ends endsNext ?_ ?_ ?_ rfl rfl
      · grind [Writing]
      · grind
      · grind [Pipe.empty]
  | blocks pc named alone => exact inBalance.opens ends pc (.inl ⟨rfl, alone⟩)
  | opens pc named joined => exact inBalance.opens ends pc (.inr ⟨rfl, joined⟩)
  | @reads reader inode message messages pc holds =>
      have unread := mt (traced.reader reader) (by simp [pc, Pc.Past])
      constructor
      · intro i unwritten
        have before := inBalance.even i fun number writing =>
          unwritten number (by grind [Writing])
        by_cases same : i = inode
        · subst same
          have fewer := ends.length_waiting_succ endsNext pc (by grind)
          grind
        · have asMany := ends.length_waiting_eq endsNext i (by grind)
          grind
      · intro other isWritten
        by_cases same : other = message
        · exact .inl ⟨reader, by grind⟩
        · rcases inBalance.kept other isWritten with ⟨number, printed⟩
            | ⟨i, isIn⟩
          · exact .inl ⟨number, by grind⟩
          · exact .inr ⟨i, by grind⟩
      · grind [inBalance.text]
  | @readsNothing reader inode pc empty ended =>
      have unwritten := ends.nil_iff.mp ended
      have before := inBalance.even inode fun number writing =>
        unwritten number (.inr writing)
      have waits := ends.mem_waiting.mpr pc
      rw [empty, List.length_nil] at before
      rw [List.length_eq_zero_iff.mp before.symm] at waits
      cases waits
  | @writes writer inode pc readable =>
      constructor
      · intro i unwritten
        have before := inBalance.even i fun number writing =>
          unwritten number (by grind [Writing])
        have elsewhere : i ≠ inode := by
          rintro rfl
          exact unwritten writer (by grind [Writing])
        have asMany := ends.length_waiting_eq endsNext i (by grind)
        grind
      · intro message isWritten
        rcases List.mem_append.mp isWritten with before | isNew
        · rcases inBalance.kept message before with printed | ⟨i, isIn⟩
          · exact .inl printed
          · exact .inr ⟨i, by grind⟩
        · exact .inr ⟨inode, by grind⟩
      · exact inBalance.text
  | @killed number inode pc unreadable =>
      refine inBalance.closes ends (.inl ⟨pc, rfl⟩) (by simp [Pc.Holds])
        fun only => ?_
      refine balanced inode ?_ (ends.lastWriter fun other writing =>
        (only other writing).2)
      simp [givesUp, pc, unreadable]
  | @closes role number inode pc =>
      refine inBalance.closes ends (.inr pc) (by simp [Pc.Holds]) fun only => ?_
      cases role with
      | reader =>
          refine inBalance.even inode fun other writing => ?_
          cases (only other writing).1
      | writer =>
          refine balanced inode ?_ (ends.lastWriter fun other writing =>
            (only other writing).2)
          simp [givesUp, pc]

end Fifo
end LinuxCPractice
