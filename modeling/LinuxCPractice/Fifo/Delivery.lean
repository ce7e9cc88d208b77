import LinuxCPractice.Fifo.Balance

/-!
# Whether every message is printed by one reader

In balance every message finds its reader. With at most one reader and one
writer a FIFO is always in balance.
-/

namespace LinuxCPractice
namespace Fifo

open World

/-- No process can make a step. -/
def Stopped (count : Nat) (world : World) : Prop :=
  ∀ event, step count world event = none

/-- No reader has printed an empty text, and by the end every message that was
written has been printed by exactly one reader. -/
def Delivered (count : Nat) (world : World) : Prop :=
  (∀ number, world.printed number ≠ some none) ∧
    (Stopped count world → ∀ message ∈ world.written,
      ∃! number, world.printed number = some (some message))

/-! ## Balance is enough -/

/-- Whoever can go on has not stopped. -/
theorem Stopped.not_writing {count : Nat} {world : World}
    (stopped : Stopped count world)
    (idle : Idle count world) (number inode : Nat) :
    ¬world.Writing number inode := by
  rintro (transfer | close)
  · have active := idle.lt .writer number (by simp [transfer])
    have none := stopped (.write number)
    simp [step, Event.number, active, call, transfer] at none
  · have active := idle.lt .writer number (by simp [close])
    have none := stopped (.close .writer number)
    simp [step, Event.number, active, call, close] at none

/-- A reader for which there is a message reads it. -/
theorem Stopped.messages_eq_nil {count : Nat} {world : World}
    (stopped : Stopped count world)
    (idle : Idle count world) {number inode : Nat}
    (waits : world.procs .reader number = .transfer inode) :
    (world.pipes inode).messages = [] := by
  have active := idle.lt .reader number (by simp [waits])
  have none := stopped (.read number)
  cases messages : (world.pipes inode).messages with
  | nil => rfl
  | cons message messages' =>
      simp [step, Event.number, active, call, waits, World.read, messages]
        at none

/-- In balance nothing is lost. -/
theorem InBalance.delivered {count : Nat} {world : World}
    (inBalance : InBalance world)
    (ends : Ends world) (traced : Traced world) (idle : Idle count world) :
    Delivered count world := by
  refine ⟨inBalance.text, ?_⟩
  intro stopped message isWritten
  rcases inBalance.kept message isWritten with ⟨number, printed⟩ | ⟨inode, isIn⟩
  · exact ⟨number, printed, fun other printedOther =>
      traced.once other number message printedOther printed⟩
  · exfalso
    have balance := inBalance.even inode fun number =>
      stopped.not_writing idle number inode
    have waiting : world.waiting inode ≠ [] := by
      rw [← List.length_pos_iff, ← balance, List.length_pos_iff]
      exact List.ne_nil_of_mem isIn
    obtain ⟨reader, isWaiting⟩ := List.exists_mem_of_ne_nil _ waiting
    rw [stopped.messages_eq_nil idle (ends.mem_waiting.mp isWaiting)] at isIn
    cases isIn

/-! ## One pair -/

/-- The process has not got past opening the FIFO. -/
def Pc.Early : Pc → Prop
  | .mkfifo | .open_ | .opening _ => True
  | .transfer _ | .close _ | .unlink | .exited _ | .killed => False

/-- The one reader and the one writer get past opening a FIFO together, and then
the message goes from one to the other. -/
structure OnePair (world : World) : Prop where
  reader : ∀ inode, world.procs .reader 0 = .transfer inode ∨
    world.procs .reader 0 = .close inode →
    ¬(world.procs .writer 0).Early
  writer : ∀ inode, world.procs .writer 0 = .transfer inode ∨
    world.procs .writer 0 = .close inode →
    ¬(world.procs .reader 0).Early
  transfer : ∀ inode, world.procs .writer 0 = .transfer inode →
    world.procs .reader 0 = .transfer inode
  close : ∀ inode, world.procs .writer 0 = .close inode →
    (world.procs .reader 0 = .transfer inode ∧
      (world.pipes inode).messages.length = 1) ∨
      ((world.procs .reader 0).Past ∧ (world.pipes inode).messages = [])

/-- There stays one pair at most. -/
theorem OnePair.step {count : Nat} {world next : World} {event : Event}
    (onePair : OnePair world)
    (single : count ≤ 1) (idle : Idle count world) (ends : Ends world)
    (traced : Traced world)
    (stepped : World.step count world event = some next) : OnePair next := by
  obtain ⟨active, transition⟩ := transition_of_step stepped
  clear stepped
  have zero : event.number = 0 := by omega
  obtain ⟨reader, writer, transfer, close⟩ := onePair
  have only (role : Role) (number inode : Nat)
      (holds : (world.procs role number).Holds inode) : number = 0 := by
    have active :=
      idle.lt role number (by rintro mkfifo; simp [mkfifo, Pc.Holds] at holds)
    omega
  have unwritten (notPast : ¬(world.procs .writer 0).Past) (inode : Nat) :
      (world.pipes inode).messages = [] := by
    apply List.eq_nil_iff_forall_not_mem.mpr
    intro message isIn
    have past := traced.written message (traced.sent inode message isIn)
    have active :=
      idle.lt .writer message (by rintro mkfifo; simp [mkfifo, Pc.Past] at past)
    obtain rfl : message = 0 := by omega
    exact notPast past
  cases transition with
  | @opens role number inode pc named joined =>
      obtain rfl : number = 0 := zero
      rw [Ne, ends.nil_iff] at joined
      obtain ⟨holder, holds⟩ := not_forall_not.mp joined
      obtain rfl := only _ _ _ holds
      constructor <;> cases role <;>
        grind [Pc.Past, Pc.Early, Pc.Holds, Role.other]
  | @blocks role number inode pc named alone =>
      obtain rfl : number = 0 := zero
      rw [ends.nil_iff] at alone
      constructor <;> cases role <;>
        grind [Pc.Past, Pc.Early, Pc.Holds, Role.other]
  | @writes number inode pc readable =>
      obtain rfl : number = 0 := zero
      have empty := unwritten (by simp [pc, Pc.Past]) inode
      constructor <;> grind [Pc.Past, Pc.Early]
  | @reads number inode message messages pc holds =>
      obtain rfl : number = 0 := zero
      have past : (world.procs .writer 0).Past := by
        by_contra early
        rw [unwritten early inode] at holds
        cases holds
      constructor <;> grind [Pc.Past, Pc.Early]
  | @readsNothing number inode pc empty ended =>
      obtain rfl : number = 0 := zero
      rw [ends.nil_iff] at ended
      constructor <;> grind [Pc.Past, Pc.Early, Pc.Holds]
  | @creates role number inode pc nameless free =>
      obtain rfl : number = 0 := zero
      have unwritten := ends.nil_iff.mp free.2
      constructor <;> grind [Pc.Past, Pc.Early, Pc.Holds]
  | @closes role number inode pc =>
      obtain rfl : number = 0 := zero
      have kept := @Pipe.removeEnd_messages (world.pipes inode) role 0
      constructor <;> cases role <;> grind [Pc.Past, Pc.Early]
  | _ => constructor <;> grind [Pc.Past, Pc.Early, Event.number]

/-- One pair cannot get out of balance. -/
theorem OnePair.balanced {count : Nat} {world : World} (onePair : OnePair world)
    (single : count ≤ 1) (idle : Idle count world) (ends : Ends world)
    (event : Event) :
    Balanced world event := by
  have zero (role : Role) (number : Nat) (started : world.procs role number ≠
      .mkfifo) :
      number = 0 := by
    have active := idle.lt role number started
    omega
  intro inode gives last
  cases event with
  | write number =>
      simp only [givesUp] at gives
      split at gives
      case h_1 other pc =>
        simp only [Option.mem_def, Option.ite_none_right_eq_some] at gives
        obtain ⟨unreadable, equal⟩ := gives
        obtain rfl := zero .writer number (by simp [pc])
        exact absurd (.inr (.inl (onePair.transfer _ pc)))
          (ends.nil_iff.mp unreadable 0)
      case h_2 => cases gives
  | close role number =>
      cases role with
      | reader => cases gives
      | writer =>
          simp only [givesUp] at gives
          split at gives
          case h_1 other pc =>
            cases gives
            obtain rfl := zero .writer number (by simp [pc])
            rcases onePair.close inode pc with ⟨reads, one⟩ | ⟨past, none⟩
            · rw [one]
              change [0].length = _
              refine (List.Perm.length_eq ?_).symm
              rw [List.perm_ext_iff_of_nodup (ends.nodup_waiting inode)
                (List.nodup_singleton 0)]
              intro reader
              rw [ends.mem_waiting, List.mem_singleton]
              exact ⟨fun pc => zero .reader reader (by simp [pc]),
                fun equal => equal ▸ reads⟩
            · rw [none, List.length_nil, eq_comm, List.length_eq_zero_iff]
              apply List.eq_nil_iff_forall_not_mem.mpr
              intro reader isWaiting
              rw [ends.mem_waiting] at isWaiting
              obtain rfl := zero .reader reader (by simp [isWaiting])
              simp [isWaiting, Pc.Past] at past
          case h_2 => cases gives
  | mkfifo | open_ | read | unlink => cases gives

end Fifo
end LinuxCPractice
