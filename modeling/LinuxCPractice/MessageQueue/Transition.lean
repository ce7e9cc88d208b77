import LinuxCPractice.MessageQueue.Defs

/-!
# What one step of the reader or the writer can do

Up to `msgget` the steps of both are the same.
-/

namespace LinuxCPractice
namespace MessageQueue

open World

/-- Steps up to `msgget` and the variables of the process behind them. Only
`msgget` gives a queue to the process, and only that lets it go on to its own
part. -/
inductive Early (world : World) (role : Role) : World → Prop
  | moves {proc file} (notReady : proc.pc = .fopenAppend ∨ proc.pc = .ftok ∨
        proc.pc = .msgget ∨
      proc.pc = .exited 1 ∨ proc.pc = .crashed) :
      Early world role { world.setProc role proc with file := file }
  | finds {proc queue} (pc : proc.pc = role.proceed)
      (found : world.queues proc.msqid = some queue) :
      Early world role (world.setProc role proc)
  | creates {proc key} (pc : proc.pc = role.proceed)
      (new : proc.msqid = world.used) :
      Early world role { (world.setProc role proc).setQueue world.used
        (some ⟨key, []⟩) with
        used := world.used + 1 }

/-- All steps of the processes. -/
inductive Transition (world : World) : Event → World → Prop
  | early {event role next} (pc : (world.procs role).pc = .fopen ∨
        (world.procs role).pc = .fopenAppend ∨ (world.procs role).pc = .ftok ∨
        (world.procs role).pc = .msgget)
      (other : ∀ succeeds, event ≠ .msgctl succeeds)
      (early : Early world role next) : Transition world event next
  | readFails (pc : world.reader.pc = .msgrcv)
      (gone : world.queues world.reader.msqid = none) :
      Transition world .msgrcv
        { world.setProc .reader { world.reader with pc := .exited 1 } with
          called := some world.reader.msqid }
  | readBlocks {key} (pc : world.reader.pc = .msgrcv)
      (empty : world.queues world.reader.msqid = some ⟨key, []⟩) :
      Transition world .msgrcv
        { world.setProc .reader { world.reader with pc := .blocked } with
          called := some world.reader.msqid }
  | reads {key message messages} (pc : world.reader.pc = .msgrcv)
      (holds : world.queues world.reader.msqid =
        some ⟨key, message :: messages⟩) :
      Transition world .msgrcv
        { (world.setProc .reader { world.reader with pc := .exited 0 }).setQueue
            world.reader.msqid (some ⟨key, messages⟩) with
          called := some world.reader.msqid, received := some message }
  | handsOver {message queue} (pc : world.writer.pc = .msgsnd)
      (present : world.queues world.writer.msqid = some queue)
      (blocked : world.reader.pc = .blocked)
      (same : world.reader.msqid = world.writer.msqid) :
      Transition world (.msgsnd message true)
        { (world.setProc .writer { world.writer with pc := .msgctl }).setProc
          .reader
            { world.reader with pc := .exited 0 } with
          sent := some message, received := some message }
  | sends {message queue} (pc : world.writer.pc = .msgsnd)
      (present : world.queues world.writer.msqid = some queue)
      (unread : ¬(world.reader.pc = .blocked ∧
        world.reader.msqid = world.writer.msqid)) :
      Transition world (.msgsnd message true)
        { (world.setProc .writer { world.writer with pc := .msgctl }).setQueue
            world.writer.msqid
              (some { queue with messages := queue.messages ++ [message] }) with
          sent := some message }
  | sendFails {message} (pc : world.writer.pc = .msgsnd) :
      Transition world (.msgsnd message false)
        (world.setProc .writer { world.writer with pc := .msgctl })
  | removesBlocked (pc : world.writer.pc = .msgctl)
      (blocked : world.reader.pc = .blocked)
      (same : world.reader.msqid = world.writer.msqid) :
      Transition world (.msgctl true)
        (((world.setProc .writer { world.writer with pc := .unlink }).setQueue
            world.writer.msqid none).setProc .reader { world.reader with pc := .exited 1 })
  | removes (pc : world.writer.pc = .msgctl)
      (unread : ¬(world.reader.pc = .blocked ∧
        world.reader.msqid = world.writer.msqid)) :
      Transition world (.msgctl true)
        ((world.setProc .writer { world.writer with pc := .unlink }).setQueue
            world.writer.msqid none)
  | removeFails (pc : world.writer.pc = .msgctl) :
      Transition world (.msgctl false)
        (world.setProc .writer { world.writer with pc := .exited 1 })
  | unlinks {succeeds} (pc : world.writer.pc = .unlink) :
      Transition world (.unlink succeeds) (world.unlink succeeds)

theorem early_of_fopen {world next : World} {role : Role} {succeeds : Bool}
    (stepped : world.fopen role succeeds = some next) :
    Early world role next := by
  unfold fopen at stepped
  cases succeeds with
  | false =>
      cases stepped
      exact .moves (by simp)
  | true =>
      obtain ⟨_, equal⟩ := Option.ite_none_right_eq_some.mp stepped
      cases equal
      exact .moves (by simp)

theorem early_of_fopenAppend {world next : World} {role : Role}
    {inode : Option Nat}
    (stepped : world.fopenAppend role inode = some next) :
    Early world role next := by
  unfold fopenAppend at stepped
  cases inode with
  | none =>
      cases stepped
      exact .moves (by simp)
  | some inode =>
      obtain ⟨_, equal⟩ := Option.ite_none_right_eq_some.mp stepped
      cases equal
      exact .moves (by simp)

theorem early_of_ftok {stDev : Nat} {world next : World} {role : Role}
    {succeeds : Bool}
    (stepped : ftok stDev world role succeeds = some next) :
    Early world role next := by
  unfold ftok at stepped
  cases succeeds with
  | false =>
      cases stepped
      exact .moves (by simp)
  | true =>
      obtain ⟨inode, _, rfl⟩ := Option.map_eq_some_iff.mp stepped
      exact .moves (by simp)

theorem early_of_msgget {world next : World} {role : Role} {succeeds : Bool}
    (stepped : world.msgget role succeeds = some next) :
    Early world role next := by
  unfold msgget at stepped
  cases succeeds with
  | false =>
      cases stepped
      exact .moves (by simp)
  | true =>
      cases found : world.find (world.procs role).key with
      | none =>
          simp only [found, if_true] at stepped
          cases stepped
          exact .creates rfl rfl
      | some msqid =>
          simp only [found, if_true] at stepped
          cases stepped
          have hasKey := List.find?_some found
          cases present : world.queues msqid with
          | none => simp [present] at hasKey
          | some queue => exact .finds rfl present

theorem transition_of_msgrcv {world : World} (pc : world.reader.pc = .msgrcv) :
    Transition world .msgrcv world.msgrcv := by
  unfold World.msgrcv
  simp only
  split
  case h_1 gone => exact .readFails pc gone
  case h_2 empty => exact .readBlocks pc empty
  case h_3 holds => exact .reads pc holds

theorem transition_of_msgsnd {world next : World} {message : Message}
    {succeeds : Bool}
    (pc : world.writer.pc = .msgsnd)
    (stepped : world.msgsnd message succeeds = some next) :
    Transition world (.msgsnd message succeeds) next := by
  unfold World.msgsnd at stepped
  cases succeeds with
  | false =>
      cases stepped
      exact .sendFails pc
  | true =>
      obtain ⟨queue, present, rfl⟩ := Option.map_eq_some_iff.mp stepped
      split
      case isTrue blocked => exact .handsOver pc present blocked.1 blocked.2
      case isFalse unread => exact .sends pc present unread

theorem transition_of_msgctl {world : World} (pc : world.writer.pc = .msgctl)
    (succeeds : Bool) : Transition world (.msgctl succeeds) (world.msgctl succeeds) := by
  unfold msgctl
  cases succeeds with
  | false => exact .removeFails pc
  | true =>
      simp only [if_true]
      split
      case isTrue blocked => exact .removesBlocked pc blocked.1 blocked.2
      case isFalse unread => exact .removes pc unread

/-- Every step is one of the transitions. -/
theorem transition_of_step {stDev : Nat} {world next : World} {event : Event}
    (stepped : step stDev world event = some next) : Transition world event next := by
  cases event with
  | fopen role succeeds =>
      obtain ⟨pc, rest⟩ := Option.ite_none_right_eq_some.mp stepped
      exact .early (.inl pc) (by simp) (early_of_fopen rest)
  | fopenAppend role inode =>
      obtain ⟨pc, rest⟩ := Option.ite_none_right_eq_some.mp stepped
      exact .early (.inr (.inl pc)) (by simp) (early_of_fopenAppend rest)
  | ftok role succeeds =>
      obtain ⟨pc, rest⟩ := Option.ite_none_right_eq_some.mp stepped
      exact .early (.inr (.inr (.inl pc))) (by simp) (early_of_ftok rest)
  | msgget role succeeds =>
      obtain ⟨pc, rest⟩ := Option.ite_none_right_eq_some.mp stepped
      exact .early (.inr (.inr (.inr pc))) (by simp) (early_of_msgget rest)
  | msgrcv =>
      obtain ⟨pc, equal⟩ := Option.ite_none_right_eq_some.mp stepped
      cases equal
      exact transition_of_msgrcv pc
  | msgsnd message succeeds =>
      obtain ⟨pc, rest⟩ := Option.ite_none_right_eq_some.mp stepped
      exact transition_of_msgsnd pc rest
  | msgctl succeeds =>
      obtain ⟨pc, equal⟩ := Option.ite_none_right_eq_some.mp stepped
      cases equal
      exact transition_of_msgctl pc succeeds
  | unlink succeeds =>
      obtain ⟨pc, equal⟩ := Option.ite_none_right_eq_some.mp stepped
      cases equal
      exact .unlinks pc

end MessageQueue
end LinuxCPractice
