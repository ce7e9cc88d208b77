import LinuxCPractice.Fifo.Defs

/-!
# What one step of a reader or a writer can do
-/

namespace LinuxCPractice
namespace Fifo

open World

/-- All steps of the processes. -/
inductive Transition (world : World) : Event → World → Prop
  | mkfifoFails {role number} (pc : world.procs role number = .mkfifo) :
      Transition world (.mkfifo role number none)
        (world.setPc role number .open_)
  | creates {role number inode} (pc : world.procs role number = .mkfifo)
      (nameless : world.name = none) (free : (world.pipes inode).Free) :
      Transition world (.mkfifo role number (some inode))
        { (world.setPc role number .open_).setPipe inode .empty with
            name := some inode }
  | openFails {role number} (pc : world.procs role number = .open_) :
      Transition world (.open_ role number false)
        (world.setPc role number (.exited 2))
  | blocks {role number inode} (pc : world.procs role number = .open_)
      (named : world.name = some inode)
      (alone : (world.pipes inode).ends role.other = []) :
      Transition world (.open_ role number true)
        (((world.wake role.other inode).setPc role number
          (.opening inode)).setPipe inode
          ((world.pipes inode).addEnd role number))
  | opens {role number inode} (pc : world.procs role number = .open_)
      (named : world.name = some inode)
      (joined : (world.pipes inode).ends role.other ≠ []) :
      Transition world (.open_ role number true)
        (((world.wake role.other inode).setPc role number
          (.transfer inode)).setPipe inode
          ((world.pipes inode).addEnd role number))
  | reads {number inode message messages}
      (pc : world.procs .reader number = .transfer inode)
      (holds : (world.pipes inode).messages = message :: messages) :
      Transition world (.read number)
        (((world.setPc .reader number (.close inode)).setPipe inode
          { world.pipes inode with messages := messages }).print number
            (some message))
  | readsNothing {number inode}
      (pc : world.procs .reader number = .transfer inode)
      (empty : (world.pipes inode).messages = [])
      (ended : (world.pipes inode).ends .writer = []) :
      Transition world (.read number)
        ((world.setPc .reader number (.close inode)).print number none)
  | writes {number inode} (pc : world.procs .writer number = .transfer inode)
      (readable : (world.pipes inode).ends .reader ≠ []) :
      Transition world (.write number)
        { (world.setPc .writer number (.close inode)).setPipe inode
            { world.pipes inode with messages := (world.pipes inode).messages ++
              [number] } with
          written := world.written ++ [number] }
  | killed {number inode} (pc : world.procs .writer number = .transfer inode)
      (unreadable : (world.pipes inode).ends .reader = []) :
      Transition world (.write number)
        ((world.setPc .writer number .killed).setPipe inode
          ((world.pipes inode).removeEnd .writer number))
  | closes {role number inode} (pc : world.procs role number = .close inode) :
      Transition world (.close role number)
        ((world.setPc role number .unlink).setPipe inode
          ((world.pipes inode).removeEnd role number))
  | unlinks {role number succeeds} (pc : world.procs role number = .unlink) :
      Transition world (.unlink role number succeeds)
        (world.unlink role number succeeds)

theorem transition_of_mkfifo {world next : World} {role : Role} {number : Nat}
    {created : Option Nat} (pc : world.procs role number = .mkfifo)
    (stepped : world.mkfifo role number created = some next) :
    Transition world (.mkfifo role number created) next := by
  unfold World.mkfifo at stepped
  cases created with
  | none =>
      cases stepped
      exact .mkfifoFails pc
  | some inode =>
      obtain ⟨⟨nameless, free⟩, equal⟩ :=
        Option.ite_none_right_eq_some.mp stepped
      cases equal
      exact .creates pc nameless free

theorem transition_of_open {world next : World} {role : Role} {number : Nat}
    {succeeds : Bool}
    (pc : world.procs role number = .open_)
    (stepped : world.open_ role number succeeds = some next) :
    Transition world (.open_ role number succeeds) next := by
  unfold World.open_ at stepped
  cases succeeds with
  | false =>
      cases stepped
      exact .openFails pc
  | true =>
      obtain ⟨inode, named, rfl⟩ := Option.map_eq_some_iff.mp stepped
      unfold openPipe
      by_cases alone : (world.pipes inode).ends role.other = []
      · simpa only [if_pos alone] using Transition.blocks pc named alone
      · simpa only [if_neg alone] using Transition.opens pc named alone

theorem transition_of_read {world next : World} {number inode : Nat}
    (pc : world.procs .reader number = .transfer inode)
    (stepped : world.read number inode = some next) :
    Transition world (.read number) next := by
  unfold World.read at stepped
  cases holds : (world.pipes inode).messages with
  | nil =>
      simp only [holds] at stepped
      obtain ⟨ended, equal⟩ := Option.ite_none_right_eq_some.mp stepped
      cases equal
      exact .readsNothing pc holds ended
  | cons message messages =>
      simp only [holds] at stepped
      cases stepped
      exact .reads pc holds

theorem transition_of_write {world : World} {number inode : Nat}
    (pc : world.procs .writer number = .transfer inode) :
    Transition world (.write number) (world.write number inode) := by
  unfold World.write
  by_cases unreadable : (world.pipes inode).ends .reader = []
  · simpa only [if_pos unreadable] using Transition.killed pc unreadable
  · simpa only [if_neg unreadable] using Transition.writes pc unreadable

/-- Every call is one of the transitions. -/
theorem transition_of_call {world next : World} {event : Event}
    (stepped : world.call event = some next) : Transition world event next := by
  unfold call at stepped
  cases event with
  | mkfifo role number created =>
      simp only at stepped
      split at stepped
      · exact transition_of_mkfifo (by assumption) stepped
      · cases stepped
  | open_ role number succeeds =>
      simp only at stepped
      split at stepped
      · exact transition_of_open (by assumption) stepped
      · cases stepped
  | read number =>
      simp only at stepped
      split at stepped
      · exact transition_of_read (by assumption) stepped
      · cases stepped
  | write number =>
      simp only at stepped
      split at stepped
      · cases stepped
        exact transition_of_write (by assumption)
      · cases stepped
  | close role number =>
      simp only at stepped
      split at stepped
      · cases stepped
        exact .closes (by assumption)
      · cases stepped
  | unlink role number succeeds =>
      simp only at stepped
      split at stepped
      · cases stepped
        exact .unlinks (by assumption)
      · cases stepped

/-- Only the given numbers make steps. -/
theorem transition_of_step {count : Nat} {world next : World} {event : Event}
    (stepped : step count world event = some next) :
    event.number < count ∧ Transition world event next := by
  obtain ⟨active, called⟩ := Option.ite_none_right_eq_some.mp stepped
  exact ⟨active, transition_of_call called⟩

end Fifo
end LinuxCPractice
