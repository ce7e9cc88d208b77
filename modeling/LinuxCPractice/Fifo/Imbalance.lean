import LinuxCPractice.Fifo.Delivery
import Mathlib.Algebra.BigOperators.Group.Finset.Basic
import Mathlib.Algebra.Order.BigOperators.Group.Finset

/-!
# Runs that go wrong

Out of balance, either the readers read on until one of them finds the FIFO
empty, or all processes run to their end and a message is left over.
-/

namespace LinuxCPractice
namespace Fifo

open World

/-! ## Running to the end -/

/-- An end of a FIFO is opened. -/
def Event.Joins : Event → Prop
  | .open_ _ _ succeeds => succeeds = true
  | _ => False

/-- How many calls the process is away from its end at most. -/
def Pc.remaining : Pc → Nat
  | .mkfifo => 6
  | .open_ => 5
  | .opening _ => 4
  | .transfer _ => 3
  | .close _ => 2
  | .unlink => 1
  | .exited _ => 0
  | .killed => 0

/-- The calls that `count` readers and writers have left. -/
def World.remaining (count : Nat) (world : World) : Nat :=
  ∑ number ∈ Finset.range count,
    ((world.procs .reader number).remaining +
      (world.procs .writer number).remaining)

/-- Every step that joins no one brings the processes closer to their end. -/
theorem remaining_lt {count : Nat} {world next : World} {event : Event}
    (stepped : World.step count world event = some next)
    (stays : ¬event.Joins) :
    next.remaining count < world.remaining count := by
  obtain ⟨active, transition⟩ := transition_of_step stepped
  clear stepped
  apply Finset.sum_lt_sum
  · intro number _
    have fewer (role : Role) :
        (next.procs role number).remaining ≤
          (world.procs role number).remaining := by
      cases transition <;> grind [Pc.remaining, Event.Joins]
    exact Nat.add_le_add (fewer .reader) (fewer .writer)
  · refine ⟨event.number, Finset.mem_range.mpr active, ?_⟩
    cases transition with
    | @mkfifoFails role | @creates role | @openFails role | @blocks role
    | @opens role
    | @closes role | @unlinks role =>
        cases role <;> grind [Pc.remaining, Event.Joins, Event.number]
    | reads | readsNothing | writes | killed =>
        grind [Pc.remaining, Event.number]

/-- Where something can happen, something else than opening an end can. -/
theorem exists_stays {count : Nat} {world next : World} {event : Event}
    (stepped : World.step count world event = some next) :
    ∃ other after, ¬Event.Joins other ∧
      World.step count world other = some after := by
  by_cases joins : event.Joins
  · cases event with
    | open_ role number succeeds =>
        obtain ⟨active, transition⟩ := transition_of_step stepped
        have pc : world.procs role number = .open_ := by
          cases transition <;> assumption
        refine ⟨.open_ role number false, world.setPc role number (.exited 2),
          ?_, ?_⟩
        · simp [Event.Joins]
        · simpa [World.step, call, pc, World.open_, Event.number] using active
    | mkfifo | read | write | close | unlink => cases joins
  · exact ⟨event, next, joins, stepped⟩

/-- Every run can go on to its end without another end of a FIFO being
opened. -/
theorem exists_stopped (count : Nat) (world : World) : ∃ events final,
    (World.step count).run world events = some final ∧ Stopped count final ∧
      ∀ event ∈ events, ¬Event.Joins event :=
  Machine.exists_run_to_end (fun event => ¬Event.Joins event)
    (World.remaining count)
    (fun _ _ _ stays stepped => remaining_lt stepped stays)
    (fun _ _ _ stepped => exists_stays stepped) world

/-! ## Too many messages -/

/-- No reader is going to print the message. -/
structure Stuck (world : World) (inode message : Nat) : Prop where
  written : message ∈ world.written
  unprinted : ∀ number, world.printed number ≠ some (some message)
  unread : (∀ other, message ∉ (world.pipes other).messages) ∨
    ((∀ number, ¬world.Writing number inode) ∧ ∃ earlier,
      (world.pipes inode).messages = earlier ++ [message] ∧
        (world.waiting inode).length ≤ earlier.length)

/-- Readers that do not join get fewer. -/
theorem Ends.length_waiting_le {world next : World} (ends : Ends world)
    (endsNext : Ends next)
    (inode : Nat)
    (stays : ∀ number, next.procs .reader number = .transfer inode →
      world.procs .reader number = .transfer inode) :
    (next.waiting inode).length ≤ (world.waiting inode).length := by
  refine ((endsNext.nodup_waiting inode).subperm fun number waits =>
    ?_).length_le
  exact ends.mem_waiting.mpr (stays number (endsNext.mem_waiting.mp waits))

/-- A step by which no message is written or read and no end of the FIFO is
opened. -/
theorem Stuck.keeps {world next : World} {inode message : Nat}
    (stuck : Stuck world inode message)
    (ends : Ends world) (endsNext : Ends next) (traced : Traced world)
    (messages : ∀ i, (next.pipes i).messages = [] ∨
      (next.pipes i).messages = (world.pipes i).messages)
    (writing : ∀ number, next.Writing number inode → world.Writing number inode)
    (waits : ∀ number, next.procs .reader number = .transfer inode →
      world.procs .reader number = .transfer inode)
    (written : next.written = world.written)
    (printed : ∀ number, next.printed number = some (some message) →
      world.printed number =
        some (some message)) : Stuck next inode message := by
  have isIn {i : Nat} (isNext : message ∈ (next.pipes i).messages) :
      message ∈ (world.pipes i).messages := by
    rcases messages i with lost | kept
    · rw [lost] at isNext
      cases isNext
    · rwa [kept] at isNext
  refine ⟨?_, fun number isPrinted =>
    stuck.unprinted number (printed number isPrinted), ?_⟩
  · rw [written]
    exact stuck.written
  · rcases stuck.unread with elsewhere | ⟨unwritten, earlier, atEnd, few⟩
    · exact .inl fun i isNext => elsewhere i (isIn isNext)
    · rcases messages inode with lost | kept
      · refine .inl fun i isNext => ?_
        have same :=
          traced.single message i inode (isIn isNext) (by simp [atEnd])
        rw [same, lost] at isNext
        cases isNext
      · refine .inr
          ⟨fun number isWriting => unwritten number (writing number isWriting),
            earlier, kept.trans atEnd, ?_⟩
        exact (ends.length_waiting_le endsNext inode waits).trans few

/-- A reader takes a message in front of the one that is stuck, or of another
FIFO. -/
theorem Stuck.reads {world next : World} {inode message reader i other : Nat}
    {messages : List Nat} (stuck : Stuck world inode message)
    (ends : Ends world)
    (endsNext : Ends next) (traced : Traced world)
    (pc : world.procs .reader reader = .transfer i)
    (holds : (world.pipes i).messages = other :: messages)
    (equal : next = ((world.setPc .reader reader (.close i)).setPipe i
      { world.pipes i with messages := messages }).print reader (some other)) :
    Stuck next inode message := by
  subst equal
  obtain ⟨written, unprinted, unread⟩ := stuck
  have nodup := traced.nodup i
  rw [holds, List.nodup_cons] at nodup
  rcases unread with elsewhere | ⟨unwritten, earlier, atEnd, few⟩
  · exact ⟨written, by grind, .inl (by grind)⟩
  · have stays (number : Nat) :
        ¬World.Writing (((world.setPc .reader reader (.close i)).setPipe i
          { world.pipes i with messages := messages }).print reader
          (some other)) number inode := by
      have before := unwritten number
      grind [Writing]
    by_cases same : i = inode
    · subst same
      have oneLess := ends.length_waiting_succ endsNext pc (by grind)
      rw [holds] at atEnd
      cases earlier with
      | nil =>
          rw [oneLess] at few
          simp at few
      | cons first earlier =>
          obtain ⟨rfl, rfl⟩ := List.cons_eq_cons.mp atEnd
          rw [oneLess] at few
          exact ⟨written, by grind,
            .inr ⟨stays, earlier, by grind, by simpa using few⟩⟩
    · have different : other ≠ message := by
        rintro rfl
        exact same (traced.single other i inode (by simp [holds])
          (by simp [atEnd]))
      have fewer := ends.length_waiting_le endsNext inode (by grind)
      exact ⟨written, by grind,
        .inr ⟨stays, earlier, by grind, fewer.trans few⟩⟩

/-- A message that is stuck stays so. -/
theorem Stuck.step {count : Nat} {world next : World} {event : Event}
    {inode message : Nat}
    (stuck : Stuck world inode message) (ends : Ends world)
    (traced : Traced world)
    (stepped : World.step count world event = some next)
    (stays : ¬event.Joins) :
    Stuck next inode message := by
  have endsNext := ends.step stepped
  obtain ⟨_, transition⟩ := transition_of_step stepped
  clear stepped
  have keeps := stuck.keeps ends endsNext traced
  cases transition with
  | killed pc unreadable | closes pc =>
      refine keeps (fun i => ?_) ?_ ?_ rfl fun _ => id
      · rw [setPipe_pipes]
        split
        case isTrue same =>
          rw [same]
          exact Pipe.removeEnd_messages
        case isFalse => exact .inr rfl
      · grind [Writing]
      · grind
  | @creates role number i pc nameless free =>
      refine keeps (fun other => ?_) ?_ ?_ rfl fun _ => id
      · change ((World.setPipe _ i _).pipes other).messages = [] ∨ _
        rw [setPipe_pipes]
        split
        case isTrue => exact .inl rfl
        case isFalse => exact .inr rfl
      · grind [Writing]
      · grind
  | mkfifoFails pc | openFails pc | unlinks pc =>
      refine keeps (fun _ => .inr rfl) ?_ ?_ rfl fun _ => id
      · grind [Writing]
      · grind
  | blocks pc named alone | opens pc named joined => exact absurd rfl stays
  | reads pc holds => exact stuck.reads ends endsNext traced pc holds rfl
  | readsNothing pc empty ended =>
      refine keeps (fun _ => .inr rfl) ?_ ?_ rfl ?_
      · grind [Writing]
      · grind
      · grind
  | @writes number i pc readable =>
      obtain ⟨written, unprinted, unread⟩ := stuck
      have fewer := ends.length_waiting_le endsNext inode
      have past := traced.written message written
      refine ⟨List.mem_append_left _ written, unprinted, ?_⟩
      simp only [Writing, not_or] at unread ⊢
      grind [Pc.Past]

/-! ## Too few messages -/

/-- A reader takes the first message. -/
theorem step_reads {count : Nat} {world : World} {reader inode message : Nat}
    {messages : List Nat} (active : reader < count)
    (pc : world.procs .reader reader = .transfer inode)
    (holds : (world.pipes inode).messages = message :: messages) :
    World.step count world (.read reader) = some
      (((world.setPc .reader reader (.close inode)).setPipe inode
        { world.pipes inode with messages := messages }).print reader
          (some message)) := by
  simp [World.step, Event.number, active, call, pc, World.read, holds]

/-- A reader finds an empty pipe without writers. -/
theorem step_readsNothing {count : Nat} {world : World} {reader inode : Nat}
    (active : reader < count)
    (pc : world.procs .reader reader = .transfer inode)
    (empty : (world.pipes inode).messages = [])
    (ended : (world.pipes inode).ends .writer = []) :
    World.step count world (.read reader) = some
      ((world.setPc .reader reader (.close inode)).print reader none) := by
  simp [World.step, Event.number, active, call, pc, World.read, empty, ended]

/-- The readers read on until one of them gets nothing. -/
theorem exists_printed_empty {count : Nat} {world : World} {inode : Nat}
    (idle : Idle count world)
    (ends : Ends world) (unwritten : ∀ number, ¬world.Writing number inode)
    (few : (world.pipes inode).messages.length < (world.waiting inode).length) :
    ∃ events final number, (World.step count).run world events = some final ∧
      final.printed number = some none := by
  induction messages : (world.pipes inode).messages generalizing world with
  | nil =>
      obtain ⟨reader, isWaiting⟩ :=
        List.exists_mem_of_length_pos (Nat.zero_lt_of_lt few)
      have pc := ends.mem_waiting.mp isWaiting
      have active := idle.lt .reader reader (by simp [pc])
      have ended : (world.pipes inode).ends .writer = [] := by
        apply ends.nil_iff.mpr
        rintro number (opening | writing)
        · exact ends.alone inode .writer number reader opening (.inr (.inl pc))
        · exact unwritten number writing
      refine ⟨[.read reader],
        (world.setPc .reader reader (.close inode)).print reader none, reader,
        ?_, ?_⟩
      · rw [Machine.run_cons, step_readsNothing active pc messages ended]
        rfl
      · rw [print_printed, if_pos rfl]
  | cons message rest inductionHypothesis =>
      obtain ⟨reader, isWaiting⟩ :=
        List.exists_mem_of_length_pos (Nat.zero_lt_of_lt few)
      have pc := ends.mem_waiting.mp isWaiting
      have active := idle.lt .reader reader (by simp [pc])
      have stepped := step_reads active pc messages
      have endsNext := ends.step stepped
      have oneLess := ends.length_waiting_succ endsNext pc (by grind)
      obtain ⟨events, final, number, ran, printed⟩ :=
        inductionHypothesis (idle.step stepped)
        endsNext (fun writer writing => unwritten writer (by grind [Writing]))
        (by grind) (by grind)
      refine ⟨.read reader :: events, final, number, ?_, printed⟩
      rw [Machine.run_cons, stepped, Option.bind_some, ran]

/-! ## Out of balance -/

/-- The end of a writer is removed. -/
theorem leaves_of_givesUp {count : Nat} {world next : World} {event : Event}
    {inode : Nat}
    (stepped : World.step count world event = some next)
    (gives : inode ∈ world.givesUp event) :
    ∃ pc, (∀ i, ¬pc.Holds i) ∧ world.Writing event.number inode ∧
      next = (world.setPc .writer event.number pc).setPipe inode
        ((world.pipes inode).removeEnd .writer event.number) := by
  obtain ⟨_, transition⟩ := transition_of_step stepped
  cases transition with
  | mkfifoFails | creates | openFails | blocks | opens | reads | readsNothing
  | unlinks =>
      cases gives
  | writes pc readable => simp [givesUp, pc, readable] at gives
  | @killed number i pc unreadable =>
      obtain rfl : i = inode := by simpa [givesUp, pc, unreadable] using gives
      exact ⟨.killed, by simp [Pc.Holds], .inl pc, rfl⟩
  | @closes role number i pc =>
      cases role with
      | reader => cases gives
      | writer =>
          obtain rfl : i = inode := by simpa [givesUp, pc] using gives
          exact ⟨.unlink, by simp [Pc.Holds], .inr pc, rfl⟩

/-- From there on no reader prints a message that is stuck. -/
theorem Stuck.exists_not_delivered {count : Nat} {world : World}
    {inode message : Nat}
    (stuck : Stuck world inode message) (ends : Ends world)
    (traced : Traced world) :
    ∃ more final, (World.step count).run world more = some final ∧
      ¬Delivered count final := by
  obtain ⟨more, final, ran, stopped, stays⟩ := exists_stopped count world
  refine ⟨more, final, ran, ?_⟩
  have lasting : Ends final ∧ Traced final ∧ Stuck final inode message := by
    refine Machine.run_invariant_of_everyStep
      (fun world => Ends world ∧ Traced world ∧ Stuck world inode message) ?_
      ⟨ends, traced, stuck⟩ ((Machine.everyStep_event_iff ran).mpr stays) ran
    rintro state event next ⟨ends, traced, stuck⟩ stays stepped
    exact ⟨ends.step stepped, traced.step stepped,
      stuck.step ends traced stepped stays⟩
  rintro ⟨_, delivered⟩
  obtain ⟨reader, printed, _⟩ := delivered stopped message lasting.2.2.written
  exact lasting.2.2.unprinted reader printed

/-- A FIFO given up out of balance may end with an empty text or a message too
many. -/
theorem exists_not_delivered {count : Nat} {world next : World} {event : Event}
    (idle : Idle count world) (ends : Ends world) (traced : Traced world)
    (stepped : World.step count world event = some next)
    (unbalanced : ¬Balanced world event) :
    ∃ more final, (World.step count).run next more = some final ∧
      ¬Delivered count final := by
  simp only [Balanced, not_forall] at unbalanced
  obtain ⟨inode, gives, last, uneven⟩ := unbalanced
  have endsNext := ends.step stepped
  have tracedNext := traced.step stepped
  have idleNext := idle.step stepped
  obtain ⟨pc, leaves, writing, equal⟩ := leaves_of_givesUp stepped gives
  have unwritten (number : Nat) : ¬next.Writing number inode := by
    have notHeld := leaves inode
    have onlyLast := last number
    have isEnd := ends.mem inode .writer number
    grind [Writing, Pc.Holds]
  have sameWaiting := ends.length_waiting_eq endsNext inode (by grind)
  have kept := @Pipe.removeEnd_messages (world.pipes inode) .writer event.number
  have messages : (next.pipes inode).messages =
      ((world.pipes inode).removeEnd .writer event.number).messages := by grind
  rcases Nat.lt_or_gt_of_ne uneven with few | many
  · obtain ⟨events, final, number, ran, printed⟩ :=
      exists_printed_empty idleNext endsNext unwritten (by grind)
    exact ⟨events, final, ran, fun delivered => delivered.1 number printed⟩
  · have nonempty := List.ne_nil_of_length_pos (Nat.zero_lt_of_lt many)
    obtain ⟨earlier, message, atEnd⟩ :=
      (List.eq_nil_or_concat _).resolve_left nonempty
    have isIn : message ∈ (world.pipes inode).messages := by simp [atEnd]
    have stuck : Stuck next inode message := by
      refine ⟨?_, ?_, ?_⟩
      · have isWritten := traced.sent inode message isIn
        grind
      · intro number printed
        have before : world.printed number = some (some message) := by grind
        exact (traced.printed number message before).2 inode isIn
      · rcases kept with lost | kept
        · left
          have single := traced.single message inode
          grind
        · exact .inr ⟨unwritten, earlier, by grind, by grind⟩
    exact stuck.exists_not_delivered endsNext tracedNext

/-! ## Whole runs -/

section Runs

variable {count : Nat} {name : Option Nat} {events : List Event} {final : World}

/-- What holds in every run. -/
structure Sound (count : Nat) (world : World) : Prop where
  idle : Idle count world
  ends : Ends world
  traced : Traced world

/-- At the start everything is in order. -/
theorem Sound.start (count : Nat) (name : Option Nat) :
    Sound count (World.start name) := by
  refine ⟨fun _ _ _ => rfl, ⟨?_, ?_, ?_⟩, ?_⟩
  · simp [World.start, Pipe.empty]
  · simp [World.start, Pipe.empty, Pc.Holds]
  · simp [World.start]
  · constructor <;> simp [World.start, Pipe.empty]

/-- A step keeps everything in order. -/
theorem Sound.step {world next : World} {event : Event}
    (sound : Sound count world)
    (stepped : World.step count world event = some next) : Sound count next :=
  ⟨sound.idle.step stepped, sound.ends.step stepped, sound.traced.step stepped⟩

/-- In every run everything is in order. -/
theorem sound_of_run
    (ran : (World.step count).run (start name) events = some final) :
    Sound count final :=
  Machine.run_invariant (Sound count) (fun _ _ _ sound stepped =>
    sound.step stepped)
    (Sound.start count name) ran

/-- In balanced runs nothing is ever lost. -/
theorem always_delivered
    (every : (World.step count).EveryStep Balanced (start name) events) :
    (World.step count).Always (Delivered count) (start name) events := by
  refine (Machine.always_of_everyStep (fun world => Sound count world ∧
    InBalance world)
    ?_ ⟨Sound.start count name, ?_⟩ every).mono ?_
  · rintro world event next ⟨sound, inBalance⟩ balanced stepped
    exact ⟨sound.step stepped,
      inBalance.step sound.ends sound.traced balanced stepped⟩
  · constructor <;> simp [World.start, Pipe.empty, waiting]
  · rintro world ⟨sound, inBalance⟩
    exact inBalance.delivered sound.ends sound.traced sound.idle

/-- Every run of one pair is balanced. -/
theorem everyStep_balanced_of_le_one (single : count ≤ 1)
    (ran : (World.step count).run (start name) events = some final) :
    (World.step count).EveryStep Balanced (start name) events := by
  refine Machine.everyStep_of_run ran ?_
  intro past event rest middle next split ranPast stepped _
  have reached :=
    Machine.run_invariant (fun world => Sound count world ∧ OnePair world)
    ?_ ⟨Sound.start count name, ?_⟩ ranPast
  · exact reached.2.balanced single reached.1.idle reached.1.ends event
  · rintro state event next ⟨sound, onePair⟩ stepped
    exact ⟨sound.step stepped,
      onePair.step single sound.idle sound.ends sound.traced stepped⟩
  · constructor <;> simp [World.start]

/-- As long as a FIFO that is given up by its last writer holds one message for
each reader that has not read yet, every message is printed by exactly one
reader and no reader prints an empty text. Any other run has a beginning that
may go on to one or the other, which needs a second reader or writer. -/
theorem delivered_of_balanced
    (ran : (World.step count).run (start name) events = some final) :
    ((World.step count).EveryStep Balanced (start name) events →
        (World.step count).Always (Delivered count) (start name) events) ∧
      (¬(World.step count).EveryStep Balanced (start name) events → 2 ≤ count ∧
        ∃ past more after, past <+: events ∧
          (World.step count).run (start name) (past ++ more) = some after ∧
            ¬Delivered count after) := by
  refine ⟨always_delivered, fun fails => ⟨?_, ?_⟩⟩
  · by_contra single
    exact fails (everyStep_balanced_of_le_one (by omega) ran)
  · obtain ⟨past, event, rest, middle, next, split, ranPast, stepped,
      unbalanced⟩ :=
      Machine.exists_not_meets_of_not_everyStep ran fails
    have sound := sound_of_run ranPast
    obtain ⟨more, after, ranOn, lost⟩ :=
      exists_not_delivered sound.idle sound.ends sound.traced stepped unbalanced
    refine ⟨past ++ [event], more, after, ⟨rest, by simpa using split⟩,
      ?_, lost⟩
    rw [Machine.run_append, Machine.run_concat_eq_some_iff.mpr ⟨middle, ranPast,
      stepped⟩]
    exact ranOn

/-- Two pairs on one FIFO. The second writer is still there when the first has
closed it, and closes it with one message left for the reader that has not
read. -/
def twoPairs : List Event :=
  [.mkfifo .reader 0 (some 7), .mkfifo .reader 1 none, .mkfifo .writer 0 none,
    .mkfifo .writer 1 none, .open_ .reader 0 true, .open_ .reader 1 true,
    .open_ .writer 0 true,
    .open_ .writer 1 true, .write 0, .close .writer 0, .read 1, .write 1,
    .close .writer 1, .read 0]

/-- Two pairs that are started one after the other. -/
theorem delivered_of_balanced_twoPairs :
    (World.step 2).Always (Delivered 2) (start none) twoPairs := by
  have reached : ((World.step 2).run (start none) twoPairs).isSome =
      true := by decide
  obtain ⟨final, ran⟩ := Option.isSome_iff_exists.mp reached
  exact (delivered_of_balanced ran).1 (by decide)

/-- The first writer closes the FIFO while both readers have it open and before
the second writer comes. -/
def oneWriterLate : List Event :=
  [.mkfifo .reader 0 (some 7), .mkfifo .reader 1 none, .mkfifo .writer 0 none,
    .mkfifo .writer 1 none, .open_ .reader 0 true, .open_ .reader 1 true,
    .open_ .writer 0 true,
    .write 0, .read 0, .close .writer 0, .read 1, .open_ .writer 1 true,
    .write 1, .close .writer 1, .close .reader 0, .close .reader 1,
    .unlink .reader 0 true,
    .unlink .reader 1 true, .unlink .writer 0 true, .unlink .writer 1 true]

/-- One reader prints an empty text, and the message of the second writer is
lost. -/
theorem not_delivered_oneWriterLate :
    ∃ final, (World.step 2).run (start none) oneWriterLate = some final ∧
      final.printed 1 = some none ∧ 1 ∈ final.written ∧
      (∀ number, final.printed number ≠ some (some 1)) ∧
      ¬Delivered 2 final := by
  have reached :
      ((World.step 2).run (start none) oneWriterLate).map (fun world =>
        (world.written, world.printed 0, world.printed 1)) =
        some ([0, 1], some (some 0), some none) := by decide
  obtain ⟨final, ran, values⟩ := Option.map_eq_some_iff.mp reached
  simp only [Prod.mk.injEq] at values
  obtain ⟨written, first, second⟩ := values
  refine ⟨final, ran, second, by simp [written], ?_,
    fun delivered => delivered.1 1 second⟩
  intro number printed
  have sound := sound_of_run ran
  have past := sound.traced.reader number (by simp [printed])
  have active :=
    sound.idle.lt .reader number
      (by rintro mkfifo; simp [mkfifo, Pc.Past] at past)
  obtain rfl | rfl : number = 0 ∨ number = 1 := by omega
  · simp [first] at printed
  · simp [second] at printed

/-- Two readers wait for one writer. The first reads its message. -/
def twoReaders (created : Option Nat) : List Event :=
  [.mkfifo .reader 0 created, .mkfifo .reader 1 none, .mkfifo .writer 0 none,
    .open_ .reader 0 true, .open_ .reader 1 true, .open_ .writer 0 true,
    .write 0, .read 0, .close .writer 0, .read 1]

/-- With two pairs a reader can come away with nothing. -/
theorem exists_twoReaders (several : 2 ≤ count) (name : Option Nat) :
    ∃ events final, (World.step count).run (start name) events = some final ∧
      final.printed 1 = some none := by
  have first : 0 < count := by omega
  have second : 1 < count := by omega
  have named (inode : Nat) : ∃ final,
      (World.step count).run (start (some inode)) (twoReaders none) =
        some final ∧
        final.printed 1 = some none := by
    simp [twoReaders, World.step, Event.number, first, second, call,
      World.start, World.mkfifo,
      setPc, setPipe, World.open_, openPipe, wake, Pipe.addEnd, Role.other,
      World.write, World.read, World.close, Pipe.removeEnd, print, Pipe.empty]
  cases name with
  | some inode =>
      obtain ⟨final, ran, empty⟩ := named inode
      exact ⟨twoReaders none, final, ran, empty⟩
  | none =>
      obtain ⟨final, ran, empty⟩ := named 0
      refine ⟨twoReaders (some 0), final, ?_, empty⟩
      -- a new FIFO is as good as one that nobody has open
      have created :
          World.step count (start none) (.mkfifo .reader 0 (some 0)) =
          World.step count (start (some 0)) (.mkfifo .reader 0 none) := by
        simp [World.step, Event.number, first, call, World.start, World.mkfifo,
          setPc, setPipe, Pipe.empty, Pipe.Free]
      rw [twoReaders, Machine.run_cons, created]
      exact ran

/-- Only one reader and one writer can rely on it whatever the order of their
steps. -/
theorem delivered_iff_le_one : (∀ events final,
    (World.step count).run (start name) events = some final →
      Delivered count final) ↔
      count ≤ 1 := by
  constructor
  · intro delivered
    by_contra several
    obtain ⟨events, final, ran, empty⟩ :=
      exists_twoReaders (not_le.mp several) name
    exact (delivered events final ran).1 1 empty
  · intro single events final ran
    exact (always_delivered (everyStep_balanced_of_le_one single ran)).last ran

end Runs

end Fifo
end LinuxCPractice
