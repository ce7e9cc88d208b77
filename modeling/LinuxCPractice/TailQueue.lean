import LinuxCPractice.Heap
import Mathlib.Data.List.Chain
import Mathlib.Data.List.Nodup
import Mathlib.Data.Option.Basic

/-!
# Tail queues

The doubly linked lists of `sys/queue.h`. A link to an entry lies in the queue's
head or in the entry before it, and an entry points back to the link that leads
to it. The head points back to the last link. Head and entries thus form a ring
in which each member leads to the next one and the next one points back.
-/

namespace LinuxCPractice
namespace TailQueue

/-- A link, as a `struct type **` names it: the head's `tqh_first` or the
`tqe_next` of an entry. -/
inductive Link (Address : Type)
  | head
  | next (elm : Address)
  deriving DecidableEq

/-- The member of the ring that a `struct type *` leads to, which is the head
when it is null. Named by its link. -/
def Link.of {Address : Type} : Option Address → Link Address
  | none => .head
  | some elm => .next elm

/-- An entry of the queue with its links. -/
structure Entry (Address Data : Type) where
  data : Data
  tqe_next : Option Address
  tqe_prev : Link Address

/-- The head of a queue and the live entries. -/
structure Memory (Address Data : Type) where
  tqh_first : Option Address
  tqh_last : Link Address
  entries : Heap Address (Entry Address Data)

variable {Address Data : Type}

@[simp] theorem Link.of_inj {first second : Option Address} :
    Link.of first = Link.of second ↔ first = second := by
  cases first <;> cases second <;> simp [Link.of]

@[simp] theorem Link.of_eq_next_iff {elm : Address} {member : Option Address} :
    Link.of member = .next elm ↔ member = some elm := by
  have name : Link.next elm = .of (some elm) := rfl
  rw [name, Link.of_inj]

@[simp] theorem Link.of_eq_head_iff {member : Option Address} :
    Link.of member = .head ↔ member = none := by
  have name : (Link.head : Link Address) = .of none := rfl
  rw [name, Link.of_inj]

namespace Memory

/-! ## Reading and writing -/

/-- The pointer in a link. -/
def load (memory : Memory Address Data) : Link Address → Option (Option Address)
  | .head => some memory.tqh_first
  | .next elm => (memory.entries.read elm).map Entry.tqe_next

/-- The word behind a link, `tqh_last` or `tqe_prev`. The head and the entries'
links are laid out alike, so that a link can be read as a head. -/
def back (memory : Memory Address Data) : Link Address → Option (Link Address)
  | .head => some memory.tqh_last
  | .next elm => (memory.entries.read elm).map Entry.tqe_prev

section Writing

variable [DecidableEq Address]

/-- Change the content of a live entry. -/
def modify (memory : Memory Address Data) (elm : Address)
    (change : Entry Address Data → Entry Address Data) :
    Option (Memory Address Data) :=
  (memory.entries.read elm).map fun content =>
    { memory with entries := memory.entries.store elm (change content) }

/-- Assign a pointer through a link. -/
def assign (memory : Memory Address Data) (value : Option Address) :
    Link Address → Option (Memory Address Data)
  | .head => some { memory with tqh_first := value }
  | .next elm =>
      memory.modify elm fun content => { content with tqe_next := value }

/-- Assign to the word behind a link. -/
def assignBack (memory : Memory Address Data) (value : Link Address) :
    Link Address → Option (Memory Address Data)
  | .head => some { memory with tqh_last := value }
  | .next elm =>
      memory.modify elm fun content => { content with tqe_prev := value }

end Writing

end Memory

/-! ## The macros -/

section Macros

variable [DecidableEq Address]

/-- `TAILQ_INIT` -/
def tailqInit (memory : Memory Address Data) : Memory Address Data :=
  { memory with tqh_first := none, tqh_last := .head }

/-- `TAILQ_INSERT_HEAD` -/
def tailqInsertHead (memory : Memory Address Data) (elm : Address) :
    Option (Memory Address Data) := do
  let first := memory.tqh_first
  let memory ← memory.assign first (.next elm)
  -- the first entry's `tqe_prev`, or `tqh_last` when there is none
  let memory ← memory.assignBack (.next elm) (.of first)
  let memory ← memory.assign (some elm) .head
  memory.assignBack .head (.next elm)

/-- `TAILQ_INSERT_TAIL` -/
def tailqInsertTail (memory : Memory Address Data) (elm : Address) :
    Option (Memory Address Data) := do
  let last := memory.tqh_last
  let memory ← memory.assign none (.next elm)
  let memory ← memory.assignBack last (.next elm)
  let memory ← memory.assign (some elm) last
  memory.assignBack (.next elm) .head

/-- `TAILQ_INSERT_AFTER` -/
def tailqInsertAfter (memory : Memory Address Data) (listelm elm : Address) :
    Option (Memory Address Data) := do
  let following ← memory.load (.next listelm)
  let memory ← memory.assign following (.next elm)
  let memory ← memory.assignBack (.next elm) (.of following)
  let memory ← memory.assign (some elm) (.next listelm)
  memory.assignBack (.next listelm) (.next elm)

/-- `TAILQ_INSERT_BEFORE` -/
def tailqInsertBefore (memory : Memory Address Data) (listelm elm : Address) :
    Option (Memory Address Data) := do
  let link ← memory.back (.next listelm)
  let memory ← memory.assignBack link (.next elm)
  let memory ← memory.assign (some listelm) (.next elm)
  let memory ← memory.assign (some elm) link
  memory.assignBack (.next elm) (.next listelm)

/-- `TAILQ_REMOVE` -/
def tailqRemove (memory : Memory Address Data) (elm : Address) :
    Option (Memory Address Data) := do
  let following ← memory.load (.next elm)
  let link ← memory.back (.next elm)
  let memory ← memory.assignBack link (.of following)
  memory.assign following link

/-- `TAILQ_LAST` of the head and `TAILQ_PREV` of an entry, which go back to the
link before and read it as a head, whose last link leads to the entry. -/
def tailqPrev (memory : Memory Address Data) (link : Link Address) :
    Option (Option Address) := do
  let headname ← memory.back link
  let last ← memory.back headname
  memory.load last

end Macros

/-! ## What a write changes -/

namespace Memory

/-- A link that can be read and written. -/
def Live (memory : Memory Address Data) : Link Address → Prop
  | .head => True
  | .next elm => memory.entries.Live elm

/-- A link that can be loaded is live. -/
theorem Live.of_load {memory : Memory Address Data} {link : Link Address}
    {value : Option Address}
    (content : memory.load link = some value) : memory.Live link := by
  cases link with
  | head => trivial
  | next elm =>
      obtain ⟨entry, live, _⟩ := Option.map_eq_some_iff.mp content
      exact .of_read live

/-- An entry is live exactly if its next link can be loaded. -/
theorem live_next_iff {memory : Memory Address Data} {elm : Address} :
    memory.entries.Live elm ↔ memory.load (.next elm) ≠ none := by
  simp [load, Heap.Live]

/-- An assignment to a link changes what the link leads to. -/
structure Assigned [DecidableEq Address] (memory : Memory Address Data)
    (value : Option Address)
    (link : Link Address) (written : Memory Address Data) : Prop where
  load : written.load = Function.update memory.load link (some value)
  back : written.back = memory.back
  live : ∀ other, written.Live other ↔ memory.Live other

/-- An assignment to the word behind a link changes where it points back. -/
structure AssignedBack [DecidableEq Address] (memory : Memory Address Data)
    (value : Link Address)
    (link : Link Address) (written : Memory Address Data) : Prop where
  load : written.load = memory.load
  back : written.back = Function.update memory.back link (some value)
  live : ∀ other, written.Live other ↔ memory.Live other

variable [DecidableEq Address] {memory : Memory Address Data} {elm : Address}

/-- Where the links lead after a change to an entry. -/
theorem load_store (changed : Entry Address Data) (link : Link Address) :
    ({ memory with entries := memory.entries.store elm changed } :
      Memory Address Data).load link =
      if link = .next elm then some changed.tqe_next else memory.load link := by
  cases link with
  | head => simp [load]
  | next other =>
      by_cases same : other = elm
      · simp [load, same]
      · simp [load, same, Heap.read_store_of_ne same]

/-- What a link points back from, when an entry has changed. -/
theorem back_store (changed : Entry Address Data) (link : Link Address) :
    ({ memory with entries := memory.entries.store elm changed } :
      Memory Address Data).back link =
      if link = .next elm then some changed.tqe_prev else memory.back link := by
  cases link with
  | head => simp [back]
  | next other =>
      by_cases same : other = elm
      · simp [back, same]
      · simp [back, same, Heap.read_store_of_ne same]

/-- An entry that has changed keeps the links live. -/
theorem live_store (live : memory.entries.Live elm)
    (changed : Entry Address Data)
    (link : Link Address) :
    ({ memory with entries := memory.entries.store elm changed } :
      Memory Address Data).Live link ↔
      memory.Live link := by
  cases link with
  | head => exact Iff.rfl
  | next other =>
      refine Heap.live_store_iff.trans ⟨?_, .inr⟩
      rintro (rfl | alive)
      · exact live
      · exact alive

/-- A live link can be assigned. -/
theorem exists_assign {link : Link Address} (live : memory.Live link)
    (value : Option Address) :
    ∃ written, memory.assign value link = some written ∧
      memory.Assigned value link written := by
  cases link with
  | head =>
      refine ⟨_, rfl, ?_, ?_, fun other => ?_⟩
      · funext other
        cases other <;> simp [load]
      · funext other
        cases other <;> rfl
      · cases other <;> rfl
  | next elm =>
      obtain ⟨content, read⟩ := Heap.Live.exists_read live
      refine ⟨_, by rw [assign, modify, read, Option.map_some], ?_, ?_,
        live_store live _⟩
      · funext other
        rw [load_store, Function.update_apply]
      · funext other
        rw [back_store]
        split
        · rename_i same
          rw [same, back, read, Option.map_some]
        · rfl

/-- A live link can be assigned back. -/
theorem exists_assignBack {link : Link Address} (live : memory.Live link)
    (value : Link Address) :
    ∃ written, memory.assignBack value link = some written ∧
      memory.AssignedBack value link written := by
  cases link with
  | head =>
      refine ⟨_, rfl, ?_, ?_, fun other => ?_⟩
      · funext other
        cases other <;> rfl
      · funext other
        cases other <;> simp [back]
      · cases other <;> rfl
  | next elm =>
      obtain ⟨content, read⟩ := Heap.Live.exists_read live
      refine ⟨_, by rw [assignBack, modify, read, Option.map_some], ?_, ?_,
        live_store live _⟩
      · funext other
        rw [load_store]
        split
        · rename_i same
          rw [same, load, read, Option.map_some]
        · rfl
      · funext other
        rw [back_store, Function.update_apply]

end Memory

/-! ## The ring -/

namespace Memory

variable {memory written : Memory Address Data} {before after : List Address}
  {elm : Address}
  {previous following : Option Address}

/-- A member of the ring leads to the next one, which points back to it. -/
def Edge (memory : Memory Address Data)
    (previous following : Option Address) : Prop :=
  memory.load (.of previous) = some following ∧
    memory.back (.of following) = some (.of previous)

/-- The members from the head through the entries back to the head. -/
def ring (nodes : List Address) : List (Option Address) :=
  none :: (nodes.map some ++ [none])

/-- A well-formed queue of the given entries. -/
structure IsQueue (memory : Memory Address Data)
    (nodes : List Address) : Prop where
  distinct : nodes.Nodup
  linked : (ring nodes).IsChain memory.Edge

instance [DecidableEq Address] (memory : Memory Address Data) :
    DecidableRel memory.Edge :=
  fun _ _ => inferInstanceAs (Decidable (_ ∧ _))

instance [DecidableEq Address] (memory : Memory Address Data)
    (nodes : List Address) :
    Decidable (memory.IsQueue nodes) :=
  decidable_of_iff (nodes.Nodup ∧ (ring nodes).IsChain memory.Edge)
    ⟨fun queue => ⟨queue.1, queue.2⟩, fun queue => ⟨queue.distinct,
      queue.linked⟩⟩

/-- In front of a node stands the last of those before it, or the head. -/
theorem getLast?_none_cons (before : List Address) :
    (none :: before.map some).getLast? = some before.getLast? := by
  rw [List.getLast?_cons, List.getLast?_map]
  cases before.getLast? <;> rfl

/-- Behind a node stands the first of those after it, or null. -/
theorem head?_append_none (after : List Address) :
    (after.map some ++ [none]).head? = some after.head? := by
  cases after <;> rfl

/-- The ring may be cut anywhere into two chains. -/
theorem isChain_ring_append {Related : Option Address → Option Address → Prop} :
    (ring (before ++ after)).IsChain Related ↔
      (none :: before.map some).IsChain Related ∧
      (after.map some ++ [none]).IsChain Related ∧
      Related before.getLast? after.head? := by
  have cut : ring (before ++ after) =
      (none :: before.map some) ++ (after.map some ++ [none]) := by
    simp [ring]
  rw [cut, List.isChain_append, getLast?_none_cons, head?_append_none]
  simp

/-- Two members next to each other. -/
theorem IsQueue.edge (queue : memory.IsQueue (before ++ after)) :
    memory.Edge before.getLast? after.head? :=
  (isChain_ring_append.mp queue.linked).2.2

/-- A relation along a list need not hold from its last member on nor to its
first one. -/
theorem isChain_congr {Member : Type} {First Second : Member → Member → Prop}
    {list : List Member}
    (distinct : list.Nodup) (chain : list.IsChain First)
    (kept : ∀ x ∈ list, ∀ y ∈ list, list.getLast? ≠ some x →
      list.head? ≠ some y →
      First x y → Second x y) : list.IsChain Second := by
  rw [List.isChain_iff_forall_rel_of_append_cons_cons] at chain ⊢
  intro x y front rest cut
  subst cut
  obtain ⟨_, distinctRest, apart⟩ := List.nodup_append.mp distinct
  have notLater : x ∉ y :: rest := (List.nodup_cons.mp distinctRest).1
  refine kept x (by simp) y (by simp) ?_ ?_ (chain rfl)
  · intro isLast
    rw [List.getLast?_append_cons, List.getLast?_cons_cons] at isLast
    exact notLater (List.mem_of_getLast? isLast)
  · intro isFirst
    cases front with
    | nil =>
        cases isFirst
        exact notLater List.mem_cons_self
    | cons first front =>
        cases isFirst
        exact apart y List.mem_cons_self y (by simp) rfl

/-- `TAILQ_INIT` makes an empty queue. -/
theorem isQueue_tailqInit (memory : Memory Address Data) :
    (tailqInit memory).IsQueue [] :=
  ⟨List.nodup_nil, List.isChain_pair.mpr ⟨rfl, rfl⟩⟩

/-- The link of an edge is live. -/
theorem Edge.live (edge : memory.Edge previous following) :
    memory.Live (.of previous) :=
  .of_load edge.1

/-- Where the chain leads is alive, too. -/
theorem Edge.live_following (edge : memory.Edge previous following) :
    memory.Live (.of following) := by
  cases following with
  | none => trivial
  | some node =>
      obtain ⟨content, read, _⟩ := Option.map_eq_some_iff.mp edge.2
      exact .of_read read

/-- The chain in front of a place in the ring does not depend on where its last
member leads. -/
theorem IsQueue.chain_before (queue : memory.IsQueue (before ++ after))
    (kept : ∀ x, (∀ a ∈ x, a ∈ before) → x ≠ before.getLast? → ∀ b ∈ before,
      memory.Edge x (some b) → written.Edge x (some b)) :
    (none :: before.map some).IsChain written.Edge := by
  have distinct : (none :: before.map some).Nodup :=
    List.nodup_cons.mpr ⟨by simp, queue.distinct.of_append_left.map
      (Option.some_injective _)⟩
  apply isChain_congr distinct (isChain_ring_append.mp queue.linked).1
  intro x isMember y isNext notLast notFirst edge
  rw [getLast?_none_cons] at notLast
  obtain ⟨b, inside, rfl⟩ : ∃ b ∈ before, some b = y := by
    rcases List.mem_cons.mp isNext with rfl | isNext
    · exact absurd rfl notFirst
    · exact List.mem_map.mp isNext
  refine kept x ?_ (fun same => notLast (congrArg some same.symm)) b inside edge
  rintro a rfl
  simpa using isMember

/-- The chain behind a place does not depend on where its first member points
back. -/
theorem IsQueue.chain_after (queue : memory.IsQueue (before ++ after))
    (kept : ∀ a ∈ after, ∀ y, (∀ b ∈ y, b ∈ after) → y ≠ after.head? →
      memory.Edge (some a) y → written.Edge (some a) y) :
    (after.map some ++ [none]).IsChain written.Edge := by
  have distinct : (after.map some ++ [none]).Nodup :=
    List.nodup_append.mpr ⟨queue.distinct.of_append_right.map
      (Option.some_injective _),
      List.nodup_singleton _, by simp⟩
  apply isChain_congr distinct (isChain_ring_append.mp queue.linked).2.1
  intro x isMember y isNext notLast notFirst edge
  rw [head?_append_none] at notFirst
  obtain ⟨a, inside, rfl⟩ : ∃ a ∈ after, some a = x := by
    rcases List.mem_append.mp isMember with isMember | isLast
    · exact List.mem_map.mp isMember
    · rw [List.mem_singleton.mp isLast] at notLast
      exact absurd List.getLast?_concat notLast
  refine kept a inside y ?_
    (fun same => notFirst (congrArg some same.symm)) edge
  rintro b rfl
  simpa using isNext

section Changes

variable [DecidableEq Address]

/-- What an insertion between two members does, whichever macro it is. -/
structure Inserted (memory : Memory Address Data) (previous : Option Address)
    (elm : Address)
    (following : Option Address) (written : Memory Address Data) : Prop where
  load : written.load =
    Function.update (Function.update memory.load (.next elm) (some following))
    (.of previous) (some (some elm))
  back : written.back = Function.update (Function.update memory.back (.next elm)
    (some (.of previous))) (.of following) (some (.next elm))
  live : ∀ other, written.Live other ↔ memory.Live other

/-- What a removal between two members does. -/
structure Removed (memory : Memory Address Data)
    (previous following : Option Address)
    (written : Memory Address Data) : Prop where
  load : written.load = Function.update memory.load (.of previous)
    (some following)
  back : written.back = Function.update memory.back (.of following)
    (some (.of previous))
  live : ∀ other, written.Live other ↔ memory.Live other

/-- An insertion leaves the edges elsewhere. -/
theorem Inserted.edge_of_ne
    (inserted : memory.Inserted previous elm following written)
    {x y : Option Address} (edge : memory.Edge x y) (fromOther : x ≠ previous)
    (notFrom : x ≠ some elm) (toOther : y ≠ following) (notTo : y ≠ some elm) :
    written.Edge x y := by
  rw [Edge, inserted.load, inserted.back]
  simpa [Edge, Function.update_apply, fromOther, notFrom, toOther, notTo]
    using edge

/-- The new entry stands between the two members. -/
theorem Inserted.edges
    (inserted : memory.Inserted previous elm following written)
    (notPrevious : previous ≠ some elm) (notFollowing : following ≠ some elm) :
    written.Edge previous (some elm) ∧ written.Edge (some elm) following := by
  simp only [Edge, inserted.load, inserted.back, Function.update_apply,
    Link.of_inj]
  have notElm : some elm ≠ previous := fun same => notPrevious same.symm
  have isNext : Link.of (some elm) = .next elm := rfl
  simp [notFollowing.symm, notElm, isNext]

/-- An entry between two others is one more of the queue. -/
theorem IsQueue.insert (queue : memory.IsQueue (before ++ after))
    (apart : elm ∉ before ++ after)
    (inserted : memory.Inserted before.getLast? elm after.head? written) :
    written.IsQueue (before ++ elm :: after) := by
  obtain ⟨_, _, disjoint⟩ := List.nodup_append.mp queue.distinct
  obtain ⟨notBefore, notAfter⟩ := not_or.mp (mt List.mem_append.mpr apart)
  have notPrevious : before.getLast? ≠ some elm :=
    fun same => notBefore (List.mem_of_getLast? same)
  have notFollowing : after.head? ≠ some elm := fun same =>
    notAfter (List.mem_of_head? same)
  obtain ⟨fromPrevious, toFollowing⟩ := inserted.edges notPrevious notFollowing
  refine ⟨?_, isChain_ring_append.mpr ⟨?_, ?_, fromPrevious⟩⟩
  · refine List.nodup_middle.mpr (List.nodup_cons.mpr ⟨apart, queue.distinct⟩)
  · refine queue.chain_before fun x inside notLast b isBefore edge =>
      inserted.edge_of_ne edge notLast ?_ ?_ ?_
    · rintro rfl
      exact notBefore (inside elm rfl)
    · intro same
      exact disjoint b isBefore b (List.mem_of_head? same.symm) rfl
    · rintro same
      cases same
      exact notBefore isBefore
  · rw [List.map_cons, List.cons_append, List.isChain_cons, head?_append_none]
    refine ⟨?_, ?_⟩
    · intro y isHead
      cases isHead
      exact toFollowing
    · refine queue.chain_after fun a isAfter y inside notFirst edge =>
        inserted.edge_of_ne edge ?_ ?_ notFirst ?_
      · intro same
        exact disjoint a (List.mem_of_getLast? same.symm) a isAfter rfl
      · rintro same
        cases same
        exact notAfter isAfter
      · rintro rfl
        exact notAfter (inside elm rfl)

/-- A removal leaves the edges elsewhere. -/
theorem Removed.edge_of_ne (removed : memory.Removed previous following written)
    {x y : Option Address} (edge : memory.Edge x y) (fromOther : x ≠ previous)
    (toOther : y ≠ following) : written.Edge x y := by
  rw [Edge, removed.load, removed.back]
  simpa [Edge, Function.update_apply, fromOther, toOther] using edge

/-- An entry taken out from between two others is one less of the queue. -/
theorem IsQueue.remove (queue : memory.IsQueue (before ++ elm :: after))
    (removed : memory.Removed before.getLast? after.head? written) :
    written.IsQueue (before ++ after) := by
  have behind : memory.IsQueue (before ++ [elm] ++ after) := by
    simpa using queue
  have distinct : (before ++ after).Nodup :=
    (List.nodup_cons.mp (List.nodup_middle.mp queue.distinct)).2
  obtain ⟨_, _, disjoint⟩ := List.nodup_append.mp distinct
  refine ⟨distinct, isChain_ring_append.mpr ⟨?_, ?_, ?_⟩⟩
  · refine queue.chain_before fun x _ notLast b isBefore edge =>
      removed.edge_of_ne edge notLast fun same => ?_
    exact disjoint b isBefore b (List.mem_of_head? same.symm) rfl
  · refine behind.chain_after fun a isAfter y _ notFirst edge =>
      removed.edge_of_ne edge (fun same => ?_) notFirst
    exact disjoint a (List.mem_of_getLast? same.symm) a isAfter rfl
  · rw [Edge, removed.load, removed.back, Function.update_self,
      Function.update_self]
    exact ⟨rfl, rfl⟩

/-! ## What the macros do -/

section Insertions

variable (live : memory.Live (.next elm)) (notFollowing : following ≠ some elm)
  (edge : memory.Edge previous following)
include live notFollowing edge

/-- The writes of an insertion behind a member, in the order of
`TAILQ_INSERT_HEAD` and `TAILQ_INSERT_AFTER`. -/
theorem exists_insertBehind :
    ∃ written, (do
      let memory ← memory.assign following (.next elm)
      let memory ← memory.assignBack (.next elm) (.of following)
      let memory ← memory.assign (some elm) (.of previous)
      memory.assignBack (.of previous) (.next elm)) = some written ∧
        memory.Inserted previous elm following written := by
  obtain ⟨first, assignedFirst, atFirst⟩ := exists_assign live following
  obtain ⟨second, assignedSecond, atSecond⟩ :=
    exists_assignBack ((atFirst.live _).mpr edge.live_following) (.next elm)
  obtain ⟨third, assignedThird, atThird⟩ :=
    exists_assign ((atSecond.live _).mpr ((atFirst.live _).mpr edge.live))
      (some elm)
  obtain ⟨written, assigned, atWritten⟩ := exists_assignBack
    ((atThird.live _).mpr ((atSecond.live _).mpr ((atFirst.live _).mpr live)))
    (.of previous)
  refine ⟨written, ?_, ?_, ?_, fun other => ?_⟩
  · simp [assignedFirst, assignedSecond, assignedThird, assigned]
  · rw [atWritten.load, atThird.load, atSecond.load, atFirst.load]
  · rw [atWritten.back, atThird.back, atSecond.back, atFirst.back,
      Function.update_comm (by simpa using notFollowing)]
  · rw [atWritten.live, atThird.live, atSecond.live, atFirst.live]

/-- `TAILQ_INSERT_AFTER` inserts between its entry and the next. -/
theorem exists_tailqInsertAfter {listelm : Address}
    (isListelm : previous = some listelm) :
    ∃ written, tailqInsertAfter memory listelm elm = some written ∧
      memory.Inserted previous elm following written := by
  subst isListelm
  have reads : memory.load (.next listelm) = some following := edge.1
  rw [tailqInsertAfter, reads]
  exact exists_insertBehind live notFollowing edge

/-- `TAILQ_INSERT_HEAD` inserts in front of the first entry. -/
theorem exists_tailqInsertHead (isHead : previous = none) :
    ∃ written, tailqInsertHead memory elm = some written ∧
      memory.Inserted previous elm following written := by
  subst isHead
  have reads : memory.tqh_first = following := Option.some.inj edge.1
  rw [tailqInsertHead, reads]
  exact exists_insertBehind live notFollowing edge

/-- `TAILQ_INSERT_TAIL` inserts behind the last entry. -/
theorem exists_tailqInsertTail (isHead : following = none) :
    ∃ written, tailqInsertTail memory elm = some written ∧
      memory.Inserted previous elm following written := by
  subst isHead
  have reads : memory.tqh_last = .of previous := Option.some.inj edge.2
  obtain ⟨first, assignedFirst, atFirst⟩ := exists_assign live none
  obtain ⟨second, assignedSecond, atSecond⟩ :=
    exists_assignBack ((atFirst.live _).mpr live) (.of previous)
  obtain ⟨third, assignedThird, atThird⟩ :=
    exists_assign ((atSecond.live _).mpr ((atFirst.live _).mpr edge.live))
      (some elm)
  obtain ⟨written, assigned, atWritten⟩ :=
    exists_assignBack (show third.Live .head from trivial) (.next elm)
  refine ⟨written, ?_, ?_, ?_, fun other => ?_⟩
  · simp [tailqInsertTail, reads, assignedFirst, assignedSecond, assignedThird,
      assigned]
  · rw [atWritten.load, atThird.load, atSecond.load, atFirst.load]
  · rw [atWritten.back, atThird.back, atSecond.back, atFirst.back]
    rfl
  · rw [atWritten.live, atThird.live, atSecond.live, atFirst.live]

/-- `TAILQ_INSERT_BEFORE` inserts between its entry and the one before. -/
theorem exists_tailqInsertBefore {listelm : Address}
    (isListelm : following = some listelm) :
    ∃ written, tailqInsertBefore memory listelm elm = some written ∧
      memory.Inserted previous elm following written := by
  subst isListelm
  have reads : memory.back (.next listelm) = some (.of previous) := edge.2
  obtain ⟨first, assignedFirst, atFirst⟩ :=
    exists_assignBack live (.of previous)
  obtain ⟨second, assignedSecond, atSecond⟩ :=
    exists_assign ((atFirst.live _).mpr live) (some listelm)
  obtain ⟨third, assignedThird, atThird⟩ :=
    exists_assign ((atSecond.live _).mpr ((atFirst.live _).mpr edge.live))
      (some elm)
  obtain ⟨written, assigned, atWritten⟩ :=
    exists_assignBack ((atThird.live _).mpr
      ((atSecond.live _).mpr ((atFirst.live _).mpr edge.live_following)))
      (.next elm)
  refine ⟨written, ?_, ?_, ?_, fun other => ?_⟩
  · simp [tailqInsertBefore, reads, assignedFirst, assignedSecond,
      assignedThird, ← assigned]
    rfl
  · rw [atWritten.load, atThird.load, atSecond.load, atFirst.load]
  · rw [atWritten.back, atThird.back, atSecond.back, atFirst.back]
  · rw [atWritten.live, atThird.live, atSecond.live, atFirst.live]

end Insertions

/-- A removal needs the two members beside the entry. -/
theorem exists_tailqRemove (toElm : memory.Edge previous (some elm))
    (fromElm : memory.Edge (some elm) following) :
    ∃ written, tailqRemove memory elm = some written ∧
      memory.Removed previous following written := by
  have readsNext : memory.load (.next elm) = some following := fromElm.1
  have readsBack : memory.back (.next elm) = some (.of previous) := toElm.2
  obtain ⟨first, assignedFirst, atFirst⟩ :=
    exists_assignBack fromElm.live_following (.of previous)
  obtain ⟨written, assigned, atWritten⟩ :=
    exists_assign ((atFirst.live _).mpr toElm.live) following
  refine ⟨written, ?_, ?_, ?_, fun other => ?_⟩
  · simp [tailqRemove, readsNext, readsBack, assignedFirst, assigned]
  · rw [atWritten.load, atFirst.load]
  · rw [atWritten.back, atFirst.back]
  · rw [atWritten.live, atFirst.live]

end Changes

/-! ## Walking along a queue -/

/-- The entries of a queue are live. -/
theorem IsQueue.live {nodes : List Address} {node : Address}
    (queue : memory.IsQueue nodes)
    (inside : node ∈ nodes) : memory.entries.Live node := by
  obtain ⟨before, after, rfl⟩ := List.append_of_mem inside
  exact queue.edge.live_following

/-- The head points to the first entry. -/
theorem IsQueue.tqh_first_eq {nodes : List Address}
    (queue : memory.IsQueue nodes) :
    memory.tqh_first = nodes.head? := by
  have whole : memory.IsQueue ([] ++ nodes) := queue
  exact Option.some.inj whole.edge.1

/-- Going back in the ring needs two links, and the last one leads to the
entry. -/
theorem IsQueue.tailqPrev_eq (queue : memory.IsQueue (before ++ after)) :
    tailqPrev memory (.of after.head?) = some before.getLast? := by
  have edge := queue.edge
  obtain ⟨previous, toLast⟩ :
    ∃ previous, memory.Edge previous before.getLast? := by
    rcases List.eq_nil_or_concat before with rfl | ⟨front, last, rfl⟩
    · have whole : memory.IsQueue (after ++ []) := by simpa using queue
      exact ⟨_, whole.edge⟩
    · have split : memory.IsQueue (front ++ last :: after) := by
        simpa using queue
      exact ⟨_, by simpa using split.edge⟩
  rw [tailqPrev, edge.2]
  change (memory.back (.of before.getLast?)).bind _ = _
  rw [toLast.2]
  exact toLast.1

/-- Each entry leads to the next one and the last one to null. -/
def Forward (memory : Memory Address Data) : List Address → Prop
  | [] => True
  | node :: rest =>
      memory.load (.next node) = some rest.head? ∧ memory.Forward rest

/-- A queue can be followed forward. -/
theorem IsQueue.forward {nodes : List Address} (queue : memory.IsQueue nodes) :
    memory.Forward nodes := by
  have whole : memory.IsQueue ([] ++ nodes) := queue
  have chain := (isChain_ring_append.mp whole.linked).2.1
  clear queue whole
  induction nodes with
  | nil => trivial
  | cons node rest inductionHypothesis =>
      rw [List.map_cons, List.cons_append, List.isChain_cons, head?_append_none]
        at chain
      exact ⟨(chain.1 _ rfl).1, inductionHypothesis chain.2⟩

theorem Forward.congr {nodes : List Address} (forward : memory.Forward nodes)
    (same : ∀ node ∈ nodes,
      written.load (.next node) = memory.load (.next node)) :
    written.Forward nodes := by
  induction nodes with
  | nil => trivial
  | cons node rest inductionHypothesis =>
      obtain ⟨first, others⟩ := List.forall_mem_cons.mp same
      exact ⟨first.trans forward.1, inductionHypothesis forward.2 others⟩

/-- A queue depends on its own entries alone. -/
theorem IsQueue.congr {nodes : List Address} (queue : memory.IsQueue nodes)
    (same : ∀ member, (∀ node ∈ member, node ∈ nodes) →
      written.load (.of member) = memory.load (.of member) ∧
        written.back (.of member) =
          memory.back (.of member)) : written.IsQueue nodes := by
  have isMember : ∀ member ∈ ring nodes, ∀ node ∈ member, node ∈ nodes := by
    rintro member inRing node rfl
    simpa [ring] using inRing
  refine ⟨queue.distinct,
    queue.linked.imp_of_mem_imp fun x y xInRing yInRing edge => ?_⟩
  rw [Edge, (same x (isMember x xInRing)).1, (same y (isMember y yInRing)).2]
  exact edge

end Memory

end TailQueue
end LinuxCPractice
