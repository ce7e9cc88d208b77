import LinuxCPractice.History
import Mathlib.Data.List.Nodup
import Mathlib.Data.List.Induction
import Mathlib.Data.Fintype.EquivFin

/-!
# Opening and closing numbered resources

A history lists the openings and closings of resources that carry a reusable
name, such as the descriptors of a process. The names held at its end are kept
in the order in which they were opened. A history is well used when it opens
only names that are not held and closes only names that are: then the events
of each single name are open, close, open, close, and so on.
-/

namespace LinuxCPractice

/-- One use of a named resource. -/
inductive Use (Name : Type*)
  | opens (name : Name)
  | closes (name : Name)
  deriving DecidableEq

namespace Use

variable {Name : Type*}

/-- The name that is opened or closed. -/
def name : Use Name → Name
  | .opens name => name
  | .closes name => name

/-- `count` openings of a name, each followed by its closing. -/
def cycles (name : Name) (count : Nat) : List (Use Name) :=
  (List.replicate count [.opens name, .closes name]).flatten

/-- One more cycle. -/
theorem cycles_succ (name : Name) (count : Nat) :
    cycles name (count + 1) =
      cycles name count ++ [.opens name, .closes name] := by
  simp [cycles, List.replicate_succ']

variable [DecidableEq Name]

/-- Names held after one more use, in the order of their opening. -/
def apply (names : List Name) : Use Name → List Name
  | .opens name => names ++ [name]
  | .closes name => names.erase name

/-- Names held at the end of a history, in the order of their opening. -/
def held (history : List (Use Name)) : List Name :=
  history.foldl apply []

@[simp] theorem held_nil : held ([] : List (Use Name)) = [] := rfl

@[simp] theorem held_concat_opens (history : List (Use Name)) (name : Name) :
    held (history ++ [.opens name]) = held history ++ [name] := by
  simp [held, apply]

@[simp] theorem held_concat_closes (history : List (Use Name)) (name : Name) :
    held (history ++ [.closes name]) = (held history).erase name := by
  simp [held, apply]

/-- As long as nothing is opened, nothing is held that was not held before. -/
theorem held_append_sublist (history : List (Use Name))
    {later : List (Use Name)}
    (closes : ∀ name, .opens name ∉ later) :
    (held (history ++ later)).Sublist (held history) := by
  induction later using List.reverseRecOn with
  | nil => simp
  | append_singleton later use inductionHypothesis =>
      cases use with
      | opens name =>
          exact absurd (List.mem_append_right later (by simp)) (closes name)
      | closes name =>
          rw [← List.append_assoc, held_concat_closes]
          exact List.erase_sublist.trans
            (inductionHypothesis fun name present =>
              closes name (List.mem_append_left _ present))

/-- Only what was opened is held. -/
theorem opens_mem_of_mem_held {history : List (Use Name)} {name : Name}
    (isHeld : name ∈ held history) : .opens name ∈ history := by
  induction history using List.reverseRecOn with
  | nil => simp at isHeld
  | append_singleton history use inductionHypothesis =>
      cases use with
      | opens other =>
          rw [held_concat_opens, List.mem_append, List.mem_singleton] at isHeld
          rcases isHeld with earlier | rfl
          · exact List.mem_append_left _ (inductionHypothesis earlier)
          · exact List.mem_append_right _ (List.mem_singleton_self _)
      | closes other =>
          rw [held_concat_closes] at isHeld
          exact List.mem_append_left _
            (inductionHypothesis (List.mem_of_mem_erase isHeld))

/-- There is always a number that is not held. -/
theorem exists_unheld (history : List (Use Int)) :
    ∃ fd, 0 ≤ fd ∧ fd ∉ held history := by
  obtain ⟨number, absent⟩ :=
    Infinite.exists_notMem_finset ((held history).map Int.toNat).toFinset
  refine ⟨number, Int.natCast_nonneg number, fun isHeld => absent ?_⟩
  exact List.mem_toFinset.mpr
    (List.mem_map.mpr ⟨number, isHeld, Int.toNat_natCast number⟩)

/-- The uses of one name. -/
def about (name : Name) (history : List (Use Name)) : List (Use Name) :=
  history.filter fun use => use.name = name

@[simp] theorem about_append (name : Name) (first second : List (Use Name)) :
    about name (first ++ second) = about name first ++ about name second := by
  simp [about]

/-- Every opening in the history is followed by exactly one closing of the
same name before that name is opened again, and nothing else is closed. -/
def ClosedOnce (history : List (Use Name)) : Prop :=
  ∀ name, ∃ count, about name history = cycles name count

/-- Only names that are not held are opened and only held names are closed. -/
structure WellUsed (history : List (Use Name)) : Prop where
  nodup : (held history).Nodup
  cycles : ∀ name, ∃ count,
    about name history = cycles name count ++ if name ∈ held history then
      [.opens name] else []

namespace WellUsed

variable {history : List (Use Name)}

theorem nil : WellUsed ([] : List (Use Name)) where
  nodup := List.nodup_nil
  cycles := fun _ => ⟨0, rfl⟩

/-- Opening a name that is not held keeps a history well used. -/
theorem opens {name : Name} (used : WellUsed history)
    (free : name ∉ held history) :
    WellUsed (history ++ [.opens name]) where
  nodup := by
    rw [held_concat_opens]
    exact List.nodup_append'.mpr ⟨used.nodup, List.nodup_singleton name,
      by simpa using free⟩
  cycles := by
    intro other
    obtain ⟨count, events⟩ := used.cycles other
    refine ⟨count, ?_⟩
    rw [about_append, events, held_concat_opens]
    by_cases same : name = other
    · subst other
      simp [about, Use.name, free]
    · have different : other ≠ name := fun equal => same equal.symm
      simp [about, Use.name, same, different]

/-- Closing a held name keeps a history well used. -/
theorem closes {name : Name} (used : WellUsed history)
    (isHeld : name ∈ held history) :
    WellUsed (history ++ [.closes name]) where
  nodup := by
    rw [held_concat_closes]
    exact used.nodup.erase name
  cycles := by
    intro other
    obtain ⟨count, events⟩ := used.cycles other
    by_cases same : name = other
    · subst other
      have released : name ∉ (held history).erase name := by
        rw [used.nodup.mem_erase_iff]
        exact fun present => present.1 rfl
      refine ⟨count + 1, ?_⟩
      rw [about_append, events, held_concat_closes, cycles_succ, if_pos isHeld,
        if_neg released]
      simp [about, Use.name]
    · have different : other ≠ name := fun equal => same equal.symm
      refine ⟨count, ?_⟩
      rw [about_append, events, held_concat_closes]
      simp [about, Use.name, same, List.mem_erase_of_ne different]

/-- Closing the held names in order releases all of them. -/
theorem closes_all (used : WellUsed history) :
    ∀ {names}, held history = names →
      WellUsed (history ++ names.map .closes) ∧
      held (history ++ names.map .closes) = [] := by
  intro names
  induction names generalizing history with
  | nil =>
      intro released
      simpa using ⟨used, released⟩
  | cons name names inductionHypothesis =>
      intro holds
      have isHeld : name ∈ held history := by simp [holds]
      have rest : held (history ++ [.closes name]) = names := by
        rw [held_concat_closes, holds, List.erase_cons_head]
      simpa using inductionHypothesis (used.closes isHeld) rest

/-- A well used history that holds nothing has closed everything it opened. -/
theorem closedOnce (used : WellUsed history) (released : held history = []) :
    ClosedOnce history := by
  intro name
  obtain ⟨count, events⟩ := used.cycles name
  exact ⟨count, by simpa [released] using events⟩

end WellUsed

/-! ## Uses that are allowed when they happen -/

/-- Only a name that is not held may be opened, and only one that is may be
closed. -/
def Allowed (past : List (Use Name)) : Use Name → Prop
  | .opens name => name ∉ held past
  | .closes name => name ∈ held past

/-- Uses that are allowed one by one are proper as a whole. -/
theorem WellUsed.of_justified {history : List (Use Name)}
    (justified : History.Justified Allowed history) : WellUsed history := by
  induction history using List.reverseRecOn with
  | nil => exact .nil
  | append_singleton history use inductionHypothesis =>
      obtain ⟨earlier, now⟩ := History.justified_concat_iff.mp justified
      cases use with
      | opens name => exact (inductionHypothesis earlier).opens now
      | closes name => exact (inductionHypothesis earlier).closes now

/-- The names opened, in the order of their opening. -/
def opened (history : List (Use Name)) : List Name :=
  history.filterMap fun use =>
    match use with
    | .opens name => some name
    | .closes _ => none

omit [DecidableEq Name] in
/-- Openings, each followed by its closing, and some openings behind them. -/
theorem opened_serial (order rest : List Name) :
    opened (order.flatMap (fun name => [.opens name, .closes name]) ++
      rest.map .opens) =
      order ++ rest := by
  induction order with
  | nil => induction rest <;> simp_all [opened]
  | cons name order inductionHypothesis =>
      simpa [opened] using inductionHypothesis

/-- A name is opened as often as its opening is in the history. -/
theorem count_opened (history : List (Use Name)) (name : Name) :
    (opened history).count name = history.count (.opens name) := by
  induction history with
  | nil => rfl
  | cons use history inductionHypothesis =>
      cases use with
      | opens other => simpa [opened, List.count_cons] using inductionHypothesis
      | closes other =>
          simpa [opened, List.count_cons] using inductionHypothesis

/-- Where at most one name is held at a time, the names are held one after
another. -/
theorem serial_of_justified {history : List (Use Name)}
    (justified : History.Justified Allowed history)
    (single : ∀ front, front <+: history → (held front).length ≤ 1) :
    ∃ order : List Name,
      history = order.flatMap (fun name => [.opens name, .closes name]) ++
        (held history).map .opens := by
  induction history using List.reverseRecOn with
  | nil => exact ⟨[], rfl⟩
  | append_singleton history use inductionHypothesis =>
      obtain ⟨earlier, now⟩ := History.justified_concat_iff.mp justified
      obtain ⟨order, split⟩ := inductionHypothesis earlier
        fun front isPrefix =>
          single front (isPrefix.trans (List.prefix_append ..))
      cases use with
      | opens name =>
          have few := single _ (List.prefix_refl _)
          rw [held_concat_opens, List.length_append, List.length_singleton]
            at few
          have nothing : held history = [] :=
            List.length_eq_zero_iff.mp (by omega)
          refine ⟨order, ?_⟩
          rw [held_concat_opens, nothing]
          rw [nothing] at split
          simpa using split
      | closes name =>
          have few := single history (List.prefix_append ..)
          obtain ⟨only, isOnly⟩ : ∃ only, held history = [only] := by
            refine List.length_eq_one_iff.mp (Nat.le_antisymm few ?_)
            exact List.length_pos_of_mem now
          have same : name = only := by simpa [Allowed, isOnly] using now
          subst same
          refine ⟨order ++ [name], ?_⟩
          rw [held_concat_closes, isOnly]
          rw [isOnly] at split
          rw [split]
          simp

end Use
end LinuxCPractice
