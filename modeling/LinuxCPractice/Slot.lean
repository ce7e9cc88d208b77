import LinuxCPractice.Machine
import LinuxCPractice.History
import Mathlib.Data.List.Nodup
import Mathlib.Logic.Function.Basic

/-!
# A slot for one item

Putting an item into the slot replaces one that is there. Taking empties the
slot and tells whether it held an item. Takers that find something can be
matched with givers, each with one that came before and that no other taker is
matched with.
-/

namespace LinuxCPractice
namespace Slot

variable {Giver Taker : Type*}

/-- One use of the slot. -/
inductive Use (Giver Taker : Type*)
  | put (giver : Giver)
  | take (taker : Taker) (found : Bool)
  deriving DecidableEq

namespace Use

/-- The giver of a `put`. -/
def giver? : Use Giver Taker → Option Giver
  | .put giver => some giver
  | .take _ _ => none

/-- The taker, if it has found something. -/
def winner? : Use Giver Taker → Option Taker
  | .take taker true => some taker
  | _ => none

end Use

/-- The slot is full or empty. -/
def step : Machine Bool (Use Giver Taker) := fun full use =>
  match use with
  | .put _ => some true
  | .take _ found => if found = full then some false else none

/-- Givers of the items put into the slot, in order. -/
def givers (history : List (Use Giver Taker)) : List Giver :=
  history.filterMap Use.giver?

/-- Takers that have found something, in order. -/
def winners (history : List (Use Giver Taker)) : List Taker :=
  history.filterMap Use.winner?

@[simp] theorem givers_nil : givers ([] : List (Use Giver Taker)) = [] := rfl

@[simp] theorem winners_nil : winners ([] : List (Use Giver Taker)) = [] := rfl

@[simp] theorem givers_concat_put (history : List (Use Giver Taker))
    (giver : Giver) :
    givers (history ++ [.put giver]) = givers history ++ [giver] := by
  simp [givers, Use.giver?]

@[simp] theorem givers_concat_take (history : List (Use Giver Taker))
    (taker : Taker)
    (found : Bool) :
    givers (history ++ [.take taker found]) = givers history := by
  simp [givers, Use.giver?]

@[simp] theorem winners_concat_put (history : List (Use Giver Taker))
    (giver : Giver) :
    winners (history ++ [.put giver]) = winners history := by
  simp [winners, Use.winner?]

@[simp] theorem winners_concat_take (history : List (Use Giver Taker))
    (taker : Taker)
    (found : Bool) : winners (history ++ [.take taker found]) =
      winners history ++ if found then [taker] else [] := by
  cases found <;> simp [winners, Use.winner?]

/-- The last use of a history of a slot that was empty at first. -/
theorem run_concat_iff {history : List (Use Giver Taker)}
    {use : Use Giver Taker} {next : Bool} :
    step.run false (history ++ [use]) = some next ↔
      ∃ full, step.run false history = some full ∧
        ((∃ giver, use = .put giver ∧ next = true) ∨
          ∃ taker, use = .take taker full ∧ next = false) := by
  rw [Machine.run_concat_eq_some_iff]
  refine exists_congr fun full => and_congr_right fun _ => ?_
  cases use with
  | put giver => simp [step, eq_comm]
  | take taker found =>
      cases found <;> cases full <;> cases next <;> simp [step]

/-- No more takers find something than items were put into the slot, and the
item it still holds is one more. -/
theorem length_winners_add_le {history : List (Use Giver Taker)} {full : Bool}
    (ran : step.run false history = some full) :
    (winners history).length + full.toNat ≤ (givers history).length := by
  induction history using List.reverseRecOn generalizing full with
  | nil =>
      cases ran
      exact Nat.le_refl _
  | append_singleton history use inductionHypothesis =>
      obtain ⟨before, ranPast, last⟩ := run_concat_iff.mp ran
      have past := inductionHypothesis ranPast
      rcases last with ⟨giver, rfl, rfl⟩ | ⟨taker, rfl, rfl⟩
      · rw [winners_concat_put, givers_concat_put, List.length_append]
        have bound : before.toNat ≤ 1 := Bool.toNat_le before
        simp
        omega
      · rw [winners_concat_take, givers_concat_take, List.length_append]
        cases before <;> simpa using past

/-- As long as nobody takes, an item put into the slot stays there. -/
theorem full_of_put {past between : List (Use Giver Taker)} {giver : Giver}
    {full : Bool}
    (ran : step.run false (past ++ .put giver :: between) = some full)
    (untaken : ∀ taker found, .take taker found ∉ between) : full = true := by
  rcases List.eq_nil_or_concat between with rfl | ⟨front, use, rfl⟩
  · obtain ⟨_, _, ⟨_, _, rfl⟩ | ⟨_, impossible, _⟩⟩ := run_concat_iff.mp ran
    · rfl
    · cases impossible
  · rw [List.concat_eq_append] at ran untaken
    rw [← List.cons_append, ← List.append_assoc] at ran
    obtain ⟨_, _, ⟨_, _, rfl⟩ | ⟨taker, rfl, _⟩⟩ := run_concat_iff.mp ran
    · rfl
    · exact absurd (List.mem_append_right _ (List.mem_singleton_self _))
        (untaken taker _)

/-- After an item was put into the slot, the next taker finds something. -/
theorem next_take_found {past between : List (Use Giver Taker)} {giver : Giver}
    {taker : Taker}
    {found full : Bool}
    (ran : step.run false
      (past ++ .put giver :: between ++ [.take taker found]) = some full)
    (next : ∀ taker found, .take taker found ∉ between) : found = true := by
  obtain ⟨before, ranPast, last⟩ := run_concat_iff.mp ran
  rcases last with ⟨_, impossible, _⟩ | ⟨_, taken, _⟩
  · cases impossible
  · cases taken
    exact full_of_put ranPast next

/-- Takers that find something are matched with givers that came before, no two
of them with the same one. -/
structure Matching (supplier : Taker → Giver)
    (history : List (Use Giver Taker)) : Prop where
  earlier : History.Justified
    (fun past use => ∀ taker ∈ use.winner?,
      supplier taker ∈ givers past) history
  distinct : ∀ first ∈ winners history, ∀ second ∈ winners history,
    supplier first = supplier second → first = second

/-- The supplier of a winner has given something. -/
theorem Matching.supplier_mem {supplier : Taker → Giver}
    {history : List (Use Giver Taker)}
    (matching : Matching supplier history) {taker : Taker}
    (won : taker ∈ winners history) :
    supplier taker ∈ givers history := by
  obtain ⟨use, present, isWinner⟩ := List.mem_filterMap.mp won
  obtain ⟨past, rest, rfl⟩ := List.append_of_mem present
  have earlier := matching.earlier past use rest rfl taker isWinner
  rw [givers, List.filterMap_append]
  exact List.mem_append_left _ earlier

/-- Putting an item in matches nobody. -/
theorem Matching.put {supplier : Taker → Giver}
    {history : List (Use Giver Taker)}
    (matching : Matching supplier history) (giver : Giver) :
    Matching supplier (history ++ [.put giver]) where
  earlier := matching.earlier.concat (by simp [Use.winner?])
  distinct := by simpa using matching.distinct

/-- Nor does taking from the empty slot. -/
theorem Matching.takeNothing {supplier : Taker → Giver}
    {history : List (Use Giver Taker)}
    (matching : Matching supplier history) (taker : Taker) :
    Matching supplier (history ++ [.take taker false]) where
  earlier := matching.earlier.concat (by simp [Use.winner?])
  distinct := by simpa using matching.distinct

/-- A taker that finds something is matched with a giver that is free. -/
theorem Matching.take [DecidableEq Taker] {supplier : Taker → Giver}
    {history : List (Use Giver Taker)} (matching : Matching supplier history)
    {taker : Taker}
    (new : taker ∉ winners history) {giver : Giver}
    (came : giver ∈ givers history)
    (free : ∀ other ∈ winners history, supplier other ≠ giver) :
    Matching (Function.update supplier taker giver)
      (history ++ [.take taker true]) where
  earlier := by
    refine History.Justified.concat ?_ ?_
    · intro past use rest split other isWinner
      have won : other ∈ winners history := by
        rw [split, winners, List.filterMap_append,
          List.filterMap_cons_some isWinner]
        exact List.mem_append_right _ List.mem_cons_self
      have different : other ≠ taker := fun same => new (same ▸ won)
      rw [Function.update_of_ne different]
      exact matching.earlier past use rest split other isWinner
    · rintro other ⟨rfl⟩
      rw [Function.update_self]
      exact came
  distinct := by
    have others :
        ∀ other ∈ winners history,
        Function.update supplier taker giver other = supplier other := by
      intro other won
      refine Function.update_of_ne ?_ _ _
      rintro rfl
      exact new won
    intro first firstWon second secondWon same
    simp only [winners_concat_take, if_true, List.mem_append,
      List.mem_singleton]
      at firstWon secondWon
    rcases firstWon with firstWon | rfl <;> rcases secondWon
      with secondWon | rfl
    · rw [others first firstWon, others second secondWon] at same
      exact matching.distinct first firstWon second secondWon same
    · rw [others first firstWon, Function.update_self] at same
      exact absurd same (free first firstWon)
    · rw [others second secondWon, Function.update_self] at same
      exact absurd same.symm (free second secondWon)
    · rfl

/-- When no giver and no taker comes twice, there is a matching, and the giver
of an item that is still in the slot is free. -/
theorem exists_matching [DecidableEq Taker] [Nonempty Giver]
    {history : List (Use Giver Taker)} {full : Bool}
    (ran : step.run false history = some full)
    (giversOnce : (givers history).Nodup)
    (winnersOnce : (winners history).Nodup) :
    ∃ supplier, Matching supplier history ∧
      (full = true → ∃ giver ∈ givers history,
        ∀ taker ∈ winners history, supplier taker ≠ giver) := by
  induction history using List.reverseRecOn generalizing full with
  | nil =>
      cases ran
      exact ⟨fun _ => Classical.arbitrary Giver, ⟨by simp, by simp⟩, by simp⟩
  | append_singleton history use inductionHypothesis =>
      obtain ⟨before, ranPast, ⟨giver, rfl, rfl⟩ | ⟨taker, rfl, rfl⟩⟩ :=
        run_concat_iff.mp ran
      · rw [givers_concat_put, List.nodup_append'] at giversOnce
        rw [winners_concat_put] at winnersOnce
        obtain ⟨supplier, matching, _⟩ :=
          inductionHypothesis ranPast giversOnce.1 winnersOnce
        refine ⟨supplier, matching.put giver, fun _ => ⟨giver, by simp, ?_⟩⟩
        rintro taker won rfl
        rw [winners_concat_put] at won
        exact giversOnce.2.2 (matching.supplier_mem won)
          (List.mem_singleton_self _)
      · rw [givers_concat_take] at giversOnce
        rw [winners_concat_take, List.nodup_append'] at winnersOnce
        obtain ⟨supplier, matching, spare⟩ :=
          inductionHypothesis ranPast giversOnce winnersOnce.1
        cases before with
        | false => exact ⟨supplier, matching.takeNothing taker, by simp⟩
        | true =>
            obtain ⟨giver, came, free⟩ := spare rfl
            have new : taker ∉ winners history := fun won =>
              winnersOnce.2.2 won (List.mem_singleton_self _)
            exact ⟨_, matching.take new came free, by simp⟩

end Slot
end LinuxCPractice
