import Mathlib.Data.List.Basic
import Mathlib.Data.List.Induction

/-!
# Entries and what came before them

A history is justified when each of its entries stands in a given relation to
the entries before it.
-/

namespace LinuxCPractice
namespace History

variable {Entry Use : Type*}

/-- Every entry is justified by the entries before it. -/
def Justified (justifies : List Entry → Entry → Prop)
    (history : List Entry) : Prop :=
  ∀ past entry rest, history = past ++ entry :: rest → justifies past entry

@[simp] theorem justified_nil (justifies : List Entry → Entry → Prop) :
    Justified justifies [] := by
  intro past entry rest split
  simp at split

/-- A history is justified exactly if its past is and its last entry by that. -/
theorem justified_concat_iff {justifies : List Entry → Entry → Prop}
    {history : List Entry}
    {last : Entry} : Justified justifies (history ++ [last]) ↔
      Justified justifies history ∧ justifies history last := by
  constructor
  · intro justified
    refine ⟨fun past entry rest split => ?_, justified history last [] rfl⟩
    exact justified past entry (rest ++ [last])
      (by rw [split, List.append_assoc]; rfl)
  · rintro ⟨earlier, now⟩ past entry rest split
    rcases List.eq_nil_or_concat rest with rfl | ⟨front, other, rfl⟩
    · obtain ⟨rfl, same⟩ := List.append_inj' split rfl
      cases same
      exact now
    · rw [List.concat_eq_append, ← List.cons_append, ← List.append_assoc]
        at split
      obtain ⟨rfl, _⟩ := List.append_inj' split rfl
      exact earlier past entry front rfl

/-- An entry that is justified now may follow. -/
theorem Justified.concat {justifies : List Entry → Entry → Prop}
    {history : List Entry}
    {last : Entry} (justified : Justified justifies history)
    (now : justifies history last) :
    Justified justifies (history ++ [last]) :=
  justified_concat_iff.mpr ⟨justified, now⟩

theorem Justified.mono {justifies weaker : List Entry → Entry → Prop}
    {history : List Entry}
    (justified : Justified justifies history)
    (weaken : ∀ past entry, justifies past entry → weaker past entry) :
    Justified weaker history :=
  fun past entry rest split =>
    weaken past entry (justified past entry rest split)

/-- What justifies the uses read off the entries of a history. -/
theorem justified_filterMap_iff {justifies : List Use → Use → Prop}
    {use : Entry → Option Use}
    {history : List Entry} : Justified justifies (history.filterMap use) ↔
      Justified (fun past entry => ∀ now ∈ use entry,
        justifies (past.filterMap use) now)
        history := by
  induction history using List.reverseRecOn with
  | nil => simp
  | append_singleton history last inductionHypothesis =>
      rw [justified_concat_iff, ← inductionHypothesis, List.filterMap_append]
      cases read : use last with
      | none => simp [read]
      | some now => simp [read, justified_concat_iff]

end History
end LinuxCPractice
