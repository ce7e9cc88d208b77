import LinuxCPractice.PollSocket.Defs

/-!
# The table of polled descriptors

How appending, marking and compacting act on the list of descriptors in the
first `nfds` entries. Compaction removes the marks, keeps the order of the rest
and moves no `events` or `revents` field.
-/

namespace LinuxCPractice
namespace PollSocket

@[simp] theorem length_descriptors (fds : Vector Pollfd 32) (nfds : Nat) :
    (descriptors fds nfds).length = min nfds 32 := by
  simp [descriptors]

/-- The descriptors of the table by their index. -/
theorem getElem_descriptors (fds : Vector Pollfd 32) {nfds index : Nat}
    (inside : index < 32)
    (before : index < (descriptors fds nfds).length) :
    (descriptors fds nfds)[index] = fds[index].fd := by
  simp [descriptors]

/-- One more entry is one more descriptor. -/
theorem descriptors_succ (fds : Vector Pollfd 32) {nfds : Nat}
    (inside : nfds < 32) :
    descriptors fds (nfds + 1) = descriptors fds nfds ++ [fds[nfds].fd] := by
  simp [descriptors, List.take_add_one, inside]

/-- The descriptors from a position on, the first of them split off. -/
theorem drop_descriptors (fds : Vector Pollfd 32) {index nfds : Nat}
    (inside : index < 32) (before : index < nfds) :
    (descriptors fds nfds).drop index =
      fds[index].fd :: (descriptors fds nfds).drop (index + 1) := by
  have fits : index < (descriptors fds nfds).length := by
    rw [length_descriptors]
    omega
  rw [List.drop_eq_getElem_cons fits, getElem_descriptors fds inside fits]

/-- Two tables that agree on the `fd` fields have the same descriptors. -/
theorem descriptors_congr {first second : Vector Pollfd 32} {nfds : Nat}
    (agree : ∀ index (inside : index < 32), index < nfds →
      first[index].fd = second[index].fd) :
    descriptors first nfds = descriptors second nfds := by
  apply List.ext_getElem (by simp)
  intro index before _
  have bound : index < min nfds 32 := by simpa using before
  have inside : index < 32 := by omega
  rw [getElem_descriptors first inside, getElem_descriptors second inside]
  exact agree index inside (by omega)

/-- Writing one entry changes one descriptor. -/
theorem descriptors_set (fds : Vector Pollfd 32) {nfds index : Nat}
    (inside : index < 32) (entry : Pollfd) :
    descriptors (fds.set index entry) nfds =
      (descriptors fds nfds).set index entry.fd := by
  rw [descriptors, Vector.toList_set, List.take_set, List.map_set, descriptors]

/-- Marking an entry removes its descriptor. -/
theorem filter_append_mark {front back : List Int} {value : Int}
    (unmarked : value ≠ -1)
    (distinct : ((front ++ value :: back).filter (· ≠ -1)).Nodup) :
    (front ++ -1 :: back).filter (· ≠ -1) =
      ((front ++ value :: back).filter (· ≠ -1)).erase value := by
  have keeps : (value :: back).filter (· ≠ -1) =
      value :: back.filter (· ≠ -1) :=
    List.filter_cons_of_pos (by simpa using unmarked)
  have absent : value ∉ front.filter (· ≠ -1) := by
    intro present
    rw [List.filter_append, keeps] at distinct
    exact (List.nodup_append.mp distinct).2.2 value present value
      List.mem_cons_self rfl
  rw [List.filter_append, List.filter_append, keeps,
    List.filter_cons_of_neg (by simp),
    List.erase_append_right _ absent, List.erase_cons_head]

/-- Removing the marks after one entry more has been marked. -/
theorem filter_set_mark {values : List Int} {index : Nat}
    (inside : index < values.length)
    (unmarked : values[index] ≠ -1)
    (distinct : (values.filter (· ≠ -1)).Nodup) :
    (values.set index (-1)).filter (· ≠ -1) =
      (values.filter (· ≠ -1)).erase values[index] := by
  have split : values.take index ++ values[index] :: values.drop (index + 1) =
      values := by
    rw [List.getElem_cons_drop, List.take_append_drop]
  rw [← split] at distinct
  have erased := filter_append_mark unmarked distinct
  rw [split] at erased
  rw [List.set_eq_take_append_cons_drop, if_pos inside, erased]

/-! ## The two compaction loops -/

/-- The inner loop moves `count` descriptors down by one entry. -/
structure Shifted (fds shifted : Vector Pollfd 32) (j count : Nat) : Prop where
  fits : count = 0 ∨ j + count < 32
  below : ∀ index (inside : index < 32), index < j →
    shifted[index].fd = fds[index].fd
  moved : ∀ index (inside : index < 32) (next : index + 1 < 32), j ≤ index →
    index < j + count → shifted[index].fd = fds[index + 1].fd
  above : ∀ index (inside : index < 32), j + count ≤ index →
    shifted[index].fd = fds[index].fd
  events : ∀ index (inside : index < 32),
    shifted[index].events = fds[index].events
  revents : ∀ index (inside : index < 32),
    shifted[index].revents = fds[index].revents

/-- What the inner loop does when it stays within the table. -/
theorem shift_ok {fds shifted : Vector Pollfd 32} {j count : Nat}
    (result : shift fds j count = .ok shifted) :
    Shifted fds shifted j count := by
  induction count generalizing fds j with
  | zero =>
      cases result
      constructor <;> intros <;> first | rfl | omega
  | succ count inductionHypothesis =>
      rw [shift] at result
      split at result
      · rename_i inside
        obtain ⟨fits, below, moved, above, events, revents⟩ :=
          inductionHypothesis result
        refine ⟨?_, ?_, ?_, ?_, ?_, ?_⟩
        · omega
        · intro index bound before
          rw [below index bound (by omega),
            Vector.getElem_set_ne _ _ (by omega)]
        · intro index bound next from_j upto
          by_cases first : j = index
          · subst index
            rw [below j (by omega) (by omega), Vector.getElem_set_self]
          · rw [moved index bound next (by omega) (by omega),
              Vector.getElem_set_ne _ _ (by omega)]
        · intro index bound behind
          rw [above index bound (by omega),
            Vector.getElem_set_ne _ _ (by omega)]
        · intro index bound
          rw [events index bound, Vector.getElem_set]
          split
          · subst index
            rfl
          · rfl
        · intro index bound
          rw [revents index bound, Vector.getElem_set]
          split
          · subst index
            rfl
          · rfl
      · cases result

namespace Shifted

variable {fds shifted : Vector Pollfd 32} {j count : Nat}

/-- In front of the entries moved nothing changes. -/
theorem descriptors_before (moves : Shifted fds shifted j count) :
    descriptors shifted j = descriptors fds j :=
  descriptors_congr fun index inside before => moves.below index inside before

/-- The descriptor at the index is gone, and the ones behind it stand in its
place. -/
theorem drop_descriptors (moves : Shifted fds shifted j (count + 1)) :
    (descriptors shifted (j + count)).drop j =
      (descriptors fds (j + (count + 1))).drop (j + 1) := by
  have fits : j + (count + 1) < 32 := by
    rcases moves.fits with none | fits
    · omega
    · exact fits
  apply List.ext_getElem
  · simp
    omega
  · intro index insideShifted insideFds
    have bound : index < count := by
      rw [List.length_drop, length_descriptors] at insideShifted
      omega
    have step := moves.moved (j + index) (by omega) (by omega) (by omega)
      (by omega)
    rw [List.getElem_drop, List.getElem_drop,
      getElem_descriptors shifted (by omega),
      getElem_descriptors fds (by omega), step]
    simp only [Nat.add_right_comm j index 1]

end Shifted

/-- With an entry to spare behind the range, the inner loop stays inside. -/
theorem shift_inside {j count : Nat} (fits : j + count < 32)
    (fds : Vector Pollfd 32) :
    ∃ shifted, shift fds j count = .ok shifted := by
  induction count generalizing fds j with
  | zero => exact ⟨fds, rfl⟩
  | succ count inductionHypothesis =>
      rw [shift, dif_pos (by omega)]
      exact inductionHypothesis (by omega) _

/-- One round of the outer loop in a compaction that succeeds. -/
theorem compact_succ_ok {fds : Vector Pollfd 32} {i remaining : Nat}
    {final : Vector Pollfd 32 × Nat}
    (result : compact fds i (remaining + 1) = .ok final) :
    ∃ inside : i < 32,
      (fds[i].fd = -1 ∧ ∃ shifted, shift fds i (remaining + 1) = .ok shifted ∧
        compact shifted i remaining = .ok final) ∨
      (fds[i].fd ≠ -1 ∧ compact fds (i + 1) remaining = .ok final) := by
  rw [compact] at result
  split at result
  · rename_i inside
    refine ⟨inside, ?_⟩
    split at result
    · rename_i marked
      cases shiftResult : shift fds i (remaining + 1) with
      | error access => simp [shiftResult, Except.bind] at result
      | ok shifted =>
          rw [shiftResult] at result
          exact .inl ⟨marked, shifted, rfl, result⟩
    · rename_i unmarked
      exact .inr ⟨unmarked, result⟩
  · cases result

/-- One round of the outer loop in a compaction that leaves the table. -/
theorem compact_succ_error {fds : Vector Pollfd 32} {i remaining : Nat}
    {access : Access}
    (result : compact fds i (remaining + 1) = .error access) :
    (¬ i < 32 ∧ access = .read i) ∨ ∃ inside : i < 32,
      (fds[i].fd = -1 ∧ shift fds i (remaining + 1) = .error access) ∨
      (fds[i].fd = -1 ∧ ∃ shifted, shift fds i (remaining + 1) = .ok shifted ∧
        compact shifted i remaining = .error access) ∨
      (fds[i].fd ≠ -1 ∧ compact fds (i + 1) remaining = .error access) := by
  rw [compact] at result
  split at result
  · rename_i inside
    refine .inr ⟨inside, ?_⟩
    split at result
    · rename_i marked
      cases shiftResult : shift fds i (remaining + 1) with
      | error stopped =>
          rw [shiftResult] at result
          cases result
          exact .inl ⟨marked, rfl⟩
      | ok shifted =>
          rw [shiftResult] at result
          exact .inr (.inl ⟨marked, shifted, rfl, result⟩)
    · rename_i unmarked
      exact .inr (.inr ⟨unmarked, result⟩)
  · rename_i outside
    cases result
    exact .inl ⟨outside, rfl⟩

/-- The outer loop removes the marks among the `remaining` entries ahead. -/
structure Compacted (fds compacted : Vector Pollfd 32)
    (i remaining nfds : Nat) : Prop where
  lower : i ≤ nfds
  upper : nfds ≤ i + remaining
  descriptors : descriptors compacted nfds =
    descriptors fds i ++ ((descriptors fds (i + remaining)).drop i).filter
      (· ≠ -1)
  events : ∀ index (inside : index < 32),
    compacted[index].events = fds[index].events
  revents : ∀ index (inside : index < 32),
    compacted[index].revents = fds[index].revents

/-- What the loops do when they stay within the table. -/
theorem compact_ok {fds compacted : Vector Pollfd 32} {i remaining nfds : Nat}
    (result : compact fds i remaining = .ok (compacted, nfds)) :
    Compacted fds compacted i remaining nfds := by
  induction remaining generalizing fds i with
  | zero =>
      cases result
      refine ⟨Nat.le_refl _, Nat.le_refl _, ?_, fun _ _ => rfl, fun _ _ => rfl⟩
      rw [Nat.add_zero,
        List.drop_of_length_le (by rw [length_descriptors]; omega),
        List.filter_nil, List.append_nil]
  | succ remaining inductionHypothesis =>
      obtain ⟨inside, ⟨mark, shifted, shiftResult, rest⟩ | ⟨unmarked, rest⟩⟩ :=
        compact_succ_ok result
      · have moves := shift_ok shiftResult
        obtain ⟨lower, upper, kept, events, revents⟩ := inductionHypothesis rest
        refine ⟨lower, by omega, ?_, ?_, ?_⟩
        · rw [kept, moves.descriptors_before, moves.drop_descriptors,
            drop_descriptors fds inside (by omega : i < i + (remaining + 1)),
            List.filter_cons_of_neg (by simpa using mark)]
        · intro index bound
          rw [events index bound, moves.events index bound]
        · intro index bound
          rw [revents index bound, moves.revents index bound]
      · obtain ⟨lower, upper, kept, events, revents⟩ := inductionHypothesis rest
        refine ⟨by omega, by omega, ?_, events, revents⟩
        rw [kept, descriptors_succ fds inside,
          drop_descriptors fds inside (by omega : i < i + (remaining + 1)),
          List.filter_cons_of_pos (by simpa using unmarked), List.append_assoc,
          List.singleton_append, Nat.add_right_comm i 1 remaining,
          ← Nat.add_assoc]

/-- The compaction leaves the table only by reading behind it. -/
theorem shift_error {fds : Vector Pollfd 32} {j count : Nat} {access : Access}
    (result : shift fds j count = .error access) :
    ∃ index, access = .read index := by
  induction count generalizing fds j with
  | zero => cases result
  | succ count inductionHypothesis =>
      rw [shift] at result
      split at result
      · exact inductionHypothesis result
      · cases result
        exact ⟨_, rfl⟩

/-- When they leave the table they do it by a read. -/
theorem compact_error {fds : Vector Pollfd 32} {i remaining : Nat}
    {access : Access}
    (result : compact fds i remaining = .error access) :
    ∃ index, access = .read index := by
  induction remaining generalizing fds i with
  | zero => cases result
  | succ remaining inductionHypothesis =>
      obtain ⟨-, rfl⟩ | ⟨_, ⟨-, stopped⟩ | ⟨-, shifted, -, rest⟩ | ⟨-, rest⟩⟩ :=
        compact_succ_error result
      · exact ⟨_, rfl⟩
      · exact shift_error stopped
      · exact inductionHypothesis rest
      · exact inductionHypothesis rest

/-- With fewer than 32 entries in use the compaction stays inside the table. -/
theorem compact_inside {i remaining : Nat} (fits : i + remaining < 32)
    (fds : Vector Pollfd 32) :
    ∃ compacted nfds, compact fds i remaining = .ok (compacted, nfds) := by
  induction remaining generalizing fds i with
  | zero => exact ⟨fds, i, rfl⟩
  | succ remaining inductionHypothesis =>
      rw [compact, dif_pos (by omega)]
      split
      · obtain ⟨shifted, shiftResult⟩ :=
          shift_inside (by omega : i + (remaining + 1) < 32) fds
        rw [shiftResult]
        exact inductionHypothesis (by omega) shifted
      · exact inductionHypothesis (by omega) fds

/-- In a full table there may be no mark. -/
theorem unmarked_of_compact_ok {fds compacted : Vector Pollfd 32}
    {i remaining nfds : Nat}
    (full : i + remaining = 32)
    (result : compact fds i remaining = .ok (compacted, nfds))
    (index : Nat) (inside : index < 32) (ahead : i ≤ index) :
    fds[index].fd ≠ -1 := by
  induction remaining generalizing i with
  | zero => omega
  | succ remaining inductionHypothesis =>
      rw [compact, dif_pos (by omega)] at result
      split at result
      · cases shiftResult : shift fds i (remaining + 1) with
        | error access => simp [shiftResult, Except.bind] at result
        | ok shifted =>
            rcases (shift_ok shiftResult).fits with none | fits
            · cases none
            · omega
      · rename_i unmarked
        by_cases here : index = i
        · subst here
          exact unmarked
        · exact inductionHypothesis (by omega) result (by omega)

end PollSocket
end LinuxCPractice
