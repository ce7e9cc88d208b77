import Mathlib.Data.Finset.Range
import Mathlib.Data.List.AList
import Mathlib.Data.Nat.Find
import Mathlib.Data.Set.Insert

/-!
# Descriptor tables

The open descriptors of a process, each with the file it refers to. Several
descriptors may refer to the same file; what matters for a pipe is at which
descriptors one of its ends may still be found, and after a redirection which
descriptors exactly refer to a pipe.
-/

namespace LinuxCPractice

/-- The open descriptors of a process and what they refer to. -/
abbrev DescriptorTable (File : Type*) := AList fun _ : Int => File

namespace DescriptorTable

variable {File : Type*}

/-- The table with the given descriptors, all referring to `file`. -/
def ofList (file : File) (fds : List Int) : DescriptorTable File :=
  (fds.map fun fd => (⟨fd, file⟩ : Sigma fun _ : Int => File)).toAList

/-- Some descriptor refers to the file. -/
def Refers (table : DescriptorTable File) (file : File) : Prop :=
  ∃ fd, table.lookup fd = some file

instance [DecidableEq File] (table : DescriptorTable File) (file : File) :
    Decidable (table.Refers file) :=
  decidable_of_iff (∃ entry ∈ table.entries, entry.2 = file) <| by
    constructor
    · rintro ⟨⟨fd, _⟩, present, rfl⟩
      exact ⟨fd, AList.mem_lookup_iff.mpr present⟩
    · rintro ⟨fd, found⟩
      exact ⟨⟨fd, file⟩, AList.mem_lookup_iff.mp found, rfl⟩

/-- `fd` is the lowest number that is not open. -/
def Lowest (table : DescriptorTable File) (fd : Int) : Prop :=
  0 ≤ fd ∧ fd ∉ table ∧ ∀ number < fd.toNat, (number : Int) ∈ table

instance (table : DescriptorTable File) (fd : Int) :
    Decidable (table.Lowest fd) :=
  inferInstanceAs (Decidable (_ ∧ _ ∧ _))

/-- Make `new` refer to what `old` refers to. Nothing happens when `old` is not
open. -/
def dup2 (table : DescriptorTable File) (old new : Int) :
    DescriptorTable File :=
  match table.lookup old with
  | none => table
  | some file => table.insert new file

/-- The file is referred to at none but the given descriptors. -/
def OnlyAt (table : DescriptorTable File) (file : File)
    (fds : Set Int) : Prop :=
  ∀ fd, table.lookup fd = some file → fd ∈ fds

instance [DecidableEq File] (table : DescriptorTable File) (file : File)
    (fds : Set Int)
    [DecidablePred (· ∈ fds)] : Decidable (table.OnlyAt file fds) :=
  decidable_of_iff (∀ entry ∈ table.entries, entry.2 = file →
    entry.1 ∈ fds) <| by
    constructor
    · intro every fd found
      exact every ⟨fd, file⟩ (AList.mem_lookup_iff.mp found) rfl
    · rintro only ⟨fd, _⟩ present rfl
      exact only fd (AList.mem_lookup_iff.mpr present)

theorem onlyAt_empty (file : File) (fds : Set Int) :
    OnlyAt (∅ : DescriptorTable File) file fds := by
  intro fd found
  simp at found

theorem not_refers_empty (file : File) :
    ¬Refers (∅ : DescriptorTable File) file := by
  rintro ⟨fd, found⟩
  simp at found

/-- A table that refers to one file only refers to no other. -/
theorem onlyAt_ofList {file other : File} (different : file ≠ other)
    (opened : List Int) :
    (ofList file opened).OnlyAt other ∅ := by
  intro fd found
  rw [ofList, AList.lookup_to_alist] at found
  obtain ⟨_, _, same⟩ :=
    List.mem_map.mp (List.of_mem_dlookup (Option.mem_def.mpr found))
  cases same
  exact absurd rfl different

/-- The table of a list has just its descriptors. -/
theorem mem_ofList_iff {file : File} {opened : List Int} {fd : Int} :
    fd ∈ ofList file opened ↔ fd ∈ opened := by
  rw [← AList.lookup_isSome, ofList, AList.lookup_to_alist, List.dlookup_isSome,
    List.keys, List.map_map]
  simp

namespace OnlyAt

variable {table : DescriptorTable File} {file : File} {fds : Set Int}

theorem mono (only : table.OnlyAt file fds) {more : Set Int}
    (subset : fds ⊆ more) :
    table.OnlyAt file more :=
  fun fd found => subset (only fd found)

theorem not_refers (only : table.OnlyAt file ∅) : ¬table.Refers file :=
  fun ⟨fd, found⟩ => only fd found

/-- A descriptor that is closed no longer has the file. -/
theorem erase (only : table.OnlyAt file fds) (closed : Int) :
    OnlyAt (table.erase closed) file (fds \ {closed}) := by
  intro fd found
  by_cases same : fd = closed
  · rw [same, AList.lookup_erase] at found
    cases found
  · rw [AList.lookup_erase_ne same] at found
    exact ⟨only fd found, same⟩

/-- Closing the only descriptor of a file leaves none. -/
theorem erase_self {fd : Int} (only : table.OnlyAt file {fd}) :
    OnlyAt (table.erase fd) file ∅ :=
  fun other found => (only.erase fd other found).2 (only.erase fd other found).1

/-- Closing any descriptor keeps the file where it was. -/
theorem erase_subset (only : table.OnlyAt file fds) (closed : Int) :
    OnlyAt (table.erase closed) file fds :=
  (only.erase closed).mono fun _ present => present.1

/-- A new descriptor is the only new place. -/
theorem insert (only : table.OnlyAt file fds) (fd : Int) (other : File) :
    OnlyAt (table.insert fd other) file (Insert.insert fd fds) := by
  intro here found
  by_cases same : here = fd
  · exact .inl same
  · rw [AList.lookup_insert_ne same] at found
    exact .inr (only here found)

/-- Opening another file keeps the file where it was. -/
theorem insert_of_ne (only : table.OnlyAt file fds) (fd : Int) {other : File}
    (different : other ≠ file) : OnlyAt (table.insert fd other) file fds := by
  intro here found
  by_cases same : here = fd
  · rw [same, AList.lookup_insert] at found
    exact absurd (Option.some.inj found) different
  · rw [AList.lookup_insert_ne same] at found
    exact only here found

/-- A copy is the only new place. -/
theorem dup2 (only : table.OnlyAt file fds) (old new : Int) :
    OnlyAt (table.dup2 old new) file (Insert.insert new fds) := by
  unfold DescriptorTable.dup2
  split
  · exact only.mono (Set.subset_insert new fds)
  · exact only.insert new _

/-- Duplicating a descriptor that refers to another file keeps the file where it
was. -/
theorem dup2_of_notMem (only : table.OnlyAt file fds) {old : Int} (new : Int)
    (elsewhere : old ∉ fds) : OnlyAt (table.dup2 old new) file fds := by
  unfold DescriptorTable.dup2
  split
  · exact only
  · rename_i other found
    refine only.insert_of_ne new ?_
    rintro rfl
    exact elsewhere (only old found)

end OnlyAt

/-! ## The lowest free number -/

/-- The lowest free descriptor is below any other. -/
theorem Lowest.le_of_notMem {table : DescriptorTable File} {fd other : Int}
    (lowest : table.Lowest fd) (nonnegative : 0 ≤ other)
    (free : other ∉ table) : fd ≤ other := by
  by_contra larger
  apply free
  rw [← Int.toNat_of_nonneg nonnegative]
  exact lowest.2.2 other.toNat (by omega)

/-- What is opened lowest leaves no gap. -/
theorem Lowest.mem_insert {table : DescriptorTable File} {fd : Int}
    (lowest : table.Lowest fd)
    (file : File) {count : Nat}
    (filled : ∀ number < count, (number : Int) ∈ table) :
    ∀ number < count + 1, (number : Int) ∈ table.insert fd file := by
  intro number below
  rw [AList.mem_insert]
  by_cases opened : (number : Int) ∈ table
  · exact .inr opened
  · left
    have upper : fd ≤ number :=
      lowest.le_of_notMem (Int.natCast_nonneg number) opened
    have lower : ¬fd.toNat < count := by
      intro before
      have member := filled fd.toNat before
      rw [Int.toNat_of_nonneg lowest.1] at member
      exact lowest.2.1 member
    have nonnegative := lowest.1
    omega

/-- A table is finite, so that some number is free. -/
theorem exists_lowest (table : DescriptorTable File) :
    ∃ fd, table.Lowest fd := by
  have free : ∃ number : Nat, (number : Int) ∉ table := by
    obtain ⟨bound, below⟩ :=
      (table.keys.map Int.toNat).toFinset.exists_nat_subset_range
    refine ⟨bound, fun opened => ?_⟩
    have member : bound ∈ (table.keys.map Int.toNat).toFinset := by
      rw [List.mem_toFinset]
      exact List.mem_map.mpr ⟨bound, AList.mem_keys.mp opened,
        Int.toNat_natCast bound⟩
    exact absurd (Finset.mem_range.mp (below member)) (Nat.lt_irrefl bound)
  classical
  refine ⟨Nat.find free, Int.natCast_nonneg _, Nat.find_spec free, ?_⟩
  intro number below
  exact not_not.mp (Nat.find_min free (by simpa using below))

/-! ## The descriptors of a kind of file -/

/-- The descriptors that refer to one of the files, each with its file. -/
def within (table : DescriptorTable File)
    (files : Set File) : Set (Int × File) :=
  {entry | entry.2 ∈ files ∧ table.lookup entry.1 = some entry.2}

/-- The entries that are left when a descriptor is closed. -/
def without (entries : Set (Int × File)) (fd : Int) : Set (Int × File) :=
  {entry ∈ entries | entry.1 ≠ fd}

@[simp] theorem without_empty (fd : Int) :
    without (∅ : Set (Int × File)) fd = ∅ :=
  Set.sep_empty _

/-- Removing a descriptor from one entry more. -/
theorem without_insert (entry : Int × File) (entries : Set (Int × File))
    (fd : Int) :
    without (insert entry entries) fd =
      if entry.1 = fd then without entries fd
      else insert entry (without entries fd) := by
  by_cases same : entry.1 = fd
  · rw [if_pos same]
    ext other
    refine ⟨?_, fun left => ⟨.inr left.1, left.2⟩⟩
    rintro ⟨rfl | member, different⟩
    · exact absurd same different
    · exact ⟨member, different⟩
  · rw [if_neg same]
    ext other
    constructor
    · rintro ⟨rfl | member, different⟩
      · exact .inl rfl
      · exact .inr ⟨member, different⟩
    · rintro (rfl | ⟨member, different⟩)
      · exact ⟨.inl rfl, same⟩
      · exact ⟨.inr member, different⟩

theorem without_singleton (entry : Int × File) (fd : Int) :
    without {entry} fd = if entry.1 = fd then ∅ else {entry} := by
  rw [← insert_empty_eq entry, without_insert, without_empty]

/-- Removing a descriptor that has no entry. -/
theorem without_eq_self {entries : Set (Int × File)} {fd : Int}
    (elsewhere : ∀ entry ∈ entries, entry.1 ≠ fd) :
    without entries fd = entries := by
  ext entry
  exact ⟨fun left => left.1, fun member => ⟨member, elsewhere entry member⟩⟩

section Within

variable {table : DescriptorTable File} {files : Set File} {file : File}
  {fd : Int}

/-- The entries within are those of the table. -/
theorem mem_of_mem_within {entry : Int × File}
    (member : entry ∈ table.within files) :
    entry.1 ∈ table :=
  AList.lookup_isSome.mp (Option.isSome_of_mem member.2)

/-- A table of another file has no entry within. -/
theorem within_ofList (outside : file ∉ files) (opened : List Int) :
    (ofList file opened).within files = ∅ := by
  ext ⟨fd, other⟩
  simp only [Set.mem_empty_iff_false, iff_false]
  rintro ⟨inside, found⟩
  have different : file ≠ other := fun same => outside (same ▸ inside)
  exact onlyAt_ofList different opened fd found

/-- A descriptor that is closed has no entry within. -/
theorem within_erase (table : DescriptorTable File) (files : Set File)
    (fd : Int) :
    within (table.erase fd) files = without (table.within files) fd := by
  ext ⟨other, file⟩
  by_cases same : other = fd
  · simp [within, without, same]
  · simp [within, without, same, AList.lookup_erase_ne same]

/-- A new descriptor has the entry of its file. -/
theorem within_insert (inside : file ∈ files) (fd : Int) :
    within (table.insert fd file) files =
      insert (fd, file) (without (table.within files) fd) := by
  ext ⟨other, found⟩
  by_cases same : other = fd
  · subst same
    constructor
    · rintro ⟨_, isFound⟩
      rw [AList.lookup_insert] at isFound
      exact .inl (Prod.ext rfl (Option.some.inj isFound).symm)
    · rintro (equal | ⟨_, different⟩)
      · cases equal
        exact ⟨inside, AList.lookup_insert _⟩
      · exact absurd rfl different
  · simp [within, without, same, AList.lookup_insert_ne same]

/-- A new descriptor comes to the others. -/
theorem within_insert_of_notMem (inside : file ∈ files) (free : fd ∉ table) :
    within (table.insert fd file) files =
      insert (fd, file) (table.within files) := by
  rw [within_insert inside, without_eq_self]
  rintro entry member rfl
  exact free (mem_of_mem_within member)

/-- A duplicate comes to the others when it takes the place of none of them. -/
theorem within_dup2 {old new : Int} (member : (old, file) ∈ table.within files)
    (vacant : ∀ entry ∈ table.within files, entry.1 = new → entry.2 = file) :
    within (table.dup2 old new) files =
      insert (new, file) (table.within files) := by
  have found : table.lookup old = some file := member.2
  rw [dup2, found]
  refine (within_insert member.1 new).trans (Set.Subset.antisymm ?_ ?_)
  · exact Set.insert_subset_insert fun entry left => left.1
  · rintro entry (rfl | present)
    · exact .inl rfl
    · by_cases same : entry.1 = new
      · exact .inl (Prod.ext same (vacant entry present same))
      · exact .inr ⟨present, same⟩

end Within
end DescriptorTable
end LinuxCPractice
