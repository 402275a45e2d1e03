/-
Indices: for each key a list of entries. A key without entries is not in the
table at all.
-/

import Shading.Table

namespace Shading

abbrev Index (κ β : Type) := Table κ (List β)

namespace Index

variable {κ β : Type} [DecidableEq κ]

def entriesOf (index : Index κ β) (key : κ) : List β := (Table.get? index key).getD []

def push (index : Index κ β) (key : κ) (entry : β) : Index κ β :=
  Table.insert index key (entriesOf index key ++ [entry])

/-- Adds an entry that is not there yet. -/
def add [DecidableEq β] (index : Index κ β) (key : κ) (entry : β) : Index κ β :=
  if entry ∈ entriesOf index key then index else push index key entry

def remove [DecidableEq β] (index : Index κ β) (key : κ) (entry : β) : Index κ β :=
  let left := (entriesOf index key).filter (· ≠ entry)
  Table.set index key (if left = [] then none else some left)

/-- The number of all entries. -/
def total (index : Index κ β) : Nat := index.values.flatten.length

/-! ### Reading after writing -/

theorem entriesOf_push (index : Index κ β) (key other : κ) (entry : β) :
    entriesOf (push index key entry) other =
      if other = key then entriesOf index key ++ [entry] else entriesOf index other := by
  unfold push
  rw [entriesOf, Table.get?_insert]
  split <;> rfl

theorem entriesOf_remove [DecidableEq β] (index : Index κ β) (key other : κ) (entry : β) :
    entriesOf (remove index key entry) other =
      if other = key then (entriesOf index key).filter (· ≠ entry)
      else entriesOf index other := by
  unfold remove
  rw [entriesOf, Table.get?_set]
  by_cases same : other = key
  · rw [if_pos same, if_pos same]
    split
    · rename_i nothing
      exact nothing.symm
    · rfl
  · rw [if_neg same, if_neg same]
    rfl

theorem entriesOf_erase (index : Index κ β) (key other : κ) :
    entriesOf (Table.erase index key) other =
      if other = key then [] else entriesOf index other := by
  rw [entriesOf, Table.get?_erase]
  split <;> rfl

theorem mem_entriesOf_add [DecidableEq β] {index : Index κ β} {key other : κ} {entry its : β} :
    its ∈ entriesOf (add index key entry) other ↔
      its ∈ entriesOf index other ∨ (other = key ∧ its = entry) := by
  unfold add
  split
  · rename_i there
    refine (or_iff_left_of_imp ?_).symm
    rintro ⟨rfl, rfl⟩
    exact there
  · rw [entriesOf_push]
    split
    · rename_i same
      rw [same, List.mem_append, List.mem_singleton]
      simp
    · rename_i different
      exact (or_iff_left fun both => different both.1).symm

/-! ### Counting -/

/-- What different keys have is no more than what there is. -/
theorem length_flatMap_entriesOf_le (index : Index κ β) (keys : List κ) (distinct : keys.Nodup) :
    (keys.flatMap (entriesOf index)).length ≤ total index := by
  obtain ⟨entries⟩ := index
  induction entries generalizing keys with
  | nil =>
    have nothing : keys.flatMap (entriesOf (⟨[]⟩ : Index κ β)) = [] :=
      List.flatMap_eq_nil_iff.mpr fun _ _ => rfl
    rw [nothing]
    exact Nat.zero_le _
  | cons entry rest inductionHypothesis =>
    have elsewhere (others : List κ) (apart : entry.1 ∉ others) :
        (others.flatMap (entriesOf (⟨entry :: rest⟩ : Index κ β))).length =
          (others.flatMap (entriesOf (⟨rest⟩ : Index κ β))).length := by
      rw [List.length_flatMap, List.length_flatMap]
      refine congrArg List.sum (List.map_congr_left fun key member => ?_)
      have other : entry.1 ≠ key := fun same => apart (same ▸ member)
      unfold entriesOf Table.get?
      rw [List.find?_cons_of_neg (by simpa using other)]
    have totalCons : total (⟨entry :: rest⟩ : Index κ β) =
        entry.2.length + total (⟨rest⟩ : Index κ β) := by
      simp [total, Table.values]
    rw [totalCons]
    by_cases member : entry.1 ∈ keys
    · have found : entriesOf (⟨entry :: rest⟩ : Index κ β) entry.1 = entry.2 := by
        simp [entriesOf, Table.get?]
      have others := inductionHypothesis (keys.erase entry.1) (distinct.erase _)
      have gone : entry.1 ∉ keys.erase entry.1 := fun left =>
        (distinct.mem_erase_iff.mp left).1 rfl
      rw [((List.perm_cons_erase member).flatMap_right _).length_eq, List.flatMap_cons,
        List.length_append, found, elsewhere _ gone]
      omega
    · rw [elsewhere keys member]
      have others := inductionHypothesis keys distinct
      omega

end Index

end Shading
