/-
Sets of static parameters on top of one another. Writing a name does not touch
what other names have, and merging writes the names of one set over those of
another. So in a stack of sets the topmost one that has a name decides, provided
that no set has a name twice; a set that is kept sorted has none.
-/

import Mathlib.Data.String.Basic
import Shading.StaticParameters

namespace Shading.StaticParameters

variable {parameters overrides : StaticParameters} {name : String} {value : StaticValue}

/-! ### Sorted sets -/

/-- Every name comes before the names that follow it. -/
def Sorted (parameters : StaticParameters) : Prop :=
  parameters.entries.Pairwise fun first second => first.1 < second.1

instance (parameters : StaticParameters) : Decidable parameters.Sorted :=
  inferInstanceAs (Decidable (List.Pairwise _ _))

theorem sorted_empty : empty.Sorted := .nil

theorem mem_insertSorted {entries : List (String × StaticValue)} {entry : String × StaticValue}
    (member : entry ∈ insertSorted name value entries) :
    entry = (name, value) ∨ entry ∈ entries := by
  induction entries with
  | nil => exact .inl (List.mem_singleton.mp member)
  | cons first rest inductionHypothesis =>
    unfold insertSorted at member
    split at member
    · rcases List.mem_cons.mp member with rfl | later
      · exact .inr List.mem_cons_self
      · exact (inductionHypothesis later).imp_right (List.mem_cons_of_mem _)
    · split at member
      · exact (List.mem_cons.mp member).imp_right (List.mem_cons_of_mem _)
      · exact List.mem_cons.mp member

theorem Sorted.set (sorted : parameters.Sorted) (name : String) (value : StaticValue) :
    (parameters.set name value).Sorted := by
  obtain ⟨entries⟩ := parameters
  show (insertSorted name value entries).Pairwise _
  induction entries with
  | nil => exact List.pairwise_singleton _ _
  | cons first rest inductionHypothesis =>
    obtain ⟨before, ordered⟩ := List.pairwise_cons.mp sorted
    unfold insertSorted
    split
    · rename_i smaller
      refine List.pairwise_cons.mpr ⟨fun entry member => ?_, inductionHypothesis ordered⟩
      rcases mem_insertSorted member with rfl | old
      · exact smaller
      · exact before entry old
    · rename_i notSmaller
      split
      · rename_i same
        exact List.pairwise_cons.mpr ⟨fun entry member => same ▸ before entry member, ordered⟩
      · rename_i different
        have greater := lt_of_le_of_ne (not_lt.mp notSmaller) fun same => different same.symm
        refine List.pairwise_cons.mpr ⟨fun entry member => ?_, sorted⟩
        rcases List.mem_cons.mp member with rfl | old
        · exact greater
        · exact greater.trans (before entry old)

theorem Sorted.setAll (sorted : parameters.Sorted) (entries : List (String × StaticValue)) :
    (parameters.setAll entries).Sorted := by
  unfold StaticParameters.setAll
  induction entries generalizing parameters with
  | nil => exact sorted
  | cons first rest inductionHypothesis => exact inductionHypothesis (sorted.set first.1 first.2)

theorem Sorted.mergedWith (sorted : parameters.Sorted) (overrides : StaticParameters) :
    (parameters.mergedWith overrides).Sorted := sorted.setAll overrides.entries

/-! ### Reading after writing -/

theorem get?_set (parameters : StaticParameters) (name other : String) (value : StaticValue) :
    (parameters.set name value).get? other =
      if other = name then some value else parameters.get? other := by
  obtain ⟨entries⟩ := parameters
  unfold set get?
  induction entries with
  | nil =>
    by_cases same : other = name
    · simp [insertSorted, same]
    · simp [insertSorted, same, Ne.symm same]
  | cons first rest inductionHypothesis =>
    unfold insertSorted
    split
    · rename_i smaller
      by_cases here : first.1 = other
      · have different : ¬ other = name := fun same => lt_irrefl _ (same ▸ here ▸ smaller)
        simp [here, different]
      · simpa [here] using inductionHypothesis
    · split
      · rename_i same
        by_cases here : other = name
        · simp [here]
        · have different : ¬ first.1 = other := fun equal => here (equal.symm.trans same)
          simp [here, Ne.symm here, different]
      · by_cases here : other = name
        · simp [here]
        · simp [here, Ne.symm here]

/-- What is written last decides; in a sorted set only one entry has a name. -/
theorem get?_mergedWith (parameters : StaticParameters) (sorted : overrides.Sorted)
    (name : String) :
    (parameters.mergedWith overrides).get? name =
      (overrides.get? name).or (parameters.get? name) := by
  obtain ⟨entries⟩ := overrides
  show (parameters.setAll entries).get? name = _
  unfold setAll
  induction entries generalizing parameters with
  | nil => rfl
  | cons first rest inductionHypothesis =>
    obtain ⟨before, ordered⟩ := List.pairwise_cons.mp sorted
    rw [List.foldl_cons, inductionHypothesis (parameters.set first.1 first.2) ordered, get?_set]
    by_cases here : name = first.1
    · have absent : StaticParameters.get? ⟨rest⟩ name = none := by
        unfold get?
        rw [Option.map_eq_none_iff, List.find?_eq_none]
        intro entry member equal
        have same : entry.1 = first.1 := (of_decide_eq_true equal).trans here
        exact lt_irrefl _ (same ▸ before entry member)
      rw [if_pos here, absent]
      simp [get?, here]
    · rw [if_neg here]
      simp [get?, Ne.symm here]

/-! ### Writing in another order -/

theorem insertSorted_twice (name : String) (first second : StaticValue)
    (entries : List (String × StaticValue)) :
    insertSorted name second (insertSorted name first entries) =
      insertSorted name second entries := by
  induction entries with
  | nil => simp [insertSorted]
  | cons entry rest inductionHypothesis =>
    by_cases smaller : entry.1 < name
    · simp only [insertSorted, if_pos smaller, inductionHypothesis]
    · by_cases same : entry.1 = name
      · simp [insertSorted, same]
      · simp [insertSorted, smaller, same]

theorem insertSorted_comm {lower higher : String} (before : lower < higher)
    (first second : StaticValue) (entries : List (String × StaticValue)) :
    insertSorted higher second (insertSorted lower first entries) =
      insertSorted lower first (insertSorted higher second entries) := by
  induction entries with
  | nil => simp [insertSorted, before, before.not_gt, before.ne']
  | cons entry rest inductionHypothesis =>
    rcases lt_trichotomy entry.1 lower with smaller | same | greater
    · simp only [insertSorted, if_pos smaller, if_pos (smaller.trans before), inductionHypothesis]
    · simp [insertSorted, same, before]
    · have notSmaller : ¬ entry.1 < lower := greater.not_gt
      grind [insertSorted]

/-- The order in which two names are written does not show. -/
theorem set_comm {other : String} (parameters : StaticParameters) (different : name ≠ other)
    (first second : StaticValue) : (parameters.set name first).set other second =
      (parameters.set other second).set name first := by
  unfold set
  rcases lt_or_gt_of_ne different with before | after
  · rw [insertSorted_comm before]
  · rw [insertSorted_comm after]

theorem set_twice (parameters : StaticParameters) (name : String) (first second : StaticValue) :
    (parameters.set name first).set name second = parameters.set name second := by
  unfold set
  rw [insertSorted_twice]

/-- Entries with other names can be written before or after. -/
theorem setAll_set {entries : List (String × StaticValue)}
    (apart : ∀ entry ∈ entries, name ≠ entry.1) (parameters : StaticParameters)
    (value : StaticValue) :
    (parameters.set name value).setAll entries = (parameters.setAll entries).set name value := by
  unfold setAll
  induction entries generalizing parameters with
  | nil => rfl
  | cons first rest inductionHypothesis =>
    rw [List.foldl_cons, List.foldl_cons, set_comm _ (apart first List.mem_cons_self),
      inductionHypothesis fun entry member => apart entry (List.mem_cons_of_mem _ member)]

/-- What is written into a set is written when the set is written. -/
theorem mergedWith_set (parameters : StaticParameters) (sorted : overrides.Sorted) (name : String)
    (value : StaticValue) : parameters.mergedWith (overrides.set name value) =
      (parameters.mergedWith overrides).set name value := by
  obtain ⟨entries⟩ := overrides
  show parameters.setAll (insertSorted name value entries) =
    (parameters.setAll entries).set name value
  induction entries generalizing parameters with
  | nil => rfl
  | cons first rest inductionHypothesis =>
    obtain ⟨before, ordered⟩ := List.pairwise_cons.mp sorted
    unfold insertSorted
    split
    · exact inductionHypothesis _ ordered
    · rename_i notSmaller
      have later {least : String} (least_le : least ≤ first.1) :
          ∀ entry ∈ rest, least ≠ entry.1 := fun entry member same =>
        absurd (before entry member) (not_lt.mpr (same ▸ least_le))
      split
      · rename_i same
        have apart := later (Eq.ge same)
        show (parameters.set name value).setAll rest =
          ((parameters.set first.1 first.2).setAll rest).set name value
        rw [← setAll_set apart, ← same, set_twice]
      · rename_i different
        refine setAll_set (fun entry member => ?_) parameters value
        rcases List.mem_cons.mp member with rfl | old
        · exact Ne.symm different
        · exact later (not_lt.mp notSmaller) entry old

/-- Two sets can be merged before they are merged into another. -/
theorem mergedWith_mergedWith (parameters : StaticParameters) (sorted : overrides.Sorted)
    (top : StaticParameters) : parameters.mergedWith (overrides.mergedWith top) =
      (parameters.mergedWith overrides).mergedWith top := by
  obtain ⟨entries⟩ := top
  show parameters.mergedWith (overrides.setAll entries) =
    (parameters.mergedWith overrides).setAll entries
  unfold setAll
  induction entries generalizing overrides with
  | nil => rfl
  | cons first rest inductionHypothesis =>
    rw [List.foldl_cons, List.foldl_cons, inductionHypothesis (sorted.set first.1 first.2),
      mergedWith_set parameters sorted]

/-! ### Stacks of sets -/

/-- Sets merged into one, the first of them on top. -/
def stacked (stack : List StaticParameters) : StaticParameters :=
  stack.reverse.foldl mergedWith empty

theorem stacked_cons (top : StaticParameters) (rest : List StaticParameters) :
    stacked (top :: rest) = (stacked rest).mergedWith top := by
  unfold stacked
  rw [List.reverse_cons, List.foldl_append]
  rfl

theorem sorted_stacked (stack : List StaticParameters) : (stacked stack).Sorted := by
  induction stack with
  | nil => exact sorted_empty
  | cons top rest inductionHypothesis =>
    rw [stacked_cons]
    exact inductionHypothesis.mergedWith top

/-- The topmost set that has a name decides. -/
theorem get?_stacked {stack : List StaticParameters} (sorted : ∀ set ∈ stack, set.Sorted)
    (name : String) : (stacked stack).get? name = stack.findSome? fun set => set.get? name := by
  induction stack with
  | nil => rfl
  | cons top rest inductionHypothesis =>
    rw [stacked_cons, get?_mergedWith _ (sorted top List.mem_cons_self),
      inductionHypothesis fun set member => sorted set (List.mem_cons_of_mem _ member),
      List.findSome?_cons]
    cases top.get? name <;> rfl

end Shading.StaticParameters
