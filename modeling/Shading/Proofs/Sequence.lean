/-
Sequences of steps that may meet a fault. What is said about a sequence that
ended well, or in a fault, is said here once: how it is taken apart, and how
something that every step keeps is kept by all of them together. And a list from
which repetitions have been taken has none.
-/

import Mathlib.Data.List.Induction

namespace Shading

variable {ε α β : Type}

theorem bind_eq_ok {first : Except ε α} {then_ : α → Except ε β} {result : β} :
    (first >>= then_) = .ok result ↔ ∃ value, first = .ok value ∧ then_ value = .ok result := by
  cases first with
  | error fault => simp [bind, Except.bind]
  | ok value => simp [bind, Except.bind]

theorem map_eq_ok {first : Except ε α} {change : α → β} {result : β} :
    first.map change = .ok result ↔ ∃ value, first = .ok value ∧ change value = result := by
  cases first with
  | error fault => simp [Except.map]
  | ok value => simp [Except.map]

theorem bind_eq_error {first : Except ε α} {then_ : α → Except ε β} {fault : ε} :
    (first >>= then_) = .error fault ↔
      first = .error fault ∨ ∃ value, first = .ok value ∧ then_ value = .error fault := by
  cases first with
  | error fault => simp [bind, Except.bind]
  | ok value => simp [bind, Except.bind]

theorem map_eq_error {first : Except ε α} {change : α → β} {fault : ε} :
    first.map change = .error fault ↔ first = .error fault := by
  cases first with
  | error fault => simp [Except.map]
  | ok value => simp [Except.map]

theorem toOption_eq_some {result : Except ε α} {value : α} :
    result.toOption = some value ↔ result = .ok value := by
  cases result with
  | error fault => simp [Except.toOption]
  | ok value => simp [Except.toOption]

/-- What holds of the state together with the steps that are still to come, and goes over to
the next state and the steps after the first one, holds at the end, when no step is left. -/
theorem foldlM_invariant {step : β → α → Except ε β} {motive : List α → β → Prop}
    (kept : ∀ first rest state next, motive (first :: rest) state →
      step state first = .ok next → motive rest next)
    (subjects : List α) (state final : β) (start : motive subjects state)
    (ran : subjects.foldlM step state = .ok final) : motive [] final := by
  induction subjects generalizing state with
  | nil =>
    rw [List.foldlM_nil] at ran
    cases ran
    exact start
  | cons first rest inductionHypothesis =>
    rw [List.foldlM_cons] at ran
    obtain ⟨next, stepped, ran⟩ := bind_eq_ok.mp ran
    exact inductionHypothesis next (kept first rest state next start stepped) ran

/-- The special case of something that does not speak of the steps to come. -/
theorem foldlM_kept {step : β → α → Except ε β} {motive : β → Prop}
    (kept : ∀ subject state next, motive state → step state subject = .ok next → motive next)
    (subjects : List α) (state final : β) (start : motive state)
    (ran : subjects.foldlM step state = .ok final) : motive final :=
  foldlM_invariant (motive := fun _ => motive)
    (fun first _ state next before stepped => kept first state next before stepped)
    subjects state final start ran

/-- A sequence that meets a fault meets it in one of its steps, which is taken from a state that
has what every step keeps. -/
theorem foldlM_error {step : β → α → Except ε β} {motive : β → Prop} {fault : ε}
    (kept : ∀ subject state next, motive state → step state subject = .ok next → motive next)
    (subjects : List α) (state : β) (start : motive state)
    (ran : subjects.foldlM step state = .error fault) :
    ∃ subject ∈ subjects, ∃ state, motive state ∧ step state subject = .error fault := by
  induction subjects generalizing state with
  | nil =>
    rw [List.foldlM_nil] at ran
    cases ran
  | cons first rest inductionHypothesis =>
    rw [List.foldlM_cons] at ran
    rcases bind_eq_error.mp ran with here | ⟨next, stepped, ran⟩
    · exact ⟨first, List.mem_cons_self, state, start, here⟩
    · obtain ⟨subject, member, later⟩ :=
        inductionHypothesis next (kept first state next start stepped) ran
      exact ⟨subject, List.mem_cons_of_mem _ member, later⟩

/-! ### Without repetition -/

theorem nodup_eraseDups [DecidableEq α] (entries : List α) : entries.eraseDups.Nodup := by
  induction length : entries.length using Nat.strongRecOn generalizing entries with
  | ind length inductionHypothesis =>
    cases entries with
    | nil => exact List.nodup_nil
    | cons first rest =>
      rw [List.eraseDups_cons]
      refine List.nodup_cons.mpr ⟨fun member => ?_, inductionHypothesis _ ?_ _ rfl⟩
      · simpa using (List.mem_filter.mp (List.mem_eraseDups.mp member)).2
      · rw [← length, List.length_cons]
        exact Nat.lt_succ_of_le (List.length_filter_le _ _)

end Shading
