/-
What can be reached. Starting from some things and going from each thing to the
next ones, everything met is listed once, in the order in which it is met: the
starts first, then what lies one step away, and so on.
-/

namespace Shading

variable {α : Type} [DecidableEq α]

/-- Visits what is pending, each thing once, for a number of steps. -/
def visit (next : α → List α) : Nat → List α → List α → List α
  | 0, _, visited | _, [], visited => visited
  | steps + 1, first :: pending, visited =>
    if first ∈ visited then visit next steps pending visited
    else visit next steps (pending ++ next first) (visited ++ [first])

/-- Everything reached. There are as many steps as there are starts and edges,
and no more are ever needed. -/
def reachable (next : α → List α) (edges : Nat) (starts : List α) : List α :=
  visit next (starts.length + edges) starts []

/-! ### Nothing is missed -/

/-- There are enough steps for what is pending and for the edges not yet followed. -/
theorem visit_closed {next : α → List α} {edges : Nat}
    (bound : ∀ met : List α, met.Nodup → (met.flatMap next).length ≤ edges)
    (steps : Nat) (pending visited : List α) (distinct : visited.Nodup)
    (enough : pending.length + edges ≤ steps + (visited.flatMap next).length)
    (known : ∀ thing ∈ visited, ∀ other ∈ next thing, other ∈ visited ∨ other ∈ pending) :
    (∀ thing, thing ∈ visited ∨ thing ∈ pending → thing ∈ visit next steps pending visited) ∧
      ∀ thing ∈ visit next steps pending visited, ∀ other ∈ next thing,
        other ∈ visit next steps pending visited := by
  fun_induction visit next steps pending visited with
  | case1 pending visited =>
    have followed := bound visited distinct
    have none : pending = [] := List.eq_nil_of_length_eq_zero (by omega)
    subst none
    exact ⟨fun thing met => by simpa using met, fun thing met other edge => by
      simpa using known thing met other edge⟩
  | case2 steps visited =>
    exact ⟨fun thing met => by simpa using met, fun thing met other edge => by
      simpa using known thing met other edge⟩
  | case3 visited steps first pending seen inductionHypothesis =>
    have rest := inductionHypothesis distinct
      (by simp only [List.length_cons] at enough; omega) (fun thing met other edge => by
        rcases known thing met other edge with before | later
        · exact Or.inl before
        · rcases List.mem_cons.mp later with rfl | later
          · exact Or.inl seen
          · exact Or.inr later)
    refine ⟨fun thing met => rest.1 thing ?_, rest.2⟩
    rcases met with before | later
    · exact Or.inl before
    · rcases List.mem_cons.mp later with rfl | later
      · exact Or.inl seen
      · exact Or.inr later
  | case4 visited steps first pending unseen inductionHypothesis =>
    have rest := inductionHypothesis
      (by
        rw [List.nodup_append]
        refine ⟨distinct, by simp, fun thing met other single => ?_⟩
        rintro rfl
        exact unseen (List.mem_singleton.mp single ▸ met))
      (by
        simp only [List.length_cons] at enough
        simp only [List.length_append, List.flatMap_append, List.flatMap_cons, List.flatMap_nil,
          List.append_nil]
        omega)
      (fun thing met other edge => by
        rcases List.mem_append.mp met with met | met
        · rcases known thing met other edge with before | later
          · exact Or.inl (List.mem_append_left _ before)
          · rcases List.mem_cons.mp later with rfl | later
            · exact Or.inl (by simp)
            · exact Or.inr (List.mem_append_left _ later)
        · rw [List.mem_singleton.mp met] at edge
          exact Or.inr (List.mem_append_right _ edge))
    refine ⟨fun thing met => rest.1 thing ?_, rest.2⟩
    rcases met with before | later
    · exact Or.inl (List.mem_append_left _ before)
    · rcases List.mem_cons.mp later with rfl | later
      · exact Or.inl (by simp)
      · exact Or.inr (List.mem_append_left _ later)

theorem reachable_closed {next : α → List α} {edges : Nat}
    (bound : ∀ met : List α, met.Nodup → (met.flatMap next).length ≤ edges) (starts : List α) :
    (∀ start ∈ starts, start ∈ reachable next edges starts) ∧
      ∀ thing ∈ reachable next edges starts, ∀ other ∈ next thing,
        other ∈ reachable next edges starts := by
  have closed := visit_closed bound (starts.length + edges) starts [] List.nodup_nil (by simp)
    (by simp)
  exact ⟨fun start member => closed.1 start (Or.inr member), closed.2⟩

end Shading
