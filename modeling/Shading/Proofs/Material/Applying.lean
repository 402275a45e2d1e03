/-
Applying results. A result that is owed to a resource is applied once: the
resource has the map then, or no map and the messages of the failure, and it
awaits nothing any more. What is owed to others is not touched. So when all that
has been handed out has been applied, nothing is owed.
-/

import Shading.Proofs.Material.Agreeing

namespace Shading

/-- What a resource is like that has taken a result. -/
def Resource.Took (resource : Resource) : Except CompileFailure SharedMap → Prop
  | .ok map => resource.map.map SharedMap.id = some map.id ∧ resource.errors = []
  | .error failure => resource.map = none ∧ resource.errors = failure.messages

namespace System

open FinishedCompile (Serve)

variable {system next start : System} {id other : ResourceId} {job : JobId}
  {resource : Resource} {result : Except CompileFailure SharedMap}

/-! ### One result -/

theorem resources_publish (system : System) (id : ResourceId) :
    (system.publish id).resources = system.resources := by
  unfold publish
  split <;> rfl

/-- Giving a map to one resource is nothing to another. -/
theorem get?_setMap_other (different : other ≠ id) (map : Option SharedMap) :
    (system.setMap id map).resources.get? other = system.resources.get? other := by
  unfold setMap
  split
  · rfl
  · split
    · rfl
    · rw [resources_publish]
      exact (Table.get?_modify ..).trans (if_neg different)

theorem get?_setMap_of_found (found : system.resources.get? id = some resource)
    (map : Option SharedMap) : ∃ after, (system.setMap id map).resources.get? id = some after ∧
      after.map.map SharedMap.id = map.map SharedMap.id ∧ after.errors = resource.errors := by
  unfold setMap
  rw [found]
  dsimp only
  split
  · rename_i same
    exact ⟨resource, found, same, rfl⟩
  · rw [resources_publish]
    refine ⟨{ resource with map }, ?_, rfl, rfl⟩
    exact (Table.get?_modify ..).trans ((if_pos rfl).trans (congrArg (Option.map _) found))

theorem get?_onResource_of_found (found : system.resources.get? id = some resource)
    (change : Resource → Resource) :
    (system.onResource id change).resources.get? id = some (change resource) :=
  (Table.get?_modify ..).trans ((if_pos rfl).trans (congrArg (Option.map change) found))

theorem get?_onResource_other (different : other ≠ id) (change : Resource → Resource) :
    (system.onResource id change).resources.get? other = system.resources.get? other :=
  (Table.get?_modify ..).trans (if_neg different)

/-- A resource takes a result, and no other does. -/
theorem conclude_took {asked : Resource} (found : system.resources.get? id = some resource)
    (ran : system.conclude id asked result = .ok next) :
    (∃ after, next.resources.get? id = some after ∧ after.Took result) ∧
      ∀ other, other ≠ id → next.resources.get? other = system.resources.get? other := by
  have told (errors : List String) (map : Option SharedMap) : (∃ after,
      ((system.setErrors id errors).setMap id map).resources.get? id = some after ∧
        after.map.map SharedMap.id = map.map SharedMap.id ∧ after.errors = errors) ∧
      ∀ other, other ≠ id →
        ((system.setErrors id errors).setMap id map).resources.get? other =
          system.resources.get? other := by
    have there := get?_onResource_of_found found fun resource => { resource with errors }
    exact ⟨get?_setMap_of_found there map, fun other different =>
      (get?_setMap_other different map).trans (get?_onResource_other different _)⟩
  cases result with
  | ok shared =>
    cases ran
    exact told [] (some shared)
  | error failure =>
    obtain ⟨_, rfl⟩ := fail_eq_ok.mp ran
    obtain ⟨⟨after, there, none, errors⟩, others⟩ := told failure.messages none
    exact ⟨⟨after, there, Option.map_eq_none_iff.mp none, errors⟩, others⟩

/-- Taking a result is nothing to the workshop. -/
theorem aside_complete {applied : Bool} (ran : system.complete id job result = .ok (applied, next)) :
    system.workshop.Aside next.workshop := by
  rcases complete_cases ran with ⟨_, _, rfl⟩ | ⟨_, _, _, _, concluded⟩
  · exact .refl _
  · exact (Aloof.conclude concluded).workshop

namespace Agrees

variable {owed : JobId → ResourceId → Prop}

theorem known (agrees : Agrees owed system) (waits : job ∈ system.jobsOf id) :
    ∃ resource, system.resources.get? id = some resource ∧ resource.jobs = [job] := by
  cases found : system.resources.get? id with
  | none =>
    unfold jobsOf at waits
    rw [found] at waits
    cases waits
  | some resource =>
    have single := agrees.single id
    rw [jobsOf_eq found] at waits single
    refine ⟨resource, rfl, ?_⟩
    obtain ⟨only, alone⟩ := List.length_eq_one_iff.mp
      (Nat.le_antisymm single (List.length_pos_of_mem waits))
    rw [alone] at waits ⊢
    rw [List.mem_singleton.mp waits]

/-- A result that is owed is taken, and nothing is owed to the resource any more. -/
theorem complete {applied : Bool} (agrees : Agrees owed system) (owes : owed job id)
    (ran : system.complete id job result = .ok (applied, next)) :
    Agrees (fun job other => owed job other ∧ other ≠ id) next ∧ next.jobsOf id = [] ∧
      (∃ after, next.resources.get? id = some after ∧ after.Took result) ∧
      ∀ other, other ≠ id → next.resources.get? other = system.resources.get? other := by
  obtain ⟨resource, found, jobs⟩ := agrees.known (agrees.awaited job id owes)
  obtain ⟨asked, concluded⟩ : ∃ asked, System.conclude _ id asked result = .ok next := by
    rcases complete_cases ran with ⟨aloof, _⟩ | ⟨asked, _, _, _, concluded⟩
    · exact absurd (jobs ▸ List.mem_singleton_self job) (aloof resource found)
    · exact ⟨asked, concluded⟩
  let forgot := system.onResource id fun resource => { resource with jobs := resource.jobs.erase job }
  obtain ⟨took, others⟩ := conclude_took (get?_onResource_of_found found _) concluded
  have aloof : Aloof forgot next := .conclude concluded
  have still (other : ResourceId) (different : other ≠ id) :
      next.resources.get? other = system.resources.get? other :=
    (others other different).trans (get?_onResource_other different _)
  have idle : next.jobsOf id = [] := by
    rw [aloof.jobs, jobsOf_eq (get?_onResource_of_found found _), jobs, List.erase_cons_head]
  have elsewhere (other : ResourceId) (different : other ≠ id) :
      next.jobsOf other = system.jobsOf other := by
    unfold jobsOf
    rw [still other different]
  refine ⟨⟨?_, fun job other owes => ?_, fun other => ?_, fun other there => ?_⟩, idle, took, still⟩
  · refine (agrees.engages.aside aloof.workshop).congr fun its other => ?_
    by_cases here : other = id
    · subst here
      rw [idle, jobsOf_eq found, jobs, List.mem_singleton]
      refine iff_of_false (fun both => both.2 (both.1 ▸ owes)) fun both => ?_
      exact List.not_mem_nil both.1
    · rw [elsewhere other here]
      exact and_congr_right fun _ => not_congr (and_iff_left here).symm
  · rw [elsewhere other owes.2]
    exact agrees.awaited job other owes.1
  · by_cases here : other = id
    · rw [here, idle]
      exact Nat.zero_le 1
    · rw [elsewhere other here]
      exact agrees.single other
  · rw [aloof.nextResource]
    exact agrees.numbered other (known_onResource system id other (aloof.known other there))

theorem congr {others : JobId → ResourceId → Prop} (agrees : Agrees owed system)
    (same : ∀ job id, owed job id ↔ others job id) : Agrees others system :=
  (funext fun job => funext fun id => propext (same job id) : owed = others) ▸ agrees

/-- What a workshop hands out is owed. -/
theorem processResults (agrees : Agrees settled system) :
    Agrees (Serve system.processResults.1) system.processResults.2 ∧
      (system.processResults.1.map FinishedCompile.job).Nodup ∧
      ∀ finished ∈ system.processResults.1, finished.resources.Nodup := by
  obtain ⟨engages, served, distinct, single⟩ := agrees.engages_settled.process system.heldMaps
  exact ⟨⟨engages, served, agrees.single, agrees.numbered⟩, distinct, single⟩

/-- What has been waited for has landed. -/
theorem finishAll (agrees : Agrees settled system) : Agrees settled
    { system with workshop := system.workshop.finishAll system.heldMaps } :=
  agrees.onWorkshop (agrees.engages_settled.finishAll system.heldMaps)

/-! ### All results -/

/-- Whoever waited at the start still waits for the same, or has taken the result that has been
handed out for it, and waits for nothing. -/
def Advances (handed : List FinishedCompile) (start system : System) : Prop :=
  ∀ job id, job ∈ start.jobsOf id → job ∈ system.jobsOf id ∨ system.jobsOf id = [] ∧
    ∃ finished ∈ handed, finished.job = job ∧ id ∈ finished.resources ∧
      ∃ resource, system.resources.get? id = some resource ∧ resource.Took finished.result

/-- One finished compile is applied to all its resources. -/
theorem completes {handed later : List FinishedCompile} {finished : FinishedCompile}
    {count total : Nat} (agrees : Agrees (Serve (finished :: later)) system)
    (advances : Advances handed start system) (member : finished ∈ handed)
    (single : finished.resources.Nodup) (distinct : finished.job ∉ later.map FinishedCompile.job)
    (ran : finished.resources.foldlM (fun (count, system) id => do
      let (applied, system) ← System.complete system id finished.job finished.result
      .ok (count + applied.toNat, system)) (count, system) = .ok (total, next)) :
    Agrees (Serve later) next ∧ Advances handed start next := by
  have folded := foldlM_invariant (motive := fun (left : List ResourceId) (state : Nat × System) =>
      left.Nodup ∧ left ⊆ finished.resources ∧ Advances handed start state.2 ∧
        Agrees (fun job id => (job = finished.job ∧ id ∈ left) ∨ Serve later job id) state.2)
    (fun first rest state after ⟨nodup, among, advances, agrees⟩ stepped => by
      obtain ⟨⟨applied, system⟩, completed, same⟩ := bind_eq_ok.mp stepped
      cases same
      obtain ⟨fresh, nodup⟩ := List.nodup_cons.mp nodup
      have owes : finished.job = finished.job ∧ first ∈ first :: rest :=
        ⟨rfl, List.mem_cons_self⟩
      obtain ⟨awaits, idle, took, others⟩ := agrees.complete (.inl owes) completed
      obtain ⟨resource, found, jobs⟩ := agrees.known (agrees.awaited _ first (.inl owes))
      refine ⟨nodup, fun id there => among (List.mem_cons_of_mem _ there), fun job id waits => ?_,
        awaits.congr fun job id => ⟨?_, ?_⟩⟩
      · by_cases here : id = first
        · subst here
          refine .inr ⟨idle, finished, member, ?_, among List.mem_cons_self, took⟩
          rcases advances job id waits with still | ⟨none, _⟩
          · rw [jobsOf_eq found, jobs, List.mem_singleton] at still
            exact still.symm
          · rw [jobsOf_eq found, jobs] at none
            cases none
        · have same : system.jobsOf id = state.2.jobsOf id := by
            unfold jobsOf
            rw [others id here]
          rw [same, others id here]
          exact advances job id waits
      · rintro ⟨⟨same, there⟩ | served, different⟩
        · exact .inl ⟨same, (List.mem_cons.mp there).resolve_left different⟩
        · exact .inr served
      · rintro (⟨same, there⟩ | served)
        · exact ⟨.inl ⟨same, List.mem_cons_of_mem _ there⟩, fun here => fresh (here ▸ there)⟩
        · refine ⟨.inr served, fun here => distinct ?_⟩
          -- Whoever this result is owed to is owed no other.
          have waits := agrees.awaited job first (.inr (here ▸ served))
          rw [jobsOf_eq found, jobs, List.mem_singleton] at waits
          obtain ⟨compile, there, same, _⟩ := served
          exact List.mem_map.mpr ⟨compile, there, same.trans waits⟩)
    _ _ _ ⟨single, List.Subset.refl _, advances, agrees.congr fun job id => by
      unfold Serve
      simp [eq_comm]⟩ ran
  obtain ⟨_, _, after, agrees⟩ := folded
  exact ⟨agrees.congr fun job id => or_iff_right fun both => (nomatch both.2), after⟩

end Agrees

end System

end Shading
