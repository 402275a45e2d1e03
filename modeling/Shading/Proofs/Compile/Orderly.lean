/-
Compiles in good order. A compile in flight is entered under its identity, and
once its material has been lowered, every permutation that is needed is still to
come or has come, with a binary or with an error. A finished compile is no
longer in flight, and its map has the identity it was made for.
-/

import Mathlib.Data.List.Basic
import Shading.Compile.Workshop
import Shading.Proofs.Map.Genuine

namespace Shading

/-! ### Binaries -/

theorem MapContent.mem_insertBinary {permutation other : Permutation} {binary : Binary}
    {binaries : List (Permutation × Binary)} :
    other ∈ (insertBinary permutation binary binaries).map Prod.fst ↔
      other = permutation ∨ other ∈ binaries.map Prod.fst := by
  induction binaries with
  | nil => exact Iff.rfl.trans (List.mem_cons (l := []))
  | cons entry rest inductionHypothesis =>
    unfold insertBinary
    split
    · rw [List.map_cons, List.mem_cons, inductionHypothesis, List.map_cons, List.mem_cons]
      exact or_left_comm
    · split
      · rename_i same
        rw [List.map_cons, List.map_cons, List.mem_cons, List.mem_cons, same, ← or_assoc, or_self]
      · rw [List.map_cons, List.mem_cons]

/-- Compiled, with a binary for whatever is needed. -/
def ShaderMap.Meets (map : ShaderMap) (needs : Permutation → Prop) : Prop :=
  map.isCompiled ∧ ∀ permutation, needs permutation → (map.binary? permutation).isSome

theorem MapContent.isSome_binary? {content : MapContent} {permutation : Permutation} :
    (content.binary? permutation).isSome ↔ permutation ∈ content.binaries.map Prod.fst := by
  unfold binary?
  rw [Option.isSome_map, List.find?_isSome, List.mem_map]
  refine exists_congr fun entry => and_congr_right fun _ => ?_
  exact decide_eq_true_iff

namespace InFlight

variable {entry : InFlight} {needs : Permutation → Prop}

/-- Whatever is needed is still to come or has come. -/
def Covers (entry : InFlight) (needs : Permutation → Prop) : Prop :=
  ∀ permutation, needs permutation → permutation ∈ entry.remaining ∨
    permutation ∈ entry.binaries.map Prod.fst ∨ entry.errors ≠ []

theorem Covers.record (covers : entry.Covers needs) (result : PermutationResult) :
    (Workshop.record entry result).Covers needs := by
  intro permutation needed
  unfold Workshop.record
  rcases covers permutation needed with coming | come | failed
  · by_cases here : permutation = result.permutation
    · cases result.outcome with
      | ok binary => exact .inr (.inl (MapContent.mem_insertBinary.mpr (.inl here)))
      | error error =>
        exact .inr (.inr (List.append_ne_nil_of_right_ne_nil _ (List.cons_ne_nil _ _)))
    · have left : permutation ∈ entry.remaining.filter (· ≠ result.permutation) :=
        List.mem_filter.mpr ⟨coming, decide_eq_true here⟩
      cases result.outcome with
      | ok binary => exact .inl left
      | error error => exact .inl left
  · cases result.outcome with
    | ok binary => exact .inr (.inl (MapContent.mem_insertBinary.mpr (.inr come)))
    | error error => exact .inr (.inl come)
  · cases result.outcome with
    | ok binary => exact .inr (.inr failed)
    | error error => exact .inr (.inr (List.append_ne_nil_of_left_ne_nil failed _))

theorem record_identity (entry : InFlight) (result : PermutationResult) :
    (Workshop.record entry result).identity = entry.identity := by
  unfold Workshop.record
  cases result.outcome <;> rfl

theorem record_lowering (entry : InFlight) (result : PermutationResult) :
    (Workshop.record entry result).lowering = entry.lowering := by
  unfold Workshop.record
  cases result.outcome <;> rfl

/-- A map made without errors, when nothing is to come any more. -/
theorem Covers.meets (covers : entry.Covers needs) (arrived : entry.remaining = [])
    (clean : entry.errors = []) (name : String) (profile : Profile) :
    ShaderMap.Meets
      { identity := entry.identity, name, content := some ⟨entry.binaries, profile⟩ } needs := by
  refine ⟨rfl, fun permutation needed => MapContent.isSome_binary?.mpr ?_⟩
  rcases covers permutation needed with coming | come | failed
  · rw [arrived] at coming
    cases coming
  · exact come
  · exact absurd clean failed

end InFlight

namespace Manager

variable {needs : MapIdentity → Permutation → Prop} {manager later : Manager} {job : JobId}
  {entry : InFlight}

/-- The maps of finished compiles. -/
def maps (manager : Manager) : List SharedMap :=
  manager.finished.filterMap FinishedCompile.map? ++ manager.unwritten

/-- What holds of all compiles, whether in flight or finished. -/
structure Orderly (needs : MapIdentity → Permutation → Prop) (manager : Manager) : Prop where
  tracked : ∀ identity job, manager.byIdentity.get? identity = some job →
    ∃ entry, manager.jobs.get? job = some entry ∧ entry.identity = identity
  begun : ∀ job entry, manager.jobs.get? job = some entry →
    job.number < manager.nextJob.number ∧
      (entry.lowering = false → entry.Covers (needs entry.identity))
  finished : ∀ compile ∈ manager.finished, compile.job.number < manager.nextJob.number ∧
    manager.jobs.get? compile.job = none ∧ ∀ shared, compile.map? = some shared →
      shared.map.identity = compile.identity ∧ shared.map.isCompiled

/-- At most results have been taken or maps written: nothing more is finished, and nothing more
is to be written. -/
structure Trimmed (manager later : Manager) : Prop where
  finished : ∀ part ∈ later.finished, ∃ whole ∈ manager.finished, ∃ resources,
    part = { whole with resources }
  unwritten : later.unwritten ⊆ manager.unwritten

namespace Trimmed

theorem of_finished (finished : later.finished = manager.finished)
    (unwritten : later.unwritten ⊆ manager.unwritten) : Trimmed manager later :=
  ⟨fun part member => ⟨part, finished ▸ member, part.resources, rfl⟩, unwritten⟩

theorem refl (manager : Manager) : Trimmed manager manager :=
  .of_finished rfl (List.Subset.refl _)

theorem trans {last : Manager} (first : Trimmed manager later) (second : Trimmed later last) :
    Trimmed manager last := by
  refine ⟨fun part member => ?_, List.Subset.trans second.unwritten first.unwritten⟩
  obtain ⟨middle, there, resources, rfl⟩ := second.finished part member
  obtain ⟨whole, before, others, rfl⟩ := first.finished middle there
  exact ⟨whole, before, resources, rfl⟩

theorem maps (trimmed : Trimmed manager later) {shared : SharedMap} (member : shared ∈ later.maps) :
    shared ∈ manager.maps := by
  rcases List.mem_append.mp member with finished | unwritten
  · obtain ⟨part, there, made⟩ := List.mem_filterMap.mp finished
    obtain ⟨whole, before, resources, rfl⟩ := trimmed.finished part there
    exact List.mem_append_left _ (List.mem_filterMap.mpr ⟨whole, before, made⟩)
  · exact List.mem_append_right _ (trimmed.unwritten unwritten)

end Trimmed

namespace Orderly

/-! ### Compiles in flight -/

theorem start (orderly : manager.Orderly needs) (request : CompileRequest) :
    (manager.start request).2.Orderly needs := by
  have new {job : JobId} (older : job.number < manager.nextJob.number) :
      job ≠ manager.nextJob := fun same => absurd older (same ▸ Nat.lt_irrefl _)
  refine ⟨fun identity job found => ?_, fun job entry found => ?_, fun compile member => ?_⟩
  · change (Table.insert manager.byIdentity request.identity manager.nextJob).get? identity = _
      at found
    show ∃ entry, (Table.insert manager.jobs manager.nextJob _).get? job = _ ∧ _
    rw [Table.get?_insert] at found ⊢
    split at found
    · rename_i same
      cases found
      exact ⟨_, if_pos rfl, same.symm⟩
    · obtain ⟨entry, there, same⟩ := orderly.tracked identity job found
      exact ⟨entry, (if_neg (new (orderly.begun job entry there).1)).trans there, same⟩
  · change (Table.insert manager.jobs manager.nextJob _).get? job = _ at found
    rw [Table.get?_insert] at found
    split at found
    · rename_i same
      cases found
      exact ⟨same ▸ Nat.lt_succ_self _, fun lowered => Bool.noConfusion lowered⟩
    · obtain ⟨older, covers⟩ := orderly.begun job entry found
      exact ⟨Nat.lt_succ_of_lt older, covers⟩
  · obtain ⟨older, gone, made⟩ := orderly.finished compile member
    refine ⟨Nat.lt_succ_of_lt older, ?_, made⟩
    show (Table.insert manager.jobs manager.nextJob _).get? compile.job = _
    rw [Table.get?_insert, if_neg (new older)]
    exact gone

/-- The entry of a compile in flight is written anew. -/
theorem revise {revised : InFlight} (orderly : manager.Orderly needs)
    (found : manager.jobs.get? job = some entry) (same : revised.identity = entry.identity)
    (covers : revised.lowering = false → revised.Covers (needs entry.identity)) :
    Orderly needs { manager with jobs := manager.jobs.insert job revised } := by
  refine ⟨fun identity other tracked => ?_, fun other some there => ?_, fun compile member => ?_⟩
  · obtain ⟨old, there, belongs⟩ := orderly.tracked identity other tracked
    show ∃ entry, (manager.jobs.insert job revised).get? other = _ ∧ _
    rw [Table.get?_insert]
    by_cases here : other = job
    · rw [here, found] at there
      cases there
      exact ⟨revised, if_pos here, same.trans belongs⟩
    · exact ⟨old, (if_neg here).trans there, belongs⟩
  · change (manager.jobs.insert job revised).get? other = _ at there
    rw [Table.get?_insert] at there
    split at there
    · rename_i here
      cases there
      exact ⟨here ▸ (orderly.begun job entry found).1, fun lowered => same ▸ covers lowered⟩
    · exact orderly.begun other some there
  · obtain ⟨older, gone, made⟩ := orderly.finished compile member
    refine ⟨older, ?_, made⟩
    show (manager.jobs.insert job revised).get? compile.job = _
    have different : compile.job ≠ job := fun here => by
      rw [here, found] at gone
      cases gone
    rw [Table.get?_insert, if_neg different]
    exact gone

theorem remove {removed : InFlight} (orderly : manager.Orderly needs)
    (found : manager.jobs.get? job = some entry) (same : removed.identity = entry.identity) :
    (manager.remove job removed).Orderly needs := by
  refine ⟨fun identity other tracked => ?_, fun other some there => ?_, fun compile member => ?_⟩
  · change (manager.byIdentity.erase removed.identity).get? identity = _ at tracked
    show ∃ entry, (manager.jobs.erase job).get? other = _ ∧ _
    rw [Table.get?_erase] at tracked ⊢
    split at tracked
    · cases tracked
    · rename_i different
      obtain ⟨old, there, belongs⟩ := orderly.tracked identity other tracked
      have elsewhere : other ≠ job := fun here => by
        rw [here, found] at there
        cases there
        exact different (belongs.symm.trans same.symm)
      exact ⟨old, (if_neg elsewhere).trans there, belongs⟩
  · change (manager.jobs.erase job).get? other = _ at there
    rw [Table.get?_erase] at there
    split at there
    · cases there
    · exact orderly.begun other some there
  · obtain ⟨older, gone, made⟩ := orderly.finished compile member
    refine ⟨older, ?_, made⟩
    show (manager.jobs.erase job).get? compile.job = _
    rw [Table.get?_erase, gone, ite_self]

theorem join (orderly : manager.Orderly needs) (job : JobId) (resource : ResourceId) :
    (manager.join job resource).Orderly needs := by
  unfold Manager.join Table.modify
  split
  · rename_i entry found
    exact orderly.revise found rfl (orderly.begun job entry found).2
  · exact orderly

theorem leave (orderly : manager.Orderly needs) (resource : ResourceId) (job : JobId) :
    (Manager.leave resource manager job).Orderly needs := by
  unfold Manager.leave
  split
  · exact orderly
  · rename_i entry found
    dsimp only
    split
    · exact orderly.remove found rfl
    · exact orderly.revise found rfl (orderly.begun job entry found).2

/-! ### Finished compiles -/

/-- Results are taken, and nothing else of what is in flight changes. -/
theorem trim (orderly : manager.Orderly needs) (trimmed : Trimmed manager later)
    (jobs : later.jobs = manager.jobs) (byIdentity : later.byIdentity = manager.byIdentity)
    (nextJob : later.nextJob = manager.nextJob) : later.Orderly needs := by
  refine ⟨?_, ?_, fun part member => ?_⟩
  · rw [byIdentity, jobs]
    exact orderly.tracked
  · rw [jobs, nextJob]
    exact orderly.begun
  · obtain ⟨whole, before, resources, rfl⟩ := trimmed.finished part member
    rw [jobs, nextJob]
    exact orderly.finished whole before

end Orderly

/-! ### Trimming -/

theorem trimmed_leave (manager : Manager) (resource : ResourceId) (job : JobId) :
    Trimmed manager (leave resource manager job) := by
  unfold leave
  split
  · exact .refl manager
  · dsimp only
    split <;> exact .of_finished rfl (List.Subset.refl _)

/-- Withdrawing from jobs takes from what is finished only what nobody waits for any more. -/
theorem trimmed_cancel (manager : Manager) (resource : ResourceId) (jobs : List JobId) :
    Trimmed (jobs.foldl (leave resource) manager) (manager.cancel resource jobs) := by
  refine ⟨fun part member => ?_, List.Subset.refl _⟩
  obtain ⟨whole, there, rfl⟩ := List.mem_map.mp (List.mem_filter.mp member).1
  split
  · exact ⟨whole, there, _, rfl⟩
  · exact ⟨whole, there, whole.resources, rfl⟩

/-- A resource withdraws from jobs. -/
theorem cancelled (orderly : manager.Orderly needs) (resource : ResourceId) (jobs : List JobId) :
    (manager.cancel resource jobs).Orderly needs ∧
      Trimmed manager (manager.cancel resource jobs) := by
  have left : (jobs.foldl (leave resource) manager).Orderly needs ∧
      Trimmed manager (jobs.foldl (leave resource) manager) := by
    induction jobs generalizing manager with
    | nil => exact ⟨orderly, .refl manager⟩
    | cons job rest inductionHypothesis =>
      obtain ⟨after, trimmed⟩ := inductionHypothesis (orderly.leave resource job)
      exact ⟨after, (trimmed_leave manager resource job).trans trimmed⟩
  have cut := manager.trimmed_cancel resource jobs
  exact ⟨left.1.trim cut rfl rfl rfl, left.2.trans cut⟩

/-- Whatever is taken comes from a finished compile of the job. -/
theorem taken (orderly : manager.Orderly needs) (job : JobId) (resource : ResourceId) :
    (manager.take job resource).2.Orderly needs ∧ Trimmed manager (manager.take job resource).2 ∧
      ∀ result, (manager.take job resource).1 = some result →
        ∃ compile ∈ manager.finished, compile.job = job ∧ compile.result = result := by
  have nothing : manager.Orderly needs ∧ Trimmed manager manager ∧
      ∀ result, none = some result →
        ∃ compile ∈ manager.finished, compile.job = job ∧ compile.result = result :=
    ⟨orderly, .refl manager, fun _ none => nomatch none⟩
  unfold take
  split
  · exact nothing
  · rename_i position first
    obtain ⟨inside, chosen, _⟩ := List.findIdx?_eq_some_iff_getElem.mp first
    rw [List.getElem?_eq_getElem inside]
    have member := List.getElem_mem inside
    generalize manager.finished[position] = compile at chosen member
    dsimp only
    split
    · have trimmed : Trimmed manager { manager with
          finished :=
            if compile.resources.erase resource = [] then manager.finished.eraseIdx position
            else manager.finished.set position
              { compile with resources := compile.resources.erase resource } } := by
        refine ⟨fun part left => ?_, List.Subset.refl _⟩
        dsimp only at left
        split at left
        · exact ⟨part, List.mem_of_mem_eraseIdx left, part.resources, rfl⟩
        · rcases List.mem_or_eq_of_mem_set left with before | rfl
          · exact ⟨part, before, part.resources, rfl⟩
          · exact ⟨compile, member, _, rfl⟩
      exact ⟨orderly.trim trimmed rfl rfl rfl, trimmed, fun result same =>
        ⟨compile, member, of_decide_eq_true chosen, Option.some.inj same⟩⟩
    · exact nothing

theorem trimmed_deliver (manager : Manager) : Trimmed manager manager.deliver.2 := by
  refine ⟨fun part member => ?_, List.Subset.refl _⟩
  obtain ⟨divided, there, rest⟩ := List.mem_filterMap.mp member
  obtain ⟨whole, before, rfl⟩ := List.mem_map.mp there
  unfold divide at rest
  dsimp only at rest
  split at rest
  · cases rest
  · cases rest
    exact ⟨whole, before, _, rfl⟩

end Manager

end Shading
