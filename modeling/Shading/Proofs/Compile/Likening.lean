/-
Compiling with other numbers for the maps. Two workshops that differ in nothing but
the numbers of their maps, and in what their stores held at first, do the same for
every call: they hand the same jobs to the compiler, file the same results, end
their compiles with the same maps and write the same blobs. Each operation keeps them
so, and what it answers is the same but for the numbers.
-/

import Mathlib.Data.List.InsertIdx
import Shading.Proofs.Compile.Engaging
import Shading.Proofs.Map.Renumbering

namespace Shading

/-! ### Managers -/

def FinishedCompile.renumber (rename : MapId → MapId) (finished : FinishedCompile) :
    FinishedCompile :=
  { finished with result := finished.result.map (SharedMap.renumber rename) }

def CompileOutcome.renumber (rename : MapId → MapId) : CompileOutcome → CompileOutcome
  | .compiled map => .compiled (map.renumber rename)
  | outcome => outcome

namespace Manager

variable {rename : MapId → MapId} {manager : Manager}

/-- The same compiles with other numbers for the maps they have ended with. -/
def renumber (rename : MapId → MapId) (manager : Manager) : Manager :=
  { manager with
    finished := manager.finished.map (FinishedCompile.renumber rename)
    unwritten := manager.unwritten.map (SharedMap.renumber rename) }

/-- Nothing changes if the maps keep their numbers. -/
theorem renumber_eq (fixed : ∀ id ∈ manager.heldMaps, rename id = id) :
    manager.renumber rename = manager := by
  have finished : manager.finished.map (FinishedCompile.renumber rename) = manager.finished := by
    refine (List.map_congr_left fun finished member => ?_).trans (List.map_id _)
    obtain ⟨job, identity, result, resources⟩ := finished
    cases result with
    | error failure => rfl
    | ok shared =>
      have held : shared.id ∈ manager.heldMaps := List.mem_map_of_mem
        (List.mem_append_left _ (List.mem_filterMap.mpr ⟨_, member, rfl⟩))
      exact congrArg (fun shared => FinishedCompile.mk job identity (.ok shared) resources)
        (SharedMap.renumber_eq (fixed _ held))
  have unwritten : manager.unwritten.map (SharedMap.renumber rename) = manager.unwritten :=
    (List.map_congr_left fun shared member => SharedMap.renumber_eq
      (fixed _ (List.mem_map_of_mem (List.mem_append_right _ member)))).trans (List.map_id _)
  unfold renumber
  rw [finished, unwritten]

theorem heldMaps_renumber (rename : MapId → MapId) (manager : Manager) :
    (manager.renumber rename).heldMaps = manager.heldMaps.map rename := by
  have made : (manager.finished.map (FinishedCompile.renumber rename)).filterMap
      FinishedCompile.map? =
      (manager.finished.filterMap FinishedCompile.map?).map (SharedMap.renumber rename) := by
    rw [List.filterMap_map, List.map_filterMap]
    refine List.filterMap_congr fun finished _ => ?_
    show (finished.result.map (SharedMap.renumber rename)).toOption = _
    unfold FinishedCompile.map?
    cases finished.result <;> rfl
  unfold heldMaps renumber
  dsimp only
  rw [made, ← List.map_append, List.map_map, List.map_map]
  rfl

/-- One more compile that has ended. -/
theorem renumber_ended (manager : Manager) (compile : FinishedCompile) :
    renumber rename { manager with finished := manager.finished ++ [compile] } =
      { manager.renumber rename with
        finished := (manager.renumber rename).finished ++ [compile.renumber rename] } := by
  unfold renumber
  dsimp only
  rw [List.map_append]
  rfl

theorem leave_renumber (resource : ResourceId) (manager : Manager) (job : JobId) :
    leave resource (manager.renumber rename) job =
      (leave resource manager job).renumber rename := by
  unfold leave
  rw [show (manager.renumber rename).jobs = manager.jobs from rfl]
  cases manager.jobs.get? job with
  | none => rfl
  | some entry =>
    dsimp only
    split <;> rfl

theorem cancel_renumber (manager : Manager) (resource : ResourceId) (jobs : List JobId) :
    (manager.renumber rename).cancel resource jobs =
      (manager.cancel resource jobs).renumber rename := by
  unfold cancel
  dsimp only
  rw [List.foldl_hom (renumber rename) fun manager job => leave_renumber resource manager job]
  generalize jobs.foldl (leave resource) manager = left
  have commutes : (fun finished : FinishedCompile => if finished.job ∈ jobs then
      { finished with resources := finished.resources.filter (· ≠ resource) } else finished) ∘
        FinishedCompile.renumber rename = FinishedCompile.renumber rename ∘
          fun finished : FinishedCompile => if finished.job ∈ jobs then
            { finished with resources := finished.resources.filter (· ≠ resource) }
          else finished := by
    funext finished
    show (if finished.job ∈ jobs then _ else _) =
      FinishedCompile.renumber rename (if _ then _ else _)
    split <;> rfl
  unfold renumber
  dsimp only
  rw [List.map_map, commutes, ← List.map_map, List.filter_map]
  rfl

theorem take_renumber (manager : Manager) (job : JobId) (resource : ResourceId) :
    (manager.renumber rename).take job resource =
      ((manager.take job resource).1.map (Except.map (SharedMap.renumber rename)),
        (manager.take job resource).2.renumber rename) := by
  have position : (manager.renumber rename).finished.findIdx? (fun finished => finished.job = job) =
      manager.finished.findIdx? fun finished => finished.job = job := List.findIdx?_map ..
  unfold take
  rw [position]
  cases manager.finished.findIdx? fun finished => finished.job = job with
  | none => rfl
  | some position =>
    dsimp only
    have there : (manager.renumber rename).finished[position]? =
        manager.finished[position]?.map (FinishedCompile.renumber rename) := List.getElem?_map ..
    rw [there]
    cases manager.finished[position]? with
    | none => rfl
    | some finished =>
      dsimp only [Option.map_some]
      show (if resource ∈ finished.resources then _ else _) = _
      split
      · unfold renumber
        dsimp only
        refine Prod.ext rfl (congrArg (fun finished => { manager with
          finished, unwritten := manager.unwritten.map (SharedMap.renumber rename) }) ?_)
        rw [apply_ite (List.map _), List.map_set, ← List.eraseIdx_map]
        rfl
      · rfl

theorem deliver_renumber (manager : Manager) :
    (manager.renumber rename).deliver =
      (manager.deliver.1.map (FinishedCompile.renumber rename),
        manager.deliver.2.renumber rename) := by
  have divides (finished : FinishedCompile) : divide manager.waiters (finished.renumber rename) =
      ((divide manager.waiters finished).1.map (FinishedCompile.renumber rename),
        (divide manager.waiters finished).2.map (FinishedCompile.renumber rename)) := by
    unfold divide
    dsimp only
    rw [apply_ite (Option.map _), apply_ite (Option.map _)]
    rfl
  unfold deliver renumber
  dsimp only
  rw [List.map_map, List.filterMap_map, List.filterMap_map, List.filterMap_map, List.filterMap_map,
    List.map_filterMap, List.map_filterMap]
  refine Prod.ext (List.filterMap_congr fun finished _ => ?_) (congrArg (fun finished =>
    { manager with finished, unwritten := manager.unwritten.map (SharedMap.renumber rename) })
      (List.filterMap_congr fun finished _ => ?_))
  · exact congrArg Prod.fst (divides finished)
  · exact congrArg Prod.snd (divides finished)

theorem abort_renumber (manager : Manager) (job : JobId) (requester : ResourceId)
    (error : LoweringError) : (manager.renumber rename).abort job requester error =
      (manager.abort job requester error).renumber rename := by
  unfold abort
  dsimp only
  rw [show ((manager.renumber rename).removeWaiter job requester).jobs =
    (manager.removeWaiter job requester).jobs from rfl]
  cases (manager.removeWaiter job requester).jobs.get? job with
  | none => rfl
  | some entry =>
    dsimp only
    split
    · rfl
    · rw [renumber_ended]
      rfl

end Manager

/-! ### Workshops -/

namespace Workshop

/-- The maps of one workshop have other numbers in the other one. The same has been written into
their stores since these held what they held at first. -/
structure Renumbered (gap : Option MapId) (stores : MemoryStore × MemoryStore)
    (workshop other : Workshop) : Prop where
  manager : other.manager = workshop.manager.renumber (MapId.skip gap)
  registry : workshop.registry.Renumbered gap other.registry
  compiler : other.compiler = workshop.compiler
  usesStore : other.usesStore = workshop.usesStore
  store : ∃ written, stores.1.Took written workshop.store ∧ stores.2.Took written other.store

variable {gap : Option MapId} {stores : MemoryStore × MemoryStore} {workshop other : Workshop}

namespace Renumbered

theorem onManager (renumbered : Renumbered gap stores workshop other)
    {manager otherManager : Manager} (same : otherManager = manager.renumber (MapId.skip gap)) :
    Renumbered gap stores { workshop with manager } { other with manager := otherManager } :=
  ⟨same, renumbered.registry, renumbered.compiler, renumbered.usesStore, renumbered.store⟩

/-- A change of the compiles that has nothing to do with maps. -/
theorem changeManager (renumbered : Renumbered gap stores workshop other)
    (change : Manager → Manager)
    (commutes : ∀ manager, change (manager.renumber (MapId.skip gap)) =
      (change manager).renumber (MapId.skip gap)) :
    Renumbered gap stores { workshop with manager := change workshop.manager }
      { other with manager := change other.manager } :=
  renumbered.onManager (renumbered.manager ▸ commutes workshop.manager)

/-- One more compile has ended. -/
theorem ended (renumbered : Renumbered gap stores workshop other) (compile : FinishedCompile) :
    Renumbered gap stores
      { workshop with manager :=
        { workshop.manager with finished := workshop.manager.finished ++ [compile] } }
      { other with manager := { other.manager with
        finished := other.manager.finished ++ [compile.renumber (MapId.skip gap)] } } := by
  refine renumbered.onManager ?_
  rw [Manager.renumber_ended, renumbered.manager]

theorem heldMaps (renumbered : Renumbered gap stores workshop other) (held : List MapId) :
    other.heldMaps (held.map (MapId.skip gap)) =
      (workshop.heldMaps held).map (MapId.skip gap) := by
  unfold Workshop.heldMaps
  rw [renumbered.manager, Manager.heldMaps_renumber, List.map_append]

theorem makeMap (renumbered : Renumbered gap stores workshop other) (held : List MapId)
    (entry : InFlight) (profile : Profile) :
    (other.makeMap (held.map (MapId.skip gap)) entry profile).1 =
        (workshop.makeMap held entry profile).1.renumber (MapId.skip gap) ∧
      Renumbered gap stores (workshop.makeMap held entry profile).2
        (other.makeMap (held.map (MapId.skip gap)) entry profile).2 := by
  unfold Workshop.makeMap
  dsimp only
  generalize entry.filled profile = map
  obtain ⟨own, adopted⟩ := renumbered.registry.adopt map
  rw [own, renumbered.heldMaps]
  generalize workshop.registry.adopt map = pair at adopted ⊢
  obtain ⟨shared, registry⟩ := pair
  obtain ⟨canonical, registered⟩ := adopted.register (workshop.heldMaps held) shared
  refine ⟨canonical, ?_, registered, renumbered.compiler, renumbered.usesStore, renumbered.store⟩
  rw [canonical, renumbered.usesStore, renumbered.manager]
  have taken : decide (((registry.register (workshop.heldMaps held) shared).1.renumber
      (MapId.skip gap)).id = (shared.renumber (MapId.skip gap)).id) =
      decide ((registry.register (workshop.heldMaps held) shared).1.id = shared.id) :=
    decide_eq_decide.mpr (MapId.skip_injective gap).eq_iff
  rw [taken]
  unfold Manager.renumber
  dsimp only
  rw [apply_ite (List.map _), List.map_append]
  rfl

theorem finalize (renumbered : Renumbered gap stores workshop other) (held : List MapId)
    (job : JobId) (entry : InFlight) : Renumbered gap stores (workshop.finalize held job entry)
      (other.finalize (held.map (MapId.skip gap)) job entry) := by
  have removed := renumbered.changeManager (fun manager => manager.remove job entry) fun _ => rfl
  have failed := removed.ended
    ⟨job, entry.identity, .error (.compile entry.errors), entry.resources⟩
  unfold Workshop.finalize
  dsimp only
  cases entry.profile with
  | none => exact failed
  | some profile =>
    dsimp only
    split
    · obtain ⟨made, taken⟩ := removed.makeMap held entry profile
      rw [made]
      exact taken.ended ⟨job, entry.identity, .ok _, entry.resources⟩
    · exact failed

theorem receive (renumbered : Renumbered gap stores workshop other) (held : List MapId)
    (result : PermutationResult) : Renumbered gap stores (Workshop.receive held workshop result)
      (Workshop.receive (held.map (MapId.skip gap)) other result) := by
  unfold Workshop.receive
  rw [show other.manager.jobs = workshop.manager.jobs by rw [renumbered.manager]; rfl]
  cases workshop.manager.jobs.get? result.group with
  | none => exact renumbered
  | some entry =>
    have filed := renumbered.changeManager (fun manager => { manager with
      jobs := workshop.manager.jobs.insert result.group (record entry result) }) fun _ => rfl
    dsimp only
    split
    · exact filed.finalize held result.group _
    · exact filed

theorem drain (renumbered : Renumbered gap stores workshop other) (held : List MapId) :
    Renumbered gap stores (workshop.drain held) (other.drain (held.map (MapId.skip gap))) := by
  have emptied :=
    renumbered.changeManager (fun manager => { manager with inbox := [] }) fun _ => rfl
  unfold Workshop.drain
  dsimp only
  rw [show other.manager.inbox = workshop.manager.inbox by rw [renumbered.manager]; rfl]
  exact List.foldl_rel emptied fun result _ _ _ before => before.receive held result

/-- What is written into both stores is the same. -/
theorem flush (renumbered : Renumbered gap stores workshop other) :
    Renumbered gap stores workshop.flush other.flush := by
  have wrote : ∃ written,
      stores.1.Took written (workshop.manager.unwritten.foldl write workshop.store) ∧
        stores.2.Took written (other.manager.unwritten.foldl write other.store) := by
    rw [renumbered.manager]
    show ∃ written, _ ∧ stores.2.Took written ((workshop.manager.unwritten.map
      (SharedMap.renumber (MapId.skip gap))).foldl write other.store)
    rw [List.foldl_map]
    refine List.foldl_rel (r := fun one two => ∃ written, stores.1.Took written one ∧
      stores.2.Took written two) renumbered.store fun shared _ one two before => ?_
    obtain ⟨written, left, right⟩ := before
    unfold write
    rw [show (shared.renumber (MapId.skip gap)).map = shared.map from rfl]
    cases shared.map.archive with
    | error _ => exact ⟨written, left, right⟩
    | ok archive => exact ⟨_, left.put _ archive, right.put _ archive⟩
  unfold Workshop.flush
  rw [renumbered.usesStore]
  split
  · refine ⟨?_, renumbered.registry, renumbered.compiler, rfl, wrote⟩
    rw [renumbered.manager]
    rfl
  · exact renumbered

theorem arrive (renumbered : Renumbered gap stores workshop other)
    (results : List PermutationResult) :
    Renumbered gap stores (workshop.arrive results) (other.arrive results) :=
  renumbered.changeManager (fun manager => { manager with inbox := manager.inbox ++ results })
    fun _ => rfl

theorem releaseAll (renumbered : Renumbered gap stores workshop other) :
    Renumbered gap stores workshop.releaseAll other.releaseAll := by
  unfold Workshop.releaseAll
  rw [renumbered.compiler]
  have works : Renumbered gap stores { workshop with compiler := workshop.compiler.releaseAll.2 }
      { other with compiler := workshop.compiler.releaseAll.2 } :=
    ⟨renumbered.manager, renumbered.registry, rfl, renumbered.usesStore, renumbered.store⟩
  exact works.arrive workshop.compiler.releaseAll.1

theorem finish (renumbered : Renumbered gap stores workshop other) (held : List MapId)
    (jobs : List JobId) : Renumbered gap stores (workshop.finish held jobs)
      (other.finish (held.map (MapId.skip gap)) jobs) := by
  have drained := renumbered.drain held
  have compiling : (other.drain (held.map (MapId.skip gap))).manager.isCompiling =
      (workshop.drain held).manager.isCompiling := by
    rw [drained.manager]
    rfl
  unfold Workshop.finish
  dsimp only
  rw [compiling]
  split
  · exact (drained.releaseAll.drain held).flush
  · exact drained.flush

theorem process (renumbered : Renumbered gap stores workshop other) (held : List MapId) :
    (other.process (held.map (MapId.skip gap))).1 =
        (workshop.process held).1.map (FinishedCompile.renumber (MapId.skip gap)) ∧
      Renumbered gap stores (workshop.process held).2
        (other.process (held.map (MapId.skip gap))).2 := by
  have flushed := (renumbered.drain held).flush
  unfold Workshop.process
  dsimp only
  rw [flushed.manager, Manager.deliver_renumber]
  exact ⟨rfl, flushed.onManager rfl⟩

theorem await (renumbered : Renumbered gap stores workshop other) (held : List MapId)
    (job : JobId) (resource : ResourceId) :
    (other.await (held.map (MapId.skip gap)) job resource).1 =
        (workshop.await held job resource).1.renumber (MapId.skip gap) ∧
      Renumbered gap stores (workshop.await held job resource).2
        (other.await (held.map (MapId.skip gap)) job resource).2 := by
  have finished := renumbered.finish held [job]
  unfold Workshop.await
  dsimp only
  rw [finished.manager, Manager.take_renumber]
  generalize (workshop.finish held [job]).manager.take job resource = taken
  obtain ⟨result, left⟩ := taken
  have waited : Renumbered gap stores
      { workshop.finish held [job] with manager := left.removeWaiter job resource }
      { other.finish (held.map (MapId.skip gap)) [job] with
        manager := (left.renumber (MapId.skip gap)).removeWaiter job resource } :=
    finished.onManager rfl
  cases result with
  | none => exact ⟨rfl, waited⟩
  | some result => cases result <;> exact ⟨rfl, waited⟩

/-! ### Requests -/

theorem lowered (renumbered : Renumbered gap stores workshop other) (held : List MapId)
    (job : JobId) (permutations : List Permutation) (profile : Profile) :
    Option.Rel (Renumbered gap stores) (workshop.lowered held job permutations profile)
      (other.lowered (held.map (MapId.skip gap)) job permutations profile) := by
  unfold Workshop.lowered
  rw [show other.manager.jobs = workshop.manager.jobs by rw [renumbered.manager]; rfl]
  cases workshop.manager.jobs.get? job with
  | none => exact .none
  | some entry =>
    have entered (entry : InFlight) := renumbered.changeManager (fun manager => { manager with
      jobs := workshop.manager.jobs.insert job entry }) fun _ => rfl
    dsimp only [Option.map_some]
    split
    · exact .some ((entered _).finalize held job _)
    · exact .some (entered _)

theorem submit (renumbered : Renumbered gap stores workshop other) (job : PermutationJob) :
    Renumbered gap stores (workshop.submit job) (other.submit job) := by
  unfold Workshop.submit
  rw [renumbered.compiler]
  have works : Renumbered gap stores { workshop with compiler := (workshop.compiler.submit job).2 }
      { other with compiler := (workshop.compiler.submit job).2 } :=
    ⟨renumbered.manager, renumbered.registry, rfl, renumbered.usesStore, renumbered.store⟩
  exact works.arrive (workshop.compiler.submit job).1

theorem submitted (renumbered : Renumbered gap stores workshop other) (request : CompileRequest)
    (job : JobId) (material : LoweredMaterial) :
    Renumbered gap stores (workshop.submitted request job material)
      (other.submitted request job material) := by
  have counted := renumbered.flush.changeManager (fun manager => { manager with
    submissions := manager.submissions + 1 }) fun _ => rfl
  unfold Workshop.submitted
  dsimp only
  rw [submitAll_undisturbed, submitAll_undisturbed]
  exact List.foldl_rel counted fun job _ _ _ before => before.submit job

theorem compileLowered (renumbered : Renumbered gap stores workshop other) (held : List MapId)
    (request : CompileRequest) (job : JobId) (material : LoweredMaterial) :
    let (outcome, next) := workshop.compileLowered held request job material undisturbed
    let (otherOutcome, otherNext) :=
      other.compileLowered (held.map (MapId.skip gap)) request job material undisturbed
    otherOutcome.1 = outcome.1.renumber (MapId.skip gap) ∧
      Renumbered gap stores next otherNext := by
  have lowers := renumbered.lowered held job request.permutations material.profile
  generalize entered : workshop.lowered held job _ _ = first at lowers
  generalize otherEntered : other.lowered _ job _ _ = second at lowers
  cases lowers with
  | none =>
    unfold Workshop.compileLowered
    rw [entered, otherEntered]
    exact ⟨rfl, renumbered⟩
  | some likewise =>
    rw [compileLowered_eq entered, compileLowered_eq otherEntered]
    have handed := likewise.submitted request job material
    dsimp only
    split
    · exact handed.await held job request.resource
    · exact ⟨rfl, handed⟩

theorem joinRequest (renumbered : Renumbered gap stores workshop other) (held : List MapId)
    (request : CompileRequest) (job : JobId) :
    (other.joinRequest (held.map (MapId.skip gap)) request job).1 =
        (workshop.joinRequest held request job).1.renumber (MapId.skip gap) ∧
      Renumbered gap stores (workshop.joinRequest held request job).2
        (other.joinRequest (held.map (MapId.skip gap)) request job).2 := by
  unfold Workshop.joinRequest
  dsimp only
  split
  · have joined := renumbered.changeManager (fun manager =>
      (manager.join job request.resource).addWaiter job request.resource) fun _ => rfl
    exact joined.await held job request.resource
  · exact ⟨rfl, renumbered.changeManager (fun manager => manager.join job request.resource)
      fun _ => rfl⟩

theorem begun (renumbered : Renumbered gap stores workshop other) (request : CompileRequest) :
    Renumbered gap stores (workshop.begun request) (other.begun request) :=
  renumbered.changeManager (fun manager =>
    if request.synchronous then
      (manager.start request).2.addWaiter manager.nextJob request.resource
    else (manager.start request).2)
    fun manager => by
      show (if request.synchronous then _ else _) =
        Manager.renumber (MapId.skip gap) (if request.synchronous then _ else _)
      split <;> rfl

/-- A request is answered alike, and leaves both alike. -/
theorem request (renumbered : Renumbered gap stores workshop other) (held : List MapId)
    (request : CompileRequest) :
    (other.request (held.map (MapId.skip gap)) request).1 =
        (workshop.request held request).1.map (CompileOutcome.renumber (MapId.skip gap)) ∧
      Renumbered gap stores (workshop.request held request).2
        (other.request (held.map (MapId.skip gap)) request).2 := by
  have flies : other.manager.inFlight? = workshop.manager.inFlight? := by
    rw [renumbered.manager]
    rfl
  cases flying : workshop.manager.inFlight? request.identity with
  | some job =>
    obtain ⟨answers, joined⟩ := renumbered.joinRequest held request job
    rw [request_joins flying, request_joins ((congrFun flies _).trans flying)]
    exact ⟨congrArg Except.ok answers, joined⟩
  | none =>
    have begun := renumbered.begun request
    have job : other.manager.nextJob = workshop.manager.nextJob := by
      rw [renumbered.manager]
      rfl
    cases lowers : request.variant.lower with
    | error error =>
      rw [request_fails flying lowers, request_fails ((congrFun flies _).trans flying) lowers, job]
      refine ⟨rfl, begun.onManager ?_⟩
      rw [begun.manager, Manager.abort_renumber]
    | ok material =>
      rw [request_begins flying lowers,
        request_begins ((congrFun flies _).trans flying) lowers, job]
      obtain ⟨answers, lowered⟩ :=
        begun.compileLowered held request workshop.manager.nextJob material
      exact ⟨congrArg Except.ok answers, lowered⟩

end Renumbered

end Workshop

end Shading
