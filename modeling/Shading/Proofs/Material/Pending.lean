/-
What a resource is left waiting for. A call that finds no map that would do, and
does not have one compiled at once, leaves the resource waiting for one compile,
which is in flight: it has been in flight before and is joined, or it begins. No
map has come for anybody meanwhile, neither a live one nor one in the store. The
one exception is a compile that needs no permutations, which ends at once.
-/

import Shading.Proofs.Material.Agreeing
import Shading.Proofs.Material.Thrift
import Shading.Proofs.Material.Using

namespace Shading

namespace Workshop

variable {held : List MapId} {workshop middle next : Workshop} {request : CompileRequest}
  {outcome : CompileOutcome} {job : JobId}

/-- No compile has begun, and the compiler has been asked for nothing. -/
structure Unasked (workshop next : Workshop) : Prop where
  lowerings : next.manager.lowerings = workshop.manager.lowerings
  submissions : next.manager.submissions = workshop.manager.submissions
  compiler : next.compiler = workshop.compiler

/-- No map has come, neither live nor into the store; some that have been made may be gone. -/
structure Wanes (workshop next : Workshop) : Prop where
  registry : next.registry = workshop.registry
  usesStore : next.usesStore = workshop.usesStore
  store : next.store = workshop.store
  maps : next.manager.maps ⊆ workshop.manager.maps

theorem Unasked.refl (workshop : Workshop) : Unasked workshop workshop := ⟨rfl, rfl, rfl⟩

theorem Unasked.trans {workshop middle next : Workshop} (first : Unasked workshop middle)
    (second : Unasked middle next) : Unasked workshop next :=
  ⟨second.lowerings.trans first.lowerings, second.submissions.trans first.submissions,
    second.compiler.trans first.compiler⟩

theorem Unasked.cancel (workshop : Workshop) (resource : ResourceId) (jobs : List JobId) :
    Unasked workshop { workshop with manager := workshop.manager.cancel resource jobs } := by
  have left (later : Manager) : later.lowerings = workshop.manager.lowerings ∧
      later.submissions = workshop.manager.submissions →
      (jobs.foldl (Manager.leave resource) later).lowerings = workshop.manager.lowerings ∧
        (jobs.foldl (Manager.leave resource) later).submissions =
          workshop.manager.submissions := by
    intro start
    refine List.foldlRecOn (motive := fun later : Manager =>
      later.lowerings = workshop.manager.lowerings ∧
        later.submissions = workshop.manager.submissions) jobs _ start fun later before job _ => ?_
    unfold Manager.leave
    split
    · exact before
    · dsimp only
      split <;> exact before
  obtain ⟨lowerings, submissions⟩ := left workshop.manager ⟨rfl, rfl⟩
  exact ⟨lowerings, submissions, rfl⟩

namespace Wanes

theorem refl (workshop : Workshop) : Wanes workshop workshop :=
  ⟨rfl, rfl, rfl, List.Subset.refl _⟩

theorem trans (first : Wanes workshop middle) (second : Wanes middle next) :
    Wanes workshop next :=
  ⟨second.registry.trans first.registry, second.usesStore.trans first.usesStore,
    second.store.trans first.store, List.Subset.trans second.maps first.maps⟩

theorem onManager {manager : Manager} (maps : manager.maps ⊆ workshop.manager.maps) :
    Wanes workshop { workshop with manager } := ⟨rfl, rfl, rfl, maps⟩

/-- With nothing to be written, the store stays as it is. -/
theorem flush (stowed : workshop.Stowed) : Wanes workshop workshop.flush := by
  have maps : workshop.flush.manager.maps ⊆ workshop.manager.maps :=
    fun _ => (Calm.flush workshop).trimmed.maps
  have store : workshop.manager.unwritten.foldl write workshop.store = workshop.store := by
    rw [show workshop.manager.unwritten = [] from stowed]
    rfl
  unfold Workshop.flush at maps ⊢
  split
  · rename_i uses
    rw [if_pos uses] at maps
    exact ⟨rfl, rfl, store, maps⟩
  · exact refl workshop

theorem submitted {material : LoweredMaterial} (stowed : workshop.Stowed)
    (request : CompileRequest) (job : JobId) :
    Wanes workshop (workshop.submitted request job material) := by
  unfold Workshop.submitted
  dsimp only
  rw [submitAll_undisturbed]
  have counted : Wanes workshop { workshop.flush with manager := { workshop.flush.manager with
      submissions := workshop.flush.manager.submissions + 1 } } :=
    (flush stowed).trans (.onManager (List.Subset.refl _))
  exact List.foldlRecOn (motive := Wanes workshop) _ _ counted fun _ before _ _ =>
    ⟨before.registry, before.usesStore, before.store, before.maps⟩

theorem begun (workshop : Workshop) (request : CompileRequest) :
    Wanes workshop (workshop.begun request) := by
  unfold Workshop.begun
  dsimp only
  split <;> exact ⟨rfl, rfl, rfl, List.Subset.refl _⟩

end Wanes

theorem begun_inFlight (workshop : Workshop) (request : CompileRequest) :
    (workshop.begun request).manager.inFlight? request.identity =
      some workshop.manager.nextJob := by
  unfold Manager.inFlight?
  rw [begun_manager]
  exact (Table.get?_insert ..).trans (if_pos rfl)

/-- A compile that has no errors ends with a map. -/
theorem finalize_mapped {entry : InFlight} {profile : Profile}
    (profiled : entry.profile = some profile) (clean : entry.errors = []) :
    ∃ compile ∈ (workshop.finalize held job entry).manager.finished,
      compile.job = job ∧ compile.identity = entry.identity ∧ compile.map?.isSome := by
  unfold finalize
  rw [profiled]
  dsimp only
  rw [if_pos clean]
  exact ⟨_, List.mem_append_right _ (List.mem_singleton_self _), rfl, rfl, rfl⟩

/-- A compile that has not ended when it is handed to the compiler is in flight, and no map has
come. -/
theorem submitted_inFlight (stowed : workshop.Stowed) (request : CompileRequest)
    (material : LoweredMaterial) (expects : InFlight) :
    let next := ((workshop.begun request).withEntry workshop.manager.nextJob expects).submitted
      request workshop.manager.nextJob material
    next.manager.inFlight? request.identity = some workshop.manager.nextJob ∧
      Wanes workshop next := by
  have entered : Stowed ((workshop.begun request).withEntry workshop.manager.nextJob expects) :=
    stowed.begun request
  have begun : Wanes workshop
      ((workshop.begun request).withEntry workshop.manager.nextJob expects) :=
    (Wanes.begun workshop request).trans (.onManager (List.Subset.refl _))
  refine ⟨?_, begun.trans (.submitted entered request _)⟩
  unfold Manager.inFlight?
  rw [(Calm.submitted _ request _ material).byIdentity]
  exact begun_inFlight workshop request

theorem submitted_finished (workshop : Workshop) (request : CompileRequest) (job : JobId)
    (material : LoweredMaterial) :
    (workshop.submitted request job material).manager.finished = workshop.manager.finished := by
  unfold submitted
  dsimp only
  rw [(Idle.submitAll _ _).finished]
  exact flush_finished workshop

/-- A request that nobody waits for has joined a compile in flight or begun one, unless the one it
has begun needed no permutations and has ended with a map. -/
theorem request_waits (stowed : workshop.Stowed) (leaves : request.synchronous = false)
    (ran : workshop.request held request = (.ok outcome, next)) (waits : outcome.job? = some job) :
    (next.manager.inFlight? request.identity = some job ∧ Wanes workshop next) ∨
      request.permutations = [] ∧ ∃ compile ∈ next.manager.finished, compile.job = job ∧
        compile.identity = request.identity ∧ compile.map?.isSome := by
  have patient : ¬request.synchronous = true := Bool.eq_false_iff.mp leaves
  cases flying : workshop.manager.inFlight? request.identity with
  | some other =>
    rw [request_joins flying] at ran
    unfold joinRequest at ran
    dsimp only at ran
    rw [if_neg patient] at ran
    cases ran
    cases waits
    exact .inl ⟨flying, .onManager (List.Subset.refl _)⟩
  | none =>
    cases lowers : request.variant.lower with
    | error error =>
      rw [request_fails flying lowers] at ran
      cases ran
    | ok material =>
      rw [request_begins flying lowers] at ran
      have served {entered : Workshop} (lowered : (workshop.begun request).lowered held
          workshop.manager.nextJob request.permutations material.profile = some entered) :
          workshop.manager.nextJob = job ∧
            entered.submitted request workshop.manager.nextJob material = next := by
        rw [compileLowered_eq lowered] at ran
        dsimp only at ran
        rw [if_neg patient] at ran
        cases ran
        exact ⟨Option.some.inj waits, rfl⟩
      have found : (workshop.begun request).manager.jobs.get? workshop.manager.nextJob =
          some request.entry := by
        rw [begun_jobs, Table.get?_insert, if_pos rfl]
      rcases lowered_cases (workshop.begun request) held request.permutations material.profile
        found with lowered | ⟨empty, lowered⟩
      · obtain ⟨rfl, rfl⟩ := served lowered
        exact .inl (submitted_inFlight stowed request material _)
      · obtain ⟨rfl, rfl⟩ := served lowered
        rw [submitted_finished]
        refine .inr ⟨List.eq_nil_iff_forall_not_mem.mpr fun permutation member => ?_,
          finalize_mapped rfl rfl⟩
        have due : permutation ∈ request.permutations.eraseDups := List.mem_eraseDups.mpr member
        rw [show request.permutations.eraseDups = [] from empty] at due
        cases due

end Workshop

namespace System

open Workshop (Distinct Evolves Kept Stowed Unasked nothing)

variable {system middle next : System} {id : ResourceId} {identity : MapIdentity}

/-! ### Maps that are there -/

/-- Every map that is held has a number that was given before. -/
theorem older_of_kept (kept : Kept nothing (system.stage [])) {held : MapId}
    (member : held ∈ system.workshop.heldMaps system.heldMaps) :
    held.number < system.workshop.registry.next.number := by
  obtain ⟨shared, known, rfl⟩ : ∃ shared ∈ (system.stage []).held, shared.id = held := by
    rcases List.mem_append.mp member with outer | made
    · rw [heldMaps_eq] at outer
      obtain ⟨shared, there, same⟩ := List.mem_map.mp outer
      exact ⟨shared, List.mem_append_left _ (List.mem_append_right _ there), same⟩
    · obtain ⟨shared, there, same⟩ := List.mem_map.mp made
      exact ⟨shared, List.mem_append_right _ there, same⟩
  exact (kept.keyed_of_get? (kept.entered shared known)).2.2

/-- No map has come for anybody, neither live nor into the store. -/
structure Wanes (system next : System) : Prop where
  workshop : system.workshop.Wanes next.workshop
  strong : next.strong ⊆ system.strong

namespace Wanes

theorem trans (first : Wanes system middle) (second : Wanes middle next) : Wanes system next :=
  ⟨first.workshop.trans second.workshop, List.Subset.trans second.strong first.strong⟩

theorem onWorkshop {workshop : Workshop} (wanes : system.workshop.Wanes workshop) :
    Wanes system { system with workshop } := ⟨wanes, List.Subset.refl _⟩

theorem of_moves (moves : Moves [] system next) : Wanes system next :=
  ⟨moves.workshop ▸ .refl _, moves.strong⟩

theorem cancel (kept : Kept nothing (system.stage [])) (id : ResourceId) (jobs : List JobId) :
    Wanes system (system.onManager fun manager => manager.cancel id jobs) :=
  .onWorkshop (.onManager fun _ => (Manager.cancelled kept.orderly id jobs).2.maps)

theorem cancelCompilation (kept : Kept nothing (system.stage [])) (id : ResourceId) :
    Wanes system (system.cancelCompilation id) := by
  unfold System.cancelCompilation
  split
  · exact .of_moves (.refl [] system)
  · split
    · exact .of_moves (.refl [] system)
    · exact (cancel kept id _).trans (.of_moves (.onResource id fun _ _ => .inl))

/-- A map that is live has been live. -/
theorem incumbent {shared : SharedMap} (wanes : Wanes system next)
    (live : next.incumbent identity = some shared) : system.incumbent identity = some shared := by
  obtain ⟨there, held⟩ := incumbent_eq_some.mp live
  rw [wanes.workshop.registry] at there
  refine incumbent_eq_some.mpr ⟨there, ?_⟩
  rcases List.mem_append.mp held with outer | made
  · rw [heldMaps_eq] at outer
    refine List.mem_append_left _ ?_
    rw [heldMaps_eq]
    exact List.map_subset _ wanes.strong outer
  · exact List.mem_append_right _ (List.map_subset _ wanes.workshop.maps made)

theorem stored (wanes : Wanes system next) {map : ShaderMap} :
    next.Stored identity map ↔ system.Stored identity map := by
  unfold Stored
  rw [wanes.workshop.usesStore, wanes.workshop.store]

end Wanes

/-! ### Resources and their jobs -/

theorem get?_onResource (system : System) (id : ResourceId) (change : Resource → Resource) :
    (system.onResource id change).resources.get? id = (system.resources.get? id).map change :=
  (Table.get?_modify ..).trans (if_pos rfl)

theorem get?_setErrors {resource : Resource} (there : system.resources.get? id = some resource)
    (errors : List String) :
    (system.setErrors id errors).resources.get? id = some { resource with errors } :=
  (get?_onResource system id _).trans (congrArg (Option.map _) there)

theorem get?_clearMap {resource : Resource} (there : system.resources.get? id = some resource) :
    (system.setMap id none).resources.get? id = some { resource with map := none } := by
  unfold setMap
  rw [there]
  dsimp only
  split
  · rename_i same
    rw [there, ← Option.map_eq_none_iff.mp same]
  · have cleared : (system.onResource id
        fun resource => { resource with map := none }).resources.get? id =
          some { resource with map := none } := by
      rw [get?_onResource, there]
      rfl
    unfold publish
    rw [cleared]
    exact cleared

/-- A compile that a resource is left waiting for was not to be waited for. It is in flight, or it
has ended at once, since it needed no permutations. -/
theorem compile_waits {resource known : Resource} {synchronous ready : Bool}
    (kept : Kept nothing (system.stage [])) (stowed : system.workshop.Stowed)
    (there : system.resources.get? id = some known)
    (ran : system.compile id resource identity synchronous = .ok (ready, next))
    (waits : next.jobsOf id ≠ []) :
    synchronous = false ∧ ∃ job, next.jobsOf id = [job] ∧
      (next.workshop.manager.inFlight? identity = some job ∧ system.Wanes next ∨
        resource.variant.permutations system.catalog = [] ∧
          ∃ compile ∈ next.workshop.manager.finished, compile.job = job ∧
            compile.identity = identity ∧ compile.map?.isSome) := by
  have cancelled := stowed_cancelCompilation stowed id
  have wanes := Wanes.cancelCompilation kept id
  have idle : (system.cancelCompilation id).jobsOf id = [] := by
    rw [jobsOf_cancelCompilation, if_pos rfl]
  have steady := Steady.cancelCompilation system id
  obtain ⟨still, stays, _⟩ := steady.remains there
  rw [← steady.catalog]
  obtain ⟨answer, workshop, served, heeds⟩ := compile_heeds ran
  generalize system.cancelCompilation id = start at served heeds cancelled wanes idle stays ⊢
  have resting {later : System} (aloof : Aloof { start with workshop } later) :
      later.jobsOf id = [] := by
    rw [aloof.jobs]
    exact idle
  cases heeds with
  | given => exact absurd (resting (.succeed _ id _)) waits
  | refused _ failed => exact absurd (resting (.fail failed)) waits
  | @waits _ job answered =>
    have clears := Moves.clearMap [] ({ start with workshop }.addJob id job) id
    have listed : (({ start with workshop }.addJob id job).setMap id none).jobsOf id = [job] := by
      have none_yet : still.jobs = [] := (jobsOf_eq stays).symm.trans idle
      have added : ({ start with workshop }.addJob id job).resources.get? id =
          some { still with jobs := still.jobs ++ [job] } :=
        (get?_onResource _ id _).trans (congrArg (Option.map _) stays)
      rw [(Aloof.setMap _ id none).jobs, jobsOf_eq added, none_yet]
      rfl
    -- Whoever is left waiting has not asked to wait, and joins or begins a compile.
    obtain ⟨outcome, told, asks, pending⟩ : ∃ outcome, answer = .ok outcome ∧
        outcome.job? = some job ∧ outcome.isFinal = false := by
      rcases answered with rfl | rfl
      · exact ⟨_, rfl, rfl, rfl⟩
      · exact ⟨_, rfl, rfl, rfl⟩
    rw [told] at served
    have patient : synchronous = false := Bool.eq_false_iff.mpr fun waits => by
      have final := Workshop.request_final waits served
      rw [pending] at final
      cases final
    refine ⟨patient, job, listed, ?_⟩
    rw [clears.workshop]
    refine (Workshop.request_waits cancelled patient served asks).imp_left fun ⟨flying, shelves⟩ =>
      ⟨flying, ((wanes.trans (.onWorkshop shelves)).trans (.of_moves (.addJob id job))).trans
        (.of_moves clears)⟩

/-- How a resource waits after a call in which no map was found that would do. -/
inductive Waits (system : System) (id : ResourceId) (resource : Resource) (identity : MapIdentity)
    (next : System) : Prop where
  /-- Where only cooked data counts it gets no map, and waits for what it has waited for. -/
  | cooked : system.settings.requiresCookedData →
    system.fallBack id resource = .ok next → Waits system id resource identity next
  | flying (job : JobId) : system.settings.requiresCookedData = false →
    resource.isPressing system.settings = false → next.jobsOf id = [job] →
    next.workshop.manager.inFlight? identity = some job → system.Wanes next →
    Waits system id resource identity next
  /-- Its compile needed no permutations and has ended at once. -/
  | landed (compile : FinishedCompile) : resource.variant.permutations system.catalog = [] →
    next.jobsOf id = [compile.job] → compile ∈ next.workshop.manager.finished →
    compile.identity = identity → compile.map?.isSome → Waits system id resource identity next

/-- Leaving other compiles leaves a compile in flight. -/
theorem get?_cancel {manager : Manager} {job : JobId} {jobs : List JobId} (resource : ResourceId)
    (others : job ∉ jobs) :
    (manager.cancel resource jobs).jobs.get? job = manager.jobs.get? job := by
  refine List.foldlRecOn (motive := fun later : Manager =>
    later.jobs.get? job = manager.jobs.get? job) jobs _ rfl fun later before other member => ?_
  have different : job ≠ other := fun here => others (here ▸ member)
  unfold Manager.leave
  split
  · exact before
  · dsimp only
    split
    · show (later.jobs.erase other).get? job = _
      rw [Table.get?_erase, if_neg different]
      exact before
    · show (later.jobs.insert other _).get? job = _
      rw [Table.get?_insert, if_neg different]
      exact before

/-- A resource that keeps one job waits for no other, and the compile of that one goes on. -/
theorem keepOnlyJob_waits {known : Resource} (job : JobId) (kept : Kept nothing (system.stage []))
    (there : system.resources.get? id = some known) :
    (system.keepOnlyJob id job).jobsOf id = [job] ∧
      (system.keepOnlyJob id job).workshop.manager.jobs.get? job =
        system.workshop.manager.jobs.get? job ∧
      system.Wanes (system.keepOnlyJob id job) := by
  have listed {later : System} (same : later.resources = system.resources) :
      (later.onResource id fun resource => { resource with jobs := [job] }).jobsOf id = [job] := by
    rw [jobsOf_eq ((get?_onResource later id _).trans (congrArg (Option.map _) (same ▸ there)))]
  have stale : job ∉ known.jobs.filter (· ≠ job) := fun member =>
    absurd rfl (of_decide_eq_true (List.mem_filter.mp member).2)
  unfold keepOnlyJob
  rw [there]
  dsimp only
  split
  · exact ⟨listed rfl, rfl, .of_moves (.onResource id fun _ _ => .inl)⟩
  · exact ⟨listed rfl, get?_cancel id stale,
      (Wanes.cancel kept id _).trans (.of_moves (.onResource id fun _ _ => .inl))⟩

/-- Whoever joins a compile in flight waits for it and for nothing else. -/
theorem attach_waits {known : Resource} (kept : Kept nothing (system.stage []))
    (there : system.resources.get? id = some known)
    (attached : system.attach id identity = some next) :
    ∃ job, next.jobsOf id = [job] ∧ next.workshop.manager.inFlight? identity = some job ∧
      system.Wanes next := by
  obtain ⟨job, flying, rfl⟩ := attach_eq_some.mp attached
  have after := kept.evolves (evolves_attach flying attached)
  obtain ⟨entry, flies, belongs⟩ : ∃ entry, system.workshop.manager.jobs.get? job = some entry ∧
      entry.identity = identity := kept.orderly.tracked identity job flying
  have joined : Kept nothing ((system.onManager fun manager => manager.join job id).stage []) :=
    kept.evolves (.join job id)
  have joins : Wanes system (system.onManager fun manager => manager.join job id) :=
    .onWorkshop (.onManager (List.Subset.refl _))
  obtain ⟨listed, flies', wanes⟩ := keepOnlyJob_waits job joined there
  have clears := Moves.clearMap [] ((system.onManager fun manager =>
    manager.join job id).keepOnlyJob id job) id
  refine ⟨job, (congrFun (Aloof.setMap _ id none).jobs id).trans listed, ?_, ?_⟩
  · have goes : (system.workshop.manager.join job id).jobs.get? job =
        some { entry with resources := Manager.addOnce entry.resources id } := by
      unfold Manager.join
      dsimp only
      rw [Table.get?_modify, if_pos rfl, flies]
      rfl
    rw [← belongs]
    refine after.indexed job { entry with resources := Manager.addOnce entry.resources id }
      (Eq.trans ?_ goes)
    show (System.setMap _ id none).workshop.manager.jobs.get? job = _
    rw [clears.workshop]
    exact flies'
  · exact (joins.trans wanes).trans (.of_moves clears)

theorem obtain_waits {resource known : Resource} {ready : Bool}
    (kept : Kept nothing (system.stage [])) (stowed : system.workshop.Stowed)
    (there : system.resources.get? id = some known)
    (compiles : system.settings.requiresCookedData = false)
    (ran : system.obtain id resource identity = .ok (ready, next))
    (waits : next.jobsOf id ≠ []) : Waits system id resource identity next := by
  rcases obtain_cases ran with ⟨patient, _, attached⟩ | ⟨_, compiled⟩
  · obtain ⟨job, listed, flying, wanes⟩ := attach_waits kept there attached
    exact .flying job compiles patient listed flying wanes
  · obtain ⟨leaves, job, listed, ⟨flying, wanes⟩ | ⟨none, compile, ended, ofJob, same, made⟩⟩ :=
      compile_waits kept stowed there compiled waits
    · exact .flying job compiles leaves listed flying wanes
    · exact .landed compile none (ofJob ▸ listed) ended same made

end System

end Shading
