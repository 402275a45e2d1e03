/-
How resources get their maps, taken apart. A call finds a map, or falls back where
only cooked data counts, or joins a compile in flight, or asks for one, and then
the answer decides what becomes of the resource. What a call keeps is shown
along these cases; the functions themselves are not opened again for it.
-/

import Shading.Material.Compilation
import Shading.Proofs.Sequence

namespace Shading

/-- Whether a resource has to have a map at once. -/
def Resource.isPressing (settings : Settings) (resource : Resource) : Bool :=
  resource.isDefault || !settings.allowsAsyncCompilation

namespace System

variable {system next : System} {id : ResourceId} {resource : Resource} {identity : MapIdentity}

/-! ### Looking into the store -/

/-- The store has a map for an identity, and it can be read. -/
def Stored (system : System) (identity : MapIdentity) (map : ShaderMap) : Prop :=
  system.workshop.usesStore ∧ ∃ blob,
    system.workshop.store.blobs.get? identity.storeKey = some blob ∧
      ShaderMap.ofArchive blob = .ok map ∧ map.identity = identity

theorem Stored.unique {map other : ShaderMap} (stored : system.Stored identity map)
    (there : system.Stored identity other) : map = other := by
  obtain ⟨_, blob, present, read, _⟩ := stored
  obtain ⟨_, same, found, reads, _⟩ := there
  cases present.symm.trans found
  exact Except.ok.inj (read.symm.trans reads)

/-- The store has been looked into, if there is one. -/
def consulted (system : System) (identity : MapIdentity) : System :=
  { system with workshop := { system.workshop with store :=
      if system.workshop.usesStore then (system.workshop.store.get identity.storeKey).2
      else system.workshop.store } }

/-- Looking into the store takes nothing out of it. -/
theorem stored_consulted {other : MapIdentity} {map : ShaderMap} :
    (system.consulted identity).Stored other map ↔ system.Stored other map := by
  unfold Stored consulted
  dsimp only [MemoryStore.get]
  split
  · rfl
  · rfl

theorem findStored_of_stored {map : ShaderMap} (stored : system.Stored identity map) :
    system.findStored identity =
      (some ((system.consulted identity).registerMap map).1,
        ((system.consulted identity).registerMap map).2) := by
  obtain ⟨uses, blob, present, read, same⟩ := stored
  unfold findStored consulted
  rw [if_pos uses, if_pos uses]
  dsimp only [MemoryStore.get]
  rw [present, Option.map_some, read]
  dsimp only
  rw [if_pos same]

theorem findStored_of_missing (missing : ∀ map, ¬system.Stored identity map) :
    system.findStored identity = (none, system.consulted identity) := by
  unfold findStored consulted
  split
  · rename_i uses
    dsimp only [MemoryStore.get]
    split
    · rename_i map read
      obtain ⟨blob, present, read⟩ := Option.map_eq_some_iff.mp read
      exact if_neg fun same => missing map ⟨uses, blob, present, read, same⟩
    · rfl
  · rfl

/-- What the store has is entered, and nothing else happens to the system. -/
theorem findStored_cases (system : System) (identity : MapIdentity) :
    (∃ map, system.Stored identity map ∧ system.findStored identity =
      (some ((system.consulted identity).registerMap map).1,
        ((system.consulted identity).registerMap map).2)) ∨
      (∀ map, ¬system.Stored identity map) ∧
        system.findStored identity = (none, system.consulted identity) := by
  by_cases stored : ∃ map, system.Stored identity map
  · obtain ⟨map, stored⟩ := stored
    exact .inl ⟨map, stored, findStored_of_stored stored⟩
  · have missing : ∀ map, ¬system.Stored identity map := fun map there => stored ⟨map, there⟩
    exact .inr ⟨missing, findStored_of_missing missing⟩

/-! ### Failures -/

theorem fail_eq_ok {failure : CompileFailure} : system.fail id resource failure = .ok next ↔
    resource.isDefault = false ∧ next = (system.setErrors id failure.messages).setMap id none := by
  unfold fail
  split
  · rename_i default
    exact iff_of_false nofun fun both => Bool.eq_false_iff.mp both.1 default
  · rename_i ordinary
    rw [Except.ok.injEq, eq_comm, and_iff_right (Bool.eq_false_iff.mpr ordinary)]

theorem fallBack_eq_ok : system.fallBack id resource = .ok next ↔
    resource.isDefault = false ∧ next = (system.setErrors id
      [(Failure.missingCookedMap resource.name).message]).setMap id none := by
  unfold fallBack
  split
  · rename_i default
    exact iff_of_false nofun fun both => Bool.eq_false_iff.mp both.1 default
  · rename_i ordinary
    rw [Except.ok.injEq, eq_comm, and_iff_right (Bool.eq_false_iff.mpr ordinary)]

/-! ### Asking for a compile -/

/-- What a resource asks the workshop for. -/
def wanted (system : System) (id : ResourceId) (resource : Resource) (identity : MapIdentity)
    (synchronous : Bool) : CompileRequest where
  identity
  variant := resource.variant
  permutations := resource.variant.permutations system.catalog
  resource := id
  synchronous

/-- How a resource takes the answer to its request. -/
inductive Heeds (system : System) (id : ResourceId) (resource : Resource) :
    Except LoweringError CompileOutcome → Bool → System → Prop where
  | given {shared : SharedMap} :
    Heeds system id resource (.ok (.compiled shared)) true (system.succeed id shared)
  | refused {answer : Except LoweringError CompileOutcome} {failure : CompileFailure}
      {next : System}
      (answered : answer = .ok (.failed failure) ∨
        ∃ error, answer = .error error ∧ failure = .lowering error)
      (failed : system.fail id resource failure = .ok next) :
    Heeds system id resource answer false next
  | waits {answer : Except LoweringError CompileOutcome} {job : JobId}
      (answered : answer = .ok (.pending job) ∨ answer = .ok (.attached job)) :
    Heeds system id resource answer false ((system.addJob id job).setMap id none)

/-- A compile stops what was waited for, asks, and takes the answer. -/
theorem compile_heeds {synchronous ready : Bool}
    (ran : system.compile id resource identity synchronous = .ok (ready, next)) :
    let start := system.cancelCompilation id
    ∃ answer workshop, start.workshop.request start.heldMaps
        (start.wanted id resource identity synchronous) = (answer, workshop) ∧
      Heeds { start with workshop } id resource answer ready next := by
  unfold compile at ran
  dsimp only at ran ⊢
  generalize system.cancelCompilation id = start at ran ⊢
  unfold wanted
  generalize Workshop.request _ _ _ = pair at ran ⊢
  obtain ⟨answer, workshop⟩ := pair
  refine ⟨answer, workshop, rfl, ?_⟩
  dsimp only at ran
  split at ran
  · cases ran
    exact .given
  · obtain ⟨later, failed, same⟩ := map_eq_ok.mp ran
    cases same
    exact .refused (.inl rfl) failed
  · cases ran
    exact .waits (.inl rfl)
  · cases ran
    exact .waits (.inr rfl)
  · rename_i error
    obtain ⟨later, failed, same⟩ := map_eq_ok.mp ran
    cases same
    exact .refused (.inr ⟨error, rfl, rfl⟩) failed

/-- Joining the compile in flight for an identity leaves all others. -/
theorem attach_eq_some : system.attach id identity = some next ↔
    ∃ job, system.workshop.manager.inFlight? identity = some job ∧
      next = ((system.onManager fun manager => manager.join job id).keepOnlyJob id job).setMap
        id none := by
  unfold attach Manager.attach
  cases system.workshop.manager.inFlight? identity with
  | none => exact ⟨nofun, fun ⟨_, flying, _⟩ => nomatch flying⟩
  | some job =>
    rw [Option.some.injEq, eq_comm]
    exact ⟨fun same => ⟨job, rfl, same⟩, fun ⟨_, rfl, same⟩ => same⟩

theorem attach_eq_none : system.attach id identity = none ↔
    system.workshop.manager.inFlight? identity = none := by
  unfold attach Manager.attach
  cases system.workshop.manager.inFlight? identity <;> simp

/-- A resource that can wait joins the compile in flight; any other asks for one. -/
theorem obtain_cases {ready : Bool}
    (ran : system.obtain id resource identity = .ok (ready, next)) :
    (resource.isPressing system.settings = false ∧ ready = false ∧
        system.attach id identity = some next) ∨
      (resource.isPressing system.settings = false →
        system.workshop.manager.inFlight? identity = none) ∧
      system.compile id resource identity (resource.isPressing system.settings) =
        .ok (ready, next) := by
  unfold obtain at ran
  split at ran
  · rename_i pressing
    have pressing : resource.isPressing system.settings = true := pressing
    exact .inr ⟨fun patient => absurd pressing (Bool.eq_false_iff.mp patient), pressing ▸ ran⟩
  · rename_i patient
    have patient : resource.isPressing system.settings = false := Bool.eq_false_iff.mpr patient
    split at ran
    · rename_i attached
      cases ran
      exact .inl ⟨patient, rfl, attached⟩
    · rename_i missed
      exact .inr ⟨fun _ => attach_eq_none.mp missed, patient ▸ ran⟩

/-! ### Calling for a map -/

/-- What a resource does with what it has found, if that will do, or without a map. -/
inductive Settles (system : System) (id : ResourceId) (resource : Resource)
    (identity : MapIdentity) : Option SharedMap → Bool → System → Prop where
  | given {shared : SharedMap} : Settles system id resource identity (some shared) true
      ((system.cancelCompilation id).succeed id shared)
  | fallsBack {next : System} (cooked : system.settings.requiresCookedData)
      (fell : system.fallBack id resource = .ok next) :
    Settles system id resource identity none false next
  | obtains {ready : Bool} {next : System}
      (compiles : system.settings.requiresCookedData = false)
      (obtained : system.obtain id resource identity = .ok (ready, next)) :
    Settles system id resource identity none ready next

/-- A call for the map of a resource looks for one and sees whether it will do. -/
theorem cacheShaders_cases {ready : Bool} (ran : system.cacheShaders id = .ok (ready, next)) :
    (system.resources.get? id = none ∧ ready = false ∧ next = system) ∨
      ∃ resource found later does, system.resources.get? id = some resource ∧
        system.lookup (resource.variant.identity system.catalog) = (found, later) ∧
        (found.filter fun shared =>
          shared.map.isComplete (resource.variant.permutations system.catalog)) = does ∧
        Settles later id resource (resource.variant.identity system.catalog) does ready next := by
  unfold cacheShaders at ran
  split at ran
  · rename_i absent
    cases ran
    exact .inl ⟨absent, rfl, rfl⟩
  · rename_i resource there
    dsimp only at ran
    generalize looked : system.lookup _ = pair at ran
    obtain ⟨found, later⟩ := pair
    refine .inr ⟨resource, found, later, _, there, looked, rfl, ?_⟩
    generalize found.filter _ = does at ran ⊢
    cases does with
    | some shared =>
      cases ran
      exact .given
    | none =>
      dsimp only at ran
      split at ran
      · rename_i cooked
        obtain ⟨last, fell, same⟩ := map_eq_ok.mp ran
        cases same
        exact .fallsBack cooked fell
      · rename_i compiles
        exact .obtains (Bool.eq_false_iff.mpr compiles) ran

/-! ### Results -/

/-- A result counts for a resource that waits for its job, and for no other. -/
theorem complete_cases {job : JobId} {result : Except CompileFailure SharedMap} {applied : Bool}
    (ran : system.complete id job result = .ok (applied, next)) :
    ((∀ resource, system.resources.get? id = some resource → job ∉ resource.jobs) ∧
        applied = false ∧ next = system) ∨
      ∃ resource, system.resources.get? id = some resource ∧ job ∈ resource.jobs ∧
        applied = true ∧ (system.onResource id fun resource =>
          { resource with jobs := resource.jobs.erase job }).conclude id resource result =
            .ok next := by
  unfold complete at ran
  split at ran
  · rename_i absent
    cases ran
    refine .inl ⟨fun resource there => ?_, rfl, rfl⟩
    cases absent.symm.trans there
  · rename_i resource there
    split at ran
    · rename_i waits
      obtain ⟨last, concluded, same⟩ := map_eq_ok.mp ran
      cases same
      exact .inr ⟨resource, there, waits, rfl, concluded⟩
    · rename_i aloof
      cases ran
      refine .inl ⟨fun other found => ?_, rfl, rfl⟩
      cases there.symm.trans found
      exact aloof

/-- Taking the result of a job completes it, where there is one for the resource. -/
theorem takeResult_cases {job : JobId} (ran : system.takeResult id job = .ok next) :
    ((system.workshop.manager.take job id).1 = none ∧ next = system) ∨
      ∃ result manager applied, system.workshop.manager.take job id = (some result, manager) ∧
        (system.onManager fun _ => manager).complete id job result = .ok (applied, next) := by
  unfold takeResult at ran
  split at ran
  · rename_i manager missed
    cases ran
    exact .inl ⟨congrArg Prod.fst missed, rfl⟩
  · rename_i result manager taken
    obtain ⟨⟨applied, last⟩, completed, rfl⟩ := map_eq_ok.mp ran
    exact .inr ⟨result, manager, applied, taken, completed⟩

/-- Finishing what a resource waits for finishes its jobs and takes the results of all of them. -/
theorem finishCompilation_cases (ran : system.finishCompilation id = .ok next) :
    ((∀ resource, system.resources.get? id = some resource → resource.jobs = []) ∧
        next = system) ∨
      ∃ resource, system.resources.get? id = some resource ∧ resource.jobs ≠ [] ∧
        resource.jobs.foldlM (fun system job => system.takeResult id job)
          { system with workshop := system.workshop.finish system.heldMaps resource.jobs } =
            .ok next := by
  unfold finishCompilation at ran
  split at ran
  · rename_i absent
    cases ran
    refine .inl ⟨fun resource there => ?_, rfl⟩
    cases absent.symm.trans there
  · rename_i resource there
    split at ran
    · rename_i idle
      cases ran
      refine .inl ⟨fun other found => ?_, rfl⟩
      cases there.symm.trans found
      exact idle
    · rename_i waits
      exact .inr ⟨resource, there, waits, ran⟩

/-- What is kept by finishing jobs and by taking a result is kept by finishing a compile. -/
theorem finishCompilation_kept {motive : System → Prop}
    (ran : system.finishCompilation id = .ok next) (start : motive system)
    (finished : ∀ jobs,
      motive { system with workshop := system.workshop.finish system.heldMaps jobs })
    (taken : ∀ job before after, motive before → before.takeResult id job = .ok after →
      motive after) : motive next := by
  rcases finishCompilation_cases ran with ⟨_, rfl⟩ | ⟨resource, _, _, takes⟩
  · exact start
  · exact foldlM_kept taken _ _ next (finished resource.jobs) takes

/-! ### Maps given up and maps from archives -/

theorem discardMap_eq_ok : system.discardMap id = (.ok (), next) ↔
    (system.bindingOf id).isQuiescent = true ∧
      next = system.onResource id fun resource => { resource with map := none } := by
  unfold discardMap
  split
  · rename_i quiescent
    exact ⟨fun ran => ⟨quiescent, (Prod.mk.inj ran).2.symm⟩, fun ⟨_, same⟩ => same ▸ rfl⟩
  · rename_i busy
    exact ⟨nofun, fun ⟨quiescent, _⟩ => absurd quiescent busy⟩

/-- The map that is used in the place of an equal one: one that is live, else the map itself, which
is registered. -/
inductive Adopts (system : System) (map : ShaderMap) : SharedMap → System → Prop
  | live {shared : SharedMap} {later : System}
    (found : system.findMap map.identity = (some shared, later)) : Adopts system map shared later
  | own {middle : System} (missing : system.findMap map.identity = (none, middle)) :
    Adopts system map (middle.registerMap map).1 (middle.registerMap map).2

/-- An archive that could be read has no map, or a resource takes the map that stands for it. -/
theorem loadInline_cases {archive : List UInt8} {loaded : Bool}
    (ran : system.loadInline id archive = .ok (loaded, next)) :
    (loaded = false ∧ next = system) ∨
      ∃ packaged map shared later, InlineMap.read archive = .ok ⟨packaged, some map⟩ ∧
        system.Adopts map shared later ∧ loaded = true ∧
        next = later.onResource id fun resource =>
          { resource with map := some shared, hasInline := true } := by
  unfold loadInline at ran
  obtain ⟨⟨packaged, content⟩, read, ran⟩ := bind_eq_ok.mp ran
  cases content with
  | none =>
    cases ran
    exact .inl ⟨rfl, rfl⟩
  | some map =>
    dsimp only at ran
    split at ran
    · rename_i shared later found
      cases ran
      exact .inr ⟨packaged, map, shared, later, read, .live found, rfl, rfl⟩
    · rename_i middle missing
      cases ran
      exact .inr ⟨packaged, map, _, _, read, .own missing, rfl, rfl⟩

end System

end Shading
