/-
What work on maps leaves alone. Looking for maps, compiling them, waiting for
them and sending them changes neither the settings, the catalog nor what any
resource is a variant of, and it makes no resource.
-/

import Shading.Proofs.Material.Obtaining

namespace Shading.System

variable {system next : System} {id : ResourceId}

/-- The variant of a material that a resource is for. -/
def variantOf (system : System) (id : ResourceId) : Option Variant :=
  (system.resources.get? id).map Resource.variant

theorem variantOf_onResource (system : System) (id other : ResourceId)
    (change : Resource → Resource) :
    (system.onResource id change).variantOf other =
      if other = id then (system.resources.get? id).map fun resource => (change resource).variant
      else system.variantOf other := by
  show ((Table.modify system.resources id change).get? other).map _ = _
  rw [Table.get?_modify]
  split
  · rw [Option.map_map]
    rfl
  · rfl

/-- Settings, catalog and variants are as they were, and no resource has been made. -/
structure Steady (system next : System) : Prop where
  settings : next.settings = system.settings
  catalog : next.catalog = system.catalog
  nextResource : next.nextResource = system.nextResource
  variantOf : next.variantOf = system.variantOf

namespace Steady

theorem refl (system : System) : Steady system system := ⟨rfl, rfl, rfl, rfl⟩

theorem remains {resource : Resource} (steady : Steady system next)
    (found : system.resources.get? id = some resource) :
    ∃ after, next.resources.get? id = some after ∧ after.variant = resource.variant := by
  have variant := congrFun steady.variantOf id
  unfold System.variantOf at variant
  rw [found] at variant
  exact Option.map_eq_some_iff.mp variant

theorem former {after : Resource} (steady : Steady system next)
    (there : next.resources.get? id = some after) :
    ∃ resource, system.resources.get? id = some resource ∧ resource.variant = after.variant := by
  have variant := congrFun steady.variantOf id
  unfold System.variantOf at variant
  rw [there] at variant
  exact Option.map_eq_some_iff.mp variant.symm

theorem trans {middle : System} (first : Steady system middle) (second : Steady middle next) :
    Steady system next :=
  ⟨second.settings.trans first.settings, second.catalog.trans first.catalog,
    second.nextResource.trans first.nextResource, second.variantOf.trans first.variantOf⟩

/-- What is not about resources, their numbers or the settings. -/
theorem of_resources (settings : next.settings = system.settings)
    (catalog : next.catalog = system.catalog)
    (nextResource : next.nextResource = system.nextResource)
    (resources : next.resources = system.resources) : Steady system next := by
  refine ⟨settings, catalog, nextResource, ?_⟩
  unfold System.variantOf
  rw [resources]

/-- A change of a resource that is not about its variant. -/
theorem onResource (system : System) (id : ResourceId) {change : Resource → Resource}
    (same : ∀ resource, (change resource).variant = resource.variant) :
    Steady system (system.onResource id change) := by
  refine ⟨rfl, rfl, rfl, funext fun other => ?_⟩
  rw [variantOf_onResource]
  split
  · rename_i here
    rw [here]
    exact congrArg (fun change => Option.map change _) (funext same)
  · rfl

theorem onManager (system : System) (change : Manager → Manager) :
    Steady system (system.onManager change) := of_resources rfl rfl rfl rfl

theorem onWorkshop (system : System) (workshop : Workshop) :
    Steady system { system with workshop } := of_resources rfl rfl rfl rfl

theorem setErrors (system : System) (id : ResourceId) (errors : List String) :
    Steady system (system.setErrors id errors) := onResource system id fun _ => rfl

theorem addJob (system : System) (id : ResourceId) (job : JobId) :
    Steady system (system.addJob id job) := onResource system id fun _ => rfl

theorem enqueue (system : System) (command : RenderCommand) :
    Steady system (system.enqueue command) := of_resources rfl rfl rfl rfl

theorem publish (system : System) (id : ResourceId) : Steady system (system.publish id) := by
  unfold System.publish
  split
  · exact refl system
  · exact of_resources rfl rfl rfl rfl

theorem setMap (system : System) (id : ResourceId) (map : Option SharedMap) :
    Steady system (system.setMap id map) := by
  unfold System.setMap
  split
  · exact refl system
  · split
    · exact refl system
    · have given : Steady system (system.onResource id fun resource => { resource with map }) :=
        onResource system id fun _ => rfl
      exact given.trans (publish _ id)

theorem cancelCompilation (system : System) (id : ResourceId) :
    Steady system (system.cancelCompilation id) := by
  unfold System.cancelCompilation
  split
  · exact refl system
  · split
    · exact refl system
    · exact (onManager system _).trans (onResource _ id fun _ => rfl)

theorem keepOnlyJob (system : System) (id : ResourceId) (job : JobId) :
    Steady system (system.keepOnlyJob id job) := by
  unfold System.keepOnlyJob
  split
  · exact refl system
  · dsimp only
    split
    · exact onResource system id fun _ => rfl
    · exact (onManager system _).trans (onResource _ id fun _ => rfl)

theorem succeed (system : System) (id : ResourceId) (shared : SharedMap) :
    Steady system (system.succeed id shared) :=
  (setErrors system id []).trans (setMap _ id _)

theorem fail {resource : Resource} {failure : CompileFailure}
    (ran : system.fail id resource failure = .ok next) : Steady system next := by
  obtain ⟨_, rfl⟩ := fail_eq_ok.mp ran
  exact (setErrors system id _).trans (setMap _ id _)

theorem fallBack {resource : Resource} (ran : system.fallBack id resource = .ok next) :
    Steady system next := by
  obtain ⟨_, rfl⟩ := fallBack_eq_ok.mp ran
  exact (setErrors system id _).trans (setMap _ id _)

theorem conclude {resource : Resource} {result : Except CompileFailure SharedMap}
    (ran : system.conclude id resource result = .ok next) : Steady system next := by
  cases result with
  | ok shared =>
    cases ran
    exact succeed system id shared
  | error failure => exact fail ran

/-! ### Getting a map -/

theorem findStored (system : System) (identity : MapIdentity) :
    Steady system (system.findStored identity).2 := by
  rcases findStored_cases system identity with ⟨map, _, same⟩ | ⟨_, same⟩
  · rw [same]
    exact of_resources rfl rfl rfl rfl
  · rw [same]
    exact of_resources rfl rfl rfl rfl

theorem lookup (system : System) (identity : MapIdentity) :
    Steady system (system.lookup identity).2 := by
  have found : Steady system (system.findMap identity).2 := of_resources rfl rfl rfl rfl
  unfold System.lookup
  split
  · rename_i shared later same
    rw [same] at found
    exact found
  · rename_i later same
    rw [same] at found
    exact found.trans (findStored later identity)

theorem attach {identity : MapIdentity} (attached : system.attach id identity = some next) :
    Steady system next := by
  obtain ⟨job, _, rfl⟩ := attach_eq_some.mp attached
  exact ((onManager system _).trans (keepOnlyJob _ id job)).trans (setMap _ id none)

theorem compile {resource : Resource} {identity : MapIdentity} {synchronous ready : Bool}
    (ran : system.compile id resource identity synchronous = .ok (ready, next)) :
    Steady system next := by
  obtain ⟨answer, workshop, _, heeds⟩ := compile_heeds ran
  have served := (cancelCompilation system id).trans (onWorkshop _ workshop)
  cases heeds with
  | given => exact served.trans (succeed _ id _)
  | refused _ failed => exact served.trans (fail failed)
  | waits => exact served.trans ((addJob _ id _).trans (setMap _ id none))

theorem obtain {resource : Resource} {identity : MapIdentity} {ready : Bool}
    (ran : system.obtain id resource identity = .ok (ready, next)) : Steady system next := by
  rcases obtain_cases ran with ⟨_, _, attached⟩ | ⟨_, compiled⟩
  · exact attach attached
  · exact compile compiled

theorem cacheShaders {ready : Bool} (ran : system.cacheShaders id = .ok (ready, next)) :
    Steady system next := by
  rcases cacheShaders_cases ran with
    ⟨_, _, rfl⟩ | ⟨resource, found, later, does, _, same, _, settles⟩
  · exact refl _
  · have looked := lookup system (resource.variant.identity system.catalog)
    rw [same] at looked
    cases settles with
    | given => exact looked.trans ((cancelCompilation later id).trans (succeed _ id _))
    | fallsBack _ fell => exact looked.trans (fallBack fell)
    | obtains _ obtained => exact looked.trans (obtain obtained)

/-! ### Waiting and giving up -/

theorem complete {job : JobId} {result : Except CompileFailure SharedMap} {applied : Bool}
    (ran : system.complete id job result = .ok (applied, next)) : Steady system next := by
  rcases complete_cases ran with ⟨_, _, rfl⟩ | ⟨_, _, _, _, concluded⟩
  · exact refl _
  · have forgotten : Steady system (system.onResource id fun resource =>
      { resource with jobs := resource.jobs.erase job }) := onResource system id fun _ => rfl
    exact forgotten.trans (conclude concluded)

theorem takeResult {job : JobId} (ran : system.takeResult id job = .ok next) :
    Steady system next := by
  rcases takeResult_cases ran with ⟨_, rfl⟩ | ⟨_, manager, _, _, completed⟩
  · exact refl _
  · exact (onManager system fun _ => manager).trans (complete completed)

theorem finishCompilation (ran : system.finishCompilation id = .ok next) :
    Steady system next :=
  finishCompilation_kept ran (refl system) (fun _ => onWorkshop system _)
    fun _ _ _ before taken => before.trans (takeResult taken)

theorem releaseMap (system : System) (id : ResourceId) : Steady system (system.releaseMap id) := by
  have taken : Steady (system.cancelCompilation id)
      ((system.cancelCompilation id).onResource id fun resource => { resource with map := none }) :=
    onResource _ id fun _ => rfl
  exact ((cancelCompilation system id).trans taken).trans (publish _ id)

theorem discardMap (ran : system.discardMap id = (.ok (), next)) : Steady system next := by
  obtain ⟨_, rfl⟩ := discardMap_eq_ok.mp ran
  exact onResource system id fun _ => rfl

/-! ### Inline archives -/

theorem loadInline {archive : List UInt8} {loaded : Bool}
    (ran : system.loadInline id archive = .ok (loaded, next)) : Steady system next := by
  obtain ⟨_, rfl⟩ | ⟨_, map, shared, later, _, adopts, _, rfl⟩ := loadInline_cases ran
  · exact refl _
  · have found : Steady system (system.findMap map.identity).2 := of_resources rfl rfl rfl rfl
    have adopted : Steady system later := by
      cases adopts with
      | live same =>
        rw [same] at found
        exact found
      | own same =>
        rw [same] at found
        exact found.trans (of_resources rfl rfl rfl rfl)
    exact adopted.trans (onResource later id fun _ => rfl)

theorem publishInline (system : System) (id : ResourceId) :
    Steady system (system.publishInline id) := by
  unfold System.publishInline
  split
  · exact publish system id
  · exact refl system

end Steady

end Shading.System
