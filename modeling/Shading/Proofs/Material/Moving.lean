/-
What resources and the renderer do with maps. They pass on the maps they have
and take maps that they are given, but they never make one: whatever a resource
holds afterwards it held before or was given, and whatever the renderer holds
it held before, or a resource did, or it was given.
-/

import Shading.Proofs.Material.Obtaining
import Shading.Proofs.Render.Settling

namespace Shading.System

variable {known : List SharedMap} {system middle next : System} {id : ResourceId}
  {shared : SharedMap}

def resourceMaps (system : System) : List SharedMap :=
  system.resources.values.filterMap Resource.map

theorem mem_resourceMaps : shared ∈ system.resourceMaps ↔
    ∃ entry ∈ system.resources.entries, entry.2.map = some shared := by
  show shared ∈ (system.resources.entries.map Prod.snd).filterMap Resource.map ↔ _
  simp only [List.mem_filterMap, List.mem_map]
  constructor
  · rintro ⟨resource, ⟨entry, member, rfl⟩, has⟩
    exact ⟨entry, member, has⟩
  · rintro ⟨entry, member, has⟩
    exact ⟨entry.2, ⟨entry, member, rfl⟩, has⟩

/-- At most maps have been passed on, or some that are known have been taken. -/
structure Moves (known : List SharedMap) (system next : System) : Prop where
  workshop : next.workshop = system.workshop
  catalog : next.catalog = system.catalog
  resources : ∀ shared ∈ next.resourceMaps, shared ∈ known ++ system.resourceMaps
  renderer : ∀ shared ∈ next.renderer.maps,
    shared ∈ (known ++ system.resourceMaps) ++ system.renderer.maps

namespace Moves

theorem refl (known : List SharedMap) (system : System) : Moves known system system :=
  ⟨rfl, rfl, fun _ => List.mem_append_right _, fun _ => List.mem_append_right _⟩

theorem trans (first : Moves known system middle) (second : Moves known middle next) :
    Moves known system next := by
  have passed (shared : SharedMap) (member : shared ∈ known ++ middle.resourceMaps) :
      shared ∈ known ++ system.resourceMaps :=
    (List.mem_append.mp member).elim (List.mem_append_left _) (first.resources shared)
  refine ⟨second.workshop.trans first.workshop, second.catalog.trans first.catalog,
    fun shared member => passed shared (second.resources shared member),
    fun shared member => ?_⟩
  rcases List.mem_append.mp (second.renderer shared member) with given | before
  · exact List.mem_append_left _ (passed shared given)
  · exact first.renderer shared before

/-! ### Resources -/

/-- A change of the resources that brings only maps that are known. -/
theorem onResources {resources : Table ResourceId Resource}
    (maps : ∀ entry ∈ resources.entries, ∀ shared, entry.2.map = some shared →
      shared ∈ known ++ system.resourceMaps) : Moves known system { system with resources } :=
  ⟨rfl, rfl, fun shared member =>
    have ⟨entry, inside, has⟩ := mem_resourceMaps.mp member
    maps entry inside shared has, fun _ => List.mem_append_right _⟩

/-- A change of a resource that leaves its map or gives it one that is known. -/
theorem onResource {change : Resource → Resource} (id : ResourceId)
    (maps : ∀ resource shared, (change resource).map = some shared →
      resource.map = some shared ∨ shared ∈ known) :
    Moves known system (system.onResource id change) := by
  refine onResources fun entry inside shared has => ?_
  rcases Table.mem_entries_of_modify inside with ⟨resource, before, rfl⟩ | before
  · rcases maps resource shared has with kept | given
    · exact List.mem_append_right _ (mem_resourceMaps.mpr ⟨_, before, kept⟩)
    · exact List.mem_append_left _ given
  · exact List.mem_append_right _ (mem_resourceMaps.mpr ⟨entry, before, has⟩)

theorem withoutMap (known : List SharedMap) (system : System) (id : ResourceId) :
    Moves known system (system.onResource id fun resource => { resource with map := none }) :=
  onResource id fun _ _ there => (nomatch there)

theorem addJob (id : ResourceId) (job : JobId) : Moves known system (system.addJob id job) :=
  onResource id fun _ _ => .inl

theorem setErrors (id : ResourceId) (errors : List String) :
    Moves known system (system.setErrors id errors) :=
  onResource id fun _ _ => .inl

/-! ### The renderer -/

theorem onRenderer {renderer : Renderer}
    (maps : ∀ shared ∈ renderer.maps,
      shared ∈ (known ++ system.resourceMaps) ++ system.renderer.maps) :
    Moves known system { system with renderer } :=
  ⟨rfl, rfl, fun _ => List.mem_append_right _, maps⟩

theorem enqueue {command : RenderCommand} (silent : command.map? = none) :
    Moves known system (system.enqueue command) := by
  refine onRenderer fun shared member => List.mem_append_right _ ?_
  refine (Renderer.mem_maps_of_enqueue member).resolve_right fun sent => ?_
  rw [silent] at sent
  cases sent

theorem publish (known : List SharedMap) (system : System) (id : ResourceId) :
    Moves known system (system.publish id) := by
  unfold System.publish
  split
  · exact refl known system
  · rename_i resource found
    refine onRenderer fun shared member => ?_
    rcases Renderer.mem_maps_of_publish member with before | sent
    · exact List.mem_append_right _ before
    · exact List.mem_append_left _ (List.mem_append_right _
        (mem_resourceMaps.mpr ⟨_, Table.mem_entries_of_get? found, sent⟩))

theorem publishInline (known : List SharedMap) (system : System) (id : ResourceId) :
    Moves known system (system.publishInline id) := by
  unfold System.publishInline
  split
  · exact publish known system id
  · exact refl known system

/-! ### Exchanging maps -/

theorem setMap {map : Option SharedMap} (id : ResourceId)
    (given : ∀ shared, map = some shared → shared ∈ known) :
    Moves known system (system.setMap id map) := by
  unfold System.setMap
  split
  · exact refl known system
  · split
    · exact refl known system
    · exact (onResource id fun _ shared has => .inr (given shared has)).trans (publish known _ id)

/-- Taking the map of a resource away. -/
theorem clearMap (known : List SharedMap) (system : System) (id : ResourceId) :
    Moves known system (system.setMap id none) :=
  setMap id fun _ there => (nomatch there)

theorem succeed (id : ResourceId) (given : shared ∈ known) :
    Moves known system (system.succeed id shared) :=
  (setErrors id []).trans (setMap id fun _ same => Option.some.inj same ▸ given)

theorem fail {resource : Resource} {failure : CompileFailure}
    (ran : system.fail id resource failure = .ok next) : Moves known system next := by
  obtain ⟨_, rfl⟩ := fail_eq_ok.mp ran
  exact (setErrors id _).trans (clearMap known _ id)

theorem fallBack {resource : Resource} (ran : system.fallBack id resource = .ok next) :
    Moves known system next := by
  obtain ⟨_, rfl⟩ := fallBack_eq_ok.mp ran
  exact (setErrors id _).trans (clearMap known _ id)

theorem conclude {resource : Resource} {result : Except CompileFailure SharedMap}
    (given : ∀ shared, result = .ok shared → shared ∈ known)
    (ran : system.conclude id resource result = .ok next) : Moves known system next := by
  cases result with
  | ok shared =>
    cases ran
    exact succeed id (given shared rfl)
  | error failure => exact fail ran

/-- Taking a result for a job. -/
theorem complete {job : JobId} {result : Except CompileFailure SharedMap} {applied : Bool}
    (given : ∀ shared, result = .ok shared → shared ∈ known)
    (ran : system.complete id job result = .ok (applied, next)) : Moves known system next := by
  rcases complete_cases ran with ⟨_, _, rfl⟩ | ⟨_, _, _, _, concluded⟩
  · exact refl known _
  · have forgotten : Moves known system (system.onResource id fun resource =>
      { resource with jobs := resource.jobs.erase job }) := onResource id fun _ _ => .inl
    exact forgotten.trans (conclude given concluded)

/-! ### Resources that come and go -/

theorem addResource (known : List SharedMap) (system : System) (variant : Variant) :
    Moves known system (system.addResource variant).2 := by
  have added : Moves known system { system with
      resources := system.resources.insert system.nextResource { variant }
      nextResource := system.nextResource.next } := by
    refine ⟨rfl, rfl, fun shared member => ?_, fun _ => List.mem_append_right _⟩
    obtain ⟨entry, inside, has⟩ := mem_resourceMaps.mp member
    rcases Table.mem_entries_of_insert inside with rfl | before
    · cases has
    · exact List.mem_append_right _ (mem_resourceMaps.mpr ⟨entry, before, has⟩)
  exact added.trans (enqueue rfl)

theorem erase (known : List SharedMap) (system : System) (id : ResourceId) :
    Moves known system { system with resources := system.resources.erase id } :=
  onResources fun entry inside _ has => List.mem_append_right _
    (mem_resourceMaps.mpr ⟨entry, Table.mem_entries_of_erase inside, has⟩)

theorem dropResource (known : List SharedMap) (system : System) (id : ResourceId) :
    Moves known system (system.dropResource id) :=
  (erase known system id).trans (enqueue rfl)

end Moves

end Shading.System
