/-
Keeping the renderer informed. A system is faithful if the renderer, once it has
carried out all that is queued, will know just the resources that are there, and
have for each the map it offers. Whatever a library does with resources keeps
its system faithful, and none of it is about proxies.
-/

import Shading.Proofs.Material.Offering
import Shading.Proofs.Render.Casting

namespace Shading.System

variable {system middle next : System} {id : ResourceId}

/-- The renderer is there, and its resources are settled as the system offers them. -/
structure Faithful (system : System) : Prop where
  here : system.renderer.isGone = false
  settled : ∀ id, system.renderer.settled id = system.offered id

namespace Faithful

theorem congr (faithful : system.Faithful) (renderer : next.renderer = system.renderer)
    (offered : next.offered = system.offered) : next.Faithful := by
  refine ⟨?_, fun id => ?_⟩
  · rw [renderer]
    exact faithful.here
  · rw [renderer, offered]
    exact faithful.settled id

/-- The map that a resource is to offer from now on is sent. -/
theorem send (faithful : system.Faithful) {map : Option SharedMap}
    (renderer : next.renderer = system.renderer.publish id map)
    (offered : ∀ other, next.offered other =
      if other = id then (system.offered id).map fun _ => map.map SharedMap.id
      else system.offered other) : next.Faithful := by
  refine ⟨?_, fun other => ?_⟩
  · rw [renderer]
    unfold Renderer.publish
    rw [Renderer.enqueue_eq { system.renderer with
      world := system.renderer.world.onBinding id Binding.beginPublish } _ faithful.here]
    exact faithful.here
  · rw [renderer, Renderer.settled_publish _ _ _ _ faithful.here, offered, faithful.settled]
    by_cases same : other = id
    · rw [if_pos same.symm, if_pos same, same]
    · rw [if_neg (Ne.symm same), if_neg same]

/-- A command changes what is settled just as what is offered has changed. -/
theorem enqueue {command : RenderCommand} (faithful : system.Faithful)
    (renderer : next.renderer = system.renderer.enqueue command)
    (offered : ∀ id, next.offered id = command.settle id (system.offered id)) :
    next.Faithful := by
  refine ⟨?_, fun id => ?_⟩
  · rw [renderer, Renderer.enqueue_eq _ _ faithful.here]
    exact faithful.here
  · rw [renderer, Renderer.settled_enqueue _ _ _ faithful.here, offered, faithful.settled]

theorem setMap (faithful : system.Faithful) (id : ResourceId) (map : Option SharedMap) :
    (system.setMap id map).Faithful := by
  have told := renderer_setMap system id map
  split at told
  · rename_i idle
    refine faithful.congr told (funext fun other => ?_)
    rw [offered_setMap]
    split
    · rename_i here
      rcases idle with missing | same
      · rw [here, missing]
        rfl
      · rw [here, same]
        rfl
    · rfl
  · exact faithful.send told (offered_setMap system id · map)

/-- Another state of the renderer that leads to the same standings. -/
theorem onRenderer {renderer : Renderer} (faithful : system.Faithful)
    (here : renderer.isGone = system.renderer.isGone)
    (settled : ∀ id, renderer.settled id = system.renderer.settled id) :
    Faithful { system with renderer } :=
  ⟨here.trans faithful.here, fun id => (settled id).trans (faithful.settled id)⟩

end Faithful

/-! ### Work on resources -/

/-- What was faithful still is, and the proxies are not touched. -/
structure Serves (system next : System) : Prop where
  faithful : system.Faithful → next.Faithful
  cast : system.Faithful → next.renderer.cast = system.renderer.cast
  nextProxy : next.nextProxy = system.nextProxy

namespace Serves

theorem refl (system : System) : Serves system system := ⟨id, fun _ => rfl, rfl⟩

theorem trans (first : Serves system middle) (second : Serves middle next) :
    Serves system next :=
  ⟨fun faithful => second.faithful (first.faithful faithful),
    fun faithful => (second.cast (first.faithful faithful)).trans (first.cast faithful),
    second.nextProxy.trans first.nextProxy⟩

theorem of_quiet (quiet : Quiet system next) : Serves system next :=
  ⟨fun faithful => faithful.congr quiet.renderer quiet.offered,
    fun _ => by rw [quiet.renderer], quiet.nextProxy⟩

theorem setMap (system : System) (id : ResourceId) (map : Option SharedMap) :
    Serves system (system.setMap id map) := by
  refine ⟨fun faithful => faithful.setMap id map, fun _ => ?_, ?_⟩
  · rw [renderer_setMap]
    split
    · rfl
    · exact Renderer.cast_publish ..
  · unfold System.setMap publish
    split
    · rfl
    · split
      · rfl
      · split <;> rfl

theorem either (moves : Quiet system next ∨ ∃ map, Exchanges id map system next) :
    Serves system next := by
  rcases moves with quiet | ⟨map, before, quiet, rfl⟩
  · exact of_quiet quiet
  · exact (of_quiet quiet).trans (setMap before id map)

/-- A command that is about one resource. -/
theorem enqueue {command : RenderCommand} (idle : ∀ cast, command.recast cast = cast)
    (renderer : next.renderer = system.renderer.enqueue command)
    (offered : ∀ id, next.offered id = command.settle id (system.offered id))
    (nextProxy : next.nextProxy = system.nextProxy) : Serves system next :=
  ⟨fun faithful => faithful.enqueue renderer offered,
    fun faithful => by rw [renderer, Renderer.cast_enqueue _ faithful.here, idle], nextProxy⟩

theorem addResource (system : System) (variant : Variant) :
    Serves system (system.addResource variant).2 := by
  refine enqueue (fun _ => rfl) rfl (fun id => ?_) rfl
  show ((Table.insert system.resources system.nextResource _).get? id).map _ =
    if system.nextResource = id then _ else _
  rw [Table.get?_insert]
  by_cases same : id = system.nextResource
  · rw [if_pos same, if_pos same.symm]
    rfl
  · rw [if_neg same, if_neg (Ne.symm same)]
    rfl

theorem dropResource (system : System) (id : ResourceId) :
    Serves system (system.dropResource id) := by
  refine enqueue (fun _ => rfl) rfl (fun other => ?_) rfl
  show ((Table.erase system.resources id).get? other).map _ = if id = other then _ else _
  rw [Table.get?_erase]
  by_cases same : other = id
  · rw [if_pos same, if_pos same.symm]
    rfl
  · rw [if_neg same, if_neg (Ne.symm same)]
    rfl

theorem releaseMap (system : System) (id : ResourceId) :
    Serves system (system.releaseMap id) := by
  unfold System.releaseMap
  have cancelled := of_quiet (Quiet.cancelCompilation system id)
  generalize system.cancelCompilation id = middle at cancelled
  refine cancelled.trans ?_
  have emptied (other : ResourceId) :
      ((middle.onResource id fun resource => { resource with map := none }).publish id).offered
        other = if other = id then (middle.offered id).map fun _ => none
          else middle.offered other := by
    rw [offered_publish, offered_onResource]
    unfold offered
    rw [Option.map_map]
    rfl
  have there : (middle.onResource id fun resource => { resource with map := none }).resources.get?
      id = (middle.resources.get? id).map fun resource => { resource with map := none } :=
    (Table.get?_modify ..).trans (if_pos rfl)
  cases found : middle.resources.get? id with
  | none =>
    refine of_quiet ⟨?_, funext fun other => ?_, ?_⟩
    · unfold publish
      rw [there, found]
      rfl
    · rw [emptied]
      split
      · rename_i same
        rw [same]
        unfold offered
        rw [found]
        rfl
      · rfl
    · unfold publish
      rw [there, found]
      rfl
  | some resource =>
    rw [found] at there
    have sent := renderer_publish there
    refine ⟨fun faithful => faithful.send sent emptied, fun _ => ?_, ?_⟩
    · rw [sent]
      exact Renderer.cast_publish ..
    · unfold publish
      rw [there]
      rfl

end Serves

end Shading.System
