/-
What can be done with a system while it works. Resources come and go and are
varied, get maps and give them up; results are handed out and applied, or kept
by whoever likes; other results arrive; the store changes; and the renderer
works. Whatever is done, at most one compile begins.
-/

import Shading.Proofs.Map.Archiving
import Shading.Proofs.Material.Proceeding

namespace Shading

namespace System

/-- One thing that is done with a system, while some maps are in hand, and what is told of it. The
maps that are taken from the store or an inline archive are of some kind. With a map in hand nobody
asks for maps, since who holds that one is not known: it is applied, dropped, or kept first. -/
inductive Acts (loads : ShaderMap → Prop) :
    List SharedMap → System → List Occurrence → List SharedMap → System → Prop where
  | addResource {hand system} (variant : Variant) :
    Acts loads hand system [] hand (system.addResource variant).2
  /-- A resource is to be something else, but a default material stays one. -/
  | vary {hand system} (id : ResourceId) (change : Variant → Variant) :
    (∀ resource, system.resources.get? id = some resource →
      (change resource.variant).description.isDefault = resource.isDefault) →
    Acts loads hand system [] hand (system.onResource id fun resource =>
      { resource with variant := change resource.variant })
  | dropResource {hand system} (id : ResourceId) :
    Acts loads hand system [] hand (system.dropResource id)
  | cacheShaders {system id ready next} :
    (∀ resource map, system.resources.get? id = some resource →
      system.Takes (resource.variant.identity system.catalog) map → loads map) →
    system.cacheShaders id = .ok (ready, next) →
    Acts loads [] system (system.toldByCacheShaders id) [] next
  | complete {hand system id job result applied next} :
    (∀ shared, result = .ok shared → shared ∈ hand) →
    system.complete id job result = .ok (applied, next) → Acts loads hand system [] hand next
  | finishCompilation {system id next} : system.finishCompilation id = .ok next →
    Acts loads [] system (system.toldByFinishCompilation id) [] next
  | cancelCompilation {hand system} (id : ResourceId) :
    Acts loads hand system (system.toldByCancelCompilation id) hand (system.cancelCompilation id)
  | loadInline {system id archive loaded next} :
    (∀ packaged map, InlineMap.read archive = .ok ⟨packaged, some map⟩ → loads map) →
    system.loadInline id archive = .ok (loaded, next) → Acts loads [] system [] [] next
  | publishInline {hand system} (id : ResourceId) :
    Acts loads hand system [] hand (system.publishInline id)
  | releaseMap {hand system} (id : ResourceId) :
    Acts loads hand system (system.toldByCancelCompilation id) hand (system.releaseMap id)
  | discardMap {hand system id next} : system.discardMap id = (.ok (), next) →
    Acts loads hand system [] hand next
  | finish {system} (jobs : List JobId) :
    Acts loads [] system (system.workshop.toldByFinish system.heldMaps jobs) []
      { system with workshop := system.workshop.finish system.heldMaps jobs }
  | finishAll {system} :
    Acts loads [] system (system.workshop.toldByFinishAll system.heldMaps) []
      { system with workshop := system.workshop.finishAll system.heldMaps }
  | processResults {system} :
    Acts loads [] system (system.workshop.toldByDrain system.heldMaps)
      (system.processResults.1.filterMap FinishedCompile.map?) system.processResults.2
  | enqueue {hand system} (command : RenderCommand) : command.map? = none →
    Acts loads hand system [] hand (system.enqueue command)
  /-- The renderer carries out the first command of its queue. -/
  | carryOut {hand system command rest world} : system.renderer.queue = command :: rest →
    system.renderer.world.apply command = .ok world →
    Acts loads hand system [] hand
      { system with renderer := { system.renderer with world, queue := rest } }
  /-- The renderer does anything that leaves its resources alone. -/
  | upkeep {hand system world} : World.Rests system.renderer.world world →
    Acts loads hand system [] hand { system with renderer := { system.renderer with world } }
  | leave {hand system} :
    Acts loads hand system [] hand { system with renderer := system.renderer.leave }
  /-- Numbers, the compiler, the store and the inbox change in whatever way. -/
  | aside {hand system next} : Workshop.Idle system.workshop next.workshop →
    next.workshop.manager.lowerings = system.workshop.manager.lowerings →
    next.settings = system.settings → next.catalog = system.catalog →
    next.resources = system.resources → next.renderer = system.renderer →
    Acts loads hand system [] hand next
  /-- Maps in hand are dropped, and more that somebody has are taken into the hand. -/
  | hold {hand hand' system} : hand' ⊆ hand ++ system.strong →
    Acts loads hand system [] hand' system
  /-- Somebody keeps a map, and counts as a resource that nothing else is done with. -/
  | keep {hand system shared} (id : ResourceId) (variant : Variant) : shared ∈ hand →
    system.resources.get? id = none →
    Acts loads hand system [] hand { system with
      resources := system.resources.insert id { variant, map := some shared } }
  /-- Somebody does not keep a map any more. -/
  | forget {hand system} (id : ResourceId) :
    Acts loads hand system [] hand { system with resources := system.resources.erase id }

variable {needs : MapIdentity → Permutation → Prop} {loads : ShaderMap → Prop}
  {hand hand' : List SharedMap} {system next : System} {told : List Occurrence}

open Workshop (Kept Evolves Proceeds)

theorem isCompiled_of_inline {archive : List UInt8} {packaged : Bool} {map : ShaderMap}
    (read : InlineMap.read archive = .ok ⟨packaged, some map⟩) : map.isCompiled := by
  unfold InlineMap.read at read
  split at read
  · obtain ⟨_, _, read⟩ := bind_eq_ok.mp read
    obtain ⟨valid, _, read⟩ := bind_eq_ok.mp read
    split at read
    · obtain ⟨payload, kept, read⟩ := bind_eq_ok.mp read
      cases read
      unfold InlineMap.readPayload at kept
      dsimp only at kept
      split at kept
      · cases kept
      · split at kept
        · cases kept
        · exact ShaderMap.isCompiled_of_archive kept
    · cases read
  · cases read

/-- Whatever is done, at most one compile begins, and then no map that was held would have done. -/
theorem Acts.proceeds (acts : Acts loads hand system told hand' next)
    (kept : Kept needs (system.stage hand))
    (full : ∀ variant : Variant, ∀ permutation,
      needs (variant.identity system.catalog) permutation →
      permutation ∈ variant.permutations system.catalog)
    (meets : ∀ map : ShaderMap, loads map → map.isCompiled → map.Meets (needs map.identity)) :
    Proceeds needs (Lacks system.catalog (system.stage hand).held) (system.stage hand) told
      (next.stage hand') := by
  have moved {next : System} (moves : Moves hand system next) :
      Proceeds needs (Lacks system.catalog (system.stage hand).held) (system.stage hand) []
        (next.stage hand) :=
    .quietly (moves.evolves (List.subset_append_left hand _))
  cases acts with
  | addResource variant => exact moved (.addResource hand system variant)
  | vary id change => exact moved (.onResource id fun _ _ => .inl)
  | dropResource id => exact moved (.dropResource hand system id)
  | cacheShaders stocks ran =>
    refine proceeds_cacheShaders kept full (fun resource map there takes => ?_) ran
    obtain ⟨_, _, _, _, read, same⟩ := id takes
    exact same ▸ meets map (stocks resource map there takes)
      (ShaderMap.isCompiled_of_archive read)
  | complete given ran => exact moved (.complete given ran)
  | finishCompilation ran => exact .quietly (evolves_finishCompilation kept ran)
  | cancelCompilation id => exact .quietly (evolves_cancelCompilation hand system id)
  | loadInline read ran =>
    exact .quietly (evolves_loadInline (fun packaged map inline =>
      meets map (read packaged map inline) (isCompiled_of_inline inline)) ran)
  | publishInline id => exact moved (.publishInline hand system id)
  | releaseMap id =>
    exact .quietly (Moves.after ((Moves.withoutMap hand _ id).trans (.publish hand _ id))
      (List.subset_append_left hand _) (evolves_cancelCompilation hand system id))
  | discardMap ran =>
    obtain ⟨_, rfl⟩ := System.discardMap_eq_ok.mp ran
    exact moved (.withoutMap hand system _)
  | finish jobs => exact .quietly (.finish system.holds jobs)
  | finishAll => exact .quietly (.finishAll system.holds)
  | processResults => exact .quietly (evolves_processResults system)
  | enqueue command silent => exact moved (.enqueue silent)
  | carryOut queued ran =>
    exact moved (.onRenderer fun _ member =>
      List.mem_append_right _ (Renderer.mem_maps_of_apply queued ran member))
  | upkeep rests =>
    refine moved (.onRenderer fun _ member => List.mem_append_right _ ?_)
    unfold Renderer.maps at member ⊢
    rw [← rests.maps]
    exact member
  | leave =>
    exact moved (.onRenderer fun _ member =>
      List.mem_append_right _ (List.mem_append_right _ member))
  | aside idle lowerings settings catalog resources renderer =>
    have strong : next.strong = system.strong := by
      unfold System.strong resourceMaps
      rw [resources, renderer]
    unfold stage
    rw [strong]
    exact .quietly (.calm (.of_idle idle lowerings))
  | hold fewer => exact .quietly (Moves.evolves (.refl hand system) fewer)
  | keep id variant member =>
    refine moved (.onResources fun entry inside shared has => ?_)
    rcases Table.mem_entries_of_insert inside with rfl | before
    · cases has
      exact List.mem_append_left _ member
    · exact List.mem_append_right _ (mem_resourceMaps.mpr ⟨entry, before, has⟩)
  | forget id => exact moved (.erase hand system id)

/-- The settings and the catalog stay as they are. -/
theorem Acts.constant (acts : Acts loads hand system told hand' next) :
    next.settings = system.settings ∧ next.catalog = system.catalog := by
  have steadily {next : System} (steady : Steady system next) :
      next.settings = system.settings ∧ next.catalog = system.catalog :=
    ⟨steady.settings, steady.catalog⟩
  cases acts with
  | cacheShaders _ ran => exact steadily (.cacheShaders ran)
  | complete _ ran => exact steadily (.complete ran)
  | finishCompilation ran => exact steadily (.finishCompilation ran)
  | cancelCompilation id => exact steadily (.cancelCompilation system id)
  | loadInline _ ran => exact steadily (.loadInline ran)
  | publishInline id => exact steadily (.publishInline system id)
  | releaseMap id => exact steadily (.releaseMap system id)
  | discardMap ran => exact steadily (.discardMap ran)
  | aside _ _ settings catalog => exact ⟨settings, catalog⟩
  | addResource | vary | dropResource | finish | finishAll | processResults | enqueue | carryOut
  | upkeep | leave | hold | keep | forget => exact ⟨rfl, rfl⟩

end System

end Shading
