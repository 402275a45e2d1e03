/-
Discarding the map of a resource without a word to the renderer. It is refused
unless the binding of the resource is quiescent, and the binding is kept on two
sides: sending counts up, and the commands of the queue count down and note
whether there is a map when their turn comes. However the two sides interleave,
the account is right at every moment, so nothing that the renderer has, or is
about to get, is ever discarded.
-/

import Shading.Proofs.Material.Handover
import Shading.Proofs.Render.Reckoning

namespace Shading.System

variable {unsent : List ResourceId} {system next : System} {id : ResourceId}

/-- Discarding a map is nothing to the renderer. -/
theorem renderer_discardMap (ran : system.discardMap id = (.ok (), next)) :
    next.renderer = system.renderer := by
  obtain ⟨_, rfl⟩ := discardMap_eq_ok.mp ran
  rfl

theorem offered_discardMap (ran : system.discardMap id = (.ok (), next)) (other : ResourceId) :
    next.offered other =
      if other = id then (system.offered id).map fun _ => none else system.offered other := by
  obtain ⟨_, rfl⟩ := discardMap_eq_ok.mp ran
  rw [offered_onResource]
  unfold offered
  rw [Option.map_map]
  rfl

theorem exists_discardMap_iff : (∃ next, system.discardMap id = (.ok (), next)) ↔
    (system.renderer.world.bindingOf id).isQuiescent := by
  constructor
  · rintro ⟨next, ran⟩
    exact (discardMap_eq_ok.mp ran).1
  · exact fun quiescent => ⟨_, discardMap_eq_ok.mpr ⟨quiescent, rfl⟩⟩

/-! ### The account is kept -/

/-- The renderer's binding of every resource keeps the account it should. -/
def Balanced (system : System) : Prop :=
  ∀ resource, system.renderer.Balanced resource

namespace Balanced

theorem congr (balanced : Balanced system) (renderer : next.renderer = system.renderer) :
    Balanced next := by
  unfold Balanced
  rw [renderer]
  exact balanced

/-- A map is only sent for a resource that is there, and that one is registered by the time the
queue has been carried out. -/
theorem setMap (balanced : Balanced system) (linked : Linked unsent system) (id : ResourceId)
    (map : Option SharedMap) : Balanced (system.setMap id map) := by
  unfold Balanced
  rw [renderer_setMap]
  split
  · exact balanced
  · rename_i told
    have live : (system.offered id).isSome :=
      Option.isSome_iff_ne_none.mpr fun missing => told (.inl missing)
    exact fun resource => (balanced resource).publish linked.accounted.here map
      (linked.registered id live)

theorem either (balanced : Balanced system) (linked : Linked unsent system)
    (moves : Quiet system next ∨ ∃ map, Exchanges id map system next) : Balanced next := by
  rcases moves with quiet | ⟨map, middle, quiet, rfl⟩
  · exact balanced.congr quiet.renderer
  · exact (balanced.congr quiet.renderer).setMap (linked.quiet quiet) id map

theorem enqueue (balanced : Balanced system) (linked : Linked unsent system)
    {command : RenderCommand} (silent : ∀ resource, command.sendsTo resource = false)
    (renderer : next.renderer = system.renderer.enqueue command) : Balanced next := by
  unfold Balanced
  rw [renderer]
  exact fun resource => (balanced resource).enqueue linked.accounted.here (silent resource)

theorem publish (balanced : Balanced system) (linked : Linked unsent system) (id : ResourceId) :
    Balanced (system.publish id) := by
  cases found : system.resources.get? id with
  | none =>
    unfold System.publish
    rw [found]
    exact balanced
  | some resource =>
    unfold Balanced
    rw [renderer_publish found]
    have live : (system.offered id).isSome := by
      rw [offered_eq_some found]
      rfl
    exact fun resource => (balanced resource).publish linked.accounted.here _
      (linked.registered id live)

theorem finishCompilation (balanced : Balanced system) (linked : Linked unsent system)
    (ran : system.finishCompilation id = .ok next) : Balanced next := by
  have both := finishCompilation_kept (motive := fun system =>
      Linked unsent system ∧ Balanced system) ran ⟨linked, balanced⟩
    (fun _ => ⟨linked.quiet (.of_resources rfl rfl rfl), balanced.congr rfl⟩)
    fun _ _ _ both taken => ⟨both.1.either (Exchanges.takeResult taken),
      both.2.either both.1 (Exchanges.takeResult taken)⟩
  exact both.2

theorem publishInline (balanced : Balanced system) (linked : Linked unsent system)
    (id : ResourceId) : Balanced (system.publishInline id) := by
  unfold System.publishInline
  split
  · exact balanced.publish linked id
  · exact balanced

theorem releaseMap (balanced : Balanced system) (linked : Linked unsent system)
    (id : ResourceId) : Balanced (system.releaseMap id) := by
  unfold System.releaseMap
  have cancelled := Quiet.cancelCompilation system id
  have emptied := (linked.quiet cancelled).onResource id fun resource =>
    { resource with map := none }
  have kept : Balanced ((system.cancelCompilation id).onResource id fun resource =>
    { resource with map := none }) := balanced.congr cancelled.renderer
  exact kept.publish emptied id

end Balanced

theorem balanced_of_history (history : History unsent system) : Balanced system := by
  induction history with
  | start settings catalog workshop => exact fun resource => ⟨rfl, rfl, trivial⟩
  | addResource variant before balanced =>
    exact balanced.enqueue (linked_of_history before) (fun _ => rfl) rfl
  | vary id change _ balanced => exact balanced.congr rfl
  | cancelCompilation id _ balanced =>
    exact balanced.congr (Quiet.cancelCompilation _ id).renderer
  | cacheShaders before ran balanced =>
    exact balanced.either (linked_of_history before) (Exchanges.cacheShaders_either ran)
  | complete before ran balanced =>
    exact balanced.either (linked_of_history before) (Exchanges.complete ran)
  | finishCompilation before ran balanced =>
    exact balanced.finishCompilation (linked_of_history before) ran
  | loadInline _ ran balanced =>
    rcases Quiet.loadInline ran with ⟨_, rfl⟩ | ⟨_, middle, change, quiet, rfl⟩
    · exact balanced
    · exact balanced.congr quiet.renderer
  | publishInline id before balanced => exact balanced.publishInline (linked_of_history before) id
  | releaseMap id before balanced => exact balanced.releaseMap (linked_of_history before) id
  | discardMap _ ran balanced => exact balanced.congr (renderer_discardMap ran)
  | dropResource id before balanced =>
    exact balanced.enqueue (linked_of_history before) (fun _ => rfl) rfl
  | elsewhere _ renderer _ balanced => exact balanced.congr renderer
  | enqueue command before elsewhere balanced =>
    refine balanced.enqueue (linked_of_history before) (fun resource => ?_) rfl
    refine RenderCommand.sendsTo_other ?_
    rw [elsewhere]
    exact (Option.some_ne_none resource).symm
  | carryOut _ queued ran balanced => exact fun resource => (balanced resource).apply queued ran
  | upkeep _ rests balanced => exact fun resource => (balanced resource).upkeep rests

/-- The queue is carried out a command at a time. -/
theorem History.processCommands (history : History unsent system) {count : Nat}
    {renderer : Renderer} (ran : system.renderer.processCommands = .ok (count, renderer)) :
    History unsent { system with renderer } := by
  obtain ⟨world, carried, same⟩ := bind_eq_ok.mp ran
  cases same
  exact foldlM_invariant
    (motive := fun rest world => History unsent { system with
      renderer := { system.renderer with world, queue := rest } })
    (fun command rest world next before applied => before.carryOut rfl applied)
    _ system.renderer.world world history carried

/-! ### Discarding -/

/-- At any moment the binding of a resource counts just the maps that are queued for it and says
whether the renderer has a map. So a map is discarded just where the renderer has none and none
is queued; the renderer hears nothing of it, and where it is refused nothing changes at all. -/
theorem discard_is_safe (history : History unsent system) (id : ResourceId) :
    (system.renderer.world.bindingOf id).pending = system.renderer.queuedFor id ∧
    (system.renderer.world.bindingOf id).bound = (system.renderer.world.mapOf id).isSome ∧
    ((∃ next, system.discardMap id = (.ok (), next)) ↔ system.renderer.world.mapOf id = none ∧
      ∀ command ∈ system.renderer.queue, ¬ command.sendsTo id) ∧
    (∀ next, system.discardMap id = (.ok (), next) → next.renderer = system.renderer ∧
      next.offered id = (system.offered id).map fun _ => none) ∧
    (∀ failure next, system.discardMap id = (.error failure, next) →
      failure = .mapStillBound id ∧ next = system) := by
  have balanced := balanced_of_history history id
  refine ⟨balanced.pending, balanced.bound_eq_isSome_mapOf, ?_, fun next ran => ?_,
    fun failure next refused => ?_⟩
  · rw [← balanced.isQuiescent_iff]
    exact exists_discardMap_iff
  · refine ⟨renderer_discardMap ran, ?_⟩
    rw [offered_discardMap ran, if_pos rfl]
  · unfold discardMap at refused
    split at refused
    · cases refused
    · cases refused
      exact ⟨rfl, rfl⟩

/-- The material of `lone` is compiled, and the renderer gets its map. Discarding the map is
refused then, and still refused when its release is on the way; once that has got to the
renderer as well, the map may be discarded. -/
theorem lone_discard : ∃ held released idle,
    History [] held ∧ (held.renderer.world.bindingOf .first).bound ∧
      (held.renderer.world.mapOf .first).isSome ∧
    History [] released ∧ (released.renderer.world.bindingOf .first).pending = 1 ∧
      released.renderer.queuedFor .first = 1 ∧
    History [] idle ∧ idle.renderer.world.mapOf .first = none ∧
      ∃ next, idle.discardMap .first = (.ok (), next) := by
  have played : (lone.cacheShaders .first).bind (fun cached =>
      cached.2.renderer.processCommands.bind fun first =>
        let held : System := { cached.2 with renderer := first.2 }
        let released := held.releaseMap .first
        released.renderer.processCommands.map fun second =>
          let idle : System := { released with renderer := second.2 }
          ((held.renderer.world.bindingOf .first).bound,
            (released.renderer.world.bindingOf .first).pending,
            (idle.renderer.world.bindingOf .first).isQuiescent)) = .ok (true, 1, true) := by
    cbv
  obtain ⟨⟨ready, cached⟩, ran, played⟩ := bind_eq_ok.mp played
  obtain ⟨⟨count, renderer⟩, drained, played⟩ := bind_eq_ok.mp played
  obtain ⟨⟨count', renderer'⟩, drained', played⟩ := map_eq_ok.mp played
  obtain ⟨bound, played⟩ := Prod.mk.inj played
  obtain ⟨pending, quiescent⟩ := Prod.mk.inj played
  have held := (lone_history.cacheShaders ran).processCommands drained
  have released := held.releaseMap .first
  have idle := released.processCommands drained'
  have discards := exists_discardMap_iff.mpr quiescent
  obtain ⟨counted, -⟩ := discard_is_safe released .first
  obtain ⟨-, kept, -⟩ := discard_is_safe held .first
  obtain ⟨-, -, free, -⟩ := discard_is_safe idle .first
  exact ⟨_, _, _, held, bound, kept ▸ bound, released, pending, counted ▸ pending, idle,
    (free.mp discards).1, discards⟩

end Shading.System
