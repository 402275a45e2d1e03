/-
Streaming textures while caches come and go. Upkeep takes allocations and gives
them back, and it changes who is told of the producers. Which producers there
are, what answers for which texture and what was allocated together with a
producer is left as it was: a cache frees nothing but its own. So only the
commands that create and destroy producers change any of this.
-/

import Shading.Proofs.Render.Composing
import Shading.Proofs.Render.Ownership
import Shading.Proofs.Render.Warranty

namespace Shading

namespace World

open UniformCache (Apart freeAll)

variable {reference : Streaming} {world next : World} {produced : List ProducerId}
  {excused : ProxyId → ProducerId → Prop}

/-- What a cache owns belongs to no producer. -/
theorem Attended.apart (attended : Attended produced excused world) (proxy : ProxyId)
    (tier : Tier) : Apart (world.owned (.cache proxy tier)) world.streaming := by
  intro allocation member id producer live made
  refine nomatch attended.apportioned.apart allocation _ (.producer id) member ?_
  rw [owned_producer live, Option.bind_some, made]
  exact List.mem_singleton.mpr rfl

/-- The streaming textures are in order and have the same producers as some others. -/
structure Furnished (reference : Streaming) (world : World) : Prop where
  attended : ∃ produced excused, Attended produced excused world
  equipped : world.streaming.Equipped
  bare : world.streaming.bare = reference.bare
  byTexture : world.streaming.byTexture = reference.byTexture

namespace Furnished

theorem apart (furnished : Furnished reference world) (proxy : ProxyId) (tier : Tier) :
    Apart (world.owned (.cache proxy tier)) world.streaming := by
  obtain ⟨produced, excused, attended⟩ := furnished.attended
  exact attended.apart proxy tier

theorem alike (furnished : Furnished reference world) (textures : List TextureId) :
    UniformCache.Alike textures world.streaming reference :=
  .of_bare furnished.bare.symm furnished.byTexture.symm

/-- The producers that matter are those that are there. -/
theorem settled (furnished : Furnished reference world) : Furnished world.streaming world :=
  ⟨furnished.attended, furnished.equipped, rfl, rfl⟩

theorem congr (furnished : Furnished reference world) (caches : next.cacheOf = world.cacheOf)
    (streaming : next.streaming = world.streaming) : Furnished reference next := by
  obtain ⟨produced, excused, attended⟩ := furnished.attended
  refine ⟨⟨produced, excused, attended.congr caches streaming⟩, ?_, ?_, ?_⟩ <;> rw [streaming]
  · exact furnished.equipped
  · exact furnished.bare
  · exact furnished.byTexture

/-- Caches give back what they own. -/
theorem freed (furnished : Furnished reference world) (allocations : List AllocationId)
    (attended : ∃ produced excused, Attended produced excused next)
    (mine : ∀ allocation ∈ allocations, ∃ proxy tier, allocation ∈ world.owned (.cache proxy tier))
    (retold : Streaming.Retold (freeAll world.streaming allocations) next.streaming) :
    Furnished reference next := by
  refine ⟨attended, (furnished.equipped.freeAll fun allocation member => ?_).retold retold, ?_, ?_⟩
  · obtain ⟨proxy, tier, owned⟩ := mine allocation member
    exact furnished.apart proxy tier allocation owned
  · rw [retold.bare, Streaming.freeAll_eq]
    exact furnished.bare
  · rw [retold.byTexture, Streaming.freeAll_eq]
    exact furnished.byTexture

theorem lasting : Lasting (Furnished reference) where
  deferred := fun _ _ furnished => furnished.congr rfl rfl
  installed := by
    intro world proxy tier drawable owner rebuilt furnished draws found ran
    obtain ⟨produced, excused, attended⟩ := furnished.attended
    have mine := attended.apart proxy tier
    rw [owned_of_found found] at mine
    have renews := UniformCache.rebuild_renews ran
    have equipped := (UniformCache.rebuild_parts furnished.equipped mine ran).1
    have released := releaseSubscriptions_retold rebuilt.streaming
      (owner.caches.set tier rebuilt.cache) proxy rebuilt.dropped
    rw [← install_streaming world proxy owner tier drawable.resource rebuilt] at released
    refine ⟨⟨produced, excused, Attended.lasting.installed world proxy tier drawable owner rebuilt
      attended draws found ran⟩, equipped.retold released, ?_, ?_⟩
    · rw [released.bare, renews.bare, furnished.bare]
    · rw [released.byTexture, renews.byTexture, furnished.byTexture]

theorem dropCaches {proxy : ProxyId} {owner : RenderProxy} (recreate : Bool)
    (furnished : Furnished reference world) (found : world.proxies.get? proxy = some owner) :
    Furnished reference (world.dropCaches recreate proxy owner) := by
  obtain ⟨produced, excused, attended⟩ := furnished.attended
  refine furnished.freed _ ⟨produced, _, attended.dropCaches found⟩
    (fun allocation member => ⟨proxy, (mem_allocations found allocation).mp member⟩) ?_
  rw [← freeCaches_eq]
  exact .unsubscribeAll _ proxy

theorem dropCache {proxy : ProxyId} {owner : RenderProxy} (tier : Tier) (recreate : Bool)
    (furnished : Furnished reference world) (found : world.proxies.get? proxy = some owner) :
    Furnished reference (world.dropCache recreate proxy owner tier) := by
  obtain ⟨produced, excused, attended⟩ := furnished.attended
  refine furnished.freed (world.owned (.cache proxy tier))
    ⟨produced, excused, attended.dropCache found⟩
    (fun allocation member => ⟨proxy, tier, member⟩) ?_
  rw [owned_of_found found]
  exact releaseSubscriptions_retold ..

theorem attach {proxy : ProxyId} (kind : ProxyKind) (furnished : Furnished reference world)
    (fresh : world.proxies.get? proxy = none) : Furnished reference (world.attach proxy kind) := by
  obtain ⟨produced, excused, attended⟩ := furnished.attended
  refine ⟨⟨produced, excused, attended.attach fresh kind⟩, ?_, ?_, ?_⟩ <;> rw [attach_streaming]
  · exact furnished.equipped
  · exact furnished.bare
  · exact furnished.byTexture

theorem without (proxy : ProxyId) (furnished : Furnished reference world) :
    Furnished reference (world.without proxy) := by
  obtain ⟨produced, excused, attended⟩ := furnished.attended
  obtain ⟨allocations, all, streaming⟩ := without_streaming world proxy
  refine furnished.freed allocations ⟨produced, excused, attended.without⟩
    (fun allocation member => ⟨proxy, (all allocation).mp member⟩) ?_
  rw [streaming]
  exact .unsubscribeAll _ proxy

/-- There is nothing else that caches could be promised. -/
theorem warranty : Warranty (fun _ _ _ _ _ => True) (Furnished reference) where
  lasting
  rebuilt := fun _ _ _ _ => trivial
  congr := fun furnished => furnished.congr
  dropCaches := fun recreate furnished => furnished.dropCaches recreate
  dropCache := fun tier recreate furnished => furnished.dropCache tier recreate
  attach := fun kind furnished => furnished.attach kind
  without := fun proxy furnished => furnished.without proxy

/-! ### Commands -/

/-- Of the commands only those about producers matter. -/
theorem carryOut {operation : Operation} {past : List Operation}
    (furnished : Furnished reference world)
    (sound : Sound (Operation.createdBy past) (Operation.registeredBy past) world)
    (may : operation.MayFollow past) (apart : operation.producer? = none)
    (ran : operation.carryOut world = .ok next) : Furnished reference next :=
  warranty.carryOut furnished sound may apart ran

theorem createProducer {id : ProducerId} (furnished : Furnished reference world)
    (attended : Attended produced (fun _ _ => False) world) (new : id ∉ produced)
    (texture : TextureId) (tile border : UInt32) (preallocates : Bool) :
    Furnished (world.streaming.createProducer id texture tile border preallocates)
      (world.createProducer id texture tile border preallocates) :=
  ⟨⟨_, _, attended.createProducer new texture tile border preallocates⟩,
    furnished.equipped.createProducer id texture tile border preallocates, rfl, rfl⟩

/-- A world whose producer is gone, its subscribers not yet told. -/
theorem destroyed {id : ProducerId} {producer : StreamingProducer}
    (furnished : Furnished reference world)
    (attended : Attended produced (fun _ _ => False) world)
    (found : world.streaming.producers.get? id = some producer) :
    Furnished (world.streaming.destroyProducer id).2
      { world with streaming := (world.streaming.destroyProducer id).2 } := by
  refine ⟨⟨_, _, attended.destroyed found⟩, furnished.equipped.destroyProducer ?_, rfl, rfl⟩
  intro allocation other owner its here there mine same
  have both := attended.apportioned.apart allocation (.producer other) (.producer id)
    (by rw [owned_producer there, Option.bind_some, same]; exact List.mem_singleton.mpr rfl)
    (by rw [owned_producer here, Option.bind_some, mine]; exact List.mem_singleton.mpr rfl)
  cases both
  rfl

/-- So also where there was no such producer. -/
theorem unproduced (furnished : Furnished reference world)
    (attended : Attended produced (fun _ _ => False) world) (id : ProducerId) :
    Furnished (world.streaming.destroyProducer id).2
      { world with streaming := (world.streaming.destroyProducer id).2 } := by
  cases found : world.streaming.producers.get? id with
  | none =>
    rw [Streaming.destroyProducer_absent found]
    exact furnished.settled
  | some producer => exact furnished.destroyed attended found

theorem destroyProducer {id : ProducerId} (furnished : Furnished reference world)
    (attended : Attended produced (fun _ _ => False) world)
    (ran : world.destroyProducer id = .ok next) :
    Furnished (world.streaming.destroyProducer id).2 next :=
  foldlM_kept (fun _ _ _ furnished stepped => warranty.invalidate furnished stepped) _ _ _
    (furnished.unproduced attended id) ran

end Furnished

end World

/-! ### Runs -/

namespace Run

open World

variable {deferring : Bool} {activeTiers : List Tier} {past : List Operation} {world next : World}
  {operation : Operation}

/-- A producer that is created has not been created before. -/
theorem producer_new (once : (Operation.producedBy (past ++ [operation])).Nodup) :
    (Operation.producedBy past).Nodup ∧
      ∀ id ∈ operation.produces?, id ∉ Operation.producedBy past := by
  unfold Operation.producedBy at once
  rw [List.flatMap_append, List.flatMap_singleton] at once
  obtain ⟨before, _, apart⟩ := List.nodup_append.mp once
  exact ⟨before, fun id produces there => apart id there id (Option.mem_toList.mpr produces) rfl⟩

/-- The streaming textures of a run are in order. -/
theorem furnished (run : Run deferring activeTiers past world)
    (once : (Operation.producedBy past).Nodup) : Furnished world.streaming world := by
  induction run with
  | start =>
    refine ⟨⟨_, _, .start deferring activeTiers⟩, ⟨?_, ?_⟩, rfl, rfl⟩ <;>
      exact fun _ _ _ found => nomatch found
  | @step past world operation next run may ran inductionHypothesis =>
    obtain ⟨before, new⟩ := producer_new once
    have furnished := inductionHypothesis before
    have attended := run.attended before
    suffices kept : ∃ reference, Furnished reference next by
      obtain ⟨reference, kept⟩ := kept
      exact kept.settled
    have counted : Furnished world.streaming
        (world.count fun stats => { stats with commands := stats.commands + 1 }) :=
      furnished.congr rfl rfl
    have steady : Attended (Operation.producedBy past) (fun _ _ => False)
        (world.count fun stats => { stats with commands := stats.commands + 1 }) :=
      attended.congr rfl rfl
    rcases operation.producer_cases with apart | ⟨id, texture, tile, border, preallocates, rfl⟩ |
      ⟨id, rfl⟩
    · exact ⟨_, furnished.carryOut run.sound may apart ran⟩
    · cases ran
      exact ⟨_, counted.createProducer steady (new id rfl) texture tile border preallocates⟩
    · exact ⟨_, counted.destroyProducer steady ran⟩

end Run

end Shading
