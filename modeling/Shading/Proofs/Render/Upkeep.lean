/-
Upkeep: what the render world does between changes of its contents. Caches are
emptied, proxies are put on the list of those to be looked at, and caches are
rebuilt. However these are strung together, all of it is made of three moves:
writing the list, emptying caches and installing a rebuilt one. So what the
moves keep, all of upkeep keeps, and that is said here once.
-/

import Shading.Proofs.Render.Building
import Shading.Proofs.Render.Chain
import Shading.Render.Freshness

namespace Shading.World

/-- The cache of a proxy for a tier, if the proxy is there. -/
def cacheOf (world : World) (proxy : ProxyId) (tier : Tier) : Option UniformCache :=
  (world.proxies.get? proxy).map fun owner => owner.caches.get tier

/-! ### What the moves change -/

section Moves

variable (world : World) (recreate : Bool) (proxy : ProxyId) (owner : RenderProxy) (tier : Tier)
  (resource : ResourceId) (rebuilt : UniformCache.Rebuilt)

theorem install_proxies :
    (world.install proxy tier owner resource rebuilt).proxies =
      world.proxies.insert proxy { owner with caches := owner.caches.set tier rebuilt.cache } := by
  unfold install recordBuild
  dsimp only
  split <;> rfl

theorem install_materials :
    (world.install proxy tier owner resource rebuilt).materials = world.materials := by
  unfold install recordBuild
  dsimp only
  split <;> rfl

theorem install_bindings :
    (world.install proxy tier owner resource rebuilt).bindings = world.bindings := by
  unfold install recordBuild
  dsimp only
  split <;> rfl

theorem install_children :
    (world.install proxy tier owner resource rebuilt).children = world.children := by
  unfold install recordBuild
  dsimp only
  split <;> rfl

theorem install_users :
    (world.install proxy tier owner resource rebuilt).users = world.users := by
  unfold install recordBuild
  dsimp only
  split <;> rfl

theorem install_deferred :
    (world.install proxy tier owner resource rebuilt).deferred = world.deferred := by
  unfold install recordBuild
  dsimp only
  split <;> rfl

theorem install_deferring :
    (world.install proxy tier owner resource rebuilt).deferring = world.deferring := by
  unfold install recordBuild
  dsimp only
  split <;> rfl

theorem install_activeTiers :
    (world.install proxy tier owner resource rebuilt).activeTiers = world.activeTiers := by
  unfold install recordBuild
  dsimp only
  split <;> rfl

theorem install_streaming :
    (world.install proxy tier owner resource rebuilt).streaming =
      releaseSubscriptions rebuilt.streaming (owner.caches.set tier rebuilt.cache) proxy
        rebuilt.dropped := by
  unfold install recordBuild
  dsimp only
  split <;> rfl

/-- What a cache was built from is noted under its resource, unless it was noted there before,
and no other note is touched. -/
theorem install_builtFrom :
    (world.install proxy tier owner resource rebuilt).builtFrom =
      if (owner.caches.get tier).resource = some resource then world.builtFrom
      else
        Index.push
          (match (owner.caches.get tier).resource with
            | some previous => Index.remove world.builtFrom previous (proxy, tier)
            | none => world.builtFrom)
          resource (proxy, tier) := by
  unfold install recordBuild
  dsimp only
  split <;> rfl

theorem mem_install_builtFrom {world : World} {owner : RenderProxy}
    (before : (owner.caches.get tier).resource = some resource →
      (proxy, tier) ∈ Index.entriesOf world.builtFrom resource) :
    (proxy, tier) ∈
      Index.entriesOf (world.install proxy tier owner resource rebuilt).builtFrom resource := by
  rw [install_builtFrom]
  split
  · rename_i same
    exact before same
  · rw [Index.entriesOf_push, if_pos rfl]
    exact List.mem_append_right _ (List.mem_singleton.mpr rfl)

theorem mem_install_builtFrom_other {world : World} {note : ProxyId × Tier} {key : ResourceId}
    (member : note ∈ Index.entriesOf world.builtFrom key) (other : note ≠ (proxy, tier)) :
    note ∈ Index.entriesOf (world.install proxy tier owner resource rebuilt).builtFrom key := by
  have left (previous : ResourceId) :
      note ∈ Index.entriesOf (Index.remove world.builtFrom previous (proxy, tier)) key := by
    rw [Index.entriesOf_remove]
    split
    · rename_i same
      rw [same] at member
      exact List.mem_filter.mpr ⟨member, by simpa using other⟩
    · exact member
  rw [install_builtFrom]
  split
  · exact member
  · rw [Index.entriesOf_push]
    split
    · rename_i same
      refine List.mem_append_left _ ?_
      rw [← same]
      split
      · exact left _
      · exact member
    · split
      · exact left _
      · exact member

/-- A proxy that is written anew with the caches it had. -/
theorem cacheOf_insert {world next : World} {proxy : ProxyId} {owner other : RenderProxy}
    (found : world.proxies.get? proxy = some owner)
    (written : next.proxies = world.proxies.insert proxy other)
    (same : other.caches = owner.caches) : next.cacheOf = world.cacheOf := by
  funext low tier
  unfold cacheOf
  rw [written, Table.get?_insert]
  split
  · rename_i here
    rw [here, found, Option.map_some, Option.map_some, same]
  · rfl

theorem cacheOf_install (found : world.proxies.get? proxy = some owner) (other : ProxyId)
    (level : Tier) :
    (world.install proxy tier owner resource rebuilt).cacheOf other level =
      if other = proxy ∧ level = tier then some rebuilt.cache else world.cacheOf other level := by
  unfold cacheOf
  rw [install_proxies, Table.get?_insert]
  by_cases same : other = proxy
  · rw [if_pos same, same, found, Option.map_some, PerTier.get_set]
    by_cases here : level = tier <;> simp [here]
  · rw [if_neg same, if_neg fun both => same both.1]

theorem dropCaches_proxies :
    (world.dropCaches recreate proxy owner).proxies =
      world.proxies.insert proxy
        { owner with caches := owner.caches.map fun cache => cache.invalidate recreate } := rfl

theorem dropCache_proxies :
    (world.dropCache recreate proxy owner tier).proxies =
      world.proxies.insert proxy { owner with
        caches := owner.caches.set tier ((owner.caches.get tier).invalidate recreate) } := rfl

theorem cacheOf_dropCaches (found : world.proxies.get? proxy = some owner) (other : ProxyId)
    (level : Tier) :
    (world.dropCaches recreate proxy owner).cacheOf other level =
      if other = proxy then (world.cacheOf other level).map (·.invalidate recreate)
      else world.cacheOf other level := by
  unfold cacheOf
  rw [dropCaches_proxies, Table.get?_insert]
  by_cases same : other = proxy
  · rw [if_pos same, if_pos same, same, found, Option.map_some, PerTier.get_map]
    rfl
  · rw [if_neg same, if_neg same]

theorem cacheOf_dropCache (found : world.proxies.get? proxy = some owner) (other : ProxyId)
    (level : Tier) :
    (world.dropCache recreate proxy owner tier).cacheOf other level =
      if other = proxy ∧ level = tier then (world.cacheOf other level).map (·.invalidate recreate)
      else world.cacheOf other level := by
  unfold cacheOf
  rw [dropCache_proxies, Table.get?_insert]
  by_cases same : other = proxy
  · rw [if_pos same, same, found, Option.map_some, PerTier.get_set]
    by_cases here : level = tier <;> simp [here]
  · rw [if_neg same, if_neg fun both => same both.1]

end Moves

/-! ### What upkeep keeps -/

theorem ownDrawable_eq_some {world : World} {proxy : ProxyId} {tier : Tier}
    {drawable : Drawable} (draws : world.ownDrawable proxy tier = some drawable) :
    world.resolve proxy tier = some drawable.resource ∧
      world.mapOf drawable.resource = some drawable.map := by
  obtain ⟨resource, resolved, draws⟩ := Option.bind_eq_some_iff.mp draws
  obtain ⟨shared, held, draws⟩ := Option.bind_eq_some_iff.mp draws
  cases draws
  exact ⟨resolved, held⟩

/-- Something about a world that lasts when a cache is rebuilt. -/
structure Installing (holds : World → Prop) : Prop where
  installed : ∀ (world : World) proxy tier drawable owner rebuilt, holds world →
    world.ownDrawable proxy tier = some drawable → world.proxies.get? proxy = some owner →
    (owner.caches.get tier).rebuild proxy drawable.resource drawable.map
      (world.proxies.parameters proxy) world.streaming world.nextBuffer = .ok rebuilt →
    holds (world.install proxy tier owner drawable.resource rebuilt)

/-- Something about a world that also lasts when the list of deferred proxies is written. -/
structure Lasting (holds : World → Prop) : Prop extends Installing holds where
  deferred : ∀ world pending, holds world → holds { world with deferred := pending }

section

variable {holds : World → Prop} {world next : World} {proxy : ProxyId} {tier : Tier}

namespace Installing

theorem evaluate {built : Bool} (installing : Installing holds) (before : holds world)
    (ran : world.evaluate proxy tier = .ok (built, next)) : holds next := by
  unfold World.evaluate at ran
  split at ran
  · rename_i drawable owner draws found
    obtain ⟨rebuilt, rebuild, ran⟩ := bind_eq_ok.mp ran
    cases ran
    exact installing.installed world proxy tier drawable owner rebuilt before draws found rebuild
  · cases ran
    exact before

theorem updateIfNeeded (installing : Installing holds) (before : holds world)
    (ran : world.updateIfNeeded proxy tier = .ok next) : holds next := by
  unfold World.updateIfNeeded at ran
  split at ran
  · split at ran
    · cases ran
      exact before
    · obtain ⟨⟨built, world⟩, evaluated, rfl⟩ := map_eq_ok.mp ran
      exact installing.evaluate before evaluated
  · cases ran
    exact before

theorem updateActive (installing : Installing holds) (before : holds world)
    (ran : world.updateActive proxy = .ok next) : holds next :=
  foldlM_kept (fun _ _ _ before ran => installing.updateIfNeeded before ran) _ _ _ before ran

theorem prepareDraw {drawn : Option Drawable} (installing : Installing holds)
    (before : holds world) (ran : world.prepareDraw proxy tier = .ok (drawn, next)) :
    holds next := by
  obtain ⟨drawable, _, ran⟩ := bind_eq_ok.mp ran
  cases drawable with
  | none =>
    cases ran
    exact before
  | some drawable =>
    obtain ⟨updated, update, ran⟩ := bind_eq_ok.mp ran
    cases ran
    exact installing.updateIfNeeded before update

end Installing

namespace Lasting

theorem updateDeferred {count : Nat} (lasting : Lasting holds) (before : holds world)
    (ran : world.updateDeferred = .ok (count, next)) : holds next := by
  obtain ⟨updated, updates, ran⟩ := bind_eq_ok.mp ran
  cases ran
  exact foldlM_kept (fun _ _ _ before ran => lasting.updateActive before ran) _ _ _
    (lasting.deferred world [] before) updates

theorem markStale (lasting : Lasting holds) (before : holds world)
    (ran : world.markStale proxy = .ok next) : holds next := by
  unfold World.markStale at ran
  split at ran
  · cases ran
    split
    · exact before
    · exact lasting.deferred world _ before
  · exact lasting.updateActive before ran

/-- It is enough to look at the world whose caches have just been emptied. -/
theorem invalidate {recreate : Bool} (lasting : Lasting holds)
    (gone : world.proxies.get? proxy = none → holds world)
    (dropped : ∀ owner, world.proxies.get? proxy = some owner →
      holds (world.dropCaches recreate proxy owner))
    (ran : world.invalidate recreate proxy = .ok next) : holds next := by
  unfold World.invalidate at ran
  split at ran
  · rename_i missing
    cases ran
    exact gone missing
  · rename_i owner found
    exact lasting.markStale (dropped owner found) ran

theorem invalidateTier {recreate : Bool} (lasting : Lasting holds)
    (gone : world.proxies.get? proxy = none → holds world)
    (dropped : ∀ owner, world.proxies.get? proxy = some owner →
      holds (world.dropCache recreate proxy owner tier))
    (ran : world.invalidateTier recreate proxy tier = .ok next) : holds next := by
  unfold World.invalidateTier at ran
  split at ran
  · rename_i missing
    cases ran
    exact gone missing
  · rename_i owner found
    exact lasting.markStale (dropped owner found) ran

/-! ### Faults -/

section

variable {expected : Fault → Prop} {fault : Fault} {recreate : Bool} (lasting : Lasting holds)
  (rebuilding : ∀ world proxy tier fault, holds world →
    world.evaluate proxy tier = .error fault → expected fault)

include rebuilding in
theorem expected_of_updateIfNeeded (before : holds world)
    (ran : world.updateIfNeeded proxy tier = .error fault) : expected fault := by
  unfold World.updateIfNeeded at ran
  split at ran
  · split at ran
    · cases ran
    · exact rebuilding world proxy tier fault before (map_eq_error.mp ran)
  · cases ran

include lasting rebuilding

theorem expected_of_updateActive (before : holds world)
    (ran : world.updateActive proxy = .error fault) : expected fault := by
  obtain ⟨tier, _, later, before, failed⟩ := foldlM_error
    (fun _ _ _ before stepped => lasting.updateIfNeeded before stepped) _ _ before ran
  exact expected_of_updateIfNeeded rebuilding before failed

theorem expected_of_updateDeferred (before : holds world)
    (ran : world.updateDeferred = .error fault) : expected fault := by
  rcases bind_eq_error.mp ran with failed | ⟨_, _, ends⟩
  · obtain ⟨proxy, _, later, before, failed⟩ := foldlM_error
      (fun _ _ _ before stepped => lasting.updateActive before stepped) _ _
      (lasting.deferred world [] before) failed
    exact lasting.expected_of_updateActive rebuilding before failed
  · cases ends

/-- Nothing goes wrong as long as stale caches wait. -/
theorem expected_of_markStale (before : holds world)
    (ran : world.markStale proxy = .error fault) : world.deferring = false ∧ expected fault := by
  unfold World.markStale at ran
  split at ran
  · cases ran
  · rename_i soon
    exact ⟨Bool.eq_false_iff.mpr soon, lasting.expected_of_updateActive rebuilding before ran⟩

theorem expected_of_invalidate
    (dropped : ∀ owner, world.proxies.get? proxy = some owner →
      holds (world.dropCaches recreate proxy owner))
    (ran : world.invalidate recreate proxy = .error fault) :
    world.deferring = false ∧ expected fault := by
  unfold World.invalidate at ran
  split at ran
  · cases ran
  · rename_i owner found
    obtain ⟨soon, fails⟩ := lasting.expected_of_markStale rebuilding (dropped owner found) ran
    exact ⟨soon, fails⟩

theorem expected_of_invalidateTier
    (dropped : ∀ owner, world.proxies.get? proxy = some owner →
      holds (world.dropCache recreate proxy owner tier))
    (ran : world.invalidateTier recreate proxy tier = .error fault) :
    world.deferring = false ∧ expected fault := by
  unfold World.invalidateTier at ran
  split at ran
  · cases ran
  · rename_i owner found
    obtain ⟨soon, fails⟩ := lasting.expected_of_markStale rebuilding (dropped owner found) ran
    exact ⟨soon, fails⟩

end

end Lasting

end

/-! ### Resources rest -/

/-- Neither the resources of a world nor their bindings have changed. -/
structure Rests (world next : World) : Prop where
  materials : next.materials = world.materials
  bindings : next.bindings = world.bindings

namespace Rests

variable {world next : World} {proxy : ProxyId} {tier : Tier} {recreate : Bool}

theorem lasting : Lasting (Rests world) where
  deferred := fun _ _ rests => ⟨rests.materials, rests.bindings⟩
  installed := fun _ _ _ _ _ _ rests _ _ _ =>
    ⟨(install_materials ..).trans rests.materials, (install_bindings ..).trans rests.bindings⟩

theorem invalidate {before : World} (rests : Rests world before)
    (ran : before.invalidate recreate proxy = .ok next) : Rests world next :=
  lasting.invalidate (fun _ => rests) (fun _ _ => ⟨rests.materials, rests.bindings⟩) ran

theorem invalidateTier {before : World} (rests : Rests world before)
    (ran : before.invalidateTier recreate proxy tier = .ok next) : Rests world next :=
  lasting.invalidateTier (fun _ => rests) (fun _ _ => ⟨rests.materials, rests.bindings⟩) ran

theorem invalidateFamily {before : World} (rests : Rests world before)
    (ran : before.invalidateFamily proxy = .ok next) : Rests world next :=
  foldlM_kept (fun _ _ _ rests stepped => rests.invalidate stepped) _ before next rests ran

theorem invalidateDependents {before : World} {resource : ResourceId} (rests : Rests world before)
    (ran : before.invalidateDependents resource tier recreate = .ok next) : Rests world next :=
  foldlM_kept (fun _ _ _ rests stepped => rests.invalidateTier stepped) _ before next rests ran

end Rests

end Shading.World
