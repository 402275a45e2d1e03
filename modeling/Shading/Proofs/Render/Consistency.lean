/-
The consistency of a render world: the index of children leads from every proxy
to all that hang on it, the notes of what was built from a resource lead to every
cache that was, and every valid cache serves what its proxy draws with now. A
change of the world may leave caches behind that are valid and serve something
else; they are called stale, and whoever makes the change has to invalidate them.
-/

import Shading.Proofs.Render.Upkeep

namespace Shading.World

variable {created : List ProxyId} {registered : List ResourceId} {kinds : Kinds}
  {stale : ProxyId → Tier → Prop} {world next : World}

/-! ### What there is -/

theorem length_flatMap_childrenOf_le (world : World) (met : List ProxyId) (distinct : met.Nodup) :
    (met.flatMap world.childrenOf).length ≤ Index.total world.children := by
  refine le_of_eq_of_le ?_ (Index.length_flatMap_entriesOf_le world.children met distinct)
  rw [List.length_flatMap, List.length_flatMap]
  exact congrArg List.sum (List.map_congr_left fun proxy _ => List.length_mergeSort _)

/-- The proxies and materials of a world, apart from the caches. Proxies are numbered by the
order in which they were created, so that parents come first. -/
structure Arranged (created : List ProxyId) (registered : List ResourceId) (kinds : Kinds)
    (world : World) : Prop where
  kinds_eq : world.proxies.kinds = kinds
  known : ∀ proxy kind, kinds proxy = some kind → proxy ∈ created
  ranked : kinds.Ranked created.idxOf
  children : ∀ child parent, kinds.Hangs child parent → (kinds parent).isSome →
    child ∈ Index.entriesOf world.children parent
  registered : ∀ resource material, world.materials.get? resource = some material →
    resource ∈ registered
  compiled : ∀ resource shared, world.mapOf resource = some shared → shared.map.isCompiled

namespace Arranged

/-- A change of the proxies leaves the resources as they are. -/
theorem regroup {known : List ProxyId} {others : Kinds}
    (arranged : Arranged created registered kinds world) (same : next.proxies.kinds = others)
    (live : ∀ proxy kind, others proxy = some kind → proxy ∈ known)
    (ranked : others.Ranked known.idxOf)
    (children : ∀ child parent, others.Hangs child parent → (others parent).isSome →
      child ∈ Index.entriesOf next.children parent)
    (sameMaterials : next.materials = world.materials) :
    Arranged known registered others next where
  kinds_eq := same
  known := live
  ranked := ranked
  children := children
  registered := sameMaterials ▸ arranged.registered
  compiled := by
    unfold mapOf
    exact sameMaterials ▸ arranged.compiled

theorem congr (arranged : Arranged created registered kinds world)
    (sameKinds : next.proxies.kinds = world.proxies.kinds)
    (sameChildren : next.children = world.children)
    (sameMaterials : next.materials = world.materials) :
    Arranged created registered kinds next :=
  arranged.regroup (sameKinds.trans arranged.kinds_eq) arranged.known arranged.ranked
    (sameChildren ▸ arranged.children) sameMaterials

theorem resolve_iff (arranged : Arranged created registered kinds world) (proxy : ProxyId)
    (tier : Tier) (resource : ResourceId) :
    world.resolve proxy tier = some resource ↔ kinds.Draws tier proxy resource := by
  have ranked := arranged.ranked
  rw [← arranged.kinds_eq] at ranked
  rw [World.resolve_iff ranked, arranged.kinds_eq]

/-- The family of a live proxy is complete. -/
theorem mem_family (arranged : Arranged created registered kinds world) {low high : ProxyId}
    (below : kinds.Below low high) (live : (kinds high).isSome) : low ∈ world.family high := by
  have closed := reachable_closed (length_flatMap_childrenOf_le world) [high]
  induction below using Relation.ReflTransGen.head_induction_on with
  | refl => exact closed.1 high List.mem_cons_self
  | head hangs below inductionHypothesis =>
    rename_i child parent
    have parentLive : (kinds parent).isSome := by
      rcases Relation.ReflTransGen.cases_head below with rfl | ⟨_, ⟨kind, found, _⟩, _⟩
      · exact live
      · rw [found]
        rfl
    refine closed.2 parent inductionHypothesis child ?_
    exact List.mem_mergeSort.mpr (arranged.children child parent hangs parentLive)

end Arranged

/-! ### What was built from what -/

/-- Every cache is noted under the resource it was built from, as long as that is registered. -/
structure Noted (registered : List ResourceId) (world : World) : Prop where
  registered : ∀ proxy tier cache resource, world.cacheOf proxy tier = some cache →
    cache.resource = some resource → resource ∈ registered
  noted : ∀ proxy tier cache resource, world.cacheOf proxy tier = some cache →
    cache.resource = some resource → (world.materials.get? resource).isSome →
    (proxy, tier) ∈ Index.entriesOf world.builtFrom resource

/-- What was noted stays noted where no cache is built and no note about one is dropped. -/
theorem Noted.carry (noted : Noted registered world)
    (caches : ∀ proxy tier cache resource, next.cacheOf proxy tier = some cache →
      cache.resource = some resource →
      ∃ old, world.cacheOf proxy tier = some old ∧ old.resource = some resource)
    (notes : ∀ proxy tier cache resource, next.cacheOf proxy tier = some cache →
      (proxy, tier) ∈ Index.entriesOf world.builtFrom resource →
      (proxy, tier) ∈ Index.entriesOf next.builtFrom resource)
    (sameMaterials : next.materials = world.materials) : Noted registered next := by
  refine ⟨fun proxy tier cache resource there built => ?_,
    fun proxy tier cache resource there built live => notes proxy tier cache resource there ?_⟩
  · obtain ⟨old, before, same⟩ := caches proxy tier cache resource there built
    exact noted.registered proxy tier old resource before same
  · obtain ⟨old, before, same⟩ := caches proxy tier cache resource there built
    exact noted.noted proxy tier old resource before same (sameMaterials ▸ live)

/-! ### What is valid -/

/-- Whatever is valid and not stale serves the map that its proxy draws with. -/
def CurrentBut (stale : ProxyId → Tier → Prop) (kinds : Kinds) (world : World) : Prop :=
  ∀ proxy tier cache, world.cacheOf proxy tier = some cache → cache.valid →
    ¬ stale proxy tier → ∃ resource shared, kinds.Draws tier proxy resource ∧
      world.mapOf resource = some shared ∧ cache.Serves resource shared

/-- What was current stays current where its proxy still draws with the same resource. -/
theorem CurrentBut.carry {stale' : ProxyId → Tier → Prop} {others : Kinds}
    (current : CurrentBut stale kinds world)
    (caches : ∀ proxy tier cache, next.cacheOf proxy tier = some cache → cache.valid →
      ¬ stale' proxy tier → world.cacheOf proxy tier = some cache ∧ ¬ stale proxy tier)
    (draws : ∀ proxy tier cache resource, world.cacheOf proxy tier = some cache →
      ¬ stale' proxy tier → kinds.Draws tier proxy resource → others.Draws tier proxy resource)
    (sameMaterials : next.materials = world.materials) : CurrentBut stale' others next := by
  intro proxy tier cache there valid apart
  obtain ⟨before, fresh⟩ := caches proxy tier cache there valid apart
  obtain ⟨resource, shared, drawn, held, serves⟩ := current proxy tier cache before valid fresh
  refine ⟨resource, shared, draws proxy tier cache resource before apart drawn, ?_, serves⟩
  unfold mapOf
  rw [sameMaterials]
  exact held

/-- All of it together, with the stale caches named. -/
structure Consistent (created : List ProxyId) (registered : List ResourceId) (kinds : Kinds)
    (stale : ProxyId → Tier → Prop) (world : World) : Prop where
  arranged : Arranged created registered kinds world
  noted : Noted registered world
  current : CurrentBut stale kinds world

namespace Consistent

theorem congr (consistent : Consistent created registered kinds stale world)
    (sameProxies : next.proxies = world.proxies) (sameChildren : next.children = world.children)
    (sameMaterials : next.materials = world.materials)
    (sameBuilds : next.builtFrom = world.builtFrom) :
    Consistent created registered kinds stale next where
  arranged := consistent.arranged.congr (by rw [sameProxies]) sameChildren sameMaterials
  noted := {
    registered := by
      unfold cacheOf
      exact sameProxies ▸ consistent.noted.registered
    noted := by
      unfold cacheOf
      rw [sameProxies, sameMaterials, sameBuilds]
      exact consistent.noted.noted }
  current := by
    unfold CurrentBut cacheOf mapOf
    rw [sameProxies, sameMaterials]
    exact consistent.current

/-- Fewer caches may be stale than were said to be. -/
theorem weaken {stale' : ProxyId → Tier → Prop}
    (consistent : Consistent created registered kinds stale world)
    (fewer : ∀ proxy tier cache, world.cacheOf proxy tier = some cache → cache.valid →
      stale proxy tier → stale' proxy tier) :
    Consistent created registered kinds stale' world where
  arranged := consistent.arranged
  noted := consistent.noted
  current := fun proxy tier cache found valid other =>
    consistent.current proxy tier cache found valid fun old =>
      other (fewer proxy tier cache found valid old)

/-! ### Upkeep -/

/-- Rebuilding a cache makes it serve what its proxy draws with, whether or not it was stale. -/
theorem lasting : Lasting (Consistent created registered kinds stale) where
  deferred := fun _ _ consistent => consistent.congr rfl rfl rfl rfl
  installed := by
    intro world proxy tier drawable owner rebuilt consistent drawn found rebuild
    obtain ⟨resolved, held⟩ := ownDrawable_eq_some drawn
    have source := UniformCache.rebuild_resource rebuild
    have old : world.cacheOf proxy tier = some (owner.caches.get tier) := by
      unfold cacheOf
      rw [found, Option.map_some]
    have known : (world.materials.get? drawable.resource).isSome := by
      obtain ⟨material, entry, _⟩ := Option.bind_eq_some_iff.mp held
      rw [entry]
      rfl
    refine ⟨consistent.arranged.congr ?_ (install_children ..) (install_materials ..), ⟨?_, ?_⟩, ?_⟩
    · rw [install_proxies]
      exact Proxies.kinds_insert_same found rfl
    · intro other level cache resource there built
      rw [cacheOf_install _ _ _ _ _ _ found] at there
      split at there
      · cases there
        obtain ⟨material, entry⟩ := Option.isSome_iff_exists.mp known
        rw [source] at built
        cases built
        exact consistent.arranged.registered _ material entry
      · exact consistent.noted.registered other level cache resource there built
    · intro other level cache resource there built live
      rw [cacheOf_install _ _ _ _ _ _ found] at there
      rw [install_materials] at live
      split at there
      · rename_i same
        obtain ⟨rfl, rfl⟩ := same
        cases there
        rw [source] at built
        cases built
        exact mem_install_builtFrom _ _ _ _ fun before =>
          consistent.noted.noted _ _ _ _ old before live
      · rename_i different
        refine mem_install_builtFrom_other _ _ _ _ _
          (consistent.noted.noted other level cache resource there built live) fun same => ?_
        exact different (Prod.mk.inj same)
    · intro other level cache there valid current
      unfold mapOf
      rw [install_materials]
      rw [cacheOf_install _ _ _ _ _ _ found] at there
      split at there
      · rename_i same
        obtain ⟨rfl, rfl⟩ := same
        cases there
        exact ⟨drawable.resource, drawable.map, (consistent.arranged.resolve_iff ..).mp resolved,
          held, UniformCache.rebuild_serves (consistent.arranged.compiled _ _ held) rebuild⟩
      · exact consistent.current other level cache there valid current

/-- Caches that were emptied are no longer stale, since they are no longer valid. -/
theorem emptied {proxy : ProxyId} {owner other : RenderProxy} {recreate : Bool}
    {hit : ProxyId → Tier → Prop} [∀ proxy tier, Decidable (hit proxy tier)]
    (consistent : Consistent created registered kinds stale world)
    (found : world.proxies.get? proxy = some owner)
    (written : next.proxies = world.proxies.insert proxy other) (sameKind : other.kind = owner.kind)
    (sameChildren : next.children = world.children)
    (sameMaterials : next.materials = world.materials)
    (sameBuilds : next.builtFrom = world.builtFrom)
    (caches : ∀ proxy tier, next.cacheOf proxy tier =
      if hit proxy tier then (world.cacheOf proxy tier).map (·.invalidate recreate)
      else world.cacheOf proxy tier) :
    Consistent created registered kinds (fun proxy tier => stale proxy tier ∧ ¬ hit proxy tier)
      next where
  arranged := consistent.arranged.congr
    (written ▸ Proxies.kinds_insert_same found sameKind) sameChildren sameMaterials
  noted := by
    refine consistent.noted.carry (fun proxy tier cache resource there built => ?_)
      (fun _ _ _ _ _ => sameBuilds ▸ id) sameMaterials
    rw [caches] at there
    split at there
    · obtain ⟨old, was, rfl⟩ := Option.map_eq_some_iff.mp there
      exact ⟨old, was, built⟩
    · exact ⟨cache, there, built⟩
  current := by
    refine consistent.current.carry (fun proxy tier cache there valid current => ?_)
      (fun _ _ _ _ _ _ => id) sameMaterials
    rw [caches] at there
    split at there
    · obtain ⟨old, _, rfl⟩ := Option.map_eq_some_iff.mp there
      cases valid
    · rename_i missed
      exact ⟨there, fun old => current ⟨old, missed⟩⟩

/-- Invalidating a proxy leaves no stale cache at it. -/
theorem invalidate {proxy : ProxyId} {recreate : Bool}
    (consistent : Consistent created registered kinds stale world)
    (ran : world.invalidate recreate proxy = .ok next) :
    Consistent created registered kinds (fun other tier => stale other tier ∧ other ≠ proxy)
      next := by
  refine lasting.invalidate (fun missing => ?_) (fun owner found => ?_) ran
  · refine consistent.weaken fun other tier cache there _ old => ⟨old, ?_⟩
    rintro rfl
    unfold cacheOf at there
    rw [missing] at there
    cases there
  · exact consistent.emptied found (dropCaches_proxies ..) rfl rfl rfl rfl
      fun other level => cacheOf_dropCaches world recreate proxy owner found other level

theorem invalidateTier {proxy : ProxyId} {tier : Tier} {recreate : Bool}
    (consistent : Consistent created registered kinds stale world)
    (ran : world.invalidateTier recreate proxy tier = .ok next) :
    Consistent created registered kinds
      (fun other level => stale other level ∧ ¬ (other = proxy ∧ level = tier)) next := by
  refine lasting.invalidateTier (fun missing => ?_) (fun owner found => ?_) ran
  · refine consistent.weaken fun other level cache there _ old => ⟨old, ?_⟩
    rintro ⟨rfl, rfl⟩
    unfold cacheOf at there
    rw [missing] at there
    cases there
  · exact consistent.emptied found (dropCache_proxies ..) rfl rfl rfl rfl
      fun other level => cacheOf_dropCache world recreate proxy owner tier found other level

/-- Invalidating the family of a live proxy leaves no stale cache below it. -/
theorem invalidateFamily {proxy : ProxyId}
    (consistent : Consistent created registered kinds stale world)
    (ran : world.invalidateFamily proxy = .ok next) :
    Consistent created registered kinds
      (fun other tier => stale other tier ∧ ((kinds proxy).isSome → ¬ kinds.Below other proxy))
      next := by
  have all := foldlM_invariant
    (motive := fun rest world => Consistent created registered kinds (fun other tier =>
      stale other tier ∧ ((kinds proxy).isSome → kinds.Below other proxy → other ∈ rest)) world)
    (fun first rest world next before stepped =>
      (before.invalidate stepped).weaken fun other tier _ _ _ left => by
        refine ⟨left.1.1, fun live below => ?_⟩
        exact (List.mem_cons.mp (left.1.2 live below)).resolve_left left.2)
    _ world next
    (consistent.weaken fun other tier _ _ _ old =>
      ⟨old, fun live below => consistent.arranged.mem_family below live⟩) ran
  exact all.weaken fun other tier _ _ _ left =>
    ⟨left.1, fun live below => absurd (left.2 live below) List.not_mem_nil⟩

/-- Invalidating the dependents of a resource leaves no stale cache noted under it. -/
theorem invalidateDependents {resource : ResourceId} {tier : Tier} {recreate : Bool}
    (consistent : Consistent created registered kinds stale world)
    (noted : ∀ other level, stale other level →
      (other, level) ∈ Index.entriesOf world.builtFrom resource)
    (ran : world.invalidateDependents resource tier recreate = .ok next) :
    Consistent created registered kinds (fun _ _ => False) next := by
  have all := foldlM_invariant
    (motive := fun rest world => Consistent created registered kinds (fun other level =>
      (other, level) ∈ rest) world)
    (fun first rest world next before stepped =>
      (before.invalidateTier stepped).weaken fun other level _ _ _ left =>
        (List.mem_cons.mp left.1).resolve_left fun same => left.2 ⟨congrArg Prod.fst same,
          congrArg Prod.snd same⟩)
    _ world next
    (consistent.weaken fun other level _ _ _ old => by
      unfold dependents
      rw [List.mem_eraseDups, List.mem_mergeSort]
      exact List.mem_append_left _ (noted other level old)) ran
  exact all.weaken fun other level _ _ _ left => List.not_mem_nil left

end Consistent

end Shading.World
