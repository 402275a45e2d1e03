/-
What a new map of a resource touches while stale caches wait. It concerns the
caches that were built from the resource, on whatever tier, and those that draw
with it on its own tier. The first are noted under the resource; the others are
found by going down from the proxies that name it. Neither search misses one or
brings up another, so that a change of one map leaves all other caches alone:
they stay as they are, keep their allocations, and their proxies go on being
told of what they read.
-/

import Shading.Proofs.Render.Emptying

namespace Shading

namespace World

variable {activeTiers : List Tier} {created : List ProxyId} {registered : List ResourceId}
  {kinds : Kinds} {deferring : Bool} {world : World} {proxy : ProxyId} {tier level : Tier}
  {resource : ResourceId}

/-! ### Dependents -/

/-- A cache depends on the map of a resource of a tier: it was built from the resource, or it is
for that tier and its proxy resolves to the resource. -/
def Depends (world : World) (resource : ResourceId) (level : Tier) (proxy : ProxyId)
    (tier : Tier) : Prop :=
  (∃ cache, world.cacheOf proxy tier = some cache ∧ cache.resource = some resource) ∨
    (tier = level ∧ world.resolve proxy level = some resource)

theorem Depends.live (depends : world.Depends resource level proxy tier) :
    (world.proxies.get? proxy).isSome := by
  rcases depends with ⟨cache, found, _⟩ | ⟨_, resolved⟩
  · obtain ⟨owner, there, _⟩ := Option.map_eq_some_iff.mp found
    exact there ▸ rfl
  · obtain ⟨kind, live⟩ := Option.isSome_iff_exists.mp (Proxies.draws_of_resolve resolved).live
    obtain ⟨owner, there, _⟩ := Proxies.kinds_eq_some.mp live
    exact there ▸ rfl

theorem mem_drawingWith_iff (ready : Ready deferring activeTiers created registered kinds world) :
    proxy ∈ world.drawingWith resource tier ↔ world.resolve proxy tier = some resource := by
  constructor
  · intro member
    unfold drawingWith at member
    exact of_decide_eq_true (List.mem_filter.mp member).2
  · intro resolved
    exact ready.mem_drawingWith
      ((ready.consistent.arranged.resolve_iff proxy tier resource).mp resolved)

/-- The caches that are looked up for a resource are those that depend on it. -/
theorem mem_dependents_iff (tidy : Tidy created world)
    (ready : Ready deferring activeTiers created registered kinds world)
    (known : (world.materials.get? resource).isSome) :
    (proxy, tier) ∈ world.dependents resource level ↔
      world.Depends resource level proxy tier := by
  unfold dependents Depends
  rw [List.mem_eraseDups, List.mem_mergeSort, List.mem_append]
  -- Those that are noted were built from the resource, and those that are found draw with it.
  refine or_congr ⟨fun noted => tidy.builtFrom resource _ noted, ?_⟩ ?_
  · rintro ⟨cache, there, built⟩
    exact ready.consistent.noted.noted proxy tier cache resource there built known
  · rw [← mem_drawingWith_iff ready]
    simp only [List.mem_map, Prod.mk.injEq]
    constructor
    · rintro ⟨_, member, rfl, rfl⟩
      exact ⟨rfl, member⟩
    · rintro ⟨rfl, member⟩
      exact ⟨proxy, member, rfl, rfl⟩

end World

namespace Run

variable {activeTiers : List Tier} {past : List Operation} {world : World}
  {resource : ResourceId} {material : RenderMaterial}

/-- A map is put in the place of another one and the caches that depend on it are emptied. -/
theorem setMap_emptied (run : Run true activeTiers past world)
    (found : world.materials.get? resource = some material) {map : Option SharedMap}
    (compiled : ∀ shared ∈ map, shared.map.isCompiled) :
    ∃ placed next, placed.cacheOf = world.cacheOf ∧ placed.streaming = world.streaming ∧
      world.apply (.setMap resource map) = .ok next ∧
      World.Emptied (material.map.bind (·.map.layout?) ≠ map.bind (·.map.layout?))
        (world.Depends resource material.info.tier)
        (world.dependents resource material.info.tier).length placed next := by
  let counted := world.count fun stats => { stats with commands := stats.commands + 1 }
  let placed := counted.placeMap resource material map
  have members (note : ProxyId × Tier) : note ∈ world.dependents resource material.info.tier ↔
      world.Depends resource material.info.tier note.1 note.2 :=
    World.mem_dependents_iff run.tidy run.ready (found ▸ rfl)
  obtain ⟨next, ran, emptied⟩ := World.Emptied.foldlM Prod.fst
    (fun note other level => other = note.1 ∧ level = note.2)
    (fun world note late live => by
      obtain ⟨owner, found⟩ := Option.isSome_iff_exists.mp live
      exact World.invalidateTier_emptied late found
        (material.map.bind (·.map.layout?) ≠ map.bind (·.map.layout?)) note.2)
    (world.dependents resource material.info.tier)
    (show placed.deferring = true from run.listed.deferring_eq)
    (fun note member => ((members note).mp member).live)
  refine ⟨placed, next, rfl, rfl, ?_, emptied.congr_hit fun other level => ?_⟩
  · show counted.setMap resource map = _
    unfold World.setMap
    rw [show counted.materials.get? resource = some material from found]
    cases map with
    | none => exact ran
    | some shared =>
      dsimp only
      rw [if_pos (compiled shared rfl)]
      exact ran
  · constructor
    · exact fun depends => ⟨(other, level), (members _).mpr depends, rfl, rfl⟩
    · rintro ⟨note, member, rfl, rfl⟩
      exact (members note).mp member

/-- A new map of a registered resource is carried out unless it is incomplete. It makes every cache
invalid that depends on the resource, and such a cache loses its buffer only if the layout of the
map is another one than before. Every other cache stays as it is, its allocations stay what they
are, and its proxy is still told of each of its producers. -/
theorem setMap_touches_dependents (run : Run true activeTiers past world)
    (once : (Operation.producedBy past).Nodup)
    (found : world.materials.get? resource = some material) (map : Option SharedMap) :
    ((∃ next, world.apply (.setMap resource map) = .ok next) ↔
      ∀ shared ∈ map, shared.map.isCompiled) ∧
    ∀ next, world.apply (.setMap resource map) = .ok next →
      ∀ proxy tier cache, world.cacheOf proxy tier = some cache →
        (world.Depends resource material.info.tier proxy tier →
          ∃ later, next.cacheOf proxy tier = some later ∧ later.valid = false ∧
            later.buffer =
              if material.map.bind (·.map.layout?) = map.bind (·.map.layout?) then cache.buffer
              else none) ∧
        (¬world.Depends resource material.info.tier proxy tier →
          next.cacheOf proxy tier = some cache ∧
          (∀ allocation ∈ cache.allocations, next.streaming.Allocated allocation ∧
            next.streaming.allocations.get? allocation =
              world.streaming.allocations.get? allocation) ∧
          ∀ id ∈ cache.producers, next.streaming.Tells id proxy) := by
  have compiled {next : World} (ran : world.apply (.setMap resource map) = .ok next) :
      ∀ shared ∈ map, shared.map.isCompiled := by
    change World.setMap _ resource map = _ at ran
    obtain ⟨missing, -⟩ | ⟨_, -, compiled, -⟩ := World.setMap_cases ran
    · cases missing.symm.trans found
    · exact compiled
  refine ⟨⟨fun ⟨next, ran⟩ => compiled ran, fun complete => ?_⟩,
    fun next ran proxy tier cache there => ?_⟩
  · obtain ⟨_, next, _, _, ran, _⟩ := run.setMap_emptied found complete
    exact ⟨next, ran⟩
  · obtain ⟨placed, next', sameCaches, sameStreaming, ran', emptied⟩ :=
      run.setMap_emptied found (compiled ran)
    cases ran.symm.trans ran'
    have counted : World.Attended (Operation.producedBy past) (fun _ _ => False)
        (world.count fun stats => { stats with commands := stats.commands + 1 }) :=
      (run.attended once).congr rfl rfl
    have after := counted.setMap ran
    have before : placed.cacheOf proxy tier = some cache := sameCaches ▸ there
    refine ⟨fun depends => ⟨_, (emptied.emptied _ _ depends).trans (congrArg _ before), rfl, ?_⟩,
      fun apart => ⟨(emptied.kept _ _ apart).trans before, fun allocation has => ?_,
        fun id reads => (emptied.tells_iff after).mpr ⟨tier, cache, apart, before, reads⟩⟩⟩
    · simp only [UniformCache.invalidate, decide_eq_true_eq, ne_eq, ite_not]
    · exact sameStreaming ▸ emptied.stays after apart before has

/-- A proxy is drawn with one resource on the desktop and with another one on the high end. -/
def layeredTiers : List Operation :=
  [.perform (.createProducer .first ⟨7⟩ 128 4 true),
    .perform (.registerMaterial .first { name := "Low", tier := .desktop, quality := .high }),
    .perform (.registerMaterial (.next .first)
      { name := "High", tier := .highEnd, quality := .high }),
    .perform (.setMap .first (some layered)),
    .perform (.setMap (.next .first) (some { layered with id := .next .first })),
    .perform (.createProxy .first (.material
      (((PerTier.fill none).set .desktop (some .first)).set .highEnd (some (.next .first))))),
    .updateDeferred]

/-- Without its map the resource of the desktop takes the buffer from one cache of the proxy, and
the other cache goes on hearing of the producer. -/
theorem layeredTiers_setMap : ∃ world next high low,
    Run true [.desktop, .highEnd] layeredTiers world ∧
    world.apply (.setMap .first none) = .ok next ∧
    next.cacheOf .first .desktop = some low ∧ low.buffer = none ∧
    world.cacheOf .first .highEnd = some high ∧ next.cacheOf .first .highEnd = some high ∧
    high.buffer ≠ none ∧ next.streaming.Tells .first .first := by
  have built : (Operation.carryOutAll { activeTiers := [.desktop, .highEnd] } layeredTiers).map
      (fun world =>
        ((world.materials.get? .first).map fun material =>
            (material.info.tier, (material.map.bind (·.map.layout?)).isSome),
          (world.cacheOf .first .desktop).map UniformCache.resource,
          (world.cacheOf .first .highEnd).map fun cache =>
            (cache.resource, cache.buffer.isSome, cache.producers))) =
      .ok (some (.desktop, true), some (some .first),
        some (some (.next .first), true, [.first, .first])) := by
    cbv
  obtain ⟨world, ran, built⟩ := map_eq_ok.mp built
  obtain ⟨material, built⟩ := Prod.mk.inj built
  obtain ⟨desktop, highEnd⟩ := Prod.mk.inj built
  obtain ⟨material, found, material_eq⟩ := Option.map_eq_some_iff.mp material
  obtain ⟨level, laidOut⟩ := Prod.mk.inj material_eq
  obtain ⟨low, foundLow, builtLow⟩ := Option.map_eq_some_iff.mp desktop
  obtain ⟨high, foundHigh, high_eq⟩ := Option.map_eq_some_iff.mp highEnd
  obtain ⟨builtHigh, high_eq⟩ := Prod.mk.inj high_eq
  obtain ⟨buffered, reads⟩ := Prod.mk.inj high_eq
  have run : Run true [.desktop, .highEnd] layeredTiers world :=
    Run.start.continued (by decide) ran
  obtain ⟨carried, touches⟩ := run.setMap_touches_dependents (by decide) found none
  obtain ⟨next, applied⟩ := carried.mpr (by rintro _ ⟨⟩)
  obtain ⟨later, foundLater, _, buffer⟩ := (touches next applied .first .desktop low foundLow).1
    (.inl ⟨low, foundLow, builtLow⟩)
  have apart : ¬world.Depends .first material.info.tier .first .highEnd := by
    rintro (⟨cache, there, itsResource⟩ | ⟨same, _⟩)
    · cases foundHigh.symm.trans there
      exact absurd (builtHigh.symm.trans itsResource) (by decide)
    · exact absurd (same.trans level) (by decide)
  obtain ⟨kept, _, told⟩ := (touches next applied .first .highEnd high foundHigh).2 apart
  refine ⟨world, next, high, later, run, applied, foundLater, ?_, foundHigh, kept, ?_, ?_⟩
  · rw [buffer, if_neg]
    intro same
    rw [same] at laidOut
    cases laidOut
  · exact Option.isSome_iff_ne_none.mp buffered
  · exact told .first (reads ▸ List.mem_cons_self ..)

end Run

end Shading
