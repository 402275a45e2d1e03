/-
What is promised of caches. A promise speaks of the expressions of the map that
a cache was built from and of the parameters that its proxy answers. What a
proxy answers depends on the proxy and on those it hangs on, but not on any
cache. So a cache that keeps its promise goes on doing so until one of the
proxies on its chain is written, or the map. Every command invalidates the
caches for which it changes either: setting a parameter or other materials
reaches all that are below the proxy, removing a proxy all that were below it,
and a new proxy has nothing below it yet. The consistency of the world is needed
for this, because it says that the families of proxies are complete and that the
caches built from a resource are noted under it.

So a promise that is kept when a cache is rebuilt is kept as long as the cache
is valid. What a rebuilt cache is like may depend on the streaming textures; what
has to hold of these is assured along with the promise.
-/

import Shading.Proofs.Render.Consistency
import Shading.Proofs.Render.Runs
import Shading.Proofs.Uniform.Sections

namespace Shading

namespace Proxies

variable {proxies proxies' : Proxies}

/-- The proxies on a chain are those the first one is below. -/
theorem chain_congr (links : Nat) {id : ProxyId}
    (same : ∀ high, proxies.kinds.Below id high →
      (Table.get? proxies' high).map RenderProxy.bare =
        (Table.get? proxies high).map RenderProxy.bare) :
    (proxies'.chain links id).map RenderProxy.bare =
      (proxies.chain links id).map RenderProxy.bare := by
  induction links generalizing id with
  | zero => rfl
  | succ links inductionHypothesis =>
    have here := same id .refl
    rw [chain, chain]
    cases found : Table.get? proxies id with
    | none =>
      rw [found] at here
      rw [Option.map_eq_none_iff.mp here]
    | some owner =>
      rw [found] at here
      obtain ⟨owner', found', sameBare⟩ := Option.map_eq_some_iff.mp here
      have sameKind : owner'.kind = owner.kind := by
        rw [← RenderProxy.bare_kind owner', sameBare, RenderProxy.bare_kind]
      rw [found', List.map_cons, List.map_cons, sameBare, sameKind]
      congr 1
      cases hangs : owner.kind.parent? with
      | none => cases links <;> rfl
      | some parent =>
        refine inductionHypothesis fun high below => same high (.head ?_ below)
        exact ⟨owner.kind, kinds_eq_some.mpr ⟨owner, found, rfl⟩, hangs⟩

/-- Caches have no part in the answers of a proxy. -/
theorem findSome?_congr {α : Type} (answer : RenderProxy → Option α)
    (bare : ∀ owner, answer owner.bare = answer owner) {first second : List RenderProxy}
    (same : first.map RenderProxy.bare = second.map RenderProxy.bare) :
    first.findSome? answer = second.findSome? answer := by
  have through (owners : List RenderProxy) :
      owners.findSome? answer = (owners.map RenderProxy.bare).findSome? answer := by
    rw [List.findSome?_map]
    exact congrArg (owners.findSome? ·) (funext fun owner => (bare owner).symm)
  rw [through first, through second, same]

theorem parameters_congr {id : ProxyId}
    (same : ∀ high, proxies.kinds.Below id high →
      (Table.get? proxies' high).map RenderProxy.bare =
        (Table.get? proxies high).map RenderProxy.bare) :
    proxies'.parameters id = proxies.parameters id := by
  have chains := chain_congr maxChain same
  unfold parameters
  congr 1 <;> funext name <;> exact findSome?_congr _ (fun _ => rfl) chains

/-- Whoever is not below a proxy does not see what is written there. -/
theorem parameters_of_not_below {id proxy : ProxyId} (apart : ¬ proxies.kinds.Below id proxy)
    (same : ∀ other, other ≠ proxy → Table.get? proxies' other = Table.get? proxies other) :
    proxies'.parameters id = proxies.parameters id := by
  refine parameters_congr fun high below => ?_
  rw [same high fun equal => apart (equal ▸ below)]

theorem parameters_insert_bare {proxy : ProxyId} {owner other : RenderProxy}
    (found : Table.get? proxies proxy = some owner) (sameBare : other.bare = owner.bare) :
    parameters (Table.insert proxies proxy other) = proxies.parameters := by
  funext id
  refine parameters_congr fun high _ => ?_
  rw [Table.get?_insert]
  split
  · rename_i here
    rw [here, found, Option.map_some, Option.map_some, sameBare]
  · rfl

end Proxies

/-- What was rebuilt holds what the source answers. -/
theorem UniformCache.rebuild_written {cache : UniformCache} {proxy : ProxyId}
    {resource : ResourceId} {shared : SharedMap} {source : ParameterSource} {streaming : Streaming}
    {nextBuffer : BufferId} {rebuilt : Rebuilt}
    (ran : cache.rebuild proxy resource shared source streaming nextBuffer = .ok rebuilt) :
    ∃ buffer, rebuilt.cache.buffer = some buffer ∧
      (shared.map.expressions?.getD .empty).sectionsOf buffer.content =
        (shared.map.expressions?.getD .empty).written source := by
  obtain ⟨composition, composed, ran⟩ := bind_eq_ok.mp ran
  obtain ⟨content, filled, ran⟩ := bind_eq_ok.mp ran
  obtain ⟨_, filled⟩ := ExpressionSet.fillInWords_eq_ok.mp filled
  cases ran
  exact ⟨_, rfl, ExpressionSet.sectionsOf_fill (composed_words composed) filled⟩

/-! ### Promises -/

/-- Something that is said of a cache of a proxy for a tier, given the expressions of its map and
the parameters that the proxy answers. -/
abbrev Promise := ProxyId → Tier → ExpressionSet → ParameterSource → UniformCache → Prop

namespace World

variable {promise : Promise} {assured : World → Prop} {stale stale' : ProxyId → Tier → Prop}
  {created : List ProxyId} {registered : List ResourceId} {world next : World} {proxy : ProxyId}
  {tier : Tier} {recreate : Bool}

/-- A cache keeps the promise, for the map that the resource it was built from has now. -/
def Warranted (promise : Promise) (world : World) (proxy : ProxyId) (tier : Tier)
    (cache : UniformCache) : Prop :=
  ∀ resource shared, cache.resource = some resource → world.mapOf resource = some shared →
    promise proxy tier (shared.map.expressions?.getD .empty) (world.proxies.parameters proxy) cache

/-- What is assured makes every rebuilt cache keep the promise, and it does not depend on
anything but the caches and the streaming textures. -/
structure Warranty (promise : Promise) (assured : World → Prop) : Prop where
  lasting : Lasting assured
  rebuilt : ∀ {world : World} {proxy tier drawable owner rebuilt}, assured world →
    world.ownDrawable proxy tier = some drawable → world.proxies.get? proxy = some owner →
    (owner.caches.get tier).rebuild proxy drawable.resource drawable.map
      (world.proxies.parameters proxy) world.streaming world.nextBuffer = .ok rebuilt →
    promise proxy tier (drawable.map.map.expressions?.getD .empty)
      (world.proxies.parameters proxy) rebuilt.cache
  congr : ∀ {world next : World}, assured world → next.cacheOf = world.cacheOf →
    next.streaming = world.streaming → assured next
  dropCaches : ∀ {world : World} {proxy owner} (recreate : Bool), assured world →
    world.proxies.get? proxy = some owner → assured (world.dropCaches recreate proxy owner)
  dropCache : ∀ {world : World} {proxy owner} (tier : Tier) (recreate : Bool), assured world →
    world.proxies.get? proxy = some owner → assured (world.dropCache recreate proxy owner tier)
  attach : ∀ {world : World} {proxy} (kind : ProxyKind), assured world →
    world.proxies.get? proxy = none → assured (world.attach proxy kind)
  without : ∀ {world : World} (proxy : ProxyId), assured world → assured (world.without proxy)

/-- Whatever is valid and not stale keeps the promise. -/
structure WarrantedBut (promise : Promise) (assured : World → Prop)
    (stale : ProxyId → Tier → Prop) (world : World) : Prop where
  assured : assured world
  kept : ∀ proxy tier cache, world.cacheOf proxy tier = some cache → cache.valid →
    ¬ stale proxy tier → Warranted promise world proxy tier cache

/-- Every valid cache keeps the promise. -/
abbrev AllWarranted (promise : Promise) (assured : World → Prop) (world : World) : Prop :=
  WarrantedBut promise assured (fun _ _ => False) world

namespace WarrantedBut

/-! ### Changes -/

/-- A cache that is left alone stays good if neither the answers of its proxy nor the map it was
built from have changed. -/
theorem carry (warranted : WarrantedBut promise assured stale world) (safe : assured next)
    (kept : ∀ proxy tier cache, next.cacheOf proxy tier = some cache → cache.valid →
      ¬ stale' proxy tier → world.cacheOf proxy tier = some cache ∧ ¬ stale proxy tier ∧
        next.proxies.parameters proxy = world.proxies.parameters proxy ∧
        ∀ resource, cache.resource = some resource →
          (next.mapOf resource).isSome → next.mapOf resource = world.mapOf resource) :
    WarrantedBut promise assured stale' next := by
  refine ⟨safe, fun proxy tier cache found valid current resource shared source held => ?_⟩
  obtain ⟨before, fresh, sameParameters, sameMap⟩ := kept proxy tier cache found valid current
  rw [sameParameters]
  refine warranted.kept proxy tier cache before valid fresh resource shared source ?_
  rw [← sameMap resource source (by rw [held]; rfl), held]

theorem weaken (warranted : WarrantedBut promise assured stale world)
    (fewer : ∀ proxy tier cache, world.cacheOf proxy tier = some cache → cache.valid →
      stale proxy tier → stale' proxy tier) : WarrantedBut promise assured stale' world :=
  warranted.carry warranted.assured fun proxy tier cache found valid current =>
    ⟨found, fun old => current (fewer proxy tier cache found valid old), rfl, fun _ _ _ => rfl⟩

theorem all (warranted : WarrantedBut promise assured stale world)
    (fresh : ∀ proxy tier, ¬ stale proxy tier) : AllWarranted promise assured world :=
  warranted.weaken fun proxy tier _ _ _ => fresh proxy tier

/-- A change that is not about proxies or resources. -/
theorem congr (warranted : WarrantedBut promise assured stale world) (safe : assured next)
    (sameProxies : next.proxies = world.proxies)
    (sameMaterials : next.materials = world.materials) :
    WarrantedBut promise assured stale next := by
  refine warranted.carry safe fun proxy tier cache found _ current => ⟨?_, current, ?_, ?_⟩
  · unfold cacheOf at found ⊢
    rwa [sameProxies] at found
  · rw [sameProxies]
  · intro resource _ _
    unfold mapOf
    rw [sameMaterials]

/-- A change that is not about proxies or resources may let other promises be kept instead. -/
theorem instead {promise' : Promise} {assured' : World → Prop}
    (warranted : WarrantedBut promise assured stale world) (safe : assured' next)
    (sameProxies : next.proxies = world.proxies) (sameMaterials : next.materials = world.materials)
    (kept : ∀ proxy tier cache set source, world.cacheOf proxy tier = some cache →
      ¬ stale' proxy tier → ¬ stale proxy tier ∧ (promise proxy tier set source cache →
        promise' proxy tier set source cache)) :
    WarrantedBut promise' assured' stale' next := by
  refine ⟨safe, fun proxy tier cache found valid current resource shared source held => ?_⟩
  unfold cacheOf at found
  unfold mapOf at held
  rw [sameProxies] at found ⊢
  rw [sameMaterials] at held
  obtain ⟨before, better⟩ := kept proxy tier cache (shared.map.expressions?.getD .empty)
    (world.proxies.parameters proxy) found current
  exact better (warranted.kept proxy tier cache found valid before resource shared source held)

/-! ### Upkeep -/

theorem lasting (warranty : Warranty promise assured) :
    Lasting (WarrantedBut promise assured stale) where
  deferred := fun world pending warranted =>
    warranted.congr (warranty.lasting.deferred world pending warranted.assured) rfl rfl
  installed := by
    intro world proxy tier drawable owner rebuilt warranted drawn found rebuild
    have parameters :
        (world.install proxy tier owner drawable.resource rebuilt).proxies.parameters =
          world.proxies.parameters := by
      rw [install_proxies]
      exact Proxies.parameters_insert_bare found rfl
    refine ⟨warranty.lasting.installed world proxy tier drawable owner rebuilt warranted.assured
      drawn found rebuild, fun other level cache there valid current resource shared source held =>
        ?_⟩
    unfold mapOf at held
    rw [install_materials] at held
    rw [cacheOf_install _ _ _ _ _ _ found] at there
    rw [parameters]
    split at there
    · rename_i same
      obtain ⟨rfl, rfl⟩ := same
      cases there
      rw [UniformCache.rebuild_resource rebuild] at source
      cases source
      have same : shared = drawable.map :=
        Option.some.inj (held.symm.trans (ownDrawable_eq_some drawn).2)
      rw [same]
      exact warranty.rebuilt warranted.assured drawn found rebuild
    · exact warranted.kept other level cache there valid current resource shared source held

/-- Caches that were emptied are no longer stale, since they are no longer valid. -/
theorem emptied {owner other : RenderProxy} {hit : ProxyId → Tier → Prop}
    [∀ proxy tier, Decidable (hit proxy tier)]
    (warranted : WarrantedBut promise assured stale world) (safe : assured next)
    (found : world.proxies.get? proxy = some owner)
    (written : next.proxies = world.proxies.insert proxy other) (sameBare : other.bare = owner.bare)
    (sameMaterials : next.materials = world.materials)
    (caches : ∀ proxy tier, next.cacheOf proxy tier =
      if hit proxy tier then (world.cacheOf proxy tier).map (·.invalidate recreate)
      else world.cacheOf proxy tier) :
    WarrantedBut promise assured (fun proxy tier => stale proxy tier ∧ ¬ hit proxy tier) next := by
  refine warranted.carry safe fun low level cache there valid current => ?_
  rw [caches] at there
  split at there
  · obtain ⟨old, _, rfl⟩ := Option.map_eq_some_iff.mp there
    cases valid
  · rename_i missed
    refine ⟨there, fun old => current ⟨old, missed⟩, ?_, fun resource _ _ => ?_⟩
    · rw [written, Proxies.parameters_insert_bare found sameBare]
    · unfold mapOf
      rw [sameMaterials]

theorem missing (warranted : WarrantedBut promise assured stale world)
    (gone : world.proxies.get? proxy = none) (hit : ProxyId → Tier → Prop)
    (there : ∀ other level, hit other level → other = proxy) :
    WarrantedBut promise assured (fun other level => stale other level ∧ ¬ hit other level)
      world := by
  refine warranted.weaken fun other level cache found _ old => ⟨old, fun here => ?_⟩
  unfold cacheOf at found
  rw [there other level here, gone] at found
  cases found

theorem invalidate (warranted : WarrantedBut promise assured stale world)
    (warranty : Warranty promise assured) (ran : world.invalidate recreate proxy = .ok next) :
    WarrantedBut promise assured (fun other level => stale other level ∧ other ≠ proxy) next :=
  (lasting warranty).invalidate
    (fun gone => warranted.missing gone (fun other _ => other = proxy) fun _ _ => id)
    (fun owner found => warranted.emptied
      (warranty.dropCaches recreate warranted.assured found) found (dropCaches_proxies ..) rfl rfl
      fun other level => cacheOf_dropCaches world recreate proxy owner found other level)
    ran

theorem invalidateTier (warranted : WarrantedBut promise assured stale world)
    (warranty : Warranty promise assured)
    (ran : world.invalidateTier recreate proxy tier = .ok next) :
    WarrantedBut promise assured
      (fun other level => stale other level ∧ ¬ (other = proxy ∧ level = tier)) next :=
  (lasting warranty).invalidateTier
    (fun gone => warranted.missing gone (fun other level => other = proxy ∧ level = tier)
      fun _ _ both => both.1)
    (fun owner found => warranted.emptied
      (warranty.dropCache tier recreate warranted.assured found) found (dropCache_proxies ..) rfl
      rfl fun other level => cacheOf_dropCache world recreate proxy owner tier found other level)
    ran

/-- Whoever is invalidated, one after the other, is not stale any more. -/
theorem invalidateAll (warranted : WarrantedBut promise assured stale world)
    (warranty : Warranty promise assured) {all : List ProxyId}
    (ran : all.foldlM (World.invalidate · recreate) world = .ok next) :
    WarrantedBut promise assured (fun other level => stale other level ∧ other ∉ all) next := by
  have done := foldlM_invariant
    (motive := fun rest world => WarrantedBut promise assured (fun other level =>
      stale other level ∧ (other ∈ all → other ∈ rest)) world)
    (fun first rest _ _ before stepped =>
      (before.invalidate warranty stepped).weaken fun other _ _ _ _ left =>
        ⟨left.1.1, fun member => (List.mem_cons.mp (left.1.2 member)).resolve_left left.2⟩)
    _ world next (warranted.weaken fun _ _ _ _ _ old => ⟨old, id⟩) ran
  exact done.weaken fun _ _ _ _ _ left =>
    ⟨left.1, fun member => List.not_mem_nil (left.2 member)⟩

theorem invalidateFamily (warranted : WarrantedBut promise assured stale world)
    (warranty : Warranty promise assured) (ran : world.invalidateFamily proxy = .ok next) :
    WarrantedBut promise assured
      (fun other level => stale other level ∧ other ∉ world.family proxy) next :=
  warranted.invalidateAll warranty ran

theorem invalidateDependents {resource : ResourceId}
    (warranted : WarrantedBut promise assured stale world) (warranty : Warranty promise assured)
    (ran : world.invalidateDependents resource tier recreate = .ok next) :
    WarrantedBut promise assured (fun other level => stale other level ∧
      (other, level) ∉ Index.entriesOf world.builtFrom resource) next := by
  have all := foldlM_invariant
    (motive := fun rest world' => WarrantedBut promise assured (fun other level =>
      stale other level ∧ ((other, level) ∈ world.dependents resource tier →
        (other, level) ∈ rest)) world')
    (fun first rest _ _ before stepped =>
      (before.invalidateTier warranty stepped).weaken fun other level _ _ _ left =>
        ⟨left.1.1, fun member => (List.mem_cons.mp (left.1.2 member)).resolve_left fun same =>
          left.2 ⟨congrArg Prod.fst same, congrArg Prod.snd same⟩⟩)
    _ world next (warranted.weaken fun _ _ _ _ _ old => ⟨old, id⟩) ran
  refine all.weaken fun other level _ _ _ left => ⟨left.1, fun member => ?_⟩
  refine List.not_mem_nil (left.2 ?_)
  unfold dependents
  rw [List.mem_eraseDups, List.mem_mergeSort]
  exact List.mem_append_left _ member

/-! ### Resources -/

theorem registerMaterial {resource : ResourceId} {info : MaterialInfo}
    (warranted : AllWarranted promise assured world) (warranty : Warranty promise assured)
    (sound : Sound created registered world) (fresh : resource ∉ registered) :
    AllWarranted promise assured (world.registerMaterial resource info) := by
  refine warranted.carry (warranty.congr warranted.assured rfl rfl)
    fun proxy tier cache found _ _ => ⟨found, id, rfl, fun other built _ => ?_⟩
  have different : other ≠ resource := by
    rintro rfl
    exact fresh (sound.noted.registered proxy tier cache other found built)
  show ((world.registerMaterial resource info).materials.get? other).bind _ = _
  unfold World.registerMaterial
  rw [Table.get?_insert, if_neg different]
  rfl

/-- Whatever is written in the place of a resource concerns only the caches that were built
from it. -/
theorem rewritten {resource : ResourceId} {written : Option RenderMaterial}
    (warranted : AllWarranted promise assured world) (warranty : Warranty promise assured)
    (sound : Sound created registered world) (live : (world.materials.get? resource).isSome)
    (materials : next.materials = world.materials.set resource written)
    (sameProxies : next.proxies = world.proxies) (sameBuilds : next.builtFrom = world.builtFrom)
    (sameStreaming : next.streaming = world.streaming) :
    WarrantedBut promise assured (fun proxy tier =>
      (proxy, tier) ∈ Index.entriesOf next.builtFrom resource) next := by
  have caches : next.cacheOf = world.cacheOf := by
    unfold cacheOf
    rw [sameProxies]
  refine warranted.carry (warranty.congr warranted.assured caches sameStreaming)
    fun proxy tier cache found _ current => ?_
  rw [caches] at found
  refine ⟨found, id, by rw [sameProxies], fun other built _ => ?_⟩
  have different : other ≠ resource := by
    rintro rfl
    rw [sameBuilds] at current
    exact current (sound.noted.noted proxy tier cache other found built live)
  unfold mapOf
  rw [materials, Table.get?_set, if_neg different]

theorem exchangeMap {resource : ResourceId} {material : RenderMaterial} {map : Option SharedMap}
    (warranted : AllWarranted promise assured world) (warranty : Warranty promise assured)
    (sound : Sound created registered world)
    (found : world.materials.get? resource = some material)
    (ran : world.exchangeMap resource material map = .ok next) :
    AllWarranted promise assured next := by
  have placed : (world.placeMap resource material map).materials =
    world.materials.set resource (some { material with map }) := rfl
  have changed := warranted.rewritten warranty sound (by rw [found]; rfl) placed rfl rfl rfl
  unfold World.exchangeMap at ran
  exact (changed.invalidateDependents warranty ran).all fun _ _ left => left.2 left.1

theorem setMap {resource : ResourceId} {map : Option SharedMap}
    (warranted : AllWarranted promise assured world) (warranty : Warranty promise assured)
    (sound : Sound created registered world) (ran : world.setMap resource map = .ok next) :
    AllWarranted promise assured next := by
  obtain ⟨-, rfl⟩ | ⟨material, found, -, ran⟩ := setMap_cases ran
  · exact warranted
  · exact warranted.exchangeMap warranty sound found ran

theorem releaseMaterial {resource : ResourceId} (warranted : AllWarranted promise assured world)
    (warranty : Warranty promise assured) (sound : Sound created registered world)
    (ran : world.releaseMaterial resource = .ok next) : AllWarranted promise assured next := by
  obtain ⟨-, rfl⟩ | ⟨material, left, found, invalidated, rfl⟩ := releaseMaterial_cases ran
  · exact warranted
  · have withdrawn : (world.withdraw resource).materials = world.materials.set resource none := rfl
    have changed := warranted.rewritten warranty sound (by rw [found]; rfl) withdrawn rfl rfl rfl
    have after := (changed.invalidateDependents warranty invalidated).all
      fun _ _ left => left.2 left.1
    exact after.congr (warranty.congr after.assured rfl rfl) rfl rfl

/-! ### Proxies -/

theorem createProxy {kind : ProxyKind} (warranted : AllWarranted promise assured world)
    (warranty : Warranty promise assured) (sound : Sound created registered world)
    (fresh : proxy ∉ created) (ran : world.createProxy proxy kind = .ok next) :
    AllWarranted promise assured next := by
  refine (lasting warranty).markStale ?_ ran
  refine warranted.carry (warranty.attach kind warranted.assured (sound.absent fresh))
    fun other tier cache found valid _ => ?_
  rw [cacheOf_attach] at found
  split at found
  · cases found
    cases valid
  · refine ⟨found, id, ?_, fun resource _ _ => ?_⟩
    · -- Nothing hangs on the new proxy, so it is on no chain but its own.
      rw [attach_proxies]
      have apart : ¬ world.proxies.kinds.Below other proxy := fun below =>
        fresh (sound.arranged.ranked.below_mem below (sound.cacheOf_created found))
      refine Proxies.parameters_of_not_below apart fun high different => ?_
      rw [Table.get?_insert, if_neg different]
    · unfold mapOf
      rw [attach_materials]

/-- Whatever is written about a live proxy that keeps its caches concerns only the proxies below
it, and invalidating its family reaches all of those. -/
theorem reformed {owner other : RenderProxy} {between : World}
    (warranted : AllWarranted promise assured world) (warranty : Warranty promise assured)
    (sound : Sound created registered world) (found : world.proxies.get? proxy = some owner)
    (written : between.proxies = world.proxies.insert proxy other)
    (sameCaches : other.caches = owner.caches)
    (sameChildren : between.children = world.children)
    (sameMaterials : between.materials = world.materials)
    (sameStreaming : between.streaming = world.streaming)
    (ran : between.invalidateFamily proxy = .ok next) : AllWarranted promise assured next := by
  have caches : between.cacheOf = world.cacheOf := cacheOf_insert found written sameCaches
  have changed : WarrantedBut promise assured
      (fun low _ => world.proxies.kinds.Below low proxy) between := by
    refine warranted.carry (warranty.congr warranted.assured caches sameStreaming)
      fun low tier cache there _ apart => ?_
    rw [caches] at there
    refine ⟨there, id, ?_, fun resource _ _ => ?_⟩
    · rw [written]
      refine Proxies.parameters_of_not_below apart fun high different => ?_
      rw [Table.get?_insert, if_neg different]
    · unfold mapOf
      rw [sameMaterials]
  have live : world.proxies.kinds proxy = some owner.kind :=
    Proxies.kinds_eq_some.mpr ⟨owner, found, rfl⟩
  refine (changed.invalidateFamily warranty ran).all fun low tier left => left.2 ?_
  -- The family is the one it was before, since children and their index are as they were.
  have family : between.family proxy = world.family proxy := by
    unfold family childrenOf
    rw [sameChildren]
  rw [family]
  exact sound.arranged.mem_family left.1 (by rw [live]; rfl)

theorem setMaterials {materials : Materials} (warranted : AllWarranted promise assured world)
    (warranty : Warranty promise assured) (sound : Sound created registered world)
    (ran : world.setMaterials proxy materials = .ok next) : AllWarranted promise assured next := by
  obtain ⟨-, rfl⟩ | ⟨owner, previous, found, -, ran⟩ := setMaterials_cases ran
  · exact warranted
  · have written : (world.reassign proxy owner previous materials).proxies =
      world.proxies.insert proxy { owner with kind := owner.kind.withMaterials materials } := rfl
    exact warranted.reformed warranty sound found written rfl rfl rfl rfl ran

theorem setParameter {name : String} {value : Option ParameterValue}
    (warranted : AllWarranted promise assured world) (warranty : Warranty promise assured)
    (sound : Sound created registered world)
    (ran : world.setParameter proxy name value = .ok next) :
    AllWarranted promise assured next := by
  obtain ⟨-, rfl⟩ | ⟨owner, found, ran⟩ := setParameter_cases ran
  · exact warranted
  · have written : (world.override proxy owner name value).proxies =
      world.proxies.insert proxy { owner with overrides := owner.overrides.set name value } := rfl
    exact warranted.reformed warranty sound found written rfl rfl rfl rfl ran

/-- A world without a proxy, and what was below it is stale. -/
theorem removed (warranted : AllWarranted promise assured world)
    (warranty : Warranty promise assured) (proxy : ProxyId) :
    WarrantedBut promise assured (fun low _ => world.proxies.kinds.Below low proxy ∧
      (world.proxies.kinds proxy).isSome)
      { world.without proxy with
        children := Table.erase (world.without proxy).children proxy } := by
  have left := warranty.without proxy warranted.assured
  refine warranted.carry (warranty.congr left rfl rfl) fun low tier cache found _ apart => ?_
  have there : (world.without proxy).cacheOf low tier = some cache := found
  rw [cacheOf_without] at there
  split at there
  · cases there
  · refine ⟨there, id, Proxies.parameters_congr fun high below => ?_, fun resource _ _ => ?_⟩
    · show ((world.without proxy).proxies.get? high).map _ = _
      rw [without_proxies]
      split
      · rename_i same
        cases gone : world.proxies.get? proxy with
        | none => rw [same, gone]
        | some owner =>
          refine absurd ⟨same ▸ below, ?_⟩ apart
          rw [Proxies.kinds_eq_some.mpr ⟨owner, gone, rfl⟩]
          rfl
      · rfl
    · show ((world.without proxy).materials.get? resource).bind _ = _
      rw [without_materials]
      rfl

/-- Invalidating the families of the orphans reaches every proxy below the removed one. -/
theorem removeProxy (warranted : AllWarranted promise assured world)
    (warranty : Warranty promise assured) (sound : Sound created registered world)
    (ran : world.removeProxy proxy = .ok next) : AllWarranted promise assured next := by
  have ranked := sound.arranged.ranked
  obtain ⟨consistent, left⟩ := foldlM_invariant
    (motive := fun rest world' => Consistent created registered
        (Function.update world.proxies.kinds proxy none) (fun _ _ => True) world' ∧
      WarrantedBut promise assured (fun low _ => world.proxies.kinds.LeftBelow proxy rest low)
        world')
    (fun first rest before after both stepped =>
      ⟨(both.1.invalidateFamily stepped).weaken fun _ _ _ _ _ _ => trivial,
        (both.2.invalidateFamily warranty stepped).weaken fun low _ _ _ _ left =>
          left.1.tail ranked fun live below => left.2 (both.1.arranged.mem_family below live)⟩)
    _ _ next
    ⟨sound.removed.weaken fun _ _ _ _ _ _ => trivial,
      (warranted.removed warranty proxy).weaken fun low _ _ _ _ old =>
        ⟨old.1, old.2, fun child hung _ => mem_without_children
          (sound.arranged.children child proxy hung old.2) (hung.ne ranked)⟩⟩
    ran
  refine left.weaken fun low tier cache found _ => Kinds.LeftBelow.not_nil ranked ?_
  obtain ⟨owner, there, _⟩ := Option.map_eq_some_iff.mp found
  rw [← consistent.arranged.kinds_eq, Proxies.kinds_eq_some.mpr ⟨owner, there, rfl⟩]
  rfl

theorem recache (warranted : AllWarranted promise assured world)
    (warranty : Warranty promise assured) (ran : world.invalidate recreate proxy = .ok next) :
    AllWarranted promise assured next :=
  (warranted.invalidate warranty ran).all fun _ _ left => left.1

end WarrantedBut

end World

/-! ### Operations -/

namespace RenderCommand

/-- The producer that a command creates or destroys. -/
def producer? : RenderCommand → Option ProducerId
  | .createProducer producer _ _ _ _ | .destroyProducer producer => some producer
  | _ => none

end RenderCommand

namespace Operation

/-- The producer that an operation creates or destroys. -/
def producer? : Operation → Option ProducerId
  | .perform command => command.producer?
  | _ => none

theorem producer_cases (operation : Operation) : operation.producer? = none ∨
    (∃ id texture tile border preallocates,
      operation = .perform (.createProducer id texture tile border preallocates)) ∨
    ∃ id, operation = .perform (.destroyProducer id) := by
  cases operation with
  | perform command =>
    cases command with
    | createProducer id texture tile border preallocates =>
      exact .inr (.inl ⟨id, texture, tile, border, preallocates, rfl⟩)
    | destroyProducer id => exact .inr (.inr ⟨id, rfl⟩)
    | _ => exact .inl rfl
  | _ => exact .inl rfl

end Operation

namespace World.WarrantedBut

variable {promise : Promise} {assured : World → Prop} {world next : World}

theorem apply {created : List ProxyId} {registered : List ResourceId} {command : RenderCommand}
    (warranted : AllWarranted promise assured world) (warranty : Warranty promise assured)
    (sound : Sound created registered world)
    (creates : ∀ proxy kind, command = .createProxy proxy kind → proxy ∉ created)
    (registers : ∀ resource info, command = .registerMaterial resource info →
      resource ∉ registered)
    (apart : command.producer? = none) (ran : world.apply command = .ok next) :
    AllWarranted promise assured next := by
  have steady : Sound created registered
      (world.count fun stats => { stats with commands := stats.commands + 1 }) :=
    sound.congr rfl rfl rfl rfl
  have counted : AllWarranted promise assured
      (world.count fun stats => { stats with commands := stats.commands + 1 }) :=
    warranted.congr (warranty.congr warranted.assured rfl rfl) rfl rfl
  unfold World.apply at ran
  cases command
  case registerMaterial resource info =>
    cases ran
    exact counted.registerMaterial warranty steady (registers resource info rfl)
  case setMap => exact counted.setMap warranty steady ran
  case releaseMaterial => exact counted.releaseMaterial warranty steady ran
  case createProxy proxy kind =>
    exact counted.createProxy warranty steady (creates proxy kind rfl) ran
  case setMaterials => exact counted.setMaterials warranty steady ran
  case setParameter => exact counted.setParameter warranty steady ran
  case clearParameter => exact counted.setParameter warranty steady ran
  case recache => exact counted.recache warranty ran
  case removeProxy => exact counted.removeProxy warranty steady ran
  case createProducer => cases apart
  case destroyProducer => cases apart
  all_goals
    cases ran
    exact counted.congr (warranty.congr counted.assured rfl rfl) rfl rfl

/-- Every operation that may follow and is not about a producer keeps the promises. -/
theorem carryOut {operation : Operation} {past : List Operation}
    (warranted : AllWarranted promise assured world) (warranty : Warranty promise assured)
    (sound : Sound (Operation.createdBy past) (Operation.registeredBy past) world)
    (may : operation.MayFollow past)
    (apart : operation.producer? = none) (ran : operation.carryOut world = .ok next) :
    AllWarranted promise assured next := by
  cases operation
  case perform command =>
    refine warranted.apply warranty sound (fun proxy kind same => ?_)
      (fun resource info same => ?_) apart ran
    · subst same
      exact may.creates proxy rfl
    · subst same
      exact may.registers resource rfl
  case announce =>
    cases ran
    exact warranted.congr (warranty.congr warranted.assured rfl rfl) rfl rfl
  case updateDeferred =>
    obtain ⟨⟨count, world⟩, updated, rfl⟩ := map_eq_ok.mp ran
    exact (lasting warranty).updateDeferred warranted updated
  case updateIfNeeded => exact (lasting warranty).updateIfNeeded warranted ran
  case evaluate =>
    obtain ⟨⟨built, world⟩, evaluated, rfl⟩ := map_eq_ok.mp ran
    exact (lasting warranty).evaluate warranted evaluated
  case prepareDraw =>
    obtain ⟨⟨drawn, world⟩, prepared, rfl⟩ := map_eq_ok.mp ran
    exact (lasting warranty).prepareDraw warranted prepared
  case invalidate => exact warranted.recache warranty ran

end World.WarrantedBut

namespace World.Warranty

variable {promise : Promise} {assured : World → Prop} {world next : World} {proxy : ProxyId}
  {tier : Tier} {recreate : Bool}

theorem invalidate (warranty : Warranty promise assured) (before : assured world)
    (ran : world.invalidate recreate proxy = .ok next) : assured next :=
  warranty.lasting.invalidate (fun _ => before)
    (fun _ found => warranty.dropCaches recreate before found) ran

theorem invalidateTier (warranty : Warranty promise assured) (before : assured world)
    (ran : world.invalidateTier recreate proxy tier = .ok next) : assured next :=
  warranty.lasting.invalidateTier (fun _ => before)
    (fun _ found => warranty.dropCache tier recreate before found) ran

/-- What can be assured while nothing is promised stays so. -/
theorem carryOut {operation : Operation} {past : List Operation}
    (warranty : Warranty (fun _ _ _ _ _ => True) assured) (before : assured world)
    (sound : Sound (Operation.createdBy past) (Operation.registeredBy past) world)
    (may : operation.MayFollow past) (apart : operation.producer? = none)
    (ran : operation.carryOut world = .ok next) : assured next := by
  have warranted : AllWarranted (fun _ _ _ _ _ => True) assured world :=
    ⟨before, fun _ _ _ _ _ _ _ _ _ _ => trivial⟩
  exact (warranted.carryOut warranty sound may apart ran).assured

end World.Warranty

end Shading
