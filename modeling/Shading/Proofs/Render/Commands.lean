/-
The commands keep a render world consistent. Every command is a change after
which some caches may be stale, followed by the invalidation of caches. For each
command it is said here which caches its change leaves stale, and that the ones
it invalidates are enough.
-/

import Shading.Proofs.Render.Consistency
import Shading.Proofs.Render.Membership

namespace Shading.World

variable {created : List ProxyId} {registered : List ResourceId} {kinds : Kinds}
  {stale : ProxyId → Tier → Prop} {world next : World}

/-- Consistent, and nothing is stale. -/
def Sound (created : List ProxyId) (registered : List ResourceId) (world : World) : Prop :=
  Consistent created registered world.proxies.kinds (fun _ _ => False) world

theorem Consistent.sound (consistent : Consistent created registered kinds stale world)
    (fresh : ∀ proxy tier cache, world.cacheOf proxy tier = some cache → cache.valid →
      ¬ stale proxy tier) : Sound created registered world := by
  unfold Sound
  rw [consistent.arranged.kinds_eq]
  exact consistent.weaken fresh

theorem lasting_sound : Lasting (Sound created registered) where
  deferred := fun world pending sound =>
    (Consistent.lasting.deferred world pending sound).sound fun _ _ _ _ _ => id
  installed := fun world proxy tier drawable owner rebuilt sound drawn found rebuild =>
    (Consistent.lasting.installed world proxy tier drawable owner rebuilt sound drawn found
      rebuild).sound fun _ _ _ _ _ => id

namespace Sound

/-- A change of the world that is not about proxies, resources or caches. -/
theorem congr (sound : Sound created registered world)
    (sameProxies : next.proxies = world.proxies) (sameChildren : next.children = world.children)
    (sameMaterials : next.materials = world.materials)
    (sameBuilds : next.builtFrom = world.builtFrom) : Sound created registered next :=
  (Consistent.congr sound sameProxies sameChildren sameMaterials sameBuilds).sound
    fun _ _ _ _ _ => id

theorem invalidate {proxy : ProxyId} {recreate : Bool} (sound : Sound created registered world)
    (ran : world.invalidate recreate proxy = .ok next) : Sound created registered next :=
  (Consistent.invalidate sound ran).sound fun _ _ _ _ _ left => left.1

/-! ### Resources -/

theorem registerMaterial {resource : ResourceId} {info : MaterialInfo}
    (sound : Sound created registered world) (fresh : resource ∉ registered) :
    Sound created (registered ++ [resource]) (world.registerMaterial resource info) := by
  have materials (other : ResourceId) :
      (world.registerMaterial resource info).materials.get? other =
        if other = resource then some { info } else world.materials.get? other :=
    Table.get?_insert ..
  have apart {other : ResourceId} (known : other ∈ registered) : other ≠ resource :=
    fun same => fresh (same ▸ known)
  refine ⟨⟨rfl, sound.arranged.known, sound.arranged.ranked, sound.arranged.children, ?_, ?_⟩,
    ⟨?_, ?_⟩, ?_⟩
  · intro other material found
    rw [materials] at found
    split at found
    · rename_i same
      exact same ▸ List.mem_append_right _ List.mem_cons_self
    · exact List.mem_append_left _ (sound.arranged.registered other material found)
  · intro other shared held
    obtain ⟨material, found, held⟩ := Option.bind_eq_some_iff.mp held
    rw [materials] at found
    split at found
    · cases found
      cases held
    · exact sound.arranged.compiled other shared (Option.bind_eq_some_iff.mpr ⟨_, found, held⟩)
  · intro proxy tier cache other found built
    exact List.mem_append_left _ (sound.noted.registered proxy tier cache other found built)
  · intro proxy tier cache other found built live
    have known := sound.noted.registered proxy tier cache other found built
    rw [materials, if_neg (apart known)] at live
    exact sound.noted.noted proxy tier cache other found built live
  · intro proxy tier cache found valid current
    obtain ⟨other, shared, draws, held, serves⟩ :=
      sound.current proxy tier cache found valid current
    have known := sound.noted.registered proxy tier cache other found serves.resource_eq
    refine ⟨other, shared, draws, ?_, serves⟩
    unfold mapOf
    rw [materials, if_neg (apart known)]
    exact held

/-- Whatever is written in the place of a registered resource concerns only the caches that
were built from it. -/
theorem rewritten {resource : ResourceId} {written : Option RenderMaterial}
    (sound : Sound created registered world) (live : (world.materials.get? resource).isSome)
    (materials : next.materials = world.materials.set resource written)
    (compiled : ∀ material shared, written = some material → material.map = some shared →
      shared.map.isCompiled)
    (sameProxies : next.proxies = world.proxies) (sameChildren : next.children = world.children)
    (sameBuilds : next.builtFrom = world.builtFrom) :
    Consistent created registered world.proxies.kinds (fun proxy tier =>
      (proxy, tier) ∈ Index.entriesOf next.builtFrom resource) next := by
  have sameCaches : next.cacheOf = world.cacheOf := by
    unfold cacheOf
    rw [sameProxies]
  have known : resource ∈ registered := by
    obtain ⟨material, found⟩ := Option.isSome_iff_exists.mp live
    exact sound.arranged.registered resource material found
  refine ⟨⟨by rw [sameProxies], sound.arranged.known, sound.arranged.ranked,
    sameChildren ▸ sound.arranged.children, ?_, ?_⟩, ⟨?_, ?_⟩, ?_⟩
  · intro other material found
    rw [materials, Table.get?_set] at found
    split at found
    · rename_i same
      exact same ▸ known
    · exact sound.arranged.registered other material found
  · intro other shared held
    obtain ⟨material, found, held⟩ := Option.bind_eq_some_iff.mp held
    rw [materials, Table.get?_set] at found
    split at found
    · exact compiled material shared found held
    · exact sound.arranged.compiled other shared (Option.bind_eq_some_iff.mpr ⟨_, found, held⟩)
  · rw [sameCaches]
    exact sound.noted.registered
  · intro proxy tier cache other found built there
    rw [sameCaches] at found
    rw [sameBuilds]
    refine sound.noted.noted proxy tier cache other found built ?_
    rw [materials, Table.get?_set] at there
    split at there
    · rename_i same
      exact same ▸ live
    · exact there
  · intro proxy tier cache found valid current
    rw [sameCaches] at found
    obtain ⟨other, shared, draws, held, serves⟩ := sound.current proxy tier cache found valid id
    refine ⟨other, shared, draws, ?_, serves⟩
    have different : other ≠ resource := by
      rintro rfl
      rw [sameBuilds] at current
      exact current (sound.noted.noted proxy tier cache other found serves.resource_eq live)
    unfold mapOf
    rw [materials, Table.get?_set, if_neg different]
    exact held

theorem exchangeMap {resource : ResourceId} {material : RenderMaterial} {map : Option SharedMap}
    (sound : Sound created registered world)
    (found : world.materials.get? resource = some material)
    (compiled : ∀ shared, map = some shared → shared.map.isCompiled)
    (ran : world.exchangeMap resource material map = .ok next) :
    Sound created registered next := by
  have placed : (world.placeMap resource material map).materials =
    world.materials.set resource (some { material with map }) := rfl
  have consistent := sound.rewritten (by rw [found]; rfl) placed
    (fun written shared same held => by cases same; exact compiled shared held) rfl rfl rfl
  unfold World.exchangeMap at ran
  exact (consistent.invalidateDependents (fun _ _ => id) ran).sound fun _ _ _ _ _ => id

theorem setMap {resource : ResourceId} {map : Option SharedMap}
    (sound : Sound created registered world) (ran : world.setMap resource map = .ok next) :
    Sound created registered next := by
  obtain ⟨-, rfl⟩ | ⟨material, found, compiled, ran⟩ := setMap_cases ran
  · exact sound
  · exact sound.exchangeMap found compiled ran

theorem releaseMaterial {resource : ResourceId} (sound : Sound created registered world)
    (ran : world.releaseMaterial resource = .ok next) : Sound created registered next := by
  obtain ⟨-, rfl⟩ | ⟨material, left, found, invalidated, rfl⟩ := releaseMaterial_cases ran
  · exact sound
  · have withdrawn : (world.withdraw resource).materials = world.materials.set resource none := rfl
    have consistent := sound.rewritten (by rw [found]; rfl) withdrawn
      (fun written shared same _ => by cases same) rfl rfl rfl
    have after := consistent.invalidateDependents (fun _ _ => id) invalidated
    have gone : left.materials.get? resource = none := by
      have rests := Rests.invalidateDependents ⟨rfl, rfl⟩ invalidated
      rw [rests.materials, withdrawn, Table.get?_set, if_pos rfl]
    refine Consistent.sound ⟨after.arranged.congr rfl rfl rfl, ⟨after.noted.registered, ?_⟩,
      after.current⟩ fun _ _ _ _ _ => id
    intro proxy tier cache other there built live
    have different : other ≠ resource := by
      rintro rfl
      rw [gone] at live
      cases live
    rw [Index.entriesOf_erase, if_neg different]
    exact after.noted.noted proxy tier cache other there built live

/-! ### Proxies -/

theorem created_of_found {proxy : ProxyId} {owner : RenderProxy}
    (sound : Sound created registered world) (found : world.proxies.get? proxy = some owner) :
    proxy ∈ created :=
  sound.arranged.known proxy owner.kind (Proxies.kinds_eq_some.mpr ⟨owner, found, rfl⟩)

/-- A proxy that was not created is not there. -/
theorem absent {proxy : ProxyId} (sound : Sound created registered world)
    (fresh : proxy ∉ created) : world.proxies.get? proxy = none :=
  Option.eq_none_iff_forall_ne_some.mpr fun _ found => fresh (sound.created_of_found found)

/-- A cache belongs to a proxy that was created. -/
theorem cacheOf_created {proxy : ProxyId} {tier : Tier} {cache : UniformCache}
    (sound : Sound created registered world) (found : world.cacheOf proxy tier = some cache) :
    proxy ∈ created := by
  obtain ⟨owner, found, _⟩ := Option.map_eq_some_iff.mp found
  exact sound.created_of_found found

theorem attach {proxy : ProxyId} {kind : ProxyKind} (sound : Sound created registered world)
    (fresh : proxy ∉ created) (older : ∀ parent, kind.parent? = some parent → parent ∈ created) :
    Sound (created ++ [proxy]) registered (world.attach proxy kind) := by
  have kinds : (world.attach proxy kind).proxies.kinds =
      Function.update world.proxies.kinds proxy (some kind) := by
    rw [attach_proxies, Proxies.kinds_insert]
  -- Nothing hangs on the new proxy, so it is on no chain but its own.
  have drawn {other : ProxyId} {tier : Tier} {resource : ResourceId}
      (draws : world.proxies.kinds.Draws tier other resource) (known : other ∈ created) :
      (world.attach proxy kind).proxies.kinds.Draws tier other resource := by
    refine draws.congr fun high below => ?_
    have different : high ≠ proxy := fun same =>
      fresh (same ▸ sound.arranged.ranked.below_mem below known)
    rw [kinds, Function.update_of_ne different]
  have caches {other : ProxyId} {tier : Tier} {cache : UniformCache}
      (found : (world.attach proxy kind).cacheOf other tier = some cache) :
      cache = {} ∨ world.cacheOf other tier = some cache := by
    rw [cacheOf_attach] at found
    split at found
    · exact .inl (Option.some.inj found).symm
    · exact .inr found
  refine ⟨sound.arranged.regroup rfl (fun other found live => ?_) ?_ ?_ (attach_materials ..),
    sound.noted.carry (fun other tier cache resource found built => ?_)
      (fun _ _ _ _ _ => attach_builtFrom .. ▸ id) (attach_materials ..),
    sound.current.carry (fun other tier cache found valid _ => ?_)
      (fun other tier cache resource found _ draws => drawn draws (sound.cacheOf_created found))
      (attach_materials ..)⟩
  · rw [kinds, Function.update_apply] at live
    split at live
    · rename_i same
      exact same ▸ List.mem_append_right _ List.mem_cons_self
    · exact List.mem_append_left _ (sound.arranged.known other found live)
  · rw [kinds]
    exact sound.arranged.ranked.append sound.arranged.known fresh older
  · rintro child parent ⟨found, live, hangs⟩ there
    rw [kinds, Function.update_apply] at live there
    split at live
    · rename_i same
      cases live
      exact same ▸ mem_attach_children world proxy hangs
    · have hung : world.proxies.kinds.Hangs child parent := ⟨found, live, hangs⟩
      have known := sound.arranged.ranked.parent_mem hung (sound.arranged.known child found live)
      have different : parent ≠ proxy := fun same => fresh (same ▸ known)
      rw [if_neg different] at there
      exact mem_attach_children_other proxy kind
        (sound.arranged.children child parent hung there)
  · rcases caches found with rfl | before
    · cases built
    · exact ⟨cache, before, built⟩
  · rcases caches found with rfl | before
    · cases valid
    · exact ⟨before, id⟩

theorem createProxy {proxy : ProxyId} {kind : ProxyKind} (sound : Sound created registered world)
    (fresh : proxy ∉ created) (older : ∀ parent, kind.parent? = some parent → parent ∈ created)
    (ran : world.createProxy proxy kind = .ok next) :
    Sound (created ++ [proxy]) registered next :=
  lasting_sound.markStale (sound.attach fresh older) ran

/-- Whatever else is written about a live proxy with the same parent and the same caches
concerns only the proxies below it. -/
theorem reformed {proxy : ProxyId} {owner other : RenderProxy}
    (sound : Sound created registered world) (found : world.proxies.get? proxy = some owner)
    (written : next.proxies = world.proxies.insert proxy other)
    (sameParent : other.kind.parent? = owner.kind.parent?)
    (sameCaches : other.caches = owner.caches)
    (sameChildren : next.children = world.children)
    (sameMaterials : next.materials = world.materials)
    (sameBuilds : next.builtFrom = world.builtFrom) :
    Consistent created registered next.proxies.kinds
      (fun low _ => next.proxies.kinds.Below low proxy) next := by
  have live : world.proxies.kinds proxy = some owner.kind :=
    Proxies.kinds_eq_some.mpr ⟨owner, found, rfl⟩
  have kinds : next.proxies.kinds =
      Function.update world.proxies.kinds proxy (some other.kind) := by
    rw [written, Proxies.kinds_insert]
  have hangs : next.proxies.kinds.Hangs = world.proxies.kinds.Hangs := by
    rw [kinds, Kinds.hangs_update live sameParent]
  have caches : next.cacheOf = world.cacheOf := cacheOf_insert found written sameCaches
  refine ⟨sound.arranged.regroup rfl (fun low kind there => ?_) ?_
      (fun child parent hung there => ?_) sameMaterials,
    sound.noted.carry (fun low tier cache resource there built => ⟨cache, caches ▸ there, built⟩)
      (fun _ _ _ _ _ => sameBuilds ▸ id) sameMaterials,
    sound.current.carry (fun low tier cache there _ _ => ⟨caches ▸ there, id⟩)
      (fun low tier cache resource there apart draws => draws.congr fun high below => ?_)
      sameMaterials⟩
  · rw [kinds, Function.update_apply] at there
    split at there
    · rename_i same
      exact same ▸ sound.arranged.known proxy owner.kind live
    · exact sound.arranged.known low kind there
  · unfold Kinds.Ranked
    rw [hangs]
    exact sound.arranged.ranked
  · rw [hangs] at hung
    rw [sameChildren]
    refine sound.arranged.children child parent hung ?_
    rw [kinds, Function.update_apply] at there
    split at there
    · rename_i same
      rw [same, live]
      rfl
    · exact there
  · have different : high ≠ proxy := by
      rintro rfl
      unfold Kinds.Below at apart
      rw [hangs] at apart
      exact apart below
    rw [kinds, Function.update_of_ne different]

theorem reformed_family {proxy : ProxyId}
    (consistent : Consistent created registered world.proxies.kinds
      (fun low _ => world.proxies.kinds.Below low proxy) world)
    (live : (world.proxies.kinds proxy).isSome) (ran : world.invalidateFamily proxy = .ok next) :
    Sound created registered next :=
  (consistent.invalidateFamily ran).sound fun _ _ _ _ _ left => left.2 live left.1

theorem setMaterials {proxy : ProxyId} {materials : Materials}
    (sound : Sound created registered world)
    (ran : world.setMaterials proxy materials = .ok next) : Sound created registered next := by
  obtain ⟨-, rfl⟩ | ⟨owner, previous, found, -, ran⟩ := setMaterials_cases ran
  · exact sound
  · have written : (world.reassign proxy owner previous materials).proxies =
      world.proxies.insert proxy { owner with kind := owner.kind.withMaterials materials } := rfl
    refine reformed_family (sound.reformed found written
      (ProxyKind.parent?_withMaterials _ _) rfl rfl rfl rfl) ?_ ran
    rw [written, Proxies.kinds_insert, Function.update_self]
    rfl

theorem setParameter {proxy : ProxyId} {name : String} {value : Option ParameterValue}
    (sound : Sound created registered world)
    (ran : world.setParameter proxy name value = .ok next) : Sound created registered next := by
  obtain ⟨-, rfl⟩ | ⟨owner, found, ran⟩ := setParameter_cases ran
  · exact sound
  · have written : (world.override proxy owner name value).proxies =
      world.proxies.insert proxy { owner with overrides := owner.overrides.set name value } := rfl
    refine reformed_family (sound.reformed found written rfl rfl rfl rfl rfl) ?_ ran
    rw [written, Proxies.kinds_insert, Function.update_self]
    rfl

/-- A world without a proxy, and what the proxies below it had from it is stale. -/
theorem removed {proxy : ProxyId} (sound : Sound created registered world) :
    Consistent created registered (Function.update world.proxies.kinds proxy none)
      (fun low _ => world.proxies.kinds.Below low proxy ∧ (world.proxies.kinds proxy).isSome)
      { world.without proxy with
        children := Table.erase (world.without proxy).children proxy } := by
  have kinds : (world.without proxy).proxies.kinds =
      Function.update world.proxies.kinds proxy none := by
    funext low
    unfold Proxies.kinds
    rw [without_proxies, Function.update_apply]
    split <;> rfl
  have caches {low : ProxyId} {tier : Tier} {cache : UniformCache}
      (found : (world.without proxy).cacheOf low tier = some cache) :
      low ≠ proxy ∧ world.cacheOf low tier = some cache := by
    rw [cacheOf_without] at found
    split at found
    · cases found
    · rename_i different
      exact ⟨different, found⟩
  have hangs {child parent : ProxyId}
      (hung : Kinds.Hangs (Function.update world.proxies.kinds proxy none) child parent) :
      child ≠ proxy ∧ world.proxies.kinds.Hangs child parent := by
    obtain ⟨kind, live, parent?⟩ := hung
    rw [Function.update_apply] at live
    split at live
    · cases live
    · rename_i different
      exact ⟨different, kind, live, parent?⟩
  refine ⟨sound.arranged.regroup kinds (fun low kind live => ?_)
      (fun child parent hung => sound.arranged.ranked child parent (hangs hung).2)
      (fun child parent hung live => ?_) (without_materials ..),
    sound.noted.carry (fun low tier cache resource found built => ⟨cache, (caches found).2, built⟩)
      (fun low tier cache resource found noted => mem_without_builtFrom noted (caches found).1)
      (without_materials ..),
    sound.current.carry (fun low tier cache found _ _ => ⟨(caches found).2, id⟩)
      (fun low tier cache resource _ apart draws => draws.congr fun high below => ?_)
      (without_materials ..)⟩
  · rw [Function.update_apply] at live
    split at live
    · cases live
    · exact sound.arranged.known low kind live
  · rw [Function.update_apply] at live
    split at live
    · cases live
    · rename_i different
      rw [Index.entriesOf_erase, if_neg different]
      exact mem_without_children (sound.arranged.children child parent (hangs hung).2 live)
        (hangs hung).1
  · rw [Function.update_apply]
    split
    · rename_i same
      cases live : world.proxies.kinds proxy with
      | none => rw [same, live]
      | some kind => exact absurd ⟨same ▸ below, by rw [live]; rfl⟩ apart
    · rfl

/-- Invalidating the families of the orphans reaches every proxy below the removed one. -/
theorem removeProxy {proxy : ProxyId} (sound : Sound created registered world)
    (ran : world.removeProxy proxy = .ok next) : Sound created registered next := by
  have ranked := sound.arranged.ranked
  have all := foldlM_invariant
    (motive := fun rest world' => Consistent created registered
      (Function.update world.proxies.kinds proxy none)
      (fun low _ => world.proxies.kinds.LeftBelow proxy rest low) world')
    (fun first rest before after consistent stepped =>
      (consistent.invalidateFamily stepped).weaken fun low _ _ _ _ left =>
        left.1.tail ranked left.2)
    _ _ next
    (sound.removed.weaken fun low _ _ _ _ old => ⟨old.1, old.2, fun child hung _ =>
      mem_without_children (sound.arranged.children child proxy hung old.2) (hung.ne ranked)⟩)
    ran
  refine all.sound fun low tier cache found _ => Kinds.LeftBelow.not_nil ranked ?_
  obtain ⟨owner, there, _⟩ := Option.map_eq_some_iff.mp found
  rw [← all.arranged.kinds_eq, Proxies.kinds_eq_some.mpr ⟨owner, there, rfl⟩]
  rfl

/-! ### Streaming producers -/

theorem destroyProducer {producer : ProducerId} (sound : Sound created registered world)
    (ran : world.destroyProducer producer = .ok next) : Sound created registered next := by
  have start : Sound created registered
      { world with streaming := (world.streaming.destroyProducer producer).2 } :=
    sound.congr rfl rfl rfl rfl
  exact foldlM_kept (fun _ _ _ before stepped => before.invalidate stepped) _ _ next start ran

end Sound

end Shading.World
