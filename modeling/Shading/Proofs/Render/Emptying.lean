/-
What a change empties while stale caches wait. The caches it concerns lose what
they hold, their proxies are put on the list of those to be looked at, and
nothing else of the world is touched. This is said of one proxy and of one cache,
and from there it goes over to any number of them, one after the other. Who owns
what settles the rest: what an emptied cache had is freed, and a proxy is told of
just the producers that its other caches read.

Setting a parameter concerns a proxy and all that are below it. They are found
by following the index of children, which names all of them and nobody else, and
each thing met is visited once. So none is missed, and none is emptied twice or
without need.
-/

import Shading.Proofs.Render.Diligence
import Shading.Proofs.Render.Ownership
import Shading.Proofs.Render.Tidiness

namespace Shading

/-! ### What is reached -/

section

variable {α : Type} [DecidableEq α] {next : α → List α}

theorem nodup_visit (steps : Nat) (pending visited : List α) (distinct : visited.Nodup) :
    (visit next steps pending visited).Nodup := by
  fun_induction visit next steps pending visited with
  | case1 | case2 => exact distinct
  | case3 _ _ _ _ _ inductionHypothesis => exact inductionHypothesis distinct
  | case4 visited _ first _ unseen inductionHypothesis =>
    refine inductionHypothesis (List.nodup_append.mpr ⟨distinct, List.nodup_singleton _, ?_⟩)
    intro thing met other last same
    rw [List.mem_singleton.mp last] at same
    exact unseen (same ▸ met)

/-- Whatever goes over from each thing to the next ones holds of all that is visited. -/
theorem visit_forall (holds : α → Prop) (steps : Nat) (pending visited : List α)
    (passes : ∀ thing, holds thing → ∀ other ∈ next thing, holds other)
    (waiting : ∀ thing ∈ pending, holds thing) (before : ∀ thing ∈ visited, holds thing) :
    ∀ thing ∈ visit next steps pending visited, holds thing := by
  fun_induction visit next steps pending visited with
  | case1 | case2 => exact before
  | case3 _ _ _ _ _ inductionHypothesis =>
    exact inductionHypothesis (List.forall_mem_cons.mp waiting).2 before
  | case4 _ _ _ _ _ inductionHypothesis =>
    obtain ⟨here, later⟩ := List.forall_mem_cons.mp waiting
    exact inductionHypothesis (List.forall_mem_append.mpr ⟨later, passes _ here⟩)
      (List.forall_mem_append.mpr ⟨before, List.forall_mem_singleton.mpr here⟩)

end

namespace RenderProxy

/-- A proxy is what it is apart from its caches, together with its caches. -/
theorem eq_of_bare {owner other : RenderProxy} (bare : owner.bare = other.bare)
    (caches : ∀ tier, owner.caches.get tier = other.caches.get tier) : owner = other := by
  obtain ⟨kind, overrides, ⟨mobile, desktop, highEnd⟩⟩ := owner
  obtain ⟨kind', overrides', ⟨mobile', desktop', highEnd'⟩⟩ := other
  simp only [RenderProxy.bare, RenderProxy.mk.injEq] at bare
  obtain ⟨rfl, rfl, -⟩ := bare
  rw [show mobile = mobile' from caches .mobile, show desktop = desktop' from caches .desktop,
    show highEnd = highEnd' from caches .highEnd]

end RenderProxy

theorem UniformCache.invalidate_invalidate (cache : UniformCache) (recreate : Bool) :
    (cache.invalidate recreate).invalidate recreate = cache.invalidate recreate := by
  cases recreate <;> rfl

namespace World

variable {activeTiers : List Tier} {created : List ProxyId} {world next : World}
  {proxy low : ProxyId} {tier : Tier} {recreate : Bool} {owner : RenderProxy}
  {hit hit' : ProxyId → Tier → Prop} {times times' : Nat}

/-! ### Emptying some caches -/

/-- Some caches have been emptied and their proxies wait to be looked at. Only the proxies, the
streaming textures, the list of those that wait and the counts are touched. -/
structure Emptied (recreate : Bool) (hit : ProxyId → Tier → Prop) (times : Nat)
    (world next : World) : Prop where
  emptied : ∀ proxy tier, hit proxy tier →
    next.cacheOf proxy tier = (world.cacheOf proxy tier).map (·.invalidate recreate)
  kept : ∀ proxy tier, ¬hit proxy tier → next.cacheOf proxy tier = world.cacheOf proxy tier
  bare : ∀ proxy, (next.proxies.get? proxy).map RenderProxy.bare =
    (world.proxies.get? proxy).map RenderProxy.bare
  waits : ∀ proxy, proxy ∈ next.deferred ↔ proxy ∈ world.deferred ∨ ∃ tier, hit proxy tier
  counted : next.stats = { world.stats with invalidations := world.stats.invalidations + times }
  left : ∀ allocation content, next.streaming.allocations.get? allocation = some content →
    world.streaming.allocations.get? allocation = some content ∧
      ∀ proxy tier cache, hit proxy tier → world.cacheOf proxy tier = some cache →
        allocation ∉ cache.allocations
  elsewhere : next = { world with
    proxies := next.proxies, streaming := next.streaming, deferred := next.deferred,
    stats := next.stats }

namespace Emptied

theorem refl (recreate : Bool) (world : World) :
    Emptied recreate (fun _ _ => False) 0 world world where
  emptied := fun _ _ here => here.elim
  kept := fun _ _ _ => rfl
  bare := fun _ => rfl
  waits := fun _ => by simp
  counted := rfl
  left := fun _ _ there => ⟨there, fun _ _ _ here => here.elim⟩
  elsewhere := rfl

/-- A cache that is emptied a second time stays as it is. -/
theorem trans {middle : World} (first : Emptied recreate hit times world middle)
    (second : Emptied recreate hit' times' middle next) :
    Emptied recreate (fun proxy tier => hit proxy tier ∨ hit' proxy tier) (times + times') world
      next where
  emptied := fun proxy tier here => by
    have twice (cache : Option UniformCache) :
        (cache.map (·.invalidate recreate)).map (·.invalidate recreate) =
          cache.map (·.invalidate recreate) := by
      rw [Option.map_map]
      exact Option.map_congr fun cache _ => cache.invalidate_invalidate recreate
    -- The cache was emptied by both steps or by one of them.
    by_cases again : hit' proxy tier <;> by_cases before : hit proxy tier
    · rw [second.emptied _ _ again, first.emptied _ _ before, twice]
    · rw [second.emptied _ _ again, first.kept _ _ before]
    · rw [second.kept _ _ again, first.emptied _ _ before]
    · exact (here.elim before again).elim
  kept := fun proxy tier missed => by
    obtain ⟨before, again⟩ := not_or.mp missed
    rw [second.kept _ _ again, first.kept _ _ before]
  bare := fun proxy => (second.bare proxy).trans (first.bare proxy)
  waits := fun proxy => by
    rw [second.waits, first.waits, or_assoc, ← exists_or]
  counted := by
    rw [second.counted, first.counted]
    simp only [Nat.add_assoc]
  left := fun allocation content there => by
    obtain ⟨between, apart⟩ := second.left allocation content there
    obtain ⟨start, before⟩ := first.left allocation content between
    refine ⟨start, fun proxy tier cache here found => ?_⟩
    by_cases old : hit proxy tier
    · exact before proxy tier cache old found
    · exact apart proxy tier cache (here.resolve_left old) ((first.kept _ _ old).trans found)
  elsewhere := by
    rw [second.elsewhere, first.elsewhere]

theorem congr_hit (emptied : Emptied recreate hit times world next)
    (same : ∀ proxy tier, hit' proxy tier ↔ hit proxy tier) :
    Emptied recreate hit' times world next := by
  have equal : hit' = hit := funext fun proxy => funext fun tier => propext (same proxy tier)
  exact equal ▸ emptied

theorem deferring_eq (emptied : Emptied recreate hit times world next) :
    next.deferring = world.deferring := by
  rw [emptied.elsewhere]

theorem isSome_get? (emptied : Emptied recreate hit times world next) (proxy : ProxyId) :
    (next.proxies.get? proxy).isSome = (world.proxies.get? proxy).isSome := by
  have same := congrArg Option.isSome (emptied.bare proxy)
  rwa [Option.isSome_map, Option.isSome_map] at same

/-- A proxy none of whose caches is emptied is just as it was. -/
theorem get?_eq (emptied : Emptied recreate hit times world next)
    (missed : ∀ tier, ¬hit proxy tier) : next.proxies.get? proxy = world.proxies.get? proxy := by
  have bare := emptied.bare proxy
  cases was : world.proxies.get? proxy with
  | none =>
    rw [was] at bare
    exact Option.map_eq_none_iff.mp bare
  | some owner =>
    rw [was] at bare
    obtain ⟨later, found, sameBare⟩ := Option.map_eq_some_iff.mp bare
    rw [found]
    refine congrArg some (RenderProxy.eq_of_bare sameBare fun tier => ?_)
    have same := emptied.kept proxy tier (missed tier)
    rw [cacheOf_of_found was, cacheOf_of_found found] at same
    exact Option.some.inj same

/-! ### One after the other -/

/-- Steps that each empty something of a live proxy empty all of it together. -/
theorem foldlM {α : Type} {step : World → α → Except Fault World} (who : α → ProxyId)
    (concerns : α → ProxyId → Tier → Prop)
    (each : ∀ world subject, world.deferring = true → (world.proxies.get? (who subject)).isSome →
      ∃ next, step world subject = .ok next ∧ Emptied recreate (concerns subject) 1 world next)
    (subjects : List α) (late : world.deferring = true)
    (live : ∀ subject ∈ subjects, (world.proxies.get? (who subject)).isSome) :
    ∃ next, subjects.foldlM step world = .ok next ∧
      Emptied recreate (fun proxy tier => ∃ subject ∈ subjects, concerns subject proxy tier)
        subjects.length world next := by
  induction subjects generalizing world with
  | nil => exact ⟨world, rfl, (refl recreate world).congr_hit (by simp)⟩
  | cons first rest inductionHypothesis =>
    obtain ⟨here, later⟩ := List.forall_mem_cons.mp live
    obtain ⟨middle, stepped, once⟩ := each world first late here
    obtain ⟨next, ran, more⟩ := inductionHypothesis (once.deferring_eq.trans late)
      fun subject member => by rw [once.isSome_get?, later subject member]
    refine ⟨next, ?_, ?_⟩
    · rw [List.foldlM_cons, stepped]
      exact ran
    · rw [List.length_cons, Nat.add_comm]
      exact (once.trans more).congr_hit fun _ _ => List.exists_mem_cons_iff ..

end Emptied

theorem markStale_deferring (late : world.deferring = true) (proxy : ProxyId) :
    ∃ pending, world.markStale proxy = .ok { world with deferred := pending } ∧
      ∀ other, other ∈ pending ↔ other ∈ world.deferred ∨ other = proxy := by
  unfold markStale
  rw [if_pos late]
  split
  · rename_i member
    exact ⟨_, rfl, fun other => (or_iff_left_of_imp fun same => same ▸ member).symm⟩
  · exact ⟨_, rfl, fun other => by rw [List.mem_append, List.mem_singleton]⟩

theorem get?_freeAll {streaming : Streaming} {allocations : List AllocationId}
    {allocation : AllocationId} {content : StreamingAllocation}
    (there : (UniformCache.freeAll streaming allocations).allocations.get? allocation =
      some content) :
    streaming.allocations.get? allocation = some content ∧ allocation ∉ allocations := by
  unfold UniformCache.freeAll at there
  induction allocations generalizing streaming with
  | nil => exact ⟨there, List.not_mem_nil⟩
  | cons first rest inductionHypothesis =>
    obtain ⟨left, later⟩ := inductionHypothesis there
    unfold Streaming.free Streaming.freeOptional at left
    dsimp only at left
    rw [Table.get?_erase] at left
    split at left
    · cases left
    · rename_i different
      exact ⟨left, List.not_mem_cons_of_ne_of_not_mem different later⟩

/-- A proxy that is written anew with emptied caches waits. -/
theorem Emptied.of_written {dropped : World} {other : RenderProxy}
    (late : world.deferring = true) (found : world.proxies.get? proxy = some owner)
    (written : dropped.proxies = world.proxies.insert proxy other)
    (sameBare : other.bare = owner.bare)
    (concerns : ∀ other, (∃ tier, hit other tier) ↔ other = proxy)
    (emptied : ∀ other tier, hit other tier →
      dropped.cacheOf other tier = (world.cacheOf other tier).map (·.invalidate recreate))
    (kept : ∀ other tier, ¬hit other tier → dropped.cacheOf other tier = world.cacheOf other tier)
    (left : ∀ allocation content,
      dropped.streaming.allocations.get? allocation = some content →
      world.streaming.allocations.get? allocation = some content ∧
        ∀ other tier cache, hit other tier → world.cacheOf other tier = some cache →
          allocation ∉ cache.allocations)
    (elsewhere : dropped = { world with
      proxies := dropped.proxies, streaming := dropped.streaming,
      stats := world.countInvalidation.stats }) :
    ∃ next, dropped.markStale proxy = .ok next ∧ Emptied recreate hit 1 world next := by
  have wait : dropped.deferring = true := by
    rw [elsewhere]
    exact late
  have pending : dropped.deferred = world.deferred := by
    rw [elsewhere]
  obtain ⟨later, ran, members⟩ := markStale_deferring wait proxy
  refine ⟨_, ran, emptied, kept, fun its => ?_, fun its => ?_, ?_, left, ?_⟩
  · show (dropped.proxies.get? its).map RenderProxy.bare = _
    rw [written, Table.get?_insert]
    split
    · rename_i here
      rw [here, found, Option.map_some, Option.map_some, sameBare]
    · rfl
  · rw [concerns, ← pending]
    exact members its
  · show dropped.stats = _
    rw [elsewhere]
    rfl
  · conv_lhs => rw [elsewhere]
    rw [elsewhere]

/-- What is left of the allocations is what it was, and the caches of the proxy had none of it. -/
theorem get?_dropCaches {allocation : AllocationId} {content : StreamingAllocation}
    (found : world.proxies.get? proxy = some owner)
    (there : (world.dropCaches recreate proxy owner).streaming.allocations.get? allocation =
      some content) :
    world.streaming.allocations.get? allocation = some content ∧
      ∀ tier cache, world.cacheOf proxy tier = some cache → allocation ∉ cache.allocations := by
  unfold dropCaches countInvalidation count Streaming.unsubscribeAll at there
  dsimp only at there
  rw [freeCaches_eq] at there
  obtain ⟨before, apart⟩ := get?_freeAll there
  refine ⟨before, fun tier cache its member => apart ?_⟩
  rw [cacheOf_of_found found] at its
  cases its
  exact List.mem_flatMap.mpr ⟨_, PerTier.mem_toList.mpr ⟨tier, rfl⟩, member⟩

theorem get?_dropCache {allocation : AllocationId} {content : StreamingAllocation}
    (found : world.proxies.get? proxy = some owner)
    (there : (world.dropCache recreate proxy owner tier).streaming.allocations.get? allocation =
      some content) :
    world.streaming.allocations.get? allocation = some content ∧
      ∀ cache, world.cacheOf proxy tier = some cache → allocation ∉ cache.allocations := by
  have released := releaseSubscriptions_retold
    (UniformCache.freeAll world.streaming (owner.caches.get tier).allocations)
    (owner.caches.set tier ((owner.caches.get tier).invalidate recreate)) proxy
    (owner.caches.get tier).producers
  unfold dropCache countInvalidation count at there
  dsimp only at there
  rw [released.allocations] at there
  obtain ⟨before, apart⟩ := get?_freeAll there
  refine ⟨before, fun cache its member => apart ?_⟩
  rw [cacheOf_of_found found] at its
  cases its
  exact member

theorem invalidate_emptied (late : world.deferring = true)
    (found : world.proxies.get? proxy = some owner) (recreate : Bool) :
    ∃ next, world.invalidate recreate proxy = .ok next ∧
      Emptied recreate (fun other _ => other = proxy) 1 world next := by
  have caches := cacheOf_dropCaches world recreate proxy owner found
  unfold World.invalidate
  rw [found]
  refine Emptied.of_written late found (dropCaches_proxies ..) rfl (by simp)
    (fun other level here => (caches other level).trans (if_pos here))
    (fun other level missed => (caches other level).trans (if_neg missed))
    (fun allocation content there => ?_) rfl
  obtain ⟨before, apart⟩ := get?_dropCaches found there
  exact ⟨before, fun other level cache here => here ▸ apart level cache⟩

theorem invalidateTier_emptied (late : world.deferring = true)
    (found : world.proxies.get? proxy = some owner) (recreate : Bool) (tier : Tier) :
    ∃ next, world.invalidateTier recreate proxy tier = .ok next ∧
      Emptied recreate (fun other level => other = proxy ∧ level = tier) 1 world next := by
  have caches := cacheOf_dropCache world recreate proxy owner tier found
  unfold World.invalidateTier
  rw [found]
  refine Emptied.of_written late found (dropCache_proxies ..) rfl (by simp)
    (fun other level here => (caches other level).trans (if_pos here))
    (fun other level missed => (caches other level).trans (if_neg missed))
    (fun allocation content there => ?_) rfl
  obtain ⟨before, apart⟩ := get?_dropCache found there
  refine ⟨before, ?_⟩
  rintro _ _ cache ⟨rfl, rfl⟩
  exact apart cache

namespace Emptied

/-! ### What becomes of streaming textures -/

section

variable {produced produced' : List ProducerId} {id : ProducerId} {cache : UniformCache}
  {allocation : AllocationId}

/-- A proxy is told of just the producers that those of its caches read that were not emptied. -/
theorem tells_iff (emptied : Emptied recreate hit times world next)
    (after : Attended produced (fun _ _ => False) next) :
    next.streaming.Tells id proxy ↔ ∃ tier cache, ¬hit proxy tier ∧
      world.cacheOf proxy tier = some cache ∧ id ∈ cache.producers := by
  constructor
  · intro told
    obtain ⟨tier, cache, there, reads⟩ := after.reads proxy id told
    have missed : ¬hit proxy tier := fun here => by
      rw [emptied.emptied _ _ here] at there
      obtain ⟨_, _, rfl⟩ := Option.map_eq_some_iff.mp there
      cases reads
    exact ⟨tier, cache, missed, emptied.kept _ _ missed ▸ there, reads⟩
  · rintro ⟨tier, cache, missed, there, reads⟩
    have still := (emptied.kept _ _ missed).trans there
    exact (after.told proxy id ⟨tier, cache, still, reads⟩).resolve_right not_false

theorem tells_congr (emptied : Emptied recreate hit times world next)
    (before : Attended produced (fun _ _ => False) world)
    (after : Attended produced' (fun _ _ => False) next) (missed : ∀ tier, ¬hit proxy tier) :
    next.streaming.Tells id proxy ↔ world.streaming.Tells id proxy := by
  rw [emptied.tells_iff after]
  constructor
  · rintro ⟨tier, cache, _, there, reads⟩
    exact (before.told proxy id ⟨tier, cache, there, reads⟩).resolve_right not_false
  · intro told
    obtain ⟨tier, cache, there, reads⟩ := before.reads proxy id told
    exact ⟨tier, cache, missed tier, there, reads⟩

/-- What an emptied cache had is free. -/
theorem freed (emptied : Emptied recreate hit times world next) (here : hit proxy tier)
    (there : world.cacheOf proxy tier = some cache) (had : allocation ∈ cache.allocations) :
    ¬next.streaming.Allocated allocation := by
  intro live
  obtain ⟨content, got⟩ := Option.isSome_iff_exists.mp live
  exact (emptied.left allocation content got).2 proxy tier cache here there had

/-- What another cache has stays as it is. -/
theorem stays (emptied : Emptied recreate hit times world next)
    (after : Attended produced (fun _ _ => False) next) (missed : ¬hit proxy tier)
    (there : world.cacheOf proxy tier = some cache) (has : allocation ∈ cache.allocations) :
    next.streaming.Allocated allocation ∧
      next.streaming.allocations.get? allocation =
        world.streaming.allocations.get? allocation := by
  have owned : allocation ∈ next.owned (.cache proxy tier) := by
    rw [owned_cache ((emptied.kept _ _ missed).trans there)]
    exact has
  have live := (after.apportioned.allocated allocation).mpr ⟨_, owned⟩
  obtain ⟨content, got⟩ := Option.isSome_iff_exists.mp live
  exact ⟨live, got.trans (emptied.left allocation content got).1.symm⟩

end

end Emptied

/-! ### Who names a resource -/

/-- Every proxy is listed under the resources that it has of its own, and how caches are kept up
does not change. -/
structure Listed (deferring : Bool) (activeTiers : List Tier) (world : World) : Prop where
  deferring_eq : world.deferring = deferring
  activeTiers_eq : world.activeTiers = activeTiers
  enlists : world.Enlists

namespace Listed

variable {deferring : Bool} {resource : ResourceId}

theorem carry (listed : Listed deferring activeTiers world)
    (sameKinds : next.proxies.kinds = world.proxies.kinds) (sameUsers : next.users = world.users)
    (sameDeferring : next.deferring = world.deferring)
    (sameTiers : next.activeTiers = world.activeTiers) : Listed deferring activeTiers next :=
  ⟨sameDeferring.trans listed.deferring_eq, sameTiers.trans listed.activeTiers_eq,
    listed.enlists.carry sameKinds sameUsers⟩

theorem lasting : Lasting (Listed deferring activeTiers) where
  deferred := fun _ _ listed => listed.carry rfl rfl rfl rfl
  installed := fun _ _ _ _ _ _ listed _ found _ => by
    refine listed.carry ?_ (install_users ..) (install_deferring ..) (install_activeTiers ..)
    rw [install_proxies]
    exact Proxies.kinds_insert_same found rfl

theorem invalidate (listed : Listed deferring activeTiers world)
    (ran : world.invalidate recreate proxy = .ok next) : Listed deferring activeTiers next :=
  lasting.invalidate (fun _ => listed)
    (fun _ found => listed.carry (Proxies.kinds_insert_same found rfl) rfl rfl rfl) ran

theorem invalidateTier (listed : Listed deferring activeTiers world)
    (ran : world.invalidateTier recreate proxy tier = .ok next) :
    Listed deferring activeTiers next :=
  lasting.invalidateTier (fun _ => listed)
    (fun _ found => listed.carry (Proxies.kinds_insert_same found rfl) rfl rfl rfl) ran

theorem invalidateFamily (listed : Listed deferring activeTiers world)
    (ran : world.invalidateFamily proxy = .ok next) : Listed deferring activeTiers next :=
  foldlM_kept (fun _ _ _ before stepped => before.invalidate stepped) _ _ _ listed ran

theorem invalidateDependents (listed : Listed deferring activeTiers world)
    (ran : world.invalidateDependents resource tier recreate = .ok next) :
    Listed deferring activeTiers next :=
  foldlM_kept (fun _ _ _ before stepped => before.invalidateTier stepped) _ _ _ listed ran

theorem setMap {map : Option SharedMap} (listed : Listed deferring activeTiers world)
    (ran : world.setMap resource map = .ok next) : Listed deferring activeTiers next := by
  obtain ⟨-, rfl⟩ | ⟨material, -, -, ran⟩ := setMap_cases ran
  · exact listed
  · have placed : Listed deferring activeTiers (world.placeMap resource material map) :=
      listed.carry rfl rfl rfl rfl
    exact placed.invalidateDependents ran

theorem releaseMaterial (listed : Listed deferring activeTiers world)
    (ran : world.releaseMaterial resource = .ok next) : Listed deferring activeTiers next := by
  obtain ⟨-, rfl⟩ | ⟨material, left, -, invalidated, rfl⟩ := releaseMaterial_cases ran
  · exact listed
  · have withdrawn : Listed deferring activeTiers (world.withdraw resource) :=
      listed.carry rfl rfl rfl rfl
    exact (withdrawn.invalidateDependents invalidated).carry rfl rfl rfl rfl

theorem createProxy {kind : ProxyKind} (listed : Listed deferring activeTiers world)
    (ran : world.createProxy proxy kind = .ok next) : Listed deferring activeTiers next := by
  have attached : Listed deferring activeTiers (world.attach proxy kind) := by
    obtain ⟨children, users, same⟩ := world.attach_eq proxy kind
    refine ⟨?_, ?_, listed.enlists.attach proxy kind⟩ <;> rw [same]
    · exact listed.deferring_eq
    · exact listed.activeTiers_eq
  exact lasting.markStale attached ran

theorem setMaterials {materials : Materials} (listed : Listed deferring activeTiers world)
    (ran : world.setMaterials proxy materials = .ok next) : Listed deferring activeTiers next := by
  obtain ⟨-, rfl⟩ | ⟨owner, previous, -, owned, ran⟩ := setMaterials_cases ran
  · exact listed
  · have assigned : Listed deferring activeTiers (world.reassign proxy owner previous materials) :=
      ⟨listed.deferring_eq, listed.activeTiers_eq, listed.enlists.reassign owned materials⟩
    exact assigned.invalidateFamily ran

theorem setParameter {name : String} {value : Option ParameterValue}
    (listed : Listed deferring activeTiers world)
    (ran : world.setParameter proxy name value = .ok next) : Listed deferring activeTiers next := by
  obtain ⟨-, rfl⟩ | ⟨owner, found, ran⟩ := setParameter_cases ran
  · exact listed
  · have written : Listed deferring activeTiers (world.override proxy owner name value) :=
      listed.carry (Proxies.kinds_insert_same found rfl) rfl rfl rfl
    exact written.invalidateFamily ran

theorem removeProxy (listed : Listed deferring activeTiers world)
    (ran : world.removeProxy proxy = .ok next) : Listed deferring activeTiers next := by
  have mode := world.without_mode proxy
  have left : Listed deferring activeTiers { world.without proxy with
      children := Table.erase (world.without proxy).children proxy } :=
    ⟨mode.1.trans listed.deferring_eq, mode.2.trans listed.activeTiers_eq,
      listed.enlists.without proxy⟩
  exact foldlM_kept (fun _ _ _ before stepped => before.invalidateFamily stepped) _ _ _ left ran

theorem destroyProducer {producer : ProducerId} (listed : Listed deferring activeTiers world)
    (ran : world.destroyProducer producer = .ok next) : Listed deferring activeTiers next := by
  have start : Listed deferring activeTiers
      { world with streaming := (world.streaming.destroyProducer producer).2 } :=
    listed.carry rfl rfl rfl rfl
  exact foldlM_kept (fun _ _ _ before stepped => before.invalidate stepped) _ _ next start ran

theorem apply {command : RenderCommand} (listed : Listed deferring activeTiers world)
    (ran : world.apply command = .ok next) : Listed deferring activeTiers next := by
  have counted : Listed deferring activeTiers
      (world.count fun stats => { stats with commands := stats.commands + 1 }) :=
    listed.carry rfl rfl rfl rfl
  unfold World.apply at ran
  cases command with
  | setMap => exact counted.setMap ran
  | releaseMaterial => exact counted.releaseMaterial ran
  | createProxy => exact counted.createProxy ran
  | setMaterials => exact counted.setMaterials ran
  | setParameter | clearParameter => exact counted.setParameter ran
  | recache => exact counted.invalidate ran
  | removeProxy => exact counted.removeProxy ran
  | destroyProducer => exact counted.destroyProducer ran
  | registerMaterial | setDefault | createProducer | materialsUpdated | fence =>
    cases ran
    exact counted.carry rfl rfl rfl rfl

theorem carryOut {operation : Operation} (listed : Listed deferring activeTiers world)
    (ran : operation.carryOut world = .ok next) : Listed deferring activeTiers next := by
  cases operation with
  | perform => exact listed.apply ran
  | announce =>
    cases ran
    exact listed.carry rfl rfl rfl rfl
  | updateDeferred =>
    obtain ⟨⟨count, world⟩, updated, rfl⟩ := map_eq_ok.mp ran
    exact lasting.updateDeferred listed updated
  | updateIfNeeded => exact lasting.updateIfNeeded listed ran
  | evaluate =>
    obtain ⟨⟨built, world⟩, evaluated, rfl⟩ := map_eq_ok.mp ran
    exact lasting.evaluate listed evaluated
  | prepareDraw =>
    obtain ⟨⟨drawn, world⟩, prepared, rfl⟩ := map_eq_ok.mp ran
    exact lasting.prepareDraw listed prepared
  | invalidate => exact listed.invalidate ran

end Listed

/-! ### Families -/

theorem nodup_family (world : World) (proxy : ProxyId) : (world.family proxy).Nodup :=
  nodup_visit _ _ _ List.nodup_nil

/-- The family of a live proxy is the proxy with all that are below it. -/
theorem Tidy.mem_family_iff {registered : List ResourceId} {kinds : Kinds}
    (tidy : Tidy created world) (arranged : Arranged created registered kinds world)
    (live : (kinds proxy).isSome) : low ∈ world.family proxy ↔ kinds.Below low proxy := by
  refine ⟨fun member => ?_, fun below => arranged.mem_family below live⟩
  refine visit_forall (kinds.Below · proxy) _ [proxy] [] (fun parent below child listed => ?_)
    (List.forall_mem_singleton.mpr .refl) (List.forall_mem_nil _) low member
  have hangs := tidy.children parent child (List.mem_mergeSort.mp listed)
  rw [arranged.kinds_eq] at hangs
  exact .head hangs below

/-- Whoever is below a live proxy is live. -/
theorem isSome_of_below (below : world.proxies.kinds.Below low proxy)
    (live : (world.proxies.get? proxy).isSome) : (world.proxies.get? low).isSome := by
  rcases Relation.ReflTransGen.cases_head below with rfl | ⟨_, ⟨_, found, _⟩, _⟩
  · exact live
  · obtain ⟨owner, there, _⟩ := Proxies.kinds_eq_some.mp found
    exact there ▸ rfl

/-- Invalidating the family of a live proxy empties the caches of all that are below it. -/
theorem invalidateFamily_emptied {registered : List ResourceId} {kinds : Kinds}
    (tidy : Tidy created world) (arranged : Arranged created registered kinds world)
    (late : world.deferring = true) (live : (world.proxies.get? proxy).isSome) :
    ∃ next, world.invalidateFamily proxy = .ok next ∧
      Emptied false (fun low _ => kinds.Below low proxy) (world.family proxy).length world
        next := by
  obtain ⟨owner, found⟩ := Option.isSome_iff_exists.mp live
  have kindLive : (kinds proxy).isSome := arranged.kinds_eq ▸ Tidy.live_of_found found
  have members (low : ProxyId) : low ∈ world.family proxy ↔ kinds.Below low proxy :=
    tidy.mem_family_iff arranged kindLive
  -- All of the family are there, so none of them is passed over and the count is its size.
  have all : ∀ low ∈ world.family proxy, (world.proxies.get? low).isSome := fun low member =>
    isSome_of_below (arranged.kinds_eq ▸ (members low).mp member) live
  obtain ⟨next, ran, emptied⟩ := Emptied.foldlM id (fun low other _ => other = low)
    (fun world low late live => by
      obtain ⟨owner, found⟩ := Option.isSome_iff_exists.mp live
      exact invalidate_emptied late found false) (world.family proxy) late all
  exact ⟨next, ran, emptied.congr_hit fun low _ => by simp [members]⟩

end World

namespace RenderCommand

/-- The command that sets a parameter of a proxy, or clears it. -/
def assign (proxy : ProxyId) (name : String) : Option ParameterValue → RenderCommand
  | some value => .setParameter proxy name value
  | none => .clearParameter proxy name

end RenderCommand

namespace World

variable {world next : World} {proxy : ProxyId} {owner : RenderProxy}

theorem carryOut_assign (proxy : ProxyId) (name : String) (value : Option ParameterValue) :
    world.carryOut (.assign proxy name value) = world.setParameter proxy name value := by
  cases value <;> rfl

end World

namespace Run

variable {activeTiers : List Tier} {past : List Operation} {world : World} {deferring : Bool}
  {proxy : ProxyId} {owner : RenderProxy}

theorem tidy (run : Run deferring activeTiers past world) :
    World.Tidy (Operation.createdBy past) world := by
  induction run with
  | start => exact .start deferring activeTiers
  | step _ may ran inductionHypothesis =>
    unfold Operation.createdBy
    rw [List.flatMap_append, List.flatMap_singleton]
    exact inductionHypothesis.carryOut may.creates ran

theorem listed (run : Run deferring activeTiers past world) :
    World.Listed deferring activeTiers world := by
  induction run with
  | start => exact ⟨rfl, rfl, fun _ _ _ _ live => nomatch live⟩
  | step _ _ ran inductionHypothesis => exact inductionHypothesis.carryOut ran

/-- What a run relies on to find all whom a change concerns. -/
theorem ready (run : Run deferring activeTiers past world) :
    World.Ready deferring activeTiers (Operation.createdBy past) (Operation.registeredBy past)
      world.proxies.kinds world :=
  ⟨run.sound.weaken fun _ _ _ _ _ _ => trivial, run.listed.deferring_eq, run.listed.activeTiers_eq,
    run.listed.enlists⟩

/-- Setting or clearing a parameter of a proxy is carried out, and it concerns the proxy and all
that are below it, each once. Their caches lose all but their buffers, they are told of no producer
any more, and they are added to those that wait. All other proxies keep their caches, their
allocations and their subscriptions, and no other override changes. -/
theorem assign_empties_family (run : Run true activeTiers past world)
    (once : (Operation.producedBy past).Nodup) (found : world.proxies.get? proxy = some owner)
    (name : String) (value : Option ParameterValue) :
    ∃ next, world.apply (.assign proxy name value) = .ok next ∧
      ((world.family proxy).Nodup ∧
        (∀ low, low ∈ world.family proxy ↔ world.proxies.kinds.Below low proxy) ∧
        next.stats.invalidations = world.stats.invalidations + (world.family proxy).length) ∧
      (∀ low, low ∈ next.deferred ↔
        low ∈ world.deferred ∨ world.proxies.kinds.Below low proxy) ∧
      (∀ low, world.proxies.kinds.Below low proxy →
        (∀ id, ¬next.streaming.Tells id low) ∧
        ∀ tier, ∃ cache later, world.cacheOf low tier = some cache ∧
          next.cacheOf low tier = some later ∧ later.valid = false ∧
          later.buffer = cache.buffer ∧ later.allocations = [] ∧
          ∀ allocation ∈ cache.allocations, ¬next.streaming.Allocated allocation) ∧
      (∀ other, ¬world.proxies.kinds.Below other proxy →
        next.proxies.get? other = world.proxies.get? other ∧
        (∀ id, next.streaming.Tells id other ↔ world.streaming.Tells id other) ∧
        ∀ tier cache, world.cacheOf other tier = some cache →
          ∀ allocation ∈ cache.allocations, next.streaming.Allocated allocation ∧
            next.streaming.allocations.get? allocation =
              world.streaming.allocations.get? allocation) ∧
      ∀ other, (next.proxies.get? other).map RenderProxy.overrides =
        if other = proxy then some (owner.overrides.set name value)
        else (world.proxies.get? other).map RenderProxy.overrides := by
  let counted := world.count fun stats => { stats with commands := stats.commands + 1 }
  let written := counted.override proxy owner name value
  have proxies : written.proxies = world.proxies.insert proxy
    { owner with overrides := owner.overrides.set name value } := rfl
  have kinds : written.proxies.kinds = world.proxies.kinds := Proxies.kinds_insert_same found rfl
  have caches : written.cacheOf = world.cacheOf := World.cacheOf_insert found proxies rfl
  have get? (other : ProxyId) : written.proxies.get? other =
      if other = proxy then some { owner with overrides := owner.overrides.set name value }
      else world.proxies.get? other := Table.get?_insert ..
  have tidy : World.Tidy (Operation.createdBy past) written :=
    run.tidy.carry kinds (fun other tier cache there => ⟨cache, caches ▸ there, rfl⟩) rfl rfl rfl
      rfl
  have arranged : World.Arranged (Operation.createdBy past) (Operation.registeredBy past)
      world.proxies.kinds written := run.sound.arranged.congr kinds rfl rfl
  have members (low : ProxyId) : low ∈ world.family proxy ↔ world.proxies.kinds.Below low proxy :=
    run.tidy.mem_family_iff run.sound.arranged (World.Tidy.live_of_found found)
  obtain ⟨next, ran, emptied⟩ := World.invalidateFamily_emptied tidy arranged
    run.listed.deferring_eq (by rw [get?, if_pos rfl]; rfl)
  have set : counted.setParameter proxy name value = .ok next := by
    unfold World.setParameter
    rw [show counted.proxies.get? proxy = some owner from found]
    exact ran
  have before : World.Attended (Operation.producedBy past) (fun _ _ => False) written :=
    (run.attended once).congr caches rfl
  have after : World.Attended (Operation.producedBy past) (fun _ _ => False) next :=
    before.invalidateFamily ran
  refine ⟨next, (World.carryOut_assign proxy name value).trans set,
    ⟨world.nodup_family proxy, members, ?_⟩,
    fun low => ?_, fun low below => ⟨fun id told => ?_, fun tier => ?_⟩,
    fun other apart => ⟨?_, fun id => ?_, fun tier cache there allocation has => ?_⟩,
    fun other => ?_⟩
  · exact congrArg RenderStats.invalidations emptied.counted
  · exact (emptied.waits low).trans (or_congr_right (exists_const Tier))
  · obtain ⟨tier, _, missed, _⟩ := (emptied.tells_iff after).mp told
    exact missed below
  · obtain ⟨its, there⟩ := Option.isSome_iff_exists.mp
      (World.isSome_of_below below (found ▸ rfl))
    have had : written.cacheOf low tier = some (its.caches.get tier) :=
      caches ▸ World.cacheOf_of_found there tier
    refine ⟨its.caches.get tier, _, World.cacheOf_of_found there tier,
      (emptied.emptied low tier below).trans (congrArg _ had), rfl, rfl, rfl, ?_⟩
    exact fun allocation => emptied.freed below had
  · have different : other ≠ proxy := fun same => apart (same ▸ .refl)
    exact (emptied.get?_eq fun _ => apart).trans ((get? other).trans (if_neg different))
  · exact emptied.tells_congr before after fun _ => apart
  · exact emptied.stays after apart (caches ▸ there) has
  · have overrides := congrArg (Option.map RenderProxy.overrides) (emptied.bare other)
    rw [Option.map_map, Option.map_map] at overrides
    refine (overrides.trans ?_)
    show (written.proxies.get? other).map RenderProxy.overrides = _
    rw [get?]
    split <;> rfl

/-- A proxy that is drawn as `layeredFrame` does it, another one that hangs on it, and a third one
apart from them. -/
def layeredFamily : List Operation :=
  layeredFrame.take 4 ++
    [.perform (.createProxy (.next .first) (.derived .first (.fill none))),
      .perform (.createProxy (.next (.next .first))
        (.material ((PerTier.fill none).set .desktop (some .first)))),
      .updateDeferred]

/-- A parameter of the first proxy concerns the first two, and the third one stays as it is. -/
theorem layeredFamily_assign : ∃ world next, Run true [.desktop] layeredFamily world ∧
    world.apply (.assign .first "Tint" (some (.scalar .one))) = .ok next ∧
    next.stats.invalidations = world.stats.invalidations + 2 ∧
    .first ∈ next.deferred ∧ .next .first ∈ next.deferred ∧
    next.proxies.get? (.next (.next .first)) = world.proxies.get? (.next (.next .first)) := by
  have built : (Operation.carryOutAll {} layeredFamily).map (fun world =>
      ((world.proxies.get? .first).isSome, world.family .first)) =
      .ok (true, [.first, .next .first]) := by
    cbv
  obtain ⟨world, ran, built⟩ := map_eq_ok.mp built
  obtain ⟨live, family⟩ := Prod.mk.inj built
  obtain ⟨owner, found⟩ := Option.isSome_iff_exists.mp live
  have run : Run true [.desktop] layeredFamily world := Run.start.continued (by decide) ran
  obtain ⟨next, applied, ⟨_, members, counted⟩, waits, _, others, _⟩ :=
    run.assign_empties_family (by decide) found "Tint" (some (.scalar .one))
  rw [family] at members counted
  refine ⟨world, next, run, applied, counted, (waits _).mpr (.inr ?_), (waits _).mpr (.inr ?_),
    (others _ fun below => ?_).1⟩
  · exact (members _).mp (by decide)
  · exact (members _).mp (by decide)
  · exact absurd ((members _).mpr below) (by decide)

end Run

end Shading
