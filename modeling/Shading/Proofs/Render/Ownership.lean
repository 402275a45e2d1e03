/-
Who owns what of the streaming textures. Every allocation that is there is owned
once, by a cache or by a producer, and whatever is owned is there. A proxy is
told when a producer goes away just as long as some cache of it reads that
producer.

Only while the caches that read a destroyed producer are being emptied, one
proxy after another, is this not quite so: those that have not had their turn
still read what is no more. They are excused until then.
-/

import Shading.Proofs.Render.Runs
import Shading.Proofs.Render.Streams

namespace Shading

/-- Who can own an allocation. -/
inductive Owner where
  | cache (proxy : ProxyId) (tier : Tier)
  | producer (id : ProducerId)
deriving DecidableEq

/-! ### Allocations -/

/-- What is allocated is divided among its owners, and the next number is not in use. -/
structure Apportioned (owned : Owner → List AllocationId) (streaming : Streaming) : Prop where
  allocated : ∀ allocation, streaming.Allocated allocation ↔ ∃ owner, allocation ∈ owned owner
  single : ∀ owner, (owned owner).Nodup
  apart : ∀ allocation owner other, allocation ∈ owned owner → allocation ∈ owned other →
    owner = other
  numbered : ∀ allocation, streaming.Allocated allocation →
    allocation.number < streaming.nextAllocation.number

namespace Apportioned

variable {owned left more : Owner → List AllocationId} {streaming next : Streaming}

/-- Some owners give back all they have. -/
theorem release (apportioned : Apportioned owned streaming) (gone : Owner → Prop)
    (emptied : ∀ owner, gone owner → left owner = [])
    (kept : ∀ owner, ¬gone owner → left owner = owned owner)
    (allocated : ∀ allocation, next.Allocated allocation ↔
      streaming.Allocated allocation ∧ ∀ owner, gone owner → allocation ∉ owned owner)
    (same : next.nextAllocation = streaming.nextAllocation) : Apportioned left next := by
  have before {allocation : AllocationId} {owner : Owner} (member : allocation ∈ left owner) :
      ¬gone owner ∧ allocation ∈ owned owner := by
    have stays : ¬gone owner := fun leaves => by
      rw [emptied owner leaves] at member
      cases member
    exact ⟨stays, kept owner stays ▸ member⟩
  refine ⟨fun allocation => ?_, fun owner => ?_, fun allocation owner other here there =>
    apportioned.apart allocation owner other (before here).2 (before there).2, ?_⟩
  · rw [allocated, apportioned.allocated]
    constructor
    · rintro ⟨⟨owner, member⟩, apart⟩
      exact ⟨owner, kept owner (fun leaves => apart owner leaves member) ▸ member⟩
    · rintro ⟨owner, member⟩
      obtain ⟨stays, member⟩ := before member
      refine ⟨⟨owner, member⟩, fun other leaves there => stays ?_⟩
      exact apportioned.apart allocation owner other member there ▸ leaves
  · by_cases leaves : gone owner
    · rw [emptied owner leaves]
      exact .nil
    · rw [kept owner leaves]
      exact apportioned.single owner
  · intro allocation there
    rw [same]
    exact apportioned.numbered allocation ((allocated allocation).mp there).1

/-- An owner that has nothing gets what is new. -/
theorem acquire (apportioned : Apportioned owned streaming) (owner : Owner)
    (without : owned owner = []) (kept : ∀ other, other ≠ owner → more other = owned other)
    (allocated : ∀ allocation, next.Allocated allocation ↔
      streaming.Allocated allocation ∨ allocation ∈ more owner)
    (single : (more owner).Nodup)
    (numbered : ∀ allocation ∈ more owner,
      streaming.nextAllocation.number ≤ allocation.number ∧
        allocation.number < next.nextAllocation.number)
    (later : streaming.nextAllocation.number ≤ next.nextAllocation.number) :
    Apportioned more next := by
  have old {allocation : AllocationId} {other : Owner} (member : allocation ∈ more other)
      (different : other ≠ owner) : allocation ∉ more owner := fun new => by
    rw [kept other different] at member
    have there := (apportioned.allocated allocation).mpr ⟨other, member⟩
    exact Nat.lt_irrefl _ (Nat.lt_of_lt_of_le (apportioned.numbered allocation there)
      (numbered allocation new).1)
  refine ⟨fun allocation => ?_, fun other => ?_, fun allocation first second here there => ?_,
    fun allocation there => ?_⟩
  · rw [allocated, apportioned.allocated]
    constructor
    · rintro (⟨other, member⟩ | new)
      · refine ⟨other, ?_⟩
        rw [kept other fun same => ?_]
        · exact member
        · rw [same, without] at member
          cases member
      · exact ⟨owner, new⟩
    · rintro ⟨other, member⟩
      by_cases same : other = owner
      · exact .inr (same ▸ member)
      · exact .inl ⟨other, kept other same ▸ member⟩
  · by_cases same : other = owner
    · exact same ▸ single
    · rw [kept other same]
      exact apportioned.single other
  · by_cases same : first = owner <;> by_cases alike : second = owner
    · exact same.trans alike.symm
    · exact absurd (same ▸ here) (old there alike)
    · exact absurd (alike ▸ there) (old here same)
    · rw [kept first same] at here
      rw [kept second alike] at there
      exact apportioned.apart allocation first second here there
  · rcases (allocated allocation).mp there with before | new
    · exact Nat.lt_of_lt_of_le (apportioned.numbered allocation before) later
    · exact (numbered allocation new).2

end Apportioned

namespace World

open Streaming (Retold)

variable {world next : World} {proxy : ProxyId} {tier : Tier} {id : ProducerId}

/-! ### What is owned and what is read -/

def owned (world : World) : Owner → List AllocationId
  | .cache proxy tier => ((world.cacheOf proxy tier).map UniformCache.allocations).getD []
  | .producer id => ((world.streaming.producers.get? id).bind StreamingProducer.preallocated).toList

/-- Whether a cache of a proxy reads a producer. -/
def Reads (world : World) (proxy : ProxyId) (id : ProducerId) : Prop :=
  ∃ tier cache, world.cacheOf proxy tier = some cache ∧ id ∈ cache.producers

theorem owned_cache {cache : Option UniformCache} (there : world.cacheOf proxy tier = cache) :
    world.owned (.cache proxy tier) = (cache.map UniformCache.allocations).getD [] :=
  congrArg (fun cache => (Option.map UniformCache.allocations cache).getD []) there

theorem owned_producer {producer : Option StreamingProducer}
    (there : world.streaming.bare id = producer) :
    world.owned (.producer id) = (producer.bind StreamingProducer.preallocated).toList := by
  rw [← there, Streaming.preallocated_bare]
  rfl

theorem owned_producer_congr (same : next.streaming.bare id = world.streaming.bare id) :
    next.owned (.producer id) = world.owned (.producer id) :=
  (owned_producer same).trans (owned_producer rfl).symm

/-- Where nothing has changed but one producer, everybody else owns what they owned. -/
theorem owned_other {owner : Owner} (sameCaches : next.cacheOf = world.cacheOf)
    (bare : ∀ other, other ≠ id → next.streaming.bare other = world.streaming.bare other)
    (different : owner ≠ .producer id) : next.owned owner = world.owned owner := by
  cases owner with
  | cache proxy tier => exact owned_cache (congrFun (congrFun sameCaches proxy) tier)
  | producer other =>
    refine owned_producer_congr (bare other ?_)
    rintro rfl
    exact different rfl

theorem cacheOf_of_found {owner : RenderProxy} (found : world.proxies.get? proxy = some owner)
    (tier : Tier) : world.cacheOf proxy tier = some (owner.caches.get tier) := by
  unfold cacheOf
  rw [found]
  rfl

theorem owned_of_found {owner : RenderProxy} (found : world.proxies.get? proxy = some owner)
    (tier : Tier) : world.owned (.cache proxy tier) = (owner.caches.get tier).allocations :=
  owned_cache (cacheOf_of_found found tier)

theorem reads_of_found {owner : RenderProxy} (found : world.proxies.get? proxy = some owner) :
    world.Reads proxy id ↔ ∃ tier, id ∈ (owner.caches.get tier).producers := by
  unfold Reads
  simp only [cacheOf_of_found found, Option.some.injEq, exists_eq_left']

theorem reads_congr (same : ∀ tier, next.cacheOf proxy tier = world.cacheOf proxy tier) :
    next.Reads proxy id ↔ world.Reads proxy id := by
  unfold Reads
  simp only [same]

theorem mem_allocations {owner : RenderProxy} (found : world.proxies.get? proxy = some owner)
    (allocation : AllocationId) :
    allocation ∈ owner.caches.toList.flatMap UniformCache.allocations ↔
      ∃ tier, allocation ∈ world.owned (.cache proxy tier) := by
  simp only [owned_of_found found, List.mem_flatMap, PerTier.mem_toList, exists_exists_eq_and]

theorem attach_streaming (world : World) (proxy : ProxyId) (kind : ProxyKind) :
    (world.attach proxy kind).streaming = world.streaming := by
  unfold attach
  cases kind.parent? <;> cases kind.materials? <;> rfl

/-- A proxy that goes gives back what its caches had and is told of nothing. -/
theorem without_streaming (world : World) (proxy : ProxyId) : ∃ allocations : List AllocationId,
    (∀ allocation, allocation ∈ allocations ↔
      ∃ tier, allocation ∈ world.owned (.cache proxy tier)) ∧
    (world.without proxy).streaming =
      (UniformCache.freeAll world.streaming allocations).unsubscribeAll proxy := by
  unfold World.without
  cases found : world.proxies.get? proxy with
  | none =>
    refine ⟨[], fun allocation => ?_, rfl⟩
    unfold World.owned cacheOf
    simp [found]
  | some owner =>
    have freed : (world.detach proxy owner).streaming =
        freeCaches world.streaming owner.caches := by
      unfold detach
      cases owner.kind.materials? <;> rfl
    refine ⟨_, mem_allocations found, ?_⟩
    exact congrArg (Streaming.unsubscribeAll · proxy) (freed.trans (freeCaches_eq ..))

/-- Streaming textures are owned and read as they should be, except that some proxies are excused
for reading what they are not told of. -/
structure Attended (produced : List ProducerId) (excused : ProxyId → ProducerId → Prop)
    (world : World) : Prop where
  apportioned : Apportioned world.owned world.streaming
  told : ∀ proxy id, world.Reads proxy id → world.streaming.Tells id proxy ∨ excused proxy id
  reads : ∀ proxy id, world.streaming.Tells id proxy → world.Reads proxy id
  offered : ∀ texture id, world.streaming.byTexture.get? texture = some id →
    ∃ producer, world.streaming.bare id = some producer ∧ producer.texture = texture
  produced : ∀ id, (world.streaming.bare id).isSome → id ∈ produced

namespace Attended

variable {produced : List ProducerId} {excused other : ProxyId → ProducerId → Prop}

theorem weaken (attended : Attended produced excused world)
    (enough : ∀ proxy id, world.Reads proxy id → excused proxy id → other proxy id) :
    Attended produced other world :=
  { attended with
    told := fun proxy id reads => (attended.told proxy id reads).imp_right (enough proxy id reads) }

theorem congr (attended : Attended produced excused world)
    (sameCaches : next.cacheOf = world.cacheOf) (sameStreaming : next.streaming = world.streaming) :
    Attended produced excused next := by
  have owned : next.owned = world.owned := funext fun owner => by
    cases owner with
    | cache proxy tier => exact owned_cache (congrFun (congrFun sameCaches proxy) tier)
    | producer id => exact owned_producer_congr (by rw [sameStreaming])
  have reads (proxy : ProxyId) (id : ProducerId) : next.Reads proxy id ↔ world.Reads proxy id :=
    reads_congr fun tier => congrFun (congrFun sameCaches proxy) tier
  refine ⟨?_, fun proxy id there => ?_, fun proxy id tells => ?_, ?_, ?_⟩
  · rw [owned, sameStreaming]
    exact attended.apportioned
  · rw [sameStreaming]
    exact attended.told proxy id ((reads proxy id).mp there)
  · rw [sameStreaming] at tells
    exact (reads proxy id).mpr (attended.reads proxy id tells)
  · rw [sameStreaming]
    exact attended.offered
  · rw [sameStreaming]
    exact attended.produced

/-! ### One cache -/

/-- One cache of a proxy gives back what it had and takes something else, and the proxy is no longer
told of what none of its caches reads any more. -/
structure Exchanges (world : World) (proxy : ProxyId) (owner : RenderProxy) (tier : Tier)
    (rebuilt : UniformCache.Rebuilt) (next : World) : Prop where
  found : world.proxies.get? proxy = some owner
  renews : (owner.caches.get tier).Renews proxy world.streaming rebuilt
  proxies : next.proxies =
    world.proxies.insert proxy { owner with caches := owner.caches.set tier rebuilt.cache }
  streaming : next.streaming = releaseSubscriptions rebuilt.streaming
    (owner.caches.set tier rebuilt.cache) proxy rebuilt.dropped

namespace Exchanges

variable {owner : RenderProxy} {rebuilt : UniformCache.Rebuilt}

theorem cacheOf (exchanges : Exchanges world proxy owner tier rebuilt next) (its : ProxyId)
    (level : Tier) : next.cacheOf its level =
      if its = proxy ∧ level = tier then some rebuilt.cache else world.cacheOf its level := by
  unfold World.cacheOf
  rw [exchanges.proxies, Table.get?_insert]
  by_cases same : its = proxy
  · rw [if_pos same, same, exchanges.found, Option.map_some, PerTier.get_set]
    by_cases here : level = tier <;> simp [here]
  · rw [if_neg same, if_neg fun both => same both.1]

theorem released (exchanges : Exchanges world proxy owner tier rebuilt next) :
    Retold rebuilt.streaming next.streaming :=
  exchanges.streaming ▸ releaseSubscriptions_retold ..

theorem bare (exchanges : Exchanges world proxy owner tier rebuilt next) :
    next.streaming.bare = world.streaming.bare :=
  exchanges.released.bare.trans exchanges.renews.bare

theorem reads_other (exchanges : Exchanges world proxy owner tier rebuilt next) {its : ProxyId}
    (other : its ≠ proxy) : next.Reads its id ↔ world.Reads its id :=
  reads_congr fun level => (exchanges.cacheOf its level).trans (if_neg fun both => other both.1)

theorem reads_self (exchanges : Exchanges world proxy owner tier rebuilt next)
    (reads : next.Reads proxy id) : id ∈ rebuilt.cache.producers ∨ world.Reads proxy id := by
  obtain ⟨level, cache, there, member⟩ := reads
  rw [exchanges.cacheOf] at there
  split at there
  · cases there
    exact .inl member
  · exact .inr ⟨level, cache, there, member⟩

/-- The proxy is told of what the new cache reads, and of what it was told of before unless it has
been dropped and is not read any more. -/
theorem tells (exchanges : Exchanges world proxy owner tier rebuilt next) {its : ProxyId} :
    next.streaming.Tells id its ↔
      (world.streaming.Tells id its ∨
        (its = proxy ∧ id ∈ rebuilt.cache.producers ∧ (world.streaming.bare id).isSome)) ∧
        ¬(its = proxy ∧ id ∈ rebuilt.dropped ∧ ¬next.Reads proxy id) := by
  have there : next.proxies.get? proxy =
      some { owner with caches := owner.caches.set tier rebuilt.cache } := by
    rw [exchanges.proxies, Table.get?_insert, if_pos rfl]
  have reads : next.Reads proxy id ↔
      ∃ cache ∈ (owner.caches.set tier rebuilt.cache).toList, id ∈ cache.producers := by
    refine (reads_of_found there).trans ?_
    simp only [PerTier.mem_toList, exists_exists_eq_and]
  rw [exchanges.streaming, tells_releaseSubscriptions, exchanges.renews.tells, reads]
  simp only [not_exists, not_and]

/-- The cache gives back what it has owned, and then it owns what was allocated for it. -/
theorem apportioned (exchanges : Exchanges world proxy owner tier rebuilt next)
    (apportioned : Apportioned world.owned world.streaming) :
    Apportioned next.owned next.streaming := by
  have freed : Apportioned (Function.update world.owned (.cache proxy tier) [])
      (UniformCache.freeAll world.streaming (owner.caches.get tier).allocations) := by
    refine apportioned.release (· = .cache proxy tier) (fun owner same => ?_)
      (fun owner different => Function.update_of_ne different ..) (fun allocation => ?_)
      (by rw [Streaming.freeAll_eq])
    · rw [same, Function.update_self]
    · rw [Streaming.allocated_freeAll, forall_eq, owned_of_found exchanges.found]
  have mine : next.owned (.cache proxy tier) = rebuilt.cache.allocations :=
    owned_cache ((exchanges.cacheOf proxy tier).trans (if_pos ⟨rfl, rfl⟩))
  have allocated (allocation : AllocationId) : next.streaming.Allocated allocation ↔
      rebuilt.streaming.Allocated allocation := by
    unfold Streaming.Allocated
    rw [exchanges.released.allocations]
  refine freed.acquire (.cache proxy tier) (Function.update_self ..) (fun its different => ?_)
    (fun allocation => ?_) ?_ ?_ ?_
  · rw [Function.update_of_ne different]
    cases its with
    | cache its level =>
      refine owned_cache ((exchanges.cacheOf its level).trans (if_neg ?_))
      rintro ⟨rfl, rfl⟩
      exact different rfl
    | producer id => exact owned_producer_congr (congrFun exchanges.bare id)
  · rw [allocated, exchanges.renews.allocated, mine]
  · rw [mine]
    exact exchanges.renews.single
  · rw [mine, exchanges.released.nextAllocation, Streaming.freeAll_eq]
    exact exchanges.renews.numbered
  · rw [exchanges.released.nextAllocation, Streaming.freeAll_eq]
    exact exchanges.renews.later

end Exchanges

theorem exchanged {owner : RenderProxy} {rebuilt : UniformCache.Rebuilt}
    (attended : Attended produced excused world)
    (exchanges : Exchanges world proxy owner tier rebuilt next) :
    Attended produced excused next := by
  have renews := exchanges.renews
  have live (id : ProducerId) (member : id ∈ rebuilt.cache.producers) :
      (world.streaming.bare id).isSome := by
    obtain ⟨texture, offered⟩ := renews.offered id member
    obtain ⟨producer, there, _⟩ := attended.offered texture id offered
    rw [there]
    rfl
  refine ⟨exchanges.apportioned attended.apportioned, fun its id reads => ?_,
    fun its id told => ?_, ?_, ?_⟩
  · by_cases same : its = proxy
    · subst same
      rcases exchanges.reads_self reads with new | before
      · exact .inl (exchanges.tells.mpr ⟨.inr ⟨rfl, new, live id new⟩, fun gone => gone.2.2 reads⟩)
      · refine (attended.told its id before).imp_left fun told => ?_
        exact exchanges.tells.mpr ⟨.inl told, fun gone => gone.2.2 reads⟩
    · refine (attended.told its id ((exchanges.reads_other same).mp reads)).imp_left fun told => ?_
      exact exchanges.tells.mpr ⟨.inl told, fun gone => same gone.1⟩
  · obtain ⟨before, kept⟩ := exchanges.tells.mp told
    by_cases same : its = proxy
    · subst same
      by_contra unread
      have absent : id ∉ rebuilt.cache.producers := fun member => unread
        ⟨tier, rebuilt.cache, (exchanges.cacheOf its tier).trans (if_pos ⟨rfl, rfl⟩), member⟩
      -- So it was another cache that read the producer, which still does, or it was dropped.
      obtain ⟨level, cache, there, member⟩ := attended.reads its id
        (before.resolve_right fun new => absent new.2.1)
      by_cases level_eq : level = tier
      · subst level_eq
        cases there.symm.trans (cacheOf_of_found exchanges.found level)
        refine kept ⟨rfl, ?_, unread⟩
        rw [renews.dropped]
        exact List.mem_filter.mpr ⟨member, decide_eq_true absent⟩
      · refine unread ⟨level, cache, ?_, member⟩
        exact (exchanges.cacheOf its level).trans ((if_neg fun both => level_eq both.2).trans there)
    · exact (exchanges.reads_other same).mpr
        (attended.reads its id (before.resolve_right fun new => same new.1))
  · rw [exchanges.released.byTexture, renews.byTexture, exchanges.bare]
    exact attended.offered
  · rw [exchanges.bare]
    exact attended.produced

theorem lasting : Lasting (Attended produced excused) where
  deferred := fun _ _ attended => attended.congr rfl rfl
  installed := fun _ _ _ _ _ _ attended _ found ran =>
    attended.exchanged
      ⟨found, UniformCache.rebuild_renews ran, install_proxies .., install_streaming ..⟩

theorem dropCache {owner : RenderProxy} {recreate : Bool}
    (attended : Attended produced excused world) (found : world.proxies.get? proxy = some owner) :
    Attended produced excused (world.dropCache recreate proxy owner tier) := by
  let cache := owner.caches.get tier
  have renews : cache.Renews proxy world.streaming ⟨cache.invalidate recreate, cache.producers,
      UniformCache.freeAll world.streaming cache.allocations, world.nextBuffer⟩ := by
    refine ⟨?_, ?_, fun id its => ?_, fun allocation => ?_, .nil, fun _ member => (nomatch member),
      ?_, fun _ member => (nomatch member), ?_⟩
    all_goals dsimp only
    · rw [Streaming.freeAll_eq]
      rfl
    · rw [Streaming.freeAll_eq]
    · rw [Streaming.freeAll_eq]
      exact (or_iff_left fun new => nomatch new.2.1).symm
    · exact (or_iff_left List.not_mem_nil).symm
    · rw [Streaming.freeAll_eq]
    · exact (List.filter_eq_self.mpr fun _ _ => decide_eq_true List.not_mem_nil).symm
  exact attended.exchanged ⟨found, renews, rfl, rfl⟩

/-! ### All caches of a proxy -/

/-- A proxy gives back all that its caches had and is told of nothing any more. -/
theorem quit {allocations : List AllocationId} (attended : Attended produced excused world)
    (others : ∀ other tier, other ≠ proxy → next.cacheOf other tier = world.cacheOf other tier)
    (emptied : ∀ tier cache, next.cacheOf proxy tier = some cache →
      cache.allocations = [] ∧ cache.producers = [])
    (all : ∀ allocation, allocation ∈ allocations ↔
      ∃ tier, allocation ∈ world.owned (.cache proxy tier))
    (streaming : next.streaming =
      (UniformCache.freeAll world.streaming allocations).unsubscribeAll proxy) :
    Attended produced (fun other id => other ≠ proxy ∧ excused other id) next := by
  have retold := Retold.unsubscribeAll (UniformCache.freeAll world.streaming allocations) proxy
  rw [← streaming] at retold
  have bare : next.streaming.bare = world.streaming.bare := by
    rw [retold.bare, Streaming.freeAll_eq]
    rfl
  have tells (id : ProducerId) (its : ProxyId) : next.streaming.Tells id its ↔
      world.streaming.Tells id its ∧ its ≠ proxy := by
    rw [streaming, Streaming.tells_unsubscribeAll, Streaming.freeAll_eq]
    rfl
  have stays (its : ProxyId) (other : its ≠ proxy) (id : ProducerId) :
      next.Reads its id ↔ world.Reads its id := reads_congr fun tier => others its tier other
  refine ⟨?_, fun its id reads => ?_, fun its id told => ?_, ?_, ?_⟩
  · refine attended.apportioned.release (fun owner => ∃ tier, owner = .cache proxy tier) ?_ ?_
      (fun allocation => ?_) (by rw [retold.nextAllocation, Streaming.freeAll_eq])
    · rintro _ ⟨tier, rfl⟩
      cases there : next.cacheOf proxy tier with
      | none => exact owned_cache there
      | some cache => exact (owned_cache there).trans (emptied tier cache there).1
    · intro owner stays
      cases owner with
      | cache its tier => exact owned_cache (others its tier fun same => stays ⟨tier, same ▸ rfl⟩)
      | producer id => exact owned_producer_congr (congrFun bare id)
    · have freed : next.streaming.Allocated allocation ↔
          (UniformCache.freeAll world.streaming allocations).Allocated allocation := by
        unfold Streaming.Allocated
        rw [retold.allocations]
      rw [freed, Streaming.allocated_freeAll, all]
      simp only [forall_exists_index, forall_eq_apply_imp_iff, not_exists]
  · have other : its ≠ proxy := by
      rintro rfl
      obtain ⟨tier, cache, there, member⟩ := reads
      rw [(emptied tier cache there).2] at member
      cases member
    exact (attended.told its id ((stays its other id).mp reads)).imp
      (fun told => (tells id its).mpr ⟨told, other⟩) fun excused => ⟨other, excused⟩
  · obtain ⟨told, other⟩ := (tells id its).mp told
    exact (stays its other id).mpr (attended.reads its id told)
  · rw [retold.byTexture, bare, Streaming.freeAll_eq]
    exact attended.offered
  · rw [bare]
    exact attended.produced

theorem dropCaches {owner : RenderProxy} {recreate : Bool}
    (attended : Attended produced excused world) (found : world.proxies.get? proxy = some owner) :
    Attended produced (fun other id => other ≠ proxy ∧ excused other id)
      (world.dropCaches recreate proxy owner) := by
  refine attended.quit (fun other tier different => ?_) (fun tier cache there => ?_)
    (mem_allocations found) (congrArg (Streaming.unsubscribeAll · proxy) (freeCaches_eq ..))
  · rw [cacheOf_dropCaches _ _ _ _ found, if_neg different]
  · rw [cacheOf_dropCaches _ _ _ _ found, if_pos rfl, cacheOf_of_found found] at there
    cases there
    exact ⟨rfl, rfl⟩

/-- Whoever is invalidated is not excused any more. -/
theorem invalidate {recreate : Bool} (attended : Attended produced excused world)
    (ran : world.invalidate recreate proxy = .ok next) :
    Attended produced (fun other id => other ≠ proxy ∧ excused other id) next := by
  refine lasting.invalidate (fun missing => attended.weaken fun its id reads excuse => ⟨?_, excuse⟩)
    (fun owner found => attended.dropCaches found) ran
  rintro rfl
  obtain ⟨tier, cache, there, _⟩ := reads
  unfold cacheOf at there
  rw [missing] at there
  cases there

theorem invalidateTier {recreate : Bool} (attended : Attended produced excused world)
    (ran : world.invalidateTier recreate proxy tier = .ok next) :
    Attended produced excused next :=
  lasting.invalidateTier (fun _ => attended) (fun _ found => attended.dropCache found) ran

theorem invalidateFamily (attended : Attended produced excused world)
    (ran : world.invalidateFamily proxy = .ok next) : Attended produced excused next :=
  foldlM_kept (fun _ _ _ attended stepped =>
    (attended.invalidate stepped).weaken fun _ _ _ => And.right) _ world next attended ran

theorem invalidateDependents {resource : ResourceId} {recreate : Bool}
    (attended : Attended produced excused world)
    (ran : world.invalidateDependents resource tier recreate = .ok next) :
    Attended produced excused next :=
  foldlM_kept (fun _ _ _ attended stepped => attended.invalidateTier stepped) _ world next attended
    ran

/-! ### Proxies -/

theorem attach (attended : Attended produced excused world)
    (fresh : world.proxies.get? proxy = none) (kind : ProxyKind) :
    Attended produced excused (world.attach proxy kind) := by
  have nobody (tier : Tier) : world.cacheOf proxy tier = none := by
    unfold cacheOf
    rw [fresh]
    rfl
  have streaming := attach_streaming world proxy kind
  have owned : (world.attach proxy kind).owned = world.owned := funext fun owner => by
    cases owner with
    | cache other tier =>
      refine (owned_cache (cacheOf_attach ..)).trans ?_
      split
      · rename_i same
        exact same ▸ (owned_cache (nobody tier)).symm
      · rfl
    | producer id => exact owned_producer_congr (by rw [streaming])
  have reads (other : ProxyId) (id : ProducerId) :
      (world.attach proxy kind).Reads other id ↔ world.Reads other id := by
    unfold Reads
    simp only [cacheOf_attach]
    split
    · rename_i same
      subst same
      simp [nobody]
    · rfl
  refine ⟨?_, fun other id there => ?_, fun other id tells => ?_, ?_, ?_⟩
  · rw [owned, streaming]
    exact attended.apportioned
  · rw [streaming]
    exact attended.told other id ((reads other id).mp there)
  · rw [streaming] at tells
    exact (reads other id).mpr (attended.reads other id tells)
  · rw [streaming]
    exact attended.offered
  · rw [streaming]
    exact attended.produced

theorem createProxy {kind : ProxyKind} (attended : Attended produced excused world)
    (fresh : world.proxies.get? proxy = none) (ran : world.createProxy proxy kind = .ok next) :
    Attended produced excused next :=
  lasting.markStale (attended.attach fresh kind) ran

/-- Whatever is written about a proxy but its caches. -/
theorem reformed {owner other : RenderProxy} (attended : Attended produced excused world)
    (found : world.proxies.get? proxy = some owner)
    (written : next.proxies = world.proxies.insert proxy other)
    (sameCaches : other.caches = owner.caches) (sameStreaming : next.streaming = world.streaming) :
    Attended produced excused next :=
  attended.congr (cacheOf_insert found written sameCaches) sameStreaming

theorem setMaterials {materials : Materials} (attended : Attended produced excused world)
    (ran : world.setMaterials proxy materials = .ok next) : Attended produced excused next := by
  obtain ⟨-, rfl⟩ | ⟨owner, previous, found, -, ran⟩ := setMaterials_cases ran
  · exact attended
  · have formed : Attended produced excused (world.reassign proxy owner previous materials) :=
      attended.reformed found rfl rfl rfl
    exact formed.invalidateFamily ran

theorem setParameter {name : String} {value : Option ParameterValue}
    (attended : Attended produced excused world)
    (ran : world.setParameter proxy name value = .ok next) : Attended produced excused next := by
  obtain ⟨-, rfl⟩ | ⟨owner, found, ran⟩ := setParameter_cases ran
  · exact attended
  · have formed : Attended produced excused (world.override proxy owner name value) :=
      attended.reformed found rfl rfl rfl
    exact formed.invalidateFamily ran

theorem without (attended : Attended produced excused world) :
    Attended produced excused (world.without proxy) := by
  obtain ⟨allocations, all, streaming⟩ := without_streaming world proxy
  refine (attended.quit (fun other tier different => ?_) (fun tier cache there => ?_) all
    streaming).weaken fun _ _ _ => And.right
  · rw [cacheOf_without, if_neg different]
  · rw [cacheOf_without, if_pos rfl] at there
    cases there

theorem removeProxy (attended : Attended produced excused world)
    (ran : world.removeProxy proxy = .ok next) : Attended produced excused next := by
  have left : Attended produced excused { world.without proxy with
      children := Table.erase (world.without proxy).children proxy } :=
    attended.without.congr rfl rfl
  exact foldlM_kept (fun _ _ _ attended stepped => attended.invalidateFamily stepped) _ _ next left
    ran

/-! ### Resources -/

theorem setMap {resource : ResourceId} {map : Option SharedMap}
    (attended : Attended produced excused world) (ran : world.setMap resource map = .ok next) :
    Attended produced excused next := by
  obtain ⟨-, rfl⟩ | ⟨material, -, -, ran⟩ := setMap_cases ran
  · exact attended
  · have placed : Attended produced excused (world.placeMap resource material map) :=
      attended.congr rfl rfl
    exact placed.invalidateDependents ran

theorem releaseMaterial {resource : ResourceId} (attended : Attended produced excused world)
    (ran : world.releaseMaterial resource = .ok next) : Attended produced excused next := by
  obtain ⟨-, rfl⟩ | ⟨material, left, -, invalidated, rfl⟩ := releaseMaterial_cases ran
  · exact attended
  · have withdrawn : Attended produced excused (world.withdraw resource) := attended.congr rfl rfl
    exact (withdrawn.invalidateDependents invalidated).congr rfl rfl

/-! ### Producers -/

/-- What a producer brings along is its own. -/
theorem apportioned_createProducer (attended : Attended produced excused world)
    (absent : world.streaming.bare id = none) (texture : TextureId) (tile border : UInt32)
    (preallocates : Bool) :
    Apportioned (world.createProducer id texture tile border preallocates).owned
      (world.createProducer id texture tile border preallocates).streaming := by
  have bare (other : ProducerId) :
      (world.createProducer id texture tile border preallocates).streaming.bare other =
        if other = id then
          some { texture, tile, border, preallocated := world.streaming.reserved preallocates }
        else world.streaming.bare other :=
    Streaming.bare_createProducer ..
  have mine : (world.createProducer id texture tile border preallocates).owned (.producer id) =
      (world.streaming.reserved preallocates).toList :=
    owned_producer ((bare id).trans (if_pos rfl))
  refine attended.apportioned.acquire (.producer id) (owned_producer absent)
    (fun owner different => owned_other rfl (fun other unlike => ?_) different)
    (fun allocation => ?_) ?_ (fun allocation member => ?_) ?_
  · rw [bare, if_neg unlike]
  · rw [mine]
    exact Streaming.allocated_createProducer ..
  · rw [mine]
    cases preallocates
    · exact .nil
    · exact List.nodup_cons.mpr ⟨List.not_mem_nil, .nil⟩
  · rw [mine] at member
    cases preallocates
    · cases member
    · cases List.mem_singleton.mp member
      exact ⟨Nat.le_refl _, Nat.lt_succ_self _⟩
  · unfold World.createProducer
    dsimp only
    rw [Streaming.createProducer_nextAllocation]
    split
    · exact Nat.le_succ _
    · exact Nat.le_refl _

theorem createProducer (attended : Attended produced excused world) (fresh : id ∉ produced)
    (texture : TextureId) (tile border : UInt32) (preallocates : Bool) :
    Attended (produced ++ [id]) excused
      (world.createProducer id texture tile border preallocates) := by
  have absent : world.streaming.bare id = none :=
    Option.not_isSome_iff_eq_none.mp fun live => fresh (attended.produced id live)
  have apart {other : ProducerId} (live : (world.streaming.bare other).isSome) : other ≠ id := by
    rintro rfl
    rw [absent] at live
    cases live
  refine ⟨attended.apportioned_createProducer absent texture tile border preallocates,
    fun proxy other reads => ?_, fun proxy other tells => ?_, fun answered other there => ?_,
    fun other live => ?_⟩
  · refine (attended.told proxy other reads).imp_left fun tells => ?_
    exact (Streaming.tells_createProducer ..).mpr ⟨apart tells.isSome_bare, tells⟩
  · exact attended.reads proxy other ((Streaming.tells_createProducer ..).mp tells).2
  · unfold World.createProducer at there ⊢
    dsimp only at there ⊢
    rw [Streaming.createProducer_byTexture, Table.get?_insert] at there
    rw [Streaming.bare_createProducer]
    split at there
    · rename_i same
      cases there
      exact ⟨_, if_pos rfl, same.symm⟩
    · obtain ⟨producer, found, answers⟩ := attended.offered answered other there
      exact ⟨producer, (if_neg (apart (found ▸ rfl))).trans found, answers⟩
  · unfold World.createProducer at live
    dsimp only at live
    rw [Streaming.bare_createProducer] at live
    split at live
    · rename_i same
      exact same ▸ List.mem_append_right _ (List.mem_singleton.mpr rfl)
    · exact List.mem_append_left _ (attended.produced other live)

/-- Where a producer is no more, its subscribers are excused until they have been invalidated. -/
theorem destroyed {producer : StreamingProducer}
    (attended : Attended produced (fun _ _ => False) world)
    (found : world.streaming.producers.get? id = some producer) :
    Attended produced (fun proxy other => proxy ∈ producer.subscribers ∧ other = id)
      { world with streaming := (world.streaming.destroyProducer id).2 } := by
  refine ⟨?_, fun proxy other reads => ?_, fun proxy other told => ?_,
    fun texture other there => ?_, fun other alive => ?_⟩
  · refine attended.apportioned.release (· = .producer id) ?_
      (fun owner different => owned_other rfl (fun other unlike => ?_) different)
      (fun allocation => ?_) Streaming.destroyProducer_nextAllocation
    · have gone : ({ world with
          streaming := (world.streaming.destroyProducer id).2 } : World).streaming.bare id = none :=
        Streaming.bare_destroyProducer.trans (if_pos rfl)
      rintro _ rfl
      exact owned_producer gone
    · exact Streaming.bare_destroyProducer.trans (if_neg unlike)
    · rw [forall_eq]
      exact Streaming.allocated_destroyProducer
  · have told := (attended.told proxy other reads).resolve_right not_false
    by_cases same : other = id
    · obtain ⟨its, there, member⟩ := told
      rw [same, found] at there
      cases there
      exact .inr ⟨member, same⟩
    · exact .inl (Streaming.tells_destroyProducer.mpr ⟨same, told⟩)
  · exact attended.reads proxy other (Streaming.tells_destroyProducer.mp told).2
  · obtain ⟨before, leaves⟩ := Streaming.destroyProducer_byTexture there
    obtain ⟨its, alive, answers⟩ := attended.offered texture other before
    -- A producer answers only for its own texture, so no other texture leads to the one that goes.
    have different : other ≠ id := by
      rintro rfl
      unfold Streaming.bare at alive
      rw [found] at alive
      cases alive
      exact leaves producer found answers.symm rfl
    exact ⟨its, Streaming.bare_destroyProducer.trans ((if_neg different).trans alive), answers⟩
  · have alive : ((world.streaming.destroyProducer id).2.bare other).isSome := alive
    rw [Streaming.bare_destroyProducer] at alive
    split at alive
    · cases alive
    · exact attended.produced other alive

theorem destroyProducer (attended : Attended produced (fun _ _ => False) world)
    (ran : world.destroyProducer id = .ok next) : Attended produced (fun _ _ => False) next := by
  unfold World.destroyProducer at ran
  cases found : world.streaming.producers.get? id with
  | none =>
    rw [Streaming.destroyProducer_absent found] at ran
    cases ran
    exact attended
  | some producer =>
    have started := attended.destroyed found
    rw [Streaming.destroyProducer_eq found] at ran started
    refine (foldlM_invariant (motive := fun rest world =>
      Attended produced (fun proxy other => proxy ∈ rest ∧ other = id) world)
      (fun first rest before after attended stepped => ?_) _ _ next ?_ ran).weaken
        fun _ _ _ excused => nomatch excused.1
    · refine (attended.invalidate stepped).weaken fun proxy other _ excused => ?_
      exact ⟨(List.mem_cons.mp excused.2.1).resolve_left excused.1, excused.2.2⟩
    · refine started.weaken fun proxy other _ excused => ⟨?_, excused.2⟩
      exact List.mem_mergeSort.mpr excused.1

end Attended

end World

/-! ### Runs -/

namespace Operation

/-- The producer that an operation creates. -/
def produces? : Operation → Option ProducerId
  | .perform (.createProducer producer _ _ _ _) => some producer
  | _ => none

def producedBy (past : List Operation) : List ProducerId :=
  past.flatMap fun operation => operation.produces?.toList

end Operation

namespace World.Attended

variable {world next : World} {produced : List ProducerId}

/-- Every operation keeps order, if it creates no proxy and no producer that is there already. -/
theorem carryOut {operation : Operation} (attended : Attended produced (fun _ _ => False) world)
    (proxies : ∀ proxy ∈ operation.creates?, world.proxies.get? proxy = none)
    (producers : ∀ id ∈ operation.produces?, id ∉ produced)
    (ran : operation.carryOut world = .ok next) :
    Attended (produced ++ operation.produces?.toList) (fun _ _ => False) next := by
  have counted : Attended produced (fun _ _ => False)
      (world.count fun stats => { stats with commands := stats.commands + 1 }) :=
    attended.congr rfl rfl
  cases operation <;> simp only [Operation.produces?, Option.toList_none, List.append_nil]
  case perform command =>
    change World.carryOut _ command = _ at ran
    cases command <;> simp only [Option.toList_none, Option.toList_some, List.append_nil]
    case setMap => exact counted.setMap ran
    case releaseMaterial => exact counted.releaseMaterial ran
    case createProxy proxy kind => exact counted.createProxy (proxies proxy rfl) ran
    case setMaterials => exact counted.setMaterials ran
    case setParameter => exact counted.setParameter ran
    case clearParameter => exact counted.setParameter ran
    case recache => exact (counted.invalidate ran).weaken fun _ _ _ => And.right
    case removeProxy => exact counted.removeProxy ran
    case destroyProducer => exact counted.destroyProducer ran
    case createProducer id texture tile border preallocates =>
      cases ran
      exact counted.createProducer (producers id rfl) texture tile border preallocates
    all_goals
      cases ran
      exact counted.congr rfl rfl
  case announce =>
    cases ran
    exact attended.congr rfl rfl
  case updateDeferred =>
    obtain ⟨⟨count, world⟩, updated, rfl⟩ := map_eq_ok.mp ran
    exact lasting.updateDeferred attended updated
  case updateIfNeeded => exact lasting.updateIfNeeded attended ran
  case evaluate =>
    obtain ⟨⟨built, world⟩, evaluated, rfl⟩ := map_eq_ok.mp ran
    exact lasting.evaluate attended evaluated
  case prepareDraw =>
    obtain ⟨⟨drawn, world⟩, prepared, rfl⟩ := map_eq_ok.mp ran
    exact lasting.prepareDraw attended prepared
  case invalidate => exact (attended.invalidate ran).weaken fun _ _ _ => And.right

theorem start (deferring : Bool) (activeTiers : List Tier) :
    Attended [] (fun _ _ => False) { deferring, activeTiers } where
  apportioned := {
    allocated := fun allocation => by
      refine ⟨fun there => (nomatch there), fun ⟨owner, member⟩ => ?_⟩
      cases owner <;> cases member
    single := fun owner => by cases owner <;> exact .nil
    apart := fun _ owner _ member => by cases owner <;> cases member
    numbered := fun _ there => nomatch there }
  told := fun _ _ ⟨_, _, there, _⟩ => nomatch there
  reads := fun _ _ ⟨_, there, _⟩ => nomatch there
  offered := fun _ _ there => nomatch there
  produced := fun _ there => nomatch there

end World.Attended

namespace Run

variable {deferring : Bool} {activeTiers : List Tier} {past : List Operation} {world : World}

theorem attended (run : Run deferring activeTiers past world)
    (once : (Operation.producedBy past).Nodup) :
    World.Attended (Operation.producedBy past) (fun _ _ => False) world := by
  induction run with
  | start => exact .start deferring activeTiers
  | @step past world operation next run may ran inductionHypothesis =>
    unfold Operation.producedBy at once ⊢
    rw [List.flatMap_append, List.flatMap_singleton] at once ⊢
    obtain ⟨before, _, apart⟩ := List.nodup_append.mp once
    refine (inductionHypothesis before).carryOut (fun proxy creates => ?_) (fun id produces => ?_)
      ran
    · exact run.sound.absent (may.creates proxy creates)
    · exact fun there => apart id there id (Option.mem_toList.mpr produces) rfl

/-- The allocations that are there are divided among the caches and the producers that own them:
none is without an owner, none has two, and whatever is owned is there. Every producer that a
cache reads is there and its subscribers include the proxy of the cache, and nobody else is
subscribed to a producer. -/
theorem streaming_owned (run : Run deferring activeTiers past world)
    (once : (Operation.producedBy past).Nodup) :
    Apportioned world.owned world.streaming ∧
      (∀ proxy tier cache, world.cacheOf proxy tier = some cache → ∀ id ∈ cache.producers,
        ∃ producer, world.streaming.producers.get? id = some producer ∧
          proxy ∈ producer.subscribers) ∧
      ∀ id producer, world.streaming.producers.get? id = some producer →
        ∀ proxy ∈ producer.subscribers, ∃ tier cache,
          world.cacheOf proxy tier = some cache ∧ id ∈ cache.producers := by
  have attended := run.attended once
  refine ⟨attended.apportioned, fun proxy tier cache found id member => ?_,
    fun id producer found proxy member => attended.reads proxy id ⟨producer, found, member⟩⟩
  exact (attended.told proxy id ⟨tier, cache, found, member⟩).resolve_right not_false

/-- A map with a streaming texture in two stacks: one that is composed for the cache, and the one
that was made together with the producer of the texture. -/
def layered : SharedMap where
  id := .first
  map := {
    identity := default
    name := "Layered"
    content := some {
      binaries := []
      profile := { expressions := {
        streamingTextures := [⟨none, ⟨7⟩, .streaming⟩]
        streamingStacks := [⟨[0], none⟩, .ofPreallocated 0] } } } }

/-- A producer is created, and a proxy is drawn with its texture. -/
def layeredFrame : List Operation :=
  [.perform (.createProducer .first ⟨7⟩ 128 4 true),
    .perform (.registerMaterial .first { name := "Layered", tier := .desktop, quality := .high }),
    .perform (.setMap .first (some layered)),
    .perform (.createProxy .first (.material ((PerTier.fill none).set .desktop (some .first)))),
    .updateDeferred]

/-- The stack of the producer and the one that the cache has composed are owned apart, and the
proxy is subscribed to the producer. -/
theorem layeredFrame_owned : ∃ world, Run true [.desktop] layeredFrame world ∧
    world.owned (.producer .first) = [.first] ∧
    world.owned (.cache .first .desktop) = [.next .first] ∧
    (∀ allocation, world.streaming.Allocated allocation ↔
      ∃ owner, allocation ∈ world.owned owner) ∧
    ∃ producer, world.streaming.producers.get? .first = some producer ∧
      .first ∈ producer.subscribers := by
  have built : (Operation.carryOutAll {} layeredFrame).map (fun world =>
      (world.owned (.producer .first), world.owned (.cache .first .desktop),
        (world.cacheOf .first .desktop).map UniformCache.producers)) =
      .ok ([.first], [.next .first], some [.first, .first]) := by
    cbv
  obtain ⟨world, ran, built⟩ := map_eq_ok.mp built
  obtain ⟨mine, built⟩ := Prod.mk.inj built
  obtain ⟨its, reads⟩ := Prod.mk.inj built
  obtain ⟨cache, found, reads⟩ := Option.map_eq_some_iff.mp reads
  have run : Run true [.desktop] layeredFrame world := Run.start.continued (by decide) ran
  obtain ⟨apportioned, told, _⟩ := run.streaming_owned (by decide)
  exact ⟨world, run, mine, its, apportioned.allocated,
    told .first .desktop cache found .first (reads ▸ List.mem_cons_self ..)⟩

end Run

end Shading
