/-
What is done with streaming textures. A cache takes allocations for itself and
lets its proxy be told when a producer goes away, and it gives both back later.
Each operation is described by what it leaves of the three things that matter:
which allocations are there, who is told of which producer, and what the
producers are apart from that.
-/

import Shading.Proofs.Sequence
import Shading.Render.Freshness

namespace Shading

theorem Table.get?_map {κ β : Type} [DecidableEq κ] (table : Table κ β) (change : β → β)
    (key : κ) : (⟨table.entries.map fun entry => (entry.1, change entry.2)⟩ : Table κ β).get? key =
      (table.get? key).map change := by
  simp only [get?, List.find?_map, Option.map_map]
  rfl

namespace Streaming

variable {streaming next : Streaming} {id other : ProducerId} {proxy its : ProxyId}
  {allocation : AllocationId}

/-! ### What there is -/

def Allocated (streaming : Streaming) (allocation : AllocationId) : Prop :=
  (streaming.allocations.get? allocation).isSome

/-- Whether a proxy is told when a producer goes away. -/
def Tells (streaming : Streaming) (id : ProducerId) (proxy : ProxyId) : Prop :=
  ∃ producer, streaming.producers.get? id = some producer ∧ proxy ∈ producer.subscribers

/-- What a producer is, whoever is told of it. -/
def bare (streaming : Streaming) (id : ProducerId) : Option StreamingProducer :=
  (streaming.producers.get? id).map fun producer => { producer with subscribers := [] }

theorem isSome_bare : (streaming.bare id).isSome = (streaming.producers.get? id).isSome :=
  Option.isSome_map ..

theorem preallocated_bare : (streaming.bare id).bind StreamingProducer.preallocated =
    (streaming.producers.get? id).bind StreamingProducer.preallocated :=
  Option.bind_map ..

theorem Tells.isSome_bare (tells : streaming.Tells id proxy) : (streaming.bare id).isSome := by
  obtain ⟨producer, found, _⟩ := tells
  rw [Streaming.isSome_bare, found]
  rfl

/-! ### Subscribing -/

theorem get?_unsubscribeAll (streaming : Streaming) (proxy : ProxyId) (id : ProducerId) :
    (streaming.unsubscribeAll proxy).producers.get? id =
      (streaming.producers.get? id).map fun producer => withoutSubscriber producer proxy :=
  Table.get?_map streaming.producers (fun producer => withoutSubscriber producer proxy) id

/-- Nothing has changed but who is told of the producers. -/
structure Retold (streaming next : Streaming) : Prop where
  bare : next.bare = streaming.bare
  byTexture : next.byTexture = streaming.byTexture
  allocations : next.allocations = streaming.allocations
  nextAllocation : next.nextAllocation = streaming.nextAllocation

namespace Retold

theorem refl (streaming : Streaming) : Retold streaming streaming := ⟨rfl, rfl, rfl, rfl⟩

theorem trans {middle : Streaming} (first : Retold streaming middle) (second : Retold middle next) :
    Retold streaming next :=
  ⟨second.bare.trans first.bare, second.byTexture.trans first.byTexture,
    second.allocations.trans first.allocations, second.nextAllocation.trans first.nextAllocation⟩

theorem modify (id : ProducerId) {change : StreamingProducer → StreamingProducer}
    (same : ∀ producer, { change producer with subscribers := [] } =
      { producer with subscribers := [] }) :
    Retold streaming { streaming with producers := streaming.producers.modify id change } := by
  refine ⟨funext fun other => ?_, rfl, rfl, rfl⟩
  show ((streaming.producers.modify id change).get? other).map _ = _
  rw [Table.get?_modify]
  split
  · rename_i here
    rw [here, Option.map_map]
    exact Option.map_congr fun producer _ => same producer
  · rfl

theorem subscribe (streaming : Streaming) (id : ProducerId) (proxy : ProxyId) :
    Retold streaming (streaming.subscribe id proxy) :=
  modify id fun producer => by split <;> rfl

theorem unsubscribe (streaming : Streaming) (id : ProducerId) (proxy : ProxyId) :
    Retold streaming (streaming.unsubscribe id proxy) :=
  modify id fun _ => rfl

theorem unsubscribeAll (streaming : Streaming) (proxy : ProxyId) :
    Retold streaming (streaming.unsubscribeAll proxy) := by
  refine ⟨funext fun id => ?_, rfl, rfl, rfl⟩
  show (Table.get? _ id).map _ = _
  rw [get?_unsubscribeAll, Option.map_map]
  rfl

theorem foldl {α : Type} {step : Streaming → α → Streaming}
    (steps : ∀ streaming subject, Retold streaming (step streaming subject)) (subjects : List α)
    (streaming : Streaming) : Retold streaming (subjects.foldl step streaming) := by
  induction subjects generalizing streaming with
  | nil => exact refl streaming
  | cons subject rest inductionHypothesis =>
    exact (steps streaming subject).trans (inductionHypothesis _)

end Retold

theorem tells_modify {change : StreamingProducer → StreamingProducer} :
    Tells { streaming with producers := streaming.producers.modify id change } other its ↔
      if other = id then ∃ producer, streaming.producers.get? id = some producer ∧
        its ∈ (change producer).subscribers
      else streaming.Tells other its := by
  unfold Tells
  simp only [Table.get?_modify]
  split
  · simp only [Option.map_eq_some_iff]
    constructor
    · rintro ⟨_, ⟨producer, found, rfl⟩, member⟩
      exact ⟨producer, found, member⟩
    · rintro ⟨producer, found, member⟩
      exact ⟨_, ⟨producer, found, rfl⟩, member⟩
  · rfl

theorem tells_subscribe : (streaming.subscribe id proxy).Tells other its ↔
    streaming.Tells other its ∨ (other = id ∧ its = proxy ∧ (streaming.bare id).isSome) := by
  refine tells_modify.trans ?_
  split
  · rename_i here
    subst here
    rw [isSome_bare]
    constructor
    · rintro ⟨producer, found, member⟩
      split at member
      · exact .inl ⟨producer, found, member⟩
      · exact (List.mem_cons.mp member).elim (fun same => .inr ⟨rfl, same, found ▸ rfl⟩)
          fun before => .inl ⟨producer, found, before⟩
    · rintro (⟨producer, found, member⟩ | ⟨_, rfl, live⟩)
      · refine ⟨producer, found, ?_⟩
        split
        · exact member
        · exact List.mem_cons_of_mem _ member
      · obtain ⟨producer, found⟩ := Option.isSome_iff_exists.mp live
        refine ⟨producer, found, ?_⟩
        split
        · assumption
        · exact List.mem_cons_self ..
  · rename_i different
    exact (or_iff_left fun both => different both.1).symm

theorem mem_withoutSubscriber {producer : StreamingProducer} :
    its ∈ (withoutSubscriber producer proxy).subscribers ↔
      its ∈ producer.subscribers ∧ its ≠ proxy := by
  unfold withoutSubscriber
  rw [List.mem_filter, decide_eq_true_iff]

theorem tells_unsubscribe : (streaming.unsubscribe id proxy).Tells other its ↔
    streaming.Tells other its ∧ ¬(other = id ∧ its = proxy) := by
  refine tells_modify.trans ?_
  simp only [mem_withoutSubscriber]
  split
  · rename_i here
    subst here
    constructor
    · rintro ⟨producer, found, member, different⟩
      exact ⟨⟨producer, found, member⟩, fun both => different both.2⟩
    · rintro ⟨⟨producer, found, member⟩, different⟩
      exact ⟨producer, found, member, fun same => different ⟨rfl, same⟩⟩
  · rename_i different
    exact (and_iff_left fun both => different both.1).symm

theorem tells_unsubscribeAll : (streaming.unsubscribeAll proxy).Tells other its ↔
    streaming.Tells other its ∧ its ≠ proxy := by
  unfold Tells
  simp only [get?_unsubscribeAll, Option.map_eq_some_iff]
  constructor
  · rintro ⟨_, ⟨producer, found, rfl⟩, member⟩
    obtain ⟨before, different⟩ := mem_withoutSubscriber.mp member
    exact ⟨⟨producer, found, before⟩, different⟩
  · rintro ⟨⟨producer, found, before⟩, different⟩
    exact ⟨_, ⟨producer, found, rfl⟩, mem_withoutSubscriber.mpr ⟨before, different⟩⟩

theorem tells_subscribe_foldl (ids : List ProducerId) (streaming : Streaming) :
    (ids.foldl (fun streaming id => streaming.subscribe id proxy) streaming).Tells other its ↔
      streaming.Tells other its ∨ (its = proxy ∧ other ∈ ids ∧ (streaming.bare other).isSome) := by
  induction ids generalizing streaming with
  | nil => simp
  | cons id rest inductionHypothesis =>
    rw [List.foldl_cons, inductionHypothesis, tells_subscribe,
      (Retold.subscribe streaming id proxy).bare, List.mem_cons, or_assoc]
    refine or_congr_right ⟨?_, ?_⟩
    · rintro (⟨rfl, rfl, live⟩ | ⟨same, member, live⟩)
      · exact ⟨rfl, .inl rfl, live⟩
      · exact ⟨same, .inr member, live⟩
    · rintro ⟨same, rfl | member, live⟩
      · exact .inl ⟨rfl, same, live⟩
      · exact .inr ⟨same, member, live⟩

/-! ### Allocating and freeing -/

theorem freeAll_eq (streaming : Streaming) (allocations : List AllocationId) :
    UniformCache.freeAll streaming allocations =
      { streaming with allocations := allocations.foldl Table.erase streaming.allocations } := by
  unfold UniformCache.freeAll
  induction allocations generalizing streaming with
  | nil => rfl
  | cons allocation rest inductionHypothesis => exact inductionHypothesis _

theorem allocated_freeAll (allocations : List AllocationId) (streaming : Streaming) :
    (UniformCache.freeAll streaming allocations).Allocated allocation ↔
      streaming.Allocated allocation ∧ allocation ∉ allocations := by
  unfold UniformCache.freeAll
  induction allocations generalizing streaming with
  | nil => simp
  | cons first rest inductionHypothesis =>
    rw [List.foldl_cons, inductionHypothesis, List.mem_cons, not_or, ← and_assoc]
    refine and_congr_left fun _ => ?_
    unfold Allocated free freeOptional
    dsimp only
    rw [Table.get?_erase]
    split
    · rename_i same
      simp [same]
    · rename_i different
      exact (and_iff_left different).symm

theorem allocated_insertAllocation (streaming : Streaming) (content : StreamingAllocation) :
    (streaming.insertAllocation content).2.Allocated allocation ↔
      streaming.Allocated allocation ∨ allocation = streaming.nextAllocation := by
  unfold Allocated insertAllocation
  dsimp only
  rw [Table.get?_insert]
  split
  · rename_i same
    simp [same]
  · rename_i different
    exact (or_iff_left different).symm

theorem allocate_eq_ok {layers : List (Option ProducerId)}
    (ran : streaming.allocate layers = .ok (allocation, next)) :
    ∃ content, (allocation, next) = streaming.insertAllocation content := by
  unfold allocate at ran
  split at ran
  · cases ran
  · obtain ⟨agreed, _, ran⟩ := bind_eq_ok.mp ran
    exact ⟨_, (Except.ok.inj ran).symm⟩

/-! ### Producers -/

/-- The allocation that would be made together with a producer. -/
def reserved (streaming : Streaming) (preallocates : Bool) : Option AllocationId :=
  if preallocates then some streaming.nextAllocation else none

section Creating

variable (streaming : Streaming) (id : ProducerId) (texture : TextureId) (tile border : UInt32)
  (preallocates : Bool)

theorem createProducer_producers :
    (streaming.createProducer id texture tile border preallocates).producers =
      streaming.producers.insert id
        { texture, tile, border, preallocated := streaming.reserved preallocates } := by
  cases preallocates <;> rfl

theorem createProducer_byTexture :
    (streaming.createProducer id texture tile border preallocates).byTexture =
      streaming.byTexture.insert texture id := by
  cases preallocates <;> rfl

theorem bare_createProducer :
    (streaming.createProducer id texture tile border preallocates).bare other =
      if other = id then
        some { texture, tile, border, preallocated := streaming.reserved preallocates }
      else streaming.bare other := by
  unfold bare
  rw [createProducer_producers, Table.get?_insert]
  split <;> rfl

theorem tells_createProducer :
    (streaming.createProducer id texture tile border preallocates).Tells other its ↔
      other ≠ id ∧ streaming.Tells other its := by
  unfold Tells
  rw [createProducer_producers]
  simp only [Table.get?_insert]
  split
  · rename_i here
    constructor
    · rintro ⟨producer, same, member⟩
      cases same
      cases member
    · exact fun both => absurd here both.1
  · rename_i different
    exact (and_iff_right different).symm

theorem allocated_createProducer :
    (streaming.createProducer id texture tile border preallocates).Allocated allocation ↔
      streaming.Allocated allocation ∨ allocation ∈ (streaming.reserved preallocates).toList := by
  cases preallocates
  · exact (or_iff_left List.not_mem_nil).symm
  · exact (allocated_insertAllocation ..).trans (or_congr_right List.mem_singleton.symm)

theorem createProducer_nextAllocation :
    (streaming.createProducer id texture tile border preallocates).nextAllocation =
      if preallocates then streaming.nextAllocation.next else streaming.nextAllocation := by
  cases preallocates <;> rfl

end Creating

/-- Nothing happens to a producer that is not there. -/
theorem destroyProducer_absent (absent : streaming.producers.get? id = none) :
    streaming.destroyProducer id = ([], streaming) := by
  unfold destroyProducer
  rw [absent]

/-- What is left without a producer. -/
theorem destroyProducer_eq {producer : StreamingProducer}
    (found : streaming.producers.get? id = some producer) :
    streaming.destroyProducer id = (Identifier.sort producer.subscribers,
      { UniformCache.freeAll streaming producer.preallocated.toList with
        producers := streaming.producers.erase id
        byTexture :=
          if streaming.byTexture.get? producer.texture = some id then
            streaming.byTexture.erase producer.texture
          else streaming.byTexture }) := by
  unfold destroyProducer
  rw [found]
  dsimp only
  cases producer.preallocated <;> rfl

theorem bare_destroyProducer : (streaming.destroyProducer id).2.bare other =
    if other = id then none else streaming.bare other := by
  unfold bare
  cases found : streaming.producers.get? id with
  | none =>
    rw [destroyProducer_absent found]
    split
    · rename_i here
      rw [here, found]
      rfl
    · rfl
  | some producer =>
    rw [destroyProducer_eq found, Table.get?_erase]
    split <;> rfl

theorem tells_destroyProducer : (streaming.destroyProducer id).2.Tells other its ↔
    other ≠ id ∧ streaming.Tells other its := by
  unfold Tells
  cases found : streaming.producers.get? id with
  | none =>
    rw [destroyProducer_absent found]
    refine (and_iff_right_of_imp ?_).symm
    rintro ⟨_, there, _⟩ rfl
    cases there.symm.trans found
  | some producer =>
    simp only [destroyProducer_eq found, Table.get?_erase]
    split
    · rename_i here
      refine iff_of_false ?_ fun both => both.1 here
      rintro ⟨_, gone, _⟩
      cases gone
    · rename_i different
      exact (and_iff_right different).symm

theorem allocated_destroyProducer : (streaming.destroyProducer id).2.Allocated allocation ↔
    streaming.Allocated allocation ∧
      allocation ∉ ((streaming.producers.get? id).bind StreamingProducer.preallocated).toList := by
  cases found : streaming.producers.get? id with
  | none =>
    rw [destroyProducer_absent found]
    exact (and_iff_left List.not_mem_nil).symm
  | some producer =>
    rw [destroyProducer_eq found]
    exact allocated_freeAll producer.preallocated.toList streaming

theorem destroyProducer_nextAllocation :
    (streaming.destroyProducer id).2.nextAllocation = streaming.nextAllocation := by
  cases found : streaming.producers.get? id with
  | none => rw [destroyProducer_absent found]
  | some producer => rw [destroyProducer_eq found, freeAll_eq]

/-- A producer that goes away no longer answers for its texture. -/
theorem destroyProducer_byTexture {texture : TextureId}
    (answers : (streaming.destroyProducer id).2.byTexture.get? texture = some other) :
    streaming.byTexture.get? texture = some other ∧
      ∀ producer, streaming.producers.get? id = some producer → texture = producer.texture →
        other ≠ id := by
  cases found : streaming.producers.get? id with
  | none =>
    rw [destroyProducer_absent found] at answers
    exact ⟨answers, fun _ there => nomatch there⟩
  | some producer =>
    rw [destroyProducer_eq found] at answers
    dsimp only at answers
    split at answers
    · rw [Table.get?_erase] at answers
      split at answers
      · cases answers
      · rename_i different
        refine ⟨answers, fun _ there same => ?_⟩
        cases there
        exact absurd same different
    · rename_i unlike
      refine ⟨answers, fun _ there same here => unlike ?_⟩
      cases there
      exact same ▸ here ▸ answers

end Streaming

/-! ### Caches -/

namespace UniformCache

open Streaming

/-- What has been composed so far, starting from some streaming textures: allocations of its own,
and producers that answer for a texture. -/
structure Composed (start : Streaming) (composition : Composition) : Prop where
  producers : composition.streaming.producers = start.producers
  byTexture : composition.streaming.byTexture = start.byTexture
  allocated : ∀ allocation, composition.streaming.Allocated allocation ↔
    start.Allocated allocation ∨ allocation ∈ composition.allocations
  single : composition.allocations.Nodup
  numbered : ∀ allocation ∈ composition.allocations,
    start.nextAllocation.number ≤ allocation.number ∧
      allocation.number < composition.streaming.nextAllocation.number
  later : start.nextAllocation.number ≤ composition.streaming.nextAllocation.number
  offered : ∀ id ∈ composition.producers, ∃ texture, start.byTexture.get? texture = some id

namespace Composed

variable {start : Streaming} {composition next : Composition} {set : ExpressionSet}
  {source : ParameterSource}

theorem begin (start : Streaming) : Composed start { streaming := start } :=
  ⟨rfl, rfl, fun _ => (or_iff_left List.not_mem_nil).symm, List.nodup_nil,
    fun _ member => (nomatch member), Nat.le_refl _, fun _ member => (nomatch member)⟩

/-- A producer that is found answers for a texture. -/
theorem offers (composed : Composed start composition) {expression : UInt32} {id : ProducerId}
    (found : producerOf set source composition.streaming expression = some id) :
    ∃ texture, start.byTexture.get? texture = some id := by
  obtain ⟨texture, _, found⟩ := Option.bind_eq_some_iff.mp found
  unfold producerFor at found
  exact ⟨_, composed.byTexture ▸ found⟩

theorem adopt (composed : Composed start composition) (expression : UInt32) :
    Composed start (adopt set source composition expression) := by
  refine ⟨composed.producers, composed.byTexture, composed.allocated, composed.single,
    composed.numbered, composed.later, fun id member => ?_⟩
  rcases List.mem_append.mp member with before | found
  · exact composed.offered id before
  · exact composed.offers (Option.mem_toList.mp found)

theorem compose (composed : Composed start composition) {layers : List UInt32}
    (ran : compose set source composition layers = .ok next) : Composed start next := by
  obtain ⟨⟨allocation, streaming⟩, allocates, ran⟩ := bind_eq_ok.mp ran
  obtain ⟨content, inserted⟩ := allocate_eq_ok allocates
  cases inserted
  cases ran
  refine ⟨composed.producers, composed.byTexture, fun allocation => ?_, ?_,
    fun allocation member => ?_, Nat.le_succ_of_le composed.later, fun id member => ?_⟩
  · refine (allocated_insertAllocation composition.streaming content).trans ?_
    rw [composed.allocated, List.mem_append, List.mem_singleton, or_assoc]
  · refine List.nodup_append.mpr ⟨composed.single, List.nodup_cons.mpr ⟨List.not_mem_nil, .nil⟩, ?_⟩
    rintro first member _ new rfl
    rw [List.mem_singleton.mp new] at member
    exact Nat.lt_irrefl _ (composed.numbered _ member).2
  · rcases List.mem_append.mp member with before | new
    · obtain ⟨least, most⟩ := composed.numbered allocation before
      exact ⟨least, Nat.lt_succ_of_lt most⟩
    · rw [List.mem_singleton.mp new]
      exact ⟨composed.later, Nat.lt_succ_self _⟩
  · rcases List.mem_append.mp member with before | new
    · exact composed.offered id before
    · obtain ⟨layer, inside, same⟩ := List.mem_filterMap.mp new
      cases same
      obtain ⟨expression, _, found⟩ := List.mem_map.mp inside
      exact composed.offers found

theorem composeStack (composed : Composed start composition) {stack : StreamingStack}
    (ran : composeStack set source composition stack = .ok next) : Composed start next := by
  unfold UniformCache.composeStack at ran
  split at ran
  · cases ran
    exact composed.adopt _
  · exact composed.compose ran

end Composed

/-- What a cache does when it is rebuilt for a proxy: it gives back all it had and takes new
allocations, and the proxy is told of all producers that it reads. -/
structure Renews (cache : UniformCache) (proxy : ProxyId) (streaming : Streaming)
    (rebuilt : Rebuilt) : Prop where
  bare : rebuilt.streaming.bare = streaming.bare
  byTexture : rebuilt.streaming.byTexture = streaming.byTexture
  tells : ∀ id its, rebuilt.streaming.Tells id its ↔ streaming.Tells id its ∨
    (its = proxy ∧ id ∈ rebuilt.cache.producers ∧ (streaming.bare id).isSome)
  allocated : ∀ allocation, rebuilt.streaming.Allocated allocation ↔
    (freeAll streaming cache.allocations).Allocated allocation ∨
      allocation ∈ rebuilt.cache.allocations
  single : rebuilt.cache.allocations.Nodup
  numbered : ∀ allocation ∈ rebuilt.cache.allocations,
    streaming.nextAllocation.number ≤ allocation.number ∧
      allocation.number < rebuilt.streaming.nextAllocation.number
  later : streaming.nextAllocation.number ≤ rebuilt.streaming.nextAllocation.number
  offered : ∀ id ∈ rebuilt.cache.producers, ∃ texture, streaming.byTexture.get? texture = some id
  dropped : rebuilt.dropped = cache.producers.filter (· ∉ rebuilt.cache.producers)

theorem rebuild_renews {cache : UniformCache} {proxy : ProxyId} {resource : ResourceId}
    {shared : SharedMap} {source : ParameterSource} {streaming : Streaming}
    {nextBuffer : BufferId} {rebuilt : Rebuilt}
    (ran : cache.rebuild proxy resource shared source streaming nextBuffer = .ok rebuilt) :
    cache.Renews proxy streaming rebuilt := by
  unfold rebuild at ran
  obtain ⟨composition, stacked, ran⟩ := bind_eq_ok.mp ran
  obtain ⟨content, _, ran⟩ := bind_eq_ok.mp ran
  have composed : Composed (freeAll streaming cache.allocations) composition :=
    foldlM_kept (fun _ _ _ composed stacked => composed.composeStack stacked) _ _ _ (.begin _)
      stacked
  have told : Retold composition.streaming (composition.producers.foldl (fun streaming producer =>
      streaming.subscribe producer proxy) composition.streaming) :=
    .foldl (fun streaming id => .subscribe streaming id proxy) _ _
  rw [freeAll_eq] at composed
  have bare : composition.streaming.bare = streaming.bare := by
    unfold Streaming.bare
    rw [composed.producers]
  cases ran
  refine ⟨told.bare.trans bare, told.byTexture.trans composed.byTexture, fun id its => ?_,
    fun allocation => ?_, composed.single, ?_, ?_, composed.offered, rfl⟩
  · rw [tells_subscribe_foldl, bare]
    refine or_congr_left ?_
    unfold Tells
    rw [composed.producers]
  · refine Iff.trans ?_ (composed.allocated allocation) |>.trans ?_
    · unfold Allocated
      rw [told.allocations]
    · rw [freeAll_eq]
  · rw [told.nextAllocation]
    exact composed.numbered
  · rw [told.nextAllocation]
    exact composed.later

end UniformCache

namespace World

open Streaming

theorem releaseSubscriptions_retold (streaming : Streaming) (caches : PerTier UniformCache)
    (proxy : ProxyId) (dropped : List ProducerId) :
    Retold streaming (releaseSubscriptions streaming caches proxy dropped) := by
  refine .foldl (fun streaming id => ?_) dropped streaming
  split
  · exact .refl streaming
  · exact .unsubscribe streaming id proxy

/-- A proxy is no longer told of the producers that were dropped and that no cache of it reads. -/
theorem tells_releaseSubscriptions {caches : PerTier UniformCache} {proxy its : ProxyId}
    {id : ProducerId} (dropped : List ProducerId) (streaming : Streaming) :
    (releaseSubscriptions streaming caches proxy dropped).Tells id its ↔
      streaming.Tells id its ∧
        ¬(its = proxy ∧ id ∈ dropped ∧ ∀ cache ∈ caches.toList, id ∉ cache.producers) := by
  unfold releaseSubscriptions
  induction dropped generalizing streaming with
  | nil => simp
  | cons first rest inductionHypothesis =>
    rw [List.foldl_cons, inductionHypothesis]
    split
    · rename_i read
      obtain ⟨cache, member, reads⟩ := List.any_eq_true.mp read
      refine and_congr_right fun _ => not_congr ?_
      constructor
      · exact fun ⟨same, inside, nowhere⟩ => ⟨same, List.mem_cons_of_mem _ inside, nowhere⟩
      · rintro ⟨same, inside, nowhere⟩
        rcases List.mem_cons.mp inside with rfl | inside
        · exact absurd (of_decide_eq_true reads) (nowhere cache member)
        · exact ⟨same, inside, nowhere⟩
    · rename_i read
      have unread : ∀ cache ∈ caches.toList, first ∉ cache.producers := fun cache member reads =>
        read (List.any_eq_true.mpr ⟨cache, member, decide_eq_true reads⟩)
      rw [tells_unsubscribe, and_assoc, ← not_or]
      refine and_congr_right fun _ => not_congr ?_
      constructor
      · rintro (⟨rfl, same⟩ | ⟨same, inside, nowhere⟩)
        · exact ⟨same, List.mem_cons_self .., unread⟩
        · exact ⟨same, List.mem_cons_of_mem _ inside, nowhere⟩
      · rintro ⟨same, inside, nowhere⟩
        rcases List.mem_cons.mp inside with rfl | inside
        · exact .inl ⟨rfl, same⟩
        · exact .inr ⟨same, inside, nowhere⟩

theorem freeCaches_eq (streaming : Streaming) (caches : PerTier UniformCache) :
    freeCaches streaming caches =
      UniformCache.freeAll streaming (caches.toList.flatMap UniformCache.allocations) :=
  List.foldl_flatMap.symm

end World

end Shading
