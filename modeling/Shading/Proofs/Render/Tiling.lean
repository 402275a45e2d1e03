/-
What allocations are composed of. When an allocation is made its layers are
checked: they are not too many, and the producers in it are there and have tiles
of one size. It is not looked at again, though producers come and go. That it
stays right is owed to two things. The cache that owns an allocation reads all
producers in it, so that it is emptied when one of them goes away. And whatever
answers for a texture is there, even while other caches are still to be emptied,
so that no layer is ever composed of a producer that is gone.
-/

import Shading.Proofs.Render.Emptying
import Shading.Proofs.Render.Hazards
import Shading.Proofs.Render.Refusal

namespace Shading

/-- A stack was rejected: it has too many layers, or tiles of different sizes. -/
def Fault.RejectsStack (fault : Fault) : Prop :=
  (∃ layers, Streaming.maxLayers < layers ∧ fault = .stackTooLong layers) ∨
    ∃ layer tile border first firstTile firstBorder, ¬(tile = firstTile ∧ border = firstBorder) ∧
      fault = .layerMismatch layer tile border first firstTile firstBorder

/-- What is written into a buffer ends behind it. -/
def Fault.OverrunsBuffer (fault : Fault) : Prop := ∃ stop size, fault = .writeRange stop size

/-- The layers of an allocation are few and of certain producers, and those that are there have
tiles of the size of the allocation. -/
structure StreamingAllocation.Backed (content : StreamingAllocation)
    (producers : List ProducerId) (bare : ProducerId → Option StreamingProducer) : Prop where
  few : content.layers.length ≤ Streaming.maxLayers
  among : ∀ id, some id ∈ content.layers → id ∈ producers
  alike : ∀ id producer, some id ∈ content.layers → bare id = some producer →
    producer.tile = content.tile ∧ producer.border = content.border

namespace StreamingAllocation.Backed

variable {content : StreamingAllocation} {producers more : List ProducerId}
  {bare bare' : ProducerId → Option StreamingProducer}

theorem mono (backed : content.Backed producers bare) (all : producers ⊆ more) :
    content.Backed more bare :=
  ⟨backed.few, fun id member => all (backed.among id member), backed.alike⟩

/-- Producers may go away. -/
theorem fewer (backed : content.Backed producers bare)
    (left : ∀ id ∈ producers, ∀ producer, bare' id = some producer → bare id = some producer) :
    content.Backed producers bare' :=
  ⟨backed.few, backed.among, fun id producer member there =>
    backed.alike id producer member (left id (backed.among id member) producer there)⟩

end StreamingAllocation.Backed

/-! ### Allocating -/

namespace Streaming

variable {streaming next : Streaming} {layers : List (Option ProducerId)} {index : Nat}
  {agreed agreed' : Agreed} {allocation : AllocationId} {fault : Fault}

/-- What layers have agreed on is the size of each of their producers. -/
theorem agree_eq_ok (ran : streaming.agree index agreed layers = .ok agreed') :
    (∀ first, agreed = some first → agreed' = some first) ∧
      ∀ id, some id ∈ layers → ∃ producer, streaming.producers.get? id = some producer ∧
        (producer.tile, producer.border) = agreedSize agreed' := by
  fun_induction streaming.agree index agreed layers with
  | case1 =>
    cases ran
    exact ⟨fun _ same => same, fun _ member => absurd member List.not_mem_nil⟩
  | case2 _ _ _ inductionHypothesis =>
    obtain ⟨kept, sizes⟩ := inductionHypothesis ran
    refine ⟨kept, fun id member => sizes id ?_⟩
    exact (List.mem_cons.mp member).resolve_left (Option.some_ne_none id)
  | case3 => cases ran
  | case4 index id rest producer found inductionHypothesis =>
    -- The first producer is the one that all later ones have to agree with.
    obtain ⟨kept, sizes⟩ := inductionHypothesis ran
    refine ⟨fun _ was => absurd was (Option.some_ne_none _).symm, fun other member => ?_⟩
    rcases List.mem_cons.mp member with same | later
    · cases same
      refine ⟨producer, found, ?_⟩
      rw [kept _ rfl]
      rfl
    · exact sizes other later
  | case5 index id rest producer found first tile border same inductionHypothesis =>
    obtain ⟨kept, sizes⟩ := inductionHypothesis ran
    refine ⟨kept, fun other member => ?_⟩
    rcases List.mem_cons.mp member with here | later
    · cases here
      refine ⟨producer, found, ?_⟩
      rw [kept _ rfl, same.1, same.2]
      rfl
    · exact sizes other later
  | case6 => cases ran

/-- If all producers are there, only their sizes can keep layers from agreeing. -/
theorem agree_eq_error (live : ∀ id, some id ∈ layers → (streaming.producers.get? id).isSome)
    (ran : streaming.agree index agreed layers = .error fault) : fault.RejectsStack := by
  fun_induction streaming.agree index agreed layers with
  | case1 => cases ran
  | case2 _ _ _ inductionHypothesis | case4 _ _ _ _ _ inductionHypothesis =>
    exact inductionHypothesis (fun id member => live id (List.mem_cons_of_mem _ member)) ran
  | case3 index agreed id rest missing =>
    have there := live id List.mem_cons_self
    rw [missing] at there
    cases there
  | case5 _ _ _ _ _ _ _ _ _ inductionHypothesis =>
    exact inductionHypothesis (fun id member => live id (List.mem_cons_of_mem _ member)) ran
  | case6 index id rest producer found first tile border different =>
    cases ran
    refine .inr ⟨_, _, _, _, _, _, fun same => different ?_, rfl⟩
    exact ⟨UInt32.toNat_inj.mp same.1, UInt32.toNat_inj.mp same.2⟩

theorem allocate_backed (ran : streaming.allocate layers = .ok (allocation, next)) :
    ∃ content, (allocation, next) = streaming.insertAllocation content ∧
      content.Backed (layers.filterMap id) streaming.bare := by
  rw [allocate_eq] at ran
  split at ran
  · cases ran
  · rename_i short
    obtain ⟨agreed, agrees, inserted⟩ := map_eq_ok.mp ran
    refine ⟨_, inserted.symm, Nat.le_of_not_lt short,
      fun id member => List.mem_filterMap.mpr ⟨some id, member, rfl⟩,
      fun id producer member there => ?_⟩
    obtain ⟨_, sizes⟩ := agree_eq_ok agrees
    obtain ⟨owner, found, size⟩ := sizes id member
    unfold bare at there
    rw [found] at there
    cases there
    exact Prod.mk.inj size

theorem allocate_eq_error (live : ∀ id, some id ∈ layers → (streaming.producers.get? id).isSome)
    (ran : streaming.allocate layers = .error fault) : fault.RejectsStack := by
  rw [allocate_eq] at ran
  split at ran
  · rename_i long
    cases ran
    exact .inl ⟨_, long, rfl⟩
  · exact agree_eq_error live (map_eq_error.mp ran)

theorem get?_insertAllocation {content : StreamingAllocation}
    (older : allocation.number < streaming.nextAllocation.number) :
    (streaming.insertAllocation content).2.allocations.get? allocation =
      streaming.allocations.get? allocation :=
  (Table.get?_insert ..).trans (if_neg fun same => Nat.lt_irrefl _ (same ▸ older))

/-! ### Producers -/

variable {id : ProducerId} {texture : TextureId} {tile border : UInt32} {preallocates : Bool}

theorem get?_createProducer (older : allocation.number < streaming.nextAllocation.number) :
    (streaming.createProducer id texture tile border preallocates).allocations.get? allocation =
      streaming.allocations.get? allocation := by
  cases preallocates with
  | false => rfl
  | true => exact get?_insertAllocation older

/-- There is nothing after a producer has gone that was not there before. -/
theorem destroyProducer_fewer (streaming : Streaming) (id : ProducerId) :
    (∀ other producer, (streaming.destroyProducer id).2.bare other = some producer →
      streaming.bare other = some producer) ∧
    ∀ allocation content, (streaming.destroyProducer id).2.allocations.get? allocation =
      some content → streaming.allocations.get? allocation = some content := by
  refine ⟨fun other _ there => ?_, fun allocation content there => ?_⟩
  · rw [bare_destroyProducer] at there
    split at there
    · cases there
    · exact there
  · cases found : streaming.producers.get? id with
    | none =>
      rw [destroyProducer_absent found] at there
      exact there
    | some producer =>
      rw [destroyProducer_eq found] at there
      exact (World.get?_freeAll there).1

end Streaming

/-! ### Rebuilding -/

namespace UniformCache

variable {set : ExpressionSet} {source : ParameterSource} {streaming start : Streaming}
  {stack : StreamingStack} {composition next : Composition} {cache : UniformCache} {fault : Fault}

/-- What has been allocated for a composition is backed by its producers, and what was allocated
before it began is as it was. -/
structure Tiles (start : Streaming) (composition : Composition) : Prop
    extends Composed start composition where
  kept : ∀ allocation, allocation.number < start.nextAllocation.number →
    composition.streaming.allocations.get? allocation = start.allocations.get? allocation
  backed : ∀ allocation ∈ composition.allocations, ∀ content,
    composition.streaming.allocations.get? allocation = some content →
      content.Backed composition.producers start.bare

namespace Tiles

theorem begin (start : Streaming) : Tiles start { streaming := start } :=
  ⟨.begin start, fun _ _ => rfl, fun _ member => nomatch member⟩

theorem compose {layers : List UInt32} (tiles : Tiles start composition)
    (ran : compose set source composition layers = .ok next) : Tiles start next := by
  have composed := tiles.toComposed.compose ran
  obtain ⟨⟨allocation, streaming⟩, allocates, ran⟩ := bind_eq_ok.mp ran
  obtain ⟨content, inserted, backed⟩ := Streaming.allocate_backed allocates
  cases inserted
  cases ran
  have bare : composition.streaming.bare = start.bare := by
    unfold Streaming.bare
    rw [tiles.producers]
  refine ⟨composed, fun allocation older => ?_, fun allocation member content' there => ?_⟩
  · have old := Nat.lt_of_lt_of_le older tiles.later
    exact (Streaming.get?_insertAllocation old).trans (tiles.kept allocation older)
  · rcases List.mem_append.mp member with before | new
    · have still : composition.streaming.allocations.get? allocation = some content' :=
        (Streaming.get?_insertAllocation (tiles.numbered allocation before).2).symm.trans there
      exact (tiles.backed allocation before content' still).mono (List.subset_append_left ..)
    · cases List.mem_singleton.mp new
      have inserted : some content = some content' :=
        ((Table.get?_insert ..).trans (if_pos rfl)).symm.trans there
      cases inserted
      exact (bare ▸ backed).mono (List.subset_append_right ..)

theorem composeStack (tiles : Tiles start composition)
    (ran : composeStack set source composition stack = .ok next) : Tiles start next := by
  have composed := tiles.toComposed.composeStack ran
  unfold UniformCache.composeStack at ran
  split at ran
  · cases ran
    exact ⟨composed, tiles.kept, fun allocation member content there =>
      (tiles.backed allocation member content there).mono (List.subset_append_left ..)⟩
  · exact tiles.compose ran

end Tiles

variable {proxy : ProxyId} {resource : ResourceId} {shared : SharedMap} {nextBuffer : BufferId}

/-- What a rebuilt cache owns is backed by the producers that it reads, and what others own is as
it was. -/
theorem rebuild_backed {rebuilt : Rebuilt}
    (ran : cache.rebuild proxy resource shared source streaming nextBuffer = .ok rebuilt) :
    (∀ allocation content, allocation.number < streaming.nextAllocation.number →
      rebuilt.streaming.allocations.get? allocation = some content →
      streaming.allocations.get? allocation = some content) ∧
    ∀ allocation ∈ rebuilt.cache.allocations, ∀ content,
      rebuilt.streaming.allocations.get? allocation = some content →
      content.Backed rebuilt.cache.producers streaming.bare := by
  unfold rebuild at ran
  obtain ⟨composition, stacked, ran⟩ := bind_eq_ok.mp ran
  obtain ⟨content, _, ran⟩ := bind_eq_ok.mp ran
  have tiles : Tiles (freeAll streaming cache.allocations) composition :=
    foldlM_kept (fun _ _ _ tiles stacked => tiles.composeStack stacked) _ _ _ (.begin _) stacked
  have told : Streaming.Retold composition.streaming
      (composition.producers.foldl (fun streaming producer =>
        streaming.subscribe producer proxy) composition.streaming) :=
    .foldl (fun streaming id => .subscribe streaming id proxy) _ _
  have number : (freeAll streaming cache.allocations).nextAllocation =
      streaming.nextAllocation := by
    rw [Streaming.freeAll_eq]
  have bare : (freeAll streaming cache.allocations).bare = streaming.bare := by
    rw [Streaming.freeAll_eq]
    rfl
  cases ran
  dsimp only
  rw [told.allocations, ← bare]
  refine ⟨fun allocation content older there => ?_, tiles.backed⟩
  rw [tiles.kept allocation (number ▸ older)] at there
  exact (World.get?_freeAll there).1

/-- Nothing but a rejected stack or an overrun buffer keeps a cache from being rebuilt. -/
theorem rejects_of_rebuild (equipped : streaming.Equipped)
    (apart : Apart cache.allocations streaming)
    (sized : ∀ buffer, cache.buffer = some buffer → buffer.content.length = buffer.layout.size)
    (answered : streaming.Answered)
    (ran : cache.rebuild proxy resource shared source streaming nextBuffer = .error fault) :
    fault.RejectsStack ∨ fault.OverrunsBuffer := by
  refine (cause_of_rebuild_error equipped apart sized ran).imp
    (fun ⟨stack, _, composition, follows, failed⟩ => ?_) fun ⟨stop, _, same⟩ => ⟨stop, _, same⟩
  unfold UniformCache.composeStack at failed
  split at failed
  · cases failed
  · rcases bind_eq_error.mp failed with failed | ⟨_, _, ends⟩
    · refine Streaming.allocate_eq_error (fun id member => ?_) failed
      -- A layer names the producer that answers for its texture.
      obtain ⟨expression, _, answers⟩ := List.mem_map.mp member
      rw [producerOf_eq] at answers
      obtain ⟨texture, _, answers⟩ := Option.bind_eq_some_iff.mp answers
      unfold Streaming.producerFor at answers
      rw [follows.byTexture] at answers
      rw [← Streaming.isSome_bare, follows.bare]
      exact answered texture id answers
    · cases ends

end UniformCache

/-! ### What can go wrong -/

namespace World

/-- There is nothing to draw with only if the default proxy has nothing. -/
theorem noFallback_of_drawable {world : World} {proxy : ProxyId} {tier : Tier} {fault : Fault}
    (ran : world.drawable proxy tier = .error fault) :
    ∃ material tier, fault = .noFallback material tier := by
  unfold drawable at ran
  split at ran
  · cases ran
  · cases ran
  · split at ran
    · cases ran
    · cases ran
      exact ⟨_, tier, rfl⟩

section

variable {assured : World → Prop} {expected : Fault → Prop} {world next : World}
  {proxy : ProxyId} {tier : Tier} {recreate : Bool} {fault : Fault}
  (warranty : Warranty (fun _ _ _ _ _ => True) assured)
  (rebuilding : ∀ world proxy tier fault, assured world →
    world.evaluate proxy tier = .error fault → expected fault)

include warranty rebuilding

theorem expected_of_invalidateAll {all : List ProxyId} (safe : assured world)
    (ran : all.foldlM (World.invalidate · recreate) world = .error fault) : expected fault := by
  obtain ⟨proxy, _, later, safe, failed⟩ := foldlM_error
    (fun _ _ _ safe stepped => warranty.invalidate safe stepped) _ _ safe ran
  exact (warranty.lasting.expected_of_invalidate rebuilding
    (fun _ found => warranty.dropCaches recreate safe found) failed).2

theorem expected_of_invalidateFamily (safe : assured world)
    (ran : world.invalidateFamily proxy = .error fault) : expected fault :=
  expected_of_invalidateAll warranty rebuilding safe ran

theorem expected_of_invalidateDependents {resource : ResourceId} (safe : assured world)
    (ran : world.invalidateDependents resource tier recreate = .error fault) : expected fault := by
  obtain ⟨⟨proxy, level⟩, _, later, safe, failed⟩ := foldlM_error
    (fun _ _ _ safe stepped => warranty.invalidateTier safe stepped) _ _ safe ran
  exact (warranty.lasting.expected_of_invalidateTier rebuilding
    (fun _ found => warranty.dropCache level recreate safe found) failed).2

/-- A map may also be refused because it is incomplete. -/
theorem expected_of_setMap {resource : ResourceId} {map : Option SharedMap} (safe : assured world)
    (ran : world.setMap resource map = .error fault) :
    expected fault ∨ fault.isIncompleteMap := by
  have exchanged {material : RenderMaterial} {map : Option SharedMap}
      (ran : world.exchangeMap resource material map = .error fault) : expected fault := by
    have placed : assured (world.placeMap resource material map) := warranty.congr safe rfl rfl
    exact expected_of_invalidateDependents warranty rebuilding placed ran
  unfold World.setMap at ran
  split at ran
  · cases ran
  · exact .inl (exchanged ran)
  · split at ran
    · exact .inl (exchanged ran)
    · cases ran
      exact .inr rfl

theorem expected_of_releaseMaterial {resource : ResourceId} (safe : assured world)
    (ran : world.releaseMaterial resource = .error fault) : expected fault := by
  unfold World.releaseMaterial at ran
  split at ran
  · cases ran
  · have withdrawn : assured (world.withdraw resource) := warranty.congr safe rfl rfl
    rcases bind_eq_error.mp ran with failed | ⟨_, _, ends⟩
    · exact expected_of_invalidateDependents warranty rebuilding withdrawn failed
    · cases ends

theorem expected_of_setMaterials {materials : Materials} (safe : assured world)
    (ran : world.setMaterials proxy materials = .error fault) : expected fault := by
  unfold World.setMaterials at ran
  split at ran
  · cases ran
  · rename_i owner found
    split at ran
    · cases ran
    · rename_i previous _
      have formed : assured (world.reassign proxy owner previous materials) :=
        warranty.congr safe (cacheOf_insert found rfl rfl) rfl
      exact expected_of_invalidateFamily warranty rebuilding formed ran

theorem expected_of_setParameter {name : String} {value : Option ParameterValue}
    (safe : assured world) (ran : world.setParameter proxy name value = .error fault) :
    expected fault := by
  unfold World.setParameter at ran
  split at ran
  · cases ran
  · rename_i owner found
    have formed : assured (world.override proxy owner name value) :=
      warranty.congr safe (cacheOf_insert found rfl rfl) rfl
    exact expected_of_invalidateFamily warranty rebuilding formed ran

theorem expected_of_removeProxy (safe : assured world)
    (ran : world.removeProxy proxy = .error fault) : expected fault := by
  have left : assured { world.without proxy with
      children := Table.erase (world.without proxy).children proxy } :=
    warranty.congr (warranty.without proxy safe) rfl rfl
  obtain ⟨orphan, _, later, safe, failed⟩ := foldlM_error
    (fun _ _ _ safe stepped => foldlM_kept
      (fun _ _ _ safe stepped => warranty.invalidate safe stepped) _ _ _ safe stepped) _ _ left ran
  exact expected_of_invalidateFamily warranty rebuilding safe failed

theorem expected_of_apply {command : RenderCommand} (safe : assured world)
    (fresh : ∀ proxy kind, command = .createProxy proxy kind → world.proxies.get? proxy = none)
    (apart : command.producer? = none) (ran : world.apply command = .error fault) :
    expected fault ∨ fault.isIncompleteMap := by
  have counted : assured
      (world.count fun stats => { stats with commands := stats.commands + 1 }) :=
    warranty.congr safe rfl rfl
  unfold World.apply at ran
  cases command with
  | setMap => exact expected_of_setMap warranty rebuilding counted ran
  | releaseMaterial => exact .inl (expected_of_releaseMaterial warranty rebuilding counted ran)
  | createProxy proxy kind =>
    have attached := warranty.attach kind counted (fresh proxy kind rfl)
    exact .inl (warranty.lasting.expected_of_markStale rebuilding attached ran).2
  | setMaterials => exact .inl (expected_of_setMaterials warranty rebuilding counted ran)
  | setParameter | clearParameter =>
    exact .inl (expected_of_setParameter warranty rebuilding counted ran)
  | recache =>
    exact .inl (warranty.lasting.expected_of_invalidate rebuilding
      (fun _ found => warranty.dropCaches _ counted found) ran).2
  | removeProxy => exact .inl (expected_of_removeProxy warranty rebuilding counted ran)
  | createProducer | destroyProducer => cases apart
  | registerMaterial | setDefault | materialsUpdated | fence => cases ran

/-- Whatever goes wrong with an operation went wrong for a cache, unless a map was refused or there
was nothing at all to draw with. -/
theorem expected_of_carryOut {operation : Operation} (safe : assured world)
    (fresh : ∀ proxy ∈ operation.creates?, world.proxies.get? proxy = none)
    (apart : operation.producer? = none) (ran : operation.carryOut world = .error fault) :
    expected fault ∨ fault.isIncompleteMap ∨
      ∃ material tier, fault = .noFallback material tier := by
  cases operation with
  | perform command =>
    refine (expected_of_apply warranty rebuilding safe (fun proxy kind same => ?_) apart
      ran).imp_right .inl
    subst same
    exact fresh proxy rfl
  | announce => cases ran
  | updateDeferred =>
    exact .inl (warranty.lasting.expected_of_updateDeferred rebuilding safe (map_eq_error.mp ran))
  | updateIfNeeded => exact .inl (Lasting.expected_of_updateIfNeeded rebuilding safe ran)
  | evaluate => exact .inl (rebuilding _ _ _ _ safe (map_eq_error.mp ran))
  | prepareDraw =>
    rcases bind_eq_error.mp (map_eq_error.mp ran) with failed | ⟨drawable, _, ran⟩
    · exact .inr (.inr (noFallback_of_drawable failed))
    · cases drawable with
      | none => cases ran
      | some drawable =>
        rcases bind_eq_error.mp ran with failed | ⟨_, _, ends⟩
        · exact .inl (Lasting.expected_of_updateIfNeeded rebuilding safe failed)
        · cases ends
  | invalidate =>
    exact .inl (warranty.lasting.expected_of_invalidate rebuilding
      (fun _ found => warranty.dropCaches _ safe found) ran).2

end

/-! ### Worlds -/

variable {reference : Streaming} {world next : World} {proxy : ProxyId} {tier : Tier}
  {produced : List ProducerId} {id : ProducerId} {fault : Fault}

/-- Streaming textures are in order, and whatever a cache has allocated is backed by the producers
that the cache reads. -/
structure Tiled (reference : Streaming) (world : World) : Prop where
  furnished : Furnished reference world
  sized : world.Sized
  backed : ∀ proxy tier cache, world.cacheOf proxy tier = some cache →
    ∀ allocation ∈ cache.allocations, ∀ content,
      world.streaming.allocations.get? allocation = some content →
      content.Backed cache.producers reference.bare

namespace Tiled

/-- Caches may be emptied and allocations may be freed. -/
theorem carry (tiled : Tiled reference world) (furnished : Furnished reference next)
    (sized : next.Sized)
    (left : ∀ allocation content, next.streaming.allocations.get? allocation = some content →
      world.streaming.allocations.get? allocation = some content)
    (caches : ∀ proxy tier cache, next.cacheOf proxy tier = some cache →
      cache.allocations = [] ∨ world.cacheOf proxy tier = some cache) : Tiled reference next := by
  refine ⟨furnished, sized, fun proxy tier cache there allocation member content live => ?_⟩
  rcases caches proxy tier cache there with empty | before
  · rw [empty] at member
    cases member
  · exact tiled.backed proxy tier cache before allocation member content
      (left allocation content live)

theorem older (tiled : Tiled reference world) {cache : UniformCache} {allocation : AllocationId}
    (there : world.cacheOf proxy tier = some cache) (member : allocation ∈ cache.allocations) :
    allocation.number < world.streaming.nextAllocation.number := by
  obtain ⟨_, _, attended⟩ := tiled.furnished.attended
  refine attended.apportioned.numbered allocation ((attended.apportioned.allocated _).mpr ?_)
  exact ⟨.cache proxy tier, owned_cache there ▸ member⟩

theorem lasting : Lasting (Tiled reference) where
  deferred := fun _ _ tiled =>
    ⟨tiled.furnished.congr rfl rfl, tiled.sized.congr rfl, tiled.backed⟩
  installed := by
    intro world proxy tier drawable owner rebuilt tiled draws found ran
    refine ⟨Furnished.lasting.installed world proxy tier drawable owner rebuilt tiled.furnished
      draws found ran, Sized.warranty.lasting.installed world proxy tier drawable owner rebuilt
      tiled.sized draws found ran, fun other level cache there allocation member content live => ?_⟩
    obtain ⟨left, mine⟩ := UniformCache.rebuild_backed ran
    have released := releaseSubscriptions_retold rebuilt.streaming
      (owner.caches.set tier rebuilt.cache) proxy rebuilt.dropped
    rw [install_streaming, released.allocations] at live
    rw [cacheOf_install _ _ _ _ _ _ found] at there
    split at there
    · cases there
      exact tiled.furnished.bare ▸ mine allocation member content live
    · -- What another cache owns has an older number than what has just been allocated.
      exact tiled.backed other level cache there allocation member content
        (left allocation content (tiled.older there member) live)

theorem warranty : Warranty (fun _ _ _ _ _ => True) (Tiled reference) where
  lasting
  rebuilt := fun _ _ _ _ => trivial
  congr := fun tiled caches streaming =>
    tiled.carry (tiled.furnished.congr caches streaming) (tiled.sized.congr caches)
      (fun _ _ live => streaming ▸ live) fun _ _ _ there => .inr (caches ▸ there)
  dropCaches := by
    intro world proxy owner recreate tiled found
    refine tiled.carry (tiled.furnished.dropCaches recreate found)
      (Sized.warranty.dropCaches recreate tiled.sized found)
      (fun _ _ live => (get?_dropCaches found live).1) fun other level cache there => ?_
    rw [cacheOf_dropCaches _ _ _ _ found] at there
    split at there
    · obtain ⟨_, _, rfl⟩ := Option.map_eq_some_iff.mp there
      exact .inl rfl
    · exact .inr there
  dropCache := by
    intro world proxy owner tier recreate tiled found
    refine tiled.carry (tiled.furnished.dropCache tier recreate found)
      (Sized.warranty.dropCache tier recreate tiled.sized found)
      (fun _ _ live => (get?_dropCache found live).1) fun other level cache there => ?_
    rw [cacheOf_dropCache _ _ _ _ _ found] at there
    split at there
    · obtain ⟨_, _, rfl⟩ := Option.map_eq_some_iff.mp there
      exact .inl rfl
    · exact .inr there
  attach := by
    intro world proxy kind tiled absent
    refine tiled.carry (tiled.furnished.attach kind absent)
      (Sized.warranty.attach kind tiled.sized absent)
      (fun _ _ live => attach_streaming world proxy kind ▸ live) fun other level cache there => ?_
    rw [cacheOf_attach] at there
    split at there
    · cases there
      exact .inl rfl
    · exact .inr there
  without := by
    intro world proxy tiled
    obtain ⟨allocations, _, streaming⟩ := without_streaming world proxy
    refine tiled.carry (tiled.furnished.without proxy) (Sized.warranty.without proxy tiled.sized)
      (fun allocation content live => ?_) fun other level cache there => ?_
    · rw [streaming] at live
      exact (get?_freeAll live).1
    · rw [cacheOf_without] at there
      split at there
      · cases there
      · exact .inr there

/-! ### Producers -/

/-- A new producer has a new name, so that no cache reads it yet. -/
theorem createProducer (tiled : Tiled reference world)
    (attended : Attended produced (fun _ _ => False) world) (new : id ∉ produced)
    (texture : TextureId) (tile border : UInt32) (preallocates : Bool) :
    Tiled (world.streaming.createProducer id texture tile border preallocates)
      (world.createProducer id texture tile border preallocates) := by
  refine ⟨tiled.furnished.createProducer attended new texture tile border preallocates,
    tiled.sized.congr rfl, fun proxy tier cache there allocation member content live => ?_⟩
  have before : world.streaming.allocations.get? allocation = some content :=
    (Streaming.get?_createProducer (tiled.older there member)).symm.trans live
  refine (tiled.backed proxy tier cache there allocation member content before).fewer
    fun other reads producer found => ?_
  have told := (attended.told proxy other ⟨tier, cache, there, reads⟩).resolve_right not_false
  have different : other ≠ id := fun same =>
    new (same ▸ attended.produced other told.isSome_bare)
  rw [Streaming.bare_createProducer, if_neg different, tiled.furnished.bare] at found
  exact found

/-- What is left where a producer is no more, the caches that read it not yet emptied. -/
theorem unproduced (tiled : Tiled reference world)
    (attended : Attended produced (fun _ _ => False) world) (id : ProducerId) :
    Tiled (world.streaming.destroyProducer id).2
      { world with streaming := (world.streaming.destroyProducer id).2 } := by
  -- The size of a producer that is no more does not matter, so the caches that name it may wait.
  obtain ⟨bare, left⟩ := world.streaming.destroyProducer_fewer id
  refine ⟨tiled.furnished.unproduced attended id, tiled.sized.congr rfl,
    fun proxy tier cache there allocation member content live => ?_⟩
  refine (tiled.backed proxy tier cache there allocation member content
    (left allocation content live)).fewer fun other _ producer found => ?_
  exact tiled.furnished.bare ▸ bare other producer found

theorem destroyProducer (tiled : Tiled reference world)
    (attended : Attended produced (fun _ _ => False) world)
    (ran : world.destroyProducer id = .ok next) :
    Tiled (world.streaming.destroyProducer id).2 next :=
  foldlM_kept (fun _ _ _ tiled stepped => warranty.invalidate tiled stepped) _ _ _
    (tiled.unproduced attended id) ran

theorem rejects_of_evaluate (tiled : Tiled reference world)
    (ran : world.evaluate proxy tier = .error fault) :
    fault.RejectsStack ∨ fault.OverrunsBuffer := by
  obtain ⟨drawable, owner, _, found, failed⟩ := evaluate_eq_error ran
  have mine := tiled.furnished.apart proxy tier
  rw [owned_of_found found] at mine
  exact UniformCache.rejects_of_rebuild tiled.furnished.equipped mine
    (fun buffer has => tiled.sized proxy tier _ buffer (cacheOf_of_found found tier) has)
    tiled.furnished.answered failed

/-- The producers that matter are those that are there. -/
theorem settled (tiled : Tiled reference world) : Tiled world.streaming world :=
  ⟨tiled.furnished.settled, tiled.sized, tiled.furnished.bare ▸ tiled.backed⟩

/-- Caches and producers own whatever is allocated, so that all of it is backed. -/
theorem backed_of_allocated (tiled : Tiled world.streaming world)
    (attended : Attended produced (fun _ _ => False) world) {allocation : AllocationId}
    {content : StreamingAllocation}
    (live : world.streaming.allocations.get? allocation = some content) :
    ∃ producers, content.Backed producers world.streaming.bare ∧
      ∀ id ∈ producers, (world.streaming.bare id).isSome := by
  obtain ⟨owner, owned⟩ := (attended.apportioned.allocated allocation).mp
    (Option.isSome_iff_exists.mpr ⟨content, live⟩)
  cases owner with
  | cache proxy tier =>
    cases there : world.cacheOf proxy tier with
    | none =>
      rw [owned_cache there] at owned
      cases owned
    | some cache =>
      rw [owned_cache there] at owned
      refine ⟨cache.producers, tiled.backed proxy tier cache there allocation owned content live,
        fun id reads => ?_⟩
      exact ((attended.told proxy id ⟨tier, cache, there, reads⟩).resolve_right
        not_false).isSome_bare
  | producer id =>
    obtain ⟨producer, there, made⟩ : ∃ producer, world.streaming.bare id = some producer ∧
        producer.preallocated = some allocation := by
      rw [owned_producer rfl] at owned
      exact Option.bind_eq_some_iff.mp (Option.mem_toList.mp owned)
    have stocked := tiled.furnished.equipped.stocked id producer allocation there made
    cases live.symm.trans stocked
    have only {other : ProducerId} (member : some other ∈ [some id]) : other = id :=
      Option.some.inj (List.mem_singleton.mp member)
    refine ⟨[id], ⟨show 1 ≤ 8 by decide, fun other member => ?_, ?_⟩, ?_⟩
    · exact List.mem_singleton.mpr (only member)
    · intro other its member found
      cases only member
      cases there.symm.trans found
      exact ⟨rfl, rfl⟩
    · intro other member
      rw [List.mem_singleton.mp member, there]
      rfl

end Tiled

end World

/-! ### Runs -/

namespace Run

open World

variable {deferring : Bool} {activeTiers : List Tier} {past : List Operation} {world next : World}
  {operation : Operation} {fault : Fault}

theorem tiled (run : Run deferring activeTiers past world)
    (once : (Operation.producedBy past).Nodup) : Tiled world.streaming world := by
  induction run with
  | start =>
    have empty : Run deferring activeTiers [] { deferring, activeTiers } := .start
    exact ⟨empty.furnished once, empty.sized, fun _ _ _ there => nomatch there⟩
  | @step past world operation next run may ran inductionHypothesis =>
    obtain ⟨before, new⟩ := producer_new once
    have tiled := inductionHypothesis before
    have counted : Tiled world.streaming
        (world.count fun stats => { stats with commands := stats.commands + 1 }) :=
      Tiled.warranty.congr tiled rfl rfl
    have steady : Attended (Operation.producedBy past) (fun _ _ => False)
        (world.count fun stats => { stats with commands := stats.commands + 1 }) :=
      (run.attended before).congr rfl rfl
    rcases operation.producer_cases with apart | ⟨id, texture, tile, border, preallocates, rfl⟩ |
      ⟨id, rfl⟩
    · exact (Tiled.warranty.carryOut tiled run.sound may apart ran).settled
    · cases ran
      exact (counted.createProducer steady (new id rfl) texture tile border preallocates).settled
    · exact (counted.destroyProducer steady ran).settled

/-- What can go wrong next. Destroying a producer empties caches while others still wait for it, and
at that time too whatever answers for a texture is there. -/
theorem rejects_of_carryOut (run : Run deferring activeTiers past world)
    (once : (Operation.producedBy past).Nodup) (may : operation.MayFollow past)
    (ran : operation.carryOut world = .error fault) :
    (fault.RejectsStack ∨ fault.OverrunsBuffer) ∨ fault.isIncompleteMap ∨
      ∃ material tier, fault = .noFallback material tier := by
  have tiled := run.tiled once
  have rebuilding {reference : Streaming} (world : World) (proxy : ProxyId) (tier : Tier)
      (fault : Fault) (tiled : Tiled reference world)
      (ran : world.evaluate proxy tier = .error fault) :
      fault.RejectsStack ∨ fault.OverrunsBuffer :=
    tiled.rejects_of_evaluate ran
  rcases operation.producer_cases with apart | ⟨id, texture, tile, border, preallocates, rfl⟩ |
    ⟨id, rfl⟩
  · refine expected_of_carryOut Tiled.warranty rebuilding tiled (fun proxy creates => ?_) apart ran
    exact run.sound.absent (may.creates proxy creates)
  · cases ran
  · have counted : Tiled world.streaming
        (world.count fun stats => { stats with commands := stats.commands + 1 }) :=
      Tiled.warranty.congr tiled rfl rfl
    have left := counted.unproduced ((run.attended once).congr rfl rfl) id
    exact .inl (expected_of_invalidateAll Tiled.warranty rebuilding left ran)

/-- Whatever is allocated has few layers, and each of them that names a producer names one that is
there and whose tiles have the size of those of the allocation. If something goes wrong next, then
because of a stack that is too long or whose producers do not agree, of a buffer that is too large
for words, of a map that is incomplete or of a default proxy that cannot be drawn, and never because
a producer is missing. -/
theorem allocations_backed (run : Run deferring activeTiers past world)
    (once : (Operation.producedBy past).Nodup) :
    (∀ allocation content, world.streaming.allocations.get? allocation = some content →
      content.layers.length ≤ Streaming.maxLayers ∧
        ∀ id, some id ∈ content.layers → ∃ producer,
          world.streaming.producers.get? id = some producer ∧
            producer.tile = content.tile ∧ producer.border = content.border) ∧
    ∀ (operation : Operation) (fault : Fault), operation.MayFollow past →
      operation.carryOut world = .error fault →
      (∀ layer id, fault ≠ .unknownProducer layer id) ∧
        ((fault.RejectsStack ∨ fault.OverrunsBuffer) ∨ fault.isIncompleteMap ∨
          ∃ material tier, fault = .noFallback material tier) := by
  refine ⟨fun allocation content live => ?_, fun operation fault may ran => ?_⟩
  · obtain ⟨producers, backed, all⟩ :=
      (run.tiled once).backed_of_allocated (run.attended once) live
    refine ⟨backed.few, fun id member => ?_⟩
    obtain ⟨bare, there⟩ := Option.isSome_iff_exists.mp (all id (backed.among id member))
    obtain ⟨producer, found, rfl⟩ := Option.map_eq_some_iff.mp there
    have size := backed.alike id _ member there
    exact ⟨producer, found, size⟩
  · have expected := run.rejects_of_carryOut once may ran
    refine ⟨fun layer id missing => ?_, expected⟩
    subst missing
    rcases expected with ((⟨_, _, same⟩ | ⟨_, _, _, _, _, _, _, same⟩) | ⟨_, _, same⟩) |
      refused | ⟨_, _, same⟩
    · cases same
    · cases same
    · cases same
    · cases refused
    · cases same

/-- A cache has composed an allocation of the producer of a texture. A map whose stack has nine
layers is then refused. -/
theorem layeredFrame_backed : ∃ world content producer,
    Run false [.desktop] (layeredFrame.take 4) world ∧
    world.streaming.allocations.get? (.next .first) = some content ∧
    content.layers = [some .first] ∧
    world.streaming.producers.get? .first = some producer ∧
    producer.tile = content.tile ∧ producer.border = content.border ∧
    world.apply (.setMap .first (some ⟨.next .first, tower 9⟩)) = .error (.stackTooLong 9) ∧
    (Fault.stackTooLong 9).RejectsStack := by
  have built : (Operation.carryOutAll { deferring := false } (layeredFrame.take 4)).map
      (fun world =>
        ((world.streaming.allocations.get? (.next .first)).map StreamingAllocation.layers,
          (world.apply (.setMap .first (some ⟨.next .first, tower 9⟩))).map fun _ => ())) =
      .ok (some [some .first], .error (.stackTooLong 9)) := by
    cbv
  obtain ⟨world, ran, built⟩ := map_eq_ok.mp built
  obtain ⟨layers, fails⟩ := Prod.mk.inj built
  obtain ⟨content, live, layers⟩ := Option.map_eq_some_iff.mp layers
  have failed := map_eq_error.mp fails
  have run : Run false [.desktop] (layeredFrame.take 4) world := Run.start.continued (by decide) ran
  obtain ⟨backed, faults⟩ := run.allocations_backed (by decide)
  obtain ⟨producer, found, size⟩ :=
    (backed _ content live).2 .first (layers ▸ List.mem_singleton.mpr rfl)
  have rejects := (faults (.perform (.setMap .first (some ⟨.next .first, tower 9⟩))) _
    (by decide) failed).2
  refine ⟨world, content, producer, run, live, layers, found, size.1, size.2, failed,
    (rejects.resolve_right ?_).resolve_right ?_⟩
  · rintro (refused | ⟨_, _, same⟩)
    · cases refused
    · cases same
  · rintro ⟨_, _, same⟩
    cases same

end Run

end Shading
