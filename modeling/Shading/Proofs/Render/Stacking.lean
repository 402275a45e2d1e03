/-
What a streaming stack is composed of. Composing reads which producers answer
for the textures of the layers and what these supply, and besides that it only
takes numbers for new allocations. So the words of a block, but for the first,
can be told beforehand, and rebuilding a cache writes just these words.

An adopted stack is described by the allocation that was made together with its
producer. That this allocation is as it was made has to be known of the streaming
textures.
-/

import Shading.Proofs.Render.Streams
import Shading.Proofs.Uniform.Sections

namespace Shading

/-- What a producer supplies, whoever is told of it. -/
structure Supply where
  texture : TextureId
  tile : UInt32
  border : UInt32
  /-- Whether an allocation was made together with the producer. -/
  adoptable : Bool
deriving DecidableEq

namespace StreamingProducer

def supply (producer : StreamingProducer) : Supply :=
  ⟨producer.texture, producer.tile, producer.border, producer.preallocated.isSome⟩

end StreamingProducer

namespace Streaming

variable {streaming next : Streaming} {id : ProducerId} {layers : List (Option ProducerId)}

def supply (streaming : Streaming) (id : ProducerId) : Option Supply :=
  (streaming.producers.get? id).map StreamingProducer.supply

theorem supply_eq_bare : streaming.supply id = (streaming.bare id).map StreamingProducer.supply := by
  unfold supply bare
  rw [Option.map_map]
  rfl

/-! ### Layers -/

/-- Layers agree or not by what their producers supply. -/
theorem agree_congr (same : ∀ id, some id ∈ layers → next.supply id = streaming.supply id)
    (index : Nat) (agreed : Agreed) :
    next.agree index agreed layers = streaming.agree index agreed layers := by
  induction layers generalizing index agreed with
  | nil => rfl
  | cons layer rest inductionHypothesis =>
    have later := inductionHypothesis fun id member => same id (List.mem_cons_of_mem _ member)
    cases layer with
    | none => exact later ..
    | some id =>
      have here := same id List.mem_cons_self
      unfold supply at here
      unfold agree
      cases found : streaming.producers.get? id with
      | none =>
        rw [found] at here
        rw [Option.map_eq_none_iff.mp here]
      | some producer =>
        rw [found] at here
        obtain ⟨other, found', alike⟩ := Option.map_eq_some_iff.mp here
        have tile : other.tile = producer.tile := congrArg Supply.tile alike
        have border : other.border = producer.border := congrArg Supply.border alike
        rw [found']
        dsimp only
        rw [tile, border]
        simp only [later]

theorem layerTexture_eq_supply (layer : Option ProducerId) : streaming.layerTexture layer =
    ((layer.bind streaming.supply).map fun supply => supply.texture.number).getD
      TextureId.null.number := by
  unfold layerTexture supply
  cases layer with
  | none => rfl
  | some id =>
    rw [Option.bind_some, Option.bind_some]
    cases streaming.producers.get? id <;> rfl

theorem layerTexture_congr {layer : Option ProducerId}
    (same : ∀ id, layer = some id → next.supply id = streaming.supply id) :
    next.layerTexture layer = streaming.layerTexture layer := by
  rw [layerTexture_eq_supply, layerTexture_eq_supply]
  cases layer with
  | none => rfl
  | some id => rw [Option.bind_some, Option.bind_some, same id rfl]

/-- The words that describe layers of a tile size and border: those of an allocation after its
number. -/
def layerWords (streaming : Streaming) (tile border : UInt32) (layers : List (Option ProducerId)) :
    List UInt32 :=
  let shown := (layers.take 4).map streaming.layerTexture
  [tile, border, UInt32.ofNat layers.length] ++ shown ++
    List.replicate (4 - shown.length) TextureId.null.number

theorem layerWords_congr (same : ∀ id, some id ∈ layers → next.supply id = streaming.supply id)
    (tile border : UInt32) :
    next.layerWords tile border layers = streaming.layerWords tile border layers := by
  have shown : (layers.take 4).map next.layerTexture = (layers.take 4).map streaming.layerTexture :=
    List.map_congr_left fun layer member => layerTexture_congr fun id here =>
      same id (here ▸ List.mem_of_mem_take member)
  unfold layerWords
  rw [shown]

/-- The words of a stack without an allocation. -/
def blankWords : List UInt32 := List.replicate 7 TextureId.null.number

theorem block_eq {allocation : AllocationId} {found : StreamingAllocation}
    (there : streaming.allocations.get? allocation = some found) :
    streaming.block allocation = UInt32.ofNat allocation.number ::
      streaming.layerWords found.tile found.border found.layers := by
  unfold block
  rw [there]
  rfl

theorem block_insertAllocation (streaming : Streaming) (content : StreamingAllocation) :
    (streaming.insertAllocation content).2.block streaming.nextAllocation =
      UInt32.ofNat streaming.nextAllocation.number ::
        streaming.layerWords content.tile content.border content.layers :=
  block_eq ((Table.get?_insert ..).trans (if_pos rfl))

/-- The tile size and border that layers have agreed on. -/
def agreedSize : Agreed → UInt32 × UInt32
  | some (_, tile, border) => (tile, border)
  | none => (0, 0)

theorem allocate_eq : streaming.allocate layers =
    if maxLayers < layers.length then .error (.stackTooLong layers.length)
    else (streaming.agree 0 none layers).map fun agreed =>
      streaming.insertAllocation ⟨layers, (agreedSize agreed).1, (agreedSize agreed).2⟩ := by
  unfold allocate
  split
  · rfl
  · cases streaming.agree 0 none layers with
    | error fault => rfl
    | ok agreed => cases agreed <;> rfl

/-! ### Equipment -/

/-- The allocations that were made together with producers are there, as they were made, and
their numbers are not given again. -/
structure Equipped (streaming : Streaming) : Prop where
  stocked : ∀ id producer allocation, streaming.bare id = some producer →
    producer.preallocated = some allocation →
    streaming.allocations.get? allocation = some ⟨[some id], producer.tile, producer.border⟩
  numbered : ∀ id producer allocation, streaming.bare id = some producer →
    producer.preallocated = some allocation →
    allocation.number < streaming.nextAllocation.number

namespace Equipped

theorem retold (equipped : streaming.Equipped) (retold : Retold streaming next) :
    next.Equipped := by
  refine ⟨fun id producer allocation => ?_, fun id producer allocation => ?_⟩
  · rw [retold.bare, retold.allocations]
    exact equipped.stocked id producer allocation
  · rw [retold.bare, retold.nextAllocation]
    exact equipped.numbered id producer allocation

theorem insertAllocation (equipped : streaming.Equipped) (content : StreamingAllocation) :
    (streaming.insertAllocation content).2.Equipped := by
  refine ⟨fun id producer allocation found made => ?_, fun id producer allocation found made =>
    Nat.lt_succ_of_lt (equipped.numbered id producer allocation found made)⟩
  have older := equipped.numbered id producer allocation found made
  unfold Streaming.insertAllocation
  dsimp only
  rw [Table.get?_insert, if_neg fun same => Nat.lt_irrefl _ (same ▸ older)]
  exact equipped.stocked id producer allocation found made

/-- Caches free nothing that belongs to a producer. -/
theorem freeAll (equipped : streaming.Equipped) {allocations : List AllocationId}
    (apart : ∀ allocation ∈ allocations, ∀ id producer, streaming.bare id = some producer →
      producer.preallocated ≠ some allocation) :
    (UniformCache.freeAll streaming allocations).Equipped := by
  have kept (allocation : AllocationId) (outside : allocation ∉ allocations)
      (table : Table AllocationId StreamingAllocation) :
      (allocations.foldl Table.erase table).get? allocation = table.get? allocation := by
    induction allocations generalizing table with
    | nil => rfl
    | cons first rest inductionHypothesis =>
      rw [List.mem_cons, not_or] at outside
      rw [List.foldl_cons, inductionHypothesis (fun other member =>
        apart other (List.mem_cons_of_mem _ member)) outside.2, Table.get?_erase, if_neg outside.1]
  rw [freeAll_eq]
  refine ⟨fun id producer allocation found made => ?_, equipped.numbered⟩
  refine (kept allocation ?_ _).trans (equipped.stocked id producer allocation found made)
  exact fun member => apart allocation member id producer found made

theorem createProducer (equipped : streaming.Equipped) (id : ProducerId) (texture : TextureId)
    (tile border : UInt32) (preallocates : Bool) :
    (streaming.createProducer id texture tile border preallocates).Equipped := by
  have allocations : (streaming.createProducer id texture tile border true).allocations =
      streaming.allocations.insert streaming.nextAllocation ⟨[some id], tile, border⟩ := rfl
  have nextNumber : streaming.nextAllocation.number ≤
      (streaming.createProducer id texture tile border preallocates).nextAllocation.number := by
    rw [createProducer_nextAllocation]
    split
    · exact Nat.le_succ _
    · exact Nat.le_refl _
  refine ⟨fun other producer allocation found made => ?_,
    fun other producer allocation found made => ?_⟩ <;> rw [bare_createProducer] at found <;>
    split at found
  · rename_i here
    cases found
    cases preallocates with
    | false => cases made
    | true =>
      cases made
      rw [here, allocations, Table.get?_insert, if_pos rfl]
  · have before := equipped.stocked other producer allocation found made
    have older := equipped.numbered other producer allocation found made
    cases preallocates with
    | false => exact before
    | true =>
      rw [allocations, Table.get?_insert, if_neg fun same => Nat.lt_irrefl _ (same ▸ older)]
      exact before
  · cases found
    cases preallocates with
    | false => cases made
    | true =>
      cases made
      exact Nat.lt_succ_self _
  · exact Nat.lt_of_lt_of_le (equipped.numbered other producer allocation found made) nextNumber

/-- A producer takes only its own allocation with it. -/
theorem destroyProducer (equipped : streaming.Equipped)
    (apart : ∀ allocation other owner its, streaming.bare id = some owner →
      streaming.bare other = some its → owner.preallocated = some allocation →
      its.preallocated = some allocation → other = id) :
    (streaming.destroyProducer id).2.Equipped := by
  cases found : streaming.producers.get? id with
  | none =>
    rw [destroyProducer_absent found]
    exact equipped
  | some owner =>
    have live : streaming.bare id = some { owner with subscribers := [] } := by
      unfold bare
      rw [found]
      rfl
    refine ⟨fun other producer allocation there made => ?_,
      fun other producer allocation there made => ?_⟩ <;> rw [bare_destroyProducer] at there <;>
      split at there
    · cases there
    · rename_i different
      rw [destroyProducer_eq found, freeAll_eq]
      have kept := equipped.stocked other producer allocation there made
      cases owned : owner.preallocated with
      | none => exact kept
      | some gone =>
        dsimp only [Option.toList, List.foldl_cons, List.foldl_nil]
        rw [Table.get?_erase, if_neg]
        · exact kept
        · rintro rfl
          exact different (apart _ other _ producer live there owned made)
    · cases there
    · rw [destroyProducer_nextAllocation]
      exact equipped.numbered other producer allocation there made

end Equipped

end Streaming

/-! ### What a stack reads -/

/-- The texture expressions that a stack reads. -/
def StreamingStack.expressions (stack : StreamingStack) : List UInt32 :=
  match stack.preallocated with
  | some expression => [expression]
  | none => stack.layers

namespace UniformCache

variable {set : ExpressionSet} {source : ParameterSource} {streaming next : Streaming}
  {stack : StreamingStack}

/-- The texture that an expression evaluates to. -/
def textureOf (set : ExpressionSet) (source : ParameterSource) (expression : UInt32) :
    Option TextureId :=
  set.streamingTextures[expression.toNat]?.map fun texture => texture.evaluate source

/-- The textures that the layers of a stack evaluate to. -/
def texturesOf (set : ExpressionSet) (source : ParameterSource) (stack : StreamingStack) :
    List TextureId :=
  stack.expressions.filterMap (textureOf set source)

/-- The producers that answer for the layers of a stack. -/
def layersOf (set : ExpressionSet) (source : ParameterSource) (streaming : Streaming)
    (stack : StreamingStack) : List (Option ProducerId) :=
  stack.expressions.map (producerOf set source streaming)

theorem producerOf_eq (expression : UInt32) : producerOf set source streaming expression =
    (textureOf set source expression).bind streaming.producerFor :=
  (Option.bind_map ..).symm

/-- What a stack puts into a cache: the producers that it reads, and the words of its block but
for the first, which numbers an allocation. -/
structure StackPart where
  producers : List ProducerId
  words : List UInt32
deriving DecidableEq

/-- The words of an adopted stack are those of the one layer that its producer supplies, if an
allocation was made together with that. -/
def adoptedWords (streaming : Streaming) (layers : List (Option ProducerId)) : List UInt32 :=
  match (layers.head?.join.bind streaming.supply).filter Supply.adoptable with
  | some supply => streaming.layerWords supply.tile supply.border layers
  | none => Streaming.blankWords

theorem adoptedWords_eq_blank {layers : List (Option ProducerId)}
    (without : ∀ supply, layers.head?.join.bind streaming.supply = some supply →
      ¬supply.adoptable) : adoptedWords streaming layers = Streaming.blankWords := by
  unfold adoptedWords
  rw [Option.filter_eq_none_iff.mpr without]

theorem adoptedWords_eq_layerWords {layers : List (Option ProducerId)} {supply : Supply}
    (head : layers.head?.join.bind streaming.supply = some supply) (adopts : supply.adoptable) :
    adoptedWords streaming layers = streaming.layerWords supply.tile supply.border layers := by
  unfold adoptedWords
  rw [Option.filter_eq_some_iff.mpr ⟨head, adopts⟩]

/-- What a stack puts into a cache that is rebuilt now. -/
def describeStack (set : ExpressionSet) (source : ParameterSource) (streaming : Streaming)
    (stack : StreamingStack) : Except Fault StackPart :=
  let layers := layersOf set source streaming stack
  match stack.preallocated with
  | some _ => .ok ⟨layers.filterMap id, adoptedWords streaming layers⟩
  | none =>
    if Streaming.maxLayers < layers.length then .error (.stackTooLong layers.length)
    else (streaming.agree 0 none layers).map fun agreed =>
      ⟨layers.filterMap id, streaming.layerWords (Streaming.agreedSize agreed).1
        (Streaming.agreedSize agreed).2 layers⟩

/-- The same producers answer for textures, and they supply the same. -/
structure Alike (textures : List TextureId) (streaming next : Streaming) : Prop where
  offered : ∀ texture ∈ textures, next.producerFor texture = streaming.producerFor texture
  supplied : ∀ texture ∈ textures, ∀ id, streaming.producerFor texture = some id →
    next.supply id = streaming.supply id

theorem Alike.of_bare {textures : List TextureId} (bare : next.bare = streaming.bare)
    (byTexture : next.byTexture = streaming.byTexture) : Alike textures streaming next := by
  refine ⟨fun texture _ => ?_, fun texture _ id _ => ?_⟩
  · unfold Streaming.producerFor
    rw [byTexture]
  · rw [Streaming.supply_eq_bare, Streaming.supply_eq_bare, bare]

theorem mem_texturesOf {expression : UInt32} {texture : TextureId}
    (member : expression ∈ stack.expressions)
    (evaluated : textureOf set source expression = some texture) :
    texture ∈ texturesOf set source stack :=
  List.mem_filterMap.mpr ⟨expression, member, evaluated⟩

theorem layersOf_congr (alike : Alike (texturesOf set source stack) streaming next) :
    layersOf set source next stack = layersOf set source streaming stack := by
  refine List.map_congr_left fun expression member => ?_
  rw [producerOf_eq, producerOf_eq]
  exact Option.bind_congr fun texture evaluated =>
    alike.offered texture (mem_texturesOf member evaluated)

theorem exists_texture {id : ProducerId}
    (member : some id ∈ layersOf set source streaming stack) :
    ∃ texture ∈ texturesOf set source stack, streaming.producerFor texture = some id := by
  obtain ⟨expression, inside, answers⟩ := List.mem_map.mp member
  rw [producerOf_eq] at answers
  obtain ⟨texture, evaluated, answers⟩ := Option.bind_eq_some_iff.mp answers
  exact ⟨texture, mem_texturesOf inside evaluated, answers⟩

/-- A stack is described by what answers for its textures and by nothing else. -/
theorem describeStack_congr (alike : Alike (texturesOf set source stack) streaming next) :
    describeStack set source next stack = describeStack set source streaming stack := by
  have layers := layersOf_congr alike
  have supplied (id : ProducerId) (member : some id ∈ layersOf set source streaming stack) :
      next.supply id = streaming.supply id := by
    obtain ⟨texture, inside, answers⟩ := exists_texture member
    exact alike.supplied texture inside id answers
  have words (tile border : UInt32) := Streaming.layerWords_congr supplied tile border
  have adopted : adoptedWords next (layersOf set source streaming stack) =
      adoptedWords streaming (layersOf set source streaming stack) := by
    have head : (layersOf set source streaming stack).head?.join.bind next.supply =
        (layersOf set source streaming stack).head?.join.bind streaming.supply := by
      refine Option.bind_congr fun id first => supplied id ?_
      exact List.mem_of_mem_head? (Option.join_eq_some_iff.mp first)
    unfold adoptedWords
    rw [head]
    simp only [words]
  unfold describeStack
  dsimp only
  rw [layers, adopted, Streaming.agree_congr supplied]
  simp only [words]

/-- The producers of a part are those that answer for the textures of its stack. -/
theorem mem_producers_of_describeStack {part : StackPart} {texture : TextureId}
    {producer : ProducerId} (described : describeStack set source streaming stack = .ok part)
    (member : texture ∈ texturesOf set source stack)
    (answers : streaming.producerFor texture = some producer) : producer ∈ part.producers := by
  have inside : producer ∈ (layersOf set source streaming stack).filterMap id := by
    obtain ⟨expression, inside, evaluated⟩ := List.mem_filterMap.mp member
    refine List.mem_filterMap.mpr ⟨some producer, List.mem_map.mpr ⟨expression, inside, ?_⟩, rfl⟩
    rw [producerOf_eq, evaluated]
    exact answers
  unfold describeStack at described
  dsimp only at described
  split at described
  · cases described
    exact inside
  · split at described
    · cases described
    · obtain ⟨agreed, _, rfl⟩ := map_eq_ok.mp described
      exact inside

end UniformCache

end Shading
