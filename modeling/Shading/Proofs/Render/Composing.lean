/-
What rebuilding writes for the streaming stacks. The stacks of a map are composed
one after the other, and each of them adds the producers and the words that it
is described by. Nothing that a stack takes while it is composed changes how the
later ones are described.
-/

import Mathlib.Data.List.Forall2
import Shading.Proofs.Render.Building
import Shading.Proofs.Render.Stacking

namespace Shading.UniformCache

open Streaming

variable {set : ExpressionSet} {source : ParameterSource} {start : Streaming}
  {composition next : Composition} {stack : StreamingStack}

/-- A composition that began with some streaming textures has their producers. -/
structure Follows (start : Streaming) (composition : Composition) : Prop where
  producers : composition.streaming.producers = start.producers
  byTexture : composition.streaming.byTexture = start.byTexture
  equipped : composition.streaming.Equipped

/-- A block with the words of a part. -/
def BlockOf (part : StackPart) (block : ExpressionSet.StackBlock) : Prop :=
  ∃ number, block = number :: part.words

namespace Follows

theorem bare (follows : Follows start composition) : composition.streaming.bare = start.bare := by
  unfold Streaming.bare
  rw [follows.producers]

theorem alike (follows : Follows start composition) (textures : List TextureId) :
    Alike textures start composition.streaming :=
  .of_bare follows.bare follows.byTexture

/-! ### One stack -/

/-- The allocation that is adopted is the one that was made together with the producer. -/
theorem blockOf_adopted (equipped : start.Equipped) (producer : Option ProducerId) :
    BlockOf ⟨[producer].filterMap id, adoptedWords start [producer]⟩
      (blockOf start ((producer.bind start.producers.get?).bind
        StreamingProducer.preallocated)) := by
  have blank (without : ∀ supply, [producer].head?.join.bind start.supply = some supply →
      ¬supply.adoptable) : BlockOf ⟨[producer].filterMap id, adoptedWords start [producer]⟩
        (List.replicate 8 TextureId.null.number) := by
    rw [adoptedWords_eq_blank without]
    exact ⟨TextureId.null.number, rfl⟩
  cases producer with
  | none => exact blank fun _ supplied => by cases supplied
  | some producer =>
    rw [Option.bind_some]
    have head : [some producer].head?.join.bind start.supply =
        (start.producers.get? producer).map StreamingProducer.supply := rfl
    cases found : start.producers.get? producer with
    | none =>
      rw [found, Option.map_none] at head
      exact blank fun _ supplied => by cases head.symm.trans supplied
    | some owner =>
      rw [found, Option.map_some] at head
      have live : start.bare producer = some { owner with subscribers := [] } := by
        unfold Streaming.bare
        rw [found]
        rfl
      rw [Option.bind_some]
      cases made : owner.preallocated with
      | none =>
        refine blank fun _ supplied => ?_
        cases head.symm.trans supplied
        simp [StreamingProducer.supply, made]
      | some allocation =>
        refine ⟨UInt32.ofNat allocation.number,
          (block_eq (equipped.stocked producer _ allocation live made)).trans (congrArg _ ?_)⟩
        rw [adoptedWords_eq_layerWords head (by simp [StreamingProducer.supply, made])]
        rfl

/-- A stack is composed as it is described, and then the composition goes on. -/
theorem composeStack (follows : Follows start composition)
    (ran : composeStack set source composition stack = .ok next) :
    Follows start next ∧ ∃ part block, describeStack set source start stack = .ok part ∧
      BlockOf part block ∧ next.producers = composition.producers ++ part.producers ∧
      next.blocks = composition.blocks ++ [block] := by
  rw [← describeStack_congr (follows.alike (texturesOf set source stack))]
  unfold UniformCache.composeStack at ran
  unfold describeStack layersOf StreamingStack.expressions
  cases made : stack.preallocated with
  | some expression =>
    rw [made] at ran
    cases ran
    refine ⟨⟨follows.producers, follows.byTexture, follows.equipped⟩, _, _, rfl,
      blockOf_adopted follows.equipped _, congrArg (composition.producers ++ ·) ?_, rfl⟩
    show Option.toList _ = [producerOf set source composition.streaming expression].filterMap id
    cases producerOf set source composition.streaming expression <;> rfl
  | none =>
    rw [made] at ran
    obtain ⟨⟨allocation, streaming⟩, allocates, ran⟩ := bind_eq_ok.mp ran
    cases ran
    rw [allocate_eq] at allocates
    dsimp only
    split at allocates
    · cases allocates
    · rename_i short
      obtain ⟨agreed, agrees, inserted⟩ := map_eq_ok.mp allocates
      rw [if_neg short, agrees]
      cases inserted
      refine ⟨⟨follows.producers, follows.byTexture, follows.equipped.insertAllocation _⟩, _, _,
        rfl, ⟨_, block_insertAllocation ..⟩, rfl, rfl⟩

theorem exists_composeStack (follows : Follows start composition) {part : StackPart}
    (described : describeStack set source start stack = .ok part) :
    ∃ next, UniformCache.composeStack set source composition stack = .ok next := by
  rw [← describeStack_congr (follows.alike (texturesOf set source stack))] at described
  unfold describeStack layersOf StreamingStack.expressions at described
  unfold UniformCache.composeStack
  cases made : stack.preallocated with
  | some expression => exact ⟨_, rfl⟩
  | none =>
    rw [made] at described
    dsimp only at described
    unfold compose
    dsimp only
    rw [allocate_eq]
    split at described
    · cases described
    · rename_i short
      obtain ⟨agreed, agrees, _⟩ := map_eq_ok.mp described
      rw [if_neg short, agrees]
      exact ⟨_, rfl⟩

/-! ### All stacks -/

/-- What has been composed is made of the parts of the stacks, in order. -/
theorem composed {sequence : List StreamingStack} (follows : Follows start composition)
    (ran : sequence.foldlM (UniformCache.composeStack set source) composition = .ok next) :
    Follows start next ∧ ∃ parts blocks,
      List.Forall₂ (fun stack part => describeStack set source start stack = .ok part) sequence
        parts ∧
      List.Forall₂ BlockOf parts blocks ∧
      next.producers = composition.producers ++ parts.flatMap StackPart.producers ∧
      next.blocks = composition.blocks ++ blocks := by
  induction sequence generalizing composition with
  | nil =>
    cases ran
    exact ⟨follows, [], [], .nil, .nil, (List.append_nil _).symm, (List.append_nil _).symm⟩
  | cons stack rest inductionHypothesis =>
    obtain ⟨middle, stacked, ran⟩ := bind_eq_ok.mp ran
    obtain ⟨follows, part, block, described, shows, producers, written⟩ :=
      follows.composeStack stacked
    obtain ⟨follows, parts, blocks, rest, show_, later, added⟩ := inductionHypothesis follows ran
    refine ⟨follows, part :: parts, block :: blocks, .cons described rest, .cons shows show_, ?_, ?_⟩
    · rw [later, producers, List.flatMap_cons, List.append_assoc]
    · rw [added, written, List.append_assoc]
      rfl

theorem exists_composed {sequence : List StreamingStack} (follows : Follows start composition)
    (described : ∀ stack ∈ sequence, ∃ part, describeStack set source start stack = .ok part) :
    ∃ next, sequence.foldlM (UniformCache.composeStack set source) composition = .ok next := by
  induction sequence generalizing composition with
  | nil => exact ⟨composition, rfl⟩
  | cons stack rest inductionHypothesis =>
    obtain ⟨part, here⟩ := described stack List.mem_cons_self
    obtain ⟨middle, stacked⟩ := follows.exists_composeStack here
    obtain ⟨next, ran⟩ := inductionHypothesis (follows.composeStack stacked).1
      fun other member => described other (List.mem_cons_of_mem _ member)
    exact ⟨next, bind_eq_ok.mpr ⟨middle, stacked, ran⟩⟩

end Follows

/-! ### Rebuilding -/

/-- A cache holds the parts of the stacks of a map. There is no cache for a map whose buffer is too
large for words. -/
structure HoldsParts (set : ExpressionSet) (cache : UniformCache) (parts : List StackPart) :
    Prop where
  inside : set.layout.size < UInt32.size
  collections : cache.collections = set.collections
  producers : cache.producers = parts.flatMap StackPart.producers
  bytes : ∃ buffer, cache.buffer = some buffer ∧ ∀ index part, parts[index]? = some part →
    set.stackBytes buffer.content index = part.words.flatMap ExpressionSet.wordBytes

section Rebuilding

variable {cache : UniformCache} {proxy : ProxyId} {resource : ResourceId} {shared : SharedMap}
  {streaming : Streaming} {nextBuffer : BufferId} {rebuilt : Rebuilt}

/-- Nothing that a cache owns belongs to a producer. -/
def Apart (allocations : List AllocationId) (streaming : Streaming) : Prop :=
  ∀ allocation ∈ allocations, ∀ id producer, streaming.bare id = some producer →
    producer.preallocated ≠ some allocation

theorem follows_begin (equipped : streaming.Equipped) (apart : Apart cache.allocations streaming) :
    Follows streaming { streaming := freeAll streaming cache.allocations } := by
  refine ⟨?_, ?_, equipped.freeAll apart⟩ <;> dsimp only <;> rw [freeAll_eq]

/-- What was rebuilt holds the parts that its stacks are described by. -/
theorem rebuild_parts (equipped : streaming.Equipped)
    (apart : Apart cache.allocations streaming)
    (ran : cache.rebuild proxy resource shared source streaming nextBuffer = .ok rebuilt) :
    rebuilt.streaming.Equipped ∧ ∃ parts,
      List.Forall₂ (fun stack part => describeStack (shared.map.expressions?.getD .empty) source
        streaming stack = .ok part) (shared.map.expressions?.getD .empty).streamingStacks parts ∧
      HoldsParts (shared.map.expressions?.getD .empty) rebuilt.cache parts := by
  obtain ⟨composition, composed, ran⟩ := bind_eq_ok.mp ran
  obtain ⟨content, filled, ran⟩ := bind_eq_ok.mp ran
  obtain ⟨inside, filled⟩ := ExpressionSet.fillInWords_eq_ok.mp filled
  have words := composed_words composed
  obtain ⟨follows, parts, blocks, described, shows, producers, written⟩ :=
    (follows_begin equipped apart).composed composed
  cases ran
  refine ⟨follows.equipped.retold (.foldl (fun streaming id => .subscribe streaming id proxy) _ _),
    parts, described, inside, rfl, producers, _, rfl, fun index part found => ?_⟩
  rw [List.nil_append] at written
  obtain ⟨within, same⟩ := List.getElem?_eq_some_iff.mp found
  have there : index < blocks.length := shows.length_eq ▸ within
  obtain ⟨number, block⟩ := shows.get within there
  refine ExpressionSet.stackBytes_fill words filled (?_ : _ = some (number :: part.words))
  rw [written, List.getElem?_eq_getElem there]
  exact congrArg some (block.trans (congrArg (number :: ·.words) same))

/-- A cache can be rebuilt if its stacks can be described and its buffer fits into words. -/
theorem exists_rebuild (equipped : streaming.Equipped) (apart : Apart cache.allocations streaming)
    (sized : ∀ buffer, cache.buffer = some buffer → buffer.content.length = buffer.layout.size)
    (described : ∀ stack ∈ (shared.map.expressions?.getD .empty).streamingStacks, ∃ part,
      describeStack (shared.map.expressions?.getD .empty) source streaming stack = .ok part)
    (inside : (shared.map.expressions?.getD .empty).layout.size < UInt32.size) :
    ∃ rebuilt, cache.rebuild proxy resource shared source streaming nextBuffer = .ok rebuilt := by
  have follows := follows_begin equipped apart
  obtain ⟨composition, composed⟩ := follows.exists_composed described
  obtain ⟨_, parts, blocks, described, shows, _, written⟩ := follows.composed composed
  have matched : composition.blocks.length =
      (shared.map.expressions?.getD .empty).streamingStacks.length := by
    rw [written, List.nil_append, ← shows.length_eq, ← described.length_eq]
  have fits : (cache.bufferFor (shared.map.expressions?.getD .empty).wordLayout
      nextBuffer).1.content.length = (shared.map.expressions?.getD .empty).layout.size := by
    rw [ExpressionSet.wordLayout_eq _ inside]
    unfold bufferFor
    split
    · rename_i buffer kept
      obtain ⟨has, same⟩ := Option.filter_eq_some_iff.mp kept
      rw [sized buffer has, of_decide_eq_true same]
    · exact List.length_replicate
  obtain ⟨content, filled⟩ := ExpressionSet.exists_fill _ source fits matched
  exact ⟨_, bind_eq_ok.mpr ⟨composition, composed, bind_eq_ok.mpr
    ⟨content, ExpressionSet.fillInWords_eq_ok.mpr ⟨inside, filled⟩, rfl⟩⟩⟩

end Rebuilding

end Shading.UniformCache
