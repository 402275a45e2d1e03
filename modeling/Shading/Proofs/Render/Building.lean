/-
Building a uniform cache. A cache that has just been built serves the map it was
built from: it says so itself, and its buffer has the layout of that map and as
many bytes as the layout asks for.
-/

import Shading.Proofs.Sequence
import Shading.Proofs.Uniform.Sections
import Shading.Render.Cache

namespace Shading.UniformCache

/-- A cache that holds what a resource with a map needs. -/
structure Serves (cache : UniformCache) (resource : ResourceId) (shared : SharedMap) : Prop where
  resource_eq : cache.resource = some resource
  map_eq : cache.map = some shared.id
  buffer_fits : ∃ buffer, cache.buffer = some buffer ∧ shared.map.layout? = some buffer.layout ∧
    buffer.content.length = buffer.layout.size

/-! ### Composing -/

theorem length_blockOf (streaming : Streaming) (allocation : Option AllocationId) :
    (blockOf streaming allocation).length = 8 := by
  cases allocation with
  | none => exact List.length_replicate
  | some allocation => exact streaming.length_block allocation

/-- Composing one more stack adds one more block, of eight words. -/
theorem composeStack_blocks {set : ExpressionSet} {source : ParameterSource}
    {composition next : Composition} {stack : StreamingStack}
    (composed : composeStack set source composition stack = .ok next) :
    ∃ block, next.blocks = composition.blocks ++ [block] ∧ block.length = 8 := by
  unfold composeStack at composed
  split at composed
  · cases composed
    exact ⟨_, rfl, length_blockOf _ _⟩
  · obtain ⟨⟨allocation, streaming⟩, _, rest⟩ := bind_eq_ok.mp composed
    cases rest
    exact ⟨_, rfl, streaming.length_block allocation⟩

theorem composed_words {set : ExpressionSet} {source : ParameterSource}
    {streaming : Streaming} {stacked : List StreamingStack} {composition : Composition}
    (composed : stacked.foldlM (composeStack set source) { streaming } = .ok composition) :
    ∀ block ∈ composition.blocks, block.length = 8 := by
  refine foldlM_kept (motive := fun composition => ∀ block ∈ composition.blocks, block.length = 8)
    (fun stack composition next words composed block member => ?_) stacked _ _ (by simp) composed
  obtain ⟨added, blocks, length⟩ := composeStack_blocks composed
  rw [blocks] at member
  rcases List.mem_append.mp member with before | now
  · exact words block before
  · rw [List.mem_singleton.mp now, length]

/-! ### Rebuilding -/

theorem layout_bufferFor (cache : UniformCache) (layout : BufferLayout) (nextBuffer : BufferId) :
    (cache.bufferFor layout nextBuffer).1.layout = layout := by
  unfold bufferFor
  split
  · rename_i buffer kept
    simpa using Option.filter_eq_some_iff.mp kept |>.2
  · rfl

theorem rebuild_resource {cache : UniformCache} {proxy : ProxyId} {resource : ResourceId}
    {shared : SharedMap} {source : ParameterSource} {streaming : Streaming}
    {nextBuffer : BufferId} {rebuilt : Rebuilt}
    (ran : cache.rebuild proxy resource shared source streaming nextBuffer = .ok rebuilt) :
    rebuilt.cache.resource = some resource := by
  obtain ⟨composition, _, ran⟩ := bind_eq_ok.mp ran
  obtain ⟨content, _, ran⟩ := bind_eq_ok.mp ran
  cases ran
  rfl

/-- The buffer of a rebuilt cache is as long as its layout says, whatever it was before. -/
theorem rebuild_buffer {cache : UniformCache} {proxy : ProxyId} {resource : ResourceId}
    {shared : SharedMap} {source : ParameterSource} {streaming : Streaming}
    {nextBuffer : BufferId} {rebuilt : Rebuilt}
    (ran : cache.rebuild proxy resource shared source streaming nextBuffer = .ok rebuilt) :
    ∃ buffer, rebuilt.cache.buffer = some buffer ∧
      buffer.layout = (shared.map.expressions?.getD .empty).wordLayout ∧
      buffer.content.length = buffer.layout.size := by
  obtain ⟨composition, composed, ran⟩ := bind_eq_ok.mp ran
  obtain ⟨bytes, filled, ran⟩ := bind_eq_ok.mp ran
  obtain ⟨inside, filled⟩ := ExpressionSet.fillInWords_eq_ok.mp filled
  have fits := layout_bufferFor cache (shared.map.expressions?.getD .empty).wordLayout nextBuffer
  have size := ExpressionSet.length_fill _ _ _ (composed_words composed) _ _ filled
  rw [← ExpressionSet.wordLayout_eq _ inside] at size
  cases ran
  exact ⟨_, rfl, fits, size.trans (congrArg BufferLayout.size fits.symm)⟩

/-- What was built from a compiled map serves it. -/
theorem rebuild_serves {cache : UniformCache} {proxy : ProxyId} {resource : ResourceId}
    {shared : SharedMap} {source : ParameterSource} {streaming : Streaming}
    {nextBuffer : BufferId} {rebuilt : Rebuilt} (compiled : shared.map.isCompiled)
    (ran : cache.rebuild proxy resource shared source streaming nextBuffer = .ok rebuilt) :
    rebuilt.cache.Serves resource shared := by
  obtain ⟨content, stored⟩ := Option.isSome_iff_exists.mp compiled
  have expressions : shared.map.expressions? = some content.profile.expressions := by
    simp [ShaderMap.expressions?, stored]
  have layout : shared.map.layout? = some content.profile.expressions.wordLayout := by
    simp [ShaderMap.layout?, stored, MapContent.layout]
  obtain ⟨buffer, has, fits, size⟩ := rebuild_buffer ran
  rw [expressions, Option.getD_some] at fits
  refine ⟨rebuild_resource ran, ?_, buffer, has, layout.trans (congrArg some fits.symm), size⟩
  obtain ⟨composition, _, ran⟩ := bind_eq_ok.mp ran
  obtain ⟨bytes, _, ran⟩ := bind_eq_ok.mp ran
  cases ran
  rfl

end Shading.UniformCache
