/-
Uniform caches: the uniform buffer of one proxy for one tier. A cache remembers
which map and resource it was built from and what it took from the streaming
textures, so that it can tell whether it is still good and give back what it
owns. An allocation that was made together with a producer belongs to the
producer and is only borrowed.
-/

import Shading.Render.Command
import Shading.Render.Streaming
import Shading.Uniform.ExpressionSet

namespace Shading

/-- The version tells apart the contents that one buffer has had. -/
structure UniformBuffer where
  id : BufferId
  layout : BufferLayout
  content : List UInt8
  version : Nat
deriving DecidableEq, Inhabited

namespace UniformBuffer

/-- A new buffer holds zeros. -/
def create (id : BufferId) (layout : BufferLayout) : UniformBuffer :=
  ⟨id, layout, List.replicate layout.size 0, 0⟩

end UniformBuffer

structure UniformCache where
  valid : Bool := false
  /-- The map the cache was built from. It may be gone by now. -/
  map : Option MapId := none
  resource : Option ResourceId := none
  buffer : Option UniformBuffer := none
  /-- The allocations the cache owns. -/
  allocations : List AllocationId := []
  /-- The producers of the textures in the buffer, as often as they occur. -/
  producers : List ProducerId := []
  collections : List UInt64 := []
deriving DecidableEq, Inhabited

namespace UniformCache

def isValidFor (cache : UniformCache) (map : SharedMap) : Bool :=
  cache.valid && cache.map = some map.id

/-- Whether the cache is as it was made. -/
def isUnused (cache : UniformCache) : Bool :=
  !cache.valid && cache.resource.isNone && cache.buffer.isNone

/-! ### Invalidating -/

/-- Frees what the cache owns. The resource it was built from stays known, and
the buffer stays for later use unless it is to be recreated. -/
def invalidate (cache : UniformCache) (recreate : Bool) : UniformCache :=
  { cache with
    valid := false
    map := none
    buffer := if recreate then none else cache.buffer
    allocations := []
    producers := [] }

def freeAll (streaming : Streaming) (allocations : List AllocationId) : Streaming :=
  allocations.foldl Streaming.free streaming

/-! ### Composing streaming stacks -/

/-- The stacks composed so far, and what they took. -/
structure Composition where
  streaming : Streaming
  allocations : List AllocationId := []
  producers : List ProducerId := []
  blocks : List ExpressionSet.StackBlock := []

def producerOf (set : ExpressionSet) (source : ParameterSource) (streaming : Streaming)
    (expression : UInt32) : Option ProducerId :=
  set.streamingTextures[expression.toNat]?.bind fun texture =>
    streaming.producerFor (texture.evaluate source)

/-- A stack without an allocation is all ones. -/
def blockOf (streaming : Streaming) : Option AllocationId → ExpressionSet.StackBlock
  | some allocation => streaming.block allocation
  | none => List.replicate 8 TextureId.null.number

/-- Takes the allocation that was made together with the producer. -/
def adopt (set : ExpressionSet) (source : ParameterSource) (composition : Composition)
    (expression : UInt32) : Composition :=
  let streaming := composition.streaming
  let producer := producerOf set source streaming expression
  let allocation := (producer.bind streaming.producers.get?).bind StreamingProducer.preallocated
  { composition with
    producers := composition.producers ++ producer.toList
    blocks := composition.blocks ++ [blockOf streaming allocation] }

/-- Makes an allocation for the layers of a stack. -/
def compose (set : ExpressionSet) (source : ParameterSource) (composition : Composition)
    (layers : List UInt32) : Except Fault Composition := do
  let layers := layers.map (producerOf set source composition.streaming)
  let (allocation, streaming) ← composition.streaming.allocate layers
  .ok {
    streaming
    allocations := composition.allocations ++ [allocation]
    producers := composition.producers ++ layers.filterMap id
    blocks := composition.blocks ++ [streaming.block allocation] }

def composeStack (set : ExpressionSet) (source : ParameterSource) (composition : Composition)
    (stack : StreamingStack) : Except Fault Composition :=
  match stack.preallocated with
  | some expression => .ok (adopt set source composition expression)
  | none => compose set source composition stack.layers

/-! ### Rebuilding -/

/-- A rebuilt cache, and the producers the cache had before and has no more. -/
structure Rebuilt where
  cache : UniformCache
  dropped : List ProducerId
  streaming : Streaming
  nextBuffer : BufferId

/-- The old buffer serves again if it has the layout that is needed. -/
def bufferFor (cache : UniformCache) (layout : BufferLayout) (nextBuffer : BufferId) :
    UniformBuffer × BufferId :=
  match cache.buffer.filter fun buffer => buffer.layout = layout with
  | some buffer => (buffer, nextBuffer)
  | none => (.create nextBuffer layout, nextBuffer.next)

/-- Fills the buffer of a cache anew, and its next version begins. -/
def rebuild (cache : UniformCache) (proxy : ProxyId) (resource : ResourceId) (map : SharedMap)
    (source : ParameterSource) (streaming : Streaming) (nextBuffer : BufferId) :
    Except Fault Rebuilt := do
  let set := map.map.expressions?.getD .empty
  let composition ← set.streamingStacks.foldlM (composeStack set source)
    { streaming := freeAll streaming cache.allocations }
  let streaming := composition.producers.foldl (fun streaming producer =>
    streaming.subscribe producer proxy) composition.streaming
  let (buffer, nextBuffer) := cache.bufferFor set.wordLayout nextBuffer
  let content ← set.fillInWords source composition.blocks buffer.content
  .ok {
    cache := {
      valid := true
      map := some map.id
      resource := some resource
      buffer := some { buffer with content, version := buffer.version + 1 }
      allocations := composition.allocations
      producers := composition.producers
      collections := set.collections }
    dropped := cache.producers.filter (· ∉ composition.producers)
    streaming
    nextBuffer }

end UniformCache

end Shading
