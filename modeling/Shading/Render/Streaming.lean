/-
Streaming textures on the render side. A producer supplies the tiles of one
texture; an allocation composes up to eight layers, each from a producer or
from none, and all producers in it have tiles of one size and border. Proxies
whose caches depend on a producer subscribe to it, so that they can be told
when it goes away.
-/

import Shading.Fault
import Shading.Table

namespace Shading

structure StreamingProducer where
  texture : TextureId
  tile : UInt32
  border : UInt32
  /-- The allocation made together with the producer, if there is one. -/
  preallocated : Option AllocationId := none
  /-- Each subscriber once. -/
  subscribers : List ProxyId := []
deriving DecidableEq, Inhabited

structure StreamingAllocation where
  layers : List (Option ProducerId)
  tile : UInt32
  border : UInt32
deriving DecidableEq, Inhabited

structure Streaming where
  producers : Table ProducerId StreamingProducer := .empty
  byTexture : Table TextureId ProducerId := .empty
  allocations : Table AllocationId StreamingAllocation := .empty
  nextAllocation : AllocationId := .first
deriving Inhabited

namespace Streaming

/-! ### Producers -/

def insertAllocation (streaming : Streaming) (allocation : StreamingAllocation) :
    AllocationId × Streaming :=
  (streaming.nextAllocation, { streaming with
    allocations := streaming.allocations.insert streaming.nextAllocation allocation
    nextAllocation := streaming.nextAllocation.next })

/-- A producer answers for its texture until another one for it is created. -/
def createProducer (streaming : Streaming) (id : ProducerId) (texture : TextureId)
    (tile border : UInt32) (preallocates : Bool) : Streaming :=
  let (preallocated, streaming) : Option AllocationId × Streaming :=
    if preallocates then
      let (allocation, streaming) := streaming.insertAllocation ⟨[some id], tile, border⟩
      (some allocation, streaming)
    else (none, streaming)
  { streaming with
    byTexture := streaming.byTexture.insert texture id
    producers := streaming.producers.insert id { texture, tile, border, preallocated } }

def producerFor (streaming : Streaming) (texture : TextureId) : Option ProducerId :=
  streaming.byTexture.get? texture

def freeOptional (streaming : Streaming) (allocation : Option AllocationId) : Streaming :=
  match allocation with
  | some allocation => { streaming with allocations := streaming.allocations.erase allocation }
  | none => streaming

/-- Removes a producer and tells who had subscribed to it, in order. -/
def destroyProducer (streaming : Streaming) (id : ProducerId) : List ProxyId × Streaming :=
  match streaming.producers.get? id with
  | none => ([], streaming)
  | some producer =>
    let byTexture :=
      if streaming.byTexture.get? producer.texture = some id then
        streaming.byTexture.erase producer.texture
      else streaming.byTexture
    let streaming := { streaming with producers := streaming.producers.erase id, byTexture }
    (Identifier.sort producer.subscribers, streaming.freeOptional producer.preallocated)

/-! ### Subscriptions -/

def subscribe (streaming : Streaming) (id : ProducerId) (proxy : ProxyId) : Streaming :=
  { streaming with
    producers := streaming.producers.modify id fun producer =>
      if proxy ∈ producer.subscribers then producer
      else { producer with subscribers := proxy :: producer.subscribers } }

def withoutSubscriber (producer : StreamingProducer) (proxy : ProxyId) : StreamingProducer :=
  { producer with subscribers := producer.subscribers.filter (· ≠ proxy) }

def unsubscribe (streaming : Streaming) (id : ProducerId) (proxy : ProxyId) : Streaming :=
  { streaming with
    producers := streaming.producers.modify id fun producer => withoutSubscriber producer proxy }

def unsubscribeAll (streaming : Streaming) (proxy : ProxyId) : Streaming :=
  { streaming with
    producers := ⟨streaming.producers.entries.map fun entry =>
      (entry.1, withoutSubscriber entry.2 proxy)⟩ }

/-! ### Allocations -/

def maxLayers : Nat := 8

/-- The position, tile size and border of the first layer with a producer.
Later producers have to agree with it. -/
abbrev Agreed := Option (Nat × UInt32 × UInt32)

/-- Checks layers from position `index` on against what was agreed before. -/
def agree (streaming : Streaming) (index : Nat) (agreed : Agreed) :
    List (Option ProducerId) → Except Fault Agreed
  | [] => .ok agreed
  | none :: rest => streaming.agree (index + 1) agreed rest
  | some id :: rest =>
    match streaming.producers.get? id with
    | none => .error (.unknownProducer index id)
    | some producer =>
      match agreed with
      | none => streaming.agree (index + 1) (some (index, producer.tile, producer.border)) rest
      | some (first, tile, border) =>
        if producer.tile = tile ∧ producer.border = border then
          streaming.agree (index + 1) agreed rest
        else
          .error (.layerMismatch index producer.tile.toNat producer.border.toNat first tile.toNat
            border.toNat)

def allocate (streaming : Streaming) (layers : List (Option ProducerId)) :
    Except Fault (AllocationId × Streaming) :=
  if maxLayers < layers.length then .error (.stackTooLong layers.length)
  else do
    let agreed ← streaming.agree 0 none layers
    let (tile, border) := match agreed with
      | some (_, tile, border) => (tile, border)
      | none => (0, 0)
    .ok (streaming.insertAllocation ⟨layers, tile, border⟩)

def free (streaming : Streaming) (allocation : AllocationId) : Streaming :=
  streaming.freeOptional (some allocation)

def layerTexture (streaming : Streaming) (layer : Option ProducerId) : UInt32 :=
  match layer.bind streaming.producers.get? with
  | some producer => producer.texture.number
  | none => TextureId.null.number

/-- The words that describe an allocation in a uniform buffer: its number, tile
size, border and layer count, and the textures of the first four layers. An
allocation that is gone is all ones. -/
def block (streaming : Streaming) (allocation : AllocationId) : List UInt32 :=
  match streaming.allocations.get? allocation with
  | none => List.replicate 8 TextureId.null.number
  | some found =>
    let shown := (found.layers.take 4).map streaming.layerTexture
    [UInt32.ofNat allocation.number, found.tile, found.border, UInt32.ofNat found.layers.length] ++
      shown ++ List.replicate (4 - shown.length) TextureId.null.number

/-- A block has a fixed number of words. -/
theorem length_block (streaming : Streaming) (allocation : AllocationId) :
    (streaming.block allocation).length = 8 := by
  unfold block
  split
  · exact List.length_replicate
  · simp only [List.length_append, List.length_cons, List.length_nil, List.length_map,
      List.length_take, List.length_replicate]
    omega

end Streaming

end Shading
