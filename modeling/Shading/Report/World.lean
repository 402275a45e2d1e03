/-
Reports of the render world and of its streaming textures. Everything is shown
in the order of its number. A map that a cache was built from is shown only
while somebody keeps it alive.
-/

import Shading.Render.Renderer
import Shading.Render.Streaming
import Shading.Report.Map
import Shading.Report.Value

namespace Shading.Report

/-- The texture of a producer, the size and border of its tiles, and the
allocation made with it. -/
def producer (producer : StreamingProducer) : List Json :=
  [texture producer.texture, word producer.tile, word producer.border,
    option identifier producer.preallocated]

def allocation (allocation : StreamingAllocation) : Json :=
  .array [list (option identifier) allocation.layers, word allocation.tile,
    word allocation.border]

def stats (stats : RenderStats) : Json :=
  naturals [stats.commands, stats.mapSwaps, stats.invalidations, stats.evaluations,
    stats.materialUpdates, stats.recreations]

def binding (binding : Binding) : List Json :=
  [.bool binding.bound, .natural binding.pending, .bool binding.isQuiescent]

/-- The entries of a table in the order of their numbers. -/
def ordered {kind : Numbered} {α : Type} (table : Table (Identifier kind) α) :
    List (Identifier kind × α) :=
  (Identifier.sort table.keys).filterMap fun id => (table.get? id).map fun entry => (id, entry)

def renderMaterial (world : World) (entry : ResourceId × RenderMaterial) : Labelled Json :=
  return .array ([identifier entry.1, .text entry.2.info.name, ← label? entry.2.map] ++
    binding (world.bindingOf entry.1))

def uniformBuffer (found : UniformBuffer) : Json :=
  .array [identifier found.id, .natural found.version, layout found.layout,
    buffer found.layout found.content]

def cache (world : World) (held : List MapId) (cache : UniformCache) : Labelled Json := do
  if cache.isUnused then return .null
  let alive ← match cache.map with
    | some map => if map ∈ held then label map else pure .null
    | none => pure .null
  let current := match cache.resource.bind world.mapOf with
    | some map => cache.isValidFor map
    | none => false
  let shownAllocation (id : AllocationId) : Json :=
    .array [identifier id, option allocation (world.streaming.allocations.get? id)]
  return .record [
    ("valid", .bool cache.valid),
    ("map", alive),
    ("current", .bool current),
    ("resource", option identifier cache.resource),
    ("allocs", list shownAllocation cache.allocations),
    ("producers", list identifier cache.producers),
    ("collections", naturals (cache.collections.map UInt64.toNat)),
    ("buffer", option uniformBuffer cache.buffer)]

def proxy (world : World) (held : List MapId) (entry : ProxyId × RenderProxy) : Labelled Json :=
  return .record [
    ("id", identifier entry.1),
    ("parent", option identifier entry.2.kind.parent?),
    ("plain", .bool entry.2.overrides.isEmpty),
    ("deferred", .bool (entry.1 ∈ world.deferred)),
    ("caches", ← listM (cache world held) entry.2.caches.toList)]

def world (world : World) (held : List MapId) : Labelled Json :=
  return .record [
    ("stats", stats world.stats),
    ("default", option identifier world.defaultProxy),
    ("allocs", .natural world.streaming.allocations.size),
    ("materials", ← listM (renderMaterial world) (ordered world.materials)),
    ("proxies", ← listM (proxy world held) (ordered world.proxies)),
    ("producers", list (fun entry => .array (identifier entry.1 :: producer entry.2 ++
      [.natural entry.2.subscribers.length])) (ordered world.streaming.producers))]

/-- What a proxy is drawn with, and whether another one steps in for it. -/
def drawable (requested : ProxyId) : Option World.Drawable → Labelled Json
  | none => pure .null
  | some drawable => return .array [identifier drawable.resource, ← label drawable.map.id,
      identifier drawable.parameters, .bool (drawable.isFallback requested)]

end Shading.Report
