/-
How the uniform caches of the render world are kept fresh. A change makes the
caches it concerns invalid. They are rebuilt at once, or else the proxies are
put on a list and looked at when the frame ends; a cache that is asked for
before that is rebuilt then.
-/

import Shading.Render.World

namespace Shading.World

def count (world : World) (change : RenderStats → RenderStats) : World :=
  { world with stats := change world.stats }

/-! ### Evaluating -/

/-- Unsubscribes a proxy from the producers that none of its caches has any more. -/
def releaseSubscriptions (streaming : Streaming) (caches : PerTier UniformCache) (proxy : ProxyId)
    (dropped : List ProducerId) : Streaming :=
  dropped.foldl (fun streaming producer =>
    if caches.toList.any fun cache => producer ∈ cache.producers then streaming
    else streaming.unsubscribe producer proxy) streaming

/-- Notes that a cache is now built from another resource than before. -/
def recordBuild (world : World) (previous : Option ResourceId) (resource : ResourceId)
    (proxy : ProxyId) (tier : Tier) : World :=
  if previous = some resource then world
  else
    let builtFrom := match previous with
      | some previous => Index.remove world.builtFrom previous (proxy, tier)
      | none => world.builtFrom
    { world with builtFrom := Index.push builtFrom resource (proxy, tier) }

/-- Puts a rebuilt cache in the place of the one its proxy had. -/
def install (world : World) (proxy : ProxyId) (tier : Tier) (owner : RenderProxy)
    (resource : ResourceId) (rebuilt : UniformCache.Rebuilt) : World :=
  let caches := owner.caches.set tier rebuilt.cache
  let previous := (owner.caches.get tier).resource
  let world := { world with
    proxies := world.proxies.insert proxy { owner with caches }
    streaming := releaseSubscriptions rebuilt.streaming caches proxy rebuilt.dropped
    nextBuffer := rebuilt.nextBuffer }
  (world.recordBuild previous resource proxy tier).count fun stats =>
    { stats with evaluations := stats.evaluations + 1 }

/-- Rebuilds a cache, if its proxy has a map of its own. -/
def evaluate (world : World) (proxy : ProxyId) (tier : Tier) : Except Fault (Bool × World) :=
  match world.ownDrawable proxy tier, world.proxies.get? proxy with
  | some drawable, some owner => do
    let rebuilt ← (owner.caches.get tier).rebuild proxy drawable.resource drawable.map
      (world.proxies.parameters proxy) world.streaming world.nextBuffer
    .ok (true, world.install proxy tier owner drawable.resource rebuilt)
  | _, _ => .ok (false, world)

/-- Rebuilds a cache unless it is good for the map its proxy has now. -/
def updateIfNeeded (world : World) (proxy : ProxyId) (tier : Tier) : Except Fault World :=
  match world.ownDrawable proxy tier, world.proxies.get? proxy with
  | some drawable, some owner =>
    if (owner.caches.get tier).isValidFor drawable.map then .ok world
    else (world.evaluate proxy tier).map Prod.snd
  | _, _ => .ok world

def updateActive (world : World) (proxy : ProxyId) : Except Fault World :=
  world.activeTiers.foldlM (fun world tier => world.updateIfNeeded proxy tier) world

/-- Looks at all deferred proxies, in order, and tells how many there were. -/
def updateDeferred (world : World) : Except Fault (Nat × World) := do
  let pending := Identifier.sort world.deferred
  let world ← pending.foldlM updateActive { world with deferred := [] }
  .ok (pending.length, world)

/-! ### Invalidating -/

def markStale (world : World) (proxy : ProxyId) : Except Fault World :=
  if world.deferring then
    .ok (if proxy ∈ world.deferred then world
      else { world with deferred := world.deferred ++ [proxy] })
  else world.updateActive proxy

def countInvalidation (world : World) : World :=
  world.count fun stats => { stats with invalidations := stats.invalidations + 1 }

def freeCaches (streaming : Streaming) (caches : PerTier UniformCache) : Streaming :=
  caches.toList.foldl (fun streaming cache =>
    UniformCache.freeAll streaming cache.allocations) streaming

/-- Empties the caches of a proxy for all tiers. -/
def dropCaches (world : World) (recreate : Bool) (proxy : ProxyId) (owner : RenderProxy) : World :=
  let caches := owner.caches.map fun cache => cache.invalidate recreate
  { world with
    proxies := world.proxies.insert proxy { owner with caches }
    streaming := (freeCaches world.streaming owner.caches).unsubscribeAll proxy }.countInvalidation

/-- Empties the cache of a proxy for one tier. -/
def dropCache (world : World) (recreate : Bool) (proxy : ProxyId) (owner : RenderProxy)
    (tier : Tier) : World :=
  let cache := owner.caches.get tier
  let caches := owner.caches.set tier (cache.invalidate recreate)
  let streaming := UniformCache.freeAll world.streaming cache.allocations
  { world with
    proxies := world.proxies.insert proxy { owner with caches }
    streaming := releaseSubscriptions streaming caches proxy cache.producers }.countInvalidation

/-- Invalidates the caches of a proxy for all tiers. -/
def invalidate (world : World) (recreate : Bool) (proxy : ProxyId) : Except Fault World :=
  match world.proxies.get? proxy with
  | none => .ok world
  | some owner => (world.dropCaches recreate proxy owner).markStale proxy

/-- Invalidates the cache of a proxy for one tier. -/
def invalidateTier (world : World) (recreate : Bool) (proxy : ProxyId) (tier : Tier) :
    Except Fault World :=
  match world.proxies.get? proxy with
  | none => .ok world
  | some owner => (world.dropCache recreate proxy owner tier).markStale proxy

def invalidateFamily (world : World) (proxy : ProxyId) : Except Fault World :=
  (world.family proxy).foldlM (invalidate · false) world

def invalidateDependents (world : World) (resource : ResourceId) (tier : Tier) (recreate : Bool) :
    Except Fault World :=
  (world.dependents resource tier).foldlM (fun world (proxy, tier) =>
    world.invalidateTier recreate proxy tier) world

/-! ### Drawing -/

/-- What a proxy is drawn with now, its buffer brought up to date. -/
def prepareDraw (world : World) (proxy : ProxyId) (tier : Tier) :
    Except Fault (Option Drawable × World) := do
  match ← world.drawable proxy tier with
  | none => .ok (none, world)
  | some drawable => do
    let world ← world.updateIfNeeded drawable.parameters tier
    .ok (some drawable, world)

end Shading.World
