/-
How the render world carries out commands.
-/

import Shading.Render.Freshness

namespace Shading.World

/-! ### Resources -/

/-- A resource that is registered again starts without a map. -/
def registerMaterial (world : World) (resource : ResourceId) (info : MaterialInfo) : World :=
  let world := world.setBound resource false
  { world with materials := world.materials.insert resource { info } }

/-- Puts a map in the place of the one a resource has. -/
def placeMap (world : World) (resource : ResourceId) (material : RenderMaterial)
    (map : Option SharedMap) : World :=
  let world := { world with
    materials := world.materials.insert resource { material with map } }
  let world := (world.setBound resource map.isSome).onBinding resource Binding.acknowledge
  world.count fun stats => { stats with mapSwaps := stats.mapSwaps + 1 }

/-- Exchanges the map of a resource. The caches that depended on the old one
keep their buffers if the new map has the same layout. -/
def exchangeMap (world : World) (resource : ResourceId) (material : RenderMaterial)
    (map : Option SharedMap) : Except Fault World :=
  let layout (map : Option SharedMap) : Option BufferLayout :=
    map.bind fun shared => shared.map.layout?
  (world.placeMap resource material map).invalidateDependents resource material.info.tier
    (layout material.map ≠ layout map)

/-- The map of a resource that is not registered is passed over, and an
incomplete map is refused. -/
def setMap (world : World) (resource : ResourceId) (map : Option SharedMap) :
    Except Fault World :=
  match world.materials.get? resource, map with
  | none, _ => .ok world
  | some material, none => world.exchangeMap resource material none
  | some material, some shared =>
    if shared.map.isCompiled then world.exchangeMap resource material map
    else .error (.incompleteMap material.info.name shared.map.identity.text)

/-- Takes a resource out of the world. -/
def withdraw (world : World) (resource : ResourceId) : World :=
  { world with materials := world.materials.erase resource }.setBound resource false

def releaseMaterial (world : World) (resource : ResourceId) : Except Fault World :=
  match world.materials.get? resource with
  | none => .ok world
  | some material => do
    let world ←
      (world.withdraw resource).invalidateDependents resource material.info.tier true
    .ok { world with builtFrom := world.builtFrom.erase resource }

/-! ### Proxies -/

/-- Puts a proxy in the world and its indices. -/
def attach (world : World) (proxy : ProxyId) (kind : ProxyKind) : World :=
  let world := match kind.parent? with
    | some parent => { world with children := Index.push world.children parent proxy }
    | none => world
  let world := match kind.materials? with
    | some materials => world.indexMaterials proxy materials
    | none => world
  { world with proxies := world.proxies.insert proxy { kind } }

def createProxy (world : World) (proxy : ProxyId) (kind : ProxyKind) : Except Fault World :=
  (world.attach proxy kind).markStale proxy

/-- Gives a proxy other materials of its own. -/
def reassign (world : World) (proxy : ProxyId) (owner : RenderProxy)
    (previous materials : Materials) : World :=
  let kind := owner.kind.withMaterials materials
  let world := { world with proxies := world.proxies.insert proxy { owner with kind } }
  (world.unindexMaterials proxy previous).indexMaterials proxy materials

def setMaterials (world : World) (proxy : ProxyId) (materials : Materials) :
    Except Fault World :=
  match world.proxies.get? proxy with
  | none => .ok world
  | some owner =>
    match owner.kind.materials? with
    | none => .ok world
    | some previous =>
      (world.reassign proxy owner previous materials).invalidateFamily proxy

def override (world : World) (proxy : ProxyId) (owner : RenderProxy) (name : String)
    (value : Option ParameterValue) : World :=
  let overrides := owner.overrides.set name value
  { world with proxies := world.proxies.insert proxy { owner with overrides } }

/-- Sets or clears a parameter. -/
def setParameter (world : World) (proxy : ProxyId) (name : String)
    (value : Option ParameterValue) : Except Fault World :=
  match world.proxies.get? proxy with
  | none => .ok world
  | some owner => (world.override proxy owner name value).invalidateFamily proxy

def forgetBuilds (builtFrom : Index ResourceId (ProxyId × Tier)) (proxy : ProxyId)
    (caches : PerTier UniformCache) : Index ResourceId (ProxyId × Tier) :=
  caches.entries.foldl (fun builtFrom (tier, cache) =>
    match cache.resource with
    | some resource => Index.remove builtFrom resource (proxy, tier)
    | none => builtFrom) builtFrom

/-- Takes a proxy out of the world and its indices. -/
def detach (world : World) (proxy : ProxyId) (owner : RenderProxy) : World :=
  let world := { world with
    proxies := world.proxies.erase proxy
    builtFrom := forgetBuilds world.builtFrom proxy owner.caches
    streaming := freeCaches world.streaming owner.caches
    children := match owner.kind.parent? with
      | some parent => Index.remove world.children parent proxy
      | none => world.children }
  match owner.kind.materials? with
  | some materials => world.unindexMaterials proxy materials
  | none => world

/-- What is left of a world without a proxy, its descendants not yet told. -/
def without (world : World) (proxy : ProxyId) : World :=
  let left := match world.proxies.get? proxy with
    | some owner => world.detach proxy owner
    | none => world
  { left with
    deferred := left.deferred.filter (· ≠ proxy)
    streaming := left.streaming.unsubscribeAll proxy
    defaultProxy := if left.defaultProxy = some proxy then none else left.defaultProxy }

/-- Removes a proxy. Its descendants lose what they had from it. -/
def removeProxy (world : World) (proxy : ProxyId) : Except Fault World :=
  let world := world.without proxy
  let orphans := Index.entriesOf world.children proxy
  orphans.foldlM invalidateFamily { world with children := world.children.erase proxy }

/-! ### Streaming producers -/

def createProducer (world : World) (producer : ProducerId) (texture : TextureId)
    (tile border : UInt32) (preallocates : Bool) : World :=
  { world with
    streaming := world.streaming.createProducer producer texture tile border preallocates }

def destroyProducer (world : World) (producer : ProducerId) : Except Fault World :=
  let (subscribers, streaming) := world.streaming.destroyProducer producer
  subscribers.foldlM (invalidate · false) { world with streaming }

/-! ### All commands -/

def materialsUpdated (world : World) (recreate : Bool) : World :=
  world.count fun stats =>
    { stats with
      materialUpdates := stats.materialUpdates + 1
      recreations := stats.recreations + recreate.toNat }

def carryOut (world : World) : RenderCommand → Except Fault World
  | .registerMaterial resource info => .ok (world.registerMaterial resource info)
  | .setMap resource map => world.setMap resource map
  | .releaseMaterial resource => world.releaseMaterial resource
  | .createProxy proxy kind => world.createProxy proxy kind
  | .setMaterials proxy materials => world.setMaterials proxy materials
  | .setParameter proxy name value => world.setParameter proxy name (some value)
  | .clearParameter proxy name => world.setParameter proxy name none
  | .recache proxy recreate => world.invalidate recreate proxy
  | .removeProxy proxy => world.removeProxy proxy
  | .setDefault proxy => .ok { world with defaultProxy := some proxy }
  | .createProducer producer texture tile border preallocates =>
    .ok (world.createProducer producer texture tile border preallocates)
  | .destroyProducer producer => world.destroyProducer producer
  | .materialsUpdated _ recreate => .ok (world.materialsUpdated recreate)
  | .fence => .ok world

def apply (world : World) (command : RenderCommand) : Except Fault World :=
  (world.count fun stats => { stats with commands := stats.commands + 1 }).carryOut command

end Shading.World
