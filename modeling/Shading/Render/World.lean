/-
The render world: the resources, proxies and streaming textures that the
renderer knows. Three indices go with them, so that whoever is touched by a
change can be found: the children of each proxy, the proxies that name a
resource, and the caches that were built from a resource.
-/

import Shading.Index
import Shading.Reachable
import Shading.Render.Proxy

namespace Shading

structure RenderMaterial where
  info : MaterialInfo
  map : Option SharedMap := none
deriving Inhabited

/-- Counts of what has been done. -/
structure RenderStats where
  commands : Nat := 0
  mapSwaps : Nat := 0
  invalidations : Nat := 0
  evaluations : Nat := 0
  materialUpdates : Nat := 0
  recreations : Nat := 0
deriving DecidableEq, Inhabited

structure World where
  /-- Whether stale caches wait for the end of the frame. -/
  deferring : Bool := true
  activeTiers : List Tier := [.desktop]
  materials : Table ResourceId RenderMaterial := .empty
  proxies : Proxies := .empty
  children : Index ProxyId ProxyId := .empty
  users : Index ResourceId ProxyId := .empty
  builtFrom : Index ResourceId (ProxyId × Tier) := .empty
  defaultProxy : Option ProxyId := none
  /-- The proxies whose caches are to be looked at, each once. -/
  deferred : List ProxyId := []
  streaming : Streaming := {}
  bindings : Table ResourceId Binding := .empty
  nextBuffer : BufferId := .first
  stats : RenderStats := {}

namespace World

/-! ### Resources -/

def bindingOf (world : World) (resource : ResourceId) : Binding :=
  (world.bindings.get? resource).getD {}

def onBinding (world : World) (resource : ResourceId) (change : Binding → Binding) : World :=
  { world with bindings := world.bindings.insert resource (change (world.bindingOf resource)) }

def setBound (world : World) (resource : ResourceId) (bound : Bool) : World :=
  world.onBinding resource fun binding => { binding with bound }

def mapOf (world : World) (resource : ResourceId) : Option SharedMap :=
  (world.materials.get? resource).bind RenderMaterial.map

/-- The maps the world keeps alive. -/
def heldMaps (world : World) : List MapId :=
  (world.materials.values.filterMap RenderMaterial.map).map SharedMap.id

/-! ### Resolution -/

/-- What a proxy is drawn with: the map of a resource, and the proxy whose
parameters are used. -/
structure Drawable where
  resource : ResourceId
  map : SharedMap
  parameters : ProxyId
deriving DecidableEq, Inhabited

namespace Drawable

/-- Whether another proxy steps in for the one that was asked for. -/
def isFallback (drawable : Drawable) (requested : ProxyId) : Bool :=
  drawable.parameters ≠ requested

end Drawable

def resolve (world : World) (proxy : ProxyId) (tier : Tier) : Option ResourceId :=
  world.proxies.resolve tier world.proxies.size proxy

def ownDrawable (world : World) (proxy : ProxyId) (tier : Tier) : Option Drawable := do
  let resource ← world.resolve proxy tier
  let map ← world.mapOf resource
  some ⟨resource, map, proxy⟩

/-- A proxy without a map of its own is drawn as the default proxy, if one has
been set; that one has to have a map. -/
def drawable (world : World) (proxy : ProxyId) (tier : Tier) : Except Fault (Option Drawable) :=
  match world.ownDrawable proxy tier, world.defaultProxy with
  | some drawable, _ => .ok drawable
  | none, none => .ok none
  | none, some fallback =>
    match world.ownDrawable fallback tier with
    | some drawable => .ok drawable
    | none =>
      let material := (world.resolve fallback tier).bind world.materials.get?
      .error (.noFallback (material.map fun material => material.info.name) tier)

/-- The shader of a resource for a permutation; nothing if the resource is not known. -/
def shader (world : World) (resource : ResourceId) (permutation : Permutation) :
    Except Fault (Option Binary) :=
  match world.materials.get? resource with
  | none => .ok none
  | some material =>
    match material.map with
    | none => .error (.noMap material.info.name)
    | some shared =>
      match shared.map.binary? permutation with
      | some binary => .ok binary
      | none => .error (.missingPermutation material.info.name permutation.text)

/-! ### Indices -/

def indexMaterials (world : World) (proxy : ProxyId) (materials : Materials) : World :=
  { world with
    users := (materials.toList.filterMap id).foldl (fun users resource =>
      Index.add users resource proxy) world.users }

def unindexMaterials (world : World) (proxy : ProxyId) (materials : Materials) : World :=
  { world with
    users := (materials.toList.filterMap id).foldl (fun users resource =>
      Index.remove users resource proxy) world.users }

/-- The children of a proxy in increasing order. -/
def childrenOf (world : World) (proxy : ProxyId) : List ProxyId :=
  Identifier.sort (Index.entriesOf world.children proxy)

/-- A proxy and all its descendants. -/
def family (world : World) (proxy : ProxyId) : List ProxyId :=
  reachable world.childrenOf (Index.total world.children) [proxy]

/-- The proxies that draw with a resource on a tier, found from those that name
it down to the children that take it from them. -/
def drawingWith (world : World) (resource : ResourceId) (tier : Tier) : List ProxyId :=
  let draws (proxy : ProxyId) : Bool := world.resolve proxy tier = some resource
  let next (proxy : ProxyId) : List ProxyId := if draws proxy then world.childrenOf proxy else []
  (reachable next (Index.total world.children) (Index.entriesOf world.users resource)).filter draws

def buildBefore (left right : ProxyId × Tier) : Bool :=
  left.1.number < right.1.number ||
    (left.1 = right.1 && left.2.position ≤ right.2.position)

/-- The caches that a change of a resource's map concerns, each once and in order. -/
def dependents (world : World) (resource : ResourceId) (tier : Tier) : List (ProxyId × Tier) :=
  let drawing := (world.drawingWith resource tier).map fun proxy => (proxy, tier)
  ((Index.entriesOf world.builtFrom resource ++ drawing).mergeSort buildBefore).eraseDups

/-! ### Description -/

def describeMaterial (material : RenderMaterial) : String :=
  let map := match material.map with
    | some shared => shared.map.describe
    | none => "<none>"
  "'" ++ material.info.name ++ "' [" ++ material.info.tier.name ++ " / " ++
    material.info.quality.name ++ "]" ++ (if material.info.isDefault then " (default)" else "") ++
    " map: " ++ map

def describe (world : World) : String :=
  let lines := (Identifier.sort world.materials.keys).filterMap fun resource =>
    (world.materials.get? resource).map fun material =>
      resource.text ++ ": " ++ describeMaterial material
  "\n".intercalate lines

end World

end Shading
