/-
The system behind a material library: settings, shader types, the workshop that
compiles, the renderer, and all resources. A resource is one material compiled
for one quality level and tier. The map it offers to the renderer is its own
idea of what should be drawn; the renderer takes it over when it gets to the
command that was sent.
-/

import Shading.Compile.Workshop
import Shading.Map.Inline
import Shading.Render.Renderer
import Shading.Settings

namespace Shading

structure Resource where
  variant : Variant
  /-- The map offered to the renderer. -/
  map : Option SharedMap := none
  /-- The compiles whose results are awaited. -/
  jobs : List JobId := []
  /-- What the last failed compile said. -/
  errors : List String := []
  /-- Whether a map was ever taken from an inline archive. -/
  hasInline : Bool := false
deriving Inhabited

namespace Resource

def name (resource : Resource) : String := resource.variant.description.name

def isDefault (resource : Resource) : Bool := resource.variant.description.isDefault

def hasValidMap (resource : Resource) : Bool :=
  resource.map.any fun shared => shared.map.isCompiled

def expressions? (resource : Resource) : Option ExpressionSet :=
  resource.map.bind fun shared => shared.map.expressions?

def flags (resource : Resource) : FeatureFlags :=
  match resource.map with
  | some shared => shared.map.flags
  | none => {}

/-- What the renderer is told about a resource. -/
def info (resource : Resource) : MaterialInfo where
  name := resource.name
  tier := resource.variant.tier
  quality := resource.variant.quality
  isDefault := resource.isDefault
  usage := resource.variant.description.usageText

end Resource

structure System where
  settings : Settings := .standard
  catalog : Catalog := {}
  workshop : Workshop := {}
  renderer : Renderer := {}
  resources : Table ResourceId Resource := .empty
  nextResource : ResourceId := .first
  nextProxy : ProxyId := .first
  nextProducer : ProducerId := .first

namespace System

/-! ### Parts -/

/-- The maps that resources or the renderer keep alive. -/
def heldMaps (system : System) : List MapId :=
  (system.resources.values.filterMap Resource.map).map SharedMap.id ++ system.renderer.heldMaps

def enqueue (system : System) (command : RenderCommand) : System :=
  { system with renderer := system.renderer.enqueue command }

def onManager (system : System) (change : Manager → Manager) : System :=
  { system with workshop := { system.workshop with manager := change system.workshop.manager } }

def onResource (system : System) (id : ResourceId) (change : Resource → Resource) : System :=
  { system with resources := system.resources.modify id change }

def bindingOf (system : System) (id : ResourceId) : Binding := system.renderer.world.bindingOf id

def freshProxy (system : System) : ProxyId × System :=
  (system.nextProxy, { system with nextProxy := system.nextProxy.next })

def freshProducer (system : System) : ProducerId × System :=
  (system.nextProducer, { system with nextProducer := system.nextProducer.next })

/-! ### Resources and their maps -/

/-- Makes a resource and registers it with the renderer. -/
def addResource (system : System) (variant : Variant) : ResourceId × System :=
  let id := system.nextResource
  let resource : Resource := { variant }
  let system := { system with
    resources := system.resources.insert id resource
    nextResource := id.next }
  (id, system.enqueue (.registerMaterial id resource.info))

/-- Drops a resource; the renderer forgets it too. -/
def dropResource (system : System) (id : ResourceId) : System :=
  { system with resources := system.resources.erase id }.enqueue (.releaseMaterial id)

/-- Sends the map of a resource to the renderer. -/
def publish (system : System) (id : ResourceId) : System :=
  match system.resources.get? id with
  | none => system
  | some resource => { system with renderer := system.renderer.publish id resource.map }

/-- Gives a resource a map, or none, and sends it to the renderer if that is a
change. -/
def setMap (system : System) (id : ResourceId) (map : Option SharedMap) : System :=
  match system.resources.get? id with
  | none => system
  | some resource =>
    if resource.map.map SharedMap.id = map.map SharedMap.id then system
    else (system.onResource id fun resource => { resource with map }).publish id

/-! ### Finding maps -/

/-- Takes a map into the registry, unless an equal one is there. -/
def registerMap (system : System) (map : ShaderMap) : SharedMap × System :=
  let (own, registry) := system.workshop.registry.adopt map
  let (canonical, registry) := registry.register (system.workshop.heldMaps system.heldMaps) own
  (canonical, { system with workshop := { system.workshop with registry } })

def findMap (system : System) (identity : MapIdentity) : Option SharedMap × System :=
  let (found, registry) :=
    system.workshop.registry.find (system.workshop.heldMaps system.heldMaps) identity
  (found, { system with workshop := { system.workshop with registry } })

/-- Looks into the store. An entry that cannot be read or belongs to another
identity is no map. -/
def findStored (system : System) (identity : MapIdentity) : Option SharedMap × System :=
  if system.workshop.usesStore then
    let (blob, store) := system.workshop.store.get identity.storeKey
    let system := { system with workshop := { system.workshop with store } }
    match blob.map ShaderMap.ofArchive with
    | some (.ok map) =>
      if map.identity = identity then
        let (canonical, system) := system.registerMap map
        (some canonical, system)
      else (none, system)
    | _ => (none, system)
  else (none, system)

/-- Looks for a map among the live ones and then in the store. -/
def lookup (system : System) (identity : MapIdentity) : Option SharedMap × System :=
  match system.findMap identity with
  | (some shared, system) => (some shared, system)
  | (none, system) => system.findStored identity

end System

end Shading
