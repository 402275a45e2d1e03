/-
What the material side tells the renderer. The two sides share nothing but a
queue of commands and, for each resource, a binding: the renderer marks in it
whether it has a map for the resource, and the material side counts in it the
maps it has sent that the renderer has not taken in yet.
-/

import Shading.Map.Registry
import Shading.Tier

namespace Shading

/-! ### Bindings -/

structure Binding where
  /-- Whether the renderer has a map for the resource. -/
  bound : Bool := false
  /-- The maps sent and not yet taken in. -/
  pending : Nat := 0
deriving DecidableEq, Inhabited

namespace Binding

/-- Nothing is bound and nothing is on its way. -/
def isQuiescent (binding : Binding) : Bool := binding.pending = 0 && !binding.bound

def beginPublish (binding : Binding) : Binding := { binding with pending := binding.pending + 1 }

/-- Takes in one map, whether or not it was counted when it was sent. -/
def acknowledge (binding : Binding) : Binding := { binding with pending := binding.pending - 1 }

end Binding

/-! ### What proxies are -/

/-- A resource as the renderer knows it. -/
structure MaterialInfo where
  name : String
  tier : Tier
  quality : Quality
  isDefault : Bool := false
  usage : String := ""
deriving DecidableEq, Inhabited

inductive ParameterValue where
  | scalar (value : Binary32)
  | vector (value : Vector4)
  | texture (value : TextureId)
deriving DecidableEq, Inhabited

/-- The resource a proxy draws with on each tier, where it has one of its own. -/
abbrev Materials := PerTier (Option ResourceId)

/-- A proxy stands for a material, for an instance of another proxy, or for
another proxy with some parameters fixed. -/
inductive ProxyKind where
  | material (materials : Materials)
  | derived (parent : ProxyId) (materials : Materials)
  | colored (parent : ProxyId) (parameter : String) (color : Vector4)
  | coloredTextured (parent : ProxyId) (colorParameter : String) (color : Vector4)
      (textureParameter : String) (texture : TextureId)
  | selectionColor (parent : ProxyId) (color : Vector4)
  | lightingDensity (parent : ProxyId) (color : Vector4) (width height : Binary32)
deriving DecidableEq, Inhabited

namespace ProxyKind

def parent? : ProxyKind → Option ProxyId
  | .material _ => none
  | .derived parent _ | .colored parent _ _ | .coloredTextured parent _ _ _ _
  | .selectionColor parent _ | .lightingDensity parent _ _ _ => some parent

/-- The materials of a proxy that can have its own. -/
def materials? : ProxyKind → Option Materials
  | .material materials | .derived _ materials => some materials
  | _ => none

/-- Other materials for a proxy that can have its own. -/
def withMaterials (kind : ProxyKind) (materials : Materials) : ProxyKind :=
  match kind with
  | .material _ => .material materials
  | .derived parent _ => .derived parent materials
  | other => other

end ProxyKind

/-! ### Commands -/

inductive RenderCommand where
  | registerMaterial (resource : ResourceId) (info : MaterialInfo)
  | setMap (resource : ResourceId) (map : Option SharedMap)
  | releaseMaterial (resource : ResourceId)
  | createProxy (proxy : ProxyId) (kind : ProxyKind)
  | setMaterials (proxy : ProxyId) (materials : Materials)
  | setParameter (proxy : ProxyId) (name : String) (value : ParameterValue)
  | clearParameter (proxy : ProxyId) (name : String)
  | recache (proxy : ProxyId) (recreate : Bool)
  | removeProxy (proxy : ProxyId)
  | setDefault (proxy : ProxyId)
  | createProducer (producer : ProducerId) (texture : TextureId) (tile border : UInt32)
      (preallocates : Bool)
  | destroyProducer (producer : ProducerId)
  | materialsUpdated (resources : List ResourceId) (recreate : Bool)
  /-- Does nothing but be counted: whoever waits for it knows that all earlier
  commands have been carried out. -/
  | fence
deriving Inhabited

namespace RenderCommand

/-- The map that is on its way with a command. -/
def map? : RenderCommand → Option SharedMap
  | .setMap _ map => map
  | _ => none

end RenderCommand

end Shading
