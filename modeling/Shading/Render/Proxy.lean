/-
Proxies on the render side. Each proxy has its own parameter values and, for
every tier, a cache of its uniform buffer. A parameter is looked up along the
chain of parents, and the nearest proxy that has an answer gives it. What a
proxy fixes by its kind comes before what has been set on it.
-/

import Shading.Render.Cache

namespace Shading

structure RenderProxy where
  kind : ProxyKind
  overrides : Table String ParameterValue := .empty
  caches : PerTier UniformCache := .fill {}
deriving Inhabited

namespace RenderProxy

/-! ### One proxy -/

def selectionParameter : String := "SelectionColor"

def resolutionParameter : String := "LightMapResolutionScale"

def densityParameter : String := "DensityColor"

/-- The vector that the kind of a proxy fixes for a parameter. -/
def fixedVector (kind : ProxyKind) (name : String) : Option Vector4 :=
  match kind with
  | .colored _ parameter color | .coloredTextured _ parameter color _ _ =>
    if parameter = name then some color else none
  | .selectionColor _ color => if name = selectionParameter then some color else none
  | .lightingDensity _ color width height =>
    if name = resolutionParameter then some ⟨width, height, .one, .one⟩
    else if name = densityParameter then some color
    else none
  | .material _ | .derived _ _ => none

def fixedTexture (kind : ProxyKind) (name : String) : Option TextureId :=
  match kind with
  | .coloredTextured _ _ _ parameter texture => if parameter = name then some texture else none
  | _ => none

def ownScalar (proxy : RenderProxy) (name : String) : Option Binary32 :=
  match proxy.overrides.get? name with
  | some (.scalar value) => some value
  | _ => none

def ownVector (proxy : RenderProxy) (name : String) : Option Vector4 :=
  match fixedVector proxy.kind name, proxy.overrides.get? name with
  | some value, _ => some value
  | none, some (.vector value) => some value
  | none, _ => none

def ownTexture (proxy : RenderProxy) (name : String) : Option TextureId :=
  match fixedTexture proxy.kind name, proxy.overrides.get? name with
  | some value, _ => some value
  | none, some (.texture value) => some value
  | none, _ => none

end RenderProxy

abbrev Proxies := Table ProxyId RenderProxy

namespace Proxies

/-! ### Chains of proxies -/

/-- A proxy and its ancestors, up to a number of them. -/
def chain (proxies : Proxies) : Nat → Option ProxyId → List RenderProxy
  | 0, _ | _, none => []
  | links + 1, some id =>
    match Table.get? proxies id with
    | none => []
    | some proxy => proxy :: chain proxies links proxy.kind.parent?

/-- The longest chain in which a parameter is looked up. -/
def maxChain : Nat := 64

/-- The parameters of a proxy. External textures are not known here. -/
def parameters (proxies : Proxies) (id : ProxyId) : ParameterSource where
  scalar name := (chain proxies maxChain id).findSome? fun proxy => proxy.ownScalar name
  vector name := (chain proxies maxChain id).findSome? fun proxy => proxy.ownVector name
  texture name := (chain proxies maxChain id).findSome? fun proxy => proxy.ownTexture name
  external _ := none

/-- The resource of the nearest proxy that has one for the tier, looking at no
more than a number of proxies. -/
def resolve (proxies : Proxies) (tier : Tier) : Nat → ProxyId → Option ResourceId
  | 0, _ => none
  | links + 1, id =>
    match Table.get? proxies id with
    | none => none
    | some proxy =>
      match proxy.kind with
      | .material materials => materials.get tier
      | .derived parent materials =>
        match materials.get tier with
        | some resource => some resource
        | none => resolve proxies tier links parent
      | .colored parent _ _ | .coloredTextured parent _ _ _ _ | .selectionColor parent _
      | .lightingDensity parent _ _ _ => resolve proxies tier links parent

end Proxies

end Shading
