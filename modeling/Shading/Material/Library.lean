/-
The material library: materials, and instances that change parameters of a
material or of another instance. A material has one resource for each active
tier. An instance draws with the resources of its parent unless its static
parameters change the shader; only then has it resources of its own. Resources
belong to whoever made them and go away with it.
-/

import Shading.Material.Compilation
import Shading.Slots

namespace Shading

/-- A material or an instance. -/
inductive Target where
  | material (key : SlotKey)
  | derived (key : SlotKey)
deriving DecidableEq, Inhabited

namespace Target

def missing : Target → Failure
  | .material key => .notFound (.parentMaterial key)
  | .derived key => .notFound (.parentInstance key)

end Target

structure Material where
  description : Description
  resources : Materials := .fill none
  proxy : ProxyId
  parameters : Table String ParameterValue := .empty
deriving Inhabited

structure MaterialInstance where
  parent : Target
  overrides : StaticParameters
  /-- The instance's own resources, where its overrides change the shader. -/
  resources : Materials := .fill none
  proxy : ProxyId
  parameters : Table String ParameterValue := .empty
deriving Inhabited

namespace MaterialInstance

def hasPermutation (derived : MaterialInstance) : Bool := derived.resources.toList.any Option.isSome

end MaterialInstance

structure Library where
  system : System := {}
  materials : Slots Material := {}
  derived : Slots MaterialInstance := {}
  owners : Table ResourceId Target := .empty
  defaultMaterial : Option SlotKey := none

namespace Library

/-! ### Looking things up -/

def enqueue (library : Library) (command : RenderCommand) : Library :=
  { library with system := library.system.enqueue command }

def proxy? (library : Library) : Target → Option ProxyId
  | .material key => (library.materials.get? key).map Material.proxy
  | .derived key => (library.derived.get? key).map MaterialInstance.proxy

/-- The resources of a target itself, without those of its parent. -/
def ownResources (library : Library) : Target → Materials
  | .material key => ((library.materials.get? key).map Material.resources).getD (.fill none)
  | .derived key => ((library.derived.get? key).map MaterialInstance.resources).getD (.fill none)

def parameters? (library : Library) : Target → Option (Table String ParameterValue)
  | .material key => (library.materials.get? key).map Material.parameters
  | .derived key => (library.derived.get? key).map MaterialInstance.parameters

/-- The instances from a target up to the root, and what the root is: a
material, or an instance that is gone. -/
def ancestry (library : Library) : Nat → Target → List MaterialInstance × Target
  | 0, target | _, target@(.material _) => ([], target)
  | links + 1, .derived key =>
    match library.derived.get? key with
    | none => ([], .derived key)
    | some found =>
      let (rest, root) := library.ancestry links found.parent
      (found :: rest, root)

/-- No chain is longer than the number of instances. -/
def chain (library : Library) (target : Target) : List MaterialInstance × Target :=
  library.ancestry (library.derived.size + 1) target

/-- The material at the root of a target, which may be gone by now. -/
def baseMaterial (library : Library) (target : Target) : Option SlotKey :=
  match (library.chain target).2 with
  | .material key => some key
  | .derived _ => none

def depth (library : Library) (target : Target) : Nat := (library.chain target).1.length

/-- The resource a target is drawn with on a tier: its own or that of the
nearest ancestor that has one. -/
def resource (library : Library) (target : Target) (tier : Tier) : Option ResourceId :=
  let (derived, root) := library.chain target
  match derived.findSome? fun found => found.resources.get tier with
  | some resource => some resource
  | none =>
    match root with
    | .material key => (library.ownResources (.material key)).get tier
    | .derived _ => none

/-- All overrides along the chain; those nearer to the target come first. -/
def effectiveOverrides (library : Library) (target : Target) : StaticParameters :=
  (library.chain target).1.reverse.foldl (fun merged found =>
    merged.mergedWith found.overrides) .empty

/-- Goes down from targets to the instances made of them. The targets that came
up last are looked at first. -/
def descend (library : Library) : Nat → List Target → List SlotKey → List SlotKey
  | 0, _, found | _, [], found => found
  | steps + 1, parent :: rest, found =>
    let children := (library.derived.toList.filter fun entry =>
      entry.2.parent = parent && entry.1 ∉ found).map Prod.fst
    library.descend steps (children.reverse.map .derived ++ rest) (found ++ children)

def sortByDepth (library : Library) (keys : List SlotKey) : List SlotKey :=
  keys.mergeSort fun left right =>
    library.depth (.derived left) ≤ library.depth (.derived right)

/-- The instances whose chains pass through a target, parents first. -/
def dependents (library : Library) (target : Target) : List SlotKey :=
  library.sortByDepth (library.descend (library.derived.size + 1) [target] [])

/-! ### Resources -/

/-- Makes the resource for one tier. A resource that the tier had is dropped. -/
def makeOne (owner : Target) (description : Description) (overrides : Option StaticParameters)
    (quality : Quality) (made : Materials × Library) (tier : Tier) : Materials × Library :=
  let (resources, library) := made
  let (id, system) := library.system.addResource { description, overrides, quality, tier }
  let system := match resources.get tier with
    | some replaced => system.dropResource replaced
    | none => system
  (resources.set tier (some id), { library with system, owners := library.owners.insert id owner })

/-- Makes a resource for each active tier. -/
def addResources (library : Library) (owner : Target) (description : Description)
    (overrides : Option StaticParameters) : Materials × Library :=
  let settings := library.system.settings
  settings.activeTiers.foldl (makeOne owner description overrides settings.activeQuality)
    (.fill none, library)

/-- Takes resources from the renderer and drops them. -/
def releaseResources (library : Library) (resources : Materials) : Library :=
  (resources.toList.filterMap id).foldl (fun library id =>
    { library with
      system := (library.system.releaseMap id).dropResource id
      owners := library.owners.erase id }) library

/-- Caches the shaders of a target's own resources. Tells whether the target is
there and all of them have complete maps. -/
def cacheShaders (library : Library) (target : Target) : Except Fault (Bool × Library) :=
  if (library.proxy? target).isNone then .ok (false, library)
  else do
    let resources := (library.ownResources target).toList.filterMap id
    let (ready, system) ← resources.foldlM (fun (ready, system) id => do
      let (done, system) ← System.cacheShaders system id
      .ok (ready && done, system)) (true, library.system)
    .ok (ready, { library with system })

/-! ### Materials -/

def addMaterial (library : Library) (description : Description) :
    Except Fault (SlotKey × Library) := do
  let (proxy, system) := library.system.freshProxy
  let (key, materials) := library.materials.insert { description, proxy }
  let library := { library with system, materials }
  let (resources, library) := library.addResources (.material key) description none
  let library := library.enqueue (.createProxy proxy (.material resources))
  let materials := library.materials.modify key fun material => { material with resources }
  let (_, library) ← { library with materials }.cacheShaders (.material key)
  .ok (key, library)

/-- Adds the material that stands in for all that cannot be drawn. -/
def setDefaultMaterial (library : Library) (description : Description) :
    Except Fault (SlotKey × Library) := do
  let (key, library) ← library.addMaterial { description with isDefault := true }
  let library := match library.proxy? (.material key) with
    | some proxy => library.enqueue (.setDefault proxy)
    | none => library
  .ok (key, { library with defaultMaterial := some key })

/-- Gives a material another description, which counts when its shaders are
cached the next time. It stays the default material if it was. -/
def replaceDescription (library : Library) (key : SlotKey) (description : Description) :
    Except Failure Library :=
  match library.materials.get? key with
  | none => .error (.notFound (.material key))
  | some material =>
    let description := { description with isDefault := material.description.isDefault }
    let system := (material.resources.toList.filterMap id).foldl (fun system id =>
      System.onResource system id fun resource =>
        { resource with variant := { resource.variant with description } }) library.system
    .ok { library with
      system
      materials := library.materials.modify key fun material => { material with description } }

/-- Removes a material. What was derived from it is drawn as the default
material from then on. -/
def removeMaterial (library : Library) (key : SlotKey) : Library :=
  let library :=
    if library.defaultMaterial = some key then { library with defaultMaterial := none }
    else library
  match library.materials.get? key with
  | none => library
  | some material =>
    ({ library with materials := library.materials.erase key }.releaseResources
      material.resources).enqueue (.removeProxy material.proxy)

/-! ### Instances -/

/-- The description at the root of a target. That the root is gone is not
something one can go on from. -/
def baseDescription (library : Library) (target : Target) : Except Fault (Option Description) :=
  match library.baseMaterial target with
  | none => .ok none
  | some base =>
    match library.materials.get? base with
    | some material => .ok material.description
    | none => .error .vacantSlot

def hasPermutation (library : Library) : Target → Bool
  | .material _ => false
  | .derived key => ((library.derived.get? key).map MaterialInstance.hasPermutation).getD false

/-- Whether overrides on top of a parent need a shader other than the one the
parent's base material has. -/
def needsPermutation (library : Library) (parent : Target) (overrides : StaticParameters) :
    Except Fault Bool := do
  match ← library.baseDescription parent with
  | none => .ok false
  | some description =>
    let before := description.effectiveParameters (library.effectiveOverrides parent)
    .ok (before ≠ before.mergedWith overrides || library.hasPermutation parent)

/-- Makes the resources of an instance that needs its own. -/
def addPermutation (library : Library) (key : SlotKey) : Except Fault (Materials × Library) := do
  match ← library.baseDescription (.derived key) with
  | none => .ok (.fill none, library)
  | some description =>
    .ok (library.addResources (.derived key) description
      (library.effectiveOverrides (.derived key)))

def setResources (library : Library) (key : SlotKey) (resources : Materials) : Library :=
  { library with
    derived := library.derived.modify key fun found => { found with resources } }

def addInstance (library : Library) (parent : Target) (overrides : StaticParameters) :
    Except Fault (Except Failure SlotKey × Library) := do
  match library.proxy? parent with
  | none => .ok (.error parent.missing, library)
  | some parentProxy =>
    let needed ← library.needsPermutation parent overrides
    let (proxy, system) := library.system.freshProxy
    let (key, derived) := library.derived.insert { parent, overrides, proxy }
    let library := { library with system, derived }
    let (resources, library) ←
      if needed then library.addPermutation key else .ok (.fill none, library)
    let library := library.enqueue (.createProxy proxy (.derived parentProxy resources))
    let library := library.setResources key resources
    let (_, library) ←
      if needed then library.cacheShaders (.derived key) else .ok (true, library)
    .ok (.ok key, library)

def removeInstance (library : Library) (key : SlotKey) : Library :=
  match library.derived.get? key with
  | none => library
  | some found =>
    ({ library with derived := library.derived.erase key }.releaseResources
      found.resources).enqueue (.removeProxy found.proxy)

/-- Lets the resources of an instance follow its base material and its chain. -/
def refreshInstance (library : Library) (key : SlotKey) : Except Fault Library := do
  match ← library.baseDescription (.derived key) with
  | none => .ok library
  | some description =>
    let overrides := some (library.effectiveOverrides (.derived key))
    let resources := (library.ownResources (.derived key)).toList.filterMap id
    .ok { library with
      system := resources.foldl (fun system id =>
        System.onResource system id fun resource =>
          { resource with variant := { resource.variant with description, overrides } })
        library.system }

/-- Replaces the resources of an instance and tells the renderer. -/
def exchangeResources (library : Library) (key : SlotKey) (proxy : ProxyId)
    (resources : Materials) : Library :=
  (library.setResources key resources).enqueue (.setMaterials proxy resources)

/-- Makes or releases the resources of an instance, so that it has its own just
if it needs them now. Tells whether it does. -/
def syncPermutation (library : Library) (key : SlotKey) : Except Fault (Bool × Library) := do
  match library.derived.get? key with
  | none => .ok (false, library)
  | some found =>
    let needed ← library.needsPermutation found.parent found.overrides
    let library ← match needed, found.hasPermutation with
      | true, true => library.refreshInstance key
      | true, false => do
        let (resources, library) ← library.addPermutation key
        .ok (library.exchangeResources key found.proxy resources)
      | false, true =>
        let library := (library.setResources key (.fill none)).releaseResources found.resources
        .ok (library.exchangeResources key found.proxy (.fill none))
      | false, false => .ok library
    .ok (needed, library)

/-! ### Parameters -/

def onParameters (library : Library) (target : Target)
    (change : Table String ParameterValue → Table String ParameterValue) : Library :=
  match target with
  | .material key =>
    { library with materials := library.materials.modify key fun material =>
        { material with parameters := change material.parameters } }
  | .derived key =>
    { library with derived := library.derived.modify key fun found =>
        { found with parameters := change found.parameters } }

def setParameter (library : Library) (target : Target) (name : String) (value : ParameterValue) :
    Except Failure Library :=
  match library.proxy? target with
  | none => .error target.missing
  | some proxy =>
    .ok ((library.onParameters target fun parameters => parameters.insert name value).enqueue
      (.setParameter proxy name value))

/-- Clears a parameter; the renderer hears of it only if the parameter was set. -/
def clearParameter (library : Library) (target : Target) (name : String) :
    Except Failure Library :=
  match library.proxy? target, library.parameters? target with
  | some proxy, some parameters =>
    if parameters.contains name then
      .ok ((library.onParameters target fun parameters => parameters.erase name).enqueue
        (.clearParameter proxy name))
    else .ok library
  | _, _ => .error target.missing

/-! ### Results of compiles -/

/-- Hands one finished compile to the library's resources that wait for it. -/
def completeAll (library : Library) (finished : FinishedCompile) :
    Except Fault (Nat × Library) := do
  let resources := finished.resources.filter library.owners.contains
  let (count, system) ← resources.foldlM (fun (count, system) id => do
    let (applied, system) ← System.complete system id finished.job finished.result
    .ok (count + applied.toNat, system)) (0, library.system)
  .ok (count, { library with system })

/-- Applies all finished compiles and counts the resources they reached. -/
def processResults (library : Library) : Except Fault (Nat × Library) := do
  let (finished, system) := library.system.processResults
  finished.foldlM (fun (count, library) finished => do
    let (more, library) ← Library.completeAll library finished
    .ok (count + more, library)) (0, { library with system })

def finishAll (library : Library) : Except Fault (Nat × Library) :=
  let system := library.system
  let workshop := system.workshop.finishAll system.heldMaps
  { library with system := { system with workshop } }.processResults

/-! ### Leaving -/

/-- Removes all instances and then all materials. -/
def clear (library : Library) : Library :=
  library.materials.keys.foldl removeMaterial (library.derived.keys.foldl removeInstance library)

end Library

end Shading
