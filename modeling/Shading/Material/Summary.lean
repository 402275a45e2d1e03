/-
Texts about resources, for whoever looks for a mistake.
-/

import Shading.Material.Library

namespace Shading

namespace Resource

def line (text : String) : String := text ++ "\n"

/-- A few lines about a resource, its map and its errors. -/
def report (resource : Resource) (id : ResourceId) : String :=
  let variant := resource.variant
  line ("Material '" ++ resource.name ++ "' " ++ id.text) ++
    line ("  tier: " ++ variant.tier.name ++ "  quality: " ++ variant.quality.name) ++
    line ("  usage: " ++ variant.description.usageText) ++
    line ("  outstanding jobs: " ++ toString resource.jobs.length) ++
    (match resource.map with
      | some shared => shared.map.describe
      | none => line "  <no shader map>") ++
    String.join (resource.errors.map fun error => line ("  error: " ++ error))

def truth (value : Bool) : String := if value then "true" else "false"

/-- A resource in one line. -/
def summary (resource : Resource) (id : ResourceId) : String :=
  let jobs := resource.jobs.map fun job => "CompileJobId(" ++ toString job.number ++ ")"
  Catalog.braces "MaterialResource" (", ".intercalate [
    "id: ResourceId(" ++ toString id.number ++ ")",
    "name: " ++ Quoted.encode resource.name,
    "tier: " ++ resource.variant.tier.name,
    "quality: " ++ resource.variant.quality.name,
    "has_shader_map: " ++ truth resource.map.isSome,
    "outstanding_jobs: " ++ Catalog.listText jobs,
    ".."])

end Resource

namespace Library

/-- Reports on all resources: those of materials and then those of instances,
in the order of their slots and tiers. -/
def report (library : Library) : String :=
  let materials := library.materials.keys.map Target.material
  let derived := library.derived.keys.map Target.derived
  let resources := (materials ++ derived).flatMap fun target =>
    (library.ownResources target).toList.filterMap id
  "\n".intercalate (resources.filterMap fun id =>
    (library.system.resources.get? id).map fun resource => resource.report id)

end Library

end Shading
