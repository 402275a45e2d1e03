/-
Reports of resources and of the targets in a library. Targets go by names that
the reader of the report knows.
-/

import Shading.Material.Library
import Shading.Report.World

namespace Shading.Report

def parameterValue : ParameterValue → Json
  | .scalar value => .array [.text "s", single value]
  | .vector value => .array [.text "v", vector value]
  | .texture value => .array [.text "t", texture value]

/-! ### Resources -/

def resource (system : System) (id : ResourceId) : Labelled Json := do
  let some found := system.resources.get? id | return .null
  let variant := found.variant
  let binding := system.bindingOf id
  let flags := found.flags
  return .record [
    ("id", identifier id),
    ("name", .text found.name),
    ("at", texts [variant.tier.name, variant.quality.name]),
    ("default", .bool found.isDefault),
    ("usage", .text variant.description.usageText),
    ("map", ← label? found.map),
    ("valid", .bool found.hasValidMap),
    ("exprs", option (fun expressions => .text expressions.describe) found.expressions?),
    ("flags", .array (word flags.bits :: [FeatureFlags.eyeAdaptation,
      .modifiesMeshPosition, .sceneDepth].map fun flag => .bool (flags.contains flag))),
    ("errors", texts found.errors),
    ("jobs", list identifier found.jobs),
    ("inline", .bool found.hasInline),
    ("bound", .bool binding.bound),
    ("pending", .bool (binding.pending ≠ 0)),
    ("statics", .text variant.parameters.describe)]

def resources (system : System) (resources : Materials) : Labelled Json :=
  listM (fun id => match id with
    | some id => resource system id
    | none => pure .null) resources.toList

/-! ### Targets -/

def own (library : Library) (name : Target → Json) : Target → Labelled Json
  | .material key => do
    let some material := library.materials.get? key | return .null
    return .record [
      ("name", .text material.description.name),
      ("default", .bool (library.defaultMaterial = some key)),
      ("proxy", identifier material.proxy),
      ("own", ← resources library.system material.resources)]
  | .derived key => do
    let some found := library.derived.get? key | return .null
    return .record [
      ("parent", name found.parent),
      ("overrides", .text found.overrides.describe),
      ("permutation", .bool found.hasPermutation),
      ("proxy", identifier found.proxy),
      ("own", ← resources library.system found.resources)]

def target (library : Library) (name : Target → Json) (target : Target) : Labelled Json := do
  let owned (tier : Tier) : Json := option (fun id =>
    .array [identifier id, option name (library.owners.get? id)]) (library.resource target tier)
  return .record [
    ("own", ← own library name target),
    ("base", option (fun key => name (.material key)) (library.baseMaterial target)),
    ("overrides", .text (library.effectiveOverrides target).describe),
    ("dependents", list (fun key => name (.derived key)) (library.dependents target)),
    ("resources", list owned Tier.all)]

end Shading.Report
