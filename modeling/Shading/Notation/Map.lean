/-
A short notation for catalogs, variants and shader maps, to go with the one for
descriptions. A shader type or vertex factory may be given conditions on the
materials it wants; a map that gives no output or no binaries of its own has
those of its material.
-/

import Shading.Map.ShaderMap
import Shading.Map.Variant
import Shading.Notation.Description

namespace Shading.Notation

/-! ### Catalogs -/

/-- A part of a condition; one that is not given always holds. -/
def holds (condition : Json) (name : String) (test : Json → Bool) : Bool :=
  match condition.field? name with
  | some value => test value
  | none => true

/-- Whether all the given parts of a condition hold for a material on a tier. -/
def wants (condition : Json) (description : Description) (tier : Tier) : Bool :=
  holds condition "tiers" (fun tiers => tiers.items.any fun entry => entry.toText = tier.name) &&
  holds condition "usage" (fun usage => (description.usage.bits &&& usage.toWord) ≠ 0) &&
  holds condition "domain" (fun domain => domain.toText = description.domain.name) &&
  holds condition "blend" (fun blend => blend.toText = description.blend.name) &&
  holds condition "two_sided" (fun twoSided => twoSided.toFlag = description.twoSided)

def shaderType (document : Json) : ShaderType :=
  let kind := if (document.field "kind").toText = "Mesh" then ShaderKind.mesh else .plain
  let start := ShaderType.ofSource (document.field "name").toText kind
    (document.field "src").toText
  { start with accepts := wants (document.field "if") }

def factory (document : Json) : VertexFactory :=
  let condition := document.field "if"
  let start := VertexFactory.ofSource (document.field "name").toText (document.field "src").toText
  { start with
    accepts := fun description shaderType tier =>
      wants condition description tier &&
        holds condition "types" fun types =>
          types.items.any fun entry => entry.toText = shaderType.name }

def catalog (document : Json) : Catalog :=
  let types := (document.field "types").items.map shaderType
  let factories := (document.field "vfs").items.map factory
  factories.foldl Catalog.addFactory (types.foldl Catalog.addShaderType {})

def permutation (document : Json) : Permutation :=
  { shaderType := (document.item 0).toText, factory := (document.item 1).text? }

/-! ### Variants and maps -/

def variant (document : Json) : Variant where
  description := description (document.field "desc")
  overrides := staticParameters? (document.field "statics")
  quality := quality (document.field "q")
  tier := tier (document.field "t")

def profile (output : Option Json) (material : Except LoweringError LoweredMaterial) :
    Except LoweringError Profile :=
  match output with
  | some output => .ok ((Profile.decode .unlimited output).getD {})
  | none => material.map LoweredMaterial.profile

def binaries (given : Option Json) (permutations : List Permutation)
    (material : Except LoweringError LoweredMaterial) :
    Except LoweringError (List (Permutation × Binary)) :=
  match given with
  | some given => .ok (given.items.map fun entry =>
      (permutation (entry.item 0), .ofCode (Hex.bytes (entry.item 1).toText)))
  | none => material.map fun material =>
      permutations.map fun permutation => (permutation, .ofCode (Utf8.encode material.source))

/-- A map whose material cannot be lowered has no content. -/
def shaderMap (document : Json) : ShaderMap :=
  let catalog := catalog document
  let variant := variant document
  let name := (document.field "as").text?.getD variant.description.name
  let empty : ShaderMap := { identity := variant.identity catalog, name }
  let content : Except LoweringError MapContent := do
    let profile ← profile (document.field? "out") variant.lower
    let binaries ←
      binaries (document.field? "bins") (variant.permutations catalog) variant.lower
    .ok (.ofBinaries binaries profile)
  if (document.field "empty").toFlag then empty else { empty with content := content.toOption }

end Shading.Notation
