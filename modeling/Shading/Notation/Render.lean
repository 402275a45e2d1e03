/-
A short notation for what the renderer is told.
-/

import Shading.Notation.Description
import Shading.Render.Command

namespace Shading.Notation

/-- A parameter value: its type and the value. -/
def parameterValue (document : Json) : ParameterValue :=
  let value := document.item 1
  match (document.item 0).toText with
  | "v" => .vector (vector value)
  | "t" => .texture (texture value)
  | _ => .scalar (single value)

/-- Resources under the names of their tiers. -/
def materials (document : Json) : Materials :=
  .ofFunction fun tier => (document.field? tier.name).map identifier

def proxyKind (document : Json) : ProxyKind :=
  let parent : ProxyId := identifier (document.field "parent")
  let color := vector (document.field "color")
  let parameter := (document.field "param").toText
  let own := materials (document.field "materials")
  match (document.field "kind").toText with
  | "Instance" => .derived parent own
  | "Colored" => .colored parent parameter color
  | "ColoredTextured" =>
    .coloredTextured parent parameter color (document.field "tparam").toText
      (texture (document.field "texture"))
  | "SelectionColor" => .selectionColor parent color
  | "LightingDensity" =>
    let size := document.field "res"
    .lightingDensity parent color (single (size.item 0)) (single (size.item 1))
  | _ => .material own

/-- A command; its name comes first and then its arguments. -/
def renderCommand? (document : Json) : Option RenderCommand :=
  let first := document.item 1
  let second := document.item 2
  match (document.item 0).toText with
  | "register" => some (.registerMaterial (identifier first) {
      name := (second.field "name").text?.getD "M"
      tier := tier (second.field "tier")
      quality := quality (second.field "quality")
      isDefault := (second.field "default").toFlag
      usage := (second.field "usage").toText })
  | "release" => some (.releaseMaterial (identifier first))
  | "proxy" => some (.createProxy (identifier first) (proxyKind second))
  | "materials" => some (.setMaterials (identifier first) (materials second))
  | "set" =>
    some (.setParameter (identifier first) second.toText (parameterValue (document.item 3)))
  | "clear" => some (.clearParameter (identifier first) second.toText)
  | "recache" => some (.recache (identifier first) second.toFlag)
  | "remove" => some (.removeProxy (identifier first))
  | "default" => some (.setDefault (identifier first))
  | "producer" => some (.createProducer (identifier first) (texture second)
      (document.item 3).toWord (document.item 4).toWord (document.item 5).toFlag)
  | "destroy" => some (.destroyProducer (identifier first))
  | "updated" => some (.materialsUpdated (first.items.map identifier) second.toFlag)
  | _ => none

end Shading.Notation
