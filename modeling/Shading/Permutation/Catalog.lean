/-
The catalog of shader types and vertex factories, and which of their
combinations a material needs. A shader of the plain kind is compiled once for
a material; a mesh shader is compiled once for every vertex factory it is used
with. Each type and factory decides by itself whether it wants a material, and
the digest of its source is what a compiled map is later recognised by.
-/

import Shading.Graph.Description
import Shading.Tier
import Shading.Text.Quoted

namespace Shading

/-- One shader of a map: a shader type, with a vertex factory if it draws meshes. -/
structure Permutation where
  shaderType : String
  factory : Option String := none
deriving DecidableEq, Inhabited

namespace Permutation

def text (permutation : Permutation) : String :=
  match permutation.factory with
  | none => permutation.shaderType
  | some factory => permutation.shaderType ++ "/" ++ factory

/-- Shader types in order, and for each one no factory before the factories. -/
def before (left right : Permutation) : Bool :=
  if left.shaderType = right.shaderType then
    match left.factory, right.factory with
    | none, some _ => true
    | some left, some right => left < right
    | _, none => false
  else left.shaderType < right.shaderType

def encode (permutation : Permutation) : Json :=
  .record [
    ("shader_type", .text permutation.shaderType),
    ("vertex_factory", .option (permutation.factory.map .text))]

def decode : Json.Decoder Permutation := fun depth document => do
  let fields ← Json.asFields ["shader_type", "vertex_factory"] false depth document
  some {
    shaderType := ← fields.required "shader_type" Json.asText
    factory := ← fields.optional "vertex_factory" Json.asText }

end Permutation

inductive ShaderKind where
  | plain
  | mesh
deriving DecidableEq, Inhabited

structure ShaderType where
  name : String
  kind : ShaderKind
  source : Digest
  /-- Whether the shader is compiled for a material on a tier. -/
  accepts : Description → Tier → Bool := fun _ _ => true

namespace ShaderType

def ofSource (name : String) (kind : ShaderKind) (source : String) : ShaderType :=
  { name, kind, source := Digest.ofBytes (Utf8.encode source) }

end ShaderType

structure VertexFactory where
  name : String
  source : Digest
  /-- Whether a shader is compiled with the factory for a material on a tier. -/
  accepts : Description → ShaderType → Tier → Bool := fun _ _ _ => true

namespace VertexFactory

def ofSource (name : String) (source : String) : VertexFactory :=
  { name, source := Digest.ofBytes (Utf8.encode source) }

end VertexFactory

/-! ### What a map depends on -/

/-- A source that took part in a map, by name and digest. -/
structure Dependency where
  name : String
  source : Digest
deriving DecidableEq, Inhabited

namespace Dependency

def before (left right : Dependency) : Bool :=
  if left.name = right.name then left.source < right.source else left.name < right.name

def stream (dependency : Dependency) : List UInt8 :=
  Stream.text dependency.name ++ Stream.digest dependency.source

def encodeDigest (digest : Digest) : Json := .text digest.toHex

def decodeDigest : Json.Decoder Digest := fun depth document =>
  (Json.asText depth document).bind Digest.ofHex?

def encode (dependency : Dependency) : Json :=
  .record [("name", .text dependency.name), ("source_hash", encodeDigest dependency.source)]

def decode : Json.Decoder Dependency := fun depth document => do
  let fields ← Json.asFields ["name", "source_hash"] false depth document
  some {
    name := ← fields.required "name" Json.asText
    source := ← fields.required "source_hash" decodeDigest }

end Dependency

/-- The permutations a material needs and the sources they come from, each list
in increasing order. -/
structure Dependencies where
  shaderTypes : List Dependency := []
  factories : List Dependency := []
  permutations : List Permutation := []
deriving DecidableEq, Inhabited

/-- The registered shader types and vertex factories, no two of a name. -/
structure Catalog where
  shaderTypes : List ShaderType := []
  factories : List VertexFactory := []

namespace Catalog

/-- A type takes the place of an earlier one with its name. -/
def addShaderType (catalog : Catalog) (shaderType : ShaderType) : Catalog :=
  { catalog with
    shaderTypes :=
      catalog.shaderTypes.filter (fun other => other.name ≠ shaderType.name) ++ [shaderType] }

def addFactory (catalog : Catalog) (factory : VertexFactory) : Catalog :=
  { catalog with
    factories := catalog.factories.filter (fun other => other.name ≠ factory.name) ++ [factory] }

def shaderType? (catalog : Catalog) (name : String) : Option ShaderType :=
  catalog.shaderTypes.find? fun shaderType => shaderType.name = name

/-- The permutations of one shader type for a material. -/
def permutationsOf (catalog : Catalog) (description : Description) (tier : Tier)
    (shaderType : ShaderType) : List Permutation :=
  if shaderType.accepts description tier then
    match shaderType.kind with
    | .plain => [{ shaderType := shaderType.name }]
    | .mesh =>
      (catalog.factories.filter fun factory => factory.accepts description shaderType tier).map
        fun factory => { shaderType := shaderType.name, factory := some factory.name }
  else []

/-- Sorts so that no entry comes before an earlier one. -/
def sort {α : Type} (before : α → α → Bool) (entries : List α) : List α :=
  entries.mergeSort fun left right => !before right left

def dependencies (catalog : Catalog) (description : Description) (tier : Tier) : Dependencies :=
  let permutations := catalog.shaderTypes.flatMap (catalog.permutationsOf description tier)
  let shaderTypes := catalog.shaderTypes.filter fun shaderType =>
    !(catalog.permutationsOf description tier shaderType).isEmpty
  let factories := catalog.factories.filter fun factory =>
    permutations.any fun permutation => permutation.factory = some factory.name
  { shaderTypes :=
      sort Dependency.before (shaderTypes.map fun entry => ⟨entry.name, entry.source⟩)
    factories := sort Dependency.before (factories.map fun entry => ⟨entry.name, entry.source⟩)
    permutations := sort Permutation.before permutations }

/-! ### Description -/

def kindText : ShaderKind → String
  | .plain => "Material"
  | .mesh => "MeshMaterial"

def braces (name content : String) : String := name ++ " \x7b " ++ content ++ " \x7d"

def listText (entries : List String) : String := "[" ++ ", ".intercalate entries ++ "]"

def shaderTypeText (shaderType : ShaderType) : String :=
  braces "ShaderType" ("name: " ++ Quoted.encode shaderType.name ++ ", kind: " ++
    kindText shaderType.kind ++ ", source_hash: " ++ shaderType.source.toHex ++ ", ..")

def factoryText (factory : VertexFactory) : String :=
  braces "VertexFactoryType" ("name: " ++ Quoted.encode factory.name ++ ", ..")

def describe (catalog : Catalog) : String :=
  braces "ShaderTypeRegistry"
    ("shader_types: " ++ listText (catalog.shaderTypes.map shaderTypeText) ++
      ", vertex_factories: " ++ listText (catalog.factories.map factoryText))

end Catalog

end Shading
