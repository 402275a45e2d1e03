/-
The identity of a shader map: everything the compiled code depends on. Two
requests with one identity may share a map, so it holds the digest of the
material's content, the quality and tier it was lowered for, and the sources of
all shaders that take part. In a store a map lies under a key made from the
JSON text of its identity.
-/

import Shading.Permutation.Catalog

namespace Shading

structure MapIdentity where
  content : Digest
  quality : Quality
  tier : Tier
  shaderTypes : List Dependency
  factories : List Dependency
  textures : Digest
deriving DecidableEq, Inhabited

namespace MapIdentity

/-- The identity of a material's map with the given static parameters. -/
def ofDescription (description : Description) (parameters : StaticParameters) (quality : Quality)
    (tier : Tier) (dependencies : Dependencies) : MapIdentity where
  content := description.contentDigest parameters
  quality := quality
  tier := tier
  shaderTypes := dependencies.shaderTypes
  factories := dependencies.factories
  textures := description.textureDigest

/-! ### Digest -/

def stream (identity : MapIdentity) : List UInt8 :=
  Stream.digest identity.content ++ Stream.text identity.quality.name ++
    Stream.text identity.tier.name ++ Stream.digest identity.textures ++
    Stream.list Dependency.stream identity.shaderTypes ++
    Stream.list Dependency.stream identity.factories

def digest (identity : MapIdentity) : Digest := Digest.ofBytes identity.stream

/-! ### JSON form and store key -/

def fieldNames : List String :=
  ["content_hash", "quality", "tier", "shader_types", "vertex_factories",
    "referenced_texture_hash"]

def encode (identity : MapIdentity) : Json :=
  .record [
    ("content_hash", Dependency.encodeDigest identity.content),
    ("quality", identity.quality.encode),
    ("tier", identity.tier.encode),
    ("shader_types", .array (identity.shaderTypes.map Dependency.encode)),
    ("vertex_factories", .array (identity.factories.map Dependency.encode)),
    ("referenced_texture_hash", Dependency.encodeDigest identity.textures)]

def decode : Json.Decoder MapIdentity := fun depth document => do
  let fields ← Json.asFields fieldNames false depth document
  some {
    content := ← fields.required "content_hash" Dependency.decodeDigest
    quality := ← fields.required "quality" Quality.decode
    tier := ← fields.required "tier" Tier.decode
    shaderTypes := ← fields.required "shader_types" (Json.asList Dependency.decode)
    factories := ← fields.required "vertex_factories" (Json.asList Dependency.decode)
    textures := ← fields.required "referenced_texture_hash" Dependency.decodeDigest }

def jsonText (identity : MapIdentity) : String := identity.encode.render

def ofText? (text : String) : Option MapIdentity := Json.decode? decode (Utf8.encode text)

def storeKey (identity : MapIdentity) : String :=
  "SIGIL_SM_V1_" ++ identity.tier.name ++ "_" ++ identity.quality.name ++ "_" ++
    (Digest.ofBytes (Utf8.encode identity.jsonText)).toHex

/-! ### Queries -/

def dependsOnShaderType (identity : MapIdentity) (name : String) : Bool :=
  identity.shaderTypes.any fun dependency => dependency.name = name

def dependsOnFactory (identity : MapIdentity) (name : String) : Bool :=
  identity.factories.any fun dependency => dependency.name = name

def text (identity : MapIdentity) : String :=
  identity.content.toHex ++ "/" ++ identity.tier.name ++ "/" ++ identity.quality.name ++ " (" ++
    toString identity.shaderTypes.length ++ " shader types, " ++
    toString identity.factories.length ++ " vertex factories)"

end MapIdentity

end Shading
