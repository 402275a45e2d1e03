/-
Shader maps. A map belongs to an identity and, once compiled, holds the binary
of every permutation together with the profile of the material and the layout
of its uniform buffer. An archive is the JSON text of a compiled map; every
binary in it carries the digest of its code, and reading an archive checks each
of them.
-/

import Shading.Lowering.Profile
import Shading.Map.Identity
import Shading.Text.Codes

namespace Shading

/-- Compiled code and its digest. -/
structure Binary where
  code : List UInt8
  digest : Digest
deriving DecidableEq, Inhabited

namespace Binary

def ofCode (code : List UInt8) : Binary := ⟨code, Digest.ofBytes code⟩

def isIntact (binary : Binary) : Bool := Digest.ofBytes binary.code = binary.digest

/-- A short name for the code. -/
def fingerprint (binary : Binary) : String := Base64.encodeUnpadded (binary.digest.lowBytes 6)

def encode (binary : Binary) : Json :=
  .record [
    ("code", .text (Base64.encode binary.code)),
    ("code_hash", Dependency.encodeDigest binary.digest)]

def decode : Json.Decoder Binary := fun depth document => do
  let fields ← Json.asFields ["code", "code_hash"] false depth document
  some {
    code := ← Base64.decode? (← fields.required "code" Json.asText)
    digest := ← fields.required "code_hash" Dependency.decodeDigest }

end Binary

/-- What compiling put into a map, the binaries in the order of their permutations. -/
structure MapContent where
  binaries : List (Permutation × Binary)
  profile : Profile
deriving DecidableEq, Inhabited

namespace MapContent

/-- Keeps the entries in increasing order; a later entry replaces an earlier one. -/
def insertBinary (permutation : Permutation) (binary : Binary) :
    List (Permutation × Binary) → List (Permutation × Binary)
  | [] => [(permutation, binary)]
  | entry :: rest =>
    if entry.1.before permutation then entry :: insertBinary permutation binary rest
    else if entry.1 = permutation then (permutation, binary) :: rest
    else (permutation, binary) :: entry :: rest

def ofBinaries (binaries : List (Permutation × Binary)) (profile : Profile) : MapContent :=
  ⟨binaries.foldl (fun sorted entry => insertBinary entry.1 entry.2 sorted) [], profile⟩

def binary? (content : MapContent) (permutation : Permutation) : Option Binary :=
  (content.binaries.find? fun entry => entry.1 = permutation).map Prod.snd

def layout (content : MapContent) : BufferLayout := content.profile.expressions.wordLayout

end MapContent

structure ShaderMap where
  identity : MapIdentity
  name : String
  content : Option MapContent := none
deriving DecidableEq, Inhabited

namespace ShaderMap

/-- Fills a map with what has been compiled, and tells whether it did: a map is filled once. -/
def fill (map : ShaderMap) (content : MapContent) : Bool × ShaderMap :=
  match map.content with
  | none => (true, { map with content := some content })
  | some _ => (false, map)

/-! ### Queries -/

def isCompiled (map : ShaderMap) : Bool := map.content.isSome

def binary? (map : ShaderMap) (permutation : Permutation) : Option Binary :=
  map.content.bind fun content => content.binary? permutation

def permutations (map : ShaderMap) : List Permutation :=
  match map.content with
  | some content => content.binaries.map Prod.fst
  | none => []

/-- Compiled, with a binary for every permutation required. -/
def isComplete (map : ShaderMap) (required : List Permutation) : Bool :=
  map.isCompiled && required.all fun permutation => (map.binary? permutation).isSome

def expressions? (map : ShaderMap) : Option ExpressionSet :=
  map.content.map fun content => content.profile.expressions

def layout? (map : ShaderMap) : Option BufferLayout := map.content.map MapContent.layout

def flags (map : ShaderMap) : FeatureFlags :=
  match map.content with
  | some content => content.profile.flags
  | none => {}

/-! ### Archives -/

def encode (map : ShaderMap) (content : MapContent) : Json :=
  .record [
    ("id", map.identity.encode),
    ("friendly_name", .text map.name),
    ("binaries", .array (content.binaries.map fun (permutation, binary) =>
      .array [permutation.encode, binary.encode])),
    ("output", content.profile.encode)]

def archive (map : ShaderMap) : Except Failure (List UInt8) :=
  match map.content with
  | some content => .ok (Utf8.encode (map.encode content).render)
  | none => .error (.invalidArchive (.noContent map.name))

/-- An archive as it was read, its binaries not yet checked. -/
structure Archive where
  identity : MapIdentity
  name : String
  binaries : List (Permutation × Binary)
  profile : Profile

def decode : Json.Decoder Archive := fun depth document => do
  let fields ← Json.asFields ["id", "friendly_name", "binaries", "output"] false depth document
  some {
    identity := ← fields.required "id" MapIdentity.decode
    name := ← fields.required "friendly_name" Json.asText
    binaries :=
      ← fields.required "binaries" (Json.asList (Json.asPair Permutation.decode Binary.decode))
    profile := ← fields.required "output" Profile.decode }

/-- Reads an archive; the first binary that does not match its digest is reported. -/
def ofArchive (bytes : List UInt8) : Except Failure ShaderMap :=
  match Json.decode? decode bytes with
  | none => .error .malformed
  | some archive =>
    match archive.binaries.find? fun entry => !entry.2.isIntact with
    | some (permutation, _) =>
      .error (.invalidArchive (.checksum permutation.text archive.name))
    | none => .ok {
        identity := archive.identity
        name := archive.name
        content := some (.ofBinaries archive.binaries archive.profile) }

/-! ### Reports -/

def line (text : String) : String := text ++ "\n"

def permutationLines (permutations : List Permutation) : String :=
  String.join (permutations.map fun permutation => line ("    " ++ permutation.text))

/-- The permutations of the map, one to a line. -/
def permutationReport (map : ShaderMap) : String :=
  if map.permutations = [] then line "    <none>" else permutationLines map.permutations

def describe (map : ShaderMap) : String :=
  line ("ShaderMap '" ++ map.name ++ "'") ++ line ("  id: " ++ map.identity.text) ++
    match map.content with
    | none => line "  <not compiled>"
    | some content =>
      line ("  shaders: " ++ toString content.binaries.length) ++
        permutationLines map.permutations ++
        line ("  flags: " ++ content.profile.flags.shown) ++
        line ("  expressions: " ++ content.profile.expressions.describe) ++
        line ("  uniform buffer: " ++ toString content.layout.size ++ " bytes")

end ShaderMap

end Shading
