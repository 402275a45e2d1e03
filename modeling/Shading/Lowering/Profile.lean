/-
What lowering a material finds out besides its source code: the uniform
expressions left to be evaluated, flags for the features the code uses, and the
number of textures it samples.
-/

import Shading.Text.Codes
import Shading.Uniform.ExpressionSet

namespace Shading

/-- Features that shader code uses, as a set of bits. Bits without a name are
kept. -/
structure FeatureFlags where
  bits : UInt32 := 0
deriving DecidableEq, Inhabited

namespace FeatureFlags

def eyeAdaptation : FeatureFlags := ⟨1⟩
def modifiesMeshPosition : FeatureFlags := ⟨2⟩
def worldPositionOffset : FeatureFlags := ⟨4⟩
def globalDistanceField : FeatureFlags := ⟨8⟩
def pixelDepthOffset : FeatureFlags := ⟨16⟩
def distanceCullFade : FeatureFlags := ⟨32⟩
def sceneDepth : FeatureFlags := ⟨64⟩
def runtimeStreamingOutput : FeatureFlags := ⟨128⟩
def streamingTextures : FeatureFlags := ⟨256⟩

def names : List (FeatureFlags × String) :=
  [(eyeAdaptation, "USES_EYE_ADAPTATION"),
    (modifiesMeshPosition, "MODIFIES_MESH_POSITION"),
    (worldPositionOffset, "USES_WORLD_POSITION_OFFSET"),
    (globalDistanceField, "USES_GLOBAL_DISTANCE_FIELD"),
    (pixelDepthOffset, "USES_PIXEL_DEPTH_OFFSET"),
    (distanceCullFade, "USES_DISTANCE_CULL_FADE"),
    (sceneDepth, "USES_SCENE_DEPTH"),
    (runtimeStreamingOutput, "HAS_RUNTIME_STREAMING_OUTPUT"),
    (streamingTextures, "USES_STREAMING_TEXTURES")]

def union (left right : FeatureFlags) : FeatureFlags := ⟨left.bits ||| right.bits⟩

def contains (flags other : FeatureFlags) : Bool := flags.bits &&& other.bits = other.bits

/-! ### Text -/

/-- The bits that have no name. -/
def unnamed (flags : FeatureFlags) : UInt32 := flags.bits &&& 0xFFFFFE00

/-- The names of the flags, and the unnamed bits last as a number. -/
def parts (flags : FeatureFlags) : List String :=
  (names.filter fun entry => flags.contains entry.1).map Prod.snd ++
    (if flags.unnamed = 0 then [] else ["0x" ++ Hex.ofNat flags.unnamed.toNat])

def text (flags : FeatureFlags) : String := " | ".intercalate flags.parts

/-- The form in which a description of a map shows the flags. -/
def shown (flags : FeatureFlags) : String :=
  "ShaderMapFlags(" ++ (if flags.bits = 0 then "0x0" else flags.text) ++ ")"

/-- The characters that count as blank around a name. -/
def isBlank (char : Char) : Bool :=
  let number := char.toNat
  (9 ≤ number && number ≤ 13) || number = 0x20 || number = 0x85 || number = 0xA0 ||
    number = 0x1680 || (0x2000 ≤ number && number ≤ 0x200A) || number = 0x2028 ||
    number = 0x2029 || number = 0x202F || number = 0x205F || number = 0x3000

def trim (chars : List Char) : List Char :=
  ((chars.dropWhile isBlank).reverse.dropWhile isBlank).reverse

/-- The stretches between bars. -/
def split : List Char → List (List Char)
  | [] => [[]]
  | char :: rest =>
    if char = '|' then [] :: split rest
    else match split rest with
      | [] => [[char]]
      | first :: others => (char :: first) :: others

/-- One part: a hexadecimal number, or a name. -/
def ofPart? (part : List Char) : Option FeatureFlags :=
  match part with
  | '0' :: 'x' :: digits =>
    (Hex.read? (String.ofList digits) UInt32.size).map fun bits => ⟨UInt32.ofNat bits⟩
  | _ => (names.find? fun entry => entry.2.toList = part).map Prod.fst

/-- Reads parts with blanks around them. A blank text has no flags, but a blank
part is an error. -/
def ofText? (text : String) : Option FeatureFlags :=
  let chars := text.toList
  if trim chars = [] then some {}
  else (split chars).foldlM (fun flags part => (ofPart? (trim part)).map flags.union) {}

def encode (flags : FeatureFlags) : Json := .text flags.text

def decode : Json.Decoder FeatureFlags := fun depth document =>
  (Json.asText depth document).bind ofText?

end FeatureFlags

structure Profile where
  expressions : ExpressionSet := .empty
  flags : FeatureFlags := {}
  textureSamples : UInt32 := 0
deriving DecidableEq, Inhabited

namespace Profile

def encode (profile : Profile) : Json :=
  .record [
    ("uniform_expressions", profile.expressions.encode),
    ("flags", profile.flags.encode),
    ("num_texture_samples", .natural profile.textureSamples.toNat)]

def decode : Json.Decoder Profile := fun depth document => do
  let fields ← Json.asFields ["uniform_expressions", "flags", "num_texture_samples"] false
    depth document
  some {
    expressions := ← fields.required "uniform_expressions" ExpressionSet.decode
    flags := ← fields.required "flags" FeatureFlags.decode
    textureSamples := ← fields.required "num_texture_samples" Json.asWord }

end Profile

end Shading
