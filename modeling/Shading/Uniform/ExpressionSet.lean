/-
The uniform expressions of one compiled material, and where each of them goes
in the uniform buffer. A buffer has four sections, each starting at a multiple
of sixteen bytes: vectors, scalars four to a line, a block of eight words for
each streaming stack, and the numbers of the textures.
-/

import Shading.Digest.Stream
import Shading.Uniform.Expression

namespace Shading

/-- Where the sections of a uniform buffer begin, and how long it is. -/
structure BufferLayout where
  vectors : Nat
  scalars : Nat
  streamingStacks : Nat
  textures : Nat
  size : Nat
deriving DecidableEq, Inhabited

namespace BufferLayout

def stream (layout : BufferLayout) : List UInt8 :=
  Stream.word layout.vectors ++ Stream.word layout.scalars ++ Stream.word layout.streamingStacks ++
    Stream.word layout.textures ++ Stream.word layout.size

def digest (layout : BufferLayout) : Digest := Digest.ofBytes layout.stream

end BufferLayout

structure ExpressionSet where
  vectors : List UniformExpression := []
  scalars : List UniformExpression := []
  flatTextures : List TextureExpression := []
  cubeTextures : List TextureExpression := []
  volumeTextures : List TextureExpression := []
  streamingTextures : List TextureExpression := []
  externalTextures : List UInt64 := []
  streamingStacks : List StreamingStack := []
  collections : List UInt64 := []
deriving DecidableEq, Inhabited

namespace ExpressionSet

def empty : ExpressionSet := {}

/-! ### Adding expressions -/

/-- The position of the first entry equal to the given one, which is put at the
end if there is none. -/
def intern {α : Type} (equal : α → α → Bool) (entries : List α) (entry : α) : Nat × List α :=
  match entries.findIdx? fun other => equal other entry with
  | some position => (position, entries)
  | none => (entries.length, entries ++ [entry])

def addVector (set : ExpressionSet) (expression : UniformExpression) : Nat × ExpressionSet :=
  let (position, vectors) := intern UniformExpression.equal set.vectors expression
  (position, { set with vectors })

def addScalar (set : ExpressionSet) (expression : UniformExpression) : Nat × ExpressionSet :=
  let (position, scalars) := intern UniformExpression.equal set.scalars expression
  (position, { set with scalars })

def textures (set : ExpressionSet) : TextureKind → List TextureExpression
  | .flat => set.flatTextures
  | .cube => set.cubeTextures
  | .volume => set.volumeTextures
  | .streaming => set.streamingTextures

def setTextures (set : ExpressionSet) (kind : TextureKind) (textures : List TextureExpression) :
    ExpressionSet :=
  match kind with
  | .flat => { set with flatTextures := textures }
  | .cube => { set with cubeTextures := textures }
  | .volume => { set with volumeTextures := textures }
  | .streaming => { set with streamingTextures := textures }

def addTexture (set : ExpressionSet) (expression : TextureExpression) : Nat × ExpressionSet :=
  let (position, textures) :=
    intern (fun left right => left = right) (set.textures expression.kind) expression
  (position, set.setTextures expression.kind textures)

def addExternal (set : ExpressionSet) (external : UInt64) : Nat × ExpressionSet :=
  let (position, externalTextures) :=
    intern (fun left right => left = right) set.externalTextures external
  (position, { set with externalTextures })

def addCollection (set : ExpressionSet) (collection : UInt64) : Nat × ExpressionSet :=
  let (position, collections) :=
    intern (fun left right => left = right) set.collections collection
  (position, { set with collections })

/-! ### Layout -/

/-- All texture expressions in the order of their numbers in the buffer. -/
def allTextures (set : ExpressionSet) : List TextureExpression :=
  set.flatTextures ++ set.cubeTextures ++ set.volumeTextures ++ set.streamingTextures

def textureSlots (set : ExpressionSet) : Nat :=
  set.allTextures.length + set.externalTextures.length

/-- Collections take no part in it: they are bound elsewhere. -/
def isEmpty (set : ExpressionSet) : Bool :=
  set.vectors.isEmpty && set.scalars.isEmpty && set.textureSlots = 0 && set.streamingStacks.isEmpty

/-- The bytes of lines that hold four words each. -/
def lines (words : Nat) : Nat := (words + 3) / 4 * 16

def layout (set : ExpressionSet) : BufferLayout :=
  let scalars := set.vectors.length * 16
  let streamingStacks := scalars + lines set.scalars.length
  let textures := streamingStacks + set.streamingStacks.length * 32
  { vectors := 0, scalars, streamingStacks, textures, size := textures + lines set.textureSlots }

/-! ### The layout in words

Offsets are kept in words, whose arithmetic is modulo `2 ^ 32`. So the layout of a set with too
many entries comes out too small. -/

def lineWords (words : Nat) : UInt32 := UInt32.ofNat ((words + 3) / 4) * 16

def scalarsWord (set : ExpressionSet) : UInt32 := UInt32.ofNat set.vectors.length * 16

def stacksWord (set : ExpressionSet) : UInt32 := set.scalarsWord + lineWords set.scalars.length

def texturesWord (set : ExpressionSet) : UInt32 :=
  set.stacksWord + UInt32.ofNat set.streamingStacks.length * 32

def sizeWord (set : ExpressionSet) : UInt32 := set.texturesWord + lineWords set.textureSlots

/-- The layout that a set has in words. -/
def wordLayout (set : ExpressionSet) : BufferLayout where
  vectors := 0
  scalars := set.scalarsWord.toNat
  streamingStacks := set.stacksWord.toNat
  textures := set.texturesWord.toNat
  size := set.sizeWord.toNat

/-- The end of the first of some entries that does not lie inside of a buffer. They are written one
behind the other from `offset` on. -/
def firstOutside (size offset width count : Nat) : Option Nat :=
  let inside := (size - offset) / width
  if inside < count then some (offset + (inside + 1) * width) else none

/-- The end of the first entry that has no place in a buffer of the size that the words give. -/
def overrun (set : ExpressionSet) : Option Nat :=
  let layout := set.wordLayout
  let outside := firstOutside layout.size
  outside layout.vectors 16 set.vectors.length <|>
    outside layout.scalars 4 set.scalars.length <|>
    outside layout.streamingStacks 32 set.streamingStacks.length <|>
    outside layout.textures 4 set.textureSlots

/-! ### Filling a buffer -/

/-- The words of one streaming stack in the buffer. -/
abbrev StackBlock := List UInt32

/-- Writes bytes over the ones from `offset` on. -/
def overwrite (buffer : List UInt8) (offset : Nat) (content : List UInt8) : List UInt8 :=
  buffer.take offset ++ content ++ buffer.drop (offset + content.length)

def wordBytes (word : UInt32) : List UInt8 := Stream.word word.toNat

def vectorSection (set : ExpressionSet) (source : ParameterSource) : List UInt8 :=
  set.vectors.flatMap fun expression =>
    (expression.evaluate source).toList.flatMap Binary32.toBytes

def scalarSection (set : ExpressionSet) (source : ParameterSource) : List UInt8 :=
  set.scalars.flatMap fun expression => (expression.evaluate source).x.toBytes

def textureSection (set : ExpressionSet) (source : ParameterSource) : List UInt8 :=
  (set.allTextures.map fun expression => expression.evaluate source).flatMap
      (fun texture => wordBytes texture.number) ++
    set.externalTextures.flatMap fun external =>
      wordBytes ((source.external external).getD TextureId.null).number

/-- Writes the current values of all expressions into a buffer of the layout's
size. The bytes that pad a section are left as they are. -/
def fill (set : ExpressionSet) (source : ParameterSource) (blocks : List StackBlock)
    (buffer : List UInt8) : Except Fault (List UInt8) :=
  let layout := set.layout
  if buffer.length ≠ layout.size then .error .bufferSize
  else if blocks.length ≠ set.streamingStacks.length then .error .stackBlockCount
  else
    let buffer := overwrite buffer layout.vectors (set.vectorSection source)
    let buffer := overwrite buffer layout.scalars (set.scalarSection source)
    let buffer := overwrite buffer layout.streamingStacks (blocks.flatMap fun block =>
      block.flatMap wordBytes)
    .ok (overwrite buffer layout.textures (set.textureSection source))

/-- Fills a buffer that was made with the layout in words. If that came out too small, writing ends
at the first entry that has no place. -/
def fillInWords (set : ExpressionSet) (source : ParameterSource) (blocks : List StackBlock)
    (buffer : List UInt8) : Except Fault (List UInt8) :=
  match set.overrun with
  | some stop => .error (.writeRange stop set.wordLayout.size)
  | none => set.fill source blocks buffer

/-! ### Description and JSON form -/

def describe (set : ExpressionSet) : String :=
  " ".intercalate [
    "vectors=" ++ toString set.vectors.length,
    "scalars=" ++ toString set.scalars.length,
    "tex2d=" ++ toString set.flatTextures.length,
    "cube=" ++ toString set.cubeTextures.length,
    "volume=" ++ toString set.volumeTextures.length,
    "streaming=" ++ toString set.streamingTextures.length,
    "external=" ++ toString set.externalTextures.length,
    "stacks=" ++ toString set.streamingStacks.length,
    "collections=" ++ toString set.collections.length]

def fieldNames : List String :=
  ["vectors", "scalars", "textures_2d", "textures_cube", "textures_volume",
    "textures_streaming", "external_textures", "streaming_stacks", "parameter_collections"]

def encode (set : ExpressionSet) : Json :=
  .record [
    ("vectors", .array (set.vectors.map UniformExpression.encode)),
    ("scalars", .array (set.scalars.map UniformExpression.encode)),
    ("textures_2d", .array (set.flatTextures.map TextureExpression.encode)),
    ("textures_cube", .array (set.cubeTextures.map TextureExpression.encode)),
    ("textures_volume", .array (set.volumeTextures.map TextureExpression.encode)),
    ("textures_streaming", .array (set.streamingTextures.map TextureExpression.encode)),
    ("external_textures", .array (set.externalTextures.map fun external =>
      .record [("external_id", .natural external.toNat)])),
    ("streaming_stacks", .array (set.streamingStacks.map StreamingStack.encode)),
    ("parameter_collections", .array (set.collections.map fun collection =>
      .natural collection.toNat))]

def decodeExternal : Json.Decoder UInt64 := fun depth document => do
  (← Json.asFields ["external_id"] false depth document).required "external_id" Json.asLongWord

def decode : Json.Decoder ExpressionSet := fun depth document => do
  let fields ← Json.asFields fieldNames false depth document
  let expressions := Json.asList UniformExpression.decode
  let textures := Json.asList TextureExpression.decode
  some {
    vectors := ← fields.required "vectors" expressions
    scalars := ← fields.required "scalars" expressions
    flatTextures := ← fields.required "textures_2d" textures
    cubeTextures := ← fields.required "textures_cube" textures
    volumeTextures := ← fields.required "textures_volume" textures
    streamingTextures := ← fields.required "textures_streaming" textures
    externalTextures := ← fields.required "external_textures" (Json.asList decodeExternal)
    streamingStacks := ← fields.required "streaming_stacks" (Json.asList StreamingStack.decode)
    collections := ← fields.required "parameter_collections" (Json.asList Json.asLongWord) }

end ExpressionSet

end Shading
