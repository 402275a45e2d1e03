/-
Material graphs. A graph is a list of nodes, named by their positions, and a
table of the attributes the material provides with the node that each one
takes its value from. Nodes refer to each other by position, and nothing keeps
such a reference from leaving the graph or from closing a cycle; what is well
formed shows only when a graph is read.
-/

import Shading.Identifier
import Shading.Json.Decoder

namespace Shading

/-- The position of a node. -/
structure NodeId where
  number : UInt32
deriving DecidableEq, Inhabited

inductive TextureKind where
  | flat
  | cube
  | volume
  | streaming
deriving DecidableEq, Inhabited

namespace TextureKind

def all : List TextureKind := [.flat, .cube, .volume, .streaming]

def name : TextureKind → String
  | .flat => "Texture2D"
  | .cube => "Cube"
  | .volume => "Volume"
  | .streaming => "Streaming"

def ofName? (name : String) : Option TextureKind := all.find? fun kind => kind.name = name

def code : TextureKind → Nat
  | .flat => 0
  | .cube => 1
  | .volume => 2
  | .streaming => 3

def encode (kind : TextureKind) : Json := .text kind.name

def decode : Json.Decoder TextureKind := Json.asNamed ofName?

end TextureKind

/-- Four numbers: a colour, a position, or one number four times. -/
structure Vector4 where
  x : Binary32
  y : Binary32
  z : Binary32
  w : Binary32
deriving DecidableEq, Inhabited

namespace Vector4

def splat (value : Binary32) : Vector4 := ⟨value, value, value, value⟩

def toList (vector : Vector4) : List Binary32 := [vector.x, vector.y, vector.z, vector.w]

def map (change : Binary32 → Binary32) (vector : Vector4) : Vector4 :=
  ⟨change vector.x, change vector.y, change vector.z, change vector.w⟩

def zipWith (combine : Binary32 → Binary32 → Binary32) (left right : Vector4) : Vector4 :=
  ⟨combine left.x right.x, combine left.y right.y, combine left.z right.z,
    combine left.w right.w⟩

/-- Equality of the components as numbers. -/
def equal (left right : Vector4) : Bool :=
  left.x.equal right.x && left.y.equal right.y && left.z.equal right.z && left.w.equal right.w

def encode (vector : Vector4) : Json := .array (vector.toList.map Json.single)

def decode : Json.Decoder Vector4 := fun depth document => do
  match ← Json.asList Json.asSingle depth document with
  | [x, y, z, w] => some ⟨x, y, z, w⟩
  | _ => none

end Vector4

inductive MathOperation where
  | add
  | multiply
  | saturate
deriving DecidableEq, Inhabited

namespace MathOperation

def code : MathOperation → Nat
  | .add => 0
  | .multiply => 1
  | .saturate => 2

end MathOperation

inductive Node where
  | constant (value : Vector4)
  | scalarParameter (name : String) (default : Binary32)
  | vectorParameter (name : String) (default : Vector4)
  /-- A texture read at the coordinates another node gives, or at the standard ones. -/
  | textureSample (parameter : Option String) (texture : TextureId) (kind : TextureKind)
      (coordinates : Option NodeId)
  /-- A streaming texture that the renderer has laid out beforehand. -/
  | runtimeTexture (parameter : Option String) (texture : TextureId)
  | externalTexture (external : UInt64)
  | staticSwitch (name : String) (default : Bool) (onTrue onFalse : NodeId)
  | reroute (input : Option NodeId)
  | math (operation : MathOperation) (inputs : List NodeId)
  | collectionParameter (collection : UInt64) (name : String)
  | textureCoordinates (index : UInt32)
  | sceneDepth
  | eyeAdaptation
  | distanceCullFade
deriving DecidableEq, Inhabited

/-- What a material provides to the renderer. -/
inductive Attribute where
  | baseColor
  | metallic
  | roughness
  | emissive
  | normal
  | opacity
  | opacityMask
  | worldPositionOffset
  | pixelDepthOffset
deriving DecidableEq, Inhabited

namespace Attribute

/-- All attributes, in the order in which a material lists them. -/
def all : List Attribute :=
  [.baseColor, .metallic, .roughness, .emissive, .normal, .opacity, .opacityMask,
    .worldPositionOffset, .pixelDepthOffset]

def name : Attribute → String
  | .baseColor => "BaseColor"
  | .metallic => "Metallic"
  | .roughness => "Roughness"
  | .emissive => "Emissive"
  | .normal => "Normal"
  | .opacity => "Opacity"
  | .opacityMask => "OpacityMask"
  | .worldPositionOffset => "WorldPositionOffset"
  | .pixelDepthOffset => "PixelDepthOffset"

def ofName? (name : String) : Option Attribute := all.find? fun property => property.name = name

/-- Whether the attribute is a single number rather than a vector. -/
def isScalar : Attribute → Bool
  | .metallic | .roughness | .opacity | .opacityMask | .pixelDepthOffset => true
  | _ => false

end Attribute

/-- The nodes of a material, and the node behind each attribute it provides. -/
structure Graph where
  nodes : List Node := []
  output : Attribute → Option NodeId := fun _ => none
deriving Inhabited

namespace Graph

def node? (graph : Graph) (id : NodeId) : Option Node := graph.nodes[id.number.toNat]?

def size (graph : Graph) : Nat := graph.nodes.length

def add (graph : Graph) (node : Node) : Graph := { graph with nodes := graph.nodes ++ [node] }

def connect (graph : Graph) (property : Attribute) (node : NodeId) : Graph :=
  { graph with
    output := fun other => if other = property then some node else graph.output other }

/-- The provided attributes with their nodes, in the order of the attributes. -/
def outputs (graph : Graph) : List (Attribute × NodeId) :=
  Attribute.all.filterMap fun property => (graph.output property).map fun node => (property, node)

end Graph

end Shading
