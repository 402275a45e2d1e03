/-
Material descriptions: a graph, the fixed-function state it is drawn with, its
static parameters and the textures it refers to. The digest of a description
covers everything that its shaders depend on -- the name is not part of it --
and is taken of the byte stream defined here.

A reroute node only passes on the value of another one, so to know what an input
means one follows reroutes until a node of another kind is reached. The walk may
instead leave the graph, stop at a reroute that is not connected, or come back
to a node it has seen.
-/

import Shading.Fault
import Shading.StaticParameters

namespace Shading

/-- Where a walk along reroutes ends. -/
inductive Trace where
  | found (node : NodeId)
  | cycle (node : NodeId)
  | dangling (node : NodeId)
  | absent (node : NodeId)
deriving DecidableEq, Inhabited

namespace Graph

/-- Follows reroutes from `current`, given the nodes already passed. Those are
different reroutes of the graph, so with one unit of fuel more than the graph
has nodes the walk ends by itself. -/
def follow (graph : Graph) : Nat → List NodeId → NodeId → Trace
  | 0, _, current => .cycle current
  | fuel + 1, passed, current =>
    if current ∈ passed then .cycle current
    else match graph.node? current with
      | some (.reroute (some next)) => graph.follow fuel (current :: passed) next
      | some (.reroute none) => .dangling current
      | some _ => .found current
      | none => .absent current

def trace (graph : Graph) (start : NodeId) : Trace := graph.follow (graph.size + 1) [] start

/-- The node an input finally means. -/
def source (graph : Graph) (material : String) (start : NodeId) : Except LoweringError NodeId :=
  match graph.trace start with
  | .found node => .ok node
  | .cycle node => .error (.rerouteCycle material node)
  | .dangling node => .error (.unconnectedReroute material node)
  | .absent node => .error (.missingInput material start node.number.toNat)

end Graph

inductive Domain where
  | surface
  | postProcess
  | userInterface
deriving DecidableEq, Inhabited

namespace Domain

def all : List Domain := [.surface, .postProcess, .userInterface]

def name : Domain → String
  | .surface => "Surface"
  | .postProcess => "PostProcess"
  | .userInterface => "UserInterface"

def ofName? (name : String) : Option Domain := all.find? fun domain => domain.name = name

def code : Domain → Nat
  | .surface => 0
  | .postProcess => 1
  | .userInterface => 2

end Domain

inductive Blend where
  | opaqueBlend
  | masked
  | translucent
  | additive
deriving DecidableEq, Inhabited

namespace Blend

def all : List Blend := [.opaqueBlend, .masked, .translucent, .additive]

def name : Blend → String
  | .opaqueBlend => "Opaque"
  | .masked => "Masked"
  | .translucent => "Translucent"
  | .additive => "Additive"

def ofName? (name : String) : Option Blend := all.find? fun blend => blend.name = name

def code : Blend → Nat
  | .opaqueBlend => 0
  | .masked => 1
  | .translucent => 2
  | .additive => 3

end Blend

/-- The kinds of geometry a material is used on, as a set of bits. Bits without
a name are kept. -/
structure Usage where
  bits : UInt32 := 1
deriving DecidableEq, Inhabited

namespace Usage

def names : List (UInt32 × String) :=
  [(1, "STATIC_MESH"), (2, "SKELETAL_MESH"), (4, "PARTICLES"), (8, "INSTANCED"),
    (16, "LANDSCAPE")]

def shown (usage : Usage) : List String :=
  (names.filter fun entry => usage.bits &&& entry.1 = entry.1).map Prod.snd

end Usage

structure Description where
  name : String
  domain : Domain := .surface
  blend : Blend := .opaqueBlend
  usage : Usage := {}
  twoSided : Bool := false
  graph : Graph := {}
  staticParameters : StaticParameters := .empty
  textures : List (String × TextureId) := []
  isDefault : Bool := false
deriving Inhabited

/-! ### Byte streams -/

namespace Node

def nodeStream (id : NodeId) : List UInt8 := Stream.word id.number.toNat

/-- An absent node has the number that no graph is large enough to reach. -/
def optionalNodeStream : Option NodeId → List UInt8
  | some id => nodeStream id
  | none => Stream.word 0xFFFFFFFF

def vectorStream (vector : Vector4) : List UInt8 := vector.toList.flatMap Stream.single

def stream : Node → List UInt8
  | .constant value => Stream.byte 0 ++ vectorStream value
  | .scalarParameter name default => Stream.byte 1 ++ Stream.text name ++ Stream.single default
  | .vectorParameter name default => Stream.byte 2 ++ Stream.text name ++ vectorStream default
  | .textureSample parameter texture kind coordinates =>
    Stream.byte 3 ++ Stream.text (parameter.getD "") ++ Stream.word texture.number.toNat ++
      Stream.byte kind.code ++ optionalNodeStream coordinates
  | .externalTexture external => Stream.byte 4 ++ Stream.longWord external.toNat
  | .staticSwitch name default onTrue onFalse =>
    Stream.byte 5 ++ Stream.text name ++ Stream.bool default ++ nodeStream onTrue ++
      nodeStream onFalse
  | .reroute input => Stream.byte 6 ++ optionalNodeStream input
  | .math operation inputs =>
    Stream.byte 7 ++ Stream.byte operation.code ++ Stream.list nodeStream inputs
  | .collectionParameter collection name =>
    Stream.byte 8 ++ Stream.longWord collection.toNat ++ Stream.text name
  | .textureCoordinates index => Stream.byte 9 ++ Stream.word index.toNat
  | .sceneDepth => Stream.byte 10
  | .eyeAdaptation => Stream.byte 11
  | .distanceCullFade => Stream.byte 12
  | .runtimeTexture parameter texture =>
    Stream.byte 13 ++ Stream.text (parameter.getD "") ++ Stream.word texture.number.toNat

end Node

namespace Graph

def stream (graph : Graph) : List UInt8 :=
  Stream.list Node.stream graph.nodes ++
    Stream.list (fun entry => Stream.text entry.1.name ++ Node.nodeStream entry.2) graph.outputs

end Graph

namespace Description

/-- The description with the given static parameters in place of its own. -/
def contentStream (description : Description) (parameters : StaticParameters) : List UInt8 :=
  Stream.byte description.domain.code ++ Stream.byte description.blend.code ++
    Stream.word description.usage.bits.toNat ++ Stream.bool description.twoSided ++
    Stream.bool description.isDefault ++ description.graph.stream ++ parameters.stream

def contentDigest (description : Description) (parameters : StaticParameters) : Digest :=
  Digest.ofBytes (description.contentStream parameters)

/-- Of a referenced texture only the name counts. -/
def textureStream (description : Description) : List UInt8 :=
  Stream.list (fun entry => Stream.text entry.1) description.textures

def textureDigest (description : Description) : Digest :=
  Digest.ofBytes description.textureStream

/-- The description's own static parameters, overridden by the given ones. -/
def effectiveParameters (description : Description) (overrides : Option StaticParameters) :
    StaticParameters :=
  match overrides with
  | some overrides => description.staticParameters.mergedWith overrides
  | none => description.staticParameters

/-- The fixed-function state in words. -/
def usageText (description : Description) : String :=
  "domain=" ++ description.domain.name ++ " blend=" ++ description.blend.name ++ " usage=[" ++
    ", ".intercalate description.usage.shown ++ "] two_sided=" ++
    (if description.twoSided then "true" else "false")

end Description

end Shading
