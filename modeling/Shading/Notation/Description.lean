/-
A short notation for materials and for bytes. A description can be written as a
JSON document in which everything that has a usual value may be left out. A node
is an array of its kind and its arguments, a static parameter an array of its
name and its value, and a number may also be given as the eight digits of its
bits. Bytes are two hexadecimal digits each, or a pattern of a given length, or
a change to bytes that are there.
-/

import Shading.Graph.Description
import Shading.Json.Access
import Shading.Text.Codes
import Shading.Tier

namespace Shading.Notation

def bytes (document : Json) : List UInt8 := Hex.bytes document.toText

/-- A number of bytes that go up by a step from a start, modulo 256. -/
def bytePattern (document : Json) : List UInt8 :=
  (List.range (document.item 0).toNat).map fun position =>
    UInt8.ofNat (position * (document.item 1).toNat + (document.item 2).toNat)

/-- Replaces the first occurrence of some bytes. -/
def replaceFirst (sought replacement : List UInt8) : List UInt8 → List UInt8
  | [] => if sought = [] then replacement else []
  | byte :: rest =>
    if sought.isPrefixOf (byte :: rest) then replacement ++ (byte :: rest).drop sought.length
    else byte :: replaceFirst sought replacement rest

/-- Makes replacements, each a text and what takes its place. -/
def edit (edits : Json) (content : List UInt8) : List UInt8 :=
  edits.items.foldl (fun content edit =>
    replaceFirst (Utf8.encode (edit.item 0).toText) (Utf8.encode (edit.item 1).toText) content)
    content

/-- Leaves out a number of bytes at the end. -/
def cut (count : Json) (content : List UInt8) : List UInt8 :=
  content.take (content.length - count.toNat)

/-- Overwrites single bytes, each given by its position and value. -/
def overwrite (changes : Json) (content : List UInt8) : List UInt8 :=
  changes.items.foldl (fun content change =>
    content.set (change.item 0).toNat (UInt8.ofNat (change.item 1).toNat)) content

/-! ### Numbers and names -/

def single : Json → Binary32
  | .number literal => literal.narrowed?.getD .zero
  | .string (some bits) => ⟨UInt32.ofNat ((Hex.read? bits UInt32.size).getD 0)⟩
  | _ => .zero

def vector (document : Json) : Vector4 :=
  ⟨single (document.item 0), single (document.item 1), single (document.item 2),
    single (document.item 3)⟩

def identifier {kind : Numbered} (document : Json) : Identifier kind := ⟨document.toNat⟩

def texture (document : Json) : TextureId := ⟨document.toWord⟩

def tier (document : Json) : Tier := (document.text?.bind Tier.ofName?).getD Tier.standard

def quality (document : Json) : Quality :=
  (document.text?.bind Quality.ofName?).getD Quality.standard

/-! ### Static parameters -/

def staticValue : Json → StaticValue
  | .bool on => .switch on
  | .string name => .choice (name.getD "")
  | other => .mask (UInt8.ofNat other.toNat)

/-- Parameters are written one after another, so a later one counts. -/
def staticParameters (document : Json) : StaticParameters :=
  StaticParameters.empty.setAll
    (document.items.map fun entry => ((entry.item 0).toText, staticValue (entry.item 1)))

def staticParameters? (document : Json) : Option StaticParameters :=
  document.present?.map staticParameters

/-! ### Graphs -/

def nodeId (document : Json) : NodeId := ⟨document.toWord⟩

def nodeId? (document : Json) : Option NodeId :=
  document.nat?.map fun number => ⟨UInt32.ofNat number⟩

def textureKind (document : Json) : TextureKind :=
  (TextureKind.ofName? document.toText).getD .flat

def mathOperation (document : Json) : MathOperation :=
  match document.toText with
  | "Multiply" => .multiply
  | "Saturate" => .saturate
  | _ => .add

def node (document : Json) : Node :=
  let first := document.item 1
  let second := document.item 2
  let third := document.item 3
  let fourth := document.item 4
  match (document.item 0).toText with
  | "scalar" => .scalarParameter first.toText (single second)
  | "vector" => .vectorParameter first.toText (vector second)
  | "tex" => .textureSample first.text? (texture second) (textureKind third) (nodeId? fourth)
  | "rvt" => .runtimeTexture first.text? (texture second)
  | "ext" => .externalTexture first.toLongWord
  | "switch" => .staticSwitch first.toText second.toFlag (nodeId third) (nodeId fourth)
  | "reroute" => .reroute (nodeId? first)
  | "math" => .math (mathOperation first) (second.items.map nodeId)
  | "coll" => .collectionParameter first.toLongWord second.toText
  | "uv" => .textureCoordinates first.toWord
  | "depth" => .sceneDepth
  | "eye" => .eyeAdaptation
  | "fade" => .distanceCullFade
  | _ => .constant (vector first)

def connect (graph : Graph) (output : Json) : Graph :=
  match Attribute.ofName? (output.item 0).toText with
  | some property => graph.connect property (nodeId (output.item 1))
  | none => graph

def graph (document : Json) : Graph :=
  (document.field "outputs").items.foldl connect
    { nodes := (document.field "nodes").items.map node }

/-! ### Descriptions -/

def domain (document : Json) : Domain := (Domain.ofName? document.toText).getD .surface

def blend (document : Json) : Blend := (Blend.ofName? document.toText).getD .opaqueBlend

def description (document : Json) : Description where
  name := (document.field "name").text?.getD "M"
  domain := domain (document.field "domain")
  blend := blend (document.field "blend")
  usage := ⟨UInt32.ofNat ((document.field "usage").nat?.getD 1)⟩
  twoSided := (document.field "two_sided").toFlag
  graph := graph document
  staticParameters := staticParameters (document.field "statics")
  textures := (document.field "textures").items.map fun entry =>
    ((entry.item 0).toText, texture (entry.item 1))
  isDefault := (document.field "default").toFlag

end Shading.Notation
