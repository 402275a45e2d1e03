/-
Uniform expressions: the values that a compiled material leaves to be computed
each time its parameters change. A value expression is a small tree over
constants and named parameters; a texture expression names a parameter and the
texture used in its absence. Evaluation asks a `ParameterSource`, which is
whatever knows the current values.

Streaming stacks: up to eight streaming textures that are read together at the
same coordinates. A layer is the position of a texture expression. A stack may
also stand for one texture that the renderer has laid out beforehand.
-/

import Shading.Fault
import Shading.Graph.Node
import Shading.Json.Decoder

namespace Shading

structure StreamingStack where
  layers : List UInt32 := []
  preallocated : Option UInt32 := none
deriving DecidableEq, Inhabited

namespace StreamingStack

def maxLayers : Nat := 8

def ofPreallocated (expression : UInt32) : StreamingStack := ⟨[expression], some expression⟩

def size (stack : StreamingStack) : Nat := stack.layers.length

/-- Puts an expression on top and tells its layer, unless the stack is full. -/
def push? (stack : StreamingStack) (expression : UInt32) : Option (Nat × StreamingStack) :=
  if stack.size < maxLayers then
    some (stack.size, { stack with layers := stack.layers ++ [expression] })
  else none

/-- Replaces a layer; missing layers below it get the same expression. -/
def setLayer (stack : StreamingStack) (layer : Nat) (expression : UInt32) :
    Except Fault StreamingStack :=
  if maxLayers ≤ layer then .error (.stackLayerRange layer)
  else
    let filled := stack.layers ++ List.replicate (layer + 1 - stack.size) expression
    .ok { stack with layers := filled.set layer expression }

def layer? (stack : StreamingStack) (expression : UInt32) : Option Nat :=
  stack.layers.findIdx? (· = expression)

def encode (stack : StreamingStack) : Json :=
  .record [
    ("layers", .array (stack.layers.map fun layer => .natural layer.toNat)),
    ("preallocated", .option (stack.preallocated.map fun layer => .natural layer.toNat))]

def decode : Json.Decoder StreamingStack := fun depth document => do
  let fields ← Json.asFields ["layers", "preallocated"] false depth document
  some {
    layers := ← fields.required "layers" (Json.asList Json.asWord)
    preallocated := ← fields.optional "preallocated" Json.asWord }

end StreamingStack

/-- Answers for the current values of parameters. -/
structure ParameterSource where
  scalar : String → Option Binary32
  vector : String → Option Vector4
  texture : String → Option TextureId
  external : UInt64 → Option TextureId

inductive UniformExpression where
  | constant (value : Vector4)
  | scalarParameter (name : String) (default : Binary32)
  | vectorParameter (name : String) (default : Vector4)
  | add (left right : UniformExpression)
  | multiply (left right : UniformExpression)
  | saturate (operand : UniformExpression)
deriving DecidableEq, Inhabited

namespace UniformExpression

/-- A scalar parameter gives its value four times. -/
def evaluate (source : ParameterSource) : UniformExpression → Vector4
  | .constant value => value
  | .scalarParameter name default => Vector4.splat ((source.scalar name).getD default)
  | .vectorParameter name default => (source.vector name).getD default
  | .add left right =>
    Vector4.zipWith Binary32.add (left.evaluate source) (right.evaluate source)
  | .multiply left right =>
    Vector4.zipWith Binary32.multiply (left.evaluate source) (right.evaluate source)
  | .saturate operand => (operand.evaluate source).map Binary32.saturate

/-- The parameters an expression reads, from left to right. -/
def parameterNames : UniformExpression → List String
  | .constant _ => []
  | .scalarParameter name _ | .vectorParameter name _ => [name]
  | .add left right | .multiply left right => left.parameterNames ++ right.parameterNames
  | .saturate operand => operand.parameterNames

/-- Equality with the numbers in the expression compared as numbers. -/
def equal : UniformExpression → UniformExpression → Bool
  | .constant left, .constant right => left.equal right
  | .scalarParameter leftName left, .scalarParameter rightName right =>
    leftName = rightName && left.equal right
  | .vectorParameter leftName left, .vectorParameter rightName right =>
    leftName = rightName && left.equal right
  | .add a b, .add c d => a.equal c && b.equal d
  | .multiply a b, .multiply c d => a.equal c && b.equal d
  | .saturate left, .saturate right => left.equal right
  | _, _ => false

/-! ### JSON form -/

def parameterFields : List String := ["name", "default"]

def encode : UniformExpression → Json
  | .constant value => .record [("Constant", value.encode)]
  | .scalarParameter name default =>
    .record [("ScalarParameter",
      .record [("name", .text name), ("default", .single default)])]
  | .vectorParameter name default =>
    .record [("VectorParameter",
      .record [("name", .text name), ("default", default.encode)])]
  | .add left right => .record [("Add", .array [left.encode, right.encode])]
  | .multiply left right => .record [("Multiply", .array [left.encode, right.encode])]
  | .saturate operand => .record [("Saturate", operand.encode)]

/-- An expression that is not a combination of others. -/
def decodeLeaf (name : String) : Json.Decoder UniformExpression := fun depth content =>
  match name with
  | "Constant" => (Vector4.decode depth content).map .constant
  | "ScalarParameter" => do
    let fields ← Json.asCaseFields parameterFields depth content
    some (.scalarParameter (← fields.required "name" Json.asText)
      (← fields.required "default" Json.asSingle))
  | "VectorParameter" => do
    let fields ← Json.asCaseFields parameterFields depth content
    some (.vectorParameter (← fields.required "name" Json.asText)
      (← fields.required "default" Vector4.decode))
  | _ => none

/-- Each combination opens a level for itself and, where it has two operands,
one for their array. -/
def decode : Json.Decoder UniformExpression
  | depth, .object [(some "Add", .array [left, right])] => do
    let depth ← (← depth.enter).enter
    some (.add (← decode depth left) (← decode depth right))
  | depth, .object [(some "Multiply", .array [left, right])] => do
    let depth ← (← depth.enter).enter
    some (.multiply (← decode depth left) (← decode depth right))
  | depth, .object [(some "Saturate", operand)] => do
    some (.saturate (← decode (← depth.enter) operand))
  | depth, .object [(some name, content)] => do
    decodeLeaf name (← depth.enter) content
  | _, _ => none
termination_by _ document => sizeOf document

end UniformExpression

/-! ### Textures -/

/-- A texture chosen by a parameter, or the given one. -/
structure TextureExpression where
  parameter : Option String
  default : TextureId
  kind : TextureKind
deriving DecidableEq, Inhabited

namespace TextureExpression

def evaluate (expression : TextureExpression) (source : ParameterSource) : TextureId :=
  (expression.parameter.bind source.texture).getD expression.default

def encode (expression : TextureExpression) : Json :=
  .record [
    ("parameter", .option (expression.parameter.map .text)),
    ("default", .natural expression.default.number.toNat),
    ("kind", expression.kind.encode)]

def decode : Json.Decoder TextureExpression := fun depth document => do
  let fields ← Json.asFields ["parameter", "default", "kind"] false depth document
  some {
    parameter := ← fields.optional "parameter" Json.asText
    default := ⟨← fields.required "default" Json.asWord⟩
    kind := ← fields.required "kind" TextureKind.decode }

end TextureExpression

end Shading
