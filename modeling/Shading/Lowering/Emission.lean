/-
Lowering a material graph to shader code. Starting from each provided
attribute, nodes are followed to their inputs and turned into text. A subtree
that is made of constants, parameters and arithmetic alone is not computed by
the shader: it becomes one uniform expression, and the code refers to its place
in the uniform buffer. Texture, stack and collection entries are gathered in a
profile on the way.

A node that is being emitted may not be met again below itself. That makes the
recursion end: each step down adds a node of the graph to those in progress.
-/

import Shading.Graph.Description
import Shading.Lowering.Profile
import Shading.Table

namespace Shading

/-- Shader source and what was found out while making it. -/
structure LoweredMaterial where
  source : String
  profile : Profile
deriving DecidableEq, Inhabited

namespace Lowering

/-- The code of a node, and the uniform expression it stands for if it is one. -/
structure Emitted where
  code : String
  uniform : Option UniformExpression := none
deriving Inhabited

/-- The profile so far, and for each source of texture coordinates the stack
that takes further streaming textures read there. -/
structure Progress where
  profile : Profile := {}
  openStacks : Table (Option NodeId) Nat := .empty
deriving Inhabited

abbrev Result := Except LoweringError (Emitted × Progress)

/-! ### Text of numbers -/

/-- All digits, without an exponent, and no point in integers. A tie goes up. -/
def numberLayout : Layout := ⟨none, none, false, .up⟩

def numberText (number : Binary32) : String :=
  if number.isNaN then "NaN"
  else if number.isInfinite then if number.isNegative then "-inf" else "inf"
  else String.ofList (numberLayout.literal number).text

def vectorText (vector : Vector4) : String :=
  "float4(" ++ ", ".intercalate (vector.toList.map numberText) ++ ")"

/-! ### Gathering entries -/

namespace Progress

def withFlags (progress : Progress) (flags : FeatureFlags) : Progress :=
  { progress with
    profile := { progress.profile with flags := progress.profile.flags.union flags } }

def setExpressions (progress : Progress) (expressions : ExpressionSet) : Progress :=
  { progress with profile := { progress.profile with expressions } }

def countSample (progress : Progress) : Progress :=
  { progress with
    profile := { progress.profile with textureSamples := progress.profile.textureSamples + 1 } }

def addTexture (progress : Progress) (expression : TextureExpression) : Nat × Progress :=
  let (position, expressions) := progress.profile.expressions.addTexture expression
  (position, progress.setExpressions expressions)

def addExternal (progress : Progress) (external : UInt64) : Nat × Progress :=
  let (position, expressions) := progress.profile.expressions.addExternal external
  (position, progress.setExpressions expressions)

def addCollection (progress : Progress) (collection : UInt64) : Nat × Progress :=
  let (position, expressions) := progress.profile.expressions.addCollection collection
  (position, progress.setExpressions expressions)

def streamingStacks (progress : Progress) : List StreamingStack :=
  progress.profile.expressions.streamingStacks

def setStacks (progress : Progress) (streamingStacks : List StreamingStack) : Progress :=
  progress.setExpressions { progress.profile.expressions with streamingStacks }

/-- A new stack with one layer takes the place of the open one. -/
def openStack (progress : Progress) (coordinates : Option NodeId) (expression : UInt32) :
    (Nat × Nat) × Progress :=
  let position := progress.streamingStacks.length
  let progress := progress.setStacks (progress.streamingStacks ++ [{ layers := [expression] }])
  ((position, 0),
    { progress with openStacks := progress.openStacks.insert coordinates position })

/-- The stack and layer of a streaming texture read at the given coordinates.
The open stack for the coordinates is extended as long as it has room. -/
def addStreamingLayer (progress : Progress) (coordinates : Option NodeId) (expression : UInt32) :
    (Nat × Nat) × Progress :=
  match progress.openStacks.get? coordinates with
  | none => progress.openStack coordinates expression
  | some position =>
    match progress.streamingStacks[position]? with
    | none => progress.openStack coordinates expression
    | some stack =>
      match stack.layer? expression with
      | some layer => ((position, layer), progress)
      | none =>
        match stack.push? expression with
        | some (layer, stack) =>
          ((position, layer), progress.setStacks (progress.streamingStacks.set position stack))
        | none => progress.openStack coordinates expression

/-- The stack that stands for one texture laid out beforehand. -/
def addPreallocated (progress : Progress) (expression : UInt32) : Nat × Progress :=
  match progress.streamingStacks.findIdx? fun stack => stack.preallocated = some expression with
  | some position => (position, progress)
  | none =>
    (progress.streamingStacks.length,
      progress.setStacks (progress.streamingStacks ++ [.ofPreallocated expression]))

end Progress

/-! ### Nodes -/

def arity : MathOperation → Nat
  | .add | .multiply => 2
  | .saturate => 1

/-- Joins the code of the operands; the result is uniform if they all are. -/
def combine (operation : MathOperation) (operands : List Emitted) : Emitted :=
  match operation, operands with
  | .add, [left, right] =>
    { code := "(" ++ left.code ++ " + " ++ right.code ++ ")"
      uniform := do some (.add (← left.uniform) (← right.uniform)) }
  | .multiply, [left, right] =>
    { code := "(" ++ left.code ++ " * " ++ right.code ++ ")"
      uniform := do some (.multiply (← left.uniform) (← right.uniform)) }
  | .saturate, [operand] =>
    { code := "saturate(" ++ operand.code ++ ")"
      uniform := operand.uniform.map .saturate }
  | _, _ => { code := "" }

/-- What emission reads and does not change. -/
structure Context where
  description : Description
  parameters : StaticParameters

/-- Emits operands from left to right. -/
def emitAll (emit : NodeId → Progress → Result) :
    List NodeId → Progress → Except LoweringError (List Emitted × Progress)
  | [], progress => .ok ([], progress)
  | node :: rest, progress => do
    let (first, progress) ← emit node progress
    let (others, progress) ← emitAll emit rest progress
    .ok (first :: others, progress)

/-- The code of a texture sample whose coordinates have been emitted. -/
def emitSample (expression : TextureExpression) (coordinates : Option NodeId) (place : String)
    (progress : Progress) : Emitted × Progress :=
  let (position, progress) := progress.countSample.addTexture expression
  if expression.kind = .streaming then
    let progress := progress.withFlags .streamingTextures
    let ((stack, layer), progress) :=
      progress.addStreamingLayer coordinates (UInt32.ofNat position)
    ({ code := "SampleStack(Stack[" ++ toString stack ++ "], " ++ toString layer ++ ", " ++
        place ++ ")" }, progress)
  else
    ({ code := "Sample" ++ expression.kind.name ++ "(Textures[" ++ toString position ++ "], " ++
        place ++ ")" }, progress)

/-- Emits one node that is no reroute; `emit` does the same for its inputs. -/
def emitNode (context : Context) (emit : NodeId → Progress → Result) (id : NodeId) (node : Node)
    (progress : Progress) : Result :=
  match node with
  | .constant value => .ok (⟨vectorText value, some (.constant value)⟩, progress)
  | .scalarParameter name default =>
    .ok (⟨"Param(" ++ name ++ ")", some (.scalarParameter name default)⟩, progress)
  | .vectorParameter name default =>
    .ok (⟨"Param(" ++ name ++ ")", some (.vectorParameter name default)⟩, progress)
  | .math operation inputs =>
    if inputs.length ≠ arity operation then
      .error (.missingInput context.description.name id inputs.length)
    else do
      let (operands, progress) ← emitAll emit inputs progress
      .ok (combine operation operands, progress)
  | .staticSwitch name default onTrue onFalse =>
    emit (if (context.parameters.switch? name).getD default then onTrue else onFalse) progress
  | .textureSample parameter texture kind coordinates =>
    let expression : TextureExpression := ⟨parameter, texture, kind⟩
    match coordinates with
    | none => .ok (emitSample expression none "TexCoord0" progress)
    | some input => do
      let (place, progress) ← emit input progress
      .ok (emitSample expression (some input) place.code progress)
  | .runtimeTexture parameter texture =>
    let (position, progress) := progress.addTexture ⟨parameter, texture, .streaming⟩
    let (stack, progress) := progress.addPreallocated (UInt32.ofNat position)
    let progress := progress.withFlags (.union .streamingTextures .runtimeStreamingOutput)
    .ok ({ code := "SampleStack(Stack[" ++ toString stack ++ "], 0, WorldUV)" }, progress)
  | .externalTexture external =>
    let (position, progress) := progress.addExternal external
    .ok ({ code := "SampleExternal(External[" ++ toString position ++ "])" }, progress)
  | .collectionParameter collection name =>
    let (position, progress) := progress.addCollection collection
    .ok ({ code := "Collection[" ++ toString position ++ "]." ++ name }, progress)
  | .textureCoordinates index =>
    .ok ({ code := "TexCoord" ++ toString index.toNat }, progress)
  | .sceneDepth => .ok ({ code := "SceneDepth()" }, progress.withFlags .sceneDepth)
  | .eyeAdaptation => .ok ({ code := "EyeAdaptation()" }, progress.withFlags .eyeAdaptation)
  | .distanceCullFade =>
    .ok ({ code := "DistanceCullFade()" }, progress.withFlags .distanceCullFade)
  | .reroute _ => .error (.unresolvedReroute context.description.name id)

/-- Emits the node an input means, given the nodes in progress. Those are
different nodes of the graph, so fuel for one more than the graph has suffices. -/
def emit (context : Context) : Nat → List NodeId → NodeId → Progress → Result
  | 0, _, node, _ => .error (.expressionCycle context.description.name node)
  | fuel + 1, inProgress, input, progress => do
    let graph := context.description.graph
    let id ← graph.source context.description.name input
    if id ∈ inProgress then .error (.expressionCycle context.description.name id)
    else match graph.node? id with
      | some node =>
        emitNode context (emit context fuel (id :: inProgress)) id node progress
      | none => .error (.missingNode context.description.name id)

/-! ### Attributes -/

def attributeFlags : Attribute → FeatureFlags
  | .worldPositionOffset => .union .worldPositionOffset .modifiesMeshPosition
  | .pixelDepthOffset => .pixelDepthOffset
  | _ => {}

/-- The code for an attribute, a uniform expression being put in the buffer. -/
def place (property : Attribute) (emitted : Emitted) (progress : Progress) : String × Progress :=
  match emitted.uniform with
  | none => (emitted.code, progress)
  | some expression =>
    if property.isScalar then
      let (position, expressions) := progress.profile.expressions.addScalar expression
      ("Material.Scalars[" ++ toString position ++ "]", progress.setExpressions expressions)
    else
      let (position, expressions) := progress.profile.expressions.addVector expression
      ("Material.Vectors[" ++ toString position ++ "]", progress.setExpressions expressions)

/-- The lines of the attributes, in order. -/
def emitOutputs (context : Context) :
    List (Attribute × NodeId) → Progress → Except LoweringError (String × Progress)
  | [], progress => .ok ("", progress)
  | (property, node) :: rest, progress => do
    let (emitted, progress) ← emit context (context.description.graph.size + 1) [] node progress
    let (code, progress) := place property emitted progress
    let progress := progress.withFlags (attributeFlags property)
    let (lines, progress) ← emitOutputs context rest progress
    .ok (property.name ++ " = " ++ code ++ ";\n" ++ lines, progress)

def header (description : Description) (quality : Quality) (tier : Tier) : String :=
  "// " ++ description.name ++ " [" ++ tier.name ++ " / " ++ quality.name ++ "]\n// " ++
    description.usageText ++ "\n"

end Lowering

/-- Lowers a material with the given static parameters for a quality and tier. -/
def Description.lower (description : Description) (parameters : StaticParameters)
    (quality : Quality) (tier : Tier) : Except LoweringError LoweredMaterial := do
  let context : Lowering.Context := ⟨description, parameters⟩
  let (lines, progress) ← Lowering.emitOutputs context description.graph.outputs {}
  .ok ⟨Lowering.header description quality tier ++ lines, progress.profile⟩

end Shading
