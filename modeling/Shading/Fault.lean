/-
Failures and faults. Work on a material can fail in a number of ways; a failure
is answered by its caller. It is kept as its cause, and its text is made where it
is shown. A fault is a state the system refuses to go on from. It ends the work;
every operation that can meet one says so in its type.
-/

import Shading.Graph.Node
import Shading.Tier

namespace Shading

/-- Why a graph cannot be lowered to shader code. -/
inductive LoweringError where
  | rerouteCycle (material : String) (node : NodeId)
  | unconnectedReroute (material : String) (node : NodeId)
  | missingInput (material : String) (node : NodeId) (input : Nat)
  | expressionCycle (material : String) (node : NodeId)
  | missingNode (material : String) (node : NodeId)
  | unresolvedReroute (material : String) (node : NodeId)
deriving DecidableEq, Inhabited

namespace LoweringError

def nodeText (node : NodeId) : String := toString node.number.toNat

def message : LoweringError → String
  | .rerouteCycle material node =>
    "Reroute cycle detected at node " ++ nodeText node ++ " in '" ++ material ++ "'"
  | .unconnectedReroute material node =>
    "Reroute node " ++ nodeText node ++ " in '" ++ material ++ "' is not connected"
  | .missingInput material node input =>
    "Node " ++ nodeText node ++ " in '" ++ material ++ "' references missing input " ++
      toString input
  | .expressionCycle material node =>
    material ++ ": expression cycle through node " ++ nodeText node
  | .missingNode material node => material ++ ": missing node " ++ nodeText node
  | .unresolvedReroute material node => material ++ ": unresolved reroute " ++ nodeText node

end LoweringError

/-- A permutation that a compiler refused, and what it said. -/
structure CompileError where
  permutation : String
  reason : String
deriving DecidableEq, Inhabited

namespace CompileError

def message (error : CompileError) : String := error.permutation ++ ": " ++ error.reason

end CompileError

/-- A place in a reusable store of things: a slot, and which of the things that
have been in it is meant. -/
structure SlotKey where
  index : Nat
  version : Nat
deriving DecidableEq, Inhabited

namespace SlotKey

def text (key : SlotKey) : String := toString key.index ++ "v" ++ toString key.version

end SlotKey

/-- What was asked for and is not there. -/
inductive Missing where
  | material (key : SlotKey)
  | parentMaterial (key : SlotKey)
  | parentInstance (key : SlotKey)
deriving DecidableEq, Inhabited

namespace Missing

def text : Missing → String
  | .material key => "MaterialKey(" ++ key.text ++ ")"
  | .parentMaterial key => "Material(MaterialKey(" ++ key.text ++ "))"
  | .parentInstance key => "Instance(InstanceKey(" ++ key.text ++ "))"

end Missing

/-- What is wrong with an archive whose form is otherwise right. -/
inductive ArchiveFault where
  | checksum (permutation map : String)
  | noContent (map : String)
  | shortHeader (size : Nat)
  | packagedFlag (value : Nat)
  | validFlag (value : Nat)
  | missingLength
  | payloadLength (actual stated : Nat)
deriving DecidableEq, Inhabited

namespace ArchiveFault

def text : ArchiveFault → String
  | .checksum permutation map =>
    "binary '" ++ permutation ++ "' of '" ++ map ++ "' failed its checksum"
  | .noContent map => "shader map '" ++ map ++ "' has no compiled content"
  | .shortHeader size => "header needs 2 bytes, got " ++ toString size
  | .packagedFlag value => "packaged flag is " ++ toString value
  | .validFlag value => "valid flag is " ++ toString value
  | .missingLength => "missing payload length"
  | .payloadLength actual stated =>
    "payload is " ++ toString actual ++ " bytes, header says " ++ toString stated

end ArchiveFault

/-- A failure that its caller can answer. -/
inductive Failure where
  | lowering (error : LoweringError)
  | compile (errors : List CompileError)
  | missingCookedMap (material : String)
  | mapStillBound (resource : ResourceId)
  | notFound (what : Missing)
  | invalidArchive (fault : ArchiveFault)
  | malformed
deriving DecidableEq, Inhabited

namespace Failure

def message : Failure → String
  | .lowering error => "Translation failed: " ++ error.message
  | .compile errors =>
    "Shader compilation failed with " ++ toString errors.length ++ " error(s)"
  | .missingCookedMap material =>
    "Shader map for '" ++ material ++ "' is missing and cooked data is required"
  | .mapStillBound resource =>
    "Shader map of resource " ++ toString resource.number ++ " is still bound on the render side"
  | .notFound what => "Resource not found: " ++ what.text
  | .invalidArchive fault => "Invalid inline archive: " ++ fault.text
  | .malformed => "Serialization error"

end Failure

inductive Fault where
  /-- A buffer was given that does not have the size of its layout. -/
  | bufferSize
  | stackBlockCount
  /-- Something was written that ends behind the end of its buffer. -/
  | writeRange (stop size : Nat)
  | stackLayerRange (layer : Nat)
  | stackTooLong (layers : Nat)
  | unknownProducer (layer : Nat) (producer : ProducerId)
  | layerMismatch (layer tile border first firstTile firstBorder : Nat)
  | incompleteMap (material identity : String)
  /-- Not even the default material can be drawn. -/
  | noFallback (material : Option String) (tier : Tier)
  | noMap (material : String)
  | missingPermutation (material permutation : String)
  | vacantSlot
  | defaultUncompiled (material : String)
  | defaultUncooked (material : String)
deriving DecidableEq, Inhabited

namespace Fault

def unequal (message : String) : String := "assertion `left == right` failed: " ++ message

def geometry (tile border : Nat) : String :=
  "(tile " ++ toString tile ++ ", border " ++ toString border ++ ")"

def message : Fault → String
  | .bufferSize => unequal "uniform buffer size does not match expression set layout"
  | .stackBlockCount => unequal "one uniform block is required per streaming stack"
  | .writeRange stop size =>
    "range end index " ++ toString stop ++ " out of range for slice of length " ++ toString size
  | .stackLayerRange layer => "streaming layer " ++ toString layer ++ " out of range"
  | .stackTooLong layers =>
    "streaming stack has " ++ toString layers ++ " layers, maximum is 8"
  | .unknownProducer layer producer =>
    "streaming layer " ++ toString layer ++ " names unknown " ++ producer.text
  | .layerMismatch layer tile border first firstTile firstBorder =>
    "streaming layer " ++ toString layer ++ " " ++ geometry tile border ++
      " does not match layer " ++ toString first ++ " " ++ geometry firstTile firstBorder
  | .incompleteMap material identity =>
    "'" ++ material ++ "' received an incomplete shader map " ++ identity
  | .noFallback material tier =>
    "default material '" ++ material.getD "<unbound>" ++ "' has no shader map for " ++ tier.name
  | .noMap material => "material '" ++ material ++ "' has no shader map"
  | .missingPermutation material permutation =>
    "shader map of '" ++ material ++ "' is missing permutation " ++ permutation
  | .vacantSlot => "invalid SlotMap key used"
  | .defaultUncompiled material =>
    "default material '" ++ material ++ "': default material failed to compile"
  | .defaultUncooked material =>
    "default material '" ++ material ++ "': " ++ (Failure.missingCookedMap material).message

end Fault

end Shading
