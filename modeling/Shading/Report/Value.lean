/-
Reports show values as JSON documents, to be read by people and compared by
machines. Digests, bytes and single-precision numbers are shown in hexadecimal,
the numbers by their bits and with one form for whatever is no number. A failure
is shown as its kind and its text, and a fault as the first line of its text. A
line ends at a newline, and a carriage return just before that newline belongs
to the line break.
-/

import Shading.Fault
import Shading.StaticParameters
import Shading.Text.Codes
import Shading.Uniform.ExpressionSet

namespace Shading

/-- The characters before the first line break, or all of them. -/
def firstLine : List Char → List Char
  | [] => []
  | '\n' :: _ => []
  | '\r' :: '\n' :: _ => []
  | char :: rest => char :: firstLine rest

end Shading

namespace Shading.Report

/-! ### Plain values -/

def texts (values : List String) : Json := .array (values.map Json.text)

def naturals (values : List Nat) : Json := .array (values.map Json.natural)

def list {α : Type} (shown : α → Json) (values : List α) : Json := .array (values.map shown)

def option {α : Type} (shown : α → Json) (value : Option α) : Json := .option (value.map shown)

def identifier {kind : Numbered} (identifier : Identifier kind) : Json := .natural identifier.number

def texture (texture : TextureId) : Json := .natural texture.number.toNat

def word (word : UInt32) : Json := .natural word.toNat

def bytes (bytes : List UInt8) : Json := .text (Hex.ofBytes bytes)

def digest (digest : Digest) : Json := .text digest.toHex

def single (value : Binary32) : Json :=
  let shown := if value.isNaN then Binary32.notANumber else value
  .text (String.ofList (Hex.fixed 8 shown.bits.toNat))

def vector (vector : Vector4) : Json := list single vector.toList

def staticValue : StaticValue → Json
  | .switch on => .bool on
  | .choice name => .text name
  | .mask components => .natural components.toNat

def staticParameters (parameters : StaticParameters) : Json :=
  list (fun (name, value) => .array [.text name, staticValue value]) parameters.entries

/-! ### Failures and faults -/

def cause (kind message : String) : Json :=
  .record [("error", .text kind), ("message", .text message)]

def lowering (error : LoweringError) : Json :=
  let kind := match error with
    | .rerouteCycle .. => "RerouteCycle"
    | .unconnectedReroute .. => "UnconnectedReroute"
    | .missingInput .. => "MissingInput"
    | .expressionCycle .. | .missingNode .. | .unresolvedReroute .. => "Message"
  cause kind error.message

/-- A document that was not understood has nothing more to say. -/
def malformed : Json := .record [("error", .text "Serialization")]

def failure (failure : Failure) : Json :=
  match failure with
  | .lowering _ => cause "Translation" failure.message
  | .compile _ => cause "Compile" failure.message
  | .missingCookedMap _ => cause "MissingCookedShaderMap" failure.message
  | .mapStillBound _ => cause "ShaderMapStillBound" failure.message
  | .notFound _ => cause "ResourceNotFound" failure.message
  | .invalidArchive _ => cause "InvalidArchive" failure.message
  | .malformed => malformed

/-- The last answer of a script that ends before its time. -/
def ended (message : String) : Json :=
  .record [("panic", .text (String.ofList (firstLine message.toList)))]

def fault (fault : Fault) : Json := ended fault.message

/-! ### Uniform buffers -/

def layout (layout : BufferLayout) : Json :=
  naturals [layout.vectors, layout.scalars, layout.streamingStacks, layout.textures, layout.size]

/-- Gives all words that are no numbers one form, up to an offset. -/
def unifyNaN (stop offset : Nat) : List UInt8 → List UInt8
  | a :: b :: c :: d :: rest =>
    let bits := a.toNat + 256 * (b.toNat + 256 * (c.toNat + 256 * d.toNat))
    let word := [a, b, c, d]
    (if offset < stop && Binary32.isNaN ⟨UInt32.ofNat bits⟩ then Binary32.notANumber.toBytes
      else word) ++ unifyNaN stop (offset + 4) rest
  | rest => rest

/-- The contents of a buffer. Behind the numbers come words of other kinds. -/
def buffer (layout : BufferLayout) (content : List UInt8) : Json :=
  bytes (unifyNaN layout.streamingStacks 0 content)

end Shading.Report
