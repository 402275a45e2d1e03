/-
Lenient access to documents. What is missing, or is of another kind than the
reader asks for, reads as null, as nothing or as a default; nothing is refused.
If an object has several members of one name, the last one counts.
-/

import Shading.Json.Syntax

namespace Shading.Json

/-! ### Parts of a document -/

def items : Json → List Json
  | .array items => items
  | _ => []

def item (document : Json) (position : Nat) : Json := document.items.getD position .null

def members : Json → List (Option String × Json)
  | .object members => members
  | _ => []

def field (document : Json) (name : String) : Json :=
  match document.members.reverse.find? fun member => member.1 = some name with
  | some member => member.2
  | none => .null

def isNull : Json → Bool
  | .null => true
  | _ => false

/-- The document, unless it is null. -/
def present? (document : Json) : Option Json := if document.isNull then none else some document

def field? (document : Json) (name : String) : Option Json := (document.field name).present?

/-! ### Values -/

def text? : Json → Option String
  | .string text => text
  | _ => none

def toText (document : Json) : String := document.text?.getD ""

def nat? : Json → Option Nat
  | .number literal => literal.natural? UInt64.size
  | _ => none

def toNat (document : Json) : Nat := document.nat?.getD 0

def toWord (document : Json) : UInt32 := UInt32.ofNat document.toNat

def toLongWord (document : Json) : UInt64 := UInt64.ofNat document.toNat

def flag? : Json → Option Bool
  | .bool value => some value
  | _ => none

def toFlag (document : Json) : Bool := document.flag?.getD false

end Shading.Json
