/-
JSON documents as trees, and their compact text. A number is kept as the
literal that was written. A string may have been written with escapes that
name no character, or with bytes that are no text; such a string is still part
of a well-formed document and matters only to a reader who wants its value, so
the tree holds it as `none`.
-/

import Shading.Number.Shortest
import Shading.Text.Utf8

namespace Shading

inductive Json where
  | null
  | bool (value : Bool)
  | number (literal : Literal)
  | string (text : Option String)
  | array (items : List Json)
  | object (members : List (Option String × Json))
deriving Inhabited

namespace Json

/-! ### Building documents -/

def text (value : String) : Json := .string (some value)

def natural (value : Nat) : Json := .number (.ofNat value)

/-- An object with the given members in the given order. -/
def record (members : List (String × Json)) : Json :=
  .object (members.map fun (name, value) => (some name, value))

def option (value : Option Json) : Json := value.getD .null

/-- Numbers are written positionally when the leading digit's exponent is
between -6 and 12, and then always with a point. A tie goes to the even digit. -/
def numberLayout : Layout := ⟨some (-6), some 12, true, .toEven⟩

/-- A single-precision number; what is no finite number is written as null. -/
def single (value : Binary32) : Json :=
  if value.isFinite then .number (numberLayout.literal value) else .null

/-! ### Compact text -/

/-- A character inside a string. Only the quote, the backslash and the control
characters below the blank are escaped. -/
def escape (char : Char) : List Char :=
  if char = '"' then ['\\', '"']
  else if char = '\\' then ['\\', '\\']
  else if char = '\x08' then ['\\', 'b']
  else if char = '\x0c' then ['\\', 'f']
  else if char = '\n' then ['\\', 'n']
  else if char = '\r' then ['\\', 'r']
  else if char = '\t' then ['\\', 't']
  else if char.toNat < 32 then
    ['\\', 'u', '0', '0', Nat.digitChar (char.toNat / 16), Nat.digitChar (char.toNat % 16)]
  else [char]

def quoted (text : String) : List Char := '"' :: text.toList.flatMap escape ++ ['"']

mutual

/-- The document without blanks. A string without a value is written empty. -/
def print : Json → List Char
  | .null => ['n', 'u', 'l', 'l']
  | .bool true => ['t', 'r', 'u', 'e']
  | .bool false => ['f', 'a', 'l', 's', 'e']
  | .number literal => literal.text
  | .string text => quoted (text.getD "")
  | .array items => '[' :: printItems items ++ [']']
  | .object members => '\x7b' :: printMembers members ++ ['\x7d']

def printItems : List Json → List Char
  | [] => []
  | [item] => print item
  | item :: next :: rest => print item ++ ',' :: printItems (next :: rest)

def printMembers : List (Option String × Json) → List Char
  | [] => []
  | [(name, value)] => quoted (name.getD "") ++ ':' :: print value
  | (name, value) :: next :: rest =>
    quoted (name.getD "") ++ ':' :: print value ++ ',' :: printMembers (next :: rest)

end

def render (document : Json) : String := String.ofList document.print

end Json

end Shading
