/-
Decoding trees into values. A decoder refuses by giving nothing; there is one
way to fail, so there is no reason to report. Three rules are shared by all
records of this library and live here.

A record is an object with named members, or an array with exactly its members
in order. Members it does not know are passed over, whatever they hold; a
member it knows may be given only once. A choice between named cases is a
string for a case without content, and otherwise an object whose one member is
the case. And only so many levels of arrays and objects may be opened, counting
those that are decoded and not those that are passed over.
-/

import Shading.Json.Reader

namespace Shading.Json

/-- How many levels may still be opened. Nothing stands for no limit: the tree
was not read from a text, but handed over as it is. -/
abbrev Depth := Option Nat

/-- The levels a document read from text may open. -/
def Depth.ofText : Depth := some 127

def Depth.unlimited : Depth := none

def Depth.enter : Depth → Option Depth
  | none => some none
  | some 0 => none
  | some (levels + 1) => some (some levels)

abbrev Decoder (α : Type) := Depth → Json → Option α

/-! ### Plain values -/

def asBool : Decoder Bool
  | _, .bool value => some value
  | _, _ => none

def asText : Decoder String
  | _, .string text => text
  | _, _ => none

def asNatural (bound : Nat) : Decoder Nat
  | _, .number literal => literal.natural? bound
  | _, _ => none

def asWord : Decoder UInt32 := fun depth document =>
  (asNatural UInt32.size depth document).map UInt32.ofNat

def asLongWord : Decoder UInt64 := fun depth document =>
  (asNatural UInt64.size depth document).map UInt64.ofNat

def asSingle : Decoder Binary32
  | _, .number literal => literal.single?
  | _, _ => none

/-- Null, or whatever `decoder` accepts. -/
def asOption {α : Type} (decoder : Decoder α) : Decoder (Option α)
  | _, .null => some none
  | depth, document => (decoder depth document).map some

def asList {α : Type} (decoder : Decoder α) : Decoder (List α)
  | depth, .array items => do
    let depth ← depth.enter
    items.mapM (decoder depth)
  | _, _ => none

def asPair {α β : Type} (first : Decoder α) (second : Decoder β) : Decoder (α × β)
  | depth, .array [left, right] => do
    let depth ← depth.enter
    some (← first depth left, ← second depth right)
  | _, _ => none

/-! ### Records -/

/-- The members of a record that were given, and the depth their values have. -/
structure Fields where
  depth : Depth
  members : List (String × Json)

/-- The known ones among the members of an object, each at most once. -/
def knownMembers (names : List String) : List (Option String × Json) → Option (List (String × Json))
  | [] => some []
  | (none, _) :: _ => none
  | (some name, value) :: rest => do
    let members ← knownMembers names rest
    if name ∈ names then
      if (members.lookup name).isSome then none else some ((name, value) :: members)
    else some members

/-- Opens a record. In an array members may be missing at the end only if
`partly` allows it. -/
def asFields (names : List String) (partly : Bool) : Decoder Fields
  | depth, .object members => do
    some ⟨← depth.enter, ← knownMembers names members⟩
  | depth, .array items => do
    let depth ← depth.enter
    if names.length < items.length then none
    else if items.length < names.length && !partly then none
    else some ⟨depth, names.zip items⟩
  | _, _ => none

/-- Opens the record inside a case. In a tree handed over as it is, the members
are always named. -/
def asCaseFields (names : List String) : Decoder Fields
  | none, .array _ => none
  | depth, document => asFields names false depth document

namespace Fields

def required {α : Type} (fields : Fields) (name : String) (decoder : Decoder α) : Option α :=
  (fields.members.lookup name).bind (decoder fields.depth)

/-- A member that may be left out or null. -/
def optional {α : Type} (fields : Fields) (name : String) (decoder : Decoder α) :
    Option (Option α) :=
  match fields.members.lookup name with
  | none => some none
  | some value => asOption decoder fields.depth value

/-- A member that has a value of its own when it is left out. -/
def defaulted {α : Type} (fields : Fields) (name : String) (decoder : Decoder α) (otherwise : α) :
    Option α :=
  match fields.members.lookup name with
  | none => some otherwise
  | some value => decoder fields.depth value

end Fields

/-! ### Choices -/

/-- The name of a case and its content, if it has any. -/
def asCase : Decoder (String × Option (Depth × Json))
  | _, .string (some name) => some (name, none)
  | depth, .object [(some name, value)] => do
    some (name, some (← depth.enter, value))
  | _, _ => none

/-- A choice between cases without content. -/
def asNamed {α : Type} (find : String → Option α) : Decoder α := fun depth document =>
  match asCase depth document with
  | some (name, none) | some (name, some (_, .null)) => find name
  | _ => none

/-! ### Whole texts -/

/-- Reads bytes as a document and decodes it. -/
def decode? {α : Type} (decoder : Decoder α) (bytes : List UInt8) : Option α :=
  (read? bytes).bind (decoder Depth.ofText)

end Shading.Json
