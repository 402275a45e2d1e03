/-
Static parameters: named values that decide, when a material is compiled, what
its shaders are. A set is kept sorted by name, so two sets with the same
contents are the same value and give the same digest, in whatever order they
were written.
-/

import Shading.Digest.Stream

namespace Shading

inductive StaticValue where
  | switch (on : Bool)
  | choice (name : String)
  | mask (components : UInt8)
deriving DecidableEq, Inhabited

/-- A set of static parameters, its entries in increasing order of their names. -/
structure StaticParameters where
  entries : List (String × StaticValue) := []
deriving DecidableEq, Inhabited

namespace StaticParameters

def empty : StaticParameters := ⟨[]⟩

/-! ### Reading and writing -/

def insertSorted (name : String) (value : StaticValue) :
    List (String × StaticValue) → List (String × StaticValue)
  | [] => [(name, value)]
  | entry :: rest =>
    if entry.1 < name then entry :: insertSorted name value rest
    else if entry.1 = name then (name, value) :: rest
    else (name, value) :: entry :: rest

def set (parameters : StaticParameters) (name : String) (value : StaticValue) :
    StaticParameters :=
  ⟨insertSorted name value parameters.entries⟩

def setSwitch (parameters : StaticParameters) (name : String) (on : Bool) : StaticParameters :=
  parameters.set name (.switch on)

def setChoice (parameters : StaticParameters) (name choice : String) : StaticParameters :=
  parameters.set name (.choice choice)

def get? (parameters : StaticParameters) (name : String) : Option StaticValue :=
  (parameters.entries.find? fun entry => entry.1 = name).map Prod.snd

/-- The value of a switch; a parameter of another kind has none. -/
def switch? (parameters : StaticParameters) (name : String) : Option Bool :=
  match parameters.get? name with
  | some (.switch on) => some on
  | _ => none

def erase (parameters : StaticParameters) (name : String) : StaticParameters :=
  ⟨parameters.entries.filter fun entry => entry.1 ≠ name⟩

def size (parameters : StaticParameters) : Nat := parameters.entries.length

def isEmpty (parameters : StaticParameters) : Bool := parameters.entries.isEmpty

/-- Writes entries one after another. -/
def setAll (parameters : StaticParameters) (entries : List (String × StaticValue)) :
    StaticParameters :=
  entries.foldl (fun parameters entry => parameters.set entry.1 entry.2) parameters

/-- Where both sets have a name, the value of `overrides` holds. -/
def mergedWith (parameters overrides : StaticParameters) : StaticParameters :=
  parameters.setAll overrides.entries

def ofSwitches (switches : List (String × Bool)) : StaticParameters :=
  empty.setAll (switches.map fun (name, on) => (name, .switch on))

/-! ### Digest -/

/-- A mask counts with its four component bits only. -/
def valueStream : StaticValue → List UInt8
  | .switch on => Stream.byte 0 ++ Stream.bool on
  | .choice name => Stream.byte 1 ++ Stream.text name
  | .mask components => Stream.byte 2 ++ Stream.byte (components.toNat % 16)

def stream (parameters : StaticParameters) : List UInt8 :=
  Stream.list (fun entry => Stream.text entry.1 ++ valueStream entry.2) parameters.entries

def digest (parameters : StaticParameters) : Digest := Digest.ofBytes parameters.stream

/-! ### Description -/

/-- The bits of a mask, at least four digits. -/
def maskText (components : UInt8) : String :=
  let digits := Nat.toDigits 2 components.toNat
  String.ofList (List.replicate (4 - digits.length) '0' ++ digits)

def valueText : StaticValue → String
  | .switch true => "true"
  | .switch false => "false"
  | .choice name => name
  | .mask components => "mask(" ++ maskText components ++ ")"

def describe (parameters : StaticParameters) : String :=
  ", ".intercalate (parameters.entries.map fun (name, value) => name ++ "=" ++ valueText value)

end StaticParameters

end Shading
