/-
Numbered things. Resources, proxies, compile jobs, uniform buffers, streaming
producers, streaming allocations and shader maps are each numbered from one in
the order in which they are made; a number is never used again. What is numbered is part of
the type, so that a proxy cannot be taken for a resource.
-/

namespace Shading

inductive Numbered where
  | resource
  | proxy
  | job
  | buffer
  | producer
  | allocation
  | map
deriving DecidableEq, Inhabited

/-- The number of a thing of the given kind. -/
structure Identifier (kind : Numbered) where
  number : Nat
deriving DecidableEq, Inhabited

instance {kind : Numbered} : LawfulBEq (Identifier kind) := inferInstance

abbrev ResourceId := Identifier .resource
abbrev ProxyId := Identifier .proxy
abbrev JobId := Identifier .job
abbrev BufferId := Identifier .buffer
abbrev ProducerId := Identifier .producer
abbrev AllocationId := Identifier .allocation
abbrev MapId := Identifier .map

namespace Identifier

variable {kind : Numbered}

def first : Identifier kind := ⟨1⟩

def next (identifier : Identifier kind) : Identifier kind := ⟨identifier.number + 1⟩

def label : Numbered → String
  | .resource => "resource"
  | .proxy => "proxy"
  | .job => "job"
  | .buffer => "ubo"
  | .producer => "producer"
  | .allocation => "allocation"
  | .map => "map"

def text (identifier : Identifier kind) : String :=
  label kind ++ "#" ++ toString identifier.number

/-- Sorts by number. -/
def sort (identifiers : List (Identifier kind)) : List (Identifier kind) :=
  identifiers.mergeSort fun left right => left.number ≤ right.number

end Identifier

/-- The number of a texture. Unlike the other numbers it is given from outside. -/
structure TextureId where
  number : UInt32
deriving DecidableEq, Inhabited

namespace TextureId

/-- Stands for a texture that is not there. -/
def null : TextureId := ⟨0xFFFFFFFF⟩

def text (texture : TextureId) : String := "texture#" ++ toString texture.number.toNat

end TextureId

end Shading
