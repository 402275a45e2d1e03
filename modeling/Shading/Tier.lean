/-
Capability tiers and quality levels, and a value for each tier. Which shader
map a material uses depends on the tier of the machine, so most of what the
renderer keeps about a material it keeps once per tier.
-/

import Shading.Json.Decoder

namespace Shading

/-- How capable the rendering machine is. -/
inductive Tier where
  | mobile
  | desktop
  | highEnd
deriving DecidableEq, Inhabited

namespace Tier

def all : List Tier := [.mobile, .desktop, .highEnd]

def name : Tier → String
  | .mobile => "Mobile"
  | .desktop => "Desktop"
  | .highEnd => "HighEnd"

def ofName? (name : String) : Option Tier := all.find? fun tier => tier.name = name

def position : Tier → Nat
  | .mobile => 0
  | .desktop => 1
  | .highEnd => 2

def standard : Tier := .desktop

def encode (tier : Tier) : Json := .text tier.name

def decode : Json.Decoder Tier := Json.asNamed ofName?

end Tier

/-- The level of detail asked for. -/
inductive Quality where
  | low
  | medium
  | high
  | epic
deriving DecidableEq, Inhabited

namespace Quality

def all : List Quality := [.low, .medium, .high, .epic]

def name : Quality → String
  | .low => "Low"
  | .medium => "Medium"
  | .high => "High"
  | .epic => "Epic"

def ofName? (name : String) : Option Quality := all.find? fun quality => quality.name = name

def position : Quality → Nat
  | .low => 0
  | .medium => 1
  | .high => 2
  | .epic => 3

def standard : Quality := .high

def encode (quality : Quality) : Json := .text quality.name

def decode : Json.Decoder Quality := Json.asNamed ofName?

end Quality

/-- One value for each tier. -/
structure PerTier (α : Type) where
  mobile : α
  desktop : α
  highEnd : α
deriving DecidableEq, Inhabited

namespace PerTier

variable {α β : Type}

def fill (value : α) : PerTier α := ⟨value, value, value⟩

def ofFunction (value : Tier → α) : PerTier α := ⟨value .mobile, value .desktop, value .highEnd⟩

def get (values : PerTier α) : Tier → α
  | .mobile => values.mobile
  | .desktop => values.desktop
  | .highEnd => values.highEnd

def set (values : PerTier α) (tier : Tier) (value : α) : PerTier α :=
  match tier with
  | .mobile => { values with mobile := value }
  | .desktop => { values with desktop := value }
  | .highEnd => { values with highEnd := value }

def map (change : α → β) (values : PerTier α) : PerTier β :=
  ⟨change values.mobile, change values.desktop, change values.highEnd⟩

/-- The values from the lowest tier to the highest. -/
def toList (values : PerTier α) : List α := [values.mobile, values.desktop, values.highEnd]

/-- The values with their tiers, in the same order. -/
def entries (values : PerTier α) : List (Tier × α) :=
  [(.mobile, values.mobile), (.desktop, values.desktop), (.highEnd, values.highEnd)]

theorem mem_toList {values : PerTier α} {value : α} :
    value ∈ values.toList ↔ ∃ tier, values.get tier = value := by
  constructor
  · intro member
    rcases List.mem_cons.mp member with rfl | member
    · exact ⟨.mobile, rfl⟩
    · rcases List.mem_cons.mp member with rfl | member
      · exact ⟨.desktop, rfl⟩
      · exact ⟨.highEnd, (List.mem_singleton.mp member).symm⟩
  · rintro ⟨tier, rfl⟩
    cases tier <;> simp [toList, get]

theorem get_set (values : PerTier α) (tier other : Tier) (value : α) :
    (values.set tier value).get other = if other = tier then value else values.get other := by
  cases tier <;> cases other <;> rfl

theorem get_map (values : PerTier α) (change : α → β) (tier : Tier) :
    (values.map change).get tier = change (values.get tier) := by
  cases tier <;> rfl

theorem get_fill (value : α) (tier : Tier) : (fill value).get tier = value := by
  cases tier <;> rfl

end PerTier

end Shading
