/-
Reusable slots. A thing that is put in gets a key: the slot it is in and the
version of the slot, which goes up by one when a thing is put in or taken out.
A key of something that has been taken out therefore never becomes valid again.
Vacant slots are used before new ones, the one vacated last first.
-/

import Shading.Fault
import Shading.Table

namespace Shading

structure Slots (α : Type) where
  entries : Table SlotKey α := .empty
  /-- The number of slots, vacant ones included. -/
  count : Nat := 0
  /-- The keys that are given next. -/
  vacant : List SlotKey := []
deriving Inhabited

namespace Slots

variable {α : Type}

def get? (slots : Slots α) (key : SlotKey) : Option α := slots.entries.get? key

def contains (slots : Slots α) (key : SlotKey) : Bool := slots.entries.contains key

def size (slots : Slots α) : Nat := slots.entries.size

def nextKey (slots : Slots α) : SlotKey :=
  match slots.vacant with
  | key :: _ => key
  | [] => ⟨slots.count + 1, 1⟩

def insert (slots : Slots α) (value : α) : SlotKey × Slots α :=
  let key := slots.nextKey
  (key, {
    entries := slots.entries.insert key value
    count := if slots.vacant = [] then slots.count + 1 else slots.count
    vacant := slots.vacant.drop 1 })

def modify (slots : Slots α) (key : SlotKey) (change : α → α) : Slots α :=
  { slots with entries := slots.entries.modify key change }

def erase (slots : Slots α) (key : SlotKey) : Slots α :=
  if slots.contains key then
    { slots with
      entries := slots.entries.erase key
      vacant := ⟨key.index, key.version + 2⟩ :: slots.vacant }
  else slots

/-- The keys in the order of their slots. -/
def keys (slots : Slots α) : List SlotKey :=
  slots.entries.keys.mergeSort fun left right => left.index ≤ right.index

/-- The entries in the order of their slots. -/
def toList (slots : Slots α) : List (SlotKey × α) :=
  slots.keys.filterMap fun key => (slots.get? key).map fun value => (key, value)

end Slots

end Shading
