/-
The registry of live shader maps. Equal identities should share one map, so
whoever makes a map offers it here and takes the one that is returned. The
registry does not keep a map alive: an entry counts as long as somebody else
holds the map, and the caller says who does. Two maps with the same contents
are still different maps; what tells them apart is their number.
-/

import Shading.Map.ShaderMap
import Shading.Table

namespace Shading

/-- A shader map that may have several holders. -/
structure SharedMap where
  id : MapId
  map : ShaderMap
deriving DecidableEq, Inhabited

structure Registry where
  entries : Table MapIdentity SharedMap := .empty
  next : MapId := .first
deriving Inhabited

namespace Registry

/-- Gives a new map its number. -/
def adopt (registry : Registry) (map : ShaderMap) : SharedMap × Registry :=
  (⟨registry.next, map⟩, { registry with next := registry.next.next })

/-- The map of an identity, if it is still held. An entry nobody holds is removed. -/
def find (registry : Registry) (held : List MapId) (identity : MapIdentity) :
    Option SharedMap × Registry :=
  match registry.entries.get? identity with
  | none => (none, registry)
  | some shared =>
    if shared.id ∈ held then (some shared, registry)
    else (none, { registry with entries := registry.entries.erase identity })

/-- Offers a map. One of the same identity that is still held takes precedence,
and a map that is not compiled is handed back without being entered. -/
def register (registry : Registry) (held : List MapId) (shared : SharedMap) :
    SharedMap × Registry :=
  if !shared.map.isCompiled then (shared, registry)
  else
    let enter := { registry with entries := registry.entries.insert shared.map.identity shared }
    match registry.entries.get? shared.map.identity with
    | none => (shared, enter)
    | some incumbent => if incumbent.id ∈ held then (incumbent, registry) else (shared, enter)

/-- Removes a map if it is the one entered for its identity. -/
def unregister (registry : Registry) (shared : SharedMap) : Bool × Registry :=
  match registry.entries.get? shared.map.identity with
  | none => (false, registry)
  | some entered =>
    if entered.id = shared.id then
      (true, { registry with entries := registry.entries.erase shared.map.identity })
    else (false, registry)

/-- The number of maps that are still held. -/
def size (registry : Registry) (held : List MapId) : Nat :=
  (registry.entries.values.filter fun shared => shared.id ∈ held).length

/-- Removes the entries nobody holds, and counts them. -/
def purge (registry : Registry) (held : List MapId) : Nat × Registry :=
  let kept := registry.entries.entries.filter fun entry => entry.2.id ∈ held
  (registry.entries.size - kept.length, { registry with entries := ⟨kept⟩ })

def clear (registry : Registry) : Registry := { registry with entries := .empty }

end Registry

end Shading
