/-
Stopping and starting. A stopped library has given everything up; the renderer
still has the commands that say so. A started one has a new renderer and a new
workshop, but the compiler, the store and all numbers go on from where they
were.
-/

import Shading.Material.Library

namespace Shading

namespace Workshop

/-- A workshop without compiles or maps. -/
def renewed (workshop : Workshop) : Workshop :=
  { workshop with
    manager := { nextJob := workshop.manager.nextJob }
    registry := { next := workshop.registry.next } }

end Workshop

namespace World

/-- An empty world that goes on numbering where another one stopped. -/
def after (world : World) (settings : Settings) : World where
  deferring := settings.defersUniformCaching
  activeTiers := settings.activeTiers
  nextBuffer := world.nextBuffer
  streaming := { nextAllocation := world.streaming.nextAllocation }

end World

namespace Library

/-- Drops the library, then the resources that belong to nobody, and last all
that compiling knew. -/
def stop (library : Library) : Library :=
  let system := library.clear.system
  let system := (Identifier.sort system.resources.keys).foldl System.dropResource system
  { system := { system with workshop := system.workshop.renewed } }

/-- Where only cooked data counts, a store is not used even if there is one. -/
def start (library : Library) (settings : Settings) (hasStore : Bool) : Library :=
  let system := library.system
  let workshop :=
    { system.workshop.renewed with usesStore := hasStore && !settings.requiresCookedData }
  { system := { system with
      settings, workshop
      renderer := { world := system.renderer.world.after settings }
      resources := .empty } }

end Library

end Shading
