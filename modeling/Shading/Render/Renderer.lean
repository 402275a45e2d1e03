/-
The renderer: a world and the queue of commands it has yet to carry out. When
the world is given up, commands that are still queued stay where they are, and
further ones are lost. The bindings outlive the world.
-/

import Shading.Render.Execution

namespace Shading

structure Renderer where
  world : World := {}
  queue : List RenderCommand := []
  isGone : Bool := false

namespace Renderer

def enqueue (renderer : Renderer) (command : RenderCommand) : Renderer :=
  if renderer.isGone then renderer
  else { renderer with queue := renderer.queue ++ [command] }

/-- Sends a map and counts it as being on its way. -/
def publish (renderer : Renderer) (resource : ResourceId) (map : Option SharedMap) : Renderer :=
  { renderer with world := renderer.world.onBinding resource Binding.beginPublish }.enqueue
    (.setMap resource map)

/-- Carries out what is queued and counts it. -/
def processCommands (renderer : Renderer) : Except Fault (Nat × Renderer) := do
  let world ← renderer.queue.foldlM World.apply renderer.world
  .ok (renderer.queue.length, { renderer with world, queue := [] })

def updateDeferred (renderer : Renderer) : Except Fault (Nat × Renderer) := do
  let (count, world) ← renderer.world.updateDeferred
  .ok (count, { renderer with world })

def runFrame (renderer : Renderer) : Except Fault Renderer := do
  let (_, renderer) ← renderer.processCommands
  let (_, renderer) ← renderer.updateDeferred
  .ok renderer

/-- Gives up the world. Nothing is left of it but the bindings and how far it
had numbered things. -/
def leave (renderer : Renderer) : Renderer :=
  let world := renderer.world
  { renderer with
    world := {
      streaming := { nextAllocation := world.streaming.nextAllocation }
      bindings := world.bindings
      nextBuffer := world.nextBuffer }
    isGone := true }

/-- The maps that the world or a queued command keeps alive. -/
def heldMaps (renderer : Renderer) : List MapId :=
  renderer.world.heldMaps ++
    (renderer.queue.filterMap RenderCommand.map?).map SharedMap.id

end Renderer

end Shading
