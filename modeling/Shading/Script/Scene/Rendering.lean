/-
Steps of a scene about the renderer.
-/

import Shading.Script.Scene.State

namespace Shading.Script.Scene

/-! ### Commands -/

/-- A proxy of the script's own; its parent is given like any proxy. -/
def createProxy (scene : Scene) (document : Json) : Json × Scene :=
  let (id, system) := scene.system.freshProxy
  let parent := (scene.proxy? (document.field "parent")).getD ⟨0⟩
  let document := Json.object (document.members ++ [(some "parent", Report.identifier parent)])
  (Report.identifier id,
    (scene.onSystem system).enqueue (.createProxy id (Notation.proxyKind document)))

def createProducer (scene : Scene) (step : Json) : Json × Scene :=
  let (id, system) := scene.system.freshProducer
  (Report.identifier id, (scene.onSystem system).enqueue (.createProducer id
    (Notation.texture (step.item 1)) (step.item 2).toWord (step.item 3).toWord
    (step.item 4).toFlag))

/-- Steps that are commands to the renderer. -/
def command? (scene : Scene) (step : Json) : Option (Json × Scene) :=
  let first := step.item 1
  match nameOf step, scene.proxy? first with
  | "proxy", _ => some (scene.createProxy first)
  | "producer", _ => some (scene.createProducer step)
  | "destroy", _ => some (.null, scene.enqueue (.destroyProducer (Notation.identifier first)))
  | "remove_proxy", some proxy => some (.null, scene.enqueue (.removeProxy proxy))
  | "recache", some proxy => some (.null, scene.enqueue (.recache proxy (step.item 2).toFlag))
  | _, _ => none

/-! ### Calls -/

def shown (scene : Scene) : Report.Labelled Json :=
  let system := scene.system
  Report.world system.renderer.world (system.workshop.heldMaps system.heldMaps)

def shader (scene : Scene) (step : Json) : Except Fault (Json × Scene) := do
  let found ← match scene.drawn? (step.item 1) (step.item 2) with
    | some id => scene.system.renderer.world.shader id (Notation.permutation (step.item 3))
    | none => .ok none
  .ok (Report.option (fun binary => Report.digest binary.digest) found, scene)

def call (scene : Scene) (step : Json) : Except Fault (Json × Scene) := do
  let renderer := scene.system.renderer
  let tier := Notation.tier (step.item 2)
  match nameOf step, scene.proxy? (step.item 1) with
  | "commands", _ =>
    let (count, renderer) ← renderer.processCommands
    .ok (.natural count, scene.onRenderer renderer)
  | "deferred", _ =>
    let (count, renderer) ← renderer.updateDeferred
    .ok (.natural count, scene.onRenderer renderer)
  | "frame", _ => .ok (.null, scene.onRenderer (← renderer.runFrame))
  | "draw", some proxy =>
    let (drawable, world) ← renderer.world.prepareDraw proxy tier
    .ok ((scene.onRenderer { renderer with world }).tell (Report.drawable proxy drawable))
  | "peek", some proxy =>
    let drawable ← renderer.world.drawable proxy tier
    .ok (scene.tell (Report.drawable proxy drawable))
  | "dump", _ => .ok (scene.tell scene.shown)
  | "describe", _ => .ok (.text renderer.world.describe, scene)
  | "shader", _ => scene.shader step
  | _, _ => .ok (.null, scene)

def calls : List String :=
  ["commands", "deferred", "frame", "draw", "peek", "dump", "describe", "shader"]

/-- A world that works by itself, or that has been given up, cannot be asked. -/
def isDeaf (scene : Scene) : Bool :=
  scene.system.renderer.isGone || (scene.threaded && scene.running)

/-- Steps that go to the world directly. -/
def call? (scene : Scene) (step : Json) : Option (Except Fault (Json × Scene)) :=
  if nameOf step ∉ calls then none
  else if scene.isDeaf then some (.ok (.null, scene))
  else some (scene.call step)

end Shading.Script.Scene
