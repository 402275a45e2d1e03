/-
Scripts about drawing: commands for a render world, mixed with calls that go to
the world directly.
-/

import Shading.Notation.Map
import Shading.Notation.Render
import Shading.Report.World
import Shading.Script.Step

namespace Shading.Script

structure Drawing where
  renderer : Renderer
  /-- The maps to draw with, as long as they are kept alive. -/
  maps : List (Option SharedMap)
  resources : List ResourceId
  labels : List MapId := []

namespace Drawing

def tell (state : Drawing) (report : Report.Labelled Json) : Json × Drawing :=
  let (answer, labels) := report state.labels
  (answer, { state with labels })

def world (state : Drawing) : World := state.renderer.world

def onWorld (state : Drawing) (world : World) : Drawing :=
  { state with renderer := { state.renderer with world } }

def onRenderer (state : Drawing) (renderer : Renderer) : Drawing := { state with renderer }

def shown (state : Drawing) : Report.Labelled Json :=
  let kept := (state.maps.filterMap id).map SharedMap.id
  Report.world state.world (kept ++ state.renderer.heldMaps)

/-- Answers with a value and the whole world. -/
def tellWith (state : Drawing) (value : Json) : Json × Drawing :=
  state.tell do return .array [value, ← state.shown]

/-! ### Commands -/

/-- Answers with the number of commands queued and of maps on their way. -/
def queued (state : Drawing) (renderer : Renderer) : Json × Drawing :=
  let pending := state.resources.map fun resource => (renderer.world.bindingOf resource).pending
  (Report.naturals [renderer.queue.length, pending.foldl (· + ·) 0], { state with renderer })

def sendMap (state : Drawing) (step : Json) : Json × Drawing :=
  let resource : ResourceId := Notation.identifier (step.item 1)
  let map := ((step.item 2).nat?.bind fun position => state.maps[position]?).join
  if (step.item 3).flag?.getD true then state.queued (state.renderer.publish resource map)
  else state.queued (state.renderer.enqueue (.setMap resource map))

/-! ### Calls -/

/-- Calls to a world that is there. -/
def call (state : Drawing) (step : Json) : Except Fault (Json × Drawing) := do
  let first := step.item 1
  let proxy : ProxyId := Notation.identifier first
  let tier := Notation.tier (step.item 2)
  let world := state.world
  match nameOf step with
  | "commands" =>
    let (count, renderer) ← state.renderer.processCommands
    .ok ((state.onRenderer renderer).tellWith (.natural count))
  | "deferred" =>
    let (count, renderer) ← state.renderer.updateDeferred
    .ok ((state.onRenderer renderer).tellWith (.natural count))
  | "frame" =>
    let state := state.onRenderer (← state.renderer.runFrame)
    .ok (state.tell state.shown)
  | "dump" => .ok (state.tell state.shown)
  | "stats" => .ok (Report.stats world.stats, state)
  | "draw" =>
    let (drawable, world) ← world.prepareDraw proxy tier
    .ok ((state.onWorld world).tell do
      return .array [← Report.drawable proxy drawable, Report.stats world.stats])
  | "peek" =>
    let drawable ← world.drawable proxy tier
    .ok (state.tell (Report.drawable proxy drawable))
  | "evaluate" =>
    let (done, world) ← world.evaluate proxy tier
    .ok ((state.onWorld world).tellWith (.bool done))
  | "update" =>
    let state := state.onWorld (← world.updateIfNeeded proxy tier)
    .ok (state.tell state.shown)
  | "invalidate" =>
    let state := state.onWorld (← world.invalidate (step.item 2).toFlag proxy)
    .ok (state.tell state.shown)
  | "shader" =>
    let found ← world.shader (Notation.identifier first) (Notation.permutation (step.item 2))
    .ok (Report.option (fun binary => Report.bytes binary.code) found, state)
  | "describe" => .ok (.text world.describe, state)
  | "drop_world" => .ok (.null, state.onRenderer state.renderer.leave)
  | _ => .ok (.null, state)

def bindings (state : Drawing) : Json :=
  Report.list (fun resource => .array (Report.binding (state.world.bindingOf resource)))
    state.resources

def perform (state : Drawing) (step : Json) : Except Fault (Json × Drawing) :=
  match Notation.renderCommand? step, nameOf step with
  | some command, _ => .ok (state.queued (state.renderer.enqueue command))
  | none, "map" => .ok (state.sendMap step)
  | none, "drop_map" =>
    .ok ({ state with maps := state.maps.set (step.item 1).toNat none }.queued state.renderer)
  | none, "bindings" => .ok (state.bindings, state)
  | none, _ => if state.renderer.isGone then .ok (.null, state) else state.call step

/-- A script gives the maps, how many resources there are, and how the world
keeps its caches. -/
def start (script : Json) : Drawing where
  renderer := { world := {
    deferring := (script.field "defer").flag?.getD true
    activeTiers := match script.field? "tiers" with
      | some tiers => tiers.items.map Notation.tier
      | none => [.desktop] } }
  maps := (script.field "maps").items.mapIdx fun position map =>
    some ⟨⟨position + 1⟩, Notation.shaderMap map⟩
  resources := (List.range ((script.field "resources").nat?.getD 8)).map fun position =>
    ⟨position + 1⟩

end Drawing

end Shading.Script
