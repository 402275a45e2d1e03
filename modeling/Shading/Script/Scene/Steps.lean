/-
All steps of a scene.
-/

import Shading.Script.Compiling
import Shading.Script.Scene.Rendering
import Shading.Script.Scene.Resources
import Shading.Script.Scene.Targets

namespace Shading.Script.Scene

/-! ### Stopping and starting -/

/-- Stops the library. The renderer stays, and so do the compiler and the store. -/
def stop (scene : Scene) : Except Fault (Json × Scene) := do
  let scene := { scene with
    library := scene.library.stop
    running := false, materials := [], derived := [], resources := [] }
  if scene.threaded then .ok (.null, scene.onRenderer (← scene.system.renderer.runFrame))
  else .ok (.null, scene)

def start (scene : Scene) (settings : Settings) : Scene :=
  let scene := { scene with
    library := scene.library.start settings scene.hasStore
    running := true, materials := [], derived := [], resources := [] }
  scene.onWorkshop scene.system.workshop

/-- Starts with the settings in a text, or with the usual ones if there is no
text. A text that holds no settings starts nothing. -/
def restart (scene : Scene) (text : Option String) : Json × Scene :=
  match text with
  | none => (.null, scene.start scene.settings)
  | some text =>
    match Settings.ofText? text with
    | some settings => (.null, scene.start settings)
    | none => (Report.malformed, scene)

/-! ### Steps -/

/-- Steps about the library as a whole. -/
def onLibrary (scene : Scene) (step : Json) : Except Fault (Json × Scene) := do
  let first := step.item 1
  let library := scene.library
  match nameOf step with
  | "default" =>
    return scene.addMaterial (← library.setDefaultMaterial (Notation.description first))
  | "material" => return scene.addMaterial (← library.addMaterial (Notation.description first))
  | "process" =>
    let (count, library) ← library.processResults
    .ok (.natural count, { scene with library })
  | "finish_all" =>
    let scene := scene.onWorkshop scene.system.workshop.releaseAll
    let (count, library) ← scene.library.finishAll
    .ok (.natural count, { scene with library })
  | "report" => .ok (.text library.report, scene)
  | "owner" =>
    .ok (Report.option scene.name (library.owners.get? (Notation.identifier first)), scene)
  | "update" => scene.update step
  | "new" => .ok (scene.create step)
  | "r_process" => scene.process
  | "shutdown" => .ok (.null, scene.onSystem scene.system.shutdown)
  | _ => .ok (.null, scene)

/-- Steps about compiling, the store and the scene itself, and, while it runs,
about the library. -/
def onScene (scene : Scene) (step : Json) : Except Fault (Json × Scene) :=
  let first := step.item 1
  let system := scene.system
  match nameOf step with
  | "compile" =>
    let (answer, workshop) := release system.workshop first
    .ok (answer, scene.onWorkshop workshop)
  | "store" => .ok (scene.store step)
  | "store_counts" => .ok (scene.storeCounts, scene)
  | "stop" => scene.stop
  | "start" => .ok (scene.restart first.text?)
  | "drop_world" => .ok (.null, scene.onRenderer system.renderer.leave)
  | _ => if scene.running then scene.onLibrary step else .ok (.null, scene)

def answer (scene : Scene) (step : Json) : Except Fault (Json × Scene) :=
  let first := step.item 1
  match onBench scene.bench step, scene.command? step, scene.call? step with
  | some bench, _, _ => .ok (.null, { scene with bench }.onWorkshop scene.system.workshop)
  | none, some outcome, _ => .ok outcome
  | none, none, some outcome => outcome
  | none, none, none =>
    let own := (first.nat?.bind fun number => scene.resources[number]?).join
    match scene.target? first, own with
    | some target, _ =>
      if nameOf step = "store" then scene.onScene step else scene.onTarget step target
    | none, some id =>
      match scene.system.resources.get? id with
      | some resource =>
        if (nameOf step).startsWith "r_" then scene.onResource step id resource
        else scene.onScene step
      | none => .ok (.null, scene)
    | none, none => scene.onScene step

/-- Why a step is refused: static parameters have to be listed, and a number has to be that of a
proxy. -/
def refusal? (scene : Scene) (step : Json) : Option String :=
  let first := step.item 1
  match nameOf step with
  | "instance" => (scene.target? first).bind fun _ => unlisted? (step.item 2)
  | "new" | "r_over" => unlisted? (step.item 2)
  | "draw" | "peek" => if scene.isDeaf then none else scene.unknown? first
  | "remove_proxy" | "recache" => scene.unknown? first
  | "proxy" => scene.unknown? (first.field "parent")
  | _ => none

/-- Answers with what was asked for and, while the scene runs, with some counts. -/
def perform (scene : Scene) (step : Json) : Except Fault (Json × Scene) := do
  let (result, scene) ← scene.answer step
  if !scene.running then .ok (.record [("r", result), ("s", .null)], scene)
  else
    let scene := { scene with library := ← scene.library.flushIf scene.threaded }
    let system := scene.system
    let manager := system.workshop.manager
    let counts := [manager.jobs.size, manager.lowerings, manager.submissions,
      system.workshop.liveMaps system.heldMaps, system.renderer.queue.length,
      system.workshop.compiler.waiting.length, system.workshop.store.puts]
    .ok (.record [("r", result), ("s", Report.naturals counts)], scene)

def compilerOf (document : Json) : SceneCompiler :=
  match document.toText with
  | "builtin" => .ready
  | "pool" => .background
  | _ => .bench

/-- A script gives settings, a catalog, a compiler, whether there is a store
that outlives the library, and whether the renderer works by itself. -/
def ofScript? (script : Json) : Option Scene := do
  let settings ← Settings.ofText? ((script.field "settings").text?.getD "\x7b\x7d")
  let library : Library := { system := { catalog := Notation.catalog script } }
  let scene : Scene := {
    library
    compiler := compilerOf (script.field "compiler")
    settings
    hasStore := (script.field "store").toFlag
    threaded := (script.field "threaded").toFlag }
  some (scene.start settings)

end Shading.Script.Scene
