/-
Scripts about whole scenes: a library with its renderer, and resources of the
script's own besides. Materials are called m0, m1 and so on in the order in
which they were added, and instances i0, i1; the script's own resources go by
number.
-/

import Shading.Compile.Bench
import Shading.Material.Session
import Shading.Notation.Map
import Shading.Notation.Render
import Shading.Report.Library
import Shading.Script.Step

namespace Shading.Script

/-- Which compiler a scene works with: one on the bench, one that is always
ready, or one that works in the background and is only looked at when it is
done. -/
inductive SceneCompiler where
  | bench
  | ready
  | background
deriving DecidableEq, Inhabited

structure Scene where
  library : Library := {}
  compiler : SceneCompiler
  bench : Bench := {}
  /-- The settings a library starts with if the script gives no others. -/
  settings : Settings
  hasStore : Bool
  /-- Whether the renderer works by itself and is never behind. -/
  threaded : Bool
  running : Bool := true
  materials : List SlotKey := []
  derived : List SlotKey := []
  /-- The script's own resources, without those that were dropped. -/
  resources : List (Option ResourceId) := []
  /-- Inline archives that were written. -/
  archives : List (List UInt8) := []
  labels : List MapId := []

namespace Scene

/-! ### Parts -/

def system (scene : Scene) : System := scene.library.system

def onSystem (scene : Scene) (system : System) : Scene :=
  { scene with library := { scene.library with system } }

def onRenderer (scene : Scene) (renderer : Renderer) : Scene :=
  scene.onSystem { scene.system with renderer }

/-- Gives the scene a workshop, with the compiler it should have. -/
def onWorkshop (scene : Scene) (workshop : Workshop) : Scene :=
  let bench := match scene.compiler with
    | .bench => scene.bench
    | .ready => {}
    | .background => { scene.bench with holding := false }
  scene.onSystem { scene.system with workshop := bench.equip workshop }

def enqueue (scene : Scene) (command : RenderCommand) : Scene :=
  scene.onSystem (scene.system.enqueue command)

/-! ### Answers -/

def tell (scene : Scene) (report : Report.Labelled Json) : Json × Scene :=
  let (answer, labels) := report scene.labels
  (answer, { scene with labels })

/-- Answers null, or with a failure that changed nothing. -/
def attempt (scene : Scene) : Except Failure Library → Json × Scene
  | .ok library => (.null, { scene with library })
  | .error failure => (Report.failure failure, scene)

/-! ### Names -/

def numbered (letter : String) (number : Nat) : Json := .text (letter ++ toString number)

def name (scene : Scene) : Target → Json
  | .material key => numbered "m" (scene.materials.idxOf key)
  | .derived key => numbered "i" (scene.derived.idxOf key)

def target? (scene : Scene) (name : Json) : Option Target :=
  match name.toText.toList with
  | 'm' :: digits => do
    let number ← (String.ofList digits).toNat?
    scene.materials[number]?.map .material
  | 'i' :: digits => do
    let number ← (String.ofList digits).toNat?
    scene.derived[number]?.map .derived
  | _ => none

/-- A proxy is given by its number or as that of a target. -/
def proxy? (scene : Scene) (document : Json) : Option ProxyId :=
  match document.nat? with
  | some number => some ⟨number⟩
  | none => (scene.target? document).bind scene.library.proxy?

/-- What is said of the number of a proxy that there has never been. -/
def unknown? (scene : Scene) (document : Json) : Option String :=
  document.nat?.bind fun number =>
    if 0 < number ∧ number < scene.system.nextProxy.number then none
    else some "no entry found for key"

/-- The resource that a target is drawn with on a tier. -/
def drawn? (scene : Scene) (target tier : Json) : Option ResourceId := do
  scene.library.resource (← scene.target? target) (Notation.tier tier)

end Scene

end Shading.Script
