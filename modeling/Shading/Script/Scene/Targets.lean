/-
Steps of a scene about materials and instances.
-/

import Shading.Material.Update
import Shading.Script.Scene.State

namespace Shading.Script.Scene

/-! ### One target -/

def addMaterial (scene : Scene) (added : SlotKey × Library) : Json × Scene :=
  (numbered "m" scene.materials.length,
    { scene with library := added.2, materials := scene.materials ++ [added.1] })

def addInstance (scene : Scene) (parent : Target) (overrides : StaticParameters) :
    Except Fault (Json × Scene) := do
  let (made, library) ← scene.library.addInstance parent overrides
  let scene := { scene with library }
  .ok (match made with
    | .error failure => (Report.failure failure, scene)
    | .ok key => (numbered "i" scene.derived.length,
        { scene with derived := scene.derived ++ [key] }))

def remove (scene : Scene) (target : Target) : Scene :=
  { scene with
    library := match target with
      | .material key => scene.library.removeMaterial key
      | .derived key => scene.library.removeInstance key }

def parameter (scene : Scene) (target : Target) (name : String) : Json :=
  Report.option Report.parameterValue
    ((scene.library.parameters? target).bind fun parameters => parameters.get? name)

/-- Steps whose subject is a target. -/
def onTarget (scene : Scene) (step : Json) (target : Target) : Except Fault (Json × Scene) := do
  let library := scene.library
  let second := step.item 2
  match nameOf step, target with
  | "instance", _ => scene.addInstance target (Notation.staticParameters second)
  | "remove", _ => .ok (.null, scene.remove target)
  | "replace", .material key =>
    .ok (scene.attempt (library.replaceDescription key (Notation.description second)))
  | "set", _ =>
    let value := Notation.parameterValue (step.item 3)
    .ok (scene.attempt (library.setParameter target second.toText value))
  | "clear", _ => .ok (scene.attempt (library.clearParameter target second.toText))
  | "param", _ => .ok (scene.parameter target second.toText, scene)
  | "cache", _ =>
    let (ready, library) ← library.cacheShaders target
    .ok (.bool ready, { scene with library })
  | "info", _ => .ok (scene.tell (Report.target library scene.name target))
  | _, _ => .ok (.null, scene)

/-! ### Batches -/

/-- A batch while it is put together, and the answers so far. -/
structure Batch where
  library : Library
  targets : List Target := []
  answers : List Json := []

def batchOptions (document : Json) : UpdateOptions :=
  if document.isNull then {}
  else
    let given := document.items.map Json.toText
    { synchronous := "sync" ∈ given, recreates := "recreate" ∈ given }

/-- Adds a target to a batch or edits a material in it. -/
def batchAct (scene : Scene) (batch : Batch) (act : Json) : Batch :=
  let (failed, library, targets) : Json × Library × List Target :=
    match nameOf act, scene.target? (act.item 1) with
    | "edit", some (.material key) =>
      match batch.library.replaceDescription key (Notation.description (act.item 2)) with
      | .ok library => (.null, library, Manager.addOnce batch.targets (.material key))
      | .error failure => (Report.failure failure, batch.library, batch.targets)
    | "add", some target => (.null, batch.library, Manager.addOnce batch.targets target)
    | _, _ => (.null, batch.library, batch.targets)
  let first := scene.materials.head?.any library.materials.contains
  let answer := Json.array [failed, .natural targets.length, .bool first]
  ⟨library, targets, batch.answers ++ [answer]⟩

/-- A whole batch, begun, put together and committed. -/
def update (scene : Scene) (step : Json) : Except Fault (Json × Scene) := do
  let options := batchOptions (step.item 1)
  let library ← scene.library.flushIf options.synchronous
  let batch := (step.item 2).items.foldl scene.batchAct { library }
  let library ← batch.library.commit options batch.targets
  let bits := options.synchronous.toNat + 2 * options.recreates.toNat
  .ok (.array (.array [.bool true, .natural bits] :: batch.answers), { scene with library })

end Shading.Script.Scene
