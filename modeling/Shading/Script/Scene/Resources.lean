/-
Steps of a scene about the script's own resources and about the store.
-/

import Shading.Material.Summary
import Shading.Notation.Description
import Shading.Script.Scene.State

namespace Shading.Script.Scene

/-! ### Resources -/

def create (scene : Scene) (step : Json) : Json × Scene :=
  let (id, system) := scene.system.addResource {
    description := Notation.description (step.item 1)
    overrides := Notation.staticParameters? (step.item 2)
    quality := Notation.quality (step.item 3)
    tier := Notation.tier (step.item 4) }
  (.natural scene.resources.length,
    { scene.onSystem system with resources := scene.resources ++ [some id] })

/-- Writes an inline archive, keeps it, and shows its flags, length and content. -/
def save (scene : Scene) (id : ResourceId) (packaged : Bool) : Json × Scene :=
  match scene.system.saveInline id packaged with
  | .error failure => (Report.failure failure, scene)
  | .ok archive =>
    let rest := if archive.length ≤ 2 then none else some (archive.drop 2)
    (.array [.natural scene.archives.length, Report.bytes (archive.take 2),
      Report.option (fun rest => Report.bytes (rest.take 8)) rest,
      Report.option (fun rest => Report.textOf (rest.drop 8)) rest],
      { scene with archives := scene.archives ++ [archive] })

/-- Reads an inline archive, perhaps one that was written before and changed. -/
def load (scene : Scene) (id : ResourceId) (options : Json) : Json × Scene :=
  let archive := match options.field? "saved" with
    | some number => scene.archives.getD number.toNat []
    | none => Notation.bytes (options.field "hex")
  let archive :=
    Notation.cut (options.field "cut") (Notation.overwrite (options.field "set") archive)
  match scene.system.loadInline id archive with
  | .ok (loaded, system) => (.bool loaded, scene.onSystem system)
  | .error failure => (Report.failure failure, scene)

def discard (scene : Scene) (id : ResourceId) : Json × Scene :=
  let (result, system) := scene.system.discardMap id
  let answer := match result with
    | .ok () => .null
    | .error failure => Report.failure failure
  (answer, scene.onSystem system)

def finish (scene : Scene) (id : ResourceId) : Except Fault (Json × Scene) := do
  let system := { scene.system with workshop := scene.system.workshop.releaseAll }
  .ok (.null, scene.onSystem (← system.finishCompilation id))

def vary (scene : Scene) (id : ResourceId) (change : Variant → Variant) : Json × Scene :=
  (.null, scene.onSystem (scene.system.onResource id fun resource =>
    { resource with variant := change resource.variant }))

/-- Steps whose subject is one of the script's own resources. -/
def onResource (scene : Scene) (step : Json) (id : ResourceId) (resource : Resource) :
    Except Fault (Json × Scene) := do
  let system := scene.system
  let second := step.item 2
  match nameOf step with
  | "r_cache" =>
    let (ready, system) ← system.cacheShaders id
    .ok (.bool ready, scene.onSystem system)
  | "r_release" => .ok (.null, scene.onSystem (system.releaseMap id))
  | "r_discard" => .ok (scene.discard id)
  | "r_finish" => scene.finish id
  | "r_cancel" => .ok (.null, scene.onSystem (system.cancelCompilation id))
  | "r_done" => .ok (.bool (system.isCompilationFinished id), scene)
  | "r_desc" => .ok (scene.vary id fun variant =>
      { variant with description := Notation.description second })
  | "r_over" => .ok (scene.vary id fun variant =>
      { variant with overrides := Notation.staticParameters? second })
  | "r_id" => .ok (.text (resource.variant.identity system.catalog).text, scene)
  | "r_report" => .ok (.text (resource.report id), scene)
  | "r_debug" => .ok (.text (resource.summary id), scene)
  | "r_info" => .ok (scene.tell (Report.resource system id))
  | "r_drop" => .ok (.null, { scene.onSystem (system.dropResource id) with
      resources := scene.resources.set (step.item 1).toNat none })
  | "r_save" => .ok (scene.save id second.toFlag)
  | "r_load" => .ok (scene.load id second)
  | "r_register" => .ok (.null, scene.onSystem (system.publishInline id))
  | _ => .ok (.null, scene)

/-! ### Results -/

/-- Offers one finished compile to all of the script's own resources. -/
def offer (resources : List ResourceId) (system : System) (finished : FinishedCompile) :
    Except Fault (List Json × System) :=
  resources.foldlM (fun (answers, system) id => do
    let (applied, system) ← System.complete system id finished.job finished.result
    .ok (answers ++ [.array [Report.identifier id, .bool applied]], system)) ([], system)

def process (scene : Scene) : Except Fault (Json × Scene) := do
  let (finished, system) := scene.system.processResults
  let (answers, system) ← finished.foldlM (fun (answers, system) finished => do
    let (offered, system) ← offer (scene.resources.filterMap id) system finished
    .ok (answers ++ [.array offered], system)) ([], system)
  .ok (.array answers, scene.onSystem system)

/-! ### The store -/

/-- What is to be stored under the key of a resource: bytes, the map of another
target, or what is stored there already. -/
def blob (scene : Scene) (key : String) (options : Json) (tier : Json) :
    Option (List UInt8) × MemoryStore :=
  let store := scene.system.workshop.store
  match options.field? "hex", options.field? "from" with
  | some hex, _ => (some (Notation.bytes hex), store)
  | none, some other =>
    let map := ((scene.drawn? other tier).bind scene.system.resources.get?).bind Resource.map
    (map.bind fun shared => shared.map.archive.toOption, store)
  | none, none => store.get key

/-- Stores something, with some changes, for the resource of a target. -/
def store (scene : Scene) (step : Json) : Json × Scene :=
  let options := step.item 2
  let tier := step.item 3
  match (scene.drawn? (step.item 1) tier).bind scene.system.resources.get? with
  | none => (.null, scene)
  | some resource =>
    let system := scene.system
    let key := (resource.variant.identity system.catalog).storeKey
    let (found, store) := scene.blob key options tier
    let store := match found with
      | some content => store.put key (Notation.edit (options.field "edits") content)
      | none => store
    (.null, scene.onSystem { system with workshop := { system.workshop with store } })

def storeCounts (scene : Scene) : Json :=
  let workshop := scene.system.workshop
  let store := workshop.store
  .array ([store.blobs.size, store.gets, store.hits, store.puts].map Json.natural ++
    [.bool (scene.running && workshop.usesStore)])

end Shading.Script.Scene
