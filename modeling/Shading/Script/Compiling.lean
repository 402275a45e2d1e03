/-
Scripts about compiling: requests for some variants of materials, made in any
order to a workshop whose compiler is on the bench.
-/

import Shading.Compile.Bench
import Shading.Notation.Map
import Shading.Script.Step

namespace Shading.Script

structure Compiling where
  catalog : Catalog
  variants : List Variant
  workshop : Workshop
  bench : Bench := {}
  /-- Maps that are kept alive. -/
  kept : List SharedMap := []
  labels : List MapId := []

/-- What a step about the bench makes of it. -/
def onBench (bench : Bench) (step : Json) : Option Bench :=
  let subject := (step.item 1).toText
  match nameOf step with
  | "hold" => some { bench with holding := (step.item 1).toFlag }
  | "fail" =>
    some { bench with refusals := bench.refusals.insert subject (step.item 2).toText }
  | "unfail" => some { bench with refusals := bench.refusals.erase subject }
  | _ => none

/-- Releases the job at a position, or all jobs if none is given. -/
def release (workshop : Workshop) (position : Json) : Json × Workshop :=
  let (jobs, workshop) := workshop.release position.nat?
  let shown := jobs.map Report.waiting
  (if position.isNull then .array shown else shown.headD .null, workshop)

namespace Compiling

def held (state : Compiling) : List MapId := state.kept.map SharedMap.id

def variant? (state : Compiling) (position : Json) : Option Variant :=
  position.nat?.bind fun position => state.variants[position]?

def keep (state : Compiling) (wanted : Json) (maps : List SharedMap) : Compiling :=
  if wanted.toFlag then { state with kept := state.kept ++ maps } else state

def tell (state : Compiling) (report : Report.Labelled Json) : Json × Compiling :=
  let (answer, labels) := report state.labels
  (answer, { state with labels })

def onManager (state : Compiling) (manager : Manager) : Compiling :=
  { state with workshop := { state.workshop with manager } }

/-! ### Acts -/

/-- What an act has to report, and the maps that came with it. -/
structure Told where
  report : Report.Labelled Json
  maps : List SharedMap := []

/-- Carries out a step that may also happen while a request is served. -/
def act (state : Compiling) (workshop : Workshop) (step : Json) : Option Told × Workshop :=
  let resource : ResourceId := Notation.identifier (step.item 2)
  let identity := (state.variant? (step.item 1)).map fun variant => variant.identity state.catalog
  match nameOf step, identity with
  | "attach", some identity =>
    let (job, manager) := workshop.manager.attach identity resource
    (some { report := pure (Report.option Report.identifier job) }, { workshop with manager })
  | "in_flight", some identity =>
    let job := workshop.manager.inFlight? identity
    (some { report := pure (Report.option Report.identifier job) }, workshop)
  | "cancel_req", some identity =>
    let jobs := (workshop.manager.inFlight? identity).toList
    let manager := workshop.manager.cancel resource jobs
    (some { report := pure (Report.list Report.identifier jobs) }, { workshop with manager })
  | "process", _ =>
    let (finished, workshop) := workshop.process state.held
    (some ⟨Report.listM Report.finished finished, finished.filterMap FinishedCompile.map?⟩,
      workshop)
  | _, _ => (none, workshop)

def acts (state : Compiling) (steps : List Json) : Workshop.Meanwhile Told := fun workshop =>
  steps.foldl (fun (told, workshop) step =>
    let (more, workshop) := state.act workshop step
    (told ++ more.toList, workshop)) ([], workshop)

/-! ### Requests -/

def request (state : Compiling) (variant : Variant) (resource : ResourceId) (options : Json) :
    CompileRequest where
  identity := variant.identity state.catalog
  variant := variant
  permutations := match options.field? "perms" with
    | some permutations => permutations.items.map Notation.permutation
    | none => variant.permutations state.catalog
  resource := resource
  synchronous := (options.field "sync").toFlag

def begin (state : Compiling) (step : Json) (variant : Variant) : Json × Compiling :=
  let options := step.item 3
  let request := state.request variant (Notation.identifier (step.item 2)) options
  let workshop :=
    if request.synchronous then state.bench.hurry state.workshop else state.workshop
  let (outcome, told, workshop) := workshop.begin state.held request
    (state.acts (options.field "translate").items) (state.acts (options.field "submit").items)
  let state := { state with workshop := state.bench.equip workshop }
  let state := match outcome with
    | .ok (.compiled map) => state.keep (options.field "keep") [map]
    | _ => state
  state.tell do
    let told ← Report.listM Told.report told
    return .array [← Report.outcome outcome, told]

def find (state : Compiling) (variant : Variant) : Json × Compiling :=
  let (found, registry) := state.workshop.registry.find (state.workshop.heldMaps state.held)
    (variant.identity state.catalog)
  let state := { state with workshop := { state.workshop with registry } }
  state.tell (match found with
    | none => pure .null
    | some shared => return .array [← Report.label shared.id, .text shared.map.name,
        .bool (shared.map.isComplete (variant.permutations state.catalog)),
        Report.codeDigests shared.map])

def take (state : Compiling) (job : JobId) (resource : ResourceId) (keep : Json) :
    Json × Compiling :=
  let (taken, manager) := state.workshop.manager.take job resource
  let state := state.onManager manager
  match taken with
  | none => (.null, state)
  | some result => (state.keep keep result.toOption.toList).tell do
      return .array [← Report.compileResult result]

def stored (state : Compiling) (variant : Variant) : Json :=
  let blob := state.workshop.store.blobs.get? (variant.identity state.catalog).storeKey
  .array [.bool blob.isSome, Report.option Report.textOf blob]

def manage (state : Compiling) (step : Json) : Json × Compiling :=
  let first := step.item 1
  let second := step.item 2
  let manager := state.workshop.manager
  match nameOf step, state.variant? first with
  | "release", _ =>
    let (answer, workshop) := release state.workshop first
    (answer, { state with workshop })
  | "begin", some variant => state.begin step variant
  | "is_compiling", _ => (.bool (manager.isCompiling (Notation.identifier first)), state)
  | "finish", _ =>
    let jobs := first.items.map Notation.identifier
    (.null, { state with workshop := state.workshop.releaseAll.finish state.held jobs })
  | "finish_all", _ =>
    (.null, { state with workshop := state.workshop.releaseAll.finishAll state.held })
  | "take", _ =>
    state.take (Notation.identifier first) (Notation.identifier second) (step.item 3)
  | "cancel", _ =>
    let jobs := second.items.map Notation.identifier
    (.null, state.onManager (manager.cancel (Notation.identifier first) jobs))
  | "shutdown", _ => (.null, state.onManager manager.shutdown)
  | "drop_kept", _ => (.null, { state with kept := [] })
  | "find", some variant => state.find variant
  | "stored", some variant => (state.stored variant, state)
  | _, _ => (.null, state)

/-! ### Steps -/

def answer (state : Compiling) (step : Json) : Json × Compiling :=
  match state.act state.workshop step, onBench state.bench step with
  | (some told, workshop), _ =>
    ({ state with workshop }.keep (step.item 1) told.maps).tell told.report
  | _, some bench => (.null, { state with bench, workshop := bench.equip state.workshop })
  | _, _ => state.manage step

/-- Answers with what was asked for and with some counts. -/
def perform (state : Compiling) (step : Json) : Except Fault (Json × Compiling) :=
  let (result, state) := state.answer step
  let workshop := state.workshop
  let counts := [workshop.manager.jobs.size, workshop.manager.lowerings,
    workshop.manager.submissions, workshop.liveMaps state.held, workshop.store.puts,
    workshop.compiler.waiting.length]
  .ok (.record [("r", result), ("c", Report.naturals counts)], state)

/-- A script is a catalog, the variants that requests are made for, and whether
there is a store. -/
def start (script : Json) : Compiling where
  catalog := Notation.catalog script
  variants := (script.field "reqs").items.map Notation.variant
  workshop := { usesStore := (script.field "store").flag?.getD true }

end Compiling

end Shading.Script
