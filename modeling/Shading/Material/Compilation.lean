/-
How resources get their maps. A resource first looks for a map that is there
already. If there is none it joins a compile in flight or begins one, and while
it waits it has no map; the renderer draws the default material instead. The
default material itself cannot wait and must not fail.
-/

import Shading.Material.System

namespace Shading.System

/-! ### Jobs -/

/-- Stops waiting. Work that has begun goes on, but its result is not wanted. -/
def cancelCompilation (system : System) (id : ResourceId) : System :=
  match system.resources.get? id with
  | none => system
  | some resource =>
    if resource.jobs = [] then system
    else (system.onManager fun manager => manager.cancel id resource.jobs).onResource id
      fun resource => { resource with jobs := [] }

/-- Waits for one job and no longer for others. -/
def keepOnlyJob (system : System) (id : ResourceId) (job : JobId) : System :=
  match system.resources.get? id with
  | none => system
  | some resource =>
    let stale := resource.jobs.filter (· ≠ job)
    let system :=
      if stale = [] then system else system.onManager fun manager => manager.cancel id stale
    system.onResource id fun resource => { resource with jobs := [job] }

def addJob (system : System) (id : ResourceId) (job : JobId) : System :=
  system.onResource id fun resource => { resource with jobs := resource.jobs ++ [job] }

def setErrors (system : System) (id : ResourceId) (errors : List String) : System :=
  system.onResource id fun resource => { resource with errors }

/-! ### Results -/

def succeed (system : System) (id : ResourceId) (map : SharedMap) : System :=
  (system.setErrors id []).setMap id map

/-- Takes a failure; the default material cannot go on after one. -/
def fail (system : System) (id : ResourceId) (resource : Resource) (failure : CompileFailure) :
    Except Fault System :=
  if resource.isDefault then .error (.defaultUncompiled resource.name)
  else .ok ((system.setErrors id failure.messages).setMap id none)

def conclude (system : System) (id : ResourceId) (resource : Resource)
    (result : Except CompileFailure SharedMap) : Except Fault System :=
  match result with
  | .ok map => .ok (system.succeed id map)
  | .error failure => system.fail id resource failure

/-- Where only cooked data counts, a map that is not there cannot be had. -/
def fallBack (system : System) (id : ResourceId) (resource : Resource) : Except Fault System :=
  if resource.isDefault then .error (.defaultUncooked resource.name)
  else
    let failure := Failure.missingCookedMap resource.name
    .ok ((system.setErrors id [failure.message]).setMap id none)

/-! ### Getting a map -/

/-- Serves a request to compile and tells whether a map came of it at once. -/
def compile (system : System) (id : ResourceId) (resource : Resource) (identity : MapIdentity)
    (synchronous : Bool) : Except Fault (Bool × System) :=
  let system := system.cancelCompilation id
  let request : CompileRequest := {
    identity
    variant := resource.variant
    permutations := resource.variant.permutations system.catalog
    resource := id
    synchronous }
  let (outcome, workshop) := system.workshop.request system.heldMaps request
  let system := { system with workshop }
  match outcome with
  | .ok (.compiled map) => .ok (true, system.succeed id map)
  | .ok (.failed failure) => (system.fail id resource failure).map (false, ·)
  | .ok (.pending job) | .ok (.attached job) =>
    .ok (false, (system.addJob id job).setMap id none)
  | .error error => (system.fail id resource (.lowering error)).map (false, ·)

/-- Joins a compile in flight if there is one for the identity. -/
def attach (system : System) (id : ResourceId) (identity : MapIdentity) : Option System :=
  match system.workshop.manager.attach identity id with
  | (none, _) => none
  | (some job, manager) =>
    some (((system.onManager fun _ => manager).keepOnlyJob id job).setMap id none)

/-- Compiles a map that was not found anywhere. -/
def obtain (system : System) (id : ResourceId) (resource : Resource) (identity : MapIdentity) :
    Except Fault (Bool × System) :=
  if resource.isDefault || !system.settings.allowsAsyncCompilation then
    system.compile id resource identity true
  else match system.attach id identity with
    | some system => .ok (false, system)
    | none => system.compile id resource identity false

/-- Finds or compiles the map of a resource. Tells whether the resource has a
complete map now. -/
def cacheShaders (system : System) (id : ResourceId) : Except Fault (Bool × System) :=
  match system.resources.get? id with
  | none => .ok (false, system)
  | some resource =>
    let identity := resource.variant.identity system.catalog
    let required := resource.variant.permutations system.catalog
    let (found, system) := system.lookup identity
    match found.filter fun shared => shared.map.isComplete required with
    | some shared => .ok (true, (system.cancelCompilation id).succeed id shared)
    | none =>
      if system.settings.requiresCookedData then
        (system.fallBack id resource).map (false, ·)
      else system.obtain id resource identity

/-! ### Waiting -/

/-- Takes a result for one job; it counts only if the job is still waited for. -/
def complete (system : System) (id : ResourceId) (job : JobId)
    (result : Except CompileFailure SharedMap) : Except Fault (Bool × System) :=
  match system.resources.get? id with
  | none => .ok (false, system)
  | some resource =>
    if job ∈ resource.jobs then
      let system := system.onResource id fun resource =>
        { resource with jobs := resource.jobs.erase job }
      (system.conclude id resource result).map (true, ·)
    else .ok (false, system)

def isCompilationFinished (system : System) (id : ResourceId) : Bool :=
  match system.resources.get? id with
  | none => true
  | some resource => resource.jobs.all fun job => !system.workshop.manager.isCompiling job

def takeResult (system : System) (id : ResourceId) (job : JobId) : Except Fault System :=
  match system.workshop.manager.take job id with
  | (none, _) => .ok system
  | (some result, manager) =>
    ((system.onManager fun _ => manager).complete id job result).map Prod.snd

/-- Waits until the jobs of a resource are finished and takes their results. -/
def finishCompilation (system : System) (id : ResourceId) : Except Fault System :=
  match system.resources.get? id with
  | none => .ok system
  | some resource =>
    if resource.jobs = [] then .ok system
    else
      let workshop := system.workshop.finish system.heldMaps resource.jobs
      resource.jobs.foldlM (fun system job => system.takeResult id job) { system with workshop }

/-- Empties the inbox and hands out what is finished. -/
def processResults (system : System) : List FinishedCompile × System :=
  let (finished, workshop) := system.workshop.process system.heldMaps
  (finished, { system with workshop })

/-! ### Giving a map up -/

/-- Takes the map of a resource away, on both sides. -/
def releaseMap (system : System) (id : ResourceId) : System :=
  ((system.cancelCompilation id).onResource id fun resource =>
    { resource with map := none }).publish id

/-- Drops the map of a resource without a word to the renderer, which must not
have one nor have one on its way. -/
def discardMap (system : System) (id : ResourceId) : Except Failure Unit × System :=
  if (system.bindingOf id).isQuiescent then
    (.ok (), system.onResource id fun resource => { resource with map := none })
  else (.error (.mapStillBound id), system)

/-- Cancels all compiles and forgets the maps nobody holds. -/
def shutdown (system : System) : System :=
  let system := system.onManager Manager.shutdown
  let (_, registry) :=
    system.workshop.registry.purge (system.workshop.heldMaps system.heldMaps)
  { system with workshop := { system.workshop with registry } }

/-! ### Inline archives -/

def saveInline (system : System) (id : ResourceId) (packaged : Bool) :
    Except Failure (List UInt8) :=
  InlineMap.write packaged (((system.resources.get? id).bind Resource.map).map SharedMap.map)

/-- Takes the map from an inline archive, or an equal one that is live. The
renderer learns of it only when it is published. -/
def loadInline (system : System) (id : ResourceId) (archive : List UInt8) :
    Except Failure (Bool × System) := do
  match (← InlineMap.read archive).map with
  | none => .ok (false, system)
  | some map =>
    let (canonical, system) := match system.findMap map.identity with
      | (some shared, system) => (shared, system)
      | (none, system) => system.registerMap map
    .ok (true, system.onResource id fun resource =>
      { resource with map := some canonical, hasInline := true })

/-- Sends a map taken from an inline archive to the renderer. -/
def publishInline (system : System) (id : ResourceId) : System :=
  if ((system.resources.get? id).bind Resource.map).isSome then system.publish id else system

end Shading.System
