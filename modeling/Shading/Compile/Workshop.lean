/-
Compiling, with everything it needs at hand: the state of the compiles, the
registry of live maps, a compiler and perhaps a store. The maps that others
keep alive are given to each operation that may meet them, because whether the
registry still has a map depends on that.

While a request is being served, other requests can come in: while the material
is lowered, and between the jobs handed to the compiler. `begin` takes what
happens at these two moments as arguments.
-/

import Shading.Compile.Manager

namespace Shading

structure Workshop where
  manager : Manager := {}
  registry : Registry := {}
  compiler : Compiler := {}
  store : MemoryStore := {}
  /-- Whether the store is used at all. -/
  usesStore : Bool := false

namespace Workshop

def heldMaps (workshop : Workshop) (held : List MapId) : List MapId :=
  held ++ workshop.manager.heldMaps

def liveMaps (workshop : Workshop) (held : List MapId) : Nat :=
  workshop.registry.size (workshop.heldMaps held)

/-! ### Finishing compiles -/

/-- Fills the map of a compile whose permutations have all been compiled. It is
offered to the registry, and kept for the store only if it was taken. -/
def makeMap (workshop : Workshop) (held : List MapId) (entry : InFlight) (profile : Profile) :
    SharedMap × Workshop :=
  let (own, registry) := workshop.registry.adopt (entry.filled profile)
  let (canonical, registry) := registry.register (workshop.heldMaps held) own
  let unwritten :=
    if workshop.usesStore && canonical.id = own.id then workshop.manager.unwritten ++ [own]
    else workshop.manager.unwritten
  (canonical, { workshop with registry, manager := { workshop.manager with unwritten } })

/-- Ends a compile in flight with its map or its errors. -/
def finalize (workshop : Workshop) (held : List MapId) (job : JobId) (entry : InFlight) :
    Workshop :=
  let workshop := { workshop with manager := workshop.manager.remove job entry }
  let (result, workshop) : Except CompileFailure SharedMap × Workshop :=
    match entry.profile with
    | some profile =>
      if entry.errors = [] then
        let (map, workshop) := workshop.makeMap held entry profile
        (.ok map, workshop)
      else (.error (.compile entry.errors), workshop)
    | none => (.error (.compile entry.errors), workshop)
  let finished := workshop.manager.finished ++ [⟨job, entry.identity, result, entry.resources⟩]
  { workshop with manager := { workshop.manager with finished } }

/-- Files the result of one permutation. -/
def record (entry : InFlight) (result : PermutationResult) : InFlight :=
  let entry := { entry with remaining := entry.remaining.filter (· ≠ result.permutation) }
  match result.outcome with
  | .ok binary =>
    { entry with binaries := MapContent.insertBinary result.permutation binary entry.binaries }
  | .error error => { entry with errors := entry.errors ++ [error] }

/-- Takes in one result; it counts only if its compile is still in flight. -/
def receive (held : List MapId) (workshop : Workshop) (result : PermutationResult) : Workshop :=
  match workshop.manager.jobs.get? result.group with
  | none => workshop
  | some entry =>
    let entry := record entry result
    let manager :=
      { workshop.manager with jobs := workshop.manager.jobs.insert result.group entry }
    let workshop := { workshop with manager }
    if entry.remaining = [] && !entry.lowering then workshop.finalize held result.group entry
    else workshop

/-- Empties the inbox. -/
def drain (workshop : Workshop) (held : List MapId) : Workshop :=
  let arrived := workshop.manager.inbox
  let workshop := { workshop with manager := { workshop.manager with inbox := [] } }
  arrived.foldl (receive held) workshop

/-- Puts one map into the store. -/
def write (store : MemoryStore) (shared : SharedMap) : MemoryStore :=
  match shared.map.archive with
  | .ok archive => store.put shared.map.identity.storeKey archive
  | .error _ => store

/-- Writes the maps that are due. -/
def flush (workshop : Workshop) : Workshop :=
  if workshop.usesStore then
    { workshop with
      store := workshop.manager.unwritten.foldl write workshop.store
      manager := { workshop.manager with unwritten := [] } }
  else workshop

def arrive (workshop : Workshop) (results : List PermutationResult) : Workshop :=
  { workshop with
    manager := { workshop.manager with inbox := workshop.manager.inbox ++ results } }

/-- Lets the compiler do everything it has kept waiting. -/
def releaseAll (workshop : Workshop) : Workshop :=
  let (results, compiler) := workshop.compiler.releaseAll
  { workshop with compiler }.arrive results

/-- Takes in all results and hands over those nobody waits for. -/
def process (workshop : Workshop) (held : List MapId) : List FinishedCompile × Workshop :=
  let workshop := (workshop.drain held).flush
  let (delivered, manager) := workshop.manager.deliver
  (delivered, { workshop with manager })

/-- Waits until jobs are finished. The compiler is made to work off its jobs if
results that have arrived already are not enough. -/
def finish (workshop : Workshop) (held : List MapId) (jobs : List JobId) : Workshop :=
  let workshop := workshop.drain held
  if jobs.any workshop.manager.isCompiling then
    (workshop.releaseAll.drain held).flush
  else workshop.flush

def finishAll (workshop : Workshop) (held : List MapId) : Workshop :=
  let jobs := workshop.manager.jobs.keys
  if jobs = [] then workshop else workshop.finish held jobs

/-! ### Requests -/

/-- Waits for a job on behalf of one resource. A job that was cancelled
meanwhile has failed without errors. -/
def await (workshop : Workshop) (held : List MapId) (job : JobId) (resource : ResourceId) :
    CompileOutcome × Workshop :=
  let workshop := workshop.finish held [job]
  let (result, manager) := workshop.manager.take job resource
  let workshop := { workshop with manager := manager.removeWaiter job resource }
  match result with
  | some (.ok map) => (.compiled map, workshop)
  | some (.error failure) => (.failed failure, workshop)
  | none => (.failed (.compile []), workshop)

/-- The lowered material is known: from now on the compile waits for its
permutations. Nothing happens if it was cancelled meanwhile. -/
def lowered (workshop : Workshop) (held : List MapId) (job : JobId)
    (permutations : List Permutation) (profile : Profile) : Option Workshop :=
  (workshop.manager.jobs.get? job).map fun entry =>
    let entry :=
      { entry with
        lowering := false, remaining := permutations.eraseDups, profile := some profile }
    let manager := { workshop.manager with jobs := workshop.manager.jobs.insert job entry }
    let workshop := { workshop with manager }
    if entry.remaining = [] then workshop.finalize held job entry else workshop

def submit (workshop : Workshop) (job : PermutationJob) : Workshop :=
  let (results, compiler) := workshop.compiler.submit job
  { workshop with compiler }.arrive results

/-- What happens besides a request, and what it tells. -/
abbrev Meanwhile (α : Type) := Workshop → List α × Workshop

/-- Submits the jobs of a compile, other things happening after the first one. -/
def submitAll {α : Type} (meanwhile : Meanwhile α) (workshop : Workshop) :
    List PermutationJob → List α × Workshop
  | [] => ([], workshop)
  | first :: rest =>
    let (told, workshop) := meanwhile (workshop.submit first)
    (told, rest.foldl submit workshop)

def permutationJobs (request : CompileRequest) (job : JobId) (source : String) :
    List PermutationJob :=
  request.permutations.map fun permutation =>
    { group := job, permutation, source, tier := request.variant.tier,
      name := request.variant.description.name }

/-- Joins the compile in flight for the identity of a request. -/
def joinRequest (workshop : Workshop) (held : List MapId) (request : CompileRequest)
    (job : JobId) : CompileOutcome × Workshop :=
  let manager := workshop.manager.join job request.resource
  if request.synchronous then
    let manager := manager.addWaiter job request.resource
    { workshop with manager }.await held job request.resource
  else (.attached job, { workshop with manager })

/-- The second half of a new compile: its material has been lowered. -/
def compileLowered {α : Type} (workshop : Workshop) (held : List MapId) (request : CompileRequest)
    (job : JobId) (material : LoweredMaterial) (meanwhile : Meanwhile α) :
    (CompileOutcome × List α) × Workshop :=
  match workshop.lowered held job request.permutations material.profile with
  | none => ((.pending job, []), workshop)
  | some workshop =>
    let workshop := workshop.flush
    let manager := { workshop.manager with submissions := workshop.manager.submissions + 1 }
    let (told, workshop) := { workshop with manager }.submitAll meanwhile
      (permutationJobs request job material.source)
    if request.synchronous then
      let (outcome, workshop) := workshop.await held job request.resource
      ((outcome, told), workshop)
    else ((.pending job, told), workshop)

/-- Serves a request. The compile in flight for its identity is joined, if
there is one; otherwise a new compile is entered before its material is
lowered, so that requests coming in while that happens can join it. -/
def begin {α : Type} (workshop : Workshop) (held : List MapId) (request : CompileRequest)
    (whileLowering afterFirst : Meanwhile α) :
    Except LoweringError CompileOutcome × List α × Workshop :=
  match workshop.manager.inFlight? request.identity with
  | some job =>
    let (outcome, workshop) := workshop.joinRequest held request job
    (.ok outcome, [], workshop)
  | none =>
    let (job, manager) := workshop.manager.start request
    let manager :=
      if request.synchronous then manager.addWaiter job request.resource else manager
    let (before, workshop) := whileLowering { workshop with manager }
    match request.variant.lower with
    | .error error =>
      let manager := workshop.manager.abort job request.resource error
      (.error error, before, { workshop with manager })
    | .ok material =>
      let ((outcome, after), workshop) :=
        workshop.compileLowered held request job material afterFirst
      (.ok outcome, before ++ after, workshop)

/-- Nothing else happens. -/
def undisturbed : Meanwhile Unit := fun workshop => ([], workshop)

/-- Serves a request without anything else happening. -/
def request (workshop : Workshop) (held : List MapId) (request : CompileRequest) :
    Except LoweringError CompileOutcome × Workshop :=
  let (outcome, _, workshop) := workshop.begin held request undisturbed undisturbed
  (outcome, workshop)

end Workshop

end Shading
