/-
The state of compiling. A compile in flight gathers the results of its
permutations for all the resources that have asked for the same identity; there
is at most one such compile at a time. When the last permutation has reported,
the compile is finished and its result waits until every resource has taken it.
Results of the compiler arrive in an inbox and count only once it is emptied.
-/

import Shading.Compile.Compiler
import Shading.Map.Registry
import Shading.Map.Store
import Shading.Map.Variant

namespace Shading

/-- Why a compile has no map. -/
inductive CompileFailure where
  | lowering (error : LoweringError)
  | compile (errors : List CompileError)
deriving DecidableEq, Inhabited

namespace CompileFailure

def messages : CompileFailure → List String
  | .lowering error => [error.message]
  | .compile errors => errors.map CompileError.message

def toFailure : CompileFailure → Failure
  | .lowering error => .lowering error
  | .compile errors => .compile errors

end CompileFailure

/-- What a resource wants compiled. -/
structure CompileRequest where
  identity : MapIdentity
  variant : Variant
  permutations : List Permutation
  resource : ResourceId
  synchronous : Bool := false

inductive CompileOutcome where
  | compiled (map : SharedMap)
  | failed (failure : CompileFailure)
  | pending (job : JobId)
  | attached (job : JobId)

/-- A compile that is not finished. Until its material has been lowered it has
no permutations to wait for and yet is not done. -/
structure InFlight where
  /-- The map that is made. Nobody else has it before it is filled. -/
  map : ShaderMap
  empty : map.content = none
  resources : List ResourceId
  lowering : Bool := true
  remaining : List Permutation := []
  binaries : List (Permutation × Binary) := []
  profile : Option Profile := none
  errors : List CompileError := []

namespace InFlight

abbrev identity (entry : InFlight) : MapIdentity := entry.map.identity

abbrev name (entry : InFlight) : String := entry.map.name

/-- The map, filled with the binaries there are. -/
def filled (entry : InFlight) (profile : Profile) : ShaderMap :=
  (entry.map.fill ⟨entry.binaries, profile⟩).2

theorem filled_eq (entry : InFlight) (profile : Profile) : entry.filled profile =
    { identity := entry.identity, name := entry.name,
      content := some ⟨entry.binaries, profile⟩ } := by
  unfold filled ShaderMap.fill
  rw [entry.empty]

end InFlight

/-- The entry of a compile that has just been begun. Its map is empty. -/
def CompileRequest.entry (request : CompileRequest) : InFlight where
  map := { identity := request.identity, name := request.variant.description.name }
  empty := rfl
  resources := [request.resource]

/-- The result of a compile, for the resources that have not taken it yet. -/
structure FinishedCompile where
  job : JobId
  identity : MapIdentity
  result : Except CompileFailure SharedMap
  resources : List ResourceId

namespace FinishedCompile

def map? (finished : FinishedCompile) : Option SharedMap := finished.result.toOption

end FinishedCompile

structure Manager where
  jobs : Table JobId InFlight := .empty
  byIdentity : Table MapIdentity JobId := .empty
  finished : List FinishedCompile := []
  /-- The resources that wait for a job and take its result themselves. -/
  waiters : List (JobId × ResourceId) := []
  /-- Finished maps that have yet to be written to the store. -/
  unwritten : List SharedMap := []
  inbox : List PermutationResult := []
  nextJob : JobId := .first
  lowerings : Nat := 0
  submissions : Nat := 0

namespace Manager

def inFlight? (manager : Manager) (identity : MapIdentity) : Option JobId :=
  manager.byIdentity.get? identity

def isCompiling (manager : Manager) (job : JobId) : Bool := manager.jobs.contains job

/-- The maps that finished compiles keep alive. -/
def heldMaps (manager : Manager) : List MapId :=
  (manager.finished.filterMap FinishedCompile.map? ++ manager.unwritten).map SharedMap.id

def addOnce {α : Type} [DecidableEq α] (entries : List α) (entry : α) : List α :=
  if entry ∈ entries then entries else entries ++ [entry]

theorem mem_addOnce {α : Type} [DecidableEq α] {entries : List α} {entry other : α} :
    other ∈ addOnce entries entry ↔ other ∈ entries ∨ other = entry := by
  unfold addOnce
  split
  · rename_i member
    exact ⟨.inl, fun either => either.elim id fun same => same ▸ member⟩
  · rw [List.mem_append, List.mem_singleton]

/-- Lets a resource share the compile of a job. -/
def join (manager : Manager) (job : JobId) (resource : ResourceId) : Manager :=
  { manager with
    jobs := manager.jobs.modify job fun entry =>
      { entry with resources := addOnce entry.resources resource } }

/-- Joins the compile of an identity if one is in flight. -/
def attach (manager : Manager) (identity : MapIdentity) (resource : ResourceId) :
    Option JobId × Manager :=
  match manager.inFlight? identity with
  | some job => (some job, manager.join job resource)
  | none => (none, manager)

def addWaiter (manager : Manager) (job : JobId) (resource : ResourceId) : Manager :=
  { manager with waiters := addOnce manager.waiters (job, resource) }

def removeWaiter (manager : Manager) (job : JobId) (resource : ResourceId) : Manager :=
  { manager with waiters := manager.waiters.filter (· ≠ (job, resource)) }

/-- Enters a new compile for a request. -/
def start (manager : Manager) (request : CompileRequest) : JobId × Manager :=
  let job := manager.nextJob
  (job, { manager with
    jobs := manager.jobs.insert job request.entry
    byIdentity := manager.byIdentity.insert request.identity job
    nextJob := job.next
    lowerings := manager.lowerings + 1 })

/-- Forgets a compile in flight. -/
def remove (manager : Manager) (job : JobId) (entry : InFlight) : Manager :=
  { manager with
    jobs := manager.jobs.erase job
    byIdentity := manager.byIdentity.erase entry.identity }

/-- Ends a compile whose material could not be lowered. The requester is told
directly; whoever joined meanwhile finds the failure as a finished result. -/
def abort (manager : Manager) (job : JobId) (requester : ResourceId) (error : LoweringError) :
    Manager :=
  let manager := manager.removeWaiter job requester
  match manager.jobs.get? job with
  | none => manager
  | some entry =>
    let manager := manager.remove job entry
    let others := entry.resources.filter (· ≠ requester)
    if others = [] then manager
    else { manager with
      finished := manager.finished ++ [⟨job, entry.identity, .error (.lowering error), others⟩] }

/-- Takes the result of a job for one resource. -/
def take (manager : Manager) (job : JobId) (resource : ResourceId) :
    Option (Except CompileFailure SharedMap) × Manager :=
  match manager.finished.findIdx? fun finished => finished.job = job with
  | none => (none, manager)
  | some position =>
    match manager.finished[position]? with
    | none => (none, manager)
    | some finished =>
      if resource ∈ finished.resources then
        let left := finished.resources.erase resource
        let rest :=
          if left = [] then manager.finished.eraseIdx position
          else manager.finished.set position { finished with resources := left }
        (some finished.result, { manager with finished := rest })
      else (none, manager)

/-- Takes a resource out of one compile in flight; a compile nobody waits for
is dropped. -/
def leave (resource : ResourceId) (manager : Manager) (job : JobId) : Manager :=
  match manager.jobs.get? job with
  | none => manager
  | some entry =>
    let left := entry.resources.filter (· ≠ resource)
    if left = [] then manager.remove job entry
    else { manager with jobs := manager.jobs.insert job { entry with resources := left } }

/-- Withdraws a resource from jobs, whether in flight or finished. -/
def cancel (manager : Manager) (resource : ResourceId) (jobs : List JobId) : Manager :=
  let manager := jobs.foldl (leave resource) manager
  let finished := manager.finished.map fun finished =>
    if finished.job ∈ jobs then
      { finished with resources := finished.resources.filter (· ≠ resource) }
    else finished
  { manager with finished := finished.filter fun finished => finished.resources ≠ [] }

/-- Drops everything but the inbox and the counters. -/
def shutdown (manager : Manager) : Manager :=
  { manager with
    jobs := .empty, byIdentity := .empty, finished := [], waiters := [], unwritten := [] }

/-! ### Results for everybody -/

/-- The part of a finished compile for resources that do not wait themselves,
and what is left of it. -/
def divide (waiters : List (JobId × ResourceId)) (finished : FinishedCompile) :
    Option FinishedCompile × Option FinishedCompile :=
  let waiting := finished.resources.filter fun resource => (finished.job, resource) ∈ waiters
  let others := finished.resources.filter fun resource => (finished.job, resource) ∉ waiters
  (if others = [] then none else some { finished with resources := others },
    if waiting = [] then none else some { finished with resources := waiting })

/-- Hands over all finished results, except to resources that wait for theirs. -/
def deliver (manager : Manager) : List FinishedCompile × Manager :=
  let parts := manager.finished.map (divide manager.waiters)
  (parts.filterMap Prod.fst, { manager with finished := parts.filterMap Prod.snd })

end Manager

end Shading
