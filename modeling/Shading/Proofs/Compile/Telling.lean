/-
What is told of compiles while a workshop works. For everything a workshop does
it is said here which compiles begin, end and are left meanwhile, and that
nothing else happens: whatever is done comes down to steps that tell just this.
-/

import Shading.Proofs.Compile.Evolving

namespace Shading.Workshop

/-! ### What is told -/

/-- How a compile has ended. -/
def ending (job : JobId) : Except CompileFailure SharedMap → Occurrence
  | .ok shared => .made job shared
  | .error _ => .failed job

/-- A compile that ends is the last of those that are finished then. -/
def toldByFinalize (workshop : Workshop) (held : List MapId) (job : JobId) (entry : InFlight) :
    List Occurrence :=
  (workshop.finalize held job entry).manager.finished.getLast?.toList.map fun compile =>
    ending compile.job compile.result

def toldByReceive (held : List MapId) (workshop : Workshop) (result : PermutationResult) :
    List Occurrence :=
  match workshop.manager.jobs.get? result.group with
  | none => []
  | some entry =>
    let entry := record entry result
    if entry.remaining = [] && !entry.lowering then
      (workshop.withEntry result.group entry).toldByFinalize held result.group entry
    else []

def toldByResults (held : List MapId) : Workshop → List PermutationResult → List Occurrence
  | _, [] => []
  | workshop, first :: rest =>
    toldByReceive held workshop first ++ toldByResults held (receive held workshop first) rest

/-- The workshop with an empty inbox. -/
def emptied (workshop : Workshop) : Workshop :=
  { workshop with manager := { workshop.manager with inbox := [] } }

def toldByDrain (workshop : Workshop) (held : List MapId) : List Occurrence :=
  toldByResults held workshop.emptied workshop.manager.inbox

def toldByFinish (workshop : Workshop) (held : List MapId) (jobs : List JobId) :
    List Occurrence :=
  workshop.toldByDrain held ++
    if jobs.any (workshop.drain held).manager.isCompiling then
      (workshop.drain held).releaseAll.toldByDrain held
    else []

def toldByFinishAll (workshop : Workshop) (held : List MapId) : List Occurrence :=
  let jobs := workshop.manager.jobs.keys
  if jobs = [] then [] else workshop.toldByFinish held jobs

/-- The last resource that waits for a compile leaves it. -/
def toldByLeave (resource : ResourceId) (manager : Manager) (job : JobId) : List Occurrence :=
  match manager.jobs.get? job with
  | none => []
  | some entry => if entry.resources.filter (· ≠ resource) = [] then [.left job] else []

def toldByCancel (resource : ResourceId) : Manager → List JobId → List Occurrence
  | _, [] => []
  | manager, job :: rest =>
    toldByLeave resource manager job ++ toldByCancel resource (manager.leave resource job) rest

def toldByAbort (workshop : Workshop) (job : JobId) : List Occurrence :=
  match workshop.manager.jobs.get? job with
  | none => []
  | some _ => [.failed job]

def toldByLowered (workshop : Workshop) (held : List MapId) (job : JobId)
    (permutations : List Permutation) (profile : Profile) : List Occurrence :=
  match workshop.manager.jobs.get? job with
  | none => []
  | some entry =>
    let entry := expecting entry permutations profile
    if entry.remaining = [] then (workshop.withEntry job entry).toldByFinalize held job entry
    else []

/-! ### Requests -/

/-- A request has joined the compile of its identity and waits for it. -/
def joined (workshop : Workshop) (request : CompileRequest) (job : JobId) : Workshop :=
  { workshop with manager :=
      (workshop.manager.join job request.resource).addWaiter job request.resource }

/-- The compile of a request has been entered. -/
def begun (workshop : Workshop) (request : CompileRequest) : Workshop :=
  { workshop with manager :=
      let (job, manager) := workshop.manager.start request
      if request.synchronous then manager.addWaiter job request.resource else manager }

/-- Its material has been lowered, and everything has been handed to the compiler. -/
def submitted (workshop : Workshop) (request : CompileRequest) (job : JobId)
    (material : LoweredMaterial) : Workshop :=
  let workshop := workshop.flush
  let manager := { workshop.manager with submissions := workshop.manager.submissions + 1 }
  ({ workshop with manager }.submitAll undisturbed
    (permutationJobs request job material.source)).2

def toldByCompileLowered (workshop : Workshop) (held : List MapId) (request : CompileRequest)
    (job : JobId) (material : LoweredMaterial) : List Occurrence :=
  workshop.toldByLowered held job request.permutations material.profile ++
    match workshop.lowered held job request.permutations material.profile with
    | none => []
    | some lowered =>
      if request.synchronous then
        (lowered.submitted request job material).toldByFinish held [job]
      else []

/-- What is told after a compile has been entered. -/
def toldByBegun (workshop : Workshop) (held : List MapId) (request : CompileRequest)
    (job : JobId) : List Occurrence :=
  match request.variant.lower with
  | .error _ => workshop.toldByAbort job
  | .ok material => workshop.toldByCompileLowered held request job material

def toldByRequest (workshop : Workshop) (held : List MapId) (request : CompileRequest) :
    List Occurrence :=
  match workshop.manager.inFlight? request.identity with
  | some job =>
    if request.synchronous then (workshop.joined request job).toldByFinish held [job] else []
  | none =>
    .started workshop.manager.nextJob request.identity ::
      (workshop.begun request).toldByBegun held request workshop.manager.nextJob

/-! ### Results that arrive -/

variable {needs : MapIdentity → Permutation → Prop} {outside : List SharedMap}
  {held : List MapId} {workshop next : Workshop} {job : JobId} {entry : InFlight}
  {request : CompileRequest}

theorem toldByFinalize_eq {later : Workshop} {result : Except CompileFailure SharedMap}
    (ended : workshop.finalize held job entry = later.conclude job entry result) :
    workshop.toldByFinalize held job entry = [ending job result] := by
  unfold toldByFinalize
  rw [ended]
  show ((later.manager.finished ++ [_]).getLast?).toList.map _ = _
  rw [List.getLast?_concat]
  rfl

theorem compileLowered_eq {material : LoweredMaterial} {entered : Workshop}
    (lowers : workshop.lowered held job request.permutations material.profile = some entered) :
    workshop.compileLowered held request job material undisturbed =
      let submitted := entered.submitted request job material
      if request.synchronous then
        (((submitted.await held job request.resource).1, []),
          (submitted.await held job request.resource).2)
      else ((.pending job, []), submitted) := by
  have nothing (workshop : Workshop) (jobs : List PermutationJob) :
      (workshop.submitAll undisturbed jobs).1 = [] := by
    cases jobs <;> rfl
  unfold Workshop.compileLowered
  rw [lowers]
  dsimp only
  rw [nothing]
  rfl

/-- How a request is served that finds a compile of its identity in flight. -/
theorem request_joins (flying : workshop.manager.inFlight? request.identity = some job) :
    workshop.request held request =
      let (outcome, next) := workshop.joinRequest held request job
      (.ok outcome, next) := by
  unfold Workshop.request Workshop.begin
  rw [flying]

/-- How a request is served that begins a compile. -/
theorem request_begins {material : LoweredMaterial}
    (absent : workshop.manager.inFlight? request.identity = none)
    (lowers : request.variant.lower = .ok material) :
    workshop.request held request =
      let ((outcome, _), next) := (workshop.begun request).compileLowered held request
        workshop.manager.nextJob material undisturbed
      (.ok outcome, next) := by
  unfold Workshop.request Workshop.begin
  rw [absent]
  dsimp only [undisturbed]
  rw [lowers]
  rfl

/-- How a request is served whose material cannot be lowered. -/
theorem request_fails {error : LoweringError}
    (absent : workshop.manager.inFlight? request.identity = none)
    (fails : request.variant.lower = .error error) :
    workshop.request held request =
      let begun := workshop.begun request
      let manager := begun.manager.abort workshop.manager.nextJob request.resource error
      (.error error, { begun with manager }) := by
  unfold Workshop.request Workshop.begin
  rw [absent]
  dsimp only [undisturbed]
  rw [fails]
  rfl

namespace Calm

theorem of_idle (idle : Idle workshop next)
    (lowerings : next.manager.lowerings = workshop.manager.lowerings) : Calm workshop next :=
  ⟨idle.registry, idle.jobs, idle.byIdentity, idle.nextJob, lowerings, idle.trimmed⟩

theorem emptied (workshop : Workshop) : Calm workshop workshop.emptied :=
  .of_idle ⟨rfl, rfl, rfl, rfl, rfl, rfl, rfl⟩ rfl

theorem releaseAll (workshop : Workshop) : Calm workshop workshop.releaseAll :=
  .of_idle (.releaseAll workshop) rfl

theorem flush (workshop : Workshop) : Calm workshop workshop.flush := by
  unfold Workshop.flush
  split
  · exact ⟨rfl, rfl, rfl, rfl, rfl, .of_finished rfl (List.nil_subset _)⟩
  · exact ⟨rfl, rfl, rfl, rfl, rfl, .refl _⟩

theorem submitAll (workshop : Workshop) (jobs : List PermutationJob) :
    Calm workshop (workshop.submitAll undisturbed jobs).2 := by
  have counts (start : Workshop) (jobs : List PermutationJob) :
      (jobs.foldl Workshop.submit start).manager.lowerings = start.manager.lowerings := by
    induction jobs generalizing start with
    | nil => rfl
    | cons first rest inductionHypothesis => exact inductionHypothesis _
  refine .of_idle (.submitAll workshop jobs) ?_
  cases jobs with
  | nil => rfl
  | cons first rest => exact counts _ rest

theorem begun (workshop : Workshop) (request : CompileRequest) :
    Calm { workshop with manager := (workshop.manager.start request).2 }
      (workshop.begun request) := by
  unfold Workshop.begun
  dsimp only
  split <;> exact .of_idle ⟨rfl, rfl, rfl, rfl, rfl, rfl, rfl⟩ rfl

theorem submitted (workshop : Workshop) (request : CompileRequest) (job : JobId)
    (material : LoweredMaterial) : Calm workshop (workshop.submitted request job material) := by
  have flushed := flush workshop
  have handed := submitAll { workshop.flush with manager := { workshop.flush.manager with
    submissions := workshop.flush.manager.submissions + 1 } }
    (permutationJobs request job material.source)
  exact ⟨handed.registry.trans flushed.registry, handed.jobs.trans flushed.jobs,
    handed.byIdentity.trans flushed.byIdentity, handed.nextJob.trans flushed.nextJob,
    handed.lowerings.trans flushed.lowerings, flushed.trimmed.trans
      ⟨handed.trimmed.finished, handed.trimmed.unwritten⟩⟩

/-- Taking a result leaves everything alone but what is finished. -/
theorem take (orderly : workshop.manager.Orderly needs) (job : JobId) (resource : ResourceId) :
    Calm workshop { workshop with manager := (workshop.manager.take job resource).2 } := by
  have trimmed := (Manager.taken orderly job resource).2.1
  have rest : (workshop.manager.take job resource).2 =
      { workshop.manager with finished := (workshop.manager.take job resource).2.finished } := by
    unfold Manager.take
    split
    · rfl
    · split
      · rfl
      · dsimp only
        split <;> rfl
  rw [rest] at trimmed ⊢
  exact ⟨rfl, rfl, rfl, rfl, rfl, trimmed⟩

end Calm

namespace Evolves

theorem finalize (found : workshop.manager.jobs.get? job = some entry)
    (lowered : entry.lowering = false) (arrived : entry.remaining = [])
    (holds : ∀ shared ∈ outside, shared.id ∈ held) :
    Evolves needs (outside, workshop) (workshop.toldByFinalize held job entry)
      (outside, workshop.finalize held job entry) := by
  rcases finalize_cases workshop held job entry with ⟨failure, ended⟩ |
    ⟨profile, made, later, clean, ran, ended⟩
  · rw [toldByFinalize_eq ended, ended]
    exact single (.fail entry failure found rfl)
  · rw [toldByFinalize_eq ended, ended]
    exact single (.make held found lowered arrived clean holds ran)

/-- The entry of a compile is written anew, and perhaps the compile ends with that. -/
theorem settle {revised : InFlight} (found : workshop.manager.jobs.get? job = some entry)
    (same : revised.identity = entry.identity) (lowered : revised.lowering = false)
    (covers : (entry.lowering = false → entry.Covers (needs entry.identity)) →
      revised.Covers (needs entry.identity))
    (arrived : revised.remaining = []) (holds : ∀ shared ∈ outside, shared.id ∈ held) :
    Evolves needs (outside, workshop)
      ((workshop.withEntry job revised).toldByFinalize held job revised)
      (outside, (workshop.withEntry job revised).finalize held job revised) :=
  (single (.revise found same fun _ => covers)).trans
    (finalize ((Table.get?_insert ..).trans (if_pos rfl)) lowered arrived holds)

theorem receive (holds : ∀ shared ∈ outside, shared.id ∈ held) (result : PermutationResult) :
    Evolves needs (outside, workshop) (toldByReceive held workshop result)
      (outside, Workshop.receive held workshop result) := by
  unfold toldByReceive Workshop.receive
  cases found : workshop.manager.jobs.get? result.group with
  | none => exact refl _
  | some entry =>
    have same := InFlight.record_identity entry result
    have unlowered := InFlight.record_lowering entry result
    dsimp only
    split
    · rename_i last
      obtain ⟨arrived, lowered⟩ := Bool.and_eq_true_iff.mp last
      rw [Bool.not_eq_true'] at lowered
      exact settle found same lowered (fun covers => (covers (unlowered ▸ lowered)).record result)
        (of_decide_eq_true arrived) holds
    · exact single (.revise found same fun lowered covers =>
        (covers (unlowered ▸ lowered)).record result)

theorem results (holds : ∀ shared ∈ outside, shared.id ∈ held)
    (arrived : List PermutationResult) :
    Evolves needs (outside, workshop) (toldByResults held workshop arrived)
      (outside, arrived.foldl (Workshop.receive held) workshop) := by
  induction arrived generalizing workshop with
  | nil => exact refl _
  | cons first rest inductionHypothesis => exact (receive holds first).trans inductionHypothesis

theorem drain (holds : ∀ shared ∈ outside, shared.id ∈ held) :
    Evolves needs (outside, workshop) (workshop.toldByDrain held)
      (outside, workshop.drain held) :=
  (calm (.emptied workshop)).trans (results holds workshop.manager.inbox)

theorem finish (holds : ∀ shared ∈ outside, shared.id ∈ held) (jobs : List JobId) :
    Evolves needs (outside, workshop) (workshop.toldByFinish held jobs)
      (outside, workshop.finish held jobs) := by
  unfold toldByFinish Workshop.finish
  refine (drain holds).trans ?_
  dsimp only
  split
  · exact ((calm (.releaseAll _)).trans (drain holds)).thenCalm (.flush _)
  · exact calm (.flush _)

theorem finishAll (holds : ∀ shared ∈ outside, shared.id ∈ held) :
    Evolves needs (outside, workshop) (workshop.toldByFinishAll held)
      (outside, workshop.finishAll held) := by
  unfold toldByFinishAll Workshop.finishAll
  dsimp only
  split
  · exact refl _
  · exact finish holds _

/-- The maps of finished compiles may be handed over with their results. -/
theorem process (holds : ∀ shared ∈ outside, shared.id ∈ held) :
    Evolves needs (outside, workshop) (workshop.toldByDrain held)
      ((workshop.process held).1.filterMap FinishedCompile.map? ++ outside,
        (workshop.process held).2) := by
  have flushed : Evolves needs (outside, workshop) (workshop.toldByDrain held)
      (outside, (workshop.drain held).flush) := (drain holds).thenCalm (.flush _)
  have handed : (workshop.process held).1.filterMap FinishedCompile.map? ++ outside ⊆
      outside ++ (workshop.drain held).flush.manager.maps := by
    intro shared member
    rcases List.mem_append.mp member with delivered | outer
    · obtain ⟨part, there, is⟩ := List.mem_filterMap.mp delivered
      obtain ⟨divided, among, first⟩ := List.mem_filterMap.mp there
      obtain ⟨whole, before, rfl⟩ := List.mem_map.mp among
      refine List.mem_append_right _ (List.mem_append_left _ (List.mem_filterMap.mpr
        ⟨whole, before, ?_⟩))
      unfold Manager.divide at first
      dsimp only at first
      split at first
      · cases first
      · cases first
        exact is
    · exact List.mem_append_left _ outer
  have delivers : Calm (workshop.drain held).flush (workshop.process held).2 :=
    ⟨rfl, rfl, rfl, rfl, rfl, Manager.trimmed_deliver _⟩
  have steps := flushed.trans ((pass handed).thenCalm delivers)
  rwa [List.append_nil] at steps

/-! ### Joining and leaving -/

theorem join (job : JobId) (resource : ResourceId) :
    Evolves needs (outside, workshop) []
      (outside, { workshop with manager := workshop.manager.join job resource }) := by
  unfold Manager.join Table.modify
  split
  · rename_i entry found
    exact single (.revise found rfl fun lowered covers => covers lowered)
  · exact refl _

theorem leave (resource : ResourceId) (job : JobId) :
    Evolves needs (outside, workshop) (toldByLeave resource workshop.manager job)
      (outside, { workshop with manager := workshop.manager.leave resource job }) := by
  unfold toldByLeave Manager.leave
  cases found : workshop.manager.jobs.get? job with
  | none => exact refl _
  | some entry =>
    dsimp only
    split
    · rename_i alone
      exact single (.abandon resource found alone)
    · exact single (.revise found rfl fun lowered covers => covers lowered)

theorem cancel (resource : ResourceId) (jobs : List JobId) :
    Evolves needs (outside, workshop) (toldByCancel resource workshop.manager jobs)
      (outside, { workshop with manager := workshop.manager.cancel resource jobs }) := by
  have left (workshop : Workshop) : Evolves needs (outside, workshop)
      (toldByCancel resource workshop.manager jobs)
      (outside, { workshop with
        manager := jobs.foldl (Manager.leave resource) workshop.manager }) := by
    induction jobs generalizing workshop with
    | nil => exact refl _
    | cons job rest inductionHypothesis =>
      exact (leave resource job).trans (inductionHypothesis _)
  exact (left workshop).thenCalm
    ⟨rfl, rfl, rfl, rfl, rfl, workshop.manager.trimmed_cancel resource jobs⟩

/-! ### Requests -/

theorem abort (job : JobId) (requester : ResourceId) (error : LoweringError) :
    Evolves needs (outside, workshop) (workshop.toldByAbort job)
      (outside, { workshop with manager := workshop.manager.abort job requester error }) := by
  have unwaiting : Evolves needs (outside, workshop) []
      (outside, { workshop with manager := workshop.manager.removeWaiter job requester }) :=
    calm (.of_idle ⟨rfl, rfl, rfl, rfl, rfl, rfl, rfl⟩ rfl)
  have aborts : Evolves needs
      (outside, { workshop with manager := workshop.manager.removeWaiter job requester })
      (workshop.toldByAbort job)
      (outside, { workshop with manager := workshop.manager.abort job requester error }) := by
    have same : (workshop.manager.removeWaiter job requester).jobs = workshop.manager.jobs := rfl
    unfold toldByAbort Manager.abort
    dsimp only
    rw [same]
    cases found : workshop.manager.jobs.get? job with
    | none => exact refl _
    | some entry =>
      dsimp only
      split
      · exact single (.abort found)
      · exact single (.fail { entry with resources := entry.resources.filter (· ≠ requester) }
          (.lowering error) found rfl)
  exact unwaiting.trans aborts

/-- The material of a compile has been lowered, and whatever is needed has been asked for. -/
theorem lowered {permutations : List Permutation} {profile : Profile}
    (full : ∀ entry, workshop.manager.jobs.get? job = some entry →
      ∀ permutation, needs entry.identity permutation → permutation ∈ permutations)
    (holds : ∀ shared ∈ outside, shared.id ∈ held)
    (ran : workshop.lowered held job permutations profile = some next) :
    Evolves needs (outside, workshop) (workshop.toldByLowered held job permutations profile)
      (outside, next) := by
  obtain ⟨entry, found, _⟩ := Option.map_eq_some_iff.mp ran
  have covers : (expecting entry permutations profile).Covers (needs entry.identity) :=
    fun permutation needed => .inl (List.mem_eraseDups.mpr (full entry found permutation needed))
  have unfolded : workshop.lowered held job permutations profile =
      some (if (expecting entry permutations profile).remaining = [] then
          (workshop.withEntry job (expecting entry permutations profile)).finalize held job
            (expecting entry permutations profile)
        else workshop.withEntry job (expecting entry permutations profile)) := by
    unfold Workshop.lowered
    rw [found]
    rfl
  rw [unfolded] at ran
  cases ran
  unfold toldByLowered
  rw [found]
  dsimp only
  split
  · rename_i arrived
    exact settle found rfl rfl (fun _ => covers) arrived holds
  · exact single (.revise found rfl fun _ _ => covers)

/-- The map of a result that is taken is handed over. -/
theorem take {resource : ResourceId} {result : Option (Except CompileFailure SharedMap)}
    {manager : Manager} (orderly : workshop.manager.Orderly needs)
    (ran : workshop.manager.take job resource = (result, manager)) :
    Evolves needs (outside, workshop) []
      ((result.bind Except.toOption).toList ++ outside, { workshop with manager }) := by
  have taking := Calm.take orderly job resource
  have comes := (Manager.taken orderly job resource).2.2
  rw [ran] at taking comes
  have handed : (result.bind Except.toOption).toList ++ outside ⊆
      outside ++ workshop.manager.maps := by
    intro shared member
    rcases List.mem_append.mp member with taken | outer
    · obtain ⟨compiled, rfl, made⟩ := Option.bind_eq_some_iff.mp (Option.mem_toList.mp taken)
      obtain ⟨compile, ended, _, rfl⟩ := comes compiled rfl
      exact List.mem_append_right _ (List.mem_append_left _
        (List.mem_filterMap.mpr ⟨compile, ended, made⟩))
    · exact List.mem_append_left _ outer
  exact (pass handed).thenCalm taking

/-- What is waited for is handed over with the answer. -/
theorem await {outcome : CompileOutcome} (kept : Kept needs (outside, workshop))
    (holds : ∀ shared ∈ outside, shared.id ∈ held) (resource : ResourceId)
    (ran : workshop.await held job resource = (outcome, next)) :
    Evolves needs (outside, workshop) (workshop.toldByFinish held [job])
      (outcome.map?.toList ++ outside, next) := by
  have finished : Evolves needs (outside, workshop) (workshop.toldByFinish held [job])
      (outside, workshop.finish held [job]) := finish holds [job]
  have orderly := (kept.evolves finished).orderly
  unfold Workshop.await at ran
  dsimp only at ran
  generalize workshop.finish held [job] = finish at ran finished orderly
  generalize taking : finish.manager.take job resource = taken at ran
  obtain ⟨result, manager⟩ := taken
  have unwaiting : Calm { finish with manager }
      { finish with manager := manager.removeWaiter job resource } :=
    .of_idle ⟨rfl, rfl, rfl, rfl, rfl, rfl, rfl⟩ rfl
  have took : Evolves needs (outside, workshop) (workshop.toldByFinish held [job])
      ((result.bind Except.toOption).toList ++ outside,
        { finish with manager := manager.removeWaiter job resource }) := by
    have steps := finished.trans ((take orderly taking).thenCalm unwaiting)
    rwa [List.append_nil] at steps
  split at ran
  · rename_i shared taken
    obtain rfl : result = some (.ok shared) := taken
    cases ran
    exact took
  · rename_i failure taken
    obtain rfl : result = some (.error failure) := taken
    cases ran
    exact took
  · rename_i taken
    obtain rfl : result = none := taken
    cases ran
    exact took

theorem joinRequest {outcome : CompileOutcome} (kept : Kept needs (outside, workshop))
    (holds : ∀ shared ∈ outside, shared.id ∈ held)
    (ran : workshop.joinRequest held request job = (outcome, next)) :
    Evolves needs (outside, workshop)
      (if request.synchronous then (workshop.joined request job).toldByFinish held [job] else [])
      (outcome.map?.toList ++ outside, next) := by
  have shares : Evolves needs (outside, workshop) []
      (outside, { workshop with manager := workshop.manager.join job request.resource }) :=
    join job request.resource
  unfold Workshop.joinRequest at ran
  dsimp only at ran
  split at ran
  · rename_i waits
    rw [if_pos waits]
    have waiting : Evolves needs (outside, workshop) [] (outside, workshop.joined request job) :=
      shares.thenCalm (.of_idle ⟨rfl, rfl, rfl, rfl, rfl, rfl, rfl⟩ rfl)
    exact waiting.trans (await (kept.evolves waiting) holds request.resource ran)
  · rename_i leaves
    rw [if_neg leaves]
    cases ran
    exact shares

theorem compileLowered {outcome : CompileOutcome} {told : List Unit} {material : LoweredMaterial}
    (kept : Kept needs (outside, workshop))
    (full : ∀ entry, workshop.manager.jobs.get? job = some entry →
      ∀ permutation, needs entry.identity permutation → permutation ∈ request.permutations)
    (holds : ∀ shared ∈ outside, shared.id ∈ held)
    (ran : workshop.compileLowered held request job material undisturbed =
      ((outcome, told), next)) :
    Evolves needs (outside, workshop) (workshop.toldByCompileLowered held request job material)
      (outcome.map?.toList ++ outside, next) := by
  unfold toldByCompileLowered
  cases lowers : workshop.lowered held job request.permutations material.profile with
  | none =>
    have absent := Option.map_eq_none_iff.mp lowers
    unfold Workshop.compileLowered at ran
    rw [lowers] at ran
    cases ran
    unfold toldByLowered
    rw [absent]
    exact refl _
  | some entered =>
    have handed := (lowered full holds lowers).thenCalm (.submitted entered request job material)
    rw [compileLowered_eq lowers] at ran
    dsimp only at ran ⊢
    split at ran
    · rename_i waits
      rw [if_pos waits]
      cases ran
      exact handed.trans (await (kept.evolves handed) holds request.resource rfl)
    · rename_i leaves
      rw [if_neg leaves, List.append_nil]
      cases ran
      exact handed

/-- What a request comes to, once its compile has been entered. -/
theorem begun {answer : Except LoweringError CompileOutcome}
    (kept : Kept needs (outside, workshop.begun request))
    (full : ∀ permutation, needs request.identity permutation →
      permutation ∈ request.permutations)
    (holds : ∀ shared ∈ outside, shared.id ∈ held)
    (absent : workshop.manager.inFlight? request.identity = none)
    (ran : workshop.request held request = (answer, next)) :
    Evolves needs (outside, workshop.begun request)
      ((workshop.begun request).toldByBegun held request workshop.manager.nextJob)
      ((answer.toOption.bind CompileOutcome.map?).toList ++ outside, next) := by
  have belongs (entry : InFlight)
      (found : (workshop.begun request).manager.jobs.get? workshop.manager.nextJob = some entry) :
      entry.identity = request.identity := by
    rw [(Calm.begun workshop request).jobs] at found
    change (workshop.manager.jobs.insert workshop.manager.nextJob _).get? _ = _ at found
    rw [Table.get?_insert, if_pos rfl] at found
    cases found
    rfl
  unfold toldByBegun
  cases lowers : request.variant.lower with
  | error error =>
    rw [request_fails absent lowers] at ran
    cases ran
    exact abort _ request.resource error
  | ok material =>
    rw [request_begins absent lowers] at ran
    cases ran
    exact compileLowered kept (fun entry found => belongs entry found ▸ full) holds rfl

end Evolves

/-! ### At most one new compile -/

theorem Kept.begun (kept : Kept needs (outside, workshop))
    (absent : workshop.manager.inFlight? request.identity = none) :
    Kept needs (outside, workshop.begun request) :=
  (kept.start request absent).calm (.begun workshop request)

/-- Either no compile begins, or one does: of an identity that none in flight has, before any
compile has ended with a map. -/
inductive Proceeds (needs : MapIdentity → Permutation → Prop) (fresh : MapIdentity → Prop) :
    Stage → List Occurrence → Stage → Prop where
  | quietly {stage told last} : Evolves needs stage told last → Proceeds needs fresh stage told last
  | starting {stage before outside workshop after last} (request : CompileRequest) :
    Evolves needs stage before (outside, workshop) →
    (∀ job shared, .made job shared ∉ before) →
    workshop.manager.inFlight? request.identity = none → fresh request.identity →
    Evolves needs (outside, workshop.begun request) after last →
    Proceeds needs fresh stage
      (before ++ .started workshop.manager.nextJob request.identity :: after) last

variable {fresh : MapIdentity → Prop} {stage middle last : Stage} {told more : List Occurrence}

namespace Proceeds

/-- What happens before without any compile ending with a map. -/
theorem after (first : Evolves needs stage told middle)
    (unmade : ∀ job shared, .made job shared ∉ told)
    (second : Proceeds needs fresh middle more last) :
    Proceeds needs fresh stage (told ++ more) last := by
  cases second with
  | quietly second => exact .quietly (first.trans second)
  | starting request before unmadeBefore absent isFresh rest =>
    rw [← List.append_assoc]
    refine .starting request (first.trans before) (fun job shared member => ?_) absent isFresh rest
    exact (List.mem_append.mp member).elim (unmade job shared) (unmadeBefore job shared)

theorem andThen (first : Proceeds needs fresh stage told middle)
    (second : Evolves needs middle more last) :
    Proceeds needs fresh stage (told ++ more) last := by
  cases first with
  | quietly first => exact .quietly (first.trans second)
  | starting request before unmade absent isFresh rest =>
    rw [List.append_assoc, List.cons_append]
    exact .starting request before unmade absent isFresh (rest.trans second)

theorem weaken {fresh' : MapIdentity → Prop} (proceeds : Proceeds needs fresh stage told last)
    (weaker : ∀ identity, fresh identity → fresh' identity) :
    Proceeds needs fresh' stage told last := by
  cases proceeds with
  | quietly evolves => exact .quietly evolves
  | starting request before unmade absent isFresh rest =>
    exact .starting request before unmade absent (weaker _ isFresh) rest

theorem ofRequest {answer : Except LoweringError CompileOutcome}
    (kept : Kept needs (outside, workshop))
    (full : ∀ permutation, needs request.identity permutation →
      permutation ∈ request.permutations)
    (holds : ∀ shared ∈ outside, shared.id ∈ held) (isFresh : fresh request.identity)
    (ran : workshop.request held request = (answer, next)) :
    Proceeds needs fresh (outside, workshop) (workshop.toldByRequest held request)
      ((answer.toOption.bind CompileOutcome.map?).toList ++ outside, next) := by
  unfold toldByRequest
  cases flying : workshop.manager.inFlight? request.identity with
  | none =>
    have rest := Evolves.begun (kept.begun flying) full holds flying ran
    exact .starting request (.refl _) (fun _ _ => List.not_mem_nil) flying isFresh rest
  | some job =>
    rw [request_joins flying] at ran
    cases ran
    exact .quietly (.joinRequest kept holds rfl)

end Proceeds

theorem Kept.proceeds (kept : Kept needs stage) (proceeds : Proceeds needs fresh stage told last) :
    Kept needs last := by
  cases proceeds with
  | quietly evolves => exact kept.evolves evolves
  | starting request before _ absent _ rest =>
    exact ((kept.evolves before).begun absent).evolves rest

end Shading.Workshop
