/-
Who waits, told twice. Each resource knows the jobs whose results it awaits, and
the manager knows who waits for each job. The two agree after every piece of work
that a library does, and no resource awaits more than one result: before a new
compile is asked for the old one is cancelled, and joining a compile cancels
whatever else was awaited. While results are being applied, those that have been
handed out and not been applied yet are owed.
-/

import Shading.Proofs.Compile.Engaging
import Shading.Proofs.Material.Prompt
import Shading.Proofs.Material.Tending

namespace Shading.System

open FinishedCompile (Serve)

variable {system middle next : System} {id : ResourceId} {job : JobId} {resource : Resource}
  {identity : MapIdentity}

/-! ### What makes no difference -/

theorem known_onResource (system : System) (id : ResourceId) {change : Resource → Resource}
    (other : ResourceId) (there : ((system.onResource id change).variantOf other).isSome) :
    (system.variantOf other).isSome := by
  rw [variantOf_onResource] at there
  split at there
  · rename_i here
    unfold variantOf
    rw [Option.isSome_map] at there ⊢
    exact here ▸ there
  · exact there

/-- Neither who waits nor what is compiled has changed. -/
structure Aloof (system next : System) : Prop where
  workshop : system.workshop.Aside next.workshop
  jobs : next.jobsOf = system.jobsOf
  known : ∀ id, (next.variantOf id).isSome → (system.variantOf id).isSome
  nextResource : next.nextResource = system.nextResource

namespace Aloof

theorem of_resources (workshop : system.workshop.Aside next.workshop)
    (resources : next.resources = system.resources)
    (nextResource : next.nextResource = system.nextResource) : Aloof system next := by
  refine ⟨workshop, ?_, fun id => ?_, nextResource⟩
  · unfold jobsOf
    rw [resources]
  · unfold variantOf
    rw [resources]
    exact fun there => there

theorem of_same (workshop : next.workshop = system.workshop)
    (resources : next.resources = system.resources)
    (nextResource : next.nextResource = system.nextResource) : Aloof system next :=
  of_resources (workshop ▸ .refl _) resources nextResource

theorem refl (system : System) : Aloof system system := of_same rfl rfl rfl

theorem trans (first : Aloof system middle) (second : Aloof middle next) : Aloof system next := by
  obtain ⟨one, jobs, known, number⟩ := first
  obtain ⟨two, more, there, following⟩ := second
  exact ⟨one.trans two, more.trans jobs, fun id after => known id (there id after),
    following.trans number⟩

/-- A change of a resource that is not about its jobs. -/
theorem onResource (system : System) (id : ResourceId) {change : Resource → Resource}
    (same : ∀ resource, (change resource).jobs = resource.jobs) :
    Aloof system (system.onResource id change) :=
  ⟨.refl _, funext fun other => jobsOf_onResource_of_same system id other same,
    known_onResource system id, rfl⟩

theorem setErrors (system : System) (id : ResourceId) (errors : List String) :
    Aloof system (system.setErrors id errors) := onResource system id fun _ => rfl

theorem publish (system : System) (id : ResourceId) : Aloof system (system.publish id) := by
  unfold System.publish
  split
  · exact refl system
  · exact of_same rfl rfl rfl

theorem setMap (system : System) (id : ResourceId) (map : Option SharedMap) :
    Aloof system (system.setMap id map) := by
  unfold System.setMap
  split
  · exact refl system
  · split
    · exact refl system
    · have given : Aloof system (system.onResource id fun resource => { resource with map }) :=
        onResource system id fun _ => rfl
      exact given.trans (publish _ id)

theorem succeed (system : System) (id : ResourceId) (shared : SharedMap) :
    Aloof system (system.succeed id shared) := (setErrors system id []).trans (setMap _ id _)

theorem fail {failure : CompileFailure} (ran : system.fail id resource failure = .ok next) :
    Aloof system next := by
  obtain ⟨_, rfl⟩ := fail_eq_ok.mp ran
  exact (setErrors system id _).trans (setMap _ id none)

theorem fallBack (ran : system.fallBack id resource = .ok next) : Aloof system next := by
  obtain ⟨_, rfl⟩ := fallBack_eq_ok.mp ran
  exact (setErrors system id _).trans (setMap _ id none)

theorem conclude {result : Except CompileFailure SharedMap}
    (ran : system.conclude id resource result = .ok next) : Aloof system next := by
  cases result with
  | ok shared =>
    cases ran
    exact succeed system id shared
  | error failure => exact fail ran

theorem lookup {found : Option SharedMap} (ran : system.lookup identity = (found, next)) :
    Aloof system next := by
  rcases lookup_cases ran with ⟨_, _, _, rfl⟩ | ⟨_, registry, store, rfl, _⟩
  · exact refl _
  · exact of_resources ⟨rfl, rfl, rfl, rfl, rfl, rfl, rfl⟩ rfl rfl

end Aloof

/-! ### Agreement -/

/-- The manager and the resources agree on who waits, each resource awaits one result at most, and
what is owed is awaited. -/
structure Agrees (owed : JobId → ResourceId → Prop) (system : System) : Prop where
  engages : Traffic.Engages ⟨system.workshop, [], [], []⟩ fun job id =>
    job ∈ system.jobsOf id ∧ ¬owed job id
  awaited : ∀ job id, owed job id → job ∈ system.jobsOf id
  single : ∀ id, (system.jobsOf id).length ≤ 1
  numbered : ∀ id, (system.variantOf id).isSome → id.number < system.nextResource.number

/-- Nothing is owed. -/
abbrev settled : JobId → ResourceId → Prop := fun _ _ => False

namespace Agrees

variable {owed owed' : JobId → ResourceId → Prop}

theorem aloof (agrees : Agrees owed system) (aloof : Aloof system next) : Agrees owed next := by
  refine ⟨?_, ?_, ?_, ?_⟩
  · rw [aloof.jobs]
    exact agrees.engages.aside aloof.workshop
  · rw [aloof.jobs]
    exact agrees.awaited
  · rw [aloof.jobs]
    exact agrees.single
  · rw [aloof.nextResource]
    exact fun id there => agrees.numbered id (aloof.known id there)

theorem waits_iff (agrees : Agrees owed system) (job : JobId) (id : ResourceId) :
    system.workshop.manager.Waits job id ↔ job ∈ system.jobsOf id ∧ ¬owed job id := by
  obtain ⟨_, _, parts⟩ := agrees.engages
  exact parts job id

/-- Between pieces of work the manager lists just those that wait. -/
theorem waits (agrees : Agrees settled system) (job : JobId) (id : ResourceId) :
    system.workshop.manager.Waits job id ↔ job ∈ system.jobsOf id :=
  (agrees.waits_iff job id).trans (and_iff_left not_false)

theorem engages_settled (agrees : Agrees settled system) :
    Traffic.Engages ⟨system.workshop, [], [], []⟩ fun job id => job ∈ system.jobsOf id :=
  agrees.engages.congr fun _ _ => and_iff_left id

/-- What a resource awaits has changed, and the manager knows. -/
theorem rewait (agrees : Agrees settled system) (id : ResourceId)
    (engages : Traffic.Engages ⟨next.workshop, [], [], []⟩ fun job other =>
      job ∈ next.jobsOf other)
    (others : ∀ other, other ≠ id → next.jobsOf other = system.jobsOf other)
    (single : (next.jobsOf id).length ≤ 1)
    (known : ∀ other, (next.variantOf other).isSome → (system.variantOf other).isSome)
    (nextResource : next.nextResource = system.nextResource) : Agrees settled next := by
  refine ⟨engages.congr fun _ _ => (and_iff_left not_false).symm, fun _ _ owed => owed.elim,
    fun other => ?_, fun other there => ?_⟩
  · by_cases here : other = id
    · exact here ▸ single
    · rw [others other here]
      exact agrees.single other
  · rw [nextResource]
    exact agrees.numbered other (known other there)

theorem addResource (agrees : Agrees settled system) (variant : Variant) :
    Agrees settled (system.addResource variant).2 := by
  have jobs (other : ResourceId) : (system.addResource variant).2.jobsOf other =
      system.jobsOf other := by
    rw [jobsOf_addResource]
    split
    · rename_i here
      cases there : system.resources.get? other with
      | none =>
        unfold jobsOf
        rw [there]
        rfl
      | some resource =>
        refine absurd (agrees.numbered other ?_) (here ▸ Nat.lt_irrefl _)
        unfold variantOf
        rw [there]
        rfl
    · rfl
  refine ⟨?_, fun _ _ owed => owed.elim, fun other => ?_, fun other there => ?_⟩
  · refine agrees.engages.congr fun job other => ?_
    rw [jobs]
  · rw [jobs]
    exact agrees.single other
  · rw [Library.variantOf_addResource] at there
    split at there
    · rename_i here
      exact here ▸ Nat.lt_succ_self _
    · exact Nat.lt_succ_of_lt (agrees.numbered other there)

/-- A resource that awaits nothing is dropped. -/
theorem dropResource (agrees : Agrees settled system) (idle : system.jobsOf id = []) :
    Agrees settled (system.dropResource id) := by
  refine agrees.aloof ⟨.refl _, funext fun other => ?_,
    fun other there => ?_, rfl⟩
  · rw [jobsOf_dropResource]
    split
    · rename_i here
      rw [here, idle]
    · rfl
  · rw [Library.variantOf_dropResource] at there
    split at there
    · cases there
    · exact there

theorem cancelCompilation (agrees : Agrees settled system) (id : ResourceId) :
    Agrees settled (system.cancelCompilation id) := by
  have jobs := jobsOf_cancelCompilation system id
  have steady := Steady.cancelCompilation system id
  refine agrees.rewait id ?_ (fun other different => (jobs other).trans (if_neg different)) ?_
    (fun other there => steady.variantOf ▸ there) steady.nextResource
  · cases found : system.resources.get? id with
    | none =>
      have same : system.cancelCompilation id = system := by
        unfold System.cancelCompilation
        rw [found]
      rw [same]
      exact agrees.engages_settled
    | some resource =>
      have awaits := jobsOf_eq found
      by_cases idle : resource.jobs = []
      · have same : system.cancelCompilation id = system := by
          unfold System.cancelCompilation
          rw [found]
          exact if_pos idle
        rw [same]
        exact agrees.engages_settled
      · have same : (system.cancelCompilation id).workshop = { system.workshop with
            manager := system.workshop.manager.cancel id resource.jobs } := by
          unfold System.cancelCompilation
          rw [found]
          dsimp only
          rw [if_neg idle]
          rfl
        rw [same]
        refine (agrees.engages_settled.cancel id resource.jobs).congr fun job other => ?_
        rw [jobs]
        split
        · rename_i here
          rw [here, awaits]
          exact iff_of_false (fun both => both.2 ⟨both.1, rfl⟩) List.not_mem_nil
        · rename_i different
          exact and_iff_left fun both => different both.2
  · rw [jobs, if_pos rfl]
    exact Nat.zero_le 1

theorem releaseMap (agrees : Agrees settled system) (id : ResourceId) :
    Agrees settled (system.releaseMap id) := by
  have dropped : Aloof (system.cancelCompilation id) ((system.cancelCompilation id).onResource id
      fun resource => { resource with map := none }) := .onResource _ id fun _ => rfl
  exact (agrees.cancelCompilation id).aloof (dropped.trans (.publish _ id))

/-! ### Getting a map -/

/-- The workshop has worked, and nobody waits who did not. -/
theorem onWorkshop {workshop : Workshop} (agrees : Agrees settled system)
    (engages : Traffic.Engages ⟨workshop, [], [], []⟩ fun job id => job ∈ system.jobsOf id) :
    Agrees settled { system with workshop } :=
  ⟨engages.congr fun _ _ => (and_iff_left not_false).symm, fun _ _ owed => owed.elim,
    agrees.single, agrees.numbered⟩

/-- From now on a resource awaits one job. -/
theorem onResource {change : Resource → Resource} (agrees : Agrees settled system) (job : JobId)
    (engages : Traffic.Engages ⟨middle.workshop, [], [], []⟩ fun other its =>
      other ∈ if its = id then [job] else system.jobsOf its)
    (found : system.resources.get? id = some resource)
    (resources : middle.resources = system.resources)
    (numbers : middle.nextResource = system.nextResource)
    (jobs : (change resource).jobs = [job]) :
    Agrees settled (middle.onResource id change) := by
  have same : middle.jobsOf = system.jobsOf ∧ middle.variantOf = system.variantOf := by
    unfold jobsOf variantOf
    rw [resources]
    exact ⟨rfl, rfl⟩
  have awaits (other : ResourceId) : (middle.onResource id change).jobsOf other =
      if other = id then [job] else system.jobsOf other := by
    show (((middle.resources.modify id change).get? other).map _).getD [] = _
    rw [Table.get?_modify, ← same.1]
    split
    · rw [resources, found]
      exact jobs
    · rfl
  refine agrees.rewait id ?_ (fun other different => (awaits other).trans (if_neg different)) ?_
    (fun other there => same.2 ▸ known_onResource middle id other there) numbers
  · exact engages.congr fun other its => by rw [awaits]
  · rw [awaits, if_pos rfl]
    exact Nat.le_refl 1

/-- Joining a compile cancels whatever else the resource has awaited. -/
theorem attach (agrees : Agrees settled system)
    (found : system.resources.get? id = some resource)
    (attached : system.attach id identity = some next) : Agrees settled next := by
  obtain ⟨job, flying, rfl⟩ := attach_eq_some.mp attached
  have awaits := jobsOf_eq found
  have joined := agrees.engages_settled.attach flying id
  refine Agrees.aloof ?_ (.setMap _ id none)
  unfold System.keepOnlyJob
  have there : (system.onManager fun manager => manager.join job id).resources.get? id =
      some resource := found
  rw [there]
  dsimp only
  split
  · rename_i none
    refine agrees.onResource job (joined.congr fun other its => ?_) found rfl rfl rfl
    split
    · rename_i here
      rw [here, awaits, List.mem_singleton]
      refine ⟨fun either => ?_, fun same => .inr ⟨same, rfl⟩⟩
      rcases either with before | ⟨same, _⟩
      · by_contra stale
        exact List.filter_eq_nil_iff.mp none other before (decide_eq_true stale)
      · exact same
    · rename_i different
      exact or_iff_left fun both => different both.2
  · refine agrees.onResource job ((joined.cancel id _).congr fun other its => ?_) found rfl rfl rfl
    split
    · rename_i here
      rw [here, awaits, List.mem_singleton, List.mem_filter, decide_eq_true_iff]
      tauto
    · rename_i different
      exact (and_iff_left fun both => different both.2).trans
        (or_iff_left fun both => different both.2)

/-- What has been asked for is awaited, unless the request is answered at once. -/
theorem compile {synchronous ready : Bool} (agrees : Agrees settled system)
    (found : system.resources.get? id = some resource)
    (ran : system.compile id resource identity synchronous = .ok (ready, next)) :
    Agrees settled next := by
  have cancelled := agrees.cancelCompilation id
  have idle : (system.cancelCompilation id).jobsOf id = [] := by
    rw [jobsOf_cancelCompilation, if_pos rfl]
  have steady := Steady.cancelCompilation system id
  obtain ⟨still, there, _⟩ := steady.remains found
  obtain ⟨answer, workshop, served, heeds⟩ := compile_heeds ran
  generalize system.cancelCompilation id = start at served heeds cancelled idle there
  have engages := cancelled.engages_settled.request
    (by change ∀ job, job ∉ start.jobsOf id; rw [idle]; exact fun _ => List.not_mem_nil) served
  -- Whoever has been answered waits for nothing, as before.
  have answered (none : answer.toOption.bind CompileOutcome.job? = none) :
      Agrees settled { start with workshop } :=
    cancelled.onWorkshop (engages.congr fun job other => or_iff_left fun both =>
      nomatch none.symm.trans both.1)
  have waiting {job : JobId} (asked : answer.toOption.bind CompileOutcome.job? = some job) :
      Agrees settled (({ start with workshop }.addJob id job).setMap id none) := by
    have jobs : still.jobs = [] := (jobsOf_eq there).symm.trans idle
    have listed : Agrees settled ({ start with workshop }.addJob id job) := by
      refine cancelled.onResource job (engages.congr fun other its => ?_) there rfl rfl ?_
      · rw [asked, Option.some.injEq]
        split
        · rename_i here
          rw [here, idle, List.mem_singleton]
          exact ⟨fun either => (either.resolve_left List.not_mem_nil).1.symm,
            fun same => .inr ⟨same.symm, rfl⟩⟩
        · rename_i different
          exact or_iff_left fun both => different both.2
      · rw [jobs]
        rfl
    exact listed.aloof (.setMap _ id none)
  cases heeds with
  | given => exact (answered rfl).aloof (.succeed _ id _)
  | refused told failed =>
    refine (answered ?_).aloof (.fail failed)
    rcases told with rfl | ⟨_, rfl, _⟩
    · rfl
    · rfl
  | waits told =>
    refine waiting ?_
    rcases told with rfl | rfl
    · rfl
    · rfl

theorem obtain {ready : Bool} (agrees : Agrees settled system)
    (found : system.resources.get? id = some resource)
    (ran : system.obtain id resource identity = .ok (ready, next)) : Agrees settled next := by
  rcases obtain_cases ran with ⟨_, _, attached⟩ | ⟨_, compiled⟩
  · exact agrees.attach found attached
  · exact agrees.compile found compiled

theorem cacheShaders {ready : Bool} (agrees : Agrees settled system)
    (ran : system.cacheShaders id = .ok (ready, next)) : Agrees settled next := by
  rcases cacheShaders_cases ran with ⟨_, _, rfl⟩ | ⟨_, _, later, _, found, looked, _, settles⟩
  · exact agrees
  · have looks : Agrees settled later := agrees.aloof (.lookup looked)
    have same : later.resources = system.resources := by
      obtain ⟨registry, store, rfl⟩ := lookup_apart looked
      rfl
    cases settles with
    | given => exact (looks.cancelCompilation id).aloof (.succeed _ id _)
    | fallsBack _ fell => exact looks.aloof (.fallBack fell)
    | obtains _ obtained => exact looks.obtain (same ▸ found) obtained

end Agrees

/-! ### Pieces of work -/

/-- No piece of work but applying results makes a difference to the agreement. -/
theorem Tends.agrees {piece : Piece} {due due' : List FinishedCompile}
    (tends : Tends piece (due, system) (due', next)) (unsettled : piece ≠ .settle)
    (agrees : Agrees settled system) : Agrees settled next := by
  cases tends with
  | addResource variant => exact agrees.addResource variant
  | vary id change => exact agrees.aloof (.onResource _ id fun _ => rfl)
  | releaseMap id => exact agrees.releaseMap id
  | dropResource id idle => exact agrees.dropResource idle
  | createProxy | tell | carryOut | updateDeferred => exact agrees.aloof (.of_same rfl rfl rfl)
  | cacheShaders ran => exact agrees.cacheShaders ran
  | finishAll | processResults | complete | conclude => exact absurd rfl unsettled

theorem Tended.agrees {start : System} {due : List FinishedCompile}
    (tended : Tended (· ≠ .settle) ([], start) due system) (agrees : Agrees settled start) :
    Agrees settled system :=
  tended.kept (motive := fun _ system => Agrees settled system)
    (fun unsettled before tends => tends.agrees unsettled before) agrees

end Shading.System
