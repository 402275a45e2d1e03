/-
Resources that have to have a map at once. Such a resource never waits for a
compile: it asks for one synchronously and is told at once what has come of it,
so that between operations it has no jobs. A compile in flight is therefore
never left by it in favour of another one of the same identity.
-/

import Shading.Proofs.Compile.Chronicle
import Shading.Proofs.Material.Acting
import Shading.Proofs.Material.Readiness

namespace Shading

/-- Whether an answer says what has come of a compile. -/
def CompileOutcome.isFinal : CompileOutcome → Bool
  | .compiled _ | .failed _ => true
  | .pending _ | .attached _ => false

namespace Workshop

variable {held : List MapId} {workshop next : Workshop} {request : CompileRequest}
  {outcome : CompileOutcome}

theorem await_final (workshop : Workshop) (held : List MapId) (job : JobId)
    (resource : ResourceId) : (workshop.await held job resource).1.isFinal := by
  unfold await
  dsimp only
  split <;> rfl

/-- A request that waits is told what has come of its compile. -/
theorem request_final (waits : request.synchronous)
    (ran : workshop.request held request = (.ok outcome, next)) : outcome.isFinal := by
  cases flying : workshop.manager.inFlight? request.identity with
  | some job =>
    rw [request_joins flying] at ran
    unfold joinRequest at ran
    dsimp only at ran
    rw [if_pos waits] at ran
    cases ran
    exact await_final ..
  | none =>
    cases lowers : request.variant.lower with
    | error error =>
      rw [request_fails flying lowers] at ran
      cases ran
    | ok material =>
      obtain ⟨entry, found, _⟩ := begun_flies workshop request
      have lowered : ((workshop.begun request).lowered held workshop.manager.nextJob
          request.permutations material.profile).isSome := by
        unfold lowered
        rw [found]
        rfl
      obtain ⟨entered, lowered⟩ := Option.isSome_iff_exists.mp lowered
      rw [request_begins flying lowers, compileLowered_eq lowered] at ran
      dsimp only at ran
      rw [if_pos waits] at ran
      cases ran
      exact await_final ..

end Workshop

namespace System

variable {system next : System} {id : ResourceId} {resource : Resource} {identity : MapIdentity}

/-- Resources that have to have a map at once wait for no compile. -/
def Prompt (system : System) : Prop :=
  ∀ id resource, system.resources.get? id = some resource →
    resource.isPressing system.settings → resource.jobs = []

/-- Whether a resource is pressing does not change with work on its map. -/
theorem Steady.isPressing {after : Resource} (steady : Steady system next)
    (found : system.resources.get? id = some resource)
    (there : next.resources.get? id = some after) :
    after.isPressing next.settings = resource.isPressing system.settings := by
  obtain ⟨_, before, variant⟩ := steady.former there
  cases before.symm.trans found
  have same : after.isDefault = resource.isDefault :=
    congrArg (fun variant => variant.description.isDefault) variant.symm
  unfold Resource.isPressing
  rw [same, steady.settings]

namespace Prompt

theorem of_resources (prompt : Prompt system) (settings : next.settings = system.settings)
    (resources : next.resources = system.resources) : Prompt next := by
  unfold Prompt
  rw [settings, resources]
  exact prompt

/-- A change of a resource that lets it wait only if it may. -/
theorem onResource {change : Resource → Resource} (prompt : Prompt system) (id : ResourceId)
    (calm : ∀ resource, system.resources.get? id = some resource →
      (resource.isPressing system.settings → resource.jobs = []) →
      (change resource).isPressing system.settings → (change resource).jobs = []) :
    Prompt (system.onResource id change) := by
  intro other after there pressing
  change (Table.modify system.resources id change).get? other = _ at there
  rw [Table.get?_modify] at there
  split at there
  · obtain ⟨resource, found, rfl⟩ := Option.map_eq_some_iff.mp there
    exact calm resource found (prompt id resource found) pressing
  · exact prompt other after there pressing

theorem setErrors (prompt : Prompt system) (id : ResourceId) (errors : List String) :
    Prompt (system.setErrors id errors) := prompt.onResource id fun _ _ idle => idle

theorem publish (prompt : Prompt system) (id : ResourceId) : Prompt (system.publish id) := by
  unfold System.publish
  split
  · exact prompt
  · exact prompt.of_resources rfl rfl

theorem setMap (prompt : Prompt system) (id : ResourceId) (map : Option SharedMap) :
    Prompt (system.setMap id map) := by
  unfold System.setMap
  split
  · exact prompt
  · split
    · exact prompt
    · have given : Prompt (system.onResource id fun resource => { resource with map }) :=
        prompt.onResource id fun _ _ idle => idle
      exact given.publish id

theorem succeed (prompt : Prompt system) (id : ResourceId) (shared : SharedMap) :
    Prompt (system.succeed id shared) := (prompt.setErrors id []).setMap id _

theorem fail {failure : CompileFailure} (prompt : Prompt system)
    (ran : system.fail id resource failure = .ok next) : Prompt next := by
  obtain ⟨_, rfl⟩ := fail_eq_ok.mp ran
  exact (prompt.setErrors id _).setMap id none

theorem fallBack (prompt : Prompt system) (ran : system.fallBack id resource = .ok next) :
    Prompt next := by
  obtain ⟨_, rfl⟩ := fallBack_eq_ok.mp ran
  exact (prompt.setErrors id _).setMap id none

theorem complete {job : JobId} {result : Except CompileFailure SharedMap} {applied : Bool}
    (prompt : Prompt system) (ran : system.complete id job result = .ok (applied, next)) :
    Prompt next := by
  rcases complete_cases ran with ⟨_, _, rfl⟩ | ⟨_, _, _, _, concluded⟩
  · exact prompt
  · have forgotten : Prompt (system.onResource id fun resource =>
        { resource with jobs := resource.jobs.erase job }) :=
      prompt.onResource id fun resource _ idle pressing => by
        show resource.jobs.erase job = []
        rw [idle pressing]
        rfl
    cases result with
    | ok shared =>
      cases concluded
      exact forgotten.succeed id shared
    | error failure => exact forgotten.fail concluded

/-! ### Waiting -/

theorem cancelCompilation (prompt : Prompt system) (id : ResourceId) :
    Prompt (system.cancelCompilation id) := by
  have stopped (change : Manager → Manager) : Prompt ((system.onManager change).onResource id
      fun resource => { resource with jobs := [] }) :=
    onResource (prompt.of_resources rfl rfl) id fun _ _ _ _ => rfl
  unfold System.cancelCompilation
  split
  · exact prompt
  · split
    · exact prompt
    · exact stopped _

/-- A resource that is not pressing may wait. -/
theorem addJob (prompt : Prompt system) (id : ResourceId) (job : JobId)
    (patient : ∀ resource, system.resources.get? id = some resource →
      resource.isPressing system.settings = false) : Prompt (system.addJob id job) :=
  prompt.onResource id fun resource found _ pressing => by
    have never : resource.isPressing system.settings = true := pressing
    rw [patient resource found] at never
    cases never

theorem keepOnlyJob (prompt : Prompt system) (id : ResourceId) (job : JobId)
    (patient : ∀ resource, system.resources.get? id = some resource →
      resource.isPressing system.settings = false) : Prompt (system.keepOnlyJob id job) := by
  have waits {middle : System} (settings : middle.settings = system.settings)
      (resources : middle.resources = system.resources) :
      Prompt (middle.onResource id fun resource => { resource with jobs := [job] }) := by
    refine onResource (prompt.of_resources settings resources) id
      fun resource found _ pressing => ?_
    have never : resource.isPressing middle.settings = true := pressing
    rw [settings, patient resource (resources ▸ found)] at never
    cases never
  unfold System.keepOnlyJob
  split
  · exact prompt
  · dsimp only
    split
    · exact waits rfl rfl
    · exact waits rfl rfl

/-! ### Getting a map -/

theorem attach (prompt : Prompt system) (patient : ∀ resource,
      system.resources.get? id = some resource → resource.isPressing system.settings = false)
    (attached : system.attach id identity = some next) : Prompt next := by
  obtain ⟨job, _, rfl⟩ := attach_eq_some.mp attached
  have joined : Prompt (system.onManager fun manager => manager.join job id) :=
    prompt.of_resources rfl rfl
  exact (joined.keepOnlyJob id job patient).setMap id none

theorem compile {synchronous ready : Bool} (prompt : Prompt system)
    (found : system.resources.get? id = some resource)
    (waits : resource.isPressing system.settings → synchronous)
    (ran : system.compile id resource identity synchronous = .ok (ready, next)) :
    Prompt next := by
  have cancelled := prompt.cancelCompilation id
  have patient (unhurried : synchronous = false) (after : Resource)
      (there : (system.cancelCompilation id).resources.get? id = some after) :
      after.isPressing (system.cancelCompilation id).settings = false := by
    rw [(Steady.cancelCompilation system id).isPressing found there]
    exact Bool.eq_false_iff.mpr fun pressing => by
      rw [unhurried] at waits
      cases waits pressing
  obtain ⟨answer, workshop, served, heeds⟩ := compile_heeds ran
  generalize system.cancelCompilation id = start at served heeds cancelled patient
  have after : Prompt { start with workshop } := cancelled.of_resources rfl rfl
  cases heeds with
  | given => exact after.succeed id _
  | refused _ failed => exact after.fail failed
  | waits answered =>
    have unhurried : synchronous = false := Bool.eq_false_iff.mpr fun hurried => by
      rcases answered with rfl | rfl
      · cases Workshop.request_final hurried served
      · cases Workshop.request_final hurried served
    exact (after.addJob id _ (patient unhurried)).setMap id none

theorem obtain {ready : Bool} (prompt : Prompt system)
    (found : system.resources.get? id = some resource)
    (ran : system.obtain id resource identity = .ok (ready, next)) : Prompt next := by
  rcases obtain_cases ran with ⟨patient, _, attached⟩ | ⟨_, compiled⟩
  · refine prompt.attach (fun other there => ?_) attached
    cases found.symm.trans there
    exact patient
  · exact prompt.compile found (fun pressing => pressing) compiled

theorem cacheShaders {ready : Bool} (prompt : Prompt system)
    (ran : system.cacheShaders id = .ok (ready, next)) : Prompt next := by
  rcases cacheShaders_cases ran with
    ⟨_, _, rfl⟩ | ⟨resource, found, later, does, there, looked, _, settles⟩
  · exact prompt
  · have same : later.settings = system.settings ∧ later.resources = system.resources := by
      obtain ⟨registry, store, rfl⟩ := lookup_apart looked
      exact ⟨rfl, rfl⟩
    have looks : Prompt later := prompt.of_resources same.1 same.2
    cases settles with
    | given => exact (looks.cancelCompilation id).succeed id _
    | fallsBack _ fell => exact looks.fallBack fell
    | obtains _ obtained => exact looks.obtain (same.2 ▸ there) obtained

/-! ### Results and archives -/

theorem takeResult {job : JobId} (prompt : Prompt system)
    (ran : system.takeResult id job = .ok next) : Prompt next := by
  rcases takeResult_cases ran with ⟨_, rfl⟩ | ⟨_, manager, _, _, completed⟩
  · exact prompt
  · have taken : Prompt (system.onManager fun _ => manager) := prompt.of_resources rfl rfl
    exact taken.complete completed

theorem finishCompilation (prompt : Prompt system)
    (ran : system.finishCompilation id = .ok next) : Prompt next :=
  finishCompilation_kept ran prompt (fun _ => prompt.of_resources rfl rfl)
    fun _ _ _ before taken => before.takeResult taken

theorem withoutMap (prompt : Prompt system) (id : ResourceId) :
    Prompt (system.onResource id fun resource => { resource with map := none }) :=
  prompt.onResource id fun _ _ idle => idle

theorem discardMap (prompt : Prompt system) (ran : system.discardMap id = (.ok (), next)) :
    Prompt next := by
  obtain ⟨_, rfl⟩ := discardMap_eq_ok.mp ran
  exact prompt.withoutMap id

theorem loadInline {archive : List UInt8} {loaded : Bool} (prompt : Prompt system)
    (ran : system.loadInline id archive = .ok (loaded, next)) : Prompt next := by
  obtain ⟨_, rfl⟩ | ⟨_, map, shared, later, _, adopts, _, rfl⟩ := loadInline_cases ran
  · exact prompt
  · have found : Prompt (system.findMap map.identity).2 := prompt.of_resources rfl rfl
    have adopted : Prompt later := by
      cases adopts with
      | live same =>
        rw [same] at found
        exact found
      | own same =>
        rw [same] at found
        exact found.of_resources rfl rfl
    exact adopted.onResource id fun _ _ idle => idle

/-! ### Whatever is done -/

theorem insert (prompt : Prompt system) (id : ResourceId) (idle : resource.jobs = []) :
    Prompt { system with resources := system.resources.insert id resource } := by
  intro other after there pressing
  change (system.resources.insert id resource).get? other = _ at there
  rw [Table.get?_insert] at there
  split at there
  · cases there
    exact idle
  · exact prompt other after there pressing

theorem erase (prompt : Prompt system) (id : ResourceId) :
    Prompt { system with resources := system.resources.erase id } := by
  intro other after there pressing
  change (system.resources.erase id).get? other = _ at there
  rw [Table.get?_erase] at there
  split at there
  · cases there
  · exact prompt other after there pressing

theorem acts {loads : ShaderMap → Prop} {hand hand' : List SharedMap} {told : List Occurrence}
    (prompt : Prompt system) (acts : Acts loads hand system told hand' next) : Prompt next := by
  cases acts with
  | addResource variant =>
    have added := prompt.insert system.nextResource (show Resource.jobs { variant } = [] from rfl)
    exact added.of_resources rfl rfl
  | vary id change same =>
    refine prompt.onResource id fun resource found idle pressing => idle ?_
    unfold Resource.isPressing Resource.isDefault at pressing ⊢
    rw [same resource found] at pressing
    exact pressing
  | dropResource id => exact (prompt.erase id).of_resources rfl rfl
  | cacheShaders _ ran => exact prompt.cacheShaders ran
  | complete _ ran => exact prompt.complete ran
  | finishCompilation ran => exact prompt.finishCompilation ran
  | cancelCompilation id => exact prompt.cancelCompilation id
  | loadInline _ ran => exact prompt.loadInline ran
  | publishInline id =>
    unfold System.publishInline
    split
    · exact prompt.publish id
    · exact prompt
  | releaseMap id => exact ((prompt.cancelCompilation id).withoutMap id).publish id
  | discardMap ran => exact prompt.discardMap ran
  | aside _ _ settings _ resources => exact prompt.of_resources settings resources
  | keep id variant => exact prompt.insert id rfl
  | forget id => exact prompt.erase id
  | finish | finishAll | processResults | enqueue | carryOut | upkeep | leave =>
    exact prompt.of_resources rfl rfl
  | hold => exact prompt

end Prompt

end System

end Shading
