/-
What is written to the store. Whatever is done with a system, to its resources or to
its compiles directly, comes down to things that are done with its workshop, and what
they enter in the books is said here call by call. So whenever no call is under way,
the store has been given just the maps whose compiles have entered them, each once and
in the order in which they were entered, and no write is pending. Whatever is found,
loaded, cancelled, failed or lost to another map leaves the store as it was.
-/

import Shading.Proofs.Compile.Posting
import Shading.Proofs.Material.Proceeding
import Shading.Proofs.Material.Reached

namespace Shading.System

open Workshop (Handled)

variable {system next later : System} {id : ResourceId} {resource : Resource}
  {identity : MapIdentity} {deeds more log : List Deed}

/-! ### What is entered -/

def deedsByCompile (system : System) (id : ResourceId) (resource : Resource)
    (identity : MapIdentity) (synchronous : Bool) : List Deed :=
  let cancelled := system.cancelCompilation id
  cancelled.workshop.deedsByRequest cancelled.heldMaps
    (cancelled.wanted id resource identity synchronous)

def deedsByObtain (system : System) (id : ResourceId) (resource : Resource)
    (identity : MapIdentity) : List Deed :=
  if resource.isDefault || !system.settings.allowsAsyncCompilation then
    system.deedsByCompile id resource identity true
  else match system.workshop.manager.inFlight? identity with
    | some _ => []
    | none => system.deedsByCompile id resource identity false

/-- Only a map that is neither found nor cooked is compiled. -/
def deedsByCacheShaders (system : System) (id : ResourceId) : List Deed :=
  match system.resources.get? id with
  | none => []
  | some resource =>
    let identity := resource.variant.identity system.catalog
    let required := resource.variant.permutations system.catalog
    let (found, system) := system.lookup identity
    match found.filter fun shared => shared.map.isComplete required with
    | some _ => []
    | none =>
      if system.settings.requiresCookedData then []
      else system.deedsByObtain id resource identity

def deedsByFinishCompilation (system : System) (id : ResourceId) : List Deed :=
  match system.resources.get? id with
  | none => []
  | some resource =>
    if resource.jobs = [] then []
    else system.workshop.deedsByFinish system.heldMaps resource.jobs

/-! ### What is done with the workshop -/

theorem Moves.handled {known : List SharedMap} (moves : Moves known system next) :
    Handled system.workshop [] next.workshop := by
  rw [moves.workshop]
  exact .rest _

theorem handled_cancelCompilation (system : System) (id : ResourceId) :
    Handled system.workshop [] (system.cancelCompilation id).workshop := by
  unfold cancelCompilation
  split
  · exact .rest _
  · split
    · exact .rest _
    · exact .cancel id _

theorem handled_keepOnlyJob (system : System) (id : ResourceId) (job : JobId) :
    Handled system.workshop [] (system.keepOnlyJob id job).workshop := by
  unfold keepOnlyJob
  split
  · exact .rest _
  · dsimp only
    split
    · exact .rest _
    · exact .cancel id _

theorem handled_attach (attached : system.attach id identity = some next) :
    Handled system.workshop [] next.workshop := by
  obtain ⟨job, flying, rfl⟩ := attach_eq_some.mp attached
  have joins : Handled system.workshop [] { system.workshop with
      manager := (system.workshop.manager.attach identity id).2 } := .attach identity id
  unfold Manager.attach at joins
  rw [flying] at joins
  exact (joins.andThen (handled_keepOnlyJob (system.onManager fun manager =>
    manager.join job id) id job)).andThen (Moves.clearMap [] _ id).handled

theorem handled_request (workshop : Workshop) (held : List MapId) (request : CompileRequest) :
    Handled workshop (workshop.deedsByRequest held request) (workshop.request held request).2 :=
  .begin held request Workshop.undisturbed Workshop.undisturbed _ _ (fun _ => .rest _)
    fun _ => .rest _

/-- What is told to the requester afterwards is nothing to the workshop. -/
theorem handled_compile {synchronous ready : Bool}
    (ran : system.compile id resource identity synchronous = .ok (ready, next)) :
    Handled system.workshop (system.deedsByCompile id resource identity synchronous)
      next.workshop := by
  have cancelled := handled_cancelCompilation system id
  unfold deedsByCompile
  obtain ⟨answer, workshop, served, heeds⟩ := compile_heeds ran
  dsimp only at served heeds ⊢
  generalize system.cancelCompilation id = start at served heeds cancelled ⊢
  have serves := cancelled.andThen (handled_request start.workshop start.heldMaps
    (start.wanted id resource identity synchronous))
  rw [served] at serves
  have after (known : List SharedMap) (moves : Moves known { start with workshop } next) :
      Handled system.workshop _ next.workshop := serves.thenQuiet moves.handled
  cases heeds with
  | @given shared => exact after [shared] (.succeed id (List.mem_singleton_self shared))
  | refused _ failed => exact after [] (.fail failed)
  | waits => exact after [] ((Moves.addJob id _).trans (.clearMap [] _ id))

theorem handled_findMap (system : System) (identity : MapIdentity) :
    Handled system.workshop [] (system.findMap identity).2.workshop :=
  .find _ identity

theorem handled_registerMap (system : System) (map : ShaderMap) :
    Handled system.workshop [] (system.registerMap map).2.workshop :=
  .offer _ map

theorem handled_findStored (system : System) (identity : MapIdentity) :
    Handled system.workshop [] (system.findStored identity).2.workshop := by
  have looks : Handled system.workshop [] (system.consulted identity).workshop := by
    refine .aside ⟨rfl, rfl, rfl, rfl, rfl, rfl, rfl⟩ ?_
    unfold consulted
    dsimp only
    split <;> rfl
  rcases findStored_cases system identity with ⟨map, _, same⟩ | ⟨_, same⟩
  · rw [same]
    exact looks.andThen (handled_registerMap _ map)
  · rw [same]
    exact looks

theorem handled_lookup (system : System) (identity : MapIdentity) :
    Handled system.workshop [] (system.lookup identity).2.workshop := by
  have finds := handled_findMap system identity
  unfold lookup
  split
  · rename_i same
    rw [same] at finds
    exact finds
  · rename_i same
    rw [same] at finds
    exact finds.andThen (handled_findStored _ identity)

theorem handled_obtain {ready : Bool}
    (ran : system.obtain id resource identity = .ok (ready, next)) :
    Handled system.workshop (system.deedsByObtain id resource identity) next.workshop := by
  unfold deedsByObtain
  change Handled _ (if resource.isPressing system.settings = true then _ else _) _
  rcases obtain_cases ran with ⟨patient, _, attached⟩ | ⟨missed, compiled⟩
  · rw [if_neg (Bool.eq_false_iff.mp patient)]
    obtain ⟨job, flying, _⟩ := attach_eq_some.mp attached
    rw [flying]
    exact handled_attach attached
  · have compiles := handled_compile compiled
    cases pressing : resource.isPressing system.settings with
    | true =>
      rw [pressing] at compiles
      exact compiles
    | false =>
      rw [pressing] at compiles
      rw [missed pressing]
      exact compiles

theorem handled_cacheShaders {ready : Bool} (ran : system.cacheShaders id = .ok (ready, next)) :
    Handled system.workshop (system.deedsByCacheShaders id) next.workshop := by
  unfold deedsByCacheShaders
  rcases cacheShaders_cases ran with
    ⟨absent, _, rfl⟩ | ⟨resource, found, later, does, there, looked, chosen, settles⟩
  · rw [absent]
    exact .rest _
  · have looks := handled_lookup system (resource.variant.identity system.catalog)
    rw [there]
    dsimp only
    rw [looked] at looks ⊢
    dsimp only
    rw [chosen]
    cases settles with
    | @given shared =>
      exact (looks.andThen (handled_cancelCompilation later id)).andThen
        (Moves.succeed id (List.mem_singleton_self shared)).handled
    | fallsBack cooked fell =>
      dsimp only
      rw [if_pos cooked]
      have moves : Moves [] later next := .fallBack fell
      exact looks.andThen moves.handled
    | obtains compiles obtained =>
      dsimp only
      rw [if_neg (Bool.eq_false_iff.mp compiles)]
      exact looks.andThen (handled_obtain obtained)

theorem handled_complete {job : JobId} {result : Except CompileFailure SharedMap} {applied : Bool}
    (ran : system.complete id job result = .ok (applied, next)) :
    Handled system.workshop [] next.workshop := by
  have moves : Moves result.toOption.toList system next :=
    .complete (fun shared same => by rw [same]; exact List.mem_singleton_self shared) ran
  exact moves.handled

theorem handled_takeResult {job : JobId} (ran : system.takeResult id job = .ok next) :
    Handled system.workshop [] next.workshop := by
  have takes : Handled system.workshop [] { system.workshop with
      manager := (system.workshop.manager.take job id).2 } := .take job id
  rcases takeResult_cases ran with ⟨_, rfl⟩ | ⟨result, manager, _, took, completed⟩
  · exact .rest _
  · rw [took] at takes
    exact takes.andThen (handled_complete completed)

theorem handled_finishCompilation (ran : system.finishCompilation id = .ok next) :
    Handled system.workshop (system.deedsByFinishCompilation id) next.workshop := by
  unfold deedsByFinishCompilation
  rcases finishCompilation_cases ran with ⟨idle, rfl⟩ | ⟨resource, there, waits, takes⟩
  · split
    · exact .rest _
    · rename_i resource there
      rw [if_pos (idle resource there)]
      exact .rest _
  · rw [there]
    dsimp only
    rw [if_neg waits]
    refine foldlM_kept (motive := fun last : System => Handled system.workshop
      (system.workshop.deedsByFinish system.heldMaps resource.jobs) last.workshop)
      (fun job before last handled took => ?_) _ _ next
      (.finish system.heldMaps resource.jobs) takes
    exact handled.thenQuiet (handled_takeResult took)

theorem handled_loadInline {archive : List UInt8} {loaded : Bool}
    (ran : system.loadInline id archive = .ok (loaded, next)) :
    Handled system.workshop [] next.workshop := by
  obtain ⟨_, rfl⟩ | ⟨_, map, shared, later, _, adopts, _, rfl⟩ := loadInline_cases ran
  · exact .rest _
  · have finds := handled_findMap system map.identity
    cases adopts with
    | live same =>
      rw [same] at finds
      exact finds
    | own same =>
      rw [same] at finds
      exact finds.andThen (handled_registerMap _ map)

/-! ### Whatever is done -/

/-- One thing that is done with a system, and what is entered meanwhile. -/
inductive Deals : System → List Deed → System → Prop where
  | cacheShaders {system : System} {id : ResourceId} {ready : Bool} {next : System} :
    system.cacheShaders id = .ok (ready, next) → Deals system (system.deedsByCacheShaders id) next
  | finishCompilation {system : System} {id : ResourceId} {next : System} :
    system.finishCompilation id = .ok next →
    Deals system (system.deedsByFinishCompilation id) next
  | cancelCompilation (system : System) (id : ResourceId) :
    Deals system [] (system.cancelCompilation id)
  | complete {system : System} {id : ResourceId} {job : JobId}
    {result : Except CompileFailure SharedMap} {applied : Bool} {next : System} :
    system.complete id job result = .ok (applied, next) → Deals system [] next
  | processResults (system : System) :
    Deals system (system.workshop.deedsByProcess system.heldMaps) system.processResults.2
  | loadInline {system : System} {id : ResourceId} {archive : List UInt8} {loaded : Bool}
    {next : System} : system.loadInline id archive = .ok (loaded, next) → Deals system [] next
  | releaseMap (system : System) (id : ResourceId) : Deals system [] (system.releaseMap id)
  | lookup (system : System) (identity : MapIdentity) : Deals system [] (system.lookup identity).2
  | registerMap (system : System) (map : ShaderMap) : Deals system [] (system.registerMap map).2
  /-- Compiles are managed directly. -/
  | manage {system : System} {deeds : List Deed} {workshop : Workshop} :
    Handled system.workshop deeds workshop → Deals system deeds { system with workshop }
  /-- Anything happens that is nothing to the workshop: resources come and go, are varied and
  published, settings change, and the renderer works. -/
  | apart {system next : System} : next.workshop = system.workshop → Deals system [] next

/-- All that has been done with a system so far, and what has been entered meanwhile. -/
inductive Dealings (start : System) : List Deed → System → Prop where
  | none : Dealings start [] start
  | next {log : List Deed} {system : System} {deeds : List Deed} {next : System} :
    Dealings start log system → Deals system deeds next → Dealings start (log ++ deeds) next

theorem Deals.handled (deals : Deals system deeds next) :
    Handled system.workshop deeds next.workshop := by
  cases deals with
  | cacheShaders ran => exact handled_cacheShaders ran
  | finishCompilation ran => exact handled_finishCompilation ran
  | cancelCompilation id => exact handled_cancelCompilation system id
  | complete ran => exact handled_complete ran
  | processResults => exact .process system.heldMaps
  | loadInline ran => exact handled_loadInline ran
  | releaseMap id =>
    exact (handled_cancelCompilation system id).andThen
      ((Moves.withoutMap [] _ id).trans (.publish [] _ id)).handled
  | lookup identity => exact handled_lookup system identity
  | registerMap map => exact handled_registerMap system map
  | manage handled => exact handled
  | apart same =>
    rw [same]
    exact .rest _

theorem Dealings.handled (dealt : Dealings system log next) :
    Handled system.workshop log next.workshop := by
  induction dealt with
  | none => exact .rest _
  | next _ deals inductionHypothesis => exact inductionHypothesis.andThen deals.handled

/-! ### What is written -/

/-- What is done with a system without a map being entered. -/
inductive Spares (system : System) : System → Prop where
  /-- A live map is found, or one in the store. -/
  | found {id : ResourceId} {resource : Resource} {shared : SharedMap} {later : System}
    {ready : Bool} {next : System} : system.resources.get? id = some resource →
    system.lookup (resource.variant.identity system.catalog) = (some shared, later) →
    shared.map.isComplete (resource.variant.permutations system.catalog) →
    system.cacheShaders id = .ok (ready, next) → Spares system next
  | loaded {id : ResourceId} {archive : List UInt8} {loaded : Bool} {next : System} :
    system.loadInline id archive = .ok (loaded, next) → Spares system next
  | cancelled (id : ResourceId) : Spares system (system.cancelCompilation id)
  /-- All compiles that end meanwhile fail or are lost. -/
  | unentered {deeds : List Deed} {next : System} : Deals system deeds next →
    (∀ job own, .entered job own ∉ deeds) → Spares system next

theorem deedsByCacheShaders_found {shared : SharedMap}
    (there : system.resources.get? id = some resource)
    (looked : system.lookup (resource.variant.identity system.catalog) = (some shared, later))
    (does : shared.map.isComplete (resource.variant.permutations system.catalog)) :
    system.deedsByCacheShaders id = [] := by
  unfold deedsByCacheShaders
  rw [there]
  dsimp only
  rw [looked]
  dsimp only
  rw [Option.filter_some, if_pos does]

/-- A spared system has done nothing that enters a map. -/
theorem Spares.handled (spares : Spares system next) :
    ∃ deeds, Handled system.workshop deeds next.workshop ∧ Deed.maps deeds = [] := by
  cases spares with
  | found there looked does ran =>
    have handled := handled_cacheShaders ran
    rw [deedsByCacheShaders_found there looked does] at handled
    exact ⟨_, handled, rfl⟩
  | loaded ran => exact ⟨_, handled_loadInline ran, rfl⟩
  | cancelled id => exact ⟨_, handled_cancelCompilation system id, rfl⟩
  | unentered deals unentered =>
    refine ⟨_, deals.handled, List.filterMap_eq_nil_iff.mpr fun deed member => ?_⟩
    cases deed with
    | entered job own => exact absurd member (unentered job own)
    | lost | failed | put => rfl

/-- What has been put into the store is what was entered, one for one and in this order; no compile
has ended twice; nothing else has been put, and nothing is due. A compile that has failed, has been
lost or has been cancelled never enters a map, and whatever is spared a compile puts nothing. -/
theorem Dealings.persisted {start : System} {store : MemoryStore} {compiler : Compiler}
    (fresh : start.workshop = { compiler, store, usesStore := true })
    (dealt : Dealings start log system) :
    List.Forall₂ (fun own put => put.1 = own.map.identity.storeKey ∧ own.map.archive = .ok put.2)
      (Deed.maps log) (Deed.puts log) ∧
    (Deed.jobs log).Nodup ∧
    system.workshop.store.unasked = store.unasked.putAll (Deed.puts log) ∧
    system.workshop.manager.unwritten = [] ∧
    (∀ job : JobId, job.number < system.workshop.manager.nextJob.number →
      ¬system.workshop.manager.isCompiling job →
      ∀ more last, Dealings system more last → ∀ own, .entered job own ∉ more) ∧
    ∀ next, Spares system next →
      next.workshop.store.unasked = system.workshop.store.unasked := by
  have empty : start.workshop.Equipped := by
    rw [fresh]
    exact ⟨rfl, fun _ none => (nomatch none), fun _ none => (nomatch none),
      fun _ none => (nomatch none)⟩
  have stowed : start.workshop.Stowed := by
    rw [fresh]
    rfl
  have given : start.workshop.store = store := by rw [fresh]
  obtain ⟨balances, rests⟩ := dealt.handled.balanced stowed
  have balance := balances empty
  refine ⟨?_, balance.tallies.once, given ▸ balance.stored, rests,
    fun job begun landed more last later own member => ?_, fun next spares => ?_⟩
  · have posted : List.Forall₂ Eq ((Deed.maps log).map SharedMap.record?)
        ((Deed.puts log).map some) :=
      List.forall₂_eq_eq_eq ▸ dealt.handled.posted empty stowed
    rw [List.forall₂_map_left_iff, List.forall₂_map_right_iff] at posted
    exact posted.imp fun own put => SharedMap.record?_eq_some.mp
  · have after := (later.handled.balanced rests).1 balance.equipped
    have ended : job ∈ Deed.jobs more := List.mem_filterMap.mpr ⟨_, member, rfl⟩
    rcases after.tallies.known job (.inr ended) with flying | between
    · exact landed flying
    · exact absurd begun (Nat.not_lt.mpr between.1)
  · obtain ⟨deeds, handled, unentered⟩ := spares.handled
    exact handled.spared balance.equipped rests unentered

/-- A material without a graph, the only resource of a system that uses a store. -/
def supplied : System :=
  (addResource {
    settings := { allowsAsyncCompilation := false }
    catalog := pixelCatalog
    workshop := { compiler := { compile := fun _ => .ok ⟨[], 0⟩ }, usesStore := true } }
    { description := default }).2

/-- When it is cached first its map is compiled and put; when it is cached again that is found. -/
theorem supplied_put_once : ∃ log system own put next,
    Dealings supplied log system ∧ Deed.maps log = [own] ∧ Deed.puts log = [put] ∧
    put.1 = own.map.identity.storeKey ∧ own.map.archive = .ok put.2 ∧
    system.workshop.store.puts = 1 ∧ system.workshop.manager.unwritten = [] ∧
    Spares system next ∧ next.workshop.store.puts = 1 := by
  have ran : (supplied.cacheShaders .first).toOption.bind (fun once =>
      (once.2.resources.get? .first).bind fun resource =>
        (once.2.lookup (resource.variant.identity once.2.catalog)).1.bind fun shared =>
          (once.2.cacheShaders .first).toOption.map fun _ =>
            (shared.map.isComplete (resource.variant.permutations once.2.catalog),
              (Deed.maps (supplied.deedsByCacheShaders .first)).length)) = some (true, 1) := by
    decide +kernel
  obtain ⟨⟨_, system⟩, once, ran⟩ := Option.bind_eq_some_iff.mp ran
  obtain ⟨resource, there, ran⟩ := Option.bind_eq_some_iff.mp ran
  obtain ⟨shared, found, ran⟩ := Option.bind_eq_some_iff.mp ran
  obtain ⟨⟨_, next⟩, twice, ran⟩ := Option.map_eq_some_iff.mp ran
  obtain ⟨does, single⟩ := Prod.mk.inj ran
  obtain ⟨own, entered⟩ := List.length_eq_one_iff.mp single
  have dealt : Dealings supplied (supplied.deedsByCacheShaders .first) system :=
    .next .none (.cacheShaders (toOption_eq_some.mp once))
  have spares : Spares system next :=
    .found there (Prod.ext found rfl) does (toOption_eq_some.mp twice)
  obtain ⟨written, _, stored, rests, _, spared⟩ := dealt.persisted rfl
  rw [entered] at written
  obtain ⟨put, rest, ⟨key, archived⟩, none_left, puts⟩ := List.forall₂_cons_left_iff.mp written
  rw [List.forall₂_nil_left_iff.mp none_left] at puts
  rw [puts] at stored
  have counted : system.workshop.store.puts = 1 := congrArg MemoryStore.puts stored
  exact ⟨_, system, own, put, next, dealt, entered, puts, key, archived, counted, rests, spares,
    (congrArg MemoryStore.puts (spared next spares)).trans counted⟩

end Shading.System
