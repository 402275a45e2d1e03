/-
What is told of compiles while resources get their maps. The maps that are held
outside of the workshop are those of the resources and of the renderer, and
those that somebody has been handed and has done nothing with yet. Whatever a
resource does comes down to steps of the workshop; at most one compile begins,
and then no map that is held would have done.
-/

import Shading.Proofs.Compile.Telling
import Shading.Proofs.Material.Moving
import Shading.Proofs.Material.Steady

namespace Shading.System

/-! ### Who holds maps -/

/-- The maps that resources or the renderer keep alive. -/
def strong (system : System) : List SharedMap := system.resourceMaps ++ system.renderer.maps

/-- The maps that are held outside of the workshop, some of them in hand, and the workshop. -/
def stage (hand : List SharedMap) (system : System) : Workshop.Stage :=
  (hand ++ system.strong, system.workshop)

open Workshop (Evolves Proceeds Kept)

variable {needs : MapIdentity → Permutation → Prop} {fresh : MapIdentity → Prop}
  {hand hand' : List SharedMap} {system next : System} {id : ResourceId} {identity : MapIdentity}

theorem heldMaps_eq (system : System) : system.heldMaps = system.strong.map SharedMap.id := by
  show system.resourceMaps.map SharedMap.id ++ system.renderer.heldMaps = _
  rw [Renderer.heldMaps_eq, ← List.map_append]
  rfl

/-- With nothing in hand, whoever holds a map is known to. -/
theorem holds (system : System) : ∀ shared ∈ (system.stage []).1, shared.id ∈ system.heldMaps :=
  fun _ member => heldMaps_eq system ▸ List.mem_map_of_mem member

theorem Moves.strong (moves : Moves hand system next) : next.strong ⊆ hand ++ system.strong := by
  intro shared member
  unfold System.strong
  rw [← List.append_assoc]
  rcases List.mem_append.mp member with resource | renderer
  · exact List.mem_append_left _ (moves.resources shared resource)
  · exact moves.renderer shared renderer

theorem Moves.evolves (moves : Moves hand system next) (fewer : hand' ⊆ hand ++ system.strong) :
    Evolves needs (system.stage hand) [] (next.stage hand') := by
  unfold stage
  rw [moves.workshop]
  refine .pass fun shared member => List.mem_append_left _ ?_
  exact (List.mem_append.mp member).elim (fun handed => fewer handed) fun held => moves.strong held

theorem Moves.after {start : Workshop.Stage} {told : List Occurrence}
    (moves : Moves hand system next) (fewer : hand' ⊆ hand ++ system.strong)
    (steps : Evolves needs start told (system.stage hand)) :
    Evolves needs start told (next.stage hand') := by
  have longer := steps.trans (moves.evolves fewer)
  rwa [List.append_nil] at longer

theorem Moves.afterwards {start : Workshop.Stage} {told : List Occurrence}
    (moves : Moves hand system next)
    (proceeds : Proceeds needs fresh start told (system.stage hand)) :
    Proceeds needs fresh start told (next.stage []) := by
  have longer := proceeds.andThen (moves.evolves (List.nil_subset _))
  rwa [List.append_nil] at longer

/-! ### What is told -/

def toldByCancelCompilation (system : System) (id : ResourceId) : List Occurrence :=
  match system.resources.get? id with
  | none => []
  | some resource => Workshop.toldByCancel id system.workshop.manager resource.jobs

def toldByCompile (system : System) (id : ResourceId) (resource : Resource)
    (identity : MapIdentity) (synchronous : Bool) : List Occurrence :=
  let cancelled := system.cancelCompilation id
  system.toldByCancelCompilation id ++ cancelled.workshop.toldByRequest cancelled.heldMaps
    (cancelled.wanted id resource identity synchronous)

/-- A resource that joins a compile leaves the others it has waited for. -/
def toldByKeepOnlyJob (system : System) (id : ResourceId) (job : JobId) : List Occurrence :=
  match system.resources.get? id with
  | none => []
  | some resource =>
    Workshop.toldByCancel id system.workshop.manager (resource.jobs.filter (· ≠ job))

def toldByObtain (system : System) (id : ResourceId) (resource : Resource)
    (identity : MapIdentity) : List Occurrence :=
  if resource.isDefault || !system.settings.allowsAsyncCompilation then
    system.toldByCompile id resource identity true
  else match system.workshop.manager.inFlight? identity with
    | some job => (system.onManager fun manager => manager.join job id).toldByKeepOnlyJob id job
    | none => system.toldByCompile id resource identity false

def toldByCacheShaders (system : System) (id : ResourceId) : List Occurrence :=
  match system.resources.get? id with
  | none => []
  | some resource =>
    let identity := resource.variant.identity system.catalog
    let required := resource.variant.permutations system.catalog
    let (found, system) := system.lookup identity
    match found.filter fun shared => shared.map.isComplete required with
    | some _ => system.toldByCancelCompilation id
    | none =>
      if system.settings.requiresCookedData then []
      else system.toldByObtain id resource identity

def toldByFinishCompilation (system : System) (id : ResourceId) : List Occurrence :=
  match system.resources.get? id with
  | none => []
  | some resource =>
    if resource.jobs = [] then []
    else system.workshop.toldByFinish system.heldMaps resource.jobs

/-! ### Looking for maps -/

theorem evolves_findMap {found : Option SharedMap} (ran : system.findMap identity = (found, next)) :
    Evolves needs (system.stage []) [] (next.stage found.toList) := by
  cases ran
  exact .single (.find system.heldMaps identity system.holds)

theorem evolves_registerMap {canonical : SharedMap} {map : ShaderMap}
    (meets : map.Meets (needs map.identity)) (ran : system.registerMap map = (canonical, next)) :
    Evolves needs (system.stage []) [] (next.stage [canonical]) := by
  cases ran
  exact .single (.offer system.heldMaps map meets system.holds)

theorem evolves_findStored {found : Option SharedMap}
    (stocks : ∀ map, system.Stored identity map → map.Meets (needs identity))
    (ran : system.findStored identity = (found, next)) :
    Evolves needs (system.stage []) [] (next.stage found.toList) := by
  have looked : Evolves needs (system.stage []) [] ((system.consulted identity).stage []) :=
    .calm (.of_idle ⟨rfl, rfl, rfl, rfl, rfl, rfl, rfl⟩ rfl)
  rcases findStored_cases system identity with ⟨map, stored, same⟩ | ⟨_, same⟩
  · obtain ⟨rfl, rfl⟩ := Prod.mk.inj (same.symm.trans ran)
    have ⟨_, _, _, _, is⟩ := stored
    exact looked.trans (evolves_registerMap (is ▸ stocks map stored) rfl)
  · obtain ⟨rfl, rfl⟩ := Prod.mk.inj (same.symm.trans ran)
    exact looked

/-- A map that is taken from the store, since none of its identity is alive. -/
def Takes (system : System) (identity : MapIdentity) (map : ShaderMap) : Prop :=
  (system.findMap identity).1 = none ∧ system.Stored identity map

theorem evolves_lookup {found : Option SharedMap}
    (stocks : ∀ map, system.Takes identity map → map.Meets (needs identity))
    (ran : system.lookup identity = (found, next)) :
    Evolves needs (system.stage []) [] (next.stage found.toList) := by
  unfold System.lookup at ran
  split at ran
  · rename_i shared later same
    cases ran
    exact evolves_findMap same
  · rename_i later same
    obtain rfl : (system.findMap identity).2 = later := congrArg Prod.snd same
    exact (evolves_findMap same).trans (evolves_findStored
      (fun map stored => stocks map ⟨congrArg Prod.fst same, stored⟩) ran)

/-! ### Cancelling -/

theorem evolves_cancel (hand : List SharedMap) (system : System) (id : ResourceId)
    (jobs : List JobId) :
    Evolves needs (system.stage hand) (Workshop.toldByCancel id system.workshop.manager jobs)
      ((system.onManager fun manager => manager.cancel id jobs).stage hand) :=
  .cancel id jobs

theorem evolves_cancelCompilation (hand : List SharedMap) (system : System) (id : ResourceId) :
    Evolves needs (system.stage hand) (system.toldByCancelCompilation id)
      ((system.cancelCompilation id).stage hand) := by
  unfold toldByCancelCompilation cancelCompilation
  cases found : system.resources.get? id with
  | none => exact .refl _
  | some resource =>
    dsimp only
    split
    · rename_i idle
      rw [idle]
      exact .refl _
    · have forgets : Moves hand (system.onManager fun manager => manager.cancel id resource.jobs)
          ((system.onManager fun manager => manager.cancel id resource.jobs).onResource id
            fun resource => { resource with jobs := [] }) := .onResource id fun _ _ => .inl
      exact forgets.after (List.subset_append_left hand _)
        (evolves_cancel hand system id resource.jobs)

/-- To cancel ends no compile with a map. -/
theorem unmade_cancel (resource : ResourceId) (manager : Manager) (jobs : List JobId)
    (job : JobId) (shared : SharedMap) :
    .made job shared ∉ Workshop.toldByCancel resource manager jobs := by
  induction jobs generalizing manager with
  | nil => exact List.not_mem_nil
  | cons first rest inductionHypothesis =>
    intro member
    rcases List.mem_append.mp member with here | later
    · unfold Workshop.toldByLeave at here
      split at here
      · cases here
      · split at here
        · cases List.mem_singleton.mp here
        · cases here
    · exact inductionHypothesis _ later

theorem unmade_cancelCompilation (system : System) (id : ResourceId) (job : JobId)
    (shared : SharedMap) : .made job shared ∉ system.toldByCancelCompilation id := by
  unfold toldByCancelCompilation
  split
  · exact List.not_mem_nil
  · exact unmade_cancel id _ _ job shared

/-! ### Getting a map -/

theorem proceeds_compile {resource : Resource} {synchronous ready : Bool}
    (kept : Kept needs (system.stage []))
    (full : ∀ permutation, needs identity permutation →
      permutation ∈ resource.variant.permutations system.catalog)
    (isFresh : fresh identity)
    (ran : system.compile id resource identity synchronous = .ok (ready, next)) :
    Proceeds needs fresh (system.stage []) (system.toldByCompile id resource identity synchronous)
      (next.stage []) := by
  have cancels : Evolves needs (system.stage []) (system.toldByCancelCompilation id)
      ((system.cancelCompilation id).stage []) := evolves_cancelCompilation [] system id
  refine .after cancels (system.unmade_cancelCompilation id) ?_
  have keptStart := kept.evolves cancels
  rw [← (Steady.cancelCompilation system id).catalog] at full
  obtain ⟨answer, workshop, served, heeds⟩ := compile_heeds ran
  generalize system.cancelCompilation id = start at served heeds keptStart full ⊢
  have serves : Proceeds needs fresh (start.stage [])
      (start.workshop.toldByRequest start.heldMaps
        (start.wanted id resource identity synchronous))
      (({ start with workshop } : System).stage
        (answer.toOption.bind CompileOutcome.map?).toList) :=
    .ofRequest keptStart full start.holds isFresh served
  cases heeds with
  | given => exact Moves.afterwards (.succeed id List.mem_cons_self) serves
  | refused _ failed => exact Moves.afterwards (.fail failed) serves
  | waits => exact Moves.afterwards ((Moves.addJob id _).trans (.clearMap _ _ id)) serves

theorem evolves_keepOnlyJob (hand : List SharedMap) (system : System) (id : ResourceId)
    (job : JobId) :
    Evolves needs (system.stage hand) (system.toldByKeepOnlyJob id job)
      ((system.keepOnlyJob id job).stage hand) := by
  unfold toldByKeepOnlyJob keepOnlyJob
  cases found : system.resources.get? id with
  | none => exact .refl _
  | some resource =>
    dsimp only
    split
    · rename_i none_stale
      rw [none_stale]
      exact Moves.evolves (.onResource id fun _ _ => .inl) (List.subset_append_left hand _)
    · exact Moves.after (.onResource id fun _ _ => .inl) (List.subset_append_left hand _)
        (evolves_cancel hand system id _)

theorem evolves_attach {job : JobId}
    (flying : system.workshop.manager.inFlight? identity = some job)
    (attached : system.attach id identity = some next) :
    Evolves needs (system.stage [])
      ((system.onManager fun manager => manager.join job id).toldByKeepOnlyJob id job)
      (next.stage []) := by
  obtain ⟨other, there, rfl⟩ := attach_eq_some.mp attached
  cases flying.symm.trans there
  have joins : Evolves needs (system.stage []) []
      ((system.onManager fun manager => manager.join job id).stage []) := .join job id
  exact Moves.after (.clearMap [] _ id) (List.nil_subset _)
    (joins.trans (evolves_keepOnlyJob [] _ id job))

theorem proceeds_obtain {resource : Resource} {ready : Bool} (kept : Kept needs (system.stage []))
    (full : ∀ permutation, needs identity permutation →
      permutation ∈ resource.variant.permutations system.catalog)
    (isFresh : fresh identity)
    (ran : system.obtain id resource identity = .ok (ready, next)) :
    Proceeds needs fresh (system.stage []) (system.toldByObtain id resource identity)
      (next.stage []) := by
  unfold toldByObtain
  change Proceeds needs fresh _ (if resource.isPressing system.settings = true then _ else _) _
  rcases obtain_cases ran with ⟨patient, _, attached⟩ | ⟨missed, compiled⟩
  · rw [if_neg (Bool.eq_false_iff.mp patient)]
    obtain ⟨job, flying, _⟩ := attach_eq_some.mp attached
    rw [flying]
    exact .quietly (evolves_attach flying attached)
  · have compiles := proceeds_compile kept full isFresh compiled
    cases pressing : resource.isPressing system.settings with
    | true =>
      rw [pressing] at compiles
      exact compiles
    | false =>
      rw [pressing] at compiles
      rw [missed pressing]
      exact compiles

/-- A map that is held is found. -/
theorem findMap_of_held {shared : SharedMap} (kept : Kept needs (system.stage []))
    (member : shared ∈ (system.stage []).held) :
    system.findMap shared.map.identity = (some shared, system) := by
  have entered : system.workshop.registry.entries.get? shared.map.identity = some shared :=
    kept.entered shared member
  have alive : shared.id ∈ system.workshop.heldMaps system.heldMaps :=
    Kept.alive system.holds member
  unfold findMap Registry.find
  rw [entered]
  dsimp only
  rw [if_pos alive]

theorem lookup_of_held {shared : SharedMap} (kept : Kept needs (system.stage []))
    (member : shared ∈ (system.stage []).held) :
    system.lookup shared.map.identity = (some shared, system) := by
  unfold lookup
  rw [findMap_of_held kept member]

/-- No map that is held would do for the materials of an identity. -/
def Lacks (catalog : Catalog) (held : List SharedMap) (identity : MapIdentity) : Prop :=
  ∃ variant : Variant, variant.identity catalog = identity ∧ ∀ shared ∈ held,
    shared.map.identity = identity → shared.map.isComplete (variant.permutations catalog) = false

theorem proceeds_cacheShaders {ready : Bool} (kept : Kept needs (system.stage []))
    (full : ∀ variant : Variant, ∀ permutation,
      needs (variant.identity system.catalog) permutation →
      permutation ∈ variant.permutations system.catalog)
    (stocks : ∀ resource map, system.resources.get? id = some resource →
      system.Takes (resource.variant.identity system.catalog) map →
      map.Meets (needs (resource.variant.identity system.catalog)))
    (ran : system.cacheShaders id = .ok (ready, next)) :
    Proceeds needs (Lacks system.catalog (system.stage []).held) (system.stage [])
      (system.toldByCacheShaders id) (next.stage []) := by
  unfold toldByCacheShaders
  rcases cacheShaders_cases ran with
    ⟨absent, _, rfl⟩ | ⟨resource, found, later, does, there, looked, chosen, settles⟩
  · rw [absent]
    exact .quietly (.refl _)
  · have looks : Evolves needs (system.stage []) [] (later.stage found.toList) :=
      evolves_lookup (fun map => stocks resource map there) looked
    rw [there]
    dsimp only
    rw [looked]
    dsimp only
    rw [chosen]
    have drops : Evolves needs (system.stage []) [] (later.stage []) :=
      Moves.after (.refl _ later) (List.nil_subset _) looks
    cases settles with
    | given =>
      obtain ⟨rfl, _⟩ := Option.filter_eq_some_iff.mp chosen
      exact .quietly (looks.trans (Moves.after (.succeed id List.mem_cons_self) (List.nil_subset _)
        (evolves_cancelCompilation _ later id)))
    | fallsBack cooked fell =>
      dsimp only
      rw [if_pos cooked]
      have falls : Evolves needs (later.stage []) [] (next.stage []) :=
        Moves.evolves (.fallBack fell) (List.nil_subset _)
      exact .quietly (drops.trans falls)
    | obtains compiles obtained =>
      dsimp only
      rw [if_neg (Bool.eq_false_iff.mp compiles)]
      have catalog : later.catalog = system.catalog := by
        have steady := Steady.lookup system (resource.variant.identity system.catalog)
        rw [looked] at steady
        exact steady.catalog
      refine .after drops (fun _ _ => List.not_mem_nil) (proceeds_obtain (kept.evolves drops)
        (catalog ▸ full resource.variant)
        ⟨resource.variant, rfl, fun shared member same => ?_⟩ obtained)
      have seen := lookup_of_held kept member
      rw [same, looked] at seen
      cases seen
      exact Bool.eq_false_iff.mpr (Option.filter_eq_none_iff.mp chosen shared rfl)

/-! ### Results -/

theorem evolves_takeResult {job : JobId} (kept : Kept needs (system.stage []))
    (ran : system.takeResult id job = .ok next) :
    Evolves needs (system.stage []) [] (next.stage []) := by
  rcases takeResult_cases ran with ⟨_, rfl⟩ | ⟨result, manager, _, taken, completed⟩
  · exact .refl _
  · have takes : Evolves needs (system.stage []) []
        ((system.onManager fun _ => manager).stage result.toOption.toList) :=
      .take kept.orderly taken
    refine Moves.after (.complete (fun shared same => ?_) completed) (List.nil_subset _) takes
    rw [same]
    exact List.mem_cons_self

theorem evolves_finishCompilation (kept : Kept needs (system.stage []))
    (ran : system.finishCompilation id = .ok next) :
    Evolves needs (system.stage []) (system.toldByFinishCompilation id) (next.stage []) := by
  unfold toldByFinishCompilation
  rcases finishCompilation_cases ran with ⟨idle, rfl⟩ | ⟨resource, found, waits, takes⟩
  · split
    · exact .refl _
    · rename_i resource found
      rw [if_pos (idle resource found)]
      exact .refl _
  · rw [found]
    dsimp only
    rw [if_neg waits]
    have finishes : Evolves needs (system.stage [])
        (system.workshop.toldByFinish system.heldMaps resource.jobs)
        ({ system with
          workshop := system.workshop.finish system.heldMaps resource.jobs }.stage []) :=
      .finish system.holds resource.jobs
    refine foldlM_kept (motive := fun last : System => Evolves needs (system.stage [])
      (system.workshop.toldByFinish system.heldMaps resource.jobs) (last.stage []))
      (fun job middle last before taken => ?_) _ _ next finishes takes
    have longer := before.trans (evolves_takeResult (kept.evolves before) taken)
    rwa [List.append_nil] at longer

/-- Results are handed out, with their maps. -/
theorem evolves_processResults (system : System) :
    Evolves needs (system.stage []) (system.workshop.toldByDrain system.heldMaps)
      (system.processResults.2.stage
        (system.processResults.1.filterMap FinishedCompile.map?)) := by
  show Evolves needs (system.stage []) _ (_, (system.workshop.process system.heldMaps).2)
  exact .process system.holds

/-! ### Inline archives -/

theorem evolves_loadInline {archive : List UInt8} {loaded : Bool}
    (meets : ∀ packaged map, InlineMap.read archive = .ok ⟨packaged, some map⟩ →
      map.Meets (needs map.identity))
    (ran : system.loadInline id archive = .ok (loaded, next)) :
    Evolves needs (system.stage []) [] (next.stage []) := by
  obtain ⟨_, rfl⟩ | ⟨packaged, map, shared, later, read, adopts, _, rfl⟩ := loadInline_cases ran
  · exact .refl _
  · have adopted : Evolves needs (system.stage []) [] (later.stage [shared]) := by
      cases adopts with
      | live found => exact evolves_findMap found
      | own missing =>
        exact (evolves_findMap missing).trans (evolves_registerMap (meets packaged map read) rfl)
    refine Moves.after (.onResource id fun _ other has => .inr ?_) (List.nil_subset _) adopted
    exact Option.some.inj has ▸ List.mem_cons_self

end Shading.System
