/-
No compile too many. Where maps that are loaded have all that their identities
need, a map that anybody holds will do for whoever asks for its identity. So a
second compile of an identity begins only if the first one failed, or was left,
or if nobody held its map at some moment in between; and none begins as long as
one of the identity is in flight, its map is held, or the store has it.
-/

import Shading.Proofs.Compile.Chronicle
import Shading.Proofs.Material.Prompt
import Shading.Proofs.Material.Reached

namespace Shading

/-- Whether a map has all the permutations of the materials with its identity. -/
def Catalog.Serves (catalog : Catalog) (map : ShaderMap) : Prop :=
  ∀ variant : Variant, variant.identity catalog = map.identity →
    map.isComplete (variant.permutations catalog)

theorem Catalog.Serves.meets {catalog : Catalog} {map : ShaderMap} (serves : catalog.Serves map)
    (compiled : map.isCompiled) : map.Meets (catalog.Needs [] map.identity) := by
  refine ⟨compiled, fun permutation ⟨_, variant, same, member⟩ => ?_⟩
  have complete := (Bool.and_eq_true_iff.mp (serves variant same)).2
  exact List.all_eq_true.mp complete permutation member

namespace System

open Workshop (Kept Evolves Proceeds Chronicle)

/-- A system from its start on, with all that is told of compiles and, after each thing that is
done, the maps that are held then. -/
inductive Course (catalog : Catalog) : List Occurrence → List SharedMap → System → Prop where
  | start (settings : Settings) (compiler : Compiler) (store : MemoryStore) (usesStore : Bool) :
    Course catalog [.moment []] [] {
      settings, catalog
      workshop := { compiler, store, usesStore }
      renderer := { world := {
        deferring := settings.defersUniformCaching, activeTiers := settings.activeTiers } } }
  | act {log hand system told hand' next} : Course catalog log hand system →
    Acts catalog.Serves hand system told hand' next →
    Course catalog (log ++ (told ++ [.moment (next.stage hand').held])) hand' next

variable {catalog : Catalog} {log : List Occurrence} {hand : List SharedMap} {system next : System}
  {id : ResourceId} {resource : Resource} {identity : MapIdentity}

theorem Course.same_catalog (course : Course catalog log hand system) :
    system.catalog = catalog := by
  induction course with
  | start => rfl
  | act _ acts inductionHypothesis => exact acts.constant.2.trans inductionHypothesis

theorem Course.prompt (course : Course catalog log hand system) : system.Prompt := by
  induction course with
  | start => exact fun _ _ there => (nomatch there)
  | act _ acts prompt => exact prompt.acts acts

/-- A map that has what is needed does for every material of its identity. -/
theorem complete_of_held {shared : SharedMap} (kept : Kept (catalog.Needs []) (system.stage hand))
    (member : shared ∈ (system.stage hand).held) (variant : Variant)
    (same : variant.identity catalog = shared.map.identity) :
    shared.map.isComplete (variant.permutations catalog) :=
  isComplete_of_meets List.not_mem_nil (same ▸ kept.meets member)

theorem Course.chronicle (respects : catalog.RespectsIdentity)
    (course : Course catalog log hand system) :
    Chronicle (catalog.Needs []) log (system.stage hand) := by
  induction course with
  | start settings compiler store usesStore => exact .start compiler store usesStore
  | act before acts chronicle =>
    have kept := chronicle.kept
    obtain rfl := before.same_catalog
    refine .act chronicle ((acts.proceeds kept (fun variant _ needed =>
      mem_permutations_of_needs respects variant needed) fun _ serves => serves.meets).weaken ?_)
    intro identity ⟨variant, same, lacking⟩ shared member is
    have complete := complete_of_held kept member variant (same.trans is.symm)
    rw [lacking shared member is] at complete
    cases complete

/-- As many compiles have begun as are told of. -/
theorem Course.lowerings (respects : catalog.RespectsIdentity)
    (course : Course catalog log hand system) :
    system.workshop.manager.lowerings = log.countP Occurrence.isStart :=
  (course.chronicle respects).lowerings

/-! ### Requests that need no compile -/

/-- What spares a material a compile: one of its identity that is in flight, a map of it that
somebody holds, or one in the store that will do. -/
inductive Provided (system : System) (variant : Variant) : Prop where
  | flying (job : JobId) :
    system.workshop.manager.inFlight? (variant.identity system.catalog) = some job →
    Provided system variant
  | held (shared : SharedMap) : shared ∈ (system.stage []).held →
    shared.map.identity = variant.identity system.catalog → Provided system variant
  | stored (map : ShaderMap) : system.Stored (variant.identity system.catalog) map →
    map.isComplete (variant.permutations system.catalog) → Provided system variant

/-- Where the store has a map that will do, one is found that does. -/
theorem lookup_of_stored {map : ShaderMap} {found : Option SharedMap}
    (kept : Kept (system.catalog.Needs []) (system.stage hand)) {variant : Variant}
    (stored : system.Stored (variant.identity system.catalog) map)
    (serves : map.isComplete (variant.permutations system.catalog))
    (ran : system.lookup (variant.identity system.catalog) = (found, next)) :
    ∃ shared, found = some shared ∧
      shared.map.isComplete (variant.permutations system.catalog) := by
  obtain rfl : (system.lookup (variant.identity system.catalog)).1 = found := by rw [ran]
  cases live : system.incumbent (variant.identity system.catalog) with
  | some shared =>
    rw [lookup_live live]
    exact ⟨shared, rfl, isComplete_of_meets List.not_mem_nil
      (kept.keyed_of_get? (incumbent_eq_some.mp live).1).2.1⟩
  | none =>
    exact ⟨⟨system.workshop.registry.next, map⟩, (lookup_missed live).mpr ⟨rfl, stored⟩, serves⟩

/-- A request that finds a compile in flight begins none. -/
theorem unstarted_toldByRequest {workshop : Workshop} {held : List MapId} {job : JobId}
    {request : CompileRequest} (flying : workshop.manager.inFlight? request.identity = some job) :
    ∀ occurrence ∈ workshop.toldByRequest held request, occurrence.isStart = false := by
  unfold Workshop.toldByRequest
  rw [flying]
  dsimp only
  split
  · have finishes : Evolves (fun _ _ => False) ([], workshop.joined request job)
        ((workshop.joined request job).toldByFinish held [job])
        ([], (workshop.joined request job).finish held [job]) :=
      .finish (fun _ outer => absurd outer List.not_mem_nil) [job]
    exact finishes.unstarted
  · exact fun _ none => (nomatch none)

/-- A resource that waits for nothing has nothing to cancel. -/
theorem cancelCompilation_idle (there : system.resources.get? id = some resource)
    (idle : resource.jobs = []) :
    system.cancelCompilation id = system ∧ system.toldByCancelCompilation id = [] := by
  unfold cancelCompilation toldByCancelCompilation
  rw [there]
  dsimp only
  rw [if_pos idle, idle]
  exact ⟨rfl, rfl⟩

/-- While a compile of an identity is in flight no resource begins another. -/
theorem unstarted_toldByObtain {job : JobId} (prompt : system.Prompt)
    (there : system.resources.get? id = some resource)
    (flying : system.workshop.manager.inFlight? identity = some job) :
    ∀ occurrence ∈ system.toldByObtain id resource identity, occurrence.isStart = false := by
  unfold toldByObtain
  split
  · rename_i pressing
    obtain ⟨waits, silent⟩ := cancelCompilation_idle there (prompt id resource there pressing)
    unfold toldByCompile
    rw [waits, silent]
    exact unstarted_toldByRequest flying
  · rw [flying]
    have leaves : Evolves (fun _ _ => False) ((system.onManager fun manager =>
        manager.join job id).stage []) _ _ := evolves_keepOnlyJob [] _ id job
    exact leaves.unstarted

/-- What a request is told of that is spared a compile. -/
theorem Provided.unstarted (kept : Kept (system.catalog.Needs []) (system.stage hand))
    (prompt : system.Prompt) (there : system.resources.get? id = some resource)
    (provided : system.Provided resource.variant) :
    ∀ occurrence ∈ system.toldByCacheShaders id, occurrence.isStart = false := by
  unfold toldByCacheShaders
  rw [there]
  dsimp only
  generalize looked : system.lookup (resource.variant.identity system.catalog) = pair
  obtain ⟨found, later⟩ := pair
  dsimp only
  cases does : found.filter fun shared =>
      shared.map.isComplete (resource.variant.permutations system.catalog) with
  | some shared =>
    have cancels : Evolves (system.catalog.Needs []) (later.stage []) _ _ :=
      evolves_cancelCompilation [] later id
    exact cancels.unstarted
  | none =>
    have lacking (shared : SharedMap) (same : found = some shared) :
        shared.map.isComplete (resource.variant.permutations system.catalog) = false :=
      Bool.eq_false_iff.mpr (Option.filter_eq_none_iff.mp does shared same)
    cases provided with
    | flying job flying =>
      dsimp only
      split
      · exact fun _ none => (nomatch none)
      · obtain ⟨registry, store, rfl⟩ := lookup_apart looked
        exact unstarted_toldByObtain (prompt.of_resources rfl rfl) there flying
    | held shared member same =>
      have emptied : Kept (system.catalog.Needs []) (system.stage []) :=
        kept.evolves (Moves.evolves (.refl hand system) (List.nil_subset _))
      have seen := lookup_of_held emptied member
      rw [same, looked] at seen
      have complete := complete_of_held emptied member resource.variant same.symm
      rw [lacking shared (congrArg Prod.fst seen)] at complete
      cases complete
    | stored map stored serves =>
      obtain ⟨shared, same, complete⟩ := lookup_of_stored kept stored serves looked
      rw [lacking shared same] at complete
      cases complete

/-- Of two compiles of one identity that begin, the first fails or is left by all resources before
the second begins, or at some moment in between nobody holds the map it has ended with. All that
begin are told of. And a request of a resource begins none as long as one of its identity is in
flight, as somebody holds the map of a compile that has ended, or as the store has one. -/
theorem Course.compiles_only_when_needed (respects : catalog.RespectsIdentity)
    (course : Course catalog log hand system) :
    (∀ past first identity between second rest,
      log = (past ++ .started first identity :: between) ++ .started second identity :: rest →
      Occurrence.Excuses first between) ∧
    system.workshop.manager.lowerings = log.countP Occurrence.isStart ∧
    ∀ id resource, system.resources.get? id = some resource →
      system.Provided resource.variant →
      (∀ occurrence ∈ system.toldByCacheShaders id, occurrence.isStart = false) ∧
      ∀ ready next, (∀ map, system.Takes (resource.variant.identity catalog) map →
          catalog.Serves map) →
        system.cacheShaders id = .ok (ready, next) →
        next.workshop.manager.lowerings = system.workshop.manager.lowerings := by
  have chronicle := course.chronicle respects
  refine ⟨fun past first identity between second rest split => chronicle.excused split,
    course.lowerings respects, fun id resource there provided => ?_⟩
  obtain rfl := course.same_catalog
  have unstarted := provided.unstarted chronicle.kept course.prompt there
  refine ⟨unstarted, fun ready next serves ran => ?_⟩
  have idle : Course system.catalog _ [] system := course.act (.hold (List.nil_subset _))
  have cached : Course system.catalog _ [] next := idle.act
    (.cacheShaders (fun other map found takes => ?_) ran)
  · have none_begun : (system.toldByCacheShaders id).countP Occurrence.isStart = 0 :=
      List.countP_eq_zero.mpr fun occurrence member =>
        Bool.not_eq_true _ |>.mpr (unstarted occurrence member)
    rw [cached.lowerings respects, course.lowerings respects, List.countP_append,
      List.countP_append, List.countP_append, List.countP_append, none_begun]
    rfl
  · cases there.symm.trans found
    exact serves map takes

/-- Without a store nothing is taken from it. -/
theorem not_takes {map : ShaderMap} (storeless : system.workshop.usesStore = false) :
    ¬system.Takes identity map := fun takes => by
  have uses := takes.2.1
  rw [storeless] at uses
  cases uses

/-- The painted material of a system without a renderer. -/
def paintedAlone : System := { painted with renderer := painted.renderer.leave }

theorem paintedAlone_course :
    Course pixelCatalog [.moment [], .moment [], .moment []] [] paintedAlone := by
  have started : Course pixelCatalog [.moment []] [] _ :=
    .start { allowsAsyncCompilation := false } { compile := fun _ => .ok ⟨[], 0⟩ } {} false
  exact (started.act (.addResource { description := default })).act .leave

theorem paintedAlone_begins :
    (paintedAlone.toldByCacheShaders .first).head? = some (.started .first bareMap.identity) := by
  cbv

/-- Cached, released and cached again with nobody left who draws it, it is compiled twice; cached
once more it is not compiled again. -/
theorem painted_compiled_twice : ∃ log system past between rest resource ready next,
    Course pixelCatalog log [] system ∧
    log = (past ++ .started .first bareMap.identity :: between) ++
      .started (.next .first) bareMap.identity :: rest ∧
    Occurrence.Excuses .first between ∧ log.countP Occurrence.isStart = 2 ∧
    system.resources.get? .first = some resource ∧ system.Provided resource.variant ∧
    system.cacheShaders .first = .ok (ready, next) ∧ next.workshop.manager.lowerings = 2 := by
  have ran : (paintedAlone.cacheShaders .first).toOption.bind (fun once =>
      let released := once.2.releaseMap .first
      (released.cacheShaders .first).toOption.bind fun twice =>
        (twice.2.resources.get? .first).bind fun resource => resource.map.bind fun shared =>
          (twice.2.cacheShaders .first).toOption.map fun _ =>
            (released.workshop.usesStore, twice.2.workshop.usesStore,
              decide (shared.map.identity = resource.variant.identity twice.2.catalog),
              twice.2.workshop.manager.lowerings,
              (released.toldByCacheShaders .first).head?)) =
      some (false, false, true, 2, some (.started (.next .first) bareMap.identity)) := by
    cbv
  obtain ⟨⟨_, middle⟩, once, ran⟩ := Option.bind_eq_some_iff.mp ran
  obtain ⟨⟨_, system⟩, twice, ran⟩ := Option.bind_eq_some_iff.mp ran
  obtain ⟨resource, there, ran⟩ := Option.bind_eq_some_iff.mp ran
  obtain ⟨shared, has, ran⟩ := Option.bind_eq_some_iff.mp ran
  obtain ⟨⟨ready, next⟩, thrice, ran⟩ := Option.map_eq_some_iff.mp ran
  simp only [Prod.mk.injEq, decide_eq_true_eq] at ran
  obtain ⟨storeless, storeless', same, begun, again⟩ := ran
  obtain ⟨more, begins⟩ := List.head?_eq_some_iff.mp paintedAlone_begins
  obtain ⟨rest, beginsAgain⟩ := List.head?_eq_some_iff.mp again
  have course := ((paintedAlone_course.act (.cacheShaders
      (fun _ _ _ takes => absurd takes (not_takes rfl)) (toOption_eq_some.mp once))).act
    (.releaseMap .first)).act (.cacheShaders
      (fun _ _ _ takes => absurd takes (not_takes storeless)) (toOption_eq_some.mp twice))
  rw [begins, beginsAgain] at course
  obtain ⟨excused, told, spared⟩ :=
    course.compiles_only_when_needed pixelCatalog_respectsIdentity
  have held : shared ∈ (system.stage []).held :=
    List.mem_append_left _ (show shared ∈ system.strong from List.mem_append_left _
      (mem_resourceMaps.mpr ⟨(.first, resource), Table.mem_entries_of_get? there, has⟩))
  have provided : system.Provided resource.variant := .held shared held same
  obtain ⟨_, unchanged⟩ := spared .first resource there provided
  have cached : system.cacheShaders .first = .ok (ready, next) := toOption_eq_some.mp thrice
  have excuse := excused [.moment [], .moment [], .moment []] .first bareMap.identity
    ((more ++ [_]) ++ (_ ++ [_])) (.next .first) (rest ++ [_]) rfl
  exact ⟨_, system, [.moment [], .moment [], .moment []], _, _, resource, ready, next, course, rfl,
    excuse, told.symm.trans begun, there, provided, cached,
    (unchanged ready next (fun _ takes => absurd takes (not_takes storeless')) cached).trans begun⟩

end System

end Shading
