/-
Asking again. Whatever comes of a call for the map of a resource, the same call
made once more at once begins no compile and asks the compiler for nothing: a
resource that has got a complete map has it still, and one that waits joins the
compile it waits for, which changes nothing, or finds a map that has turned up.
That can be a map out of the store, which the first call did not look into as
long as a live map was in the way that would not do.
-/

import Shading.Proofs.Map.Archiving
import Shading.Proofs.Material.Applying
import Shading.Proofs.Material.Pending

namespace Shading

/-- A change of an entry after another one is a change of the entry. -/
theorem Table.modify_modify {κ β : Type} [DecidableEq κ] (table : Table κ β) (key : κ)
    (first second : β → β) :
    (table.modify key first).modify key second = table.modify key fun value =>
      second (first value) := by
  unfold modify
  cases found : table.get? key with
  | none =>
    dsimp only
    rw [found]
  | some value =>
    dsimp only
    rw [get?_insert, if_pos rfl]
    unfold insert erase
    simp

namespace System

open Workshop (Distinct Evolves Kept Stowed Unasked nothing)

variable {system middle next : System} {id : ResourceId} {identity : MapIdentity}

/-! ### Asking again -/

/-- A resource without a map is told so to no effect. -/
theorem setMap_none {resource : Resource} (there : system.resources.get? id = some resource)
    (empty : resource.map = none) : system.setMap id none = system := by
  unfold setMap
  rw [there]
  dsimp only
  rw [empty]
  exact if_pos rfl

theorem unasked_cancelCompilation (system : System) (id : ResourceId) :
    Unasked system.workshop (system.cancelCompilation id).workshop := by
  unfold cancelCompilation
  split
  · exact .refl _
  · split
    · exact .refl _
    · exact .cancel _ id _

/-- What a resource is left with that gets no map since only cooked data counts. -/
theorem get?_fallBack {resource known : Resource}
    (there : system.resources.get? id = some known)
    (ran : system.fallBack id resource = .ok next) :
    resource.isDefault = false ∧ next.resources.get? id =
      some { known with
        errors := [(Failure.missingCookedMap resource.name).message], map := none } := by
  obtain ⟨ordinary, rfl⟩ := fallBack_eq_ok.mp ran
  exact ⟨ordinary, get?_clearMap (get?_setErrors there _)⟩

/-- A resource that got no map since only cooked data counts gets none again, to no effect. -/
theorem fallBack_again {resource : Resource} (there : system.resources.get? id = some resource)
    (empty : resource.map = none) (ordinary : resource.isDefault = false)
    (told : resource.errors = [(Failure.missingCookedMap resource.name).message]) :
    ∃ next, system.fallBack id resource = .ok next ∧ next.workshop = system.workshop ∧
      next.renderer = system.renderer ∧ next.resources.get? id = some resource := by
  have left := get?_setErrors there [(Failure.missingCookedMap resource.name).message]
  unfold fallBack
  dsimp only
  rw [if_neg (Bool.eq_false_iff.mp ordinary), setMap_none left empty]
  refine ⟨_, rfl, rfl, rfl, ?_⟩
  rw [left, ← told]

/-- A resource without a map that waits for one compile in flight joins it again to no effect. -/
theorem attach_again {resource : Resource} {job : JobId}
    (there : system.resources.get? id = some resource) (listed : resource.jobs = [job])
    (empty : resource.map = none)
    (flying : system.workshop.manager.inFlight? identity = some job) :
    ∃ next, system.attach id identity = some next ∧ Unasked system.workshop next.workshop ∧
      next.renderer = system.renderer ∧ next.resources.get? id = some resource ∧
      (system.workshop.manager.isCompiling job → next.workshop.manager.isCompiling job) := by
  generalize joins : (system.onManager fun _ => system.workshop.manager.join job id) = joined
  have stays : joined.resources.get? id = some resource := by
    subst joins
    exact there
  have stale : resource.jobs.filter (· ≠ job) = [] := by
    rw [listed]
    exact List.filter_eq_nil_iff.mpr fun other member apart =>
      of_decide_eq_true apart (List.mem_singleton.mp member)
  have keeps : joined.keepOnlyJob id job =
      joined.onResource id fun resource => { resource with jobs := [job] } := by
    unfold keepOnlyJob
    rw [stays]
    dsimp only
    rw [if_pos stale]
  have unchanged : (joined.onResource id fun resource =>
      { resource with jobs := [job] }).resources.get? id = some resource := by
    rw [get?_onResource, stays, Option.map_some, ← listed]
  unfold attach Manager.attach
  rw [flying]
  dsimp only
  rw [joins, keeps, setMap_none unchanged empty]
  subst joins
  refine ⟨_, rfl, ⟨rfl, rfl, rfl⟩, rfl, unchanged, fun flies => ?_⟩
  show ((system.workshop.manager.jobs.modify job _).get? job).isSome
  rw [Table.get?_modify, if_pos rfl, Option.isSome_map]
  exact flies

/-- As long as the result of a compile has not been handed out, its map is found. -/
theorem lookup_ended {compile : FinishedCompile} {shared : SharedMap}
    (kept : Kept nothing (system.stage [])) (ended : compile ∈ system.workshop.manager.finished)
    (made : compile.map? = some shared) :
    shared.map.isCompiled ∧ system.lookup compile.identity = (some shared, system) := by
  obtain ⟨_, _, identified⟩ := kept.orderly.finished compile ended
  obtain ⟨belongs, compiled⟩ := identified shared made
  have member : shared ∈ (system.stage []).held := List.mem_append_right _
    (List.mem_append_left _ (List.mem_filterMap.mpr ⟨compile, ended, made⟩))
  exact ⟨compiled, belongs ▸ lookup_of_held kept member⟩

/-- A resource that waits asks again: it finds a map that will do, or it waits on as it has. -/
theorem Waits.again {resource after : Resource} (waits : Waits system id resource identity next)
    (kept : Kept nothing (next.stage [])) (steady : Steady system next)
    (there : next.resources.get? id = some after) (same : after.variant = resource.variant)
    (belongs : identity = after.variant.identity next.catalog) (empty : after.map = none) :
    ∃ again second, next.cacheShaders id = .ok (again, second) ∧
      Unasked next.workshop second.workshop ∧
      ((∃ shared, (next.lookup identity).1 = some shared ∧
          shared.map.isComplete (after.variant.permutations next.catalog)) ∨
        again = false ∧ second.resources.get? id = some after ∧
          second.renderer = next.renderer ∧
          ∀ job ∈ after.jobs, next.workshop.manager.isCompiling job →
            second.workshop.manager.isCompiling job) := by
  unfold cacheShaders
  rw [there]
  dsimp only
  rw [← belongs]
  generalize looked : next.lookup identity = pair
  obtain ⟨found, later⟩ := pair
  obtain ⟨registry, store, rfl⟩ := lookup_apart looked
  generalize apart : ({ next with workshop := { next.workshop with registry, store } } : System) =
    later at looked ⊢
  have stays : later.resources.get? id = some after := apart ▸ there
  have settings : later.settings = system.settings := apart ▸ steady.settings
  have looks : Unasked next.workshop later.workshop := apart ▸ ⟨rfl, rfl, rfl⟩
  have flies (job : JobId) : next.workshop.manager.isCompiling job →
      later.workshop.manager.isCompiling job := apart ▸ fun flying => flying
  have renderer : later.renderer = next.renderer := apart ▸ rfl
  cases does : found.filter fun shared =>
      shared.map.isComplete (after.variant.permutations next.catalog) with
  | some shared =>
    obtain ⟨rfl, complete⟩ := Option.filter_eq_some_iff.mp does
    have moves : Moves [shared] (later.cancelCompilation id)
        ((later.cancelCompilation id).succeed id shared) :=
      .succeed id (List.mem_singleton_self shared)
    refine ⟨true, _, rfl, ?_, .inl ⟨shared, rfl, complete⟩⟩
    rw [moves.workshop]
    exact looks.trans (unasked_cancelCompilation later id)
  | none =>
    dsimp only
    have isDefault : after.isDefault = resource.isDefault :=
      congrArg (fun variant => variant.description.isDefault) same
    cases waits with
    | cooked cooked fell =>
      obtain ⟨known, before, _⟩ := steady.former there
      obtain ⟨ordinary, left⟩ := get?_fallBack before fell
      have told : after.errors = [(Failure.missingCookedMap after.name).message] := by
        unfold Resource.name
        rw [same, Option.some.inj (there.symm.trans left)]
        rfl
      obtain ⟨second, fell, workshop, unheard, again⟩ :=
        fallBack_again stays empty (isDefault.trans ordinary) told
      rw [settings, if_pos cooked, fell]
      refine ⟨false, second, rfl, workshop ▸ looks, .inr ⟨rfl, again, unheard.trans renderer, ?_⟩⟩
      exact fun job _ flying => workshop ▸ flies job flying
    | flying job compiles patient listed flying =>
      have jobs : after.jobs = [job] := (jobsOf_eq there).symm.trans listed
      have unhurried : ¬(after.isDefault || !system.settings.allowsAsyncCompilation) = true := by
        rw [isDefault]
        exact Bool.eq_false_iff.mp patient
      have found : later.workshop.manager.inFlight? identity = some job := apart ▸ flying
      obtain ⟨second, joins, asks, unheard, again, still⟩ := attach_again stays jobs empty found
      unfold obtain
      rw [settings, if_neg (Bool.eq_false_iff.mp compiles), if_neg unhurried, joins]
      refine ⟨false, second, rfl, looks.trans asks,
        .inr ⟨rfl, again, unheard.trans renderer, fun other member compiling => ?_⟩⟩
      rw [jobs, List.mem_singleton] at member
      subst member
      exact still (flies _ compiling)
    | landed compile none listed ended ofIdentity made =>
      obtain ⟨shared, made⟩ := Option.isSome_iff_exists.mp made
      obtain ⟨compiled, seen⟩ := lookup_ended kept ended made
      rw [ofIdentity, looked] at seen
      obtain rfl := congrArg Prod.fst seen
      refine absurd ?_ (Option.filter_eq_none_iff.mp does shared rfl)
      rw [same, steady.catalog, none]
      unfold ShaderMap.isComplete
      rw [compiled]
      rfl

/-! ### What comes of a call -/

/-- What the registry and the resources know, and what is held, as the workshop sees it. -/
theorem sound_of_distinct {hand : List SharedMap} (distinct : Distinct (system.stage hand))
    (stowed : system.workshop.Stowed) :
    Workshop.Sound nothing (system.stage hand).1 system.heldMaps system.workshop := by
  have kept := distinct.kept
  have known {shared : SharedMap} (member : shared ∈ system.workshop.registry.known
      ((system.stage hand).1 ++ system.workshop.manager.maps)) :
      ∃ identity, (identity, shared) ∈ system.workshop.registry.entries.entries := by
    rcases List.mem_append.mp member with held | entered
    · exact ⟨_, Table.mem_entries_of_get? (kept.entered shared held)⟩
    · obtain ⟨⟨identity, other⟩, there, rfl⟩ := List.mem_map.mp entered
      exact ⟨identity, there⟩
  refine ⟨kept.orderly, ⟨fun entry member => ?_, fun shared member => ?_,
    fun left first right second same => ?_, fun id member => ?_⟩, fun _ => stowed⟩
  · obtain ⟨is, meets, _⟩ := kept.keyed entry member
    exact ⟨is, meets.1⟩
  · obtain ⟨identity, there⟩ := known member
    exact (kept.keyed _ there).2.2
  · obtain ⟨_, one⟩ := known first
    obtain ⟨_, two⟩ := known second
    exact distinct.apart _ one _ two same
  · rw [heldMaps_eq] at member
    obtain ⟨shared, there, rfl⟩ := List.mem_map.mp member
    have entered := kept.entered shared (List.mem_append_left _ (List.mem_append_right _ there))
    exact (kept.keyed_of_get? entered).2.2

/-- A resource that was given a map has that very map, and it waits for nothing. -/
structure Given (id : ResourceId) (identity : MapIdentity) (shared : SharedMap)
    (middle next : System) : Prop where
  given : next = middle.succeed id shared
  idle : middle.jobsOf id = []
  belongs : shared.map.identity = identity
  distinct : Distinct (middle.stage [shared])

theorem compile_gives {resource : Resource} {synchronous : Bool}
    (distinct : Distinct (system.stage [])) (stowed : system.workshop.Stowed)
    (ran : system.compile id resource identity synchronous = .ok (true, next)) :
    ∃ middle shared, Given id identity shared middle next := by
  have cancels : Evolves nothing (system.stage []) _ ((system.cancelCompilation id).stage []) :=
    evolves_cancelCompilation [] system id
  have cancelled := Distinct.lasting.evolves distinct cancels
  have idle : (system.cancelCompilation id).jobsOf id = [] := by
    rw [jobsOf_cancelCompilation, if_pos rfl]
  have written := stowed_cancelCompilation stowed id
  obtain ⟨answer, workshop, served, heeds⟩ := compile_heeds ran
  generalize system.cancelCompilation id = start at served heeds cancelled idle written
  cases heeds with
  | @given shared =>
    refine ⟨_, shared, rfl, idle, ?_, ?_⟩
    · have answers := (sound_of_distinct cancelled written).answers written (fun _ => False.elim)
        (Workshop.yields_any _ _ _ _) served
      exact (answers.favoured shared rfl).2.1
    · have proceeds : Workshop.Proceeds nothing (fun _ => True) (start.stage []) _
          (({ start with workshop } : System).stage [shared]) :=
        .ofRequest cancelled.kept (fun _ => False.elim) start.holds trivial served
      exact Distinct.lasting.proceeds cancelled proceeds

/-- To look for a map disturbs nothing, and a map that is found may be spoken of. -/
theorem lookup_distinct {found : Option SharedMap} (distinct : Distinct (system.stage []))
    (ran : system.lookup identity = (found, next)) : Distinct (next.stage found.toList) := by
  have looks : Evolves nothing (system.stage []) [] (next.stage found.toList) :=
    evolves_lookup (fun map ⟨_, _, _, _, read, _⟩ =>
      ⟨ShaderMap.isCompiled_of_archive read, fun _ => False.elim⟩) ran
  exact Distinct.lasting.evolves distinct looks

theorem lookup_belongs {shared : SharedMap} (distinct : Distinct (system.stage []))
    (ran : system.lookup identity = (some shared, next)) : shared.map.identity = identity := by
  cases missing : system.incumbent identity with
  | some live =>
    cases (lookup_live missing).symm.trans ran
    exact (distinct.kept.keyed_of_get? (incumbent_eq_some.mp missing).1).1
  | none =>
    have stored := ((lookup_missed missing).mp (congrArg Prod.fst ran)).2
    obtain ⟨_, _, _, _, same⟩ := stored
    exact same

theorem cacheShaders_gives {resource : Resource} (distinct : Distinct (system.stage []))
    (stowed : system.workshop.Stowed) (there : system.resources.get? id = some resource)
    (ran : system.cacheShaders id = .ok (true, next)) :
    ∃ middle shared, Given id (resource.variant.identity system.catalog) shared middle next := by
  rcases cacheShaders_cases ran with
    ⟨_, unready, _⟩ | ⟨other, found, later, does, present, looked, chosen, settles⟩
  · cases unready
  · cases there.symm.trans present
    have looks := lookup_distinct distinct looked
    have storedLater : later.workshop.Stowed := by
      obtain ⟨registry, store, rfl⟩ := lookup_apart looked
      exact stowed
    cases settles with
    | @given shared =>
      obtain ⟨rfl, _⟩ := Option.filter_eq_some_iff.mp chosen
      have cancels : Evolves nothing (later.stage [shared]) _
          ((later.cancelCompilation id).stage [shared]) :=
        evolves_cancelCompilation [shared] later id
      refine ⟨_, shared, rfl, ?_, lookup_belongs distinct looked,
        Distinct.lasting.evolves looks cancels⟩
      rw [jobsOf_cancelCompilation, if_pos rfl]
    | obtains _ obtained =>
      have emptied : Distinct (later.stage []) :=
        Distinct.lasting.evolves looks (Moves.evolves (.refl _ later) (List.nil_subset _))
      rcases obtain_cases obtained with ⟨_, unready, _⟩ | ⟨_, compiled⟩
      · cases unready
      · exact compile_gives emptied storedLater compiled

/-- The map that a resource was given is its map. -/
theorem Given.map_eq {shared : SharedMap} {after : Resource}
    (given : Given id identity shared middle next) (there : next.resources.get? id = some after) :
    after.map = some shared := by
  rw [given.given] at there
  unfold succeed setMap at there
  cases found : middle.resources.get? id with
  | none =>
    have missing : (middle.setErrors id []).resources.get? id = none :=
      (get?_onResource middle id _).trans (congrArg (Option.map _) found)
    rw [missing] at there
    cases missing.symm.trans there
  | some resource =>
    have cleared := get?_setErrors found []
    rw [cleared] at there
    dsimp only at there
    split at there
    · rename_i same
      cases cleared.symm.trans there
      obtain ⟨other, has, is⟩ := Option.map_eq_some_iff.mp same
      have member : other ∈ middle.strong := List.mem_append_left _
        (mem_resourceMaps.mpr ⟨(id, resource), Table.mem_entries_of_get? found, has⟩)
      have equal : other = shared := given.distinct.alike
        (List.mem_append_left _ (List.mem_append_right _ member))
        (List.mem_append_left _ List.mem_cons_self) is
      exact equal ▸ has
    · rw [resources_publish, get?_onResource, cleared] at there
      cases there
      rfl

/-- Being given a map is one change of a resource, after which it has no errors. -/
theorem resources_succeed (system : System) (id : ResourceId) (shared : SharedMap) :
    ∃ change : Resource → Resource, (∀ resource, { change resource with errors := [] } =
        change resource) ∧
      (system.succeed id shared).resources = system.resources.modify id change := by
  unfold succeed setMap
  split
  · exact ⟨fun resource => { resource with errors := [] }, fun _ => rfl, rfl⟩
  · dsimp only
    split
    · exact ⟨fun resource => { resource with errors := [] }, fun _ => rfl, rfl⟩
    · rw [resources_publish]
      exact ⟨fun resource => { resource with errors := [], map := some shared }, fun _ => rfl,
        Table.modify_modify ..⟩

/-- Once it has been given a map, giving it that map again changes nothing. -/
theorem Given.again {shared : SharedMap} {after : Resource}
    (given : Given id identity shared middle next) (there : next.resources.get? id = some after) :
    next.succeed id shared = next := by
  obtain ⟨change, clean, resources⟩ := resources_succeed middle id shared
  have settled : next.setErrors id [] = next := by
    have same : next.resources.modify id (fun resource => { resource with errors := [] }) =
        next.resources := by
      rw [given.given, resources, Table.modify_modify]
      exact congrArg _ (funext clean)
    show { next with resources := next.resources.modify id _ } = next
    rw [same]
  unfold succeed setMap
  rw [settled, there]
  dsimp only
  rw [given.map_eq there]
  exact if_pos rfl

/-- What a call leaves behind that has no map at once: no map, and a resource that waits just if
no map that would do was found. -/
theorem cacheShaders_waits {resource after : Resource} (distinct : Distinct (system.stage []))
    (stowed : system.workshop.Stowed) (before : system.resources.get? id = some resource)
    (ran : system.cacheShaders id = .ok (false, next))
    (there : next.resources.get? id = some after) :
    after.map = none ∧ (after.jobs ≠ [] →
      let identity := resource.variant.identity system.catalog
      ∃ found later, system.lookup identity = (found, later) ∧
        (∀ shared, found = some shared →
          shared.map.isComplete (resource.variant.permutations system.catalog) = false) ∧
        Waits later id resource identity next) := by
  have offers : after.map = none := by
    obtain ⟨map, missing, exchanged⟩ := Exchanges.cacheShaders (by rw [before]; rfl) ran
    obtain ⟨quiet, _, rfl⟩ := exchanged
    have offers := offered_eq_some there
    rw [offered_setMap, if_pos rfl] at offers
    obtain ⟨_, _, same⟩ := Option.map_eq_some_iff.mp offers
    rw [Option.not_isSome_iff_eq_none.mp (Bool.eq_false_iff.mp missing)] at same
    exact Option.map_eq_none_iff.mp same.symm
  refine ⟨offers, fun waits => ?_⟩
  have listed : next.jobsOf id ≠ [] := jobsOf_eq there ▸ waits
  rcases cacheShaders_cases ran with
    ⟨absent, _⟩ | ⟨other, found, later, does, present, looked, lacking, settles⟩
  · cases before.symm.trans absent
  · cases before.symm.trans present
    refine ⟨found, later, looked, ?_⟩
    have looks := lookup_distinct distinct looked
    have emptied : Distinct (later.stage []) :=
      Distinct.lasting.evolves looks (Moves.evolves (.refl _ later) (List.nil_subset _))
    have same : later.workshop.manager = system.workshop.manager ∧
        later.resources = system.resources := by
      obtain ⟨registry, store, rfl⟩ := lookup_apart looked
      exact ⟨rfl, rfl⟩
    have storedLater : later.workshop.Stowed := (congrArg Manager.unwritten same.1).trans stowed
    have lacks (none : does = none) (shared : SharedMap) (is : found = some shared) :
        shared.map.isComplete (resource.variant.permutations system.catalog) = false :=
      Bool.eq_false_iff.mpr (Option.filter_eq_none_iff.mp (lacking.trans none) shared is)
    cases settles with
    | fallsBack cooked fell => exact ⟨lacks rfl, .cooked cooked fell⟩
    | obtains compiles obtained =>
      exact ⟨lacks rfl, obtain_waits emptied.kept storedLater (same.2 ▸ before) compiles obtained
        listed⟩

/-! ### A call and the same call again -/

/-- The store has a map that would do, and a live one that would not is in its way. -/
def Hides (system : System) (identity : MapIdentity) (required : List Permutation) : Prop :=
  ∃ live map, system.incumbent identity = some live ∧ live.map.isComplete required = false ∧
    system.Stored identity map ∧ map.isComplete required

/-- Looking into the store takes nothing out of it. -/
theorem stored_of_lookup {found : Option SharedMap} {map : ShaderMap}
    (looked : system.lookup identity = (found, middle)) (stored : middle.Stored identity map) :
    system.Stored identity map := by
  unfold lookup findMap at looked
  rcases system.workshop.registry.find_cases (system.workshop.heldMaps system.heldMaps) identity
    with ⟨_, _, _, finds⟩ | ⟨_, _, _, finds⟩
  · rw [finds] at looked
    cases looked
    exact stored
  · rw [finds] at looked
    dsimp only at looked
    rcases findStored_cases _ identity with ⟨other, _, same⟩ | ⟨_, same⟩
    · obtain ⟨_, rfl⟩ := Prod.mk.inj (same.symm.trans looked)
      exact stored_consulted.mp stored
    · obtain ⟨_, rfl⟩ := Prod.mk.inj (same.symm.trans looked)
      exact stored_consulted.mp stored

/-- A map that is found where none was live is new. -/
theorem older_incumbent {shared : SharedMap} (distinct : Distinct (system.stage []))
    {found : Option SharedMap} (looked : system.lookup identity = (found, middle))
    (live : middle.incumbent identity = some shared) : system.incumbent identity = some shared := by
  rcases lookup_cases looked with ⟨_, _, _, rfl⟩ | ⟨_, registry, store, rfl, new⟩
  · exact live
  · obtain ⟨entered, held⟩ := incumbent_eq_some.mp live
    have older := older_of_kept distinct.kept held
    rw [new shared entered] at older
    exact absurd older (Nat.lt_irrefl _)

/-- While the compile of a resource is in flight that was left waiting, no map turns up that would
do, but one out of the store that was hidden before. -/
theorem Waits.hides {resource : Resource} {required : List Permutation} {shared : SharedMap}
    {job : JobId} {first : Option SharedMap} (looked : system.lookup identity = (first, middle))
    (waits : Waits middle id resource identity next)
    (distinct : Distinct (system.stage [])) (kept : Kept nothing (next.stage []))
    (lacking : ∀ shared, first = some shared → shared.map.isComplete required = false)
    (listed : job ∈ next.jobsOf id) (flies : next.workshop.manager.isCompiling job)
    (found : (next.lookup identity).1 = some shared) (complete : shared.map.isComplete required) :
    system.Hides identity required := by
  have wanes : middle.Wanes next := by
    cases waits with
    | cooked _ fell => exact .of_moves (.fallBack fell)
    | flying _ _ _ _ _ wanes => exact wanes
    | landed compile _ sole ended =>
      rw [sole, List.mem_singleton] at listed
      obtain ⟨entry, present⟩ := Option.isSome_iff_exists.mp flies
      have gone := (kept.orderly.finished compile ended).2.1
      rw [← listed] at gone
      cases gone.symm.trans present
  have incomplete {live : SharedMap} (alive : system.incumbent identity = some live) :
      live.map.isComplete required = false := by
    rw [lookup_live alive] at looked
    cases looked
    exact lacking live rfl
  cases alive : next.incumbent identity with
  | some live =>
    rw [lookup_live alive] at found
    cases found
    have before := incomplete (older_incumbent distinct looked (wanes.incumbent alive))
    rw [complete] at before
    cases before
  | none =>
    have stored := stored_of_lookup looked (wanes.stored.mp ((lookup_missed alive).mp found).2)
    cases before : system.incumbent identity with
    | some live => exact ⟨live, shared.map, before, incomplete before, stored, complete⟩
    | none =>
      have seen := lacking ⟨system.workshop.registry.next, shared.map⟩
        ((congrArg Prod.fst looked).symm.trans ((lookup_missed before).mpr ⟨rfl, stored⟩))
      rw [show shared.map.isComplete required = false from seen] at complete
      cases complete

/-- A resource that has been given a complete map is given it again, and nothing has changed. -/
theorem Given.cacheShaders_again {shared : SharedMap} {after : Resource}
    (given : Given id identity shared middle next) (kept : Kept nothing (next.stage []))
    (there : next.resources.get? id = some after)
    (belongs : after.variant.identity next.catalog = identity)
    (complete : shared.map.isComplete (after.variant.permutations next.catalog)) :
    next.cacheShaders id = .ok (true, next) := by
  have has := given.map_eq there
  have member : shared ∈ (next.stage []).held :=
    List.mem_append_left _ (List.mem_append_right _ (List.mem_append_left _
      (mem_resourceMaps.mpr ⟨(id, after), Table.mem_entries_of_get? there, has⟩)))
  have seen := lookup_of_held kept member
  rw [given.belongs] at seen
  have idle : after.jobs = [] := by
    rw [← jobsOf_eq there, given.given, (Aloof.succeed middle id shared).jobs]
    exact given.idle
  unfold cacheShaders
  rw [there]
  dsimp only
  rw [belongs, seen]
  dsimp only
  rw [Option.filter_some, if_pos complete]
  dsimp only
  rw [(cancelCompilation_idle there idle).1, given.again there]

/-- A call that has left a resource with a complete map may be repeated, and nothing changes. One
that has left it waiting may be repeated without a compile being begun or anything handed to the
compiler, and while the compile is in flight it waits for the same as before, unless a map in the
store was hidden from the first call by one that would not do. -/
theorem Used.caching_repeats {ready : Bool} {after : Resource} (used : Used [] system)
    (ran : system.cacheShaders id = .ok (ready, next))
    (there : next.resources.get? id = some after) :
    let identity := after.variant.identity next.catalog
    let required := after.variant.permutations next.catalog
    (∀ shared, after.map = some shared → shared.map.isComplete required →
      ready = true ∧ next.cacheShaders id = .ok (true, next)) ∧
    (after.jobs ≠ [] → ∃ again second, next.cacheShaders id = .ok (again, second) ∧
      Unasked next.workshop second.workshop ∧
      (¬system.Hides identity required →
        ∀ job ∈ after.jobs, next.workshop.manager.isCompiling job →
          again = false ∧ second.resources.get? id = some after ∧
            second.renderer = next.renderer ∧ second.workshop.manager.isCompiling job)) := by
  intro identity required
  have distinct := used.distinct
  have kept : Kept nothing (next.stage []) :=
    (used.act (.cacheShaders (fun _ _ _ _ => trivial) ran)).kept
  have steady := Steady.cacheShaders ran
  obtain ⟨before, known, same⟩ := steady.former there
  have sameIdentity : before.variant.identity system.catalog = identity := by
    rw [same, ← steady.catalog]
  have sameRequired : before.variant.permutations system.catalog = required := by
    rw [same, ← steady.catalog]
  cases ready with
  | true =>
    obtain ⟨middle, shared, given⟩ := cacheShaders_gives distinct used.stowed known ran
    refine ⟨fun other has complete => ⟨rfl, ?_⟩, fun waits => absurd ?_ waits⟩
    · cases has.symm.trans (given.map_eq there)
      exact given.cacheShaders_again kept there sameIdentity.symm complete
    · rw [← jobsOf_eq there, given.given, (Aloof.succeed middle id shared).jobs]
      exact given.idle
  | false =>
    obtain ⟨empty, waiting⟩ := cacheShaders_waits distinct used.stowed known ran there
    refine ⟨fun shared has _ => ?_, fun waits => ?_⟩
    · cases empty.symm.trans has
    · obtain ⟨found, later, looked, lacking, waiting⟩ := waiting waits
      have looks : Steady system later :=
        (show (system.lookup _).2 = later from congrArg Prod.snd looked) ▸ Steady.lookup system _
      have remains : Steady later next :=
        ⟨steady.settings.trans looks.settings.symm, steady.catalog.trans looks.catalog.symm,
          steady.nextResource.trans looks.nextResource.symm,
          steady.variantOf.trans looks.variantOf.symm⟩
      rw [sameIdentity] at looked waiting
      rw [sameRequired] at lacking
      obtain ⟨again, second, repeated, unasked, turn⟩ :=
        waiting.again kept remains there same.symm rfl empty
      refine ⟨again, second, repeated, unasked, fun visible job member flies => ?_⟩
      rcases turn with ⟨shared, turned, complete⟩ | ⟨waits, unchanged, quiet, goes⟩
      · exact absurd (waiting.hides looked distinct kept lacking (jobsOf_eq there ▸ member) flies
          turned complete) visible
      · exact ⟨waits, unchanged, quiet, goes job member flies⟩

/-- A system that leaves its jobs to the compiler for now, with one resource. -/
def patient : System :=
  (addResource {
    catalog := pixelCatalog
    workshop := { compiler := { compile := fun _ => .ok ⟨[], 0⟩, keeps := fun _ => true } } }
    { description := default }).2

theorem patient_used : Used [] patient :=
  .act (.start {} pixelCatalog { compile := fun _ => .ok ⟨[], 0⟩, keeps := fun _ => true } {} false)
    (.addResource _)

/-- One resource that has got its map and one that waits, both asking again. -/
theorem painted_repeats :
    (∃ system next after shared, Used [] system ∧ system.cacheShaders .first = .ok (true, next) ∧
      next.resources.get? .first = some after ∧ after.map = some shared ∧
      shared.map.isComplete (after.variant.permutations next.catalog) ∧
      next.cacheShaders .first = .ok (true, next)) ∧
    ∃ system next after second, Used [] system ∧ system.cacheShaders .first = .ok (false, next) ∧
      next.resources.get? .first = some after ∧ after.jobs = [.first] ∧
      next.cacheShaders .first = .ok (false, second) ∧ next.workshop.Unasked second.workshop ∧
      second.resources.get? .first = some after := by
  constructor
  · have ran : (painted.cacheShaders .first).toOption.bind (fun once =>
        (once.2.resources.get? .first).bind fun after => after.map.map fun shared =>
          (once.1, shared.map.isComplete (after.variant.permutations once.2.catalog))) =
        some (true, true) := by
      cbv
    obtain ⟨⟨_, next⟩, once, ran⟩ := Option.bind_eq_some_iff.mp ran
    obtain ⟨after, there, ran⟩ := Option.bind_eq_some_iff.mp ran
    obtain ⟨shared, has, ran⟩ := Option.map_eq_some_iff.mp ran
    simp only [Prod.mk.injEq] at ran
    obtain ⟨rfl, complete⟩ := ran
    have used : Used [] painted := .act (.start { allowsAsyncCompilation := false } pixelCatalog
      { compile := fun _ => .ok ⟨[], 0⟩ } {} false) (.addResource _)
    have cached := toOption_eq_some.mp once
    exact ⟨painted, next, after, shared, used, cached, there, has, complete,
      ((used.caching_repeats cached there).1 shared has complete).2⟩
  · have ran : (patient.cacheShaders .first).toOption.bind (fun once =>
        (once.2.resources.get? .first).map fun after =>
          (once.1, after.jobs, once.2.workshop.manager.isCompiling .first)) =
        some (false, [.first], true) := by
      cbv
    obtain ⟨⟨_, next⟩, once, ran⟩ := Option.bind_eq_some_iff.mp ran
    obtain ⟨after, there, ran⟩ := Option.map_eq_some_iff.mp ran
    simp only [Prod.mk.injEq] at ran
    obtain ⟨rfl, listed, flies⟩ := ran
    have cached := toOption_eq_some.mp once
    have member : Identifier.first ∈ after.jobs := listed ▸ List.mem_singleton_self _
    obtain ⟨again, second, repeated, unasked, stays⟩ :=
      (patient_used.caching_repeats cached there).2 (List.ne_nil_of_mem member)
    have hides : ¬patient.Hides (after.variant.identity next.catalog)
        (after.variant.permutations next.catalog) := by
      rintro ⟨_, _, _, _, ⟨uses, _⟩, _⟩
      exact Bool.false_ne_true uses
    obtain ⟨rfl, same, _⟩ := stays hides _ member flies
    exact ⟨patient, next, after, second, patient_used, cached, there, listed, repeated, unasked,
      same⟩

/-- Where no map of its identity is live, a resource gets the one from the store if that will do. -/
theorem cacheShaders_stored {resource : Resource} {map : ShaderMap}
    (there : system.resources.get? id = some resource)
    (missing : system.incumbent (resource.variant.identity system.catalog) = none)
    (stored : system.Stored (resource.variant.identity system.catalog) map)
    (complete : map.isComplete (resource.variant.permutations system.catalog)) :
    ∃ next, system.cacheShaders id = .ok (true, next) ∧ next.jobsOf id = [] ∧
      next.workshop.manager = (system.cancelCompilation id).workshop.manager := by
  have found := (lookup_missed missing).mpr
    (show _ ∧ system.Stored _ (SharedMap.mk system.workshop.registry.next map).map from
      ⟨rfl, stored⟩)
  unfold cacheShaders
  rw [there]
  dsimp only
  generalize looked : system.lookup _ = pair at found ⊢
  obtain ⟨_, later⟩ := pair
  cases found
  dsimp only
  rw [Option.filter_some, if_pos complete]
  refine ⟨_, rfl, ?_, ?_⟩
  · rw [(Aloof.succeed _ id _).jobs, jobsOf_cancelCompilation, if_pos rfl]
  · rw [(Moves.succeed id (List.mem_singleton_self _)).workshop]
    rcases lookup_cases looked with ⟨_, live, _⟩ | ⟨_, registry, store, rfl, _⟩
    · cases missing.symm.trans live
    · rw [cancelCompilation_exchanged]

/-- The map that the shader is compiled into. -/
def paintedMap : ShaderMap :=
  { bareMap with content := some (.ofCodes [(⟨"Pixel", none⟩, [])] {}) }

def paintedArchive : List UInt8 :=
  Utf8.encode (paintedMap.encode (.ofCodes [(⟨"Pixel", none⟩, [])] {})).render

theorem read_paintedArchive : ShaderMap.ofArchive paintedArchive = .ok paintedMap :=
  have nested : (paintedMap.encode (.ofCodes [(⟨"Pixel", none⟩, [])] {})).nesting ≤ 127 := by
    decide +kernel
  (ShaderMap.ofArchive_encode rfl nested fun _ none => nomatch none).trans
    (if_pos fun _ none => nomatch none)

/-- The same with two resources, and with a blob in the store. -/
def stocked (key : String) (blob : List UInt8) : System :=
  ((addResource {
    catalog := pixelCatalog
    workshop := {
      compiler := { compile := fun _ => .ok ⟨[], 0⟩, keeps := fun _ => true }
      store := { blobs := ⟨[(key, blob)]⟩ }
      usesStore := true } }
    { description := default }).2.addResource { description := default }).2

theorem stocked_used (key : String) (blob : List UInt8) : Used [] (stocked key blob) :=
  .act (.act (.start {} pixelCatalog { compile := fun _ => .ok ⟨[], 0⟩, keeps := fun _ => true }
    { blobs := ⟨[(key, blob)]⟩ } true) (.addResource _)) (.addResource _)

/-- An incomplete map comes from an archive and is in the way; then one resource begins a compile
and the other one, whose map that was, joins it. -/
theorem stocked_waits (key : String) (blob : List UInt8) :
    ∃ system next waiting, Used [] system ∧ system.cacheShaders .first = .ok (false, next) ∧
      next.resources.get? .first = some waiting ∧ waiting.jobs = [.first] ∧
      next.workshop.manager.isCompiling .first ∧
      (next.cancelCompilation .first).workshop.manager.isCompiling .first ∧
      waiting.variant.identity next.catalog = bareMap.identity ∧
      waiting.variant.permutations next.catalog = [⟨"Pixel", none⟩] ∧
      next.incumbent bareMap.identity = none ∧
      next.workshop.usesStore ∧ next.workshop.store.blobs = ⟨[(key, blob)]⟩ := by
  have ran : ((stocked key blob).loadInline .first bareArchive).toOption.bind (fun loaded =>
      (loaded.2.cacheShaders Identifier.first.next).toOption.bind fun begun =>
        (begun.2.cacheShaders .first).toOption.bind fun once =>
          (once.2.resources.get? .first).map fun waiting =>
            (once.1, waiting.jobs, once.2.workshop.manager.isCompiling .first,
              (once.2.cancelCompilation .first).workshop.manager.isCompiling .first,
              decide (waiting.variant.identity once.2.catalog = bareMap.identity),
              waiting.variant.permutations once.2.catalog,
              (once.2.incumbent bareMap.identity).isNone, once.2.workshop.usesStore,
              once.2.workshop.store.blobs.entries)) =
      some (false, [.first], true, true, true, [⟨"Pixel", none⟩], true, true, [(key, blob)]) := by
    unfold loadInline
    rw [read_bareArchive]
    cbv
  obtain ⟨⟨loaded, first⟩, took, ran⟩ := Option.bind_eq_some_iff.mp ran
  obtain ⟨⟨begun, system⟩, begins, ran⟩ := Option.bind_eq_some_iff.mp ran
  obtain ⟨⟨ready, next⟩, once, ran⟩ := Option.bind_eq_some_iff.mp ran
  obtain ⟨waiting, there, ran⟩ := Option.map_eq_some_iff.mp ran
  simp only [Prod.mk.injEq, decide_eq_true_eq, Option.isNone_iff_eq_none] at ran
  obtain ⟨rfl, listed, flies, goesOn, same, required, gone, uses, stored⟩ := ran
  exact ⟨system, next, waiting,
    .act (.act (stocked_used key blob)
        (.loadInline (fun _ _ _ => trivial) (toOption_eq_some.mp took)))
      (.cacheShaders (fun _ _ _ _ => trivial) (toOption_eq_some.mp begins)),
    toOption_eq_some.mp once, there, listed, flies, goesOn, same, required, gone, uses,
    congrArg Table.mk stored⟩

/-- The next call finds the map in the store, and the resource stops waiting though the compile
goes on. -/
theorem stocked_stops_waiting : ∃ system next waiting second, Used [] system ∧
    system.cacheShaders .first = .ok (false, next) ∧
    next.resources.get? .first = some waiting ∧ waiting.jobs = [.first] ∧
    next.workshop.manager.isCompiling .first ∧ next.cacheShaders .first = .ok (true, second) ∧
    second.jobsOf .first = [] ∧ second.workshop.manager.isCompiling .first := by
  obtain ⟨system, next, waiting, used, ran, there, listed, flies, goesOn, same, required, gone,
    uses, stored⟩ := stocked_waits bareMap.identity.storeKey paintedArchive
  have keeps : next.Stored bareMap.identity paintedMap := by
    refine ⟨uses, paintedArchive, ?_, read_paintedArchive, rfl⟩
    rw [stored]
    exact (Table.get?_insert .empty ..).trans (if_pos rfl)
  obtain ⟨second, repeated, idle, manager⟩ := cacheShaders_stored there (same.symm ▸ gone)
    (same.symm ▸ keeps) (by rw [required]; decide)
  exact ⟨system, next, waiting, second, used, ran, there, listed, flies, repeated, idle,
    manager ▸ goesOn⟩

/-- A resource for that material in a system whose compiler compiles it only once. -/
def fickle : System :=
  (addResource {
    settings := { allowsAsyncCompilation := false }
    catalog := pixelCatalog
    workshop := { compiler := { compile := fun job =>
      if job.group = .first then .ok ⟨[], 0⟩ else .error ⟨job.name, "no more"⟩ } } }
    { description := default }).2

/-- The incomplete map is what the first compile ends with, and the second one fails. -/
theorem fickle_fails : ∃ system next second, Used [] system ∧
    system.cacheShaders .first = .ok (true, next) ∧
    next.cacheShaders .first = .ok (false, second) := by
  have ran : (fickle.loadInline .first bareArchive).toOption.bind (fun loaded =>
      (loaded.2.cacheShaders .first).toOption.bind fun once =>
        (once.2.cacheShaders .first).toOption.map fun twice => (once.1, twice.1)) =
      some (true, false) := by
    unfold loadInline
    rw [read_bareArchive]
    cbv
  obtain ⟨⟨loaded, system⟩, took, ran⟩ := Option.bind_eq_some_iff.mp ran
  obtain ⟨⟨_, next⟩, once, ran⟩ := Option.bind_eq_some_iff.mp ran
  obtain ⟨⟨_, second⟩, twice, ran⟩ := Option.map_eq_some_iff.mp ran
  obtain ⟨rfl, rfl⟩ := Prod.mk.inj ran
  have used : Used [] fickle := .act (.start { allowsAsyncCompilation := false } pixelCatalog
    { compile := fun job =>
      if job.group = .first then .ok ⟨[], 0⟩ else .error ⟨job.name, "no more"⟩ } {} false)
    (.addResource _)
  exact ⟨system, next, second,
    used.act (.loadInline (fun _ _ _ => trivial) (toOption_eq_some.mp took)),
    toOption_eq_some.mp once, toOption_eq_some.mp twice⟩

/-- A resource may stop waiting when its call is repeated, or not be ready any more. -/
theorem repeated_call_differs :
    (∃ system next waiting second, Used [] system ∧
      system.cacheShaders .first = .ok (false, next) ∧
      next.resources.get? .first = some waiting ∧ waiting.jobs = [.first] ∧
      next.workshop.manager.isCompiling .first ∧ next.cacheShaders .first = .ok (true, second) ∧
      second.jobsOf .first = [] ∧ second.workshop.manager.isCompiling .first) ∧
    ∃ system next second, Used [] system ∧
      system.cacheShaders .first = .ok (true, next) ∧
      next.cacheShaders .first = .ok (false, second) :=
  ⟨stocked_stops_waiting, fickle_fails⟩

end System

end Shading
