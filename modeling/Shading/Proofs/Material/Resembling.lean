/-
Systems with other numbers for their maps. Two systems that differ in nothing but the
numbers of the maps that resources, compiles and queued commands have, and in what
their stores held at first, go on alike: a call fails in both in the same way, or
tells the same and leaves them alike again.
-/

import Shading.Proofs.Compile.Likening
import Shading.Proofs.Material.Proceeding

namespace Shading

/-- Both fail in the same way, or what they return goes together. -/
inductive Concurs {α β : Type} (related : α → β → Prop) : Except Fault α → Except Fault β → Prop
  | error (fault : Fault) : Concurs related (.error fault) (.error fault)
  | ok {value : α} {other : β} : related value other → Concurs related (.ok value) (.ok other)

namespace Concurs

variable {α β γ δ : Type} {related : α → β → Prop} {goes : γ → δ → Prop}
  {first : Except Fault α} {second : Except Fault β}

theorem map (concurs : Concurs related first second) {change : α → γ} {otherChange : β → δ}
    (keeps : ∀ value other, related value other → goes (change value) (otherChange other)) :
    Concurs goes (first.map change) (second.map otherChange) := by
  cases concurs with
  | error fault => exact .error fault
  | ok both => exact .ok (keeps _ _ both)

theorem bind (concurs : Concurs related first second) {next : α → Except Fault γ}
    {otherNext : β → Except Fault δ}
    (keeps : ∀ value other, related value other → Concurs goes (next value) (otherNext other)) :
    Concurs goes (first >>= next) (second >>= otherNext) := by
  cases concurs with
  | error fault => exact .error fault
  | ok both => exact keeps _ _ both

theorem foldlM {ι : Type} {step : α → ι → Except Fault α} {otherStep : β → ι → Except Fault β}
    (keeps : ∀ item value other, related value other →
      Concurs related (step value item) (otherStep other item)) (items : List ι) {value : α}
    {other : β} (both : related value other) :
    Concurs related (items.foldlM step value) (items.foldlM otherStep other) := by
  induction items generalizing value other with
  | nil => exact .ok both
  | cons item rest inductionHypothesis =>
    rw [List.foldlM_cons, List.foldlM_cons]
    exact (keeps item value other both).bind fun _ _ => inductionHypothesis

end Concurs

/-! ### Systems -/

def Resource.renumber (rename : MapId → MapId) (resource : Resource) : Resource :=
  { resource with map := resource.map.map (SharedMap.renumber rename) }

theorem Resource.renumber_eq {rename : MapId → MapId} {resource : Resource}
    (fixed : ∀ shared, resource.map = some shared → rename shared.id = shared.id) :
    resource.renumber rename = resource := by
  unfold renumber
  cases has : resource.map with
  | none => rw [Option.map_none, ← has]
  | some shared => rw [Option.map_some, SharedMap.renumber_eq (fixed shared has), ← has]

def RenderCommand.renumber (rename : MapId → MapId) : RenderCommand → RenderCommand
  | .setMap resource map => .setMap resource (map.map (SharedMap.renumber rename))
  | command => command

theorem RenderCommand.map?_renumber (rename : MapId → MapId) (command : RenderCommand) :
    (command.renumber rename).map? = command.map?.map (SharedMap.renumber rename) := by
  cases command <;> rfl

namespace System

/-- The maps of one system have other numbers in the other one, but for those that the renderer has
taken in. -/
structure Renumbered (gap : Option MapId) (stores : MemoryStore × MemoryStore)
    (system other : System) : Prop where
  workshop : system.workshop.Renumbered gap stores other.workshop
  resources : other.resources =
    system.resources.mapValues (Resource.renumber (MapId.skip gap))
  renderer : other.renderer = { system.renderer with
    queue := system.renderer.queue.map (RenderCommand.renumber (MapId.skip gap)) }
  older : ∀ id ∈ system.renderer.world.heldMaps, MapId.skip gap id = id
  rest : (other.settings, other.catalog, other.nextResource, other.nextProxy, other.nextProducer) =
    (system.settings, system.catalog, system.nextResource, system.nextProxy, system.nextProducer)

variable {gap : Option MapId} {stores : MemoryStore × MemoryStore} {system other : System}

namespace Renumbered

theorem get? (renumbered : Renumbered gap stores system other) (id : ResourceId) :
    other.resources.get? id =
      (system.resources.get? id).map (Resource.renumber (MapId.skip gap)) := by
  rw [renumbered.resources, Table.get?_mapValues]

theorem settings (renumbered : Renumbered gap stores system other) :
    other.settings = system.settings := congrArg Prod.fst renumbered.rest

theorem catalog (renumbered : Renumbered gap stores system other) :
    other.catalog = system.catalog := congrArg (fun rest => rest.2.1) renumbered.rest

theorem heldMaps (renumbered : Renumbered gap stores system other) :
    other.heldMaps = system.heldMaps.map (MapId.skip gap) := by
  have taken : system.renderer.world.heldMaps.map (MapId.skip gap) =
      system.renderer.world.heldMaps :=
    (List.map_congr_left renumbered.older).trans (List.map_id _)
  unfold System.heldMaps Renderer.heldMaps
  rw [renumbered.resources, renumbered.renderer, Table.values_mapValues]
  dsimp only
  rw [List.filterMap_map, List.filterMap_map, List.map_append, List.map_append, taken]
  simp only [List.map_filterMap]
  refine congrArg₂ (· ++ ·) (List.filterMap_congr fun resource _ => ?_)
    (congrArg (_ ++ ·) (List.filterMap_congr fun command _ => ?_))
  · show (resource.map.map _).map _ = _
    cases resource.map <;> rfl
  · show (command.renumber _).map?.map _ = _
    rw [RenderCommand.map?_renumber]
    cases command.map? <;> rfl

theorem onManager (renumbered : Renumbered gap stores system other)
    (change : Manager → Manager)
    (commutes : ∀ manager, change (manager.renumber (MapId.skip gap)) =
      (change manager).renumber (MapId.skip gap)) :
    Renumbered gap stores (system.onManager change) (other.onManager change) :=
  { renumbered with workshop := renumbered.workshop.changeManager change commutes }

theorem onWorkshop (renumbered : Renumbered gap stores system other)
    {workshop otherWorkshop : Workshop} (likewise : workshop.Renumbered gap stores otherWorkshop) :
    Renumbered gap stores { system with workshop } { other with workshop := otherWorkshop } :=
  { renumbered with workshop := likewise }

theorem onResource (renumbered : Renumbered gap stores system other) (id : ResourceId)
    {change otherChange : Resource → Resource}
    (commutes : ∀ resource : Resource, otherChange (resource.renumber (MapId.skip gap)) =
      (change resource).renumber (MapId.skip gap)) :
    Renumbered gap stores (system.onResource id change) (other.onResource id otherChange) := by
  refine { renumbered with resources := ?_ }
  unfold System.onResource
  rw [renumbered.resources]
  exact Table.modify_mapValues commutes _ id

theorem publish (renumbered : Renumbered gap stores system other) (id : ResourceId) :
    Renumbered gap stores (system.publish id) (other.publish id) := by
  unfold System.publish
  rw [renumbered.get?]
  cases system.resources.get? id with
  | none => exact renumbered
  | some resource =>
    dsimp only [Option.map_some]
    have sends : other.renderer.publish id (resource.renumber (MapId.skip gap)).map =
        let sent := system.renderer.publish id resource.map
        let queue := sent.queue.map (RenderCommand.renumber (MapId.skip gap))
        { sent with queue } := by
      rw [renumbered.renderer]
      unfold Renderer.publish Renderer.enqueue
      dsimp only
      split
      · rfl
      · rw [List.map_append]
        rfl
    refine { renumbered with renderer := sends, older := fun held member => ?_ }
    refine renumbered.older held ?_
    unfold Renderer.publish Renderer.enqueue at member
    dsimp only at member
    split at member <;> exact member

theorem setMap (renumbered : Renumbered gap stores system other) (id : ResourceId)
    (map : Option SharedMap) : Renumbered gap stores (system.setMap id map)
      (other.setMap id (map.map (SharedMap.renumber (MapId.skip gap)))) := by
  unfold System.setMap
  rw [renumbered.get?]
  cases system.resources.get? id with
  | none => exact renumbered
  | some resource =>
    have ids (map : Option SharedMap) : (map.map (SharedMap.renumber (MapId.skip gap))).map
        SharedMap.id = (map.map SharedMap.id).map (MapId.skip gap) := by
      cases map <;> rfl
    dsimp only [Option.map_some]
    rw [show (resource.renumber (MapId.skip gap)).map =
      resource.map.map (SharedMap.renumber (MapId.skip gap)) from rfl, ids, ids]
    by_cases same : resource.map.map SharedMap.id = map.map SharedMap.id
    · rw [if_pos same, if_pos (congrArg _ same)]
      exact renumbered
    · rw [if_neg same, if_neg fun equal =>
        same (Option.map_injective (MapId.skip_injective gap) equal)]
      refine Renumbered.publish (renumbered.onResource id ?_) id
      exact fun _ => rfl

theorem setErrors (renumbered : Renumbered gap stores system other) (id : ResourceId)
    (errors : List String) :
    Renumbered gap stores (system.setErrors id errors) (other.setErrors id errors) :=
  renumbered.onResource id fun _ => rfl

theorem addJob (renumbered : Renumbered gap stores system other) (id : ResourceId) (job : JobId) :
    Renumbered gap stores (system.addJob id job) (other.addJob id job) :=
  renumbered.onResource id fun _ => rfl

theorem succeed (renumbered : Renumbered gap stores system other) (id : ResourceId)
    (shared : SharedMap) : Renumbered gap stores (system.succeed id shared)
      (other.succeed id (shared.renumber (MapId.skip gap))) :=
  (renumbered.setErrors id []).setMap id (some shared)

theorem fail (renumbered : Renumbered gap stores system other) (id : ResourceId)
    (resource : Resource) (failure : CompileFailure) :
    Concurs (Renumbered gap stores) (system.fail id resource failure)
      (other.fail id (resource.renumber (MapId.skip gap)) failure) := by
  unfold System.fail
  show Concurs _ _ (if resource.isDefault then _ else _)
  split
  · exact .error _
  · exact .ok ((renumbered.setErrors id _).setMap id none)

theorem fallBack (renumbered : Renumbered gap stores system other) (id : ResourceId)
    (resource : Resource) : Concurs (Renumbered gap stores) (system.fallBack id resource)
      (other.fallBack id (resource.renumber (MapId.skip gap))) := by
  unfold System.fallBack
  show Concurs _ _ (if resource.isDefault then _ else _)
  split
  · exact .error _
  · exact .ok ((renumbered.setErrors id _).setMap id none)

theorem cancelCompilation (renumbered : Renumbered gap stores system other) (id : ResourceId) :
    Renumbered gap stores (system.cancelCompilation id) (other.cancelCompilation id) := by
  unfold System.cancelCompilation
  rw [renumbered.get?]
  cases system.resources.get? id with
  | none => exact renumbered
  | some resource =>
    dsimp only [Option.map_some]
    show Renumbered _ _ _ (if resource.jobs = [] then _ else _)
    split
    · exact renumbered
    · exact (renumbered.onManager (fun manager => manager.cancel id resource.jobs) fun manager =>
        manager.cancel_renumber id resource.jobs).onResource id fun _ => rfl

theorem keepOnlyJob (renumbered : Renumbered gap stores system other) (id : ResourceId)
    (job : JobId) :
    Renumbered gap stores (system.keepOnlyJob id job) (other.keepOnlyJob id job) := by
  unfold System.keepOnlyJob
  rw [renumbered.get?]
  cases system.resources.get? id with
  | none => exact renumbered
  | some resource =>
    dsimp only [Option.map_some]
    refine Renumbered.onResource ?_ id fun _ => rfl
    show Renumbered _ _ _ (if resource.jobs.filter (· ≠ job) = [] then _ else _)
    split
    · exact renumbered
    · exact renumbered.onManager (fun manager => manager.cancel id _) fun manager =>
        manager.cancel_renumber id _

theorem attach (renumbered : Renumbered gap stores system other) (id : ResourceId)
    (identity : MapIdentity) :
    Option.Rel (Renumbered gap stores) (system.attach id identity) (other.attach id identity) := by
  unfold System.attach Manager.attach
  rw [show other.workshop.manager.inFlight? = system.workshop.manager.inFlight? by
    rw [renumbered.workshop.manager]; rfl]
  cases system.workshop.manager.inFlight? identity with
  | none => exact .none
  | some job =>
    exact .some (((renumbered.onManager (fun manager => manager.join job id)
      fun _ => rfl).keepOnlyJob id job).setMap id none)

end Renumbered

/-- The same is told, and both are left alike. -/
def Echoes (gap : Option MapId) (stores : MemoryStore × MemoryStore)
    (answer other : Bool × System) : Prop :=
  other.1 = answer.1 ∧ answer.2.Renumbered gap stores other.2

namespace Renumbered

theorem compile (renumbered : Renumbered gap stores system other) (id : ResourceId)
    (resource : Resource) (identity : MapIdentity) (synchronous : Bool) :
    Concurs (Echoes gap stores) (system.compile id resource identity synchronous)
      (other.compile id (resource.renumber (MapId.skip gap)) identity synchronous) := by
  have cancelled := renumbered.cancelCompilation id
  unfold System.compile
  dsimp only
  generalize system.cancelCompilation id = start at cancelled ⊢
  generalize other.cancelCompilation id = otherStart at cancelled ⊢
  have asks : CompileRequest.mk identity (resource.renumber (MapId.skip gap)).variant
      ((resource.renumber (MapId.skip gap)).variant.permutations otherStart.catalog) id
      synchronous = ⟨identity, resource.variant, resource.variant.permutations start.catalog, id,
        synchronous⟩ := by
    rw [cancelled.catalog]
    rfl
  rw [asks, cancelled.heldMaps]
  generalize CompileRequest.mk identity resource.variant _ id synchronous = request
  obtain ⟨answers, served⟩ := cancelled.workshop.request start.heldMaps request
  rw [answers]
  have after := cancelled.onWorkshop served
  generalize start.workshop.request start.heldMaps request = pair at after ⊢
  generalize otherStart.workshop.request _ request = otherPair at after ⊢
  obtain ⟨answer, workshop⟩ := pair
  obtain ⟨_, otherWorkshop⟩ := otherPair
  have failed (failure : CompileFailure) : Concurs (Echoes gap stores)
      (({ start with workshop }.fail id resource failure).map (false, ·))
      (({ otherStart with workshop := otherWorkshop }.fail id
        (resource.renumber (MapId.skip gap)) failure).map (false, ·)) :=
    (after.fail id resource failure).map fun _ _ both => ⟨rfl, both⟩
  have waits (job : JobId) : Concurs (Echoes gap stores)
      (.ok (false, ({ start with workshop }.addJob id job).setMap id none))
      (.ok (false, ({ otherStart with workshop := otherWorkshop }.addJob id job).setMap id none)) :=
    .ok ⟨rfl, (after.addJob id job).setMap id none⟩
  cases answer with
  | error error => exact failed (.lowering error)
  | ok outcome =>
    cases outcome with
    | compiled shared => exact .ok ⟨rfl, after.succeed id shared⟩
    | failed failure => exact failed failure
    | pending job => exact waits job
    | attached job => exact waits job

theorem obtain (renumbered : Renumbered gap stores system other) (id : ResourceId)
    (resource : Resource) (identity : MapIdentity) :
    Concurs (Echoes gap stores) (system.obtain id resource identity)
      (other.obtain id (resource.renumber (MapId.skip gap)) identity) := by
  have joins := renumbered.attach id identity
  unfold System.obtain
  rw [renumbered.settings]
  show Concurs _ _ (if (resource.isDefault || _) = true then _ else _)
  split
  · exact renumbered.compile id resource identity true
  · generalize system.attach id identity = joined at joins ⊢
    generalize other.attach id identity = otherJoined at joins ⊢
    cases joins with
    | none => exact renumbered.compile id resource identity false
    | some both => exact .ok ⟨rfl, both⟩

/-- What is done with a map that has been found, or without one. -/
theorem settle (renumbered : Renumbered gap stores system other) (id : ResourceId)
    (resource : Resource) (identity : MapIdentity) (found : Option SharedMap) :
    Concurs (Echoes gap stores)
      (match found with
      | some shared => .ok (true, (system.cancelCompilation id).succeed id shared)
      | none =>
        if system.settings.requiresCookedData then (system.fallBack id resource).map (false, ·)
        else system.obtain id resource identity)
      (match found.map (SharedMap.renumber (MapId.skip gap)) with
      | some shared => .ok (true, (other.cancelCompilation id).succeed id shared)
      | none =>
        if other.settings.requiresCookedData then
          (other.fallBack id (resource.renumber (MapId.skip gap))).map (false, ·)
        else other.obtain id (resource.renumber (MapId.skip gap)) identity) := by
  cases found with
  | some shared => exact .ok ⟨rfl, (renumbered.cancelCompilation id).succeed id shared⟩
  | none =>
    dsimp only [Option.map_none]
    rw [renumbered.settings]
    split
    · exact (renumbered.fallBack id resource).map fun _ _ both => ⟨rfl, both⟩
    · exact renumbered.obtain id resource identity

/-! ### What comes later -/

theorem conclude (renumbered : Renumbered gap stores system other) (id : ResourceId)
    (resource : Resource) (result : Except CompileFailure SharedMap) :
    Concurs (Renumbered gap stores) (system.conclude id resource result)
      (other.conclude id (resource.renumber (MapId.skip gap))
        (result.map (SharedMap.renumber (MapId.skip gap)))) := by
  cases result with
  | ok shared => exact .ok (renumbered.succeed id shared)
  | error failure => exact renumbered.fail id resource failure

theorem complete (renumbered : Renumbered gap stores system other) (id : ResourceId) (job : JobId)
    (result : Except CompileFailure SharedMap) :
    Concurs (Echoes gap stores) (system.complete id job result)
      (other.complete id job (result.map (SharedMap.renumber (MapId.skip gap)))) := by
  unfold System.complete
  rw [renumbered.get?]
  cases system.resources.get? id with
  | none => exact .ok ⟨rfl, renumbered⟩
  | some resource =>
    dsimp only [Option.map_some]
    show Concurs _ _ (if job ∈ resource.jobs then _ else _)
    split
    · refine Concurs.map (Renumbered.conclude ?_ id resource result) fun _ _ both => ⟨rfl, both⟩
      exact renumbered.onResource id fun _ => rfl
    · exact .ok ⟨rfl, renumbered⟩

theorem takeResult (renumbered : Renumbered gap stores system other) (id : ResourceId)
    (job : JobId) :
    Concurs (Renumbered gap stores) (system.takeResult id job) (other.takeResult id job) := by
  unfold System.takeResult
  rw [renumbered.workshop.manager, Manager.take_renumber]
  generalize system.workshop.manager.take job id = taken
  obtain ⟨result, manager⟩ := taken
  cases result with
  | none => exact .ok renumbered
  | some result =>
    refine Concurs.map (Renumbered.complete ?_ id job result) fun _ _ both => both.2
    exact renumbered.onWorkshop (renumbered.workshop.onManager rfl)

theorem finishCompilation (renumbered : Renumbered gap stores system other) (id : ResourceId) :
    Concurs (Renumbered gap stores) (system.finishCompilation id) (other.finishCompilation id) := by
  unfold System.finishCompilation
  rw [renumbered.get?]
  cases system.resources.get? id with
  | none => exact .ok renumbered
  | some resource =>
    dsimp only [Option.map_some]
    show Concurs _ _ (if resource.jobs = [] then _ else _)
    split
    · exact .ok renumbered
    · rw [renumbered.heldMaps]
      exact Concurs.foldlM (fun job _ _ both => both.takeResult id job) resource.jobs
        (renumbered.onWorkshop (renumbered.workshop.finish system.heldMaps resource.jobs))

end Renumbered

/-- Something that happens to the compiles of a system later on. -/
inductive Sequel where
  /-- Results come from the compiler. -/
  | arrive (results : List PermutationResult)
  /-- The compiler works off all jobs. -/
  | release
  /-- It is waited for the compiles of a resource. -/
  | finish (id : ResourceId)
  /-- What is finished is handed out to some of the resources. -/
  | handOut (owned : ResourceId → Bool)

def Sequel.follow (system : System) : Sequel → Except Fault System
  | .arrive results => .ok { system with workshop := system.workshop.arrive results }
  | .release => .ok { system with workshop := system.workshop.releaseAll }
  | .finish id => system.finishCompilation id
  | .handOut owned =>
    let (finished, system) := system.processResults
    finished.foldlM (fun system compile => (compile.resources.filter owned).foldlM
      (fun system id => (system.complete id compile.job compile.result).map Prod.snd) system) system

theorem Renumbered.follow (renumbered : Renumbered gap stores system other) (sequel : Sequel) :
    Concurs (Renumbered gap stores) (sequel.follow system) (sequel.follow other) := by
  cases sequel with
  | arrive results => exact .ok (renumbered.onWorkshop (renumbered.workshop.arrive results))
  | release => exact .ok (renumbered.onWorkshop renumbered.workshop.releaseAll)
  | finish id => exact renumbered.finishCompilation id
  | handOut owned =>
    obtain ⟨finished, processed⟩ := renumbered.workshop.process system.heldMaps
    unfold Sequel.follow processResults
    dsimp only
    rw [renumbered.heldMaps, finished, List.foldlM_map]
    refine Concurs.foldlM (fun compile _ _ both => ?_) _ (renumbered.onWorkshop processed)
    exact Concurs.foldlM (fun id _ _ both => (both.complete id compile.job compile.result).map
      fun _ _ both => both.2) _ both

end System

end Shading
