/-
What resources offer. Whatever a resource does to get a map -- looking for one,
joining a compile or beginning one, taking a result -- touches the map it offers
and the renderer only at the very end, when its map is exchanged.
-/

import Shading.Proofs.Material.Obtaining
import Shading.Proofs.Render.Settling

namespace Shading.System

variable {system next : System} {id : ResourceId}

/-- Nothing for a resource that is not there, and else the map it offers, if it has one. -/
def offered (system : System) (id : ResourceId) : Standing :=
  (system.resources.get? id).map fun resource => resource.map.map SharedMap.id

theorem offered_eq_some {resource : Resource} (found : system.resources.get? id = some resource) :
    system.offered id = some (resource.map.map SharedMap.id) := by
  unfold offered
  rw [found]
  rfl

theorem offered_congr (same : next.resources = system.resources) :
    next.offered = system.offered := by
  unfold offered
  rw [same]

/-- A change of a resource, whatever it does to its map. -/
theorem offered_onResource (system : System) (id other : ResourceId)
    (change : Resource → Resource) :
    (system.onResource id change).offered other =
      if other = id then
        (system.resources.get? id).map fun resource => (change resource).map.map SharedMap.id
      else system.offered other := by
  show ((Table.modify system.resources id change).get? other).map _ = _
  rw [Table.get?_modify]
  split
  · rw [Option.map_map]
    rfl
  · rfl

/-- Neither the renderer nor what any resource offers has changed, and no proxy was numbered. -/
structure Quiet (system next : System) : Prop where
  renderer : next.renderer = system.renderer
  offered : next.offered = system.offered
  nextProxy : next.nextProxy = system.nextProxy

/-- First nothing is touched, and then a resource exchanges its map. -/
def Exchanges (id : ResourceId) (map : Option SharedMap) (system next : System) : Prop :=
  ∃ middle, Quiet system middle ∧ next = middle.setMap id map

namespace Quiet

theorem refl (system : System) : Quiet system system := ⟨rfl, rfl, rfl⟩

theorem trans {middle : System} (first : Quiet system middle) (second : Quiet middle next) :
    Quiet system next :=
  ⟨second.renderer.trans first.renderer, second.offered.trans first.offered,
    second.nextProxy.trans first.nextProxy⟩

theorem of_resources (renderer : next.renderer = system.renderer)
    (resources : next.resources = system.resources)
    (nextProxy : next.nextProxy = system.nextProxy) : Quiet system next :=
  ⟨renderer, offered_congr resources, nextProxy⟩

/-- A change of a resource that is not about its map. -/
theorem onResource (system : System) (id : ResourceId) {change : Resource → Resource}
    (same : ∀ resource, (change resource).map = resource.map) :
    Quiet system (system.onResource id change) := by
  refine ⟨rfl, funext fun other => ?_, rfl⟩
  rw [offered_onResource]
  split
  · rename_i here
    unfold System.offered
    rw [here]
    exact congrArg (fun change => Option.map change _) (funext fun resource => by rw [same])
  · rfl

theorem setErrors (system : System) (id : ResourceId) (errors : List String) :
    Quiet system (system.setErrors id errors) := onResource system id fun _ => rfl

theorem addJob (system : System) (id : ResourceId) (job : JobId) :
    Quiet system (system.addJob id job) := onResource system id fun _ => rfl

theorem cancelCompilation (system : System) (id : ResourceId) :
    Quiet system (system.cancelCompilation id) := by
  unfold System.cancelCompilation
  split
  · exact refl system
  · rename_i resource found
    split
    · exact refl system
    · have cancelled : Quiet system (system.onManager fun manager =>
        manager.cancel id resource.jobs) := of_resources rfl rfl rfl
      exact cancelled.trans (onResource _ id fun _ => rfl)

theorem keepOnlyJob (system : System) (id : ResourceId) (job : JobId) :
    Quiet system (system.keepOnlyJob id job) := by
  unfold System.keepOnlyJob
  split
  · exact refl system
  · dsimp only
    split
    · exact onResource system id fun _ => rfl
    · rename_i resource found others
      have cancelled : Quiet system (system.onManager fun manager =>
        manager.cancel id (resource.jobs.filter (· ≠ job))) := of_resources rfl rfl rfl
      exact cancelled.trans (onResource _ id fun _ => rfl)

theorem registerMap (system : System) (map : ShaderMap) :
    Quiet system (system.registerMap map).2 := of_resources rfl rfl rfl

theorem findMap (system : System) (identity : MapIdentity) :
    Quiet system (system.findMap identity).2 := of_resources rfl rfl rfl

theorem findStored (system : System) (identity : MapIdentity) :
    Quiet system (system.findStored identity).2 := by
  rcases findStored_cases system identity with ⟨map, _, same⟩ | ⟨_, same⟩
  · rw [same]
    exact of_resources rfl rfl rfl
  · rw [same]
    exact of_resources rfl rfl rfl

theorem lookup (system : System) (identity : MapIdentity) :
    Quiet system (system.lookup identity).2 := by
  have found := findMap system identity
  unfold System.lookup
  split
  · rename_i shared later same
    rw [same] at found
    exact found
  · rename_i later same
    rw [same] at found
    exact found.trans (findStored later identity)

/-- Reading an inline archive touches nothing, or in the end the map of one resource. -/
theorem loadInline {archive : List UInt8} {loaded : Bool}
    (ran : system.loadInline id archive = .ok (loaded, next)) :
    (loaded = false ∧ next = system) ∨
      (loaded = true ∧ ∃ middle change, Quiet system middle ∧ next = middle.onResource id change) := by
  obtain ⟨rfl, rfl⟩ | ⟨_, map, shared, later, _, adopts, rfl, rfl⟩ := loadInline_cases ran
  · exact .inl ⟨rfl, rfl⟩
  · have found := findMap system map.identity
    refine .inr ⟨rfl, later, _, ?_, rfl⟩
    cases adopts with
    | live same =>
      rw [same] at found
      exact found
    | own same =>
      rw [same] at found
      exact found.trans (registerMap _ map)

end Quiet

/-! ### Exchanging maps -/

theorem Quiet.exchanges {middle : System} {map : Option SharedMap} (quiet : Quiet system middle)
    (exchanges : Exchanges id map middle next) : Exchanges id map system next := by
  obtain ⟨last, rest, same⟩ := exchanges
  exact ⟨last, quiet.trans rest, same⟩

namespace Exchanges

theorem succeed (system : System) (id : ResourceId) (shared : SharedMap) :
    Exchanges id (some shared) system (system.succeed id shared) :=
  ⟨_, Quiet.setErrors system id [], rfl⟩

theorem fail {resource : Resource} {failure : CompileFailure}
    (ran : system.fail id resource failure = .ok next) : Exchanges id none system next := by
  obtain ⟨_, rfl⟩ := fail_eq_ok.mp ran
  exact ⟨_, Quiet.setErrors system id _, rfl⟩

theorem fallBack {resource : Resource} (ran : system.fallBack id resource = .ok next) :
    Exchanges id none system next := by
  obtain ⟨_, rfl⟩ := fallBack_eq_ok.mp ran
  exact ⟨_, Quiet.setErrors system id _, rfl⟩

theorem conclude {resource : Resource} {result : Except CompileFailure SharedMap}
    (ran : system.conclude id resource result = .ok next) :
    ∃ map, Exchanges id map system next := by
  cases result with
  | ok shared =>
    cases ran
    exact ⟨some shared, succeed system id shared⟩
  | error failure => exact ⟨none, fail ran⟩

theorem attach {identity : MapIdentity} (attached : system.attach id identity = some next) :
    Exchanges id none system next := by
  obtain ⟨job, _, rfl⟩ := attach_eq_some.mp attached
  have joined : Quiet system (system.onManager fun manager => manager.join job id) :=
    .of_resources rfl rfl rfl
  exact ⟨_, joined.trans (.keepOnlyJob _ id job), rfl⟩

/-- A compile that is ready at once gives a map, and any other gives none for now. -/
theorem compile {resource : Resource} {identity : MapIdentity} {synchronous ready : Bool}
    (ran : system.compile id resource identity synchronous = .ok (ready, next)) :
    ∃ map, map.isSome = ready ∧ Exchanges id map system next := by
  obtain ⟨answer, workshop, _, heeds⟩ := compile_heeds ran
  have begun : Quiet system { system.cancelCompilation id with workshop } :=
    (Quiet.cancelCompilation system id).trans (.of_resources rfl rfl rfl)
  cases heeds with
  | given => exact ⟨_, rfl, begun.exchanges (succeed _ id _)⟩
  | refused _ failed => exact ⟨none, rfl, begun.exchanges (fail failed)⟩
  | waits => exact ⟨none, rfl, _, begun.trans (.addJob _ id _), rfl⟩

theorem obtain {resource : Resource} {identity : MapIdentity} {ready : Bool}
    (ran : system.obtain id resource identity = .ok (ready, next)) :
    ∃ map, map.isSome = ready ∧ Exchanges id map system next := by
  rcases obtain_cases ran with ⟨_, rfl, attached⟩ | ⟨_, compiled⟩
  · exact ⟨none, rfl, attach attached⟩
  · exact compile compiled

/-- Caching the shaders of a resource that is there comes down to an exchange of its map, and
it tells whether it has a map now. -/
theorem cacheShaders {ready : Bool} (live : (system.resources.get? id).isSome)
    (ran : system.cacheShaders id = .ok (ready, next)) :
    ∃ map, map.isSome = ready ∧ Exchanges id map system next := by
  rcases cacheShaders_cases ran with
    ⟨absent, _⟩ | ⟨resource, found, later, does, _, same, _, settles⟩
  · rw [absent] at live
    cases live
  · have looked := Quiet.lookup system (resource.variant.identity system.catalog)
    rw [same] at looked
    cases settles with
    | given => exact ⟨_, rfl, (looked.trans (.cancelCompilation _ id)).exchanges (succeed _ id _)⟩
    | fallsBack _ fell => exact ⟨none, rfl, looked.exchanges (fallBack fell)⟩
    | obtains _ obtained =>
      obtain ⟨map, same, exchanged⟩ := Exchanges.obtain obtained
      exact ⟨map, same, looked.exchanges exchanged⟩

theorem cacheShaders_either {ready : Bool}
    (ran : system.cacheShaders id = .ok (ready, next)) :
    Quiet system next ∨ ∃ map, Exchanges id map system next := by
  cases found : system.resources.get? id with
  | none =>
    rcases cacheShaders_cases ran with ⟨_, _, rfl⟩ | ⟨_, _, _, _, there, _⟩
    · exact .inl (.refl _)
    · cases found.symm.trans there
  | some resource =>
    obtain ⟨map, _, exchanged⟩ := cacheShaders (by rw [found]; rfl) ran
    exact .inr ⟨map, exchanged⟩

theorem complete {job : JobId} {result : Except CompileFailure SharedMap} {applied : Bool}
    (ran : system.complete id job result = .ok (applied, next)) :
    Quiet system next ∨ ∃ map, Exchanges id map system next := by
  rcases complete_cases ran with ⟨_, _, rfl⟩ | ⟨_, _, _, _, concluded⟩
  · exact .inl (.refl _)
  · obtain ⟨map, exchanged⟩ := conclude concluded
    have forgotten : Quiet system (system.onResource id fun resource =>
      { resource with jobs := resource.jobs.erase job }) := .onResource system id fun _ => rfl
    exact .inr ⟨map, forgotten.exchanges exchanged⟩

theorem takeResult {job : JobId} (ran : system.takeResult id job = .ok next) :
    Quiet system next ∨ ∃ map, Exchanges id map system next := by
  rcases takeResult_cases ran with ⟨_, rfl⟩ | ⟨_, manager, _, _, completed⟩
  · exact .inl (.refl _)
  · have taken : Quiet system (system.onManager fun _ => manager) := .of_resources rfl rfl rfl
    rcases complete completed with quiet | ⟨map, exchanged⟩
    · exact .inl (taken.trans quiet)
    · exact .inr ⟨map, taken.exchanges exchanged⟩

end Exchanges

/-! ### What an exchange does -/

theorem renderer_publish {resource : Resource}
    (found : system.resources.get? id = some resource) :
    (system.publish id).renderer = system.renderer.publish id resource.map := by
  unfold publish
  rw [found]

theorem offered_publish (system : System) (id : ResourceId) :
    (system.publish id).offered = system.offered := by
  unfold publish
  split <;> rfl

/-- A resource that is there offers its new map. -/
theorem offered_setMap (system : System) (id other : ResourceId) (map : Option SharedMap) :
    (system.setMap id map).offered other =
      if other = id then (system.offered id).map fun _ => map.map SharedMap.id
      else system.offered other := by
  unfold setMap
  split
  · rename_i missing
    split
    · rename_i here
      unfold offered
      rw [here, missing]
      rfl
    · rfl
  · rename_i resource found
    have changed : (system.onResource id fun resource => { resource with map }).offered other =
        if other = id then (system.offered id).map fun _ => map.map SharedMap.id
        else system.offered other := by
      rw [offered_onResource, found, offered_eq_some found]
      rfl
    split
    · rename_i same
      split
      · rename_i here
        rw [here, offered_eq_some found, ← same]
        rfl
      · rfl
    · rw [offered_publish]
      exact changed

/-- The renderer is told just if the resource is there and the map is another one. -/
theorem renderer_setMap (system : System) (id : ResourceId) (map : Option SharedMap) :
    (system.setMap id map).renderer =
      if system.offered id = none ∨ system.offered id = some (map.map SharedMap.id) then
        system.renderer
      else system.renderer.publish id map := by
  unfold setMap
  split
  · rename_i missing
    rw [if_pos (.inl (by unfold offered; rw [missing]; rfl))]
  · rename_i resource found
    rw [offered_eq_some found]
    split
    · rename_i same
      rw [if_pos (.inr (congrArg some same))]
    · rename_i different
      have there : (system.onResource id fun resource => { resource with map }).resources.get? id =
          some { resource with map } := by
        show (Table.modify system.resources id _).get? id = _
        rw [Table.get?_modify, if_pos rfl, found]
        rfl
      rw [renderer_publish there, if_neg fun either => either.elim (fun none => nomatch none)
        fun same => different (Option.some.inj same)]
      rfl

end Shading.System
