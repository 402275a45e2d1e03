/-
How maps get over to the renderer. A resource offers a map, and the renderer has
one; the commands that are queued lead from the one to the other. A resource is
in step when the renderer will have just the map the resource offers, once
everything queued has been carried out. Every operation keeps a resource in step
but one: a map taken from an inline archive is not sent by itself. A resource
whose map has not been sent stays out of step even if that very map is then
found for it, because an exchange for the map it has already is no exchange.
-/

import Mathlib
import Shading.Proofs.Material.Offering

namespace Shading.System

/-- The renderer will have the map that the resource offers. -/
def InStep (system : System) (id : ResourceId) : Prop :=
  system.renderer.settled id = system.offered id

/-! ### Histories -/

/-- What can have happened to the resources of a system and to its renderer, and which of the
resources have a map from an inline archive that nothing has sent since. Whatever else goes on
in the system may happen in between. -/
inductive History : List ResourceId → System → Prop where
  | start (settings : Settings) (catalog : Catalog) (workshop : Workshop) :
    History [] { settings, catalog, workshop, renderer := { world := {
      deferring := settings.defersUniformCaching, activeTiers := settings.activeTiers } } }
  | addResource {unsent system} (variant : Variant) : History unsent system →
    History unsent (system.addResource variant).2
  | vary {unsent system} (id : ResourceId) (change : Variant → Variant) : History unsent system →
    History unsent (system.onResource id fun resource =>
      { resource with variant := change resource.variant })
  | cacheShaders {unsent system id ready next} : History unsent system →
    system.cacheShaders id = .ok (ready, next) → History unsent next
  | complete {unsent system id job result applied next} : History unsent system →
    system.complete id job result = .ok (applied, next) → History unsent next
  | finishCompilation {unsent system id next} : History unsent system →
    system.finishCompilation id = .ok next → History unsent next
  | cancelCompilation {unsent system} (id : ResourceId) : History unsent system →
    History unsent (system.cancelCompilation id)
  | loadInline {unsent system id archive loaded next} : History unsent system →
    system.loadInline id archive = .ok (loaded, next) →
    History (if loaded then id :: unsent else unsent) next
  | publishInline {unsent system} (id : ResourceId) : History unsent system →
    History (if (system.offered id).join.isSome then unsent.filter (· ≠ id) else unsent)
      (system.publishInline id)
  | releaseMap {unsent system} (id : ResourceId) : History unsent system →
    History (unsent.filter (· ≠ id)) (system.releaseMap id)
  | discardMap {unsent system id next} : History unsent system →
    system.discardMap id = (.ok (), next) → History (unsent.filter (· ≠ id)) next
  | dropResource {unsent system} (id : ResourceId) : History unsent system →
    History unsent (system.dropResource id)
  /-- Anything that leaves the renderer and the resources alone. -/
  | elsewhere {unsent system next} : History unsent system → next.renderer = system.renderer →
    next.resources = system.resources → History unsent next
  | enqueue {unsent system} (command : RenderCommand) : History unsent system →
    command.resource? = none → History unsent (system.enqueue command)
  /-- The renderer carries out the first command of its queue. -/
  | carryOut {unsent system command rest world} : History unsent system →
    system.renderer.queue = command :: rest → system.renderer.world.apply command = .ok world →
    History unsent { system with renderer := { system.renderer with world, queue := rest } }
  /-- The renderer does anything that leaves its resources alone. -/
  | upkeep {unsent system world} : History unsent system →
    World.Rests system.renderer.world world →
    History unsent { system with renderer := { system.renderer with world } }

/-! ### Being in step lasts -/

variable {unsent : List ResourceId} {system next : System} {id : ResourceId}

/-- What holds of every system with a history. -/
structure Linked (unsent : List ResourceId) (system : System) : Prop where
  accounted : system.renderer.Accounted
  registered : ∀ id, (system.offered id).isSome → (system.renderer.settled id).isSome
  inStep : ∀ id, (system.offered id).isSome → id ∉ unsent → system.InStep id

namespace Linked

theorem congr (linked : Linked unsent system) (renderer : next.renderer = system.renderer)
    (offered : next.offered = system.offered) : Linked unsent next := by
  refine ⟨?_, ?_, ?_⟩
  · rw [renderer]
    exact linked.accounted
  · rw [renderer, offered]
    exact linked.registered
  · unfold InStep
    rw [renderer, offered]
    exact linked.inStep

theorem quiet (linked : Linked unsent system) (quiet : Quiet system next) :
    Linked unsent next := linked.congr quiet.renderer quiet.offered

/-- A resource that is there is in step after a map has been sent for it. -/
theorem send (linked : Linked unsent system) {map : Option SharedMap}
    (renderer : next.renderer = system.renderer.publish id map)
    (offered : ∀ other, next.offered other =
      if other = id then (system.offered id).map fun _ => map.map SharedMap.id
      else system.offered other) :
    Linked (unsent.filter (· ≠ id)) next := by
  have settled (other : ResourceId) : next.renderer.settled other =
      if id = other then (system.renderer.settled other).map fun _ => map.map SharedMap.id
      else system.renderer.settled other := by
    rw [renderer, Renderer.settled_publish _ _ _ _ linked.accounted.here]
  refine ⟨?_, fun other live => ?_, fun other live sent => ?_⟩
  · rw [renderer]
    exact linked.accounted.publish id map
  · rw [offered] at live
    rw [settled]
    by_cases same : other = id
    · rw [if_pos same, Option.isSome_map] at live
      rw [if_pos same.symm, Option.isSome_map, same]
      exact linked.registered id live
    · rw [if_neg same] at live
      rw [if_neg (Ne.symm same)]
      exact linked.registered other live
  · rw [offered] at live
    unfold InStep
    rw [offered, settled]
    by_cases same : other = id
    · rw [if_pos same, Option.isSome_map] at live
      have there := linked.registered id live
      obtain ⟨had, found⟩ := Option.isSome_iff_exists.mp there
      obtain ⟨offer, offering⟩ := Option.isSome_iff_exists.mp live
      rw [if_pos same, if_pos same.symm, same, found, offering]
      rfl
    · rw [if_neg same] at live
      rw [if_neg same, if_neg (Ne.symm same)]
      refine linked.inStep other live fun member => sent ?_
      exact List.mem_filter.mpr ⟨member, decide_eq_true same⟩

theorem fewer {unsent' : List ResourceId} (linked : Linked unsent system)
    (more : ∀ id ∈ unsent, id ∈ unsent') : Linked unsent' system :=
  ⟨linked.accounted, linked.registered, fun id live sent =>
    linked.inStep id live fun member => sent (more id member)⟩

theorem setMap (linked : Linked unsent system) (id : ResourceId) (map : Option SharedMap) :
    Linked unsent (system.setMap id map) := by
  have told := renderer_setMap system id map
  split at told
  · rename_i idle
    refine linked.congr told (funext fun other => ?_)
    rw [offered_setMap]
    split
    · rename_i here
      rcases idle with missing | same
      · rw [here, missing]
        rfl
      · rw [here, same]
        rfl
    · rfl
  · exact (linked.send told (offered_setMap system id · map)).fewer fun _ member =>
      (List.mem_filter.mp member).1

theorem exchange {map : Option SharedMap} (linked : Linked unsent system)
    (exchanges : Exchanges id map system next) : Linked unsent next := by
  obtain ⟨middle, quiet, rfl⟩ := exchanges
  exact (linked.quiet quiet).setMap id map

theorem either (linked : Linked unsent system)
    (moves : Quiet system next ∨ ∃ map, Exchanges id map system next) : Linked unsent next := by
  rcases moves with quiet | ⟨map, exchanged⟩
  · exact linked.quiet quiet
  · exact linked.exchange exchanged

/-- Another state of the renderer that leads to the same standings. -/
theorem onRenderer {renderer : Renderer} (linked : Linked unsent system)
    (accounted : renderer.Accounted)
    (settled : ∀ id, renderer.settled id = system.renderer.settled id) :
    Linked unsent { system with renderer } := by
  refine ⟨accounted, fun id live => ?_, fun id live sent => ?_⟩
  · show (renderer.settled id).isSome
    rw [settled]
    exact linked.registered id live
  · show renderer.settled id = _
    rw [settled]
    exact linked.inStep id live sent

/-- A command that sends no map, and is about no resource but one. -/
theorem enqueue {command : RenderCommand} (linked : Linked unsent system)
    (silent : ∀ resource, command.sendsTo resource = false)
    (renderer : next.renderer = system.renderer.enqueue command)
    (offered : ∀ other, (next.offered other).isSome →
      command.settle other (system.renderer.settled other) = next.offered other ∨
        command.resource? ≠ some other ∧ next.offered other = system.offered other) :
    Linked unsent next := by
  have settled (other : ResourceId) : next.renderer.settled other =
      command.settle other (system.renderer.settled other) := by
    rw [renderer, Renderer.settled_enqueue _ _ _ linked.accounted.here]
  refine ⟨?_, fun other live => ?_, fun other live sent => ?_⟩
  · rw [renderer]
    exact linked.accounted.enqueue silent
  · rw [settled]
    rcases offered other live with now | ⟨elsewhere, same⟩
    · rw [now]
      exact live
    · rw [same] at live
      rw [RenderCommand.settle_other _ elsewhere]
      exact linked.registered other live
  · show next.renderer.settled other = _
    rw [settled]
    rcases offered other live with now | ⟨elsewhere, same⟩
    · exact now
    · rw [same] at live ⊢
      rw [RenderCommand.settle_other _ elsewhere]
      exact linked.inStep other live sent

/-! ### The operations one by one -/

theorem addResource (linked : Linked unsent system) (variant : Variant) :
    Linked unsent (system.addResource variant).2 := by
  have offered (other : ResourceId) : (system.addResource variant).2.offered other =
      if other = system.nextResource then some none else system.offered other := by
    show ((Table.insert system.resources system.nextResource _).get? other).map _ = _
    rw [Table.get?_insert]
    split <;> rfl
  have told : (system.addResource variant).2.renderer =
    system.renderer.enqueue (.registerMaterial system.nextResource (Resource.info { variant })) :=
      rfl
  refine linked.enqueue (fun _ => rfl) told fun other live => ?_
  rw [offered]
  by_cases same : other = system.nextResource
  · rw [if_pos same, RenderCommand.settle, if_pos same.symm]
    exact .inl rfl
  · rw [if_neg same]
    exact .inr ⟨fun equal => same (Option.some.inj equal).symm, rfl⟩

theorem dropResource (linked : Linked unsent system) (id : ResourceId) :
    Linked unsent (system.dropResource id) := by
  have offered (other : ResourceId) : (system.dropResource id).offered other =
      if other = id then none else system.offered other := by
    show ((Table.erase system.resources id).get? other).map _ = _
    rw [Table.get?_erase]
    split <;> rfl
  have told : (system.dropResource id).renderer =
    system.renderer.enqueue (.releaseMaterial id) := rfl
  refine linked.enqueue (fun _ => rfl) told fun other live => ?_
  rw [offered] at live ⊢
  by_cases same : other = id
  · rw [if_pos same] at live
    cases live
  · rw [if_neg same]
    exact .inr ⟨fun equal => same (Option.some.inj equal).symm, rfl⟩

theorem finishCompilation (linked : Linked unsent system)
    (ran : system.finishCompilation id = .ok next) : Linked unsent next :=
  finishCompilation_kept ran linked (fun _ => linked.quiet (.of_resources rfl rfl rfl))
    fun _ _ _ linked taken => linked.either (Exchanges.takeResult taken)

/-- The map of one resource is written, and nobody is told. -/
theorem onResource (linked : Linked unsent system) (id : ResourceId)
    (change : Resource → Resource) : Linked (id :: unsent) (system.onResource id change) := by
  refine ⟨linked.accounted, fun other live => ?_, fun other live sent => ?_⟩
  · rw [offered_onResource] at live
    refine linked.registered other ?_
    split at live
    · rename_i same
      rw [Option.isSome_map] at live
      unfold offered
      rw [same, Option.isSome_map]
      exact live
    · exact live
  · obtain ⟨different, known⟩ := List.ne_and_not_mem_of_not_mem_cons sent
    rw [offered_onResource, if_neg different] at live
    show system.renderer.settled other = _
    rw [offered_onResource, if_neg different]
    exact linked.inStep other live known

/-- A resource that is in step needs nothing sent. -/
theorem sent (linked : Linked (id :: unsent) system)
    (inStep : (system.offered id).isSome → system.InStep id) :
    Linked (unsent.filter (· ≠ id)) system := by
  refine ⟨linked.accounted, linked.registered, fun other live known => ?_⟩
  by_cases same : other = id
  · exact same ▸ inStep (same ▸ live)
  · refine linked.inStep other live fun member => ?_
    rcases List.mem_cons.mp member with here | member
    · exact same here
    · exact known (List.mem_filter.mpr ⟨member, decide_eq_true same⟩)

theorem loadInline {archive : List UInt8} {loaded : Bool} (linked : Linked unsent system)
    (ran : system.loadInline id archive = .ok (loaded, next)) :
    Linked (if loaded then id :: unsent else unsent) next := by
  rcases Quiet.loadInline ran with ⟨rfl, rfl⟩ | ⟨rfl, middle, change, quiet, rfl⟩
  · exact linked
  · exact (linked.quiet quiet).onResource id change

/-- A resource sends the map it offers. -/
theorem publish {resource : Resource} (linked : Linked unsent system)
    (found : system.resources.get? id = some resource) :
    Linked (unsent.filter (· ≠ id)) (system.publish id) := by
  refine linked.send (renderer_publish found) fun other => ?_
  rw [offered_publish]
  split
  · rename_i same
    rw [same, offered_eq_some found]
    rfl
  · rfl

theorem publishInline (linked : Linked unsent system) (id : ResourceId) :
    Linked (if (system.offered id).join.isSome then unsent.filter (· ≠ id) else unsent)
      (system.publishInline id) := by
  unfold System.publishInline
  cases found : system.resources.get? id with
  | none =>
    have missing : system.offered id = none := by
      unfold offered
      rw [found]
      rfl
    rw [missing]
    exact linked
  | some resource =>
    rw [offered_eq_some found]
    cases held : resource.map with
    | none =>
      rw [Option.bind_some, held]
      exact linked
    | some shared =>
      rw [Option.bind_some, held]
      exact linked.publish found

theorem releaseMap (linked : Linked unsent system) (id : ResourceId) :
    Linked (unsent.filter (· ≠ id)) (system.releaseMap id) := by
  unfold System.releaseMap
  have cancelled := linked.quiet (Quiet.cancelCompilation system id)
  generalize system.cancelCompilation id = middle at cancelled
  have emptied := cancelled.onResource id fun resource => { resource with map := none }
  cases found : (middle.onResource id fun resource =>
      { resource with map := none }).resources.get? id with
  | none =>
    unfold System.publish
    rw [found]
    refine emptied.sent fun live => ?_
    unfold offered at live
    rw [found] at live
    cases live
  | some resource =>
    refine (emptied.publish found).fewer fun other member => ?_
    obtain ⟨member, different⟩ := List.mem_filter.mp member
    rcases List.mem_cons.mp member with rfl | member
    · exact absurd rfl (of_decide_eq_true different)
    · exact List.mem_filter.mpr ⟨member, different⟩

theorem discardMap (linked : Linked unsent system) (ran : system.discardMap id = (.ok (), next)) :
    Linked (unsent.filter (· ≠ id)) next := by
  obtain ⟨quiescent, rfl⟩ := discardMap_eq_ok.mp ran
  refine (linked.onResource id _).sent fun live => ?_
  have without := linked.accounted.quiescent quiescent
  rw [offered_onResource, if_pos rfl, Option.isSome_map] at live
  obtain ⟨resource, found⟩ := Option.isSome_iff_exists.mp live
  have registered := linked.registered id (by rw [offered_eq_some found]; rfl)
  obtain ⟨standing, settled⟩ := Option.isSome_iff_exists.mp registered
  rw [settled] at without
  show system.renderer.settled id = _
  rw [offered_onResource, if_pos rfl, found, settled]
  exact congrArg some without

end Linked

theorem linked_of_history (history : History unsent system) : Linked unsent system := by
  induction history with
  | start settings catalog workshop =>
    exact ⟨⟨rfl, fun _ => Nat.le_refl _, fun _ has => (nomatch has)⟩, fun _ live => (nomatch live),
      fun _ live => (nomatch live)⟩
  | addResource variant _ linked => exact linked.addResource variant
  | vary id change _ linked => exact linked.quiet (.onResource _ id fun _ => rfl)
  | cacheShaders _ ran linked => exact linked.either (Exchanges.cacheShaders_either ran)
  | complete _ ran linked => exact linked.either (Exchanges.complete ran)
  | finishCompilation _ ran linked => exact linked.finishCompilation ran
  | cancelCompilation id _ linked => exact linked.quiet (.cancelCompilation _ id)
  | loadInline _ ran linked => exact linked.loadInline ran
  | publishInline id _ linked => exact linked.publishInline id
  | releaseMap id _ linked => exact linked.releaseMap id
  | discardMap _ ran linked => exact linked.discardMap ran
  | dropResource id _ linked => exact linked.dropResource id
  | elsewhere _ renderer resources linked => exact linked.congr renderer (offered_congr resources)
  | enqueue command _ elsewhere linked =>
    have other (resource : ResourceId) : command.resource? ≠ some resource := by
      rw [elsewhere]
      exact (Option.some_ne_none resource).symm
    exact linked.enqueue (fun resource => RenderCommand.sendsTo_other (other resource)) rfl
      fun resource _ => .inr ⟨other resource, rfl⟩
  | carryOut _ queued ran linked =>
    exact linked.onRenderer (linked.accounted.apply queued ran)
      (Renderer.settled_of_apply queued ran)
  | upkeep _ rests linked =>
    exact linked.onRenderer (linked.accounted.upkeep rests) (Renderer.settled_of_rests rests)

/-! ### A map that is ready -/

/-- After an exchange and with the queue carried out, the renderer has the new map just if the
resource was in step or had another map. -/
theorem reached_iff (linked : Linked unsent system) (live : (system.offered id).isSome)
    {shared : SharedMap} {count : Nat} {renderer : Renderer}
    (drained : (system.setMap id (some shared)).renderer.processCommands = .ok (count, renderer)) :
    (renderer.world.mapOf id).map SharedMap.id = some shared.id ↔
      system.InStep id ∨ system.offered id ≠ some (some shared.id) := by
  have told := renderer_setMap system id (some shared)
  rw [Option.map_some] at told
  have reached : (renderer.world.mapOf id).map SharedMap.id =
      ((system.setMap id (some shared)).renderer.settled id).join := by
    rw [World.map_id_mapOf, Renderer.standing_processCommands drained]
  rw [reached]
  by_cases same : system.offered id = some (some shared.id)
  · rw [if_pos (.inr same)] at told
    rw [told, Option.join_eq_some_iff]
    unfold InStep
    rw [same]
    exact ⟨.inl, fun either => either.resolve_right fun different => different rfl⟩
  · have other : ¬ (system.offered id = none ∨ system.offered id = some (some shared.id)) := by
      rintro (missing | found)
      · rw [missing] at live
        cases live
      · exact same found
    obtain ⟨standing, settled⟩ := Option.isSome_iff_exists.mp (linked.registered id live)
    rw [if_neg other] at told
    rw [told, Renderer.settled_publish _ _ _ _ linked.accounted.here, if_pos rfl, settled]
    exact ⟨fun _ => .inr same, fun _ => rfl⟩

/-- What is ready is exchanged for the map the resource had, and it is offered afterwards. -/
theorem ready_exchanges (ran : system.cacheShaders id = .ok (true, next)) :
    (system.offered id).isSome ∧ ∃ shared, Exchanges id (some shared) system next ∧
      next.offered id = some (some shared.id) := by
  have live : (system.resources.get? id).isSome := by
    rcases cacheShaders_cases ran with ⟨_, unready, _⟩ | ⟨_, _, _, _, there, _⟩
    · cases unready
    · rw [there]
      rfl
  have offering : (system.offered id).isSome := by
    unfold offered
    rw [Option.isSome_map]
    exact live
  obtain ⟨map, found, middle, quiet, rfl⟩ := Exchanges.cacheShaders live ran
  obtain ⟨shared, rfl⟩ := Option.isSome_iff_exists.mp found
  obtain ⟨old, there⟩ := Option.isSome_iff_exists.mp offering
  refine ⟨offering, shared, ⟨middle, quiet, rfl⟩, ?_⟩
  rw [offered_setMap, if_pos rfl, quiet.offered, there]
  rfl

/-- The exact condition under which a map that is ready gets to the renderer: the resource was
in step before, or it had another map before. Where nothing from an inline archive was left
unsent, the map always gets there. -/
theorem ready_map_reaches_renderer (history : History unsent system) {count : Nat}
    {renderer : Renderer} (ran : system.cacheShaders id = .ok (true, next))
    (drained : next.renderer.processCommands = .ok (count, renderer)) :
    ∃ map, next.offered id = some (some map) ∧
      ((renderer.world.mapOf id).map SharedMap.id = some map ↔
        system.InStep id ∨ system.offered id ≠ next.offered id) ∧
      (id ∉ unsent → (renderer.world.mapOf id).map SharedMap.id = some map) := by
  have linked := linked_of_history history
  obtain ⟨live, shared, ⟨middle, quiet, rfl⟩, offers⟩ := ready_exchanges ran
  have iff := reached_iff (linked.quiet quiet) (by rw [quiet.offered]; exact live) drained
  unfold InStep at iff
  rw [quiet.renderer, quiet.offered] at iff
  refine ⟨shared.id, offers, ?_, fun sent => iff.mpr (.inl (linked.inStep id live sent))⟩
  rw [offers]
  exact iff

/-- A material without a graph, the only resource of a system that compiles at once. -/
def lone : System :=
  (addResource { settings := { allowsAsyncCompilation := false } } { description := default }).2

theorem lone_history : History [] lone :=
  (History.start { allowsAsyncCompilation := false } {} {}).addResource _

/-- The map that is compiled for it gets to the renderer. -/
theorem lone_map_reaches_renderer : ∃ next count renderer map,
    lone.cacheShaders .first = .ok (true, next) ∧
      next.renderer.processCommands = .ok (count, renderer) ∧
      (renderer.world.mapOf .first).map SharedMap.id = some map := by
  have ready : (lone.cacheShaders .first).bind (fun cached =>
      cached.2.renderer.processCommands.map fun _ => cached.1) = .ok true := by
    cbv
  obtain ⟨⟨done, next⟩, ran, ready⟩ := bind_eq_ok.mp ready
  obtain ⟨⟨count, renderer⟩, drained, rfl⟩ := map_eq_ok.mp ready
  obtain ⟨map, _, _, reaches⟩ := ready_map_reaches_renderer lone_history ran drained
  exact ⟨next, count, renderer, map, ran, drained, reaches List.not_mem_nil⟩

/-- The map of that material. -/
def loneMap : ShaderMap where
  identity := {
    content := 0xa18c605e0e53c3ea01e1ee8a360ae271, quality := .high, tier := .desktop
    shaderTypes := [], factories := [], textures := 0x2c0a8a99dc147d5445c3b49d035665b2 }
  name := ""
  content := some { binaries := [], profile := {} }

def loneText : String :=
  "[[\"a18c605e0e53c3ea01e1ee8a360ae271\",\"High\",\"Desktop\",[],[]," ++
    "\"2c0a8a99dc147d5445c3b49d035665b2\"],\"\",[],[[[],[],[],[],[],[],[],[],[]],\"\",0]]"

/-- The same map in an inline archive. -/
def loneArchive : List UInt8 := [0, 1, 138, 0, 0, 0, 0, 0, 0, 0] ++ Utf8.encode loneText

theorem read_loneArchive : InlineMap.read loneArchive = .ok ⟨false, some loneMap⟩ :=
  toOption_eq_some.mp (by decide +kernel)

/-- Taken from the archive the map is found ready, and yet the renderer never gets it. -/
theorem loaded_map_misses_renderer : ∃ unsent system next count renderer map,
    History unsent system ∧ system.cacheShaders .first = .ok (true, next) ∧
      next.renderer.processCommands = .ok (count, renderer) ∧
      next.offered .first = some (some map) ∧ renderer.world.mapOf .first = none := by
  have missed : (lone.loadInline .first loneArchive).toOption.bind (fun loaded =>
      (loaded.2.cacheShaders .first).toOption.bind fun cached =>
        cached.2.renderer.processCommands.toOption.map fun drained =>
          (cached.1, (drained.2.world.mapOf .first).isNone)) = some (true, true) := by
    unfold loadInline
    rw [read_loneArchive]
    cbv
  obtain ⟨⟨loaded, system⟩, took, missed⟩ := Option.bind_eq_some_iff.mp missed
  obtain ⟨⟨done, next⟩, ran, missed⟩ := Option.bind_eq_some_iff.mp missed
  obtain ⟨⟨count, renderer⟩, drained, missed⟩ := Option.map_eq_some_iff.mp missed
  obtain ⟨rfl, nothing⟩ := Prod.mk.inj missed
  have ran := toOption_eq_some.mp ran
  obtain ⟨_, shared, _, offers⟩ := ready_exchanges ran
  exact ⟨_, system, next, count, renderer, shared.id,
    lone_history.loadInline (toOption_eq_some.mp took), ran, toOption_eq_some.mp drained, offers,
    Option.isNone_iff_eq_none.mp nothing⟩

end Shading.System
