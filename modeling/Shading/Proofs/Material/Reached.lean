/-
What can have happened to a system. Resources come and go, are varied, and get
and give up their maps; compiles are requested, joined, cancelled and finished,
and results arrive for whatever compile; the store may hold anything at any
time; and the renderer works. However it came about, a resource that is ready
has a map it can use, unless a map that lacks permutations was still alive.
-/

import Mathlib
import Shading.Proofs.Material.Readiness

namespace Shading

/-- Whether a request asks for all permutations of the materials with its identity. -/
def CompileRequest.IsFull (catalog : Catalog) (request : CompileRequest) : Prop :=
  ∀ variant : Variant, variant.identity catalog = request.identity →
    ∀ permutation ∈ variant.permutations catalog, permutation ∈ request.permutations

namespace System

/-- Whether a map is none that is mistaken for another: its number has been given, and no other
map in the system has it. -/
def Distinguishes (system : System) (shared : SharedMap) : Prop :=
  shared.id.number < system.workshop.registry.next.number ∧
    ∀ other ∈ system.workshop.registry.known
      (system.resourceMaps ++ system.workshop.manager.maps), other.id = shared.id → other = shared

/-- What can have happened to a system with a catalog. Requests that others than resources make
are full, but for some identities. -/
inductive Reached (catalog : Catalog) (scant : List MapIdentity) : System → Prop where
  | start (settings : Settings) (compiler : Compiler) (store : MemoryStore) (usesStore : Bool) :
    Reached catalog scant {
      settings, catalog
      workshop := { compiler, store, usesStore }
      renderer := { world := {
        deferring := settings.defersUniformCaching, activeTiers := settings.activeTiers } } }
  /-- The library stops, and all that compiling knew is forgotten. -/
  | stop {system} : Reached catalog scant system →
    Reached catalog scant { system with workshop := system.workshop.renewed }
  | restart {system} (settings : Settings) (hasStore : Bool) : Reached catalog scant system →
    Reached catalog scant (({ system } : Library).start settings hasStore).system
  | shutdown {system} : Reached catalog scant system → Reached catalog scant system.shutdown
  /-- Settings, numbers, the compiler, the store and the inbox change in whatever way. -/
  | aside {system next} : Reached catalog scant system →
    Workshop.Idle system.workshop next.workshop → next.catalog = system.catalog →
    next.resources = system.resources → next.renderer = system.renderer →
    Reached catalog scant next
  | addResource {system} (variant : Variant) : Reached catalog scant system →
    Reached catalog scant (system.addResource variant).2
  | vary {system} (id : ResourceId) (change : Variant → Variant) : Reached catalog scant system →
    Reached catalog scant (system.onResource id fun resource =>
      { resource with variant := change resource.variant })
  | dropResource {system} (id : ResourceId) : Reached catalog scant system →
    Reached catalog scant (system.dropResource id)
  | cacheShaders {system id ready next} : Reached catalog scant system →
    system.cacheShaders id = .ok (ready, next) → Reached catalog scant next
  | complete {system id job result applied next} : Reached catalog scant system →
    (∀ shared, result = .ok shared → system.Distinguishes shared) →
    system.complete id job result = .ok (applied, next) → Reached catalog scant next
  | finishCompilation {system id next} : Reached catalog scant system →
    system.finishCompilation id = .ok next → Reached catalog scant next
  | cancelCompilation {system} (id : ResourceId) : Reached catalog scant system →
    Reached catalog scant (system.cancelCompilation id)
  | loadInline {system id archive loaded next} : Reached catalog scant system →
    system.loadInline id archive = .ok (loaded, next) → Reached catalog scant next
  | publishInline {system} (id : ResourceId) : Reached catalog scant system →
    Reached catalog scant (system.publishInline id)
  | releaseMap {system} (id : ResourceId) : Reached catalog scant system →
    Reached catalog scant (system.releaseMap id)
  | discardMap {system id next} : Reached catalog scant system →
    system.discardMap id = (.ok (), next) → Reached catalog scant next
  | registerMap {system} (map : ShaderMap) : Reached catalog scant system →
    Reached catalog scant (system.registerMap map).2
  | lookup {system} (identity : MapIdentity) : Reached catalog scant system →
    Reached catalog scant (system.lookup identity).2
  | request {system} (request : CompileRequest) : Reached catalog scant system →
    (request.identity ∉ scant → request.IsFull catalog) →
    Reached catalog scant
      { system with workshop := (system.workshop.request system.heldMaps request).2 }
  | attach {system} (identity : MapIdentity) (resource : ResourceId) :
    Reached catalog scant system → Reached catalog scant
      (system.onManager fun manager => (manager.attach identity resource).2)
  | cancel {system} (resource : ResourceId) (jobs : List JobId) : Reached catalog scant system →
    Reached catalog scant (system.onManager fun manager => manager.cancel resource jobs)
  | take {system} (job : JobId) (resource : ResourceId) : Reached catalog scant system →
    Reached catalog scant (system.onManager fun manager => (manager.take job resource).2)
  | finish {system} (jobs : List JobId) : Reached catalog scant system →
    Reached catalog scant
      { system with workshop := system.workshop.finish system.heldMaps jobs }
  | processResults {system} : Reached catalog scant system →
    Reached catalog scant system.processResults.2
  | enqueue {system} (command : RenderCommand) : Reached catalog scant system →
    command.map? = none → Reached catalog scant (system.enqueue command)
  /-- The renderer carries out the first command of its queue. -/
  | carryOut {system command rest world} : Reached catalog scant system →
    system.renderer.queue = command :: rest → system.renderer.world.apply command = .ok world →
    Reached catalog scant
      { system with renderer := { system.renderer with world, queue := rest } }
  /-- The renderer does anything that leaves its resources alone. -/
  | upkeep {system world} : Reached catalog scant system →
    World.Rests system.renderer.world world →
    Reached catalog scant { system with renderer := { system.renderer with world } }
  | leave {system} : Reached catalog scant system →
    Reached catalog scant { system with renderer := system.renderer.leave }

/-! ### Every system that is reached is sound -/

variable {catalog : Catalog} {scant : List MapIdentity} {extra : List SharedMap}
  {system next : System} {id : ResourceId}

namespace Sound

theorem start (settings : Settings) (compiler : Compiler) (store : MemoryStore)
    (usesStore : Bool) : Sound catalog scant [] {
      settings, catalog
      workshop := { compiler, store, usesStore }
      renderer := { world := {
        deferring := settings.defersUniformCaching, activeTiers := settings.activeTiers } } } := by
  have none_there (shared : SharedMap) : shared ∉ Registry.known {} [] := List.not_mem_nil
  refine ⟨rfl, ⟨⟨fun _ _ there => (nomatch there), fun _ _ there => (nomatch there),
    fun _ there => (nomatch there)⟩, ⟨fun _ there => (nomatch there), fun _ there => ?_,
    fun _ there => ?_, fun _ there => (nomatch there)⟩, fun _ => rfl⟩, rfl⟩
  · exact absurd there (none_there _)
  · exact absurd there (none_there _)

/-- The registry of a workshop that is renewed is empty, and its numbers go on. -/
theorem renewed (sound : Sound catalog scant [] system) :
    Sound catalog scant [] { system with workshop := system.workshop.renewed } := by
  have emptied : Registry.Genuine { next := system.workshop.registry.next }
      (system.resourceMaps ++ system.workshop.manager.maps) system.heldMaps :=
    sound.genuine.dropped fun _ there => (nomatch there)
  refine ⟨sound.same, ⟨⟨fun _ _ there => (nomatch there), fun _ _ there => (nomatch there),
    fun _ there => (nomatch there)⟩, emptied.fewer fun shared member => ?_, fun _ => rfl⟩, rfl⟩
  refine List.mem_append_left _ (List.mem_append_left _ ?_)
  exact (List.mem_append.mp member).resolve_right List.not_mem_nil

theorem restart (sound : Sound catalog scant [] system) (settings : Settings) (hasStore : Bool) :
    Sound catalog scant [] (({ system } : Library).start settings hasStore).system := by
  have renewed := sound.renewed
  refine ⟨sound.same, ⟨⟨fun _ _ there => (nomatch there), fun _ _ there => (nomatch there),
    fun _ there => (nomatch there)⟩, ?_, fun _ => rfl⟩, rfl⟩
  exact renewed.genuine.mono (fun _ there => (nomatch there)) fun _ there => (nomatch there)

theorem shutdown (sound : Sound catalog scant [] system) :
    Sound catalog scant [] system.shutdown := by
  have stopped : Sound catalog scant [] (system.onManager Manager.shutdown) :=
    sound.onManager ⟨fun _ _ there => (nomatch there), fun _ _ there => (nomatch there),
      fun _ there => (nomatch there)⟩ ⟨fun _ there => (nomatch there), List.nil_subset _⟩
  exact stopped.onRegistry (stopped.genuine.purge _)

theorem aside (sound : Sound catalog scant [] system)
    (idle : Workshop.Idle system.workshop next.workshop) (same : next.catalog = system.catalog)
    (resources : next.resources = system.resources) (renderer : next.renderer = system.renderer) :
    Sound catalog scant [] next := by
  have maps : next.resourceMaps = system.resourceMaps := by
    unfold resourceMaps
    rw [resources]
  have held : next.heldMaps = system.heldMaps := by
    unfold heldMaps
    rw [resources, renderer]
  refine ⟨same.trans sound.same, ?_, idle.unwritten.trans sound.written⟩
  rw [maps, held]
  exact idle.sound sound.workshop

/-! ### Results -/

/-- A result that anybody brings, unless its map is mistaken for another. -/
theorem completeAny {job : JobId} {result : Except CompileFailure SharedMap} {applied : Bool}
    (sound : Sound catalog scant [] system)
    (distinct : ∀ shared, result = .ok shared → system.Distinguishes shared)
    (ran : system.complete id job result = .ok (applied, next)) :
    Sound catalog scant [] next := by
  cases result with
  | ok shared =>
    obtain ⟨older, only⟩ := distinct shared rfl
    have known : Sound catalog scant [shared] system :=
      ⟨sound.same, ⟨sound.workshop.orderly, sound.genuine.recognize older only,
        sound.workshop.tidy⟩, sound.written⟩
    exact (known.moved
      (.complete (fun _ same => Except.ok.inj same ▸ List.mem_cons_self) ran)).plain
  | error failure =>
    refine sound.moved (.complete (fun _ failed => ?_) ran)
    cases failed

/-- A result that is taken is known. -/
theorem take {job : JobId} {resource : ResourceId} {manager : Manager}
    {result : Option (Except CompileFailure SharedMap)} (sound : Sound catalog scant [] system)
    (ran : system.workshop.manager.take job resource = (result, manager)) :
    Sound catalog scant (result.bind Except.toOption).toList
      (system.onManager fun _ => manager) := by
  obtain ⟨orderly, trimmed, comes⟩ := Manager.taken sound.workshop.orderly job resource
  rw [ran] at orderly trimmed comes
  cases made : result.bind Except.toOption with
  | none => exact sound.onManager orderly trimmed
  | some shared =>
    obtain ⟨compiled, rfl, same⟩ := Option.bind_eq_some_iff.mp made
    obtain ⟨compile, member, _, rfl⟩ := comes compiled rfl
    have known : shared ∈ system.workshop.manager.maps :=
      List.mem_append_left _ (List.mem_filterMap.mpr ⟨compile, member, same⟩)
    exact (sound.also (Workshop.mem_known_of_maps known _)).onManager orderly trimmed

theorem takeResult {job : JobId} (sound : Sound catalog scant [] system)
    (ran : system.takeResult id job = .ok next) : Sound catalog scant [] next := by
  rcases takeResult_cases ran with ⟨_, rfl⟩ | ⟨result, manager, _, took, completed⟩
  · exact sound
  · refine ((sound.take took).moved (.complete (fun shared same => ?_) completed)).plain
    rw [same]
    exact List.mem_cons_self

theorem finish (sound : Sound catalog scant [] system) (jobs : List JobId) :
    Sound catalog scant []
      { system with workshop := system.workshop.finish system.heldMaps jobs } :=
  have finished := sound.workshop.finish jobs
  onWorkshop sound.same finished.1 finished.2.1

theorem finishCompilation (sound : Sound catalog scant [] system)
    (ran : system.finishCompilation id = .ok next) : Sound catalog scant [] next :=
  finishCompilation_kept ran sound sound.finish fun _ _ _ sound taken => sound.takeResult taken

theorem processResults (sound : Sound catalog scant [] system) :
    Sound catalog scant [] system.processResults.2 :=
  onWorkshop sound.same sound.workshop.process.1 sound.workshop.process.2

/-! ### Maps given and given up -/

theorem loadInline {archive : List UInt8} {loaded : Bool} (sound : Sound catalog scant [] system)
    (ran : system.loadInline id archive = .ok (loaded, next)) : Sound catalog scant [] next := by
  obtain ⟨_, rfl⟩ | ⟨_, map, shared, later, _, adopts, _, rfl⟩ := loadInline_cases ran
  · exact sound
  · have known : Sound catalog scant [shared] later := by
      cases adopts with
      | live found => exact (sound.findMap found).1
      | own missing => exact ((sound.findMap missing).1.registerMap rfl).1
    refine (known.moved (.onResource id fun _ other has => .inr ?_)).plain
    exact Option.some.inj has ▸ List.mem_cons_self

theorem discardMap (sound : Sound catalog scant [] system)
    (ran : system.discardMap id = (.ok (), next)) : Sound catalog scant [] next := by
  obtain ⟨_, rfl⟩ := discardMap_eq_ok.mp ran
  exact sound.moved (.withoutMap _ _ id)

/-! ### Requests and the renderer -/

theorem request (sound : Sound catalog scant [] system) (request : CompileRequest)
    (full : request.identity ∉ scant → request.IsFull catalog) : Sound catalog scant []
      { system with workshop := (system.workshop.request system.heldMaps request).2 } := by
  have asked (permutation : Permutation)
      (needed : catalog.Needs scant request.identity permutation) :
      permutation ∈ request.permutations := by
    obtain ⟨known, variant, same, needed⟩ := needed
    exact full known variant same permutation needed
  have answers := sound.workshop.answers sound.written asked
    (system.workshop.yields_any _ request.identity system.heldMaps) rfl
  have served : Sound catalog scant _ { system with
    workshop := (system.workshop.request system.heldMaps request).2 } :=
    onWorkshop sound.same answers.sound answers.written
  exact served.plain

theorem attach_any (sound : Sound catalog scant [] system) (identity : MapIdentity)
    (resource : ResourceId) : Sound catalog scant []
      (system.onManager fun manager => (manager.attach identity resource).2) := by
  have joined : (system.workshop.manager.attach identity resource).2.Orderly
        (catalog.Needs scant) ∧
      system.workshop.manager.Trimmed (system.workshop.manager.attach identity resource).2 := by
    unfold Manager.attach
    split
    · rename_i job _
      exact ⟨sound.workshop.orderly.join job resource, .of_finished rfl (List.Subset.refl _)⟩
    · exact ⟨sound.workshop.orderly, .refl _⟩
  exact sound.onManager joined.1 joined.2

/-- The renderer gets no map from elsewhere. -/
theorem onRenderer {renderer : Renderer} (sound : Sound catalog scant [] system)
    (maps : ∀ shared ∈ renderer.maps, shared ∈ system.renderer.maps) :
    Sound catalog scant [] { system with renderer } :=
  sound.moved (.onRenderer fun shared member => List.mem_append_right _ (maps shared member))

end Sound

theorem sound_of_reached (respects : catalog.RespectsIdentity)
    (reached : Reached catalog scant system) : Sound catalog scant [] system := by
  induction reached with
  | start settings compiler store usesStore => exact .start settings compiler store usesStore
  | stop _ sound => exact sound.renewed
  | restart settings hasStore _ sound => exact sound.restart settings hasStore
  | shutdown _ sound => exact sound.shutdown
  | aside _ idle same resources renderer sound => exact sound.aside idle same resources renderer
  | addResource variant _ sound => exact sound.moved (.addResource _ _ variant)
  | vary id change _ sound => exact sound.moved (.onResource id fun _ _ => .inl)
  | dropResource id _ sound => exact sound.moved (.dropResource _ _ id)
  | cacheShaders _ ran sound => exact (sound.cacheShaders respects ran).1
  | complete _ distinct ran sound => exact sound.completeAny distinct ran
  | finishCompilation _ ran sound => exact sound.finishCompilation ran
  | cancelCompilation id _ sound => exact sound.cancelCompilation id
  | loadInline _ ran sound => exact sound.loadInline ran
  | publishInline id _ sound => exact sound.moved (.publishInline _ _ id)
  | releaseMap id _ sound =>
    exact (sound.cancelCompilation id).moved ((Moves.withoutMap _ _ id).trans (.publish _ _ id))
  | discardMap _ ran sound => exact sound.discardMap ran
  | registerMap map _ sound => exact (sound.registerMap rfl).1.plain
  | lookup identity _ sound => exact (sound.lookup rfl).1.plain
  | request request _ full sound => exact sound.request request full
  | attach identity resource _ sound => exact sound.attach_any identity resource
  | cancel resource jobs _ sound => exact sound.cancel resource jobs
  | take job resource _ sound => exact (sound.take rfl).plain
  | finish jobs _ sound => exact sound.finish jobs
  | processResults _ sound => exact sound.processResults
  | enqueue command _ silent sound => exact sound.moved (.enqueue silent)
  | carryOut _ queued ran sound =>
    exact sound.onRenderer fun _ => Renderer.mem_maps_of_apply queued ran
  | upkeep _ rests sound =>
    refine sound.onRenderer fun shared member => ?_
    unfold Renderer.maps at member ⊢
    rw [← rests.maps]
    exact member
  | leave _ sound => exact sound.onRenderer fun _ => List.mem_append_right _

/-! ### What a resource is ready with -/

/-- After an exchange for a map that is known, the resource has that very map. -/
theorem map_succeed {middle : System} {shared : SharedMap}
    (known : Sound catalog scant [shared] middle) {after : Resource}
    (there : (middle.succeed id shared).resources.get? id = some after)
    (has : after.map.isSome) : after.map = some shared := by
  obtain ⟨other, same⟩ := Option.isSome_iff_exists.mp has
  have offers := offered_eq_some there
  unfold succeed at offers
  rw [offered_setMap, if_pos rfl, same] at offers
  obtain ⟨_, _, equal⟩ := Option.map_eq_some_iff.mp offers
  have sound := (known.moved (.succeed id List.mem_cons_self)).genuine
  have member : other ∈ (middle.succeed id shared).resourceMaps :=
    mem_resourceMaps.mpr ⟨(id, after), Table.mem_entries_of_get? there, same⟩
  rw [same]
  refine congrArg some (sound.alike other ?_ shared ?_ (Option.some.inj equal).symm)
  · exact List.mem_append_left _ (List.mem_append_left _ (List.mem_append_right _ member))
  · exact List.mem_append_left _ (List.mem_append_left _ List.mem_cons_self)

/-- A map with whatever a material needs is complete. -/
theorem isComplete_of_meets {variant : Variant} {map : ShaderMap}
    (full : variant.identity catalog ∉ scant)
    (meets : map.Meets (catalog.Needs scant (variant.identity catalog))) :
    map.isComplete (variant.permutations catalog) := by
  obtain ⟨compiled, has⟩ := meets
  unfold ShaderMap.isComplete
  rw [compiled, Bool.true_and, List.all_eq_true]
  exact fun permutation member => has permutation ⟨full, variant, rfl, member⟩

/-- What is ready is compiled, and it is complete just if no live map is in its way that is
not. -/
theorem Ready.complete_iff {variant : Variant} {shared : SharedMap}
    (sound : Sound catalog scant [] system)
    (ready : Ready catalog scant system id (variant.identity catalog)
      (variant.permutations catalog) shared) :
    shared.map.isCompiled ∧ (variant.identity catalog ∉ scant →
      (shared.map.isComplete (variant.permutations catalog) ↔
        ∀ live, (system.cancelCompilation id).incumbent (variant.identity catalog) = some live →
          live.map.isComplete (variant.permutations catalog))) := by
  have before {live : SharedMap}
      (alive : (system.cancelCompilation id).incumbent (variant.identity catalog) = some live) :=
    incumbent_of_cancelCompilation sound alive
  cases ready with
  | found complete only =>
    refine ⟨(Bool.and_eq_true_iff.mp complete).1, fun _ =>
      ⟨fun _ live alive => ?_, fun _ => complete⟩⟩
    exact only live (before alive) ▸ complete
  | compiled compiled lacking yielded =>
    refine ⟨compiled, fun full => ⟨fun complete live alive => ?_, fun allComplete => ?_⟩⟩
    · -- The compile yields the live map, which lacks what this one has.
      obtain ⟨there, held⟩ := incumbent_eq_some.mp alive
      have same := yielded (fun shared => shared = live) (.inl ⟨live, there, held, rfl⟩)
      exact absurd (same ▸ complete) (lacking live (before alive))
    · -- Nothing is alive, so that the compile yields what it has made.
      have meets := yielded
        (fun shared => shared.map.Meets (catalog.Needs scant (variant.identity catalog)))
        (.inr ⟨fun live there held => ?_, fun _ _ meets => meets⟩)
      · exact isComplete_of_meets full meets
      · have alive := incumbent_eq_some.mpr ⟨there, held⟩
        exact lacking live (before alive) (allComplete live alive)

/-- The exact condition under which a map that is ready can be used. A resource that is not ready
has no map. One that is has a compiled map of its identity, and that map is complete unless, once
the resource has stopped waiting for older compiles, a map of the identity that is not complete
is alive: the compile then ends with that one. -/
theorem ready_map_usable (respects : catalog.RespectsIdentity)
    (reached : Reached catalog scant system) {ready : Bool} {resource : Resource}
    (there : system.resources.get? id = some resource)
    (ran : system.cacheShaders id = .ok (ready, next)) :
    ∃ after, next.resources.get? id = some after ∧ (ready = false → after.map = none) ∧
      (ready = true → ∃ shared, after.map = some shared ∧
        shared.map.identity = resource.variant.identity catalog ∧ shared.map.isCompiled ∧
        (resource.variant.identity catalog ∉ scant →
          (shared.map.isComplete (resource.variant.permutations catalog) ↔
            ∀ live, (system.cancelCompilation id).incumbent
                (resource.variant.identity catalog) = some live →
              live.map.isComplete (resource.variant.permutations catalog)))) := by
  have sound := sound_of_reached respects reached
  obtain ⟨_, gives⟩ := sound.cacheShaders respects ran
  obtain ⟨map, present, middle, quiet, same⟩ :=
    Exchanges.cacheShaders (by rw [there]; rfl) ran
  have offers : next.offered id = some (map.map SharedMap.id) := by
    rw [same, offered_setMap, if_pos rfl, quiet.offered, offered_eq_some there]
    rfl
  obtain ⟨after, found, has⟩ := Option.map_eq_some_iff.mp offers
  refine ⟨after, found, fun notReady => ?_, fun isReady => ?_⟩
  · rw [notReady] at present
    rw [Option.not_isSome_iff_eq_none.mp (Bool.eq_false_iff.mp present)] at has
    exact Option.map_eq_none_iff.mp has
  · obtain ⟨shared, origin, known, rfl, belongs, isReady'⟩ := gives isReady resource there
    obtain ⟨compiled, iff⟩ := isReady'.complete_iff sound
    refine ⟨shared, map_succeed known found ?_, belongs, compiled, iff⟩
    rw [← Option.isSome_map, has, Option.isSome_map, present, isReady]

/-- One shader, that every material wants. -/
def pixelCatalog : Catalog :=
  { shaderTypes := [{ name := "Pixel", kind := .plain, source := 0 }] }

theorem pixelCatalog_respectsIdentity : pixelCatalog.RespectsIdentity := fun _ _ _ => rfl

/-- A material without a graph, the only resource of a system that compiles that shader at once. -/
def painted : System :=
  (addResource {
    settings := { allowsAsyncCompilation := false }
    catalog := pixelCatalog
    workshop := { compiler := { compile := fun _ => .ok ⟨[], 0⟩ } } }
    { description := default }).2

theorem painted_reached : Reached pixelCatalog [] painted :=
  (Reached.start { allowsAsyncCompilation := false } { compile := fun _ => .ok ⟨[], 0⟩ } {}
    false).addResource _

/-- The map that is compiled for it has the shader. -/
theorem painted_map_usable : ∃ next after shared,
    painted.cacheShaders .first = .ok (true, next) ∧
      next.resources.get? .first = some after ∧ after.map = some shared ∧
      shared.map.isComplete [⟨"Pixel", none⟩] := by
  have there : painted.resources.get? .first =
    some { variant := { description := default } } := rfl
  have ready : (painted.cacheShaders .first).map Prod.fst = .ok true := by
    cbv
  obtain ⟨⟨done, next⟩, ran, rfl⟩ := map_eq_ok.mp ready
  obtain ⟨after, found, _, usable⟩ :=
    ready_map_usable pixelCatalog_respectsIdentity painted_reached there ran
  obtain ⟨shared, has, _, _, iff⟩ := usable rfl
  refine ⟨next, after, shared, ran, found, has, ?_⟩
  have unseen : (painted.cancelCompilation .first).incumbent
      (({ description := default } : Variant).identity pixelCatalog) = none := rfl
  have required : ({ description := default } : Variant).permutations pixelCatalog =
      [⟨"Pixel", none⟩] := List.mergeSort_singleton _
  rw [← required]
  refine (iff List.not_mem_nil).mpr fun live alive => ?_
  rw [unseen] at alive
  cases alive

/-- A map of that material without the shader. -/
def bareMap : ShaderMap where
  identity := {
    content := 0xa18c605e0e53c3ea01e1ee8a360ae271, quality := .high, tier := .desktop
    shaderTypes := [⟨"Pixel", 0⟩], factories := [], textures := 0x2c0a8a99dc147d5445c3b49d035665b2 }
  name := ""
  content := some { binaries := [], profile := {} }

/-- That map as a document. -/
def bareText : String :=
  "[[\"a18c605e0e53c3ea01e1ee8a360ae271\",\"High\",\"Desktop\"," ++
    "[[\"Pixel\",\"00000000000000000000000000000000\"]],[]," ++
    "\"2c0a8a99dc147d5445c3b49d035665b2\"],\"\",[],[[[],[],[],[],[],[],[],[],[]],\"\",0]]"

/-- The same map in an inline archive. -/
def bareArchive : List UInt8 := [0, 1, 182, 0, 0, 0, 0, 0, 0, 0] ++ Utf8.encode bareText

theorem read_bareArchive : InlineMap.read bareArchive = .ok ⟨false, some bareMap⟩ :=
  toOption_eq_some.mp (by decide +kernel)

/-- Taken from the archive the map is alive when the shader is compiled, and the resource is
reported ready with it. -/
theorem loaded_map_unusable : ∃ system resource next after shared,
    Reached pixelCatalog [] system ∧ system.resources.get? .first = some resource ∧
      system.cacheShaders .first = .ok (true, next) ∧
      next.resources.get? .first = some after ∧ after.map = some shared ∧
      shared.map.isComplete (resource.variant.permutations pixelCatalog) = false := by
  have lacking : (painted.loadInline .first bareArchive).toOption.bind (fun loaded =>
      (loaded.2.resources.get? .first).bind fun resource =>
        (loaded.2.cacheShaders .first).toOption.bind fun cached =>
          (cached.2.resources.get? .first).bind fun after => after.map.map fun shared =>
            (cached.1, shared.map.isComplete (resource.variant.permutations pixelCatalog))) =
      some (true, false) := by
    unfold loadInline
    rw [read_bareArchive]
    cbv
  obtain ⟨⟨loaded, system⟩, took, lacking⟩ := Option.bind_eq_some_iff.mp lacking
  obtain ⟨resource, there, lacking⟩ := Option.bind_eq_some_iff.mp lacking
  obtain ⟨⟨done, next⟩, ran, lacking⟩ := Option.bind_eq_some_iff.mp lacking
  obtain ⟨after, found, lacking⟩ := Option.bind_eq_some_iff.mp lacking
  obtain ⟨shared, has, lacking⟩ := Option.map_eq_some_iff.mp lacking
  obtain ⟨rfl, incomplete⟩ := Prod.mk.inj lacking
  exact ⟨system, resource, next, after, shared,
    painted_reached.loadInline (toOption_eq_some.mp took), there, toOption_eq_some.mp ran, found,
    has, incomplete⟩

end System

end Shading
