/-
What is left of a library that goes. All that a library has ever made belongs to
its targets, and each of them takes what is its own along when it is removed. So
once all are gone, and the renderer has heard of it, nothing is left: no resource
and no proxy, no entry in any index, no compile and no map, whatever was going on
before. Of the streaming textures only what the producers brought with them stays.
-/

import Shading.Proofs.Material.Housing
import Shading.Proofs.Material.Outstanding
import Shading.Proofs.Material.Resolving

namespace Shading

/-- A table in which nothing is found has no entries. -/
theorem Table.eq_empty {κ β : Type} [DecidableEq κ] {table : Table κ β}
    (nothing : ∀ key, table.get? key = none) : table = .empty := by
  obtain ⟨entries⟩ := table
  cases entries with
  | nil => rfl
  | cons entry rest =>
    have found := nothing entry.1
    unfold Table.get? at found
    rw [List.find?_cons_of_pos (by exact decide_eq_true rfl)] at found
    cases found

/-! ### Systems that have been left -/

/-- Nothing is left in a system but producers, and what was allocated together with them. -/
structure System.Vacated (system : System) : Prop where
  resources : system.resources = .empty
  materials : system.renderer.world.materials = .empty
  proxies : system.renderer.world.proxies = .empty
  default : system.renderer.world.defaultProxy = none
  deferred : system.renderer.world.deferred = []
  users : ∀ resource, Index.entriesOf system.renderer.world.users resource = []
  children : ∀ parent, Index.entriesOf system.renderer.world.children parent = []
  builtFrom : ∀ resource, Index.entriesOf system.renderer.world.builtFrom resource = []
  allocations : ∀ allocation, system.renderer.world.streaming.Allocated allocation ↔
    ∃ id producer, system.renderer.world.streaming.producers.get? id = some producer ∧
      producer.preallocated = some allocation
  subscribers : ∀ id producer, system.renderer.world.streaming.producers.get? id = some producer →
    producer.subscribers = []
  underway : system.workshop.manager.jobs = .empty
  byIdentity : system.workshop.manager.byIdentity = .empty
  finished : system.workshop.manager.finished = []
  maps : system.workshop.liveMaps system.heldMaps = 0

namespace System

variable {system : System} {created : List ProxyId} {produced : List ProducerId}

/-- Where nobody waits for a compile there is none. -/
theorem Agrees.idle (agrees : Agrees settled system) (idle : ∀ id, system.jobsOf id = []) :
    system.workshop.manager.jobs = .empty ∧ system.workshop.manager.byIdentity = .empty ∧
      system.workshop.manager.finished = [] := by
  obtain ⟨_, accounts, waits⟩ := agrees.engages
  have regular := accounts.ordered.regular
  have nobody (job : JobId) (id : ResourceId) : ¬system.workshop.manager.Waits job id := by
    refine (waits job id).not.mpr fun both => ?_
    have waiting : job ∈ system.jobsOf id := both.1
    rw [idle] at waiting
    cases waiting
  have grounded (job : JobId) : system.workshop.manager.jobs.get? job = none := by
    by_contra there
    obtain ⟨entry, found⟩ := Option.ne_none_iff_exists'.mp there
    obtain ⟨id, member⟩ := List.exists_mem_of_ne_nil _ (regular.underway job entry found).1
    exact nobody job id (.inl ⟨entry, found, member⟩)
  refine ⟨Table.eq_empty grounded, Table.eq_empty fun identity => ?_,
    List.eq_nil_iff_forall_not_mem.mpr fun compile member => ?_⟩
  · refine Option.eq_none_iff_forall_ne_some.mpr fun job found => ?_
    obtain ⟨entry, there, _⟩ := (regular.indexed identity job).mp found
    cases (grounded job).symm.trans there
  · obtain ⟨id, waiting⟩ := List.exists_mem_of_ne_nil _ (regular.ended compile member).1
    exact nobody compile.job id (.inr ⟨compile, member, rfl, waiting⟩)

/-- A house in order that nobody lives in any more. -/
theorem Housed.vacated (housed : Housed created produced system)
    (agrees : Agrees settled system) (resources : ∀ id, system.resources.get? id = none)
    (materials : ∀ id, system.renderer.world.materials.get? id = none)
    (proxies : ∀ proxy, system.renderer.world.proxies.get? proxy = none)
    (default : system.renderer.world.defaultProxy = none)
    (queue : system.renderer.queue = []) : system.Vacated := by
  obtain ⟨children, users, builtFrom, deferred⟩ := housed.tidy.deserted proxies
  have uncached (proxy : ProxyId) (tier : Tier) :
      system.renderer.world.cacheOf proxy tier = none := by
    unfold World.cacheOf
    rw [proxies]
    rfl
  obtain ⟨underway, byIdentity, finished⟩ := agrees.idle fun id => by
    unfold jobsOf
    rw [resources]
    rfl
  have resources := Table.eq_empty resources
  have materials := Table.eq_empty materials
  refine ⟨resources, materials, Table.eq_empty proxies, default, deferred, users, children,
    builtFrom, fun allocation => ?_, fun id producer found => ?_, underway, byIdentity, finished,
    ?_⟩
  · rw [housed.attended.apportioned.allocated]
    constructor
    · rintro ⟨owner, member⟩
      cases owner with
      | cache proxy tier =>
        rw [World.owned_cache (uncached proxy tier)] at member
        cases member
      | producer id =>
        obtain ⟨producer, found, preallocated⟩ :=
          Option.bind_eq_some_iff.mp (Option.mem_toList.mp member)
        exact ⟨id, producer, found, preallocated⟩
    · rintro ⟨id, producer, found, preallocated⟩
      exact ⟨.producer id, Option.mem_toList.mpr
        (Option.bind_eq_some_iff.mpr ⟨producer, found, preallocated⟩)⟩
  · refine List.eq_nil_iff_forall_not_mem.mpr fun proxy member => ?_
    obtain ⟨tier, cache, there, _⟩ := housed.attended.reads proxy id ⟨producer, found, member⟩
    cases (uncached proxy tier).symm.trans there
  · have held : system.workshop.heldMaps system.heldMaps = [] := by
      unfold Workshop.heldMaps System.heldMaps Renderer.heldMaps World.heldMaps Manager.heldMaps
      rw [resources, materials, queue, finished, housed.stowed]
      rfl
    unfold Workshop.liveMaps Registry.size
    rw [held]
    exact List.length_eq_zero_iff.mpr (List.filter_eq_nil_iff.mpr fun _ _ => by simp)

end System

namespace Library

variable {library next : Library}

/-! ### Nobody stays -/

theorem role?_removeMaterial (library : Library) (key : SlotKey) (other : Target) :
    (library.removeMaterial key).role? other =
      if other = .material key then none else library.role? other := by
  have entries : (library.removeMaterial key).derived = library.derived ∧
      ∀ other, (library.removeMaterial key).materials.get? other =
        if other = key then none else library.materials.get? other := by
    cases found : library.materials.get? key with
    | none =>
      rw [removeMaterial_of_missing found]
      refine ⟨rfl, fun other => ?_⟩
      split
      · rename_i same
        exact same ▸ found
      · rfl
    | some material =>
      rw [removeMaterial_of_found found]
      have drops := releaseResources_drops
        { library.relieved key with materials := library.materials.erase key } material.resources
      exact ⟨drops.derived, fun other =>
        (congrArg (Slots.get? · other) drops.materials).trans (Slots.get?_erase ..)⟩
  exact role?_of_materials entries.1 entries.2 other

theorem role?_removeInstance (library : Library) (key : SlotKey) (other : Target) :
    (library.removeInstance key).role? other =
      if other = .derived key then none else library.role? other := by
  have entries : (library.removeInstance key).materials = library.materials ∧
      ∀ other, (library.removeInstance key).derived.get? other =
        if other = key then none else library.derived.get? other := by
    unfold Library.removeInstance
    split
    · rename_i missing
      refine ⟨rfl, fun other => ?_⟩
      split
      · rename_i same
        exact same ▸ missing
      · rfl
    · rename_i entry found
      have drops := releaseResources_drops
        { library with derived := library.derived.erase key } entry.resources
      exact ⟨drops.materials, fun other =>
        (congrArg (Slots.get? · other) drops.derived).trans (Slots.get?_erase ..)⟩
  exact role?_of_derived entries.1 entries.2 other

/-- Where each removal takes one target away, many take all of them away. -/
theorem role?_foldl {remove : Library → SlotKey → Library} {target : SlotKey → Target}
    (removes : ∀ library key other, (remove library key).role? other =
      if other = target key then none else library.role? other)
    (keys : List SlotKey) (library : Library) (other : Target) :
    (keys.foldl remove library).role? other =
      if other ∈ keys.map target then none else library.role? other := by
  induction keys generalizing library with
  | nil => rfl
  | cons key rest inductionHypothesis =>
    rw [List.foldl_cons, inductionHypothesis, removes, List.map_cons]
    simp only [List.mem_cons]
    split <;> split <;> simp_all

/-- No target is left in a library that has been cleared. -/
theorem role?_clear (library : Library) (target : Target) : library.clear.role? target = none := by
  unfold clear
  rw [role?_foldl role?_removeMaterial, role?_foldl role?_removeInstance]
  split
  · rfl
  · rename_i notMaterial
    split
    · rfl
    · rename_i notInstance
      refine Option.eq_none_iff_forall_ne_some.mpr fun role found => ?_
      cases target with
      | material key =>
        obtain ⟨_, there, _⟩ := Option.map_eq_some_iff.mp found
        exact notMaterial (List.mem_map_of_mem
          (List.mem_mergeSort.mpr (Table.mem_keys_of_get? there)))
      | derived key =>
        obtain ⟨_, there, _⟩ := Option.map_eq_some_iff.mp found
        exact notInstance (List.mem_map_of_mem
          (List.mem_mergeSort.mpr (Table.mem_keys_of_get? there)))

/-! ### Libraries on their own -/

/-- What a library does consists of pieces of work that number nothing behind its back. -/
theorem ordinary_discreet : System.Ordinary System.Piece.Discreet where
  common := fun piece common => by
    cases common with
    | @tell command plain => cases command <;> first | exact ⟨rfl, rfl⟩ | cases plain
    | _ => trivial
  concerns := fun piece concerns => by
    cases concerns with
    | setMaterials | removeProxy => exact ⟨rfl, rfl⟩
    | _ => trivial
  settles := trivial

theorem inOrder_does (inOrder : library.system.InOrder) (does : library.Does next) :
    next.system.InOrder := by
  refine does.kept (motive := fun library => library.system.InOrder) (fun before orders => ?_)
    (fun before chosen => ?_) (fun before flushed => ?_) inOrder
  · exact ((System.Tended.rest _ [] _).orders ordinary_discreet orders).inOrder before
  · have tended := (System.Tended.rest System.Piece.Discreet [] _).setDefaultMaterial
      ordinary_discreet.common (fun _ => ⟨rfl, rfl⟩) chosen
    exact tended.inOrder before
  · have tended := (System.Tended.rest System.Piece.Discreet [] _).flush
      ordinary_discreet.common trivial flushed
    exact tended.inOrder before

/-- What can have happened to a library that has a system to itself. The renderer works at any
time, others create and destroy producers and have it see to its caches; the compiler answers in
whatever order, and it may be exchanged for another one; the registry and the store are used and
the settings change. But nobody else asks for maps or keeps any, and all proxies are those of the
library. -/
inductive Alone : Library → Prop where
  | start (system : System) (deferring : Bool) (activeTiers : List Tier) :
    system.resources = .empty → system.renderer = { world := { deferring, activeTiers } } →
    Traffic.Fresh ⟨system.workshop, [], [], []⟩ → Alone { system }
  | does {library next : Library} : Alone library → Does library next → Alone next
  | release {library : Library} (position : Option Nat) : Alone library →
    Alone { library with system := { library.system with
      workshop := (library.system.workshop.release position).2 } }
  | aside {library : Library} {workshop : Workshop} : Alone library →
    library.system.workshop.Aside workshop →
    workshop.manager.unwritten = library.system.workshop.manager.unwritten →
    Alone { library with system := { library.system with workshop } }
  | tune {library : Library} (settings : Settings) (catalog : Catalog) : Alone library →
    Alone { library with system := { library.system with settings, catalog } }
  | carryOut {library : Library} {command rest world} : Alone library →
    library.system.renderer.queue = command :: rest →
    library.system.renderer.world.apply command = .ok world →
    Alone { library with system := { library.system with
      renderer := { library.system.renderer with world, queue := rest } } }
  | upkeep {library : Library} {operation : Operation} {world} : Alone library →
    operation.IsUpkeep → operation.carryOut library.system.renderer.world = .ok world →
    Alone { library with system := { library.system with
      renderer := { library.system.renderer with world } } }
  | createProducer {library : Library} (texture : TextureId) (tile border : UInt32)
      (preallocates : Bool) : Alone library →
    Alone ({ library with system := library.system.freshProducer.2 }.enqueue
      (.createProducer library.system.freshProducer.1 texture tile border preallocates))
  | tell {library : Library} (command : RenderCommand) : Alone library →
    command.resource? = none → (∀ cast, command.recast cast = cast) →
    command.IntroducesNothing → Alone (library.enqueue command)

/-- The renderer remains a mirror while it sees to its caches. -/
theorem Mirrored.maintain {operation : Operation} {world : World} (mirrored : library.Mirrored)
    (upkeep : operation.IsUpkeep)
    (ran : operation.carryOut library.system.renderer.world = .ok world) :
    Mirrored { library with system := { library.system with
      renderer := { library.system.renderer with world } } } := by
  have rests : World.Lasting (World.Rests library.system.renderer.world) := World.Rests.lasting
  have casts := World.lasting_cast library.system.renderer.world.cast
  cases operation with
  | perform | announce => exact upkeep.elim
  | updateDeferred =>
    obtain ⟨_, updated, rfl⟩ := map_eq_ok.mp ran
    exact mirrored.upkeep (rests.updateDeferred ⟨rfl, rfl⟩ updated)
      (casts.updateDeferred rfl updated)
  | updateIfNeeded =>
    exact mirrored.upkeep (rests.updateIfNeeded ⟨rfl, rfl⟩ ran) (casts.updateIfNeeded rfl ran)
  | evaluate =>
    obtain ⟨_, evaluated, rfl⟩ := map_eq_ok.mp ran
    exact mirrored.upkeep (rests.evaluate ⟨rfl, rfl⟩ evaluated) (casts.evaluate rfl evaluated)
  | prepareDraw =>
    obtain ⟨_, prepared, rfl⟩ := map_eq_ok.mp ran
    exact mirrored.upkeep (rests.prepareDraw ⟨rfl, rfl⟩ prepared) (casts.prepareDraw rfl prepared)
  | invalidate =>
    exact mirrored.upkeep (World.Rests.invalidate ⟨rfl, rfl⟩ ran) (World.cast_invalidate ran)

/-- Settings, catalog and the numbers of producers are nothing to the mirror. -/
theorem Mirrored.aside {system : System} (mirrored : library.Mirrored)
    (renderer : system.renderer = library.system.renderer)
    (resources : system.resources = library.system.resources)
    (nextResource : system.nextResource = library.system.nextResource)
    (nextProxy : system.nextProxy = library.system.nextProxy) :
    Mirrored { library with system } := by
  have offered : system.offered = library.system.offered := by
    unfold System.offered
    rw [resources]
  refine ⟨mirrored.faithful.congr renderer offered,
    mirrored.staged.congr (.of_slots rfl rfl) rfl ?_ nextProxy rfl,
    mirrored.stocked.congr rfl (fun id => ?_) nextResource⟩
  · exact congrArg Renderer.cast renderer
  · unfold System.variantOf
    rw [resources]

namespace Alone

theorem agrees (alone : Alone library) :
    System.Agrees System.settled library.system ∧ library.Listed := by
  induction alone with
  | start system _ _ none _ fresh => exact (Works.start system none fresh).agrees
  | does _ does before => exact agrees_does before.1 before.2 does
  | release position _ before =>
    exact ⟨before.1.onWorkshop (before.1.engages_settled.release position), before.2⟩
  | aside _ aside _ before =>
    exact ⟨before.1.onWorkshop (before.1.engages_settled.aside aside), before.2⟩
  | tune _ _ _ before | carryOut _ _ _ before | upkeep _ _ _ before
  | createProducer _ _ _ _ _ before | tell _ _ _ _ _ before =>
    exact ⟨before.1.aloof (.of_same rfl rfl rfl), before.2⟩

theorem mirrored (alone : Alone library) : library.Mirrored := by
  induction alone with
  | start system deferring activeTiers none renderer =>
    refine mirrored_start system none ?_ ?_ ?_ ?_ ?_ <;> rw [renderer]
  | does _ does before => exact before.does does
  | release _ _ before | aside _ _ _ before => exact before.onWorkshop _
  | tune _ _ _ before => exact before.aside rfl rfl rfl rfl
  | carryOut _ queued ran before => exact before.carryOut queued ran
  | upkeep _ upkeep ran before => exact before.maintain upkeep ran
  | @createProducer library texture tile border preallocates _ before =>
    have numbered : Mirrored { library with system := library.system.freshProducer.2 } :=
      before.aside rfl rfl rfl rfl
    exact numbered.enqueue rfl fun _ => rfl
  | tell command _ elsewhere idle _ before => exact before.enqueue elsewhere idle

theorem inOrder (alone : Alone library) : library.system.InOrder := by
  induction alone with
  | start system deferring activeTiers none renderer fresh =>
    refine ⟨[], [], ?_, ?_, ?_, ?_, ?_⟩
    · unfold Workshop.Stowed
      rw [fresh.manager]
    all_goals rw [renderer]
    · exact .start deferring activeTiers
    · exact .start deferring activeTiers
    · exact .nothing _
    · exact .nothing _
  | does _ does before => exact inOrder_does before does
  | @release library position _ before =>
    obtain ⟨_, _, housed⟩ := before
    have stowed := (library.system.workshop.unwritten_release position).trans housed.stowed
    exact ⟨_, _, housed.aside stowed rfl rfl rfl⟩
  | aside _ _ unwritten before =>
    obtain ⟨_, _, housed⟩ := before
    exact ⟨_, _, housed.aside (unwritten.trans housed.stowed) rfl rfl rfl⟩
  | tune _ _ _ before =>
    obtain ⟨_, _, housed⟩ := before
    exact ⟨_, _, housed.aside housed.stowed rfl rfl rfl⟩
  | carryOut _ queued ran before =>
    obtain ⟨_, _, housed⟩ := before
    exact ⟨_, _, housed.carryOut queued ran⟩
  | upkeep _ upkeep ran before =>
    obtain ⟨_, _, housed⟩ := before
    exact ⟨_, _, housed.upkeep upkeep ran⟩
  | createProducer texture tile border preallocates _ before =>
    obtain ⟨_, _, housed⟩ := before
    exact ⟨_, _, housed.createProducer texture tile border preallocates⟩
  | tell command _ _ _ introduces before =>
    obtain ⟨_, _, housed⟩ := before
    exact ⟨_, _, housed.enqueue introduces⟩

/-- A library without targets has left once nothing is queued. -/
theorem vacated (alone : Alone library) (queue : library.system.renderer.queue = [])
    (nobody : ∀ target, library.role? target = none) : library.system.Vacated := by
  obtain ⟨created, produced, housed⟩ := alone.inOrder
  have mirrors := alone.mirrored.settles queue
  have bare (target : Target) (id : ResourceId) : ¬library.Owns target id := by
    rintro ⟨tier, has⟩
    rw [ownResources_eq, nobody, Option.map_none, Option.getD_none, PerTier.get_fill] at has
    cases has
  have unplaced (target : Target) : library.proxy? target = none := by
    rw [proxy?_eq, nobody, Option.map_none]
  refine housed.vacated alone.agrees.1 (fun id => ?_) (fun id => ?_) (fun proxy => ?_) ?_ queue
  · by_contra there
    obtain ⟨resource, found⟩ := Option.ne_none_iff_exists'.mp there
    obtain ⟨target, owns⟩ := (alone.mirrored.stocked.owned id).mp (by
      unfold System.variantOf
      rw [found]
      rfl)
    exact bare target id owns
  · by_contra there
    obtain ⟨target, owns⟩ := (mirrors.resources id).mp (Option.isSome_iff_ne_none.mpr there)
    exact bare target id owns
  · by_contra there
    obtain ⟨target, placed⟩ := (mirrors.proxies proxy).mp (Option.isSome_iff_ne_none.mpr there)
    cases (unplaced target).symm.trans placed
  · rw [mirrors.default]
    cases library.defaultMaterial with
    | none => rfl
    | some key => exact unplaced (.material key)

/-- A library that goes leaves nothing behind. -/
theorem clear_vacates {count : Nat} {renderer : Renderer} (alone : Alone library)
    (ran : library.clear.system.renderer.processCommands = .ok (count, renderer)) :
    System.Vacated { library.clear.system with renderer } := by
  obtain ⟨after, queue⟩ := Renderer.processCommands_kept
    (motive := fun renderer =>
      Alone { library.clear with system := { library.clear.system with renderer } })
    (fun _ _ _ _ before queued ran => before.carryOut queued ran) (alone.does .clear) ran
  exact after.vacated queue library.role?_clear

end Alone

/-- Two materials with their maps, an instance that is being compiled, and a producer that has
brought an allocation along: of all these only the producer and the allocation stay. -/
theorem press_vacates : ∃ library count renderer, Alone library ∧
    library.system.workshop.manager.jobs.size = 1 ∧
    library.system.workshop.liveMaps library.system.heldMaps = 2 ∧
    library.system.renderer.world.proxies.size = 3 ∧
    library.clear.system.renderer.processCommands = .ok (count, renderer) ∧
    renderer.world.streaming.allocations.size = 1 ∧
    System.Vacated { library.clear.system with renderer } := by
  let supply (library : Library) : Library :=
    { library with system := library.system.freshProducer.2 }.enqueue
      (.createProducer library.system.freshProducer.1 ⟨1⟩ 128 4 true)
  have run : (press.setDefaultMaterial (switched false)).toOption.bind (fun first =>
      (first.2.addMaterial (switched true)).toOption.bind fun second =>
        second.2.finishAll.toOption.bind fun finished =>
          (finished.2.addInstance (.material second.1)
              (.ofSwitches [("Detail", false)])).toOption.bind fun made =>
            (supply made.2).flush.toOption.bind fun library =>
              library.clear.system.renderer.processCommands.toOption.map fun done =>
                (library.system.workshop.manager.jobs.size,
                  library.system.workshop.liveMaps library.system.heldMaps,
                  library.system.renderer.world.proxies.size,
                  done.2.world.streaming.allocations.size)) = some (1, 2, 3, 1) := by
    cbv
  obtain ⟨first, choosing, run⟩ := Option.bind_eq_some_iff.mp run
  obtain ⟨second, adding, run⟩ := Option.bind_eq_some_iff.mp run
  obtain ⟨⟨_, finished⟩, finishing, run⟩ := Option.bind_eq_some_iff.mp run
  obtain ⟨⟨_, made⟩, making, run⟩ := Option.bind_eq_some_iff.mp run
  obtain ⟨library, flushing, run⟩ := Option.bind_eq_some_iff.mp run
  obtain ⟨⟨count, renderer⟩, processing, same⟩ := Option.map_eq_some_iff.mp run
  obtain ⟨jobs, maps, proxies, allocations⟩ := by simpa only [Prod.mk.injEq] using same
  have start : Alone press :=
    .start press.system true [.desktop] rfl rfl ⟨rfl, rfl, rfl, rfl, rfl⟩
  have alone : Alone library := start
    |>.does (.setDefaultMaterial (toOption_eq_some.mp choosing))
    |>.does (.addMaterial (toOption_eq_some.mp adding))
    |>.does (.finishAll (toOption_eq_some.mp finishing))
    |>.does (.addInstance (toOption_eq_some.mp making))
    |>.createProducer ⟨1⟩ 128 4 true
    |>.does (.flush (toOption_eq_some.mp flushing))
  have done := toOption_eq_some.mp processing
  exact ⟨library, count, renderer, alone, jobs, maps, proxies, done, allocations,
    alone.clear_vacates done⟩

end Library

end Shading
