/-
One map for each identity. Maps come from compiles, from the store and from
inline archives, and each of these offers what it made to the registry, which
does not keep a map alive but knows who does. However a system has been used,
two maps of one identity that are held are the same map, whoever holds them,
and it is the one that the registry finds.

A library uses its system like anybody else. Whatever it does comes down to
orders, which only add to the queue of the renderer, to a choice of the material
that stands in for the others, and to waiting. All the while it tends its system
piece by piece, and each piece is something that can be done with a system
anyway.
-/

import Shading.Proofs.Compile.Managing
import Shading.Proofs.Material.Acting
import Shading.Proofs.Material.Persisting
import Shading.Proofs.Material.Tending

namespace Shading.System

open Workshop (Kept nothing Managed Stowed)

/-- How a system can have been used, and the maps in hand: anything that can be done with it, with
maps of any kind, and besides its compiles may be managed from elsewhere, and settings and
resources may become other ones. -/
inductive Used : List SharedMap → System → Prop where
  | start (settings : Settings) (catalog : Catalog) (compiler : Compiler) (store : MemoryStore)
    (usesStore : Bool) : Used [] {
      settings, catalog
      workshop := { compiler, store, usesStore }
      renderer := { world := {
        deferring := settings.defersUniformCaching, activeTiers := settings.activeTiers } } }
  | act {hand system told hand' next} : Used hand system →
    Acts (fun _ => True) hand system told hand' next → Used hand' next
  | manage {hand hand' system workshop} : Used hand system →
    Managed (system.stage hand) (hand' ++ system.strong, workshop) →
    Used hand' { system with workshop }
  | tune {hand system} (settings : Settings) : Used hand system → Used hand { system with settings }
  | vary {hand system} (id : ResourceId) (change : Variant → Variant) : Used hand system →
    Used hand (system.onResource id fun resource =>
      { resource with variant := change resource.variant })

variable {hand : List SharedMap} {system next : System}

/-- What lasts whatever is done with a workshop holds however a system has been used. -/
theorem Used.lasting {fact : Workshop.Stage → Prop} (lasting : Workshop.Lasting fact)
    (start : ∀ compiler store usesStore, fact ([], { compiler, store, usesStore }))
    (used : Used hand system) : fact (system.stage hand) := by
  induction used with
  | start settings catalog compiler store usesStore => exact start compiler store usesStore
  | act _ acts before =>
    exact lasting.proceeds before (acts.proceeds (lasting.kept before)
      (fun _ _ needed => needed.elim) fun _ _ compiled => ⟨compiled, fun _ needed => needed.elim⟩)
  | manage _ managed before => exact lasting.managed before managed
  | tune => assumption
  | vary id change _ before =>
    exact lasting.evolves before (Moves.evolves (.onResource id fun _ _ => .inl)
      (List.subset_append_left _ _))

theorem Used.kept (used : Used hand system) : Kept nothing (system.stage hand) :=
  used.lasting Kept.lasting Workshop.kept_start

theorem Used.distinct (used : Used hand system) : Workshop.Distinct (system.stage hand) :=
  used.lasting Workshop.Distinct.lasting Workshop.Distinct.start

/-! Nothing is left to be written either. Each call that takes in results of compiles writes the
maps they end with before it returns, so a call finds the store as the last one left it. -/

theorem Moves.stowed {known : List SharedMap} (moves : Moves known system next)
    (stowed : system.workshop.Stowed) : next.workshop.Stowed := moves.workshop ▸ stowed

theorem stowed_cancelCompilation (stowed : system.workshop.Stowed) (id : ResourceId) :
    (system.cancelCompilation id).workshop.Stowed :=
  (handled_cancelCompilation system id).stowed stowed

theorem Acts.stowed {loads : ShaderMap → Prop} {hand' : List SharedMap}
    {told : List Occurrence} (acts : Acts loads hand system told hand' next)
    (stowed : system.workshop.Stowed) : next.workshop.Stowed := by
  cases acts with
  | cacheShaders _ ran => exact (handled_cacheShaders ran).stowed stowed
  | complete given ran => exact (Moves.complete given ran).stowed stowed
  | finishCompilation ran => exact (handled_finishCompilation ran).stowed stowed
  | cancelCompilation id => exact stowed_cancelCompilation stowed id
  | loadInline _ ran => exact (handled_loadInline ran).stowed stowed
  | publishInline id => exact (Moves.publishInline [] system id).stowed stowed
  | releaseMap id =>
    exact ((Moves.withoutMap [] _ id).trans (.publish [] _ id)).stowed
      (stowed_cancelCompilation stowed id)
  | discardMap ran =>
    obtain ⟨_, rfl⟩ := System.discardMap_eq_ok.mp ran
    exact stowed
  | finish jobs => exact stowed.stowing.finish jobs
  | finishAll => exact stowed.finishAll
  | processResults => exact stowed.stowing.process
  | aside idle => exact idle.unwritten.trans stowed
  | addResource | vary | dropResource | enqueue | carryOut | upkeep | leave | hold | keep
  | forget => exact stowed

theorem Used.stowed (used : Used hand system) : system.workshop.Stowed := by
  induction used with
  | start => exact rfl
  | act _ acts stowed => exact acts.stowed stowed
  | manage _ managed stowed => exact Workshop.Stowed.managed stowed managed
  | tune _ _ stowed | vary _ _ _ stowed => exact stowed

/-- The maps that resources have are held. -/
theorem mem_held_of_resourceMaps {shared : SharedMap} (member : shared ∈ system.resourceMaps) :
    shared ∈ (system.stage hand).held :=
  List.mem_append_left _ (List.mem_append_right _ (List.mem_append_left _ member))

/-- The registry enters every map that is held, so that none has another of its identity beside
it. -/
theorem Used.sole (used : Used hand system) :
    ∀ left ∈ (system.stage hand).held, ∀ right ∈ (system.stage hand).held,
      left.map.identity = right.map.identity → left = right := by
  intro left memberLeft right memberRight same
  have entered := used.kept.entered left memberLeft
  rw [same] at entered
  exact Option.some.inj (entered.symm.trans (used.kept.entered right memberRight))

/-- Two maps that are held are the same if they have the same identity, whether resources hold
them, the renderer, commands in its queue, compiles whose results have not been handed out, or
whoever has been handed one; and the registry finds it. -/
theorem Used.one_map_per_identity (used : Used hand system) :
    (∀ left ∈ (system.stage hand).held, ∀ right ∈ (system.stage hand).held,
      left.map.identity = right.map.identity → left = right) ∧
    ∀ shared ∈ system.resourceMaps ++ system.renderer.maps ++ system.workshop.manager.maps,
      (system.findMap shared.map.identity).1 = some shared := by
  refine ⟨used.sole, fun shared member => ?_⟩
  have emptied : Kept nothing (system.stage []) :=
    used.kept.evolves (Moves.evolves (.refl hand system) (List.nil_subset _))
  exact congrArg Prod.fst (findMap_of_held emptied member)

/-- Two resources for the same material. -/
def paintedTwice : System := (painted.addResource { description := default }).2

theorem paintedTwice_used : Used [] paintedTwice :=
  .act (.act (.start { allowsAsyncCompilation := false } pixelCatalog
    { compile := fun _ => .ok ⟨[], 0⟩ } {} false) (.addResource _)) (.addResource _)

/-- After both have got their maps, they have the same one. -/
theorem painted_share_map : ∃ system first second left right, Used [] system ∧
    system.resources.get? .first = some first ∧
    system.resources.get? Identifier.first.next = some second ∧
    first.map = some left ∧ second.map = some right ∧ left = right ∧
    (system.findMap left.map.identity).1 = some left := by
  have ran : (paintedTwice.cacheShaders .first).toOption.bind (fun once =>
      (once.2.cacheShaders Identifier.first.next).toOption.bind fun twice =>
        (twice.2.resources.get? .first).bind fun first => first.map.bind fun left =>
          (twice.2.resources.get? Identifier.first.next).bind fun second =>
            second.map.map fun right => decide (left.map.identity = right.map.identity)) =
      some true := by
    cbv
  obtain ⟨⟨_, middle⟩, once, ran⟩ := Option.bind_eq_some_iff.mp ran
  obtain ⟨⟨_, system⟩, twice, ran⟩ := Option.bind_eq_some_iff.mp ran
  obtain ⟨first, foundFirst, ran⟩ := Option.bind_eq_some_iff.mp ran
  obtain ⟨left, hasLeft, ran⟩ := Option.bind_eq_some_iff.mp ran
  obtain ⟨second, foundSecond, ran⟩ := Option.bind_eq_some_iff.mp ran
  obtain ⟨right, hasRight, same⟩ := Option.map_eq_some_iff.mp ran
  have used : Used [] system := .act (.act paintedTwice_used
    (.cacheShaders (fun _ _ _ _ => trivial) (toOption_eq_some.mp once)))
    (.cacheShaders (fun _ _ _ _ => trivial) (toOption_eq_some.mp twice))
  have resourceMap {id : ResourceId} {resource : Resource} {shared : SharedMap}
      (found : system.resources.get? id = some resource) (has : resource.map = some shared) :
      shared ∈ system.resourceMaps :=
    mem_resourceMaps.mpr ⟨(id, resource), Table.mem_entries_of_get? found, has⟩
  obtain ⟨sole, finds⟩ := used.one_map_per_identity
  have memberLeft := resourceMap foundFirst hasLeft
  have memberRight := resourceMap foundSecond hasRight
  exact ⟨system, first, second, left, right, used, foundFirst, foundSecond, hasLeft, hasRight,
    sole left (mem_held_of_resourceMaps memberLeft) right (mem_held_of_resourceMaps memberRight)
      (of_decide_eq_true same),
    finds left (List.mem_append_left _ (List.mem_append_left _ memberLeft))⟩

end Shading.System

namespace Shading

/-- Something that a library can do. -/
inductive Library.Does : Library → Library → Prop where
  | addMaterial {library next description key} :
    Library.addMaterial library description = .ok (key, next) → Library.Does library next
  | setDefaultMaterial {library next description key} :
    Library.setDefaultMaterial library description = .ok (key, next) → Library.Does library next
  | replaceDescription {library next key description} :
    Library.replaceDescription library key description = .ok next → Library.Does library next
  | removeMaterial {library} (key : SlotKey) :
    Library.Does library (Library.removeMaterial library key)
  | addInstance {library next parent overrides result} :
    Library.addInstance library parent overrides = .ok (result, next) → Library.Does library next
  | removeInstance {library} (key : SlotKey) :
    Library.Does library (Library.removeInstance library key)
  | setParameter {library next target name value} :
    Library.setParameter library target name value = .ok next → Library.Does library next
  | clearParameter {library next target name} :
    Library.clearParameter library target name = .ok next → Library.Does library next
  | cacheShaders {library next target ready} :
    Library.cacheShaders library target = .ok (ready, next) → Library.Does library next
  | processResults {library next count} :
    Library.processResults library = .ok (count, next) → Library.Does library next
  | finishAll {library next count} :
    Library.finishAll library = .ok (count, next) → Library.Does library next
  | flush {library next} : Library.flush library = .ok next → Library.Does library next
  | commit {library next options targets} :
    Library.commit library options targets = .ok next → Library.Does library next
  | clear {library} : Library.Does library (Library.clear library)

/-- Something that a library can do without waiting for the renderer and without a choice of what
stands in for the rest, and the proxy of whom it removes, if anybody. -/
inductive Library.Orders : Library → Option ProxyId → Library → Prop where
  | addMaterial {library next description key} :
    Library.addMaterial library description = .ok (key, next) → Library.Orders library none next
  | replaceDescription {library next key description} :
    Library.replaceDescription library key description = .ok next →
    Library.Orders library none next
  | removeMaterial {library} (key : SlotKey) : Library.Orders library
    (Library.proxy? library (.material key)) (Library.removeMaterial library key)
  | addInstance {library next parent overrides result} :
    Library.addInstance library parent overrides = .ok (result, next) →
    Library.Orders library none next
  | removeInstance {library} (key : SlotKey) : Library.Orders library
    (Library.proxy? library (.derived key)) (Library.removeInstance library key)
  | setParameter {library next target name value} :
    Library.setParameter library target name value = .ok next → Library.Orders library none next
  | clearParameter {library next target name} :
    Library.clearParameter library target name = .ok next → Library.Orders library none next
  | cacheShaders {library next target ready} :
    Library.cacheShaders library target = .ok (ready, next) → Library.Orders library none next
  | processResults {library next count} :
    Library.processResults library = .ok (count, next) → Library.Orders library none next
  | finishAll {library next count} :
    Library.finishAll library = .ok (count, next) → Library.Orders library none next
  | commit {library next} {options : UpdateOptions} {targets} :
    Library.commit library { options with synchronous := false } targets = .ok next →
    Library.Orders library none next

namespace Library

variable {library next : Library}

/-- A batch that waits for the renderer is one that does not, and then the waiting. -/
theorem commit_eq {options : UpdateOptions} {targets : List Target}
    (ran : library.commit options targets = .ok next) :
    ∃ told, library.commit { options with synchronous := false } targets = .ok told ∧
      (told = next ∨ told.flush = .ok next) := by
  unfold commit at ran ⊢
  split at ran
  · rename_i nothing
    cases ran
    exact ⟨library, if_pos nothing, .inl rfl⟩
  · rename_i something
    rw [if_neg something]
    obtain ⟨first, targeted, ran⟩ := bind_eq_ok.mp ran
    obtain ⟨second, followed, ran⟩ := bind_eq_ok.mp ran
    rw [targeted]
    refine ⟨second.2.enqueue (.materialsUpdated (first.1 ++ second.1) options.recreates), ?_, ?_⟩
    · show Except.bind (updateEach updateDependent first.2 (first.2.dependentsOfAll targets)) _ = _
      rw [followed]
      rfl
    · dsimp only at ran
      unfold flushIf at ran
      split at ran
      · exact .inr ran
      · exact .inl (Except.ok.inj ran)

theorem Orders.does {removing : Option ProxyId} (orders : library.Orders removing next) :
    library.Does next := by
  cases orders with
  | addMaterial ran => exact .addMaterial ran
  | replaceDescription ran => exact .replaceDescription ran
  | removeMaterial key => exact .removeMaterial key
  | addInstance ran => exact .addInstance ran
  | removeInstance key => exact .removeInstance key
  | setParameter ran => exact .setParameter ran
  | clearParameter ran => exact .clearParameter ran
  | cacheShaders ran => exact .cacheShaders ran
  | processResults ran => exact .processResults ran
  | finishAll ran => exact .finishAll ran
  | commit ran => exact .commit ran

/-- What orders keep, and choosing and waiting too, is kept by whatever a library does. -/
theorem Does.kept {motive : Library → Prop}
    (ordered : ∀ {library removing next}, motive library → Orders library removing next →
      motive next)
    (chosen : ∀ {library description key next}, motive library →
      library.setDefaultMaterial description = .ok (key, next) → motive next)
    (flushed : ∀ {library next}, motive library → library.flush = .ok next → motive next)
    (start : motive library) (does : library.Does next) : motive next := by
  cases does with
  | addMaterial ran => exact ordered start (.addMaterial ran)
  | setDefaultMaterial ran => exact chosen start ran
  | replaceDescription ran => exact ordered start (.replaceDescription ran)
  | removeMaterial key => exact ordered start (.removeMaterial key)
  | addInstance ran => exact ordered start (.addInstance ran)
  | removeInstance key => exact ordered start (.removeInstance key)
  | setParameter ran => exact ordered start (.setParameter ran)
  | clearParameter ran => exact ordered start (.clearParameter ran)
  | cacheShaders ran => exact ordered start (.cacheShaders ran)
  | processResults ran => exact ordered start (.processResults ran)
  | finishAll ran => exact ordered start (.finishAll ran)
  | flush ran => exact flushed start ran
  | commit ran =>
    obtain ⟨told, committed, rfl | waited⟩ := commit_eq ran
    · exact ordered start (.commit committed)
    · exact flushed (ordered start (.commit committed)) waited
  | clear =>
    exact clear_kept (fun key before => ordered before (.removeInstance key))
      (fun key before => ordered before (.removeMaterial key)) start

end Library

namespace System

/-! ### Tending -/

variable {start : List FinishedCompile × System} {library later : Library}

/-- The pieces that every order may consist of. -/
structure Ordinary (allows : Piece → Prop) : Prop where
  common : ∀ {library : Library} piece, library.Common piece → allows piece
  concerns : ∀ {library : Library} {target} piece, library.Concerns target piece → allows piece
  settles : allows .settle

variable {allows : Piece → Prop} {removing : Option ProxyId}

/-- An order is to wait for results, or it does not apply any. -/
theorem Tended.unsettled (tended : Tended allows start [] library.system)
    (common : ∀ {library : Library} piece, library.Common piece → allows piece)
    (concerns : ∀ {library : Library} {target} piece, library.Concerns target piece → allows piece)
    (orders : library.Orders removing later) :
    Tended allows start [] later.system ∨
      ∃ count, library.processResults = .ok (count, later) ∨
        library.finishAll = .ok (count, later) := by
  have supplies : allows .supply := common _ (Library.Common.supply : library.Common .supply)
  have batching : Library.Batching fun library => Tended allows start [] library.system :=
    ⟨fun before => before.syncPermutation
        (fun variant => common _ (.addResource variant : library.Common _))
        (fun _ newer => common _ (.dropResource newer)) concerns,
      fun before => before.cacheTarget supplies,
      fun _ before => before.plainly common rfl, fun _ _ before => before.plainly common rfl⟩
  cases orders with
  | addMaterial ran => exact .inl (tended.addMaterial common ran)
  | replaceDescription ran =>
    exact .inl (tended.replaceDescription (fun _ _ _ owns => concerns _ (.vary _ owns)) ran)
  | removeMaterial key => exact .inl (tended.removeMaterial concerns)
  | addInstance ran => exact .inl (tended.addInstance common ran)
  | removeInstance key => exact .inl (tended.removeInstance concerns)
  | setParameter ran => exact .inl (tended.setParameter common ran)
  | clearParameter ran => exact .inl (tended.clearParameter common ran)
  | cacheShaders ran => exact .inl (batching.cached tended ran)
  | processResults ran => exact .inr ⟨_, .inl ran⟩
  | finishAll ran => exact .inr ⟨_, .inr ran⟩
  | commit ran =>
    rcases batching.commit tended ran with rfl | ⟨told, after, same⟩
    · exact .inl tended
    · cases same
      exact .inl after

theorem Tended.orders (tended : Tended allows start [] library.system)
    (ordinary : Ordinary allows) (orders : library.Orders removing later) :
    Tended allows start [] later.system := by
  obtain ⟨common, concerns, settles⟩ := ordinary
  rcases tended.unsettled common concerns orders with after | ⟨_, ran | ran⟩
  · exact after
  · exact tended.processResults settles ran
  · exact tended.finishAll settles ran

/-- All pieces of work. -/
abbrev anything : Piece → Prop := fun _ => True

/-- Whatever is done with a library, its system is tended. -/
theorem Tended.does (tended : Tended anything start [] library.system)
    (does : library.Does later) : Tended anything start [] later.system :=
  Library.Does.kept (motive := fun library => Tended anything start [] library.system)
    (fun before orders => before.orders ⟨fun _ _ => trivial, fun _ _ => trivial, trivial⟩ orders)
    (fun before chosen => before.setDefaultMaterial (fun _ _ => trivial) (fun _ => trivial) chosen)
    (fun before ran => before.flush (fun _ _ => trivial) trivial ran) tended does

/-! ### Using a system -/

/-- One use of a system, with the maps in hand before and afterwards. -/
inductive Uses : List SharedMap × System → List SharedMap × System → Prop where
  | act {hand system told hand' next} : Acts (fun _ => True) hand system told hand' next →
    Uses (hand, system) (hand', next)
  | manage {hand hand' system workshop} :
    Workshop.Managed (system.stage hand) (hand' ++ system.strong, workshop) →
    Uses (hand, system) (hand', { system with workshop })
  | tune {hand system} (settings : Settings) :
    Uses (hand, system) (hand, { system with settings })
  | vary {hand system} (id : ResourceId) (change : Variant → Variant) :
    Uses (hand, system) (hand, system.onResource id fun resource =>
      { resource with variant := change resource.variant })

theorem Used.uses {hand hand' : List SharedMap} {system next : System} (used : Used hand system)
    (uses : Uses (hand, system) (hand', next)) : Used hand' next := by
  cases uses with
  | act acts => exact used.act acts
  | manage managed => exact used.manage managed
  | tune settings => exact used.tune settings
  | vary id change => exact used.vary id change

/-- What was made of the maps that have been handed out is in hand. -/
theorem Tends.uses {piece : Piece} {due due' : List FinishedCompile} {system next : System}
    (tends : Tends piece (due, system) (due', next)) :
    Relation.ReflTransGen Uses (due.filterMap FinishedCompile.map?, system)
      (due'.filterMap FinishedCompile.map?, next) := by
  have once {hand hand' : List SharedMap} {system next : System} {told : List Occurrence}
      (acts : Acts (fun _ => True) hand system told hand' next) :
      Relation.ReflTransGen Uses (hand, system) (hand', next) := .single (.act acts)
  cases tends with
  | addResource variant => exact once (.addResource variant)
  | vary id change => exact .single (.vary id change)
  | releaseMap id => exact once (.releaseMap id)
  | dropResource id => exact once (.dropResource id)
  | createProxy kind =>
    have numbered : Acts (fun _ => True) (due.filterMap FinishedCompile.map?) system [] _
        system.freshProxy.2 := .aside ⟨rfl, rfl, rfl, rfl, rfl, rfl, rfl⟩ rfl rfl rfl rfl rfl
    exact (once numbered).tail (.act (.enqueue _ rfl))
  | tell command silent => exact once (.enqueue command silent)
  | cacheShaders ran => exact once (.cacheShaders (fun _ _ _ _ => trivial) ran)
  | finishAll => exact once .finishAll
  | processResults => exact once .processResults
  | complete handed ran =>
    refine once (.complete (fun shared made => List.mem_filterMap.mpr ⟨_, handed, ?_⟩) ran)
    unfold FinishedCompile.map?
    rw [made]
    rfl
  | conclude => exact once (.hold (List.nil_subset _))
  | carryOut queued applied => exact once (.carryOut queued applied)
  | updateDeferred deferred =>
    exact once (.upkeep (World.Rests.lasting.updateDeferred ⟨rfl, rfl⟩ deferred))

theorem Tended.uses {allows : Piece → Prop} {start : List FinishedCompile × System}
    {due : List FinishedCompile} {system : System} (tended : Tended allows start due system) :
    Relation.ReflTransGen Uses (start.1.filterMap FinishedCompile.map?, start.2)
      (due.filterMap FinishedCompile.map?, system) :=
  tended.kept (motive := fun due system => Relation.ReflTransGen Uses _
    (due.filterMap FinishedCompile.map?, system)) (fun _ before tends => before.trans tends.uses)
    .refl

/-- Whatever is done with a library is a way of using its system. -/
theorem Used.does {library later : Library} (used : Used [] library.system)
    (does : library.Does later) : Used [] later.system := by
  have follow {first last : List SharedMap × System} (uses : Relation.ReflTransGen Uses first last)
      (used : Used first.1 first.2) : Used last.1 last.2 := by
    induction uses with
    | refl => exact used
    | tail _ uses before => exact before.uses uses
  exact follow ((Tended.rest anything [] library.system).does does).uses used

/-- So resources share their maps, whatever has been done with a library: those whose maps have
one identity have one map. -/
theorem Used.resources_share {library later : Library} (used : Used [] library.system)
    (does : Relation.ReflTransGen Library.Does library later) :
    ∀ left ∈ later.system.resourceMaps, ∀ right ∈ later.system.resourceMaps,
      left.map.identity = right.map.identity → left = right := by
  have after : Used [] later.system := by
    induction does with
    | refl => exact used
    | tail _ does before => exact before.does does
  exact fun left memberLeft right memberRight =>
    after.sole left (mem_held_of_resourceMaps memberLeft) right
      (mem_held_of_resourceMaps memberRight)

end System

end Shading
