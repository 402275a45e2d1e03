/-
Systems in good order. The workshop of a system stays sound, and no number is
ever used for two maps, whatever resources and the renderer do with maps that
are known already.
-/

import Shading.Material.Session
import Shading.Proofs.Compile.Awaiting
import Shading.Proofs.Material.Moving

namespace Shading

/-- Materials of one identity need the same permutations: whatever a shader type or a vertex
factory looks at when it accepts a material has entered the identity. -/
def Catalog.RespectsIdentity (catalog : Catalog) : Prop :=
  ∀ left right : Variant, left.identity catalog = right.identity catalog →
    left.permutations catalog = right.permutations catalog

/-- What a map of an identity must have: the permutations of the materials with that identity.
Nothing is needed for an identity for which less may have been asked. -/
def Catalog.Needs (catalog : Catalog) (scant : List MapIdentity) (identity : MapIdentity)
    (permutation : Permutation) : Prop :=
  identity ∉ scant ∧
    ∃ variant : Variant, variant.identity catalog = identity ∧
      permutation ∈ variant.permutations catalog

namespace System

variable {catalog : Catalog} {scant : List MapIdentity} {extra : List SharedMap}
  {system next : System}
  {id : ResourceId} {identity : MapIdentity}

theorem mem_heldMaps {map : MapId} : map ∈ system.heldMaps ↔
    (∃ shared ∈ system.resourceMaps, shared.id = map) ∨ map ∈ system.renderer.heldMaps := by
  show map ∈ (system.resourceMaps.map SharedMap.id) ++ _ ↔ _
  rw [List.mem_append, List.mem_map]

/-- What holds of a system with a catalog, with some maps known besides those of its resources. -/
structure Sound (catalog : Catalog) (scant : List MapIdentity) (extra : List SharedMap)
    (system : System) : Prop where
  same : system.catalog = catalog
  workshop : system.workshop.Sound (catalog.Needs scant) (extra ++ system.resourceMaps)
    system.heldMaps
  written : system.workshop.manager.unwritten = []

namespace Sound

/-- The registry of a sound system has seen all maps there are. -/
theorem genuine (sound : Sound catalog scant extra system) : system.workshop.registry.Genuine
    ((extra ++ system.resourceMaps) ++ system.workshop.manager.maps) system.heldMaps :=
  sound.workshop.genuine

/-- Resources and the renderer may do what they like with the maps that are known. -/
theorem move {extra' : List SharedMap} (sound : Sound catalog scant extra system)
    (moves : Moves extra system next)
    (fewer : ∀ shared ∈ extra', shared ∈ extra ++ system.resourceMaps) :
    Sound catalog scant extra' next := by
  have known {shared : SharedMap} (member : shared ∈ extra ++ system.resourceMaps) :
      shared ∈ system.workshop.registry.known
        ((extra ++ system.resourceMaps) ++ system.workshop.manager.maps) :=
    List.mem_append_left _ (List.mem_append_left _ member)
  have more (shared : SharedMap) (member : shared ∈ extra' ++ next.resourceMaps) :
      shared ∈ extra ++ system.resourceMaps :=
    (List.mem_append.mp member).elim (fewer shared) (moves.resources shared)
  refine ⟨moves.catalog.trans sound.same, ⟨?_, ?_, ?_⟩, ?_⟩
  · rw [moves.workshop]
    exact sound.workshop.orderly
  · rw [moves.workshop]
    refine sound.genuine.mono (fun shared member => ?_) fun map member => ?_
    · rcases List.mem_append.mp member with outer | made
      · exact known (more shared outer)
      · exact Workshop.mem_known_of_maps made _
    · rcases mem_heldMaps.mp member with ⟨shared, there, same⟩ | there
      · exact .inr ⟨shared, known (moves.resources shared there), same⟩
      · obtain ⟨shared, there, same⟩ := Renderer.mem_heldMaps.mp there
        rcases List.mem_append.mp (moves.renderer shared there) with given | before
        · exact .inr ⟨shared, known given, same⟩
        · exact .inl (mem_heldMaps.mpr (.inr (Renderer.mem_heldMaps.mpr ⟨shared, before, same⟩)))
  · rw [moves.workshop]
    exact sound.workshop.tidy
  · rw [moves.workshop]
    exact sound.written

/-- The maps that are known are still spoken of. -/
theorem moved (sound : Sound catalog scant extra system) (moves : Moves extra system next) :
    Sound catalog scant extra next := sound.move moves fun _ => List.mem_append_left _

/-- Fewer maps may be spoken of. -/
theorem fewer {extra' : List SharedMap} (sound : Sound catalog scant extra system)
    (fewer : ∀ shared ∈ extra', shared ∈ extra ++ system.resourceMaps) :
    Sound catalog scant extra' system :=
  sound.move (.refl extra system) fewer

theorem plain (sound : Sound catalog scant extra system) : Sound catalog scant [] system :=
  sound.fewer fun _ none => (nomatch none)

theorem also {shared : SharedMap} (sound : Sound catalog scant extra system)
    (known : shared ∈ system.workshop.registry.known
      ((extra ++ system.resourceMaps) ++ system.workshop.manager.maps)) :
    Sound catalog scant (shared :: extra) system :=
  ⟨sound.same, sound.workshop.also known, sound.written⟩

/-! ### Compiles -/

/-- A change of the workshop that keeps it sound. -/
theorem onWorkshop {workshop : Workshop} {extra' : List SharedMap}
    (same : system.catalog = catalog)
    (sound : workshop.Sound (catalog.Needs scant) (extra' ++ system.resourceMaps)
      system.heldMaps)
    (written : workshop.manager.unwritten = []) :
    Sound catalog scant extra' { system with workshop } :=
  ⟨same, sound, written⟩

theorem onManager {change : Manager → Manager} (sound : Sound catalog scant extra system)
    (orderly : (change system.workshop.manager).Orderly (catalog.Needs scant))
    (trimmed : system.workshop.manager.Trimmed (change system.workshop.manager)) :
    Sound catalog scant extra (system.onManager change) :=
  onWorkshop sound.same (sound.workshop.onManager orderly trimmed)
    (List.subset_nil.mp (sound.written ▸ trimmed.unwritten))

theorem cancel (sound : Sound catalog scant extra system) (resource : ResourceId)
    (jobs : List JobId) :
    Sound catalog scant extra (system.onManager fun manager => manager.cancel resource jobs) :=
  have cancelled := Manager.cancelled sound.workshop.orderly resource jobs
  sound.onManager cancelled.1 cancelled.2

theorem cancelCompilation (sound : Sound catalog scant extra system) (id : ResourceId) :
    Sound catalog scant extra (system.cancelCompilation id) := by
  unfold System.cancelCompilation
  split
  · exact sound
  · split
    · exact sound
    · exact (sound.cancel id _).moved (.onResource id fun _ _ => .inl)

theorem keepOnlyJob (sound : Sound catalog scant extra system) (id : ResourceId) (job : JobId) :
    Sound catalog scant extra (system.keepOnlyJob id job) := by
  unfold System.keepOnlyJob
  split
  · exact sound
  · dsimp only
    split
    · exact sound.moved (.onResource id fun _ _ => .inl)
    · exact (sound.cancel id _).moved (.onResource id fun _ _ => .inl)

theorem attach (sound : Sound catalog scant extra system)
    (attached : system.attach id identity = some next) : Sound catalog scant extra next := by
  obtain ⟨job, _, rfl⟩ := attach_eq_some.mp attached
  have shares : Sound catalog scant extra (system.onManager fun manager => manager.join job id) :=
    sound.onManager (sound.workshop.orderly.join job id) (.of_finished rfl (List.Subset.refl _))
  exact (shares.keepOnlyJob id job).moved (.clearMap _ _ id)

/-! ### Finding maps -/

theorem onRegistry {registry : Registry} {extra' : List SharedMap}
    (sound : Sound catalog scant extra system)
    (genuine : registry.Genuine ((extra' ++ system.resourceMaps) ++ system.workshop.manager.maps)
      system.heldMaps) :
    Sound catalog scant extra' { system with workshop := { system.workshop with registry } } :=
  onWorkshop sound.same ⟨sound.workshop.orderly, genuine, sound.workshop.tidy⟩ sound.written

theorem registerMap {canonical : SharedMap} {map : ShaderMap}
    (sound : Sound catalog scant extra system)
    (ran : system.registerMap map = (canonical, next)) :
    Sound catalog scant (canonical :: extra) next ∧ canonical.map.identity = map.identity := by
  have adopted := sound.genuine.adopt map
  have registered := adopted.register (system.workshop.heldMaps system.heldMaps)
    (List.mem_append_left _ List.mem_cons_self)
  cases ran
  refine ⟨sound.onRegistry (registered.1.fewer fun shared member => ?_), registered.2⟩
  rcases List.mem_cons.mp member with rfl | before
  · exact List.mem_append_left _ List.mem_cons_self
  · exact List.mem_append_left _ (List.mem_cons_of_mem _ (List.mem_cons_of_mem _ before))

theorem findMap {found : Option SharedMap} (sound : Sound catalog scant extra system)
    (ran : system.findMap identity = (found, next)) :
    Sound catalog scant (found.toList ++ extra) next ∧ ∀ shared, found = some shared →
      shared.map.identity = identity := by
  have left := sound.genuine.find (system.workshop.heldMaps system.heldMaps) identity
  rcases system.workshop.registry.find_cases (system.workshop.heldMaps system.heldMaps) identity
    with ⟨shared, there, _, same⟩ | ⟨_, entries, _, same⟩
  · unfold System.findMap at ran
    rw [same] at ran
    cases ran
    refine ⟨sound.also (Registry.mem_known_of_get? there _), fun other is => ?_⟩
    cases is
    exact (sound.genuine.keyed_of_get? there).1
  · unfold System.findMap at ran
    rw [same] at ran left
    cases ran
    exact ⟨sound.onRegistry left, fun _ none => (nomatch none)⟩

/-- Whatever the store holds, a map that is taken from it has the right identity. -/
theorem findStored {found : Option SharedMap} (sound : Sound catalog scant extra system)
    (ran : system.findStored identity = (found, next)) :
    Sound catalog scant (found.toList ++ extra) next ∧ ∀ shared, found = some shared →
      shared.map.identity = identity := by
  have looked : Sound catalog scant extra (system.consulted identity) := by
    have idle : Workshop.Idle system.workshop (system.consulted identity).workshop :=
      ⟨rfl, rfl, rfl, rfl, rfl, rfl, rfl⟩
    exact onWorkshop sound.same (idle.sound sound.workshop) sound.written
  rcases findStored_cases system identity with ⟨map, ⟨_, _, _, _, is⟩, same⟩ | ⟨_, same⟩
  · obtain ⟨rfl, rfl⟩ := Prod.mk.inj (same.symm.trans ran)
    obtain ⟨registered, identified⟩ := looked.registerMap rfl
    refine ⟨registered, fun shared here => ?_⟩
    cases here
    exact identified.trans is
  · obtain ⟨rfl, rfl⟩ := Prod.mk.inj (same.symm.trans ran)
    exact ⟨looked, fun _ none => (nomatch none)⟩

theorem lookup {found : Option SharedMap} (sound : Sound catalog scant extra system)
    (ran : system.lookup identity = (found, next)) :
    Sound catalog scant (found.toList ++ extra) next ∧ ∀ shared, found = some shared →
      shared.map.identity = identity := by
  unfold System.lookup at ran
  split at ran
  · rename_i shared later same
    cases ran
    exact sound.findMap same
  · rename_i later same
    exact (sound.findMap same).1.findStored ran

/-! ### Getting a map -/

/-- What comes of a compile, and what map it gives if it is ready at once: one that was yielded
when the resource had stopped waiting for anything else. -/
theorem compile {resource : Resource} {synchronous ready : Bool}
    (sound : Sound catalog scant extra system)
    (full : ∀ permutation, catalog.Needs scant identity permutation →
      permutation ∈ resource.variant.permutations catalog)
    (ran : system.compile id resource identity synchronous = .ok (ready, next)) :
    Sound catalog scant [] next ∧
      (ready = true → ∃ shared middle, Sound catalog scant [shared] middle ∧
      next = middle.succeed id shared ∧ shared.map.identity = identity ∧
      shared.map.isCompiled ∧ ∀ favours : SharedMap → Prop,
        (system.cancelCompilation id).workshop.Yields (catalog.Needs scant) favours identity
          (system.cancelCompilation id).heldMaps → favours shared) := by
  obtain ⟨answer, workshop, served, heeds⟩ := compile_heeds ran
  have cancelled := sound.plain.cancelCompilation id
  generalize system.cancelCompilation id = start at served heeds cancelled ⊢
  obtain rfl := cancelled.same
  have answers {favours : SharedMap → Prop} (yields : start.workshop.Yields
      (start.catalog.Needs scant) favours identity start.heldMaps) :=
    cancelled.workshop.answers cancelled.written full yields served
  have any := answers (start.workshop.yields_any _ identity start.heldMaps)
  have after : Sound start.catalog scant (answer.toOption.bind CompileOutcome.map?).toList
      { start with workshop } := onWorkshop cancelled.same any.sound any.written
  have quiet {later : System} (moves : Moves (answer.toOption.bind CompileOutcome.map?).toList
      { start with workshop } later) : Sound start.catalog scant [] later :=
        (after.moved moves).plain
  cases heeds with
  | given =>
    refine ⟨quiet (.succeed id List.mem_cons_self), fun _ => ?_⟩
    obtain ⟨_, is, compiled⟩ := any.favoured _ rfl
    exact ⟨_, _, after, rfl, is, compiled, fun favours yields =>
      ((answers yields).favoured _ rfl).1⟩
  | refused _ failed => exact ⟨quiet (.fail failed), fun ready => nomatch ready⟩
  | waits =>
    exact ⟨quiet ((Moves.addJob id _).trans (.clearMap _ _ id)), fun ready => nomatch ready⟩

end Sound

end System

end Shading
