/-
A store entry that is refused. A blob that cannot be read, that is a map of another
identity, or that lacks a permutation the material needs, is as good as none: a call
for the map of a resource answers the same, and leaves everything the same, as if
nothing had been there. A map that lacks permutations is entered before it is
refused. Nobody holds it, so that nothing is left of it but that later maps
have other numbers.
-/

import Shading.Proofs.Material.Repeating
import Shading.Proofs.Material.Resembling

namespace Shading.System

open Workshop (Kept nothing)

variable {gap : Option MapId} {stores : MemoryStore × MemoryStore} {system other : System}

/-- The store of the system holds these blobs. -/
def withBlobs (system : System) (blobs : Table String (List UInt8)) : System :=
  { system with workshop :=
    { system.workshop with store := { system.workshop.store with blobs } } }

/-- Nothing but what is stored and how numbers are given is different at first. -/
theorem Renumbered.start {registry otherRegistry : Registry} {store otherStore : MemoryStore}
    (fixed : ∀ id ∈ system.workshop.heldMaps system.heldMaps, MapId.skip gap id = id)
    (entries : registry.Renumbered gap otherRegistry)
    (same : stores.1.Took [] store) (otherSame : stores.2.Took [] otherStore) :
    Renumbered gap stores
      { system with workshop := { system.workshop with registry, store } }
      { system with workshop :=
        { system.workshop with registry := otherRegistry, store := otherStore } } := by
  have manager : system.workshop.manager.renumber (MapId.skip gap) = system.workshop.manager :=
    Manager.renumber_eq fun id member => fixed id (List.mem_append_right _ member)
  have held_of_strong {shared : SharedMap} (member : shared ∈ system.strong) :
      shared.id ∈ system.workshop.heldMaps system.heldMaps :=
    List.mem_append_left _ (heldMaps_eq system ▸ List.mem_map_of_mem member)
  have resources : system.resources.mapValues (Resource.renumber (MapId.skip gap)) =
      system.resources := by
    refine congrArg Table.mk
      ((List.map_congr_left fun entry member => ?_).trans (List.map_id _))
    obtain ⟨id, resource⟩ := entry
    exact congrArg (Prod.mk id) (Resource.renumber_eq fun shared has =>
      fixed _ (held_of_strong (List.mem_append_left _
        (mem_resourceMaps.mpr ⟨(id, resource), member, has⟩))))
  have queue : system.renderer.queue.map (RenderCommand.renumber (MapId.skip gap)) =
      system.renderer.queue := by
    refine (List.map_congr_left fun command member => ?_).trans (List.map_id _)
    cases command with
    | setMap id map =>
      cases map with
      | none => rfl
      | some shared =>
        refine congrArg (fun shared => RenderCommand.setMap id (some shared))
          (SharedMap.renumber_eq (fixed _ (held_of_strong ?_)))
        exact List.mem_append_right _ (Renderer.mem_maps.mpr (.inr ⟨_, member, rfl⟩))
    | _ => rfl
  refine ⟨⟨manager.symm, entries, rfl, rfl, [], same, otherSame⟩, resources.symm, ?_,
    fun id member => fixed id (List.mem_append_left _ (List.mem_append_right _
      (List.mem_append_left _ member))), rfl⟩
  dsimp only
  rw [queue]

/-- A blob is refused for a material: it cannot be read, or it is a map of another identity or one
that is not complete. -/
def Refuses (identity : MapIdentity) (required : List Permutation) (blob : List UInt8) : Prop :=
  ∀ map, ShaderMap.ofArchive blob = .ok map → map.identity = identity →
    map.isComplete required = false

theorem took_consulted (system : System) (identity : MapIdentity) :
    system.workshop.store.Took [] (system.consulted identity).workshop.store := by
  unfold consulted
  dsimp only
  split
  · exact (MemoryStore.Took.refl _).get identity.storeKey
  · exact .refl _

/-- Where a blob is refused, nothing comes from the store. What is left of a map that is entered
before it is refused is a number that is not given again. -/
theorem findStored_refused {identity : MapIdentity} {required : List Permutation}
    {blob : List UInt8} (kept : Kept nothing (system.stage []))
    (absent : system.workshop.registry.entries.get? identity = none)
    (refuses : Refuses identity required blob) :
    let without := system.withBlobs (system.workshop.store.blobs.erase identity.storeKey)
    let spoiled := system.withBlobs (system.workshop.store.blobs.insert identity.storeKey blob)
    ∃ gap, (∀ id : MapId, id.number < system.workshop.registry.next.number →
        MapId.skip gap id = id) ∧
      (without.findStored identity).1 = none ∧
      ((spoiled.findStored identity).1.filter fun shared => shared.map.isComplete required) = none ∧
      Renumbered gap (without.workshop.store, spoiled.workshop.store)
        (without.findStored identity).2 (spoiled.findStored identity).2 := by
  intro without spoiled
  have missing (map : ShaderMap) : ¬without.Stored identity map := by
    rintro ⟨_, _, present, _⟩
    have gone : (system.workshop.store.blobs.erase identity.storeKey).get? identity.storeKey =
        none := (Table.get?_erase ..).trans (if_pos rfl)
    cases gone.symm.trans present
  have looks := took_consulted without identity
  have spoiledLooks := took_consulted spoiled identity
  rw [findStored_of_missing missing]
  rcases findStored_cases spoiled identity with ⟨map, ⟨_, other, present, read, same⟩, found⟩ |
    ⟨_, found⟩
  · rw [found]
    have there : (system.workshop.store.blobs.insert identity.storeKey blob).get?
        identity.storeKey = some blob := (Table.get?_insert ..).trans (if_pos rfl)
    cases there.symm.trans present
    have unknown : system.workshop.registry.entries.get? map.identity = none := same ▸ absent
    have lacks := refuses map read same
    have entered := Registry.Renumbered.of_register
      (system.workshop.heldMaps system.heldMaps) (ShaderMap.isCompiled_of_archive read)
      (fun entry member => (kept.keyed entry member).2.2) unknown
    have own : ((spoiled.consulted identity).registerMap map).1 =
        ⟨system.workshop.registry.next, map⟩ := Registry.register_absent _ unknown
    have older {id : MapId} (older : id.number < system.workshop.registry.next.number) :
        MapId.skip (some system.workshop.registry.next) id = id :=
      MapId.skip_older fun dead gone => Option.some.inj gone ▸ older
    refine ⟨some system.workshop.registry.next, fun _ => older, rfl, ?_, ?_⟩
    · rw [own, Option.filter_some]
      exact if_neg (Bool.eq_false_iff.mp lacks)
    · exact .start (fun id member => older (older_of_kept kept member)) entered looks spoiledLooks
  · -- With no map entered, the two differ in nothing but what is stored.
    rw [found]
    exact ⟨none, fun _ _ => rfl, rfl, rfl,
      .start (fun _ _ => rfl) (.refl system.workshop.registry) looks spoiledLooks⟩

/-- Where a blob is refused, the same is found as without it. -/
theorem lookup_refused {identity : MapIdentity} {required : List Permutation} {blob : List UInt8}
    (kept : Kept nothing (system.stage [])) (refuses : Refuses identity required blob) :
    let without := system.withBlobs (system.workshop.store.blobs.erase identity.storeKey)
    let spoiled := system.withBlobs (system.workshop.store.blobs.insert identity.storeKey blob)
    ∃ gap, (∀ id : MapId, id.number < system.workshop.registry.next.number →
        MapId.skip gap id = id) ∧
      ((spoiled.lookup identity).1.filter fun shared => shared.map.isComplete required) =
        ((without.lookup identity).1.filter fun shared =>
          shared.map.isComplete required).map (SharedMap.renumber (MapId.skip gap)) ∧
      Renumbered gap (without.workshop.store, spoiled.workshop.store)
        (without.lookup identity).2 (spoiled.lookup identity).2 := by
  intro without spoiled
  have searched (blobs : Table String (List UInt8)) : (system.withBlobs blobs).findMap identity =
      ((system.findMap identity).1, (system.findMap identity).2.withBlobs blobs) := rfl
  have after : Kept nothing
      ((system.findMap identity).2.stage (system.findMap identity).1.toList) :=
    kept.evolves (evolves_findMap rfl)
  unfold lookup
  rw [searched, searched]
  rcases system.workshop.registry.find_cases (system.workshop.heldMaps system.heldMaps) identity
    with ⟨live, _, _, finds⟩ | ⟨_, entries, absent, finds⟩
  · have found : system.findMap identity = (some live, system) := by
      unfold findMap
      rw [finds]
    rw [found]
    refine ⟨none, fun _ _ => rfl, ?_,
      .start (fun _ _ => rfl) (.refl system.workshop.registry) (.refl _) (.refl _)⟩
    dsimp only
    cases (some live).filter fun shared => shared.map.isComplete required <;> rfl
  · have found : system.findMap identity = (none, { system with workshop :=
        { system.workshop with registry := { system.workshop.registry with entries } } }) := by
      unfold findMap
      rw [finds]
    rw [found] at after ⊢
    obtain ⟨gap, fixed, missed, refused, renumbered⟩ := findStored_refused after absent refuses
    refine ⟨gap, fixed, ?_, renumbered⟩
    dsimp only at missed refused ⊢
    rw [missed, refused]
    rfl

/-- The other system differs in nothing that can be seen but in the numbers of its maps. Resources
and queued commands have the same maps, the compiles are the same, the same maps are found and as
many are live, and the same blobs have been written since the stores held what they held at
first. -/
structure Mirrors (rename : MapId → MapId) (stores : MemoryStore × MemoryStore)
    (system other : System) : Prop where
  resources : ∀ id, other.resources.get? id =
    (system.resources.get? id).map (Resource.renumber rename)
  world : other.renderer.world = system.renderer.world
  queue : other.renderer.queue = system.renderer.queue.map (RenderCommand.renumber rename)
  manager : other.workshop.manager = system.workshop.manager.renumber rename
  writes : ∃ written, stores.1.Took written system.workshop.store ∧
    stores.2.Took written other.workshop.store
  finds : ∀ identity, (other.findMap identity).1 =
    (system.findMap identity).1.map (SharedMap.renumber rename)
  live : other.workshop.liveMaps other.heldMaps = system.workshop.liveMaps system.heldMaps

theorem Renumbered.mirrors (renumbered : Renumbered gap stores system other) :
    system.Mirrors (MapId.skip gap) stores other where
  resources := renumbered.get?
  world := by rw [renumbered.renderer]
  queue := by rw [renumbered.renderer]
  manager := renumbered.workshop.manager
  writes := renumbered.workshop.store
  finds identity := by
    unfold findMap
    rw [renumbered.heldMaps, renumbered.workshop.heldMaps]
    exact (renumbered.workshop.registry.find _ identity).1
  live := by
    unfold Workshop.liveMaps
    rw [renumbered.heldMaps, renumbered.workshop.heldMaps]
    exact renumbered.workshop.registry.size _

/-- A call for the map of a resource, and what happens to the compiles afterwards. -/
def cacheThen (system : System) (id : ResourceId) (sequels : List Sequel) :
    Except Fault (Bool × System) := do
  let (ready, next) ← system.cacheShaders id
  let last ← sequels.foldlM Sequel.follow next
  .ok (ready, last)

theorem cacheShaders_refused {resource : Resource} {id : ResourceId} {blob : List UInt8}
    (kept : Kept nothing (system.stage [])) (there : system.resources.get? id = some resource)
    (refuses : Refuses (resource.variant.identity system.catalog)
      (resource.variant.permutations system.catalog) blob) :
    let key := (resource.variant.identity system.catalog).storeKey
    let without := system.withBlobs (system.workshop.store.blobs.erase key)
    let spoiled := system.withBlobs (system.workshop.store.blobs.insert key blob)
    ∃ gap, (∀ id : MapId, id.number < system.workshop.registry.next.number →
        MapId.skip gap id = id) ∧
      Concurs (Echoes gap (without.workshop.store, spoiled.workshop.store))
        (without.cacheShaders id) (spoiled.cacheShaders id) := by
  intro key without spoiled
  obtain ⟨gap, fixed, same, renumbered⟩ := lookup_refused kept refuses
  refine ⟨gap, fixed, ?_⟩
  have settled := renumbered.settle id resource (resource.variant.identity system.catalog)
    ((without.lookup (resource.variant.identity system.catalog)).1.filter fun shared =>
      shared.map.isComplete (resource.variant.permutations system.catalog))
  have same_resource : resource.renumber (MapId.skip gap) = resource :=
    Resource.renumber_eq fun shared has => fixed _ (older_of_kept kept
      (List.mem_append_left _ (heldMaps_eq system ▸ List.mem_map_of_mem (List.mem_append_left _
        (mem_resourceMaps.mpr ⟨(id, resource), Table.mem_entries_of_get? there, has⟩)))))
  rw [← same, same_resource] at settled
  unfold cacheShaders
  rw [show without.resources.get? id = some resource from there,
    show spoiled.resources.get? id = some resource from there]
  exact settled

/-- An entry of the store that is refused is as good as none: the call tells the same, or fails in
the same way, and whatever happens to the compiles then, no difference is seen. -/
theorem Used.refused_entry_unseen {resource : Resource} {id : ResourceId} {blob : List UInt8}
    (used : Used [] system) (there : system.resources.get? id = some resource)
    (refuses : Refuses (resource.variant.identity system.catalog)
      (resource.variant.permutations system.catalog) blob) (sequels : List Sequel) :
    let key := (resource.variant.identity system.catalog).storeKey
    let without := system.withBlobs (system.workshop.store.blobs.erase key)
    let spoiled := system.withBlobs (system.workshop.store.blobs.insert key blob)
    ∃ rename : MapId → MapId, Function.Injective rename ∧
      (∀ id, id.number < system.workshop.registry.next.number → rename id = id) ∧
      Concurs (fun answer other => other.1 = answer.1 ∧
          answer.2.Mirrors rename (without.workshop.store, spoiled.workshop.store) other.2)
        (without.cacheThen id sequels) (spoiled.cacheThen id sequels) := by
  intro key without spoiled
  obtain ⟨gap, fixed, answers⟩ := cacheShaders_refused used.kept there refuses
  refine ⟨MapId.skip gap, MapId.skip_injective gap, fixed, ?_⟩
  refine answers.bind fun answer other ⟨told, likewise⟩ => ?_
  have follows := Concurs.foldlM (fun sequel _ _ both => Renumbered.follow both sequel) sequels
    likewise
  exact follows.bind fun _ _ both => .ok ⟨told, both.mirrors⟩

/-- The map without the shader, as it is stored. -/
def bareBlob : List UInt8 := Utf8.encode (bareMap.encode (.ofCodes [] {})).render

theorem read_bareBlob : ShaderMap.ofArchive bareBlob = .ok bareMap :=
  have nested : (bareMap.encode (.ofCodes [] {})).nesting ≤ 127 := by
    decide +kernel
  (ShaderMap.ofArchive_encode rfl nested fun _ none => nomatch none).trans
    (if_pos fun _ none => nomatch none)

/-- The painted material finds that map in the store and refuses it; then its compile is worked off
and its result is handed out. -/
theorem bare_entry_unseen : ∃ resource, (stocked "" []).resources.get? .first = some resource ∧
    let identity := resource.variant.identity (stocked "" []).catalog
    let blobs := (stocked "" []).workshop.store.blobs
    let without := (stocked "" []).withBlobs (blobs.erase identity.storeKey)
    let spoiled := (stocked "" []).withBlobs (blobs.insert identity.storeKey bareBlob)
    let sequels : List Sequel := [.release, .handOut fun _ => true]
    spoiled.Stored identity bareMap ∧
      Refuses identity (resource.variant.permutations (stocked "" []).catalog) bareBlob ∧
      ∃ rename, Function.Injective rename ∧
        Concurs (fun answer other => other.1 = answer.1 ∧
            answer.2.Mirrors rename (without.workshop.store, spoiled.workshop.store) other.2)
          (without.cacheThen .first sequels) (spoiled.cacheThen .first sequels) := by
  have there : (stocked "" []).resources.get? .first =
      some { variant := { description := default } } := rfl
  have same : ({ description := default } : Variant).identity (stocked "" []).catalog =
      bareMap.identity := by
    cbv
  have required : ({ description := default } : Variant).permutations (stocked "" []).catalog =
      [⟨"Pixel", none⟩] := List.mergeSort_singleton _
  have refuses : Refuses (({ description := default } : Variant).identity (stocked "" []).catalog)
      (({ description := default } : Variant).permutations (stocked "" []).catalog) bareBlob := by
    intro map read _
    cases read_bareBlob.symm.trans read
    rw [required]
    decide
  refine ⟨_, there, ?_, refuses, ?_⟩
  · exact ⟨rfl, bareBlob, (Table.get?_insert ..).trans (if_pos rfl), read_bareBlob, same.symm⟩
  · obtain ⟨rename, injective, _, concurs⟩ := (stocked_used "" []).refused_entry_unseen there
      refuses [.release, .handOut fun _ => true]
    exact ⟨rename, injective, concurs⟩

end Shading.System
