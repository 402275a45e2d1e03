/-
When a resource is ready. A map that is found complete is taken as it is.
Otherwise one is compiled, and the compile ends with the map of that identity
that is still held when the resource has stopped waiting for anything else, even
though it was found to lack permutations, or else with a new one.
-/

import Shading.Proofs.Material.Offering
import Shading.Proofs.Material.Soundness

namespace Shading.System

variable {catalog : Catalog} {scant : List MapIdentity} {extra : List SharedMap}
  {system next later : System}
  {id : ResourceId} {identity : MapIdentity} {found : Option SharedMap}

/-- The live map of an identity, if there is one. -/
def incumbent (system : System) (identity : MapIdentity) : Option SharedMap :=
  (system.findMap identity).1

theorem incumbent_eq_some {shared : SharedMap} : system.incumbent identity = some shared ↔
    system.workshop.registry.entries.get? identity = some shared ∧
      shared.id ∈ system.workshop.heldMaps system.heldMaps := by
  unfold incumbent findMap
  rcases system.workshop.registry.find_cases (system.workshop.heldMaps system.heldMaps) identity
    with ⟨other, there, live, same⟩ | ⟨dead, _, _, same⟩
  · rw [same, there]
    refine ⟨fun equal => ?_, And.left⟩
    exact ⟨equal, Option.some.inj equal ▸ live⟩
  · rw [same]
    exact ⟨fun none => (nomatch none), fun ⟨there, live⟩ => absurd live (dead shared there)⟩

/-! ### Cancelling -/

theorem registry_cancelCompilation (system : System) (id : ResourceId) :
    (system.cancelCompilation id).workshop.registry = system.workshop.registry := by
  unfold cancelCompilation
  split
  · rfl
  · split <;> rfl

/-- To cancel keeps nothing alive that was not. -/
theorem heldMaps_cancelCompilation (sound : Sound catalog scant extra system) (id : ResourceId)
    {map : MapId} (member : map ∈ (system.cancelCompilation id).workshop.heldMaps
      (system.cancelCompilation id).heldMaps) :
    map ∈ system.workshop.heldMaps system.heldMaps := by
  unfold cancelCompilation at member
  split at member
  · exact member
  · rename_i resource _
    split at member
    · exact member
    · have trimmed := (Manager.cancelled sound.workshop.orderly id resource.jobs).2
      rcases List.mem_append.mp member with outer | made
      · refine List.mem_append_left _ (mem_heldMaps.mpr ?_)
        refine (mem_heldMaps.mp outer).imp_left fun ⟨shared, there, same⟩ => ?_
        obtain ⟨entry, inside, has⟩ := mem_resourceMaps.mp there
        rcases Table.mem_entries_of_modify inside with ⟨_, before, rfl⟩ | before
        · exact ⟨shared, mem_resourceMaps.mpr ⟨_, before, has⟩, same⟩
        · exact ⟨shared, mem_resourceMaps.mpr ⟨entry, before, has⟩, same⟩
      · obtain ⟨shared, there, same⟩ := List.mem_map.mp made
        exact List.mem_append_right _ (List.mem_map.mpr ⟨shared, trimmed.maps there, same⟩)

theorem incumbent_of_cancelCompilation {shared : SharedMap}
    (sound : Sound catalog scant extra system)
    (live : (system.cancelCompilation id).incumbent identity = some shared) :
    system.incumbent identity = some shared := by
  obtain ⟨there, held⟩ := incumbent_eq_some.mp live
  rw [registry_cancelCompilation] at there
  exact incumbent_eq_some.mpr ⟨there, heldMaps_cancelCompilation sound id held⟩

/-- A registry and a store that were exchanged before a resource cancels are exchanged still. -/
theorem cancelCompilation_exchanged (system : System) (id : ResourceId) (registry : Registry)
    (store : MemoryStore) :
    cancelCompilation
        { system with workshop := { system.workshop with registry, store } } id =
      { system.cancelCompilation id with workshop :=
          { (system.cancelCompilation id).workshop with registry, store } } := by
  unfold cancelCompilation
  dsimp only
  split
  · rfl
  · split <;> rfl

/-! ### Looking -/

/-- Either the live map of the identity is found, or there is none, and then the registry has at
most a new entry for the identity. -/
theorem lookup_cases (ran : system.lookup identity = (found, later)) :
    (∃ shared, system.incumbent identity = some shared ∧ found = some shared ∧ later = system) ∨
      system.incumbent identity = none ∧ ∃ registry store,
        later = { system with workshop := { system.workshop with registry, store } } ∧
        ∀ shared, registry.entries.get? identity = some shared →
          shared.id = system.workshop.registry.next := by
  unfold lookup at ran
  unfold incumbent
  have finding : system.findMap identity = (
      (system.workshop.registry.find (system.workshop.heldMaps system.heldMaps) identity).1,
      { system with workshop := { system.workshop with
        registry := (system.workshop.registry.find
          (system.workshop.heldMaps system.heldMaps) identity).2 } }) := rfl
  rcases system.workshop.registry.find_cases (system.workshop.heldMaps system.heldMaps) identity
    with ⟨other, there, live, same⟩ | ⟨dead, entries, absent, same⟩
  · rw [finding, same] at ran ⊢
    cases ran
    exact .inl ⟨other, rfl, rfl, rfl⟩
  · rw [finding, same] at ran ⊢
    refine .inr ⟨rfl, ?_⟩
    dsimp only at ran
    rcases findStored_cases _ identity with ⟨map, ⟨_, _, _, _, is⟩, finds⟩ | ⟨_, finds⟩
    · obtain ⟨rfl, rfl⟩ := Prod.mk.inj (finds.symm.trans ran)
      subst is
      exact ⟨_, _, rfl, fun shared found =>
        congrArg SharedMap.id (Registry.eq_of_register_absent absent found)⟩
    · obtain ⟨rfl, rfl⟩ := Prod.mk.inj (finds.symm.trans ran)
      exact ⟨_, _, rfl, fun shared found => nomatch absent.symm.trans found⟩

/-- Looking for a map leaves everything as it is but the registry and the store. -/
theorem lookup_apart (ran : system.lookup identity = (found, later)) :
    ∃ registry store,
      later = { system with workshop := { system.workshop with registry, store } } := by
  rcases lookup_cases ran with ⟨_, _, _, rfl⟩ | ⟨_, registry, store, same, _⟩
  · exact ⟨later.workshop.registry, later.workshop.store, rfl⟩
  · exact ⟨registry, store, same⟩

theorem lookup_live {shared : SharedMap} (live : system.incumbent identity = some shared) :
    system.lookup identity = (some shared, system) := by
  rcases lookup_cases (rfl : system.lookup identity = ((system.lookup identity).1,
    (system.lookup identity).2)) with ⟨other, there, found, same⟩ | ⟨missing, _⟩
  · cases live.symm.trans there
    exact Prod.ext found same
  · cases missing.symm.trans live

/-- Where no map of an identity is live, the one from the store is found, if there is one. -/
theorem lookup_missed (missing : system.incumbent identity = none) {shared : SharedMap} :
    (system.lookup identity).1 = some shared ↔
      shared.id = system.workshop.registry.next ∧ system.Stored identity shared.map := by
  unfold incumbent at missing
  unfold lookup
  unfold findMap at missing ⊢
  rcases system.workshop.registry.find_cases (system.workshop.heldMaps system.heldMaps) identity
    with ⟨other, _, _, finds⟩ | ⟨_, entries, absent, finds⟩
  · rw [finds] at missing
    cases missing
  · rw [finds]
    dsimp only
    generalize purged : ({ system with workshop := { system.workshop with
      registry := { system.workshop.registry with entries } } } : System) = later
    have same (map : ShaderMap) : later.Stored identity map ↔ system.Stored identity map := by
      subst purged
      rfl
    have own {map : ShaderMap} (is : map.identity = identity) :
        ((later.consulted identity).registerMap map).1 = ⟨system.workshop.registry.next, map⟩ := by
      subst purged
      exact Registry.register_absent _ (is ▸ absent)
    rw [← same]
    rcases findStored_cases later identity with ⟨map, stored, finds⟩ | ⟨nothing, finds⟩
    · have ⟨_, _, _, _, is⟩ := stored
      rw [finds, own is, Option.some.injEq]
      refine ⟨fun equal => equal ▸ ⟨rfl, stored⟩, fun ⟨numbered, there⟩ => ?_⟩
      rw [stored.unique there, ← numbered]
    · rw [finds]
      exact ⟨nofun, fun ⟨_, there⟩ => absurd there (nothing _)⟩

/-- Every map that is held has a number that was given before. -/
theorem numbered_heldMaps (sound : Sound catalog scant extra system) {map : MapId}
    (member : map ∈ system.workshop.heldMaps system.heldMaps) :
    map.number < system.workshop.registry.next.number := by
  rcases List.mem_append.mp member with outer | made
  · exact sound.genuine.held map outer
  · obtain ⟨shared, there, rfl⟩ := List.mem_map.mp made
    exact sound.genuine.numbered shared (Workshop.mem_known_of_maps there _)

/-- Looking for a map does not change what a compile yields afterwards. -/
theorem yields_of_lookup {needs : MapIdentity → Permutation → Prop} {favours : SharedMap → Prop}
    (sound : Sound catalog scant [] system) (ran : system.lookup identity = (found, later))
    (yields : (system.cancelCompilation id).workshop.Yields needs favours identity
      (system.cancelCompilation id).heldMaps) :
    (later.cancelCompilation id).workshop.Yields needs favours identity
      (later.cancelCompilation id).heldMaps := by
  rcases lookup_cases ran with ⟨_, _, _, rfl⟩ | ⟨missing, registry, store, rfl, new⟩
  · exact yields
  · rw [cancelCompilation_exchanged]
    rcases yields with ⟨live, there, held, _⟩ | ⟨_, favoured⟩
    · have alive := incumbent_of_cancelCompilation sound (incumbent_eq_some.mpr ⟨there, held⟩)
      rw [missing] at alive
      cases alive
    · refine .inr ⟨fun shared there held => ?_, favoured⟩
      have older := numbered_heldMaps (sound.cancelCompilation id) held
      rw [registry_cancelCompilation, new shared there] at older
      exact absurd older (Nat.lt_irrefl _)

/-! ### Caching shaders -/

theorem Sound.obtain {resource : Resource} {ready : Bool} (sound : Sound catalog scant [] system)
    (full : ∀ permutation, catalog.Needs scant identity permutation →
      permutation ∈ resource.variant.permutations catalog)
    (ran : system.obtain id resource identity = .ok (ready, next)) :
    Sound catalog scant [] next ∧
      (ready = true → ∃ shared middle, Sound catalog scant [shared] middle ∧
      next = middle.succeed id shared ∧ shared.map.identity = identity ∧
      shared.map.isCompiled ∧ ∀ favours : SharedMap → Prop,
        (system.cancelCompilation id).workshop.Yields (catalog.Needs scant) favours identity
          (system.cancelCompilation id).heldMaps → favours shared) := by
  rcases obtain_cases ran with ⟨_, rfl, attached⟩ | ⟨_, compiled⟩
  · exact ⟨sound.attach attached, fun ready => Bool.noConfusion ready⟩
  · exact sound.compile full compiled

/-- Where an identity says what is needed, whoever asks for the permutations of one material asks
for all that is needed. -/
theorem mem_permutations_of_needs (respects : catalog.RespectsIdentity)
    (variant : Variant) {permutation : Permutation}
    (needed : catalog.Needs scant (variant.identity catalog) permutation) :
    permutation ∈ variant.permutations catalog := by
  obtain ⟨_, other, same, needed⟩ := needed
  exact respects other variant same ▸ needed

/-- What a resource is ready with: a map found complete, the live one unless there is none, or a
map from a compile, where the live one is not complete. -/
inductive Ready (catalog : Catalog) (scant : List MapIdentity) (system : System) (id : ResourceId)
    (identity : MapIdentity) (required : List Permutation) (shared : SharedMap) : Prop where
  | found (complete : shared.map.isComplete required)
    (live : ∀ other, system.incumbent identity = some other → other = shared)
  | compiled (compiled : shared.map.isCompiled)
    (live : ∀ other, system.incumbent identity = some other → ¬ other.map.isComplete required)
    (yielded : ∀ favours : SharedMap → Prop,
      (system.cancelCompilation id).workshop.Yields (catalog.Needs scant) favours identity
        (system.cancelCompilation id).heldMaps → favours shared)

theorem Sound.cacheShaders {ready : Bool} (sound : Sound catalog scant [] system)
    (respects : catalog.RespectsIdentity)
    (ran : system.cacheShaders id = .ok (ready, next)) :
    Sound catalog scant [] next ∧
      (ready = true → ∀ resource, system.resources.get? id = some resource →
      ∃ shared middle, Sound catalog scant [shared] middle ∧ next = middle.succeed id shared ∧
        shared.map.identity = resource.variant.identity catalog ∧
        Ready catalog scant system id (resource.variant.identity catalog)
          (resource.variant.permutations catalog) shared) := by
  obtain rfl := sound.same
  rcases cacheShaders_cases ran with
    ⟨_, rfl, rfl⟩ | ⟨resource, found, later, does, there, looked, chosen, settles⟩
  · exact ⟨sound, fun ready => Bool.noConfusion ready⟩
  · obtain ⟨soundLater, belongs⟩ := sound.lookup looked
    rw [List.append_nil] at soundLater
    cases settles with
    | given =>
      obtain ⟨rfl, complete⟩ := Option.filter_eq_some_iff.mp chosen
      have cancelled := soundLater.cancelCompilation id
      refine ⟨(cancelled.moved (.succeed id List.mem_cons_self)).plain, fun _ resource same => ?_⟩
      cases there.symm.trans same
      refine ⟨_, _, cancelled, rfl, belongs _ rfl, .found complete fun other live => ?_⟩
      rcases lookup_cases looked with ⟨_, first, second, _⟩ | ⟨missing, _⟩
      · exact Option.some.inj (live.symm.trans (first.trans second.symm))
      · cases missing.symm.trans live
    | fallsBack _ fell =>
      exact ⟨(soundLater.moved (.fallBack fell)).plain, fun ready => Bool.noConfusion ready⟩
    | obtains _ obtained =>
      obtain ⟨soundNext, gives⟩ := soundLater.plain.obtain
        (fun _ => mem_permutations_of_needs respects resource.variant) obtained
      refine ⟨soundNext, fun isReady other same => ?_⟩
      cases there.symm.trans same
      obtain ⟨shared, middle, known, is, identity, compiled, yielded⟩ := gives isReady
      refine ⟨shared, middle, known, is, identity, .compiled compiled (fun other live => ?_)
        fun favours yields => yielded favours ?_⟩
      · rcases lookup_cases looked with ⟨_, first, second, _⟩ | ⟨missing, _⟩
        · cases first.symm.trans live
          exact fun complete => Option.filter_eq_none_iff.mp chosen _ second complete
        · cases missing.symm.trans live
      · exact yields_of_lookup sound looked yields

end Shading.System
