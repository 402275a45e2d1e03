/-
Other numbers for the same maps. The numbers of maps do nothing but tell maps
apart. So two registries whose maps differ in nothing but their numbers answer
alike, also when one of them has left out a number. A map that was entered under
the number left out is in nobody's way, since nobody holds it.
-/

import Mathlib.Logic.Function.Basic
import Mathlib.Data.List.Basic
import Shading.Map.Registry
import Shading.Map.Store

namespace Shading

namespace Table

variable {κ β γ : Type}

/-- The table with its values changed. -/
def mapValues (change : β → γ) (table : Table κ β) : Table κ γ :=
  ⟨table.entries.map fun entry => (entry.1, change entry.2)⟩

variable [DecidableEq κ] {change : β → γ} {table : Table κ β} {key : κ}

theorem get?_mapValues (change : β → γ) (table : Table κ β) (key : κ) :
    (table.mapValues change).get? key = (table.get? key).map change := by
  unfold get? mapValues
  rw [List.find?_map, Option.map_map, Option.map_map]
  rfl

theorem erase_mapValues (change : β → γ) (table : Table κ β) (key : κ) :
    (table.mapValues change).erase key = (table.erase key).mapValues change := by
  unfold erase mapValues
  rw [List.filter_map]
  rfl

theorem insert_mapValues (change : β → γ) (table : Table κ β) (key : κ) (value : β) :
    (table.mapValues change).insert key (change value) =
      (table.insert key value).mapValues change := by
  unfold insert
  rw [erase_mapValues]
  rfl

theorem modify_mapValues {first : β → β} {second : γ → γ}
    (commutes : ∀ value, second (change value) = change (first value)) (table : Table κ β)
    (key : κ) : (table.mapValues change).modify key second =
      (table.modify key first).mapValues change := by
  unfold modify
  rw [get?_mapValues]
  cases table.get? key with
  | none => rfl
  | some value =>
    dsimp only [Option.map_some]
    rw [commutes, insert_mapValues]

omit [DecidableEq κ] in
theorem values_mapValues (change : β → γ) (table : Table κ β) :
    (table.mapValues change).values = table.values.map change := by
  unfold values mapValues
  rw [List.map_map, List.map_map]
  rfl

/-- Without an entry for a key there is nothing to erase. -/
theorem erase_absent (absent : table.get? key = none) : table.erase key = table := by
  unfold erase
  rw [List.filter_eq_self.mpr fun entry member => ?_]
  have missing := List.find?_eq_none.mp (Option.map_eq_none_iff.mp absent) entry member
  simpa using missing

end Table

/-! ### Numbers and maps -/

/-- The numbers that are given out if one is left out. -/
def MapId.skip (gap : Option MapId) (id : MapId) : MapId :=
  match gap with
  | none => id
  | some gap => if id.number < gap.number then id else id.next

namespace MapId

variable {gap : Option MapId} {id : MapId}

theorem skip_older (older : ∀ dead ∈ gap, id.number < dead.number) : skip gap id = id := by
  cases gap with
  | none => rfl
  | some dead => exact if_pos (older dead rfl)

theorem skip_newer {dead : MapId} (newer : dead.number ≤ id.number) :
    skip (some dead) id = id.next := if_neg (Nat.not_lt.mpr newer)

theorem skip_injective (gap : Option MapId) : Function.Injective (skip gap) := by
  intro left right same
  cases gap with
  | none => exact same
  | some dead =>
    unfold skip at same
    have numbers := congrArg Identifier.number same
    grind [Identifier.next, Identifier]

/-- The number left out is not given. -/
theorem skip_ne (gap : Option MapId) (id : MapId) : some (skip gap id) ≠ gap := by
  cases gap with
  | none => exact Option.some_ne_none _
  | some dead => grind [skip, Identifier.next]

theorem skip_next (past : ∀ dead ∈ gap, dead.number ≤ id.number) :
    skip gap id.next = (skip gap id).next := by
  cases gap with
  | none => rfl
  | some dead =>
    have newer := past dead rfl
    have later : dead.number ≤ id.next.number := Nat.le_succ_of_le newer
    rw [skip_newer newer, skip_newer later]

end MapId

/-- The same map under another number. -/
def SharedMap.renumber (rename : MapId → MapId) (shared : SharedMap) : SharedMap :=
  ⟨rename shared.id, shared.map⟩

theorem SharedMap.renumber_eq {rename : MapId → MapId} {shared : SharedMap}
    (same : rename shared.id = shared.id) : shared.renumber rename = shared := by
  unfold renumber
  rw [same]

/-! ### Registries -/

namespace Registry

/-- The maps of one registry have other numbers in the other one, which has left one out. Under
that one it may have a map of an identity for which the first one has none. -/
structure Renumbered (gap : Option MapId) (registry other : Registry) : Prop where
  next : other.next = MapId.skip gap registry.next
  past : ∀ dead ∈ gap, dead.number ≤ registry.next.number
  entries : other.entries.entries.filter (fun entry => some entry.2.id ≠ gap) =
    (registry.entries.mapValues (SharedMap.renumber (MapId.skip gap))).entries
  stale : ∀ identity dead, other.entries.get? identity = some dead → some dead.id = gap →
    registry.entries.get? identity = none

variable {gap : Option MapId} {registry other : Registry} {held : List MapId}
  {identity : MapIdentity} {shared : SharedMap}

namespace Renumbered

/-- Whatever is entered but for the dead map is entered in both. -/
theorem get? (renumbered : Renumbered gap registry other) (identity : MapIdentity) :
    (registry.entries.get? identity).map (SharedMap.renumber (MapId.skip gap)) =
      (other.entries.get? identity).filter fun shared => some shared.id ≠ gap := by
  cases there : other.entries.get? identity with
  | none =>
    have missing := List.find?_eq_none.mp (Option.map_eq_none_iff.mp there)
    rw [← Table.get?_mapValues]
    refine Option.map_eq_none_iff.mpr (List.find?_eq_none.mpr fun entry member => ?_)
    rw [← renumbered.entries] at member
    exact missing entry (List.mem_filter.mp member).1
  | some shared =>
    by_cases dead : some shared.id = gap
    · rw [renumbered.stale identity shared there dead, Option.filter_some,
        if_neg (by simpa using dead)]
      rfl
    · rw [Option.filter_some, if_pos (by simpa using dead), ← Table.get?_mapValues]
      obtain ⟨entry, found, rfl⟩ := Option.map_eq_some_iff.mp there
      obtain ⟨keyed, before, after, split, none⟩ := List.find?_eq_some_iff_append.mp found
      refine Option.map_eq_some_iff.mpr ⟨entry, ?_, rfl⟩
      rw [← renumbered.entries, split, List.filter_append,
        List.filter_cons_of_pos (by simpa using dead)]
      refine List.find?_eq_some_iff_append.mpr ⟨keyed, _, _, rfl, fun prior member => ?_⟩
      exact none prior (List.mem_filter.mp member).1

/-- Two registries are the same but for numbers that are not given differently. -/
theorem of_fixed (past : ∀ dead ∈ gap, dead.number ≤ registry.next.number)
    (next : other.next = MapId.skip gap registry.next)
    (fixed : ∀ entry ∈ registry.entries.entries, some entry.2.id ≠ gap ∧
      MapId.skip gap entry.2.id = entry.2.id)
    (entries : other.entries.entries.filter (fun entry => some entry.2.id ≠ gap) =
      registry.entries.entries)
    (stale : ∀ identity dead, other.entries.get? identity = some dead → some dead.id = gap →
      registry.entries.get? identity = none) : Renumbered gap registry other := by
  refine ⟨next, past, entries.trans ?_, stale⟩
  refine (List.map_id _).symm.trans (List.map_congr_left fun entry member => ?_)
  exact Prod.ext rfl (SharedMap.renumber_eq (fixed entry member).2).symm

theorem refl (registry : Registry) : Renumbered none registry registry :=
  of_fixed (fun _ none => nomatch none) rfl (fun _ _ => ⟨Option.some_ne_none _, rfl⟩)
    (List.filter_eq_self.mpr fun _ _ => decide_eq_true (Option.some_ne_none _))
    fun _ _ _ none => nomatch none

/-- A map that is entered and that nobody holds has taken a number, and that is all. -/
theorem of_register {map : ShaderMap} (held : List MapId) (compiled : map.isCompiled)
    (older : ∀ entry ∈ registry.entries.entries, entry.2.id.number < registry.next.number)
    (absent : registry.entries.get? map.identity = none) :
    Renumbered (some registry.next) registry
      ((registry.adopt map).2.register held (registry.adopt map).1).2 := by
  have entered : ((registry.adopt map).2.register held (registry.adopt map).1).2 =
      { entries := registry.entries.insert map.identity ⟨registry.next, map⟩
        next := registry.next.next } := by
    unfold register adopt
    dsimp only
    rw [compiled, absent]
    rfl
  have apart {entry : MapIdentity × SharedMap} (member : entry ∈ registry.entries.entries) :
      some entry.2.id ≠ some registry.next := fun same =>
    absurd (older entry member) (Option.some.inj same ▸ Nat.lt_irrefl _)
  rw [entered]
  refine of_fixed (fun dead gone => Option.some.inj gone ▸ Nat.le_refl _)
    (MapId.skip_newer (Nat.le_refl _)).symm (fun entry member => ⟨apart member, ?_⟩) ?_
    fun identity dead there gone => ?_
  · exact MapId.skip_older fun dead gone => Option.some.inj gone ▸ older entry member
  · show List.filter _ (_ :: (registry.entries.erase map.identity).entries) = _
    rw [Table.erase_absent absent, List.filter_cons_of_neg (by simp)]
    exact List.filter_eq_self.mpr fun entry member => decide_eq_true (apart member)
  · rw [Table.get?_insert] at there
    split at there
    · rename_i same
      exact same ▸ absent
    · obtain ⟨entry, member, rfl⟩ := Option.map_eq_some_iff.mp there
      exact absurd gone (apart (List.mem_of_find?_eq_some member))

/-- What is removed from both is gone from both. -/
theorem erase (renumbered : Renumbered gap registry other) (identity : MapIdentity) :
    Renumbered gap { registry with entries := registry.entries.erase identity }
      { other with entries := other.entries.erase identity } := by
  refine ⟨renumbered.next, renumbered.past, ?_, fun asked dead there gone => ?_⟩
  · show (List.filter _ (other.entries.erase identity).entries) = _
    rw [← Table.erase_mapValues]
    unfold Table.erase
    dsimp only
    rw [← renumbered.entries, List.filter_filter, List.filter_filter]
    exact List.filter_congr fun _ _ => Bool.and_comm ..
  · show (registry.entries.erase identity).get? asked = none
    rw [Table.get?_erase] at there ⊢
    split at there
    · cases there
    · rename_i different
      rw [if_neg different]
      exact renumbered.stale asked dead there gone

theorem insert (renumbered : Renumbered gap registry other) (identity : MapIdentity)
    (shared : SharedMap) :
    let entered := shared.renumber (MapId.skip gap)
    Renumbered gap { registry with entries := registry.entries.insert identity shared }
      { other with entries := other.entries.insert identity entered } := by
  intro entered
  have erased := renumbered.erase identity
  have given : some entered.id ≠ gap := MapId.skip_ne gap shared.id
  refine ⟨renumbered.next, renumbered.past, ?_, fun asked dead there gone => ?_⟩
  · show List.filter _ (_ :: (other.entries.erase identity).entries) = _
    rw [List.filter_cons_of_pos (by simpa using given), erased.entries]
    rfl
  · show (registry.entries.insert identity shared).get? asked = none
    rw [Table.get?_insert] at there ⊢
    split at there
    · cases there
      exact absurd gone given
    · rename_i different
      rw [if_neg different]
      exact renumbered.stale asked dead there gone

/-- Who holds a map holds the same one under its other number. -/
theorem mem_held (gap : Option MapId) (held : List MapId) (shared : SharedMap) :
    (shared.renumber (MapId.skip gap)).id ∈ held.map (MapId.skip gap) ↔ shared.id ∈ held :=
  List.mem_map_of_injective (MapId.skip_injective gap)

/-- Nobody holds the map whose number is left out. -/
theorem not_held (gap : Option MapId) (held : List MapId) {id : MapId} (dead : some id = gap) :
    id ∉ held.map (MapId.skip gap) := fun member => by
  obtain ⟨other, _, same⟩ := List.mem_map.mp member
  exact MapId.skip_ne gap other (congrArg some same |>.trans dead)

/-- Both find the same map, or both do not. -/
theorem find (renumbered : Renumbered gap registry other) (held : List MapId)
    (identity : MapIdentity) :
    (other.find (held.map (MapId.skip gap)) identity).1 =
        (registry.find held identity).1.map (SharedMap.renumber (MapId.skip gap)) ∧
      Renumbered gap (registry.find held identity).2
        (other.find (held.map (MapId.skip gap)) identity).2 := by
  have seen := renumbered.get? identity
  have erased := renumbered.erase identity
  unfold Registry.find
  cases there : other.entries.get? identity with
  | none =>
    rw [there] at seen
    rw [Option.map_eq_none_iff.mp seen]
    exact ⟨rfl, renumbered⟩
  | some shared =>
    rw [there, Option.filter_some] at seen
    by_cases dead : some shared.id = gap
    · rw [if_neg (by simpa using dead)] at seen
      have absent := Option.map_eq_none_iff.mp seen
      rw [Table.erase_absent absent] at erased
      rw [absent]
      dsimp only
      rw [if_neg (not_held gap held dead)]
      exact ⟨rfl, erased⟩
    · rw [if_pos (by simpa using dead)] at seen
      obtain ⟨entered, present, rfl⟩ := Option.map_eq_some_iff.mp seen
      rw [present]
      dsimp only
      by_cases alive : entered.id ∈ held
      · rw [if_pos alive, if_pos ((mem_held gap held _).mpr alive)]
        exact ⟨rfl, renumbered⟩
      · rw [if_neg alive, if_neg fun member => alive ((mem_held gap held _).mp member)]
        exact ⟨rfl, erased⟩

theorem adopt (renumbered : Renumbered gap registry other) (map : ShaderMap) :
    (other.adopt map).1 = (registry.adopt map).1.renumber (MapId.skip gap) ∧
      Renumbered gap (registry.adopt map).2 (other.adopt map).2 := by
  have next : other.next.next = MapId.skip gap registry.next.next := by
    rw [MapId.skip_next renumbered.past, renumbered.next]
  refine ⟨?_, next, fun dead gone => Nat.le_succ_of_le (renumbered.past dead gone),
    renumbered.entries, renumbered.stale⟩
  unfold Registry.adopt
  rw [renumbered.next]
  rfl

/-- Both take the map, or both have the same one already. -/
theorem register (renumbered : Renumbered gap registry other) (held : List MapId)
    (shared : SharedMap) :
    (other.register (held.map (MapId.skip gap)) (shared.renumber (MapId.skip gap))).1 =
        (registry.register held shared).1.renumber (MapId.skip gap) ∧
      Renumbered gap (registry.register held shared).2
        (other.register (held.map (MapId.skip gap)) (shared.renumber (MapId.skip gap))).2 := by
  have seen := renumbered.get? shared.map.identity
  have entered := renumbered.insert shared.map.identity shared
  have same : (shared.renumber (MapId.skip gap)).map = shared.map := rfl
  unfold Registry.register
  rw [same]
  split
  · exact ⟨rfl, renumbered⟩
  · dsimp only
    cases there : other.entries.get? shared.map.identity with
    | none =>
      rw [there] at seen
      rw [Option.map_eq_none_iff.mp seen]
      exact ⟨rfl, entered⟩
    | some incumbent =>
      rw [there, Option.filter_some] at seen
      by_cases dead : some incumbent.id = gap
      · rw [if_neg (by simpa using dead)] at seen
        rw [Option.map_eq_none_iff.mp seen]
        dsimp only
        rw [if_neg (not_held gap held dead)]
        exact ⟨rfl, entered⟩
      · rw [if_pos (by simpa using dead)] at seen
        obtain ⟨present, before, rfl⟩ := Option.map_eq_some_iff.mp seen
        rw [before]
        dsimp only
        by_cases alive : present.id ∈ held
        · rw [if_pos alive, if_pos ((mem_held gap held _).mpr alive)]
          exact ⟨rfl, renumbered⟩
        · rw [if_neg alive, if_neg fun member => alive ((mem_held gap held _).mp member)]
          exact ⟨rfl, entered⟩

/-- Both have the same number of live maps. -/
theorem size (renumbered : Renumbered gap registry other) (held : List MapId) :
    other.size (held.map (MapId.skip gap)) = registry.size held := by
  have living : (other.entries.entries.filter fun entry =>
      entry.2.id ∈ held.map (MapId.skip gap)) = ((registry.entries.mapValues
        (SharedMap.renumber (MapId.skip gap))).entries.filter fun entry =>
          entry.2.id ∈ held.map (MapId.skip gap)) := by
    rw [← renumbered.entries, List.filter_filter]
    refine List.filter_congr fun entry _ => ?_
    by_cases dead : some entry.2.id = gap
    · simp [dead, not_held gap held dead]
    · simp [dead]
  unfold Registry.size Table.values
  rw [List.filter_map, List.length_map, List.filter_map, List.length_map]
  refine (congrArg List.length living).trans ?_
  unfold Table.mapValues
  rw [List.filter_map, List.length_map]
  refine congrArg List.length (List.filter_congr fun entry _ => ?_)
  exact decide_eq_decide.mpr (mem_held gap held entry.2)

end Renumbered

end Registry

/-! ### Stores -/

namespace MemoryStore

/-- What has been written into a store, whatever has been looked up meanwhile. -/
structure Took (store : MemoryStore) (written : List (String × List UInt8))
    (later : MemoryStore) : Prop where
  blobs : later.blobs = written.foldl (fun blobs entry => blobs.insert entry.1 entry.2) store.blobs
  puts : later.puts = store.puts + written.length

variable {store later : MemoryStore} {written : List (String × List UInt8)}

theorem Took.refl (store : MemoryStore) : Took store [] store := ⟨rfl, rfl⟩

theorem Took.get (took : Took store written later) (key : String) :
    Took store written (later.get key).2 := ⟨took.blobs, took.puts⟩

theorem Took.put (took : Took store written later) (key : String) (blob : List UInt8) :
    Took store (written ++ [(key, blob)]) (later.put key blob) := by
  constructor
  · rw [List.foldl_append, ← took.blobs]
    rfl
  · rw [List.length_append, ← Nat.add_assoc, ← took.puts]
    rfl

end MemoryStore

end Shading
