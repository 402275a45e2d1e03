/-
Maps that are known. A map is known by its number, the registry has each map
under its own identity, and the next number it gives belongs to no map yet. A
map that is offered is handed back itself, or else another one of its identity
that is still held. Even where nothing is said of the maps themselves, the numbers
of those that are registered have been given out.
-/

import Shading.Map.Registry

namespace Shading

namespace Table

variable {κ β : Type} [DecidableEq κ] {table : Table κ β} {key other : κ} {value : β}
  {entry : κ × β}

theorem mem_entries_of_get? (found : table.get? key = some value) :
    (key, value) ∈ table.entries := by
  obtain ⟨entry, first, rfl⟩ := Option.map_eq_some_iff.mp found
  have keyed : entry.1 = key := of_decide_eq_true (List.find?_some first :)
  exact keyed ▸ List.mem_of_find?_eq_some first

theorem mem_entries_of_erase (member : entry ∈ (table.erase key).entries) :
    entry ∈ table.entries :=
  (List.mem_filter.mp member).1

theorem mem_entries_of_insert (member : entry ∈ (table.insert key value).entries) :
    entry = (key, value) ∨ entry ∈ table.entries :=
  (List.mem_cons.mp member).imp_right mem_entries_of_erase

theorem mem_entries_of_modify {change : β → β}
    (member : entry ∈ (table.modify key change).entries) :
    (∃ before, (key, before) ∈ table.entries ∧ entry = (key, change before)) ∨
      entry ∈ table.entries := by
  unfold modify at member
  split at member
  · rename_i before found
    rcases mem_entries_of_insert member with rfl | left
    · exact .inl ⟨before, mem_entries_of_get? found, rfl⟩
    · exact .inr left
  · exact .inr member

theorem contains_of_insert (inside : (table.insert key value).contains other) :
    other = key ∨ table.contains other := by
  unfold contains at inside
  rw [get?_insert] at inside
  split at inside
  · rename_i same
    exact .inl same
  · exact .inr inside

theorem contains_of_erase (inside : (table.erase key).contains other) :
    other ≠ key ∧ table.contains other := by
  unfold contains at inside
  rw [get?_erase] at inside
  split at inside
  · cases inside
  · rename_i different
    exact ⟨different, inside⟩

end Table

namespace Registry

variable {registry : Registry} {others : List SharedMap} {held : List MapId}

/-- The maps in the registry, alive or not, together with some that are known otherwise. -/
def known (registry : Registry) (others : List SharedMap) : List SharedMap :=
  others ++ registry.entries.values

/-- What is known about the maps of a registry, about others, and about the numbers of maps that
are held somewhere. -/
structure Genuine (registry : Registry) (others : List SharedMap) (held : List MapId) : Prop where
  keyed : ∀ entry ∈ registry.entries.entries,
    entry.2.map.identity = entry.1 ∧ entry.2.map.isCompiled
  numbered : ∀ shared ∈ registry.known others, shared.id.number < registry.next.number
  alike : ∀ left ∈ registry.known others, ∀ right ∈ registry.known others,
    left.id = right.id → left = right
  held : ∀ id ∈ held, id.number < registry.next.number

theorem mem_known_of_get? {identity : MapIdentity} {shared : SharedMap}
    (found : registry.entries.get? identity = some shared) (others : List SharedMap) :
    shared ∈ registry.known others :=
  List.mem_append_right _ (List.mem_map_of_mem (Table.mem_entries_of_get? found))

namespace Genuine

theorem keyed_of_get? {identity : MapIdentity} {shared : SharedMap}
    (genuine : registry.Genuine others held)
    (found : registry.entries.get? identity = some shared) :
    shared.map.identity = identity ∧ shared.map.isCompiled :=
  genuine.keyed _ (Table.mem_entries_of_get? found)

/-- Less may be known, and a map that is known may be held. -/
theorem mono {others' : List SharedMap} {held' : List MapId}
    (genuine : registry.Genuine others held)
    (fewer : ∀ shared ∈ others', shared ∈ registry.known others)
    (kept : ∀ id ∈ held', id ∈ held ∨ ∃ shared ∈ registry.known others, shared.id = id) :
    registry.Genuine others' held' := by
  have known (shared : SharedMap) (member : shared ∈ registry.known others') :
      shared ∈ registry.known others := by
    rcases List.mem_append.mp member with other | entered
    · exact fewer shared other
    · exact List.mem_append_right _ entered
  refine ⟨genuine.keyed, fun shared member => genuine.numbered shared (known shared member),
    fun left first right second => genuine.alike left (known left first) right
      (known right second), fun id member => ?_⟩
  rcases kept id member with before | ⟨shared, there, rfl⟩
  · exact genuine.held id before
  · exact genuine.numbered shared there

theorem fewer {others' : List SharedMap} (genuine : registry.Genuine others held)
    (fewer : ∀ shared ∈ others', shared ∈ registry.known others) :
    registry.Genuine others' held :=
  genuine.mono fewer fun _ member => .inl member

/-- Entries may be dropped. -/
theorem dropped {entries : Table MapIdentity SharedMap} (genuine : registry.Genuine others held)
    (left : ∀ entry ∈ entries.entries, entry ∈ registry.entries.entries) :
    Genuine { registry with entries } others held := by
  have known (shared : SharedMap)
      (member : shared ∈ Registry.known { registry with entries } others) :
      shared ∈ registry.known others := by
    rcases List.mem_append.mp member with other | entered
    · exact List.mem_append_left _ other
    · obtain ⟨entry, there, rfl⟩ := List.mem_map.mp entered
      exact List.mem_append_right _ (List.mem_map_of_mem (left entry there))
  exact ⟨fun entry member => genuine.keyed entry (left entry member),
    fun shared member => genuine.numbered shared (known shared member),
    fun first member second other => genuine.alike first (known first member) second
      (known second other), genuine.held⟩

theorem find (genuine : registry.Genuine others held) (live : List MapId)
    (identity : MapIdentity) : (registry.find live identity).2.Genuine others held := by
  unfold Registry.find
  split
  · exact genuine
  · split
    · exact genuine
    · exact genuine.dropped fun _ => Table.mem_entries_of_erase

theorem purge (genuine : registry.Genuine others held) (live : List MapId) :
    (registry.purge live).2.Genuine others held :=
  genuine.dropped fun _ member => (List.mem_filter.mp member).1

/-- A map with a new number becomes known. -/
theorem adopt (genuine : registry.Genuine others held) (map : ShaderMap) :
    (registry.adopt map).2.Genuine ((registry.adopt map).1 :: others) held := by
  have older {number : Nat} (before : number < registry.next.number) :
      number < registry.next.next.number := Nat.lt_succ_of_lt before
  have new (shared : SharedMap) (member : shared ∈ registry.known others) :
      shared.id ≠ registry.next := fun same =>
    absurd (genuine.numbered shared member) (by rw [same]; exact Nat.lt_irrefl _)
  have known (shared : SharedMap)
      (member : shared ∈ (registry.adopt map).2.known ((registry.adopt map).1 :: others)) :
      shared = (registry.adopt map).1 ∨ shared ∈ registry.known others :=
    List.mem_cons.mp member
  refine ⟨genuine.keyed, fun shared member => ?_, fun left first right second same => ?_,
    fun id member => older (genuine.held id member)⟩
  · rcases known shared member with rfl | before
    · exact Nat.lt_succ_self _
    · exact older (genuine.numbered shared before)
  · rcases known left first with rfl | leftBefore
    · rcases known right second with rfl | rightBefore
      · rfl
      · exact absurd same.symm (new right rightBefore)
    · rcases known right second with rfl | rightBefore
      · exact absurd same (new left leftBefore)
      · exact genuine.alike left leftBefore right rightBefore same

/-- A map may become known that has an old number and is not mistaken for another. -/
theorem recognize {shared : SharedMap} (genuine : registry.Genuine others held)
    (older : shared.id.number < registry.next.number)
    (only : ∀ other ∈ registry.known others, other.id = shared.id → other = shared) :
    registry.Genuine (shared :: others) held := by
  have known (other : SharedMap) (member : other ∈ registry.known (shared :: others)) :
      other = shared ∨ other ∈ registry.known others := List.mem_cons.mp member
  refine ⟨genuine.keyed, fun other member => ?_, fun left first right second same => ?_,
    genuine.held⟩
  · rcases known other member with rfl | before
    · exact older
    · exact genuine.numbered other before
  · rcases known left first with rfl | leftBefore
    · rcases known right second with rfl | rightBefore
      · rfl
      · exact (only right rightBefore same.symm).symm
    · rcases known right second with rfl | rightBefore
      · exact only left leftBefore same
      · exact genuine.alike left leftBefore right rightBefore same

/-- A map that is known already may be entered under its identity. -/
theorem enter {shared : SharedMap} (genuine : registry.Genuine others held)
    (member : shared ∈ registry.known others) (compiled : shared.map.isCompiled) :
    Genuine { registry with entries := registry.entries.insert shared.map.identity shared }
      others held := by
  have known (other : SharedMap) (there : other ∈ Registry.known
      { registry with entries := registry.entries.insert shared.map.identity shared } others) :
      other ∈ registry.known others := by
    rcases List.mem_append.mp there with otherwise | entered
    · exact List.mem_append_left _ otherwise
    · obtain ⟨entry, inside, rfl⟩ := List.mem_map.mp entered
      rcases Table.mem_entries_of_insert inside with rfl | before
      · exact member
      · exact List.mem_append_right _ (List.mem_map_of_mem before)
  refine ⟨fun entry inside => ?_, fun other there => genuine.numbered other (known other there),
    fun left first right second => genuine.alike left (known left first) right
      (known right second), genuine.held⟩
  rcases Table.mem_entries_of_insert inside with rfl | before
  · exact ⟨rfl, compiled⟩
  · exact genuine.keyed entry before

end Genuine

/-! ### Finding -/

/-- Either a map is found that is held, or there is none, and then the registry has no entry for
the identity any more. -/
theorem find_cases (registry : Registry) (live : List MapId) (identity : MapIdentity) :
    (∃ shared, registry.entries.get? identity = some shared ∧ shared.id ∈ live ∧
        registry.find live identity = (some shared, registry)) ∨
      ((∀ shared, registry.entries.get? identity = some shared → shared.id ∉ live) ∧
        ∃ entries : Table MapIdentity SharedMap, entries.get? identity = none ∧
          registry.find live identity = (none, { registry with entries })) := by
  unfold find
  cases found : registry.entries.get? identity with
  | none => exact .inr ⟨fun _ there => (nomatch there), registry.entries, found, rfl⟩
  | some shared =>
    by_cases alive : shared.id ∈ live
    · exact .inl ⟨shared, rfl, alive, if_pos alive⟩
    · refine .inr ⟨fun other same => Option.some.inj same ▸ alive,
        registry.entries.erase identity, ?_, if_neg alive⟩
      rw [Table.get?_erase, if_pos rfl]

/-! ### Offering -/

/-- A compiled map that is offered: one of its identity that is held is handed back, and
otherwise the map itself is entered. -/
theorem register_cases (registry : Registry) (live : List MapId) {shared : SharedMap}
    (compiled : shared.map.isCompiled) :
    (∃ incumbent, registry.entries.get? shared.map.identity = some incumbent ∧
        incumbent.id ∈ live ∧ registry.register live shared = (incumbent, registry)) ∨
      ((∀ incumbent, registry.entries.get? shared.map.identity = some incumbent →
          incumbent.id ∉ live) ∧
        registry.register live shared = (shared,
          { registry with entries := registry.entries.insert shared.map.identity shared })) := by
  have enters : (!shared.map.isCompiled) = false := by rw [compiled]; rfl
  unfold register
  rw [if_neg (by rw [enters]; exact Bool.false_ne_true)]
  cases found : registry.entries.get? shared.map.identity with
  | none => exact .inr ⟨fun _ there => (nomatch there), rfl⟩
  | some incumbent =>
    by_cases alive : incumbent.id ∈ live
    · exact .inl ⟨incumbent, rfl, alive, if_pos alive⟩
    · refine .inr ⟨fun other same => ?_, if_neg alive⟩
      cases same
      exact alive

/-- Where there was no entry for an identity, the map that is offered is handed back. -/
theorem register_absent {shared : SharedMap} (live : List MapId)
    (absent : registry.entries.get? shared.map.identity = none) :
    (registry.register live shared).1 = shared := by
  unfold register
  rw [absent]
  split <;> rfl

/-- Where there was no entry for an identity, there is at most the one of the map offered. -/
theorem eq_of_register_absent {live : List MapId} {shared other : SharedMap}
    (absent : registry.entries.get? shared.map.identity = none)
    (found : (registry.register live shared).2.entries.get? shared.map.identity = some other) :
    other = shared := by
  by_cases compiled : shared.map.isCompiled
  · rcases registry.register_cases live compiled with ⟨incumbent, there, _, _⟩ | ⟨_, back⟩
    · rw [absent] at there
      cases there
    · rw [back] at found
      rw [Table.get?_insert, if_pos rfl] at found
      exact (Option.some.inj found).symm
  · unfold register at found
    rw [if_pos (by rw [Bool.not_eq_true _ |>.mp compiled]; rfl), absent] at found
    cases found

/-- What comes back for a map that is offered is known, and has its identity. -/
theorem Genuine.register (genuine : registry.Genuine others held) (live : List MapId)
    {shared : SharedMap} (member : shared ∈ registry.known others) :
    (registry.register live shared).2.Genuine ((registry.register live shared).1 :: others) held ∧
      (registry.register live shared).1.map.identity = shared.map.identity := by
  have also {canonical : SharedMap} {registry : Registry} (genuine : registry.Genuine others held)
      (member : canonical ∈ registry.known others) :
      registry.Genuine (canonical :: others) held := by
    refine genuine.fewer fun other there => ?_
    rcases List.mem_cons.mp there with rfl | before
    · exact member
    · exact List.mem_append_left _ before
  by_cases compiled : shared.map.isCompiled
  · rcases registry.register_cases live compiled with
      ⟨incumbent, found, _, back⟩ | ⟨_, back⟩
    · rw [back]
      exact ⟨also genuine (mem_known_of_get? found others), (genuine.keyed_of_get? found).1⟩
    · rw [back]
      refine ⟨also (genuine.enter member compiled) ?_, rfl⟩
      exact mem_known_of_get? ((Table.get?_insert ..).trans (if_pos rfl)) others
  · unfold Registry.register
    rw [if_pos (by rw [Bool.not_eq_true _ |>.mp compiled]; rfl)]
    exact ⟨also genuine member, rfl⟩

/-! ### Numbers that have been given out -/

/-- The maps that are registered have numbers that have been given out. -/
def Counts (registry : Registry) : Prop :=
  ∀ entry ∈ registry.entries.entries, entry.2.id.number < registry.next.number

theorem Counts.unnumbered {identity : MapIdentity} (counts : registry.Counts)
    (found : registry.entries.get? identity = some shared) : shared.id ≠ registry.next :=
  fun same => Nat.lt_irrefl _ (same ▸ counts _ (Table.mem_entries_of_get? found))

theorem Counts.adopt (counts : registry.Counts) : ({ registry with next := registry.next.next } :
    Registry).Counts :=
  fun entry member => Nat.lt_succ_of_lt (counts entry member)

theorem Counts.enter (counts : registry.Counts) (identity : MapIdentity)
    (numbered : shared.id.number < registry.next.number) :
    ({ registry with entries := registry.entries.insert identity shared } : Registry).Counts := by
  intro entry member
  rcases Table.mem_entries_of_insert member with rfl | before
  · exact numbered
  · exact counts entry before

theorem Counts.find (counts : registry.Counts) (live : List MapId) (identity : MapIdentity) :
    (registry.find live identity).2.Counts := by
  unfold Registry.find
  split
  · exact counts
  · split
    · exact counts
    · exact fun entry member => counts entry (Table.mem_entries_of_erase member)

theorem Counts.purge (counts : registry.Counts) (live : List MapId) :
    (registry.purge live).2.Counts :=
  fun entry member => counts entry (List.mem_filter.mp member).1

/-- A map is given a number and offered. -/
theorem Counts.offer (counts : registry.Counts) (live : List MapId) (map : ShaderMap) :
    ((registry.adopt map).2.register live (registry.adopt map).1).2.Counts := by
  have below : (registry.adopt map).1.id.number < (registry.adopt map).2.next.number :=
    Nat.lt_succ_self _
  have entered := counts.adopt.enter map.identity below
  unfold register
  split
  · exact counts.adopt
  · dsimp only
    split
    · exact entered
    · split
      · exact counts.adopt
      · exact entered

end Registry

end Shading
