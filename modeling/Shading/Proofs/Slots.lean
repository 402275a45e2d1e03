/-
Keys of slots. A slot is taken or vacant. The versions of a slot only go up: the
key a vacant slot gives next is later than all it has given, and the key of a
taken slot is the last it has given. So a key that was given once is not given
again, and whoever keeps the key of something that was taken out does not come
to something else by it.
-/

import Shading.Slots

namespace Shading.Slots

variable {α : Type} {slots : Slots α} {key other : SlotKey} {value : α}

/-! ### Reading after writing -/

theorem get?_insert (slots : Slots α) (value : α) (key : SlotKey) :
    (slots.insert value).2.get? key =
      if key = slots.nextKey then some value else slots.get? key :=
  Table.get?_insert ..

theorem get?_modify (slots : Slots α) (key other : SlotKey) (change : α → α) :
    (slots.modify key change).get? other =
      if other = key then (slots.get? key).map change else slots.get? other :=
  Table.get?_modify ..

theorem get?_erase (slots : Slots α) (key other : SlotKey) :
    (slots.erase key).get? other = if other = key then none else slots.get? other := by
  unfold erase
  split
  · exact Table.get?_erase ..
  · rename_i absent
    split
    · rename_i same
      rw [same]
      exact Option.not_isSome_iff_eq_none.mp absent
    · rfl

/-! ### Keys that were given -/

/-- Each slot is vacant at most once, and then it is not taken as well; and no slot is taken
twice. -/
structure Orderly (slots : Slots α) : Prop where
  vacant : slots.vacant.Pairwise fun first second => first.index ≠ second.index
  counted : ∀ key, (slots.get? key).isSome ∨ key ∈ slots.vacant → key.index ≤ slots.count
  apart : ∀ key, (slots.get? key).isSome → ∀ next ∈ slots.vacant, next.index ≠ key.index
  single : ∀ first second, (slots.get? first).isSome → (slots.get? second).isSome →
    first.index = second.index → first = second

/-- The key has been given: its slot is there, and the slot has no earlier version now. -/
structure Given (slots : Slots α) (key : SlotKey) : Prop where
  counted : key.index ≤ slots.count
  vacant : ∀ next ∈ slots.vacant, next.index = key.index → key.version < next.version
  taken : ∀ other, (slots.get? other).isSome → other.index = key.index →
    key.version ≤ other.version

theorem orderly_empty : ({} : Slots α).Orderly where
  vacant := .nil
  counted := fun _ there => by
    rcases there with taken | member
    · cases taken
    · cases member
  apart := fun _ taken => nomatch taken
  single := fun _ _ taken => nomatch taken

theorem Orderly.given (orderly : slots.Orderly) (there : (slots.get? key).isSome) :
    slots.Given key where
  counted := orderly.counted key (.inl there)
  vacant := fun next member same => absurd same (orderly.apart key there next member)
  taken := fun other found same =>
    Nat.le_of_eq (congrArg SlotKey.version (orderly.single other key found there same).symm)

/-- What is given next has not been given. -/
theorem Given.ne_nextKey (given : slots.Given key) : key ≠ slots.nextKey := by
  rintro rfl
  unfold nextKey at given
  cases left : slots.vacant with
  | nil =>
    rw [left] at given
    exact Nat.not_succ_le_self _ given.counted
  | cons first rest =>
    rw [left] at given
    have later := given.vacant first (by rw [left]; exact List.mem_cons_self) rfl
    exact Nat.lt_irrefl _ later

theorem isSome_insert (there : ((slots.insert value).2.get? key).isSome) :
    key = slots.nextKey ∨ (slots.get? key).isSome := by
  rw [get?_insert] at there
  split at there
  · rename_i same
    exact .inl same
  · exact .inr there

/-- A new key is for the first vacant slot, or for one that was not there. -/
theorem nextKey_cases (slots : Slots α) (value : α) :
    (∃ rest, slots.vacant = slots.nextKey :: rest ∧ (slots.insert value).2.vacant = rest ∧
      (slots.insert value).2.count = slots.count) ∨
    slots.vacant = [] ∧ slots.nextKey.index = slots.count + 1 ∧
      (slots.insert value).2.vacant = [] ∧ (slots.insert value).2.count = slots.count + 1 := by
  unfold nextKey insert
  cases slots.vacant with
  | nil => exact .inr ⟨rfl, rfl, rfl, rfl⟩
  | cons first rest => exact .inl ⟨rest, rfl, rfl, rfl⟩

theorem Orderly.insert (orderly : slots.Orderly) (value : α) :
    (slots.insert value).2.Orderly := by
  rcases slots.nextKey_cases value with ⟨rest, vacant, left, count⟩ | ⟨vacant, index, left, count⟩
  · have taken := orderly.vacant
    rw [vacant] at taken
    obtain ⟨other, apart⟩ := List.pairwise_cons.mp taken
    have index : slots.nextKey.index ≤ slots.count :=
      orderly.counted _ (.inr (by rw [vacant]; exact List.mem_cons_self))
    have inside {next : SlotKey} (member : next ∈ rest) : next ∈ slots.vacant := by
      rw [vacant]
      exact List.mem_cons_of_mem _ member
    have free {key : SlotKey} (there : (slots.get? key).isSome) :
        slots.nextKey.index ≠ key.index :=
      orderly.apart key there _ (by rw [vacant]; exact List.mem_cons_self)
    refine ⟨left ▸ apart, fun key there => ?_, fun key there next member => ?_,
      fun first second one two same => ?_⟩
    · rw [count]
      rcases there with there | member
      · rcases isSome_insert there with rfl | there
        · exact index
        · exact orderly.counted key (.inl there)
      · exact orderly.counted key (.inr (inside (left ▸ member)))
    · rw [left] at member
      rcases isSome_insert there with rfl | there
      · exact (other next member).symm
      · exact orderly.apart key there next (inside member)
    · rcases isSome_insert one with rfl | one <;> rcases isSome_insert two with rfl | two
      · rfl
      · exact absurd same (free two)
      · exact absurd same.symm (free one)
      · exact orderly.single first second one two same
  · have free {key : SlotKey} (there : (slots.get? key).isSome) :
        slots.nextKey.index ≠ key.index := by
      have counted := orderly.counted key (.inl there)
      omega
    refine ⟨left ▸ .nil, fun key there => ?_, fun key there next member => ?_,
      fun first second one two same => ?_⟩
    · rw [count]
      rcases there with there | member
      · rcases isSome_insert there with rfl | there
        · exact Nat.le_of_eq index
        · exact Nat.le_succ_of_le (orderly.counted key (.inl there))
      · rw [left] at member
        cases member
    · rw [left] at member
      cases member
    · rcases isSome_insert one with rfl | one <;> rcases isSome_insert two with rfl | two
      · rfl
      · exact absurd same (free two)
      · exact absurd same.symm (free one)
      · exact orderly.single first second one two same

theorem Given.insert (given : slots.Given key) (value : α) :
    (slots.insert value).2.Given key := by
  rcases slots.nextKey_cases value with ⟨rest, vacant, left, count⟩ | ⟨vacant, index, left, count⟩
  · have inside {next : SlotKey} (member : next ∈ rest) : next ∈ slots.vacant := by
      rw [vacant]
      exact List.mem_cons_of_mem _ member
    refine ⟨count ▸ given.counted, fun next member => given.vacant next (inside (left ▸ member)),
      fun other there same => ?_⟩
    rcases isSome_insert there with rfl | there
    · exact Nat.le_of_lt (given.vacant _ (by rw [vacant]; exact List.mem_cons_self) same)
    · exact given.taken other there same
  · have counted := given.counted
    refine ⟨by omega, fun next member => ?_, fun other there same => ?_⟩
    · rw [left] at member
      cases member
    · rcases isSome_insert there with rfl | there
      · omega
      · exact given.taken other there same

/-! ### Taking out -/

theorem Orderly.erase (orderly : slots.Orderly) (key : SlotKey) : (slots.erase key).Orderly := by
  by_cases there : (slots.get? key).isSome
  · have taken : (slots.erase key).vacant = ⟨key.index, key.version + 2⟩ :: slots.vacant ∧
        (slots.erase key).count = slots.count := by
      unfold Slots.erase
      rw [if_pos (show slots.contains key from there)]
      exact ⟨rfl, rfl⟩
    have before {other : SlotKey} (left : ((slots.erase key).get? other).isSome) :
        other ≠ key ∧ (slots.get? other).isSome := by
      rw [get?_erase] at left
      split at left
      · cases left
      · rename_i different
        exact ⟨different, left⟩
    refine ⟨?_, fun other left => ?_, fun other left next member => ?_,
      fun first second one two => orderly.single first second (before one).2 (before two).2⟩
    · rw [taken.1]
      exact List.pairwise_cons.mpr
        ⟨fun next member => (orderly.apart key there next member).symm, orderly.vacant⟩
    · rw [taken.1] at left
      rw [taken.2]
      rcases left with left | member
      · exact orderly.counted other (.inl (before left).2)
      · rcases List.mem_cons.mp member with rfl | member
        · exact orderly.counted key (.inl there)
        · exact orderly.counted other (.inr member)
    · rw [taken.1] at member
      obtain ⟨different, found⟩ := before left
      rcases List.mem_cons.mp member with rfl | member
      · exact fun same => different (orderly.single other key found there same.symm)
      · exact orderly.apart other found next member
  · have same : slots.erase key = slots := by
      unfold Slots.erase
      rw [if_neg (show ¬ slots.contains key from there)]
    rw [same]
    exact orderly

theorem Given.erase (given : slots.Given other) (key : SlotKey) :
    (slots.erase key).Given other := by
  unfold Slots.erase
  split
  · rename_i there
    refine ⟨given.counted, fun next member same => ?_, fun third left => ?_⟩
    · rcases List.mem_cons.mp member with rfl | member
      · have least := given.taken key there same
        show other.version < key.version + 2
        omega
      · exact given.vacant next member same
    · refine given.taken third ?_
      have here : ((slots.entries.erase key).get? third).isSome := left
      rw [Table.get?_erase] at here
      split at here
      · cases here
      · exact here
  · exact given

/-! ### Changing what is there -/

/-- The same keys are taken, and the same will be given. -/
structure SameKeys {β : Type} (slots : Slots α) (other : Slots β) : Prop where
  taken : ∀ key, (other.get? key).isSome = (slots.get? key).isSome
  count : other.count = slots.count
  vacant : other.vacant = slots.vacant

namespace SameKeys

variable {later last : Slots α}

theorem refl (slots : Slots α) : SameKeys slots slots := ⟨fun _ => rfl, rfl, rfl⟩

theorem trans (first : SameKeys slots later) (second : SameKeys later last) :
    SameKeys slots last :=
  ⟨fun key => (second.taken key).trans (first.taken key), second.count.trans first.count,
    second.vacant.trans first.vacant⟩

theorem modify (slots : Slots α) (key : SlotKey) (change : α → α) :
    SameKeys slots (slots.modify key change) := by
  refine ⟨fun other => ?_, rfl, rfl⟩
  rw [get?_modify]
  split
  · rename_i same
    rw [same, Option.isSome_map]
  · rfl

theorem orderly (same : SameKeys slots later) (orderly : slots.Orderly) : later.Orderly where
  vacant := same.vacant ▸ orderly.vacant
  counted := fun key => by
    rw [same.taken, same.vacant, same.count]
    exact orderly.counted key
  apart := fun key => by
    rw [same.taken, same.vacant]
    exact orderly.apart key
  single := fun first second => by
    rw [same.taken, same.taken]
    exact orderly.single first second

theorem given (same : SameKeys slots later) (given : slots.Given key) : later.Given key where
  counted := same.count ▸ given.counted
  vacant := same.vacant ▸ given.vacant
  taken := fun other => by
    rw [same.taken]
    exact given.taken other

end SameKeys

end Shading.Slots
