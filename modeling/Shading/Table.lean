/-
Finite tables. A table is a list of entries of which only the first one for a
key counts; writing puts the new entry in front and drops the older ones, so a
key never occurs twice. The order of the entries says nothing but which was
written last, and whoever shows a table sorts it.
-/

namespace Shading

structure Table (κ β : Type) where
  entries : List (κ × β) := []
deriving Inhabited

namespace Table

variable {κ β : Type} [DecidableEq κ]

def empty : Table κ β := ⟨[]⟩

def get? (table : Table κ β) (key : κ) : Option β :=
  (table.entries.find? fun entry => entry.1 = key).map Prod.snd

def contains (table : Table κ β) (key : κ) : Bool := (table.get? key).isSome

def erase (table : Table κ β) (key : κ) : Table κ β :=
  ⟨table.entries.filter fun entry => entry.1 ≠ key⟩

def insert (table : Table κ β) (key : κ) (value : β) : Table κ β :=
  ⟨(key, value) :: (table.erase key).entries⟩

/-- Applies a change to the entry of a key, if there is one. -/
def modify (table : Table κ β) (key : κ) (change : β → β) : Table κ β :=
  match table.get? key with
  | some value => table.insert key (change value)
  | none => table

/-- Writes or removes the entry of a key. -/
def set (table : Table κ β) (key : κ) (value : Option β) : Table κ β :=
  match value with
  | some value => table.insert key value
  | none => table.erase key

def keys (table : Table κ β) : List κ := table.entries.map Prod.fst

def values (table : Table κ β) : List β := table.entries.map Prod.snd

def size (table : Table κ β) : Nat := table.entries.length

def isEmpty (table : Table κ β) : Bool := table.entries.isEmpty

/-! ### Reading after writing -/

theorem get?_erase (table : Table κ β) (key other : κ) :
    (table.erase key).get? other = if other = key then none else table.get? other := by
  obtain ⟨entries⟩ := table
  simp only [erase, get?]
  induction entries with
  | nil => simp
  | cons entry rest inductionHypothesis =>
    by_cases removed : entry.1 = key <;> by_cases wanted : entry.1 = other <;> grind

theorem get?_insert (table : Table κ β) (key other : κ) (value : β) :
    (table.insert key value).get? other = if other = key then some value else table.get? other := by
  by_cases same : other = key
  · simp [insert, get?, same]
  · have different : ¬ key = other := fun equal => same equal.symm
    have erased := get?_erase table key other
    rw [if_neg same] at erased ⊢
    rw [← erased]
    simp [insert, get?, different]

theorem get?_modify (table : Table κ β) (key other : κ) (change : β → β) :
    (table.modify key change).get? other =
      if other = key then (table.get? key).map change else table.get? other := by
  unfold modify
  split
  · rename_i value found
    rw [get?_insert, found]
    rfl
  · rename_i missing
    by_cases same : other = key
    · rw [if_pos same, same, missing]
      rfl
    · rw [if_neg same]

theorem get?_set (table : Table κ β) (key other : κ) (value : Option β) :
    (table.set key value).get? other = if other = key then value else table.get? other := by
  cases value with
  | none => exact get?_erase table key other
  | some value => exact get?_insert table key other value

theorem mem_keys_of_get? {table : Table κ β} {key : κ} {value : β}
    (found : table.get? key = some value) : key ∈ table.keys := by
  obtain ⟨entry, member, rfl⟩ := Option.map_eq_some_iff.mp found
  have keyed : entry.1 = key := by simpa using List.find?_some member
  exact keyed ▸ List.mem_map_of_mem (List.mem_of_find?_eq_some member)

end Table

end Shading
