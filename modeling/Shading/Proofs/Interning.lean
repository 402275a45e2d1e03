/-
Static parameters as they are kept in a process. Names and choices are interned:
a set holds symbols, whose numbers tell in which order the process came across
the texts. A set is searched by halving, and what is compared is the bytes of
the texts that the symbols stand for. Hence a set is always sorted by these
texts, whatever the symbols are, and its entries are decided by the finite map
that it stands for. So is everything else about it: what is read from it, the
bytes that digests are taken of, and its description.
-/

import Mathlib
import Shading.Proofs.Mapping

namespace Shading

/-! ### Interned sets -/

/-- A table of texts and their symbols. A table may be full. -/
structure Interner (Table Symbol : Type) where
  intern : Table → String → Option (Table × Symbol)
  resolve : Table → Symbol → String
  /-- The symbols that a table has given. -/
  Knows : Table → Symbol → Prop

namespace Interner

variable {Table Symbol : Type} {interner : Interner Table Symbol} {table next last : Table}
  {symbol other : Symbol} {name : String}

/-- A later table of the same process. -/
def Grown (interner : Interner Table Symbol) (table next : Table) : Prop :=
  ∀ symbol, interner.Knows table symbol →
    interner.Knows next symbol ∧ interner.resolve next symbol = interner.resolve table symbol

theorem Grown.refl : interner.Grown table table := fun _ known => ⟨known, rfl⟩

theorem Grown.trans (first : interner.Grown table next)
    (second : interner.Grown next last) : interner.Grown table last := by
  intro symbol known
  obtain ⟨known, same⟩ := first symbol known
  exact (second symbol known).imp_right fun same' => same'.trans same

/-- What a table promises. -/
structure Lawful (interner : Interner Table Symbol) : Prop where
  /-- A symbol stands for the text that it is given to. -/
  given {table next : Table} {text : String} {symbol : Symbol} :
    interner.intern table text = some (next, symbol) →
      interner.Knows next symbol ∧ interner.resolve next symbol = text
  /-- Symbols never change what they stand for. -/
  kept {table next : Table} {text : String} {symbol : Symbol} :
    interner.intern table text = some (next, symbol) → interner.Grown table next
  /-- A text that has a symbol gets no other. -/
  known {table : Table} {symbol : Symbol} : interner.Knows table symbol →
    interner.intern table (interner.resolve table symbol) = some (table, symbol)

theorem Lawful.eq_of_resolve (lawful : interner.Lawful) (known : interner.Knows table symbol)
    (known' : interner.Knows table other)
    (same : interner.resolve table symbol = interner.resolve table other) : symbol = other := by
  have first := lawful.known known
  rw [same, lawful.known known'] at first
  exact (Prod.mk.inj (Option.some.inj first)).2.symm

/-- A value whose choice is a symbol. -/
inductive Value (Symbol : Type) where
  | switch (on : Bool)
  | choice (symbol : Symbol)
  | mask (components : UInt8)
deriving DecidableEq

/-- The entries of a set. -/
abbrev Entries (Symbol : Type) := List (Symbol × Value Symbol)

variable (interner table)

def tellValue : Value Symbol → StaticValue
  | .switch on => .switch on
  | .choice symbol => .choice (interner.resolve table symbol)
  | .mask components => .mask components

def tellEntry (entry : Symbol × Value Symbol) : String × StaticValue :=
  (interner.resolve table entry.1, interner.tellValue table entry.2)

/-- The set with the texts that its symbols stand for. -/
def tell (entries : Entries Symbol) : StaticParameters := ⟨entries.map (interner.tellEntry table)⟩

/-- Where an entry stands to a name. Behind the last entry there is nothing smaller. -/
def place (entries : Entries Symbol) (name : String) (index : Nat) : Ordering :=
  (entries[index]?.map fun entry => Utf8.compare (interner.resolve table entry.1) name).getD .gt

def search (entries : Entries Symbol) (name : String) : Except Nat Nat :=
  Search.search (interner.place table entries name) entries.length

def get? (entries : Entries Symbol) (name : String) : Option (Value Symbol) :=
  match interner.search table entries name with
  | .ok index => entries[index]?.map Prod.snd
  | .error _ => none

def erase (entries : Entries Symbol) (name : String) : Entries Symbol :=
  match interner.search table entries name with
  | .ok index => entries.eraseIdx index
  | .error _ => entries

/-- A name that the set does not have is interned. -/
def set (entries : Entries Symbol) (name : String) (value : Value Symbol) :
    Option (Table × Entries Symbol) :=
  match interner.search table entries name with
  | .ok index => some (table, entries.modify index fun entry => (entry.1, value))
  | .error index => do
    let (table, symbol) ← interner.intern table name
    some (table, entries.insertIdx index (symbol, value))

def setAll (entries : Entries Symbol) (written : List (String × Value Symbol)) :
    Option (Table × Entries Symbol) :=
  written.foldlM (fun state entry => interner.set state.1 state.2 entry.1 entry.2) (table, entries)

def merge (entries overrides : Entries Symbol) : Option (Table × Entries Symbol) :=
  interner.setAll table entries
    (overrides.map fun entry => (interner.resolve table entry.1, entry.2))

def internValue : StaticValue → Option (Table × Value Symbol)
  | .switch on => some (table, .switch on)
  | .choice name => do
    let (table, symbol) ← interner.intern table name
    some (table, .choice symbol)
  | .mask components => some (table, .mask components)

/-! ### Where a set is written -/

variable {interner table} {entries entries' : Entries Symbol} {index : Nat}
  {parameters : StaticParameters} {value : Value Symbol}

theorem place_of_getElem? {entry : Symbol × Value Symbol} (there : entries[index]? = some entry) :
    interner.place table entries name index =
      Utf8.compare (interner.resolve table entry.1) name := by
  unfold place
  rw [there]
  rfl

theorem place_outside (entries : Entries Symbol) (name : String) (other : Nat)
    (outside : entries.length ≤ other) : interner.place table entries name other = .gt := by
  unfold place
  rw [List.getElem?_eq_none outside]
  rfl

/-- Sorted texts are on the way up. -/
theorem ascending_place (sorted : (interner.tell table entries).Sorted) (name : String) :
    Search.Ascending (interner.place table entries name) := by
  intro first second earlier notBefore
  rcases Nat.lt_or_ge second entries.length with inside | outside
  · have here := List.getElem?_eq_getElem (earlier.trans inside)
    have there := List.getElem?_eq_getElem inside
    have ordered := List.pairwise_iff_getElem.mp (List.pairwise_map.mp sorted) first second
      (earlier.trans inside) inside earlier
    rw [place_of_getElem? here, ne_eq, Utf8.compare_eq_lt, not_lt] at notBefore
    rw [place_of_getElem? there, Utf8.compare_eq_gt]
    exact lt_of_le_of_lt notBefore ordered
  · exact place_outside entries name second outside

theorem lt_of_mem_take
    (before : ∀ other < index, interner.place table entries name other = .lt) :
    ∀ entry ∈ entries.take index, interner.resolve table entry.1 < name := by
  intro entry member
  obtain ⟨other, bound, rfl⟩ := List.mem_take_iff_getElem.mp member
  obtain ⟨earlier, inside⟩ := lt_min_iff.mp bound
  have placed := before other earlier
  rwa [place_of_getElem? (List.getElem?_eq_getElem inside), Utf8.compare_eq_lt] at placed

theorem lt_of_mem_drop
    (behind : ∀ other, index ≤ other → interner.place table entries name other = .gt) :
    ∀ entry ∈ entries.drop index, name < interner.resolve table entry.1 := by
  intro entry member
  obtain ⟨other, inside, rfl⟩ := List.mem_drop_iff_getElem.mp member
  have placed := behind (index + other) (Nat.le_add_right _ _)
  rwa [place_of_getElem? (List.getElem?_eq_getElem (by omega)), Utf8.compare_eq_gt] at placed

/-- What is found is the entry of the name, between smaller and greater ones. -/
theorem search_ok (sorted : (interner.tell table entries).Sorted)
    (found : interner.search table entries name = .ok index) : ∃ front entry rest,
      entries = front ++ entry :: rest ∧ front.length = index ∧
        interner.resolve table entry.1 = name ∧
        (∀ entry ∈ front, interner.resolve table entry.1 < name) ∧
        ∀ entry ∈ rest, name < interner.resolve table entry.1 := by
  obtain ⟨here, before, behind⟩ := Search.search_ok (ascending_place sorted name)
    (place_outside entries name) found
  have inside : index < entries.length := by
    by_contra outside
    rw [place_outside entries name index (not_lt.mp outside)] at here
    cases here
  rw [place_of_getElem? (List.getElem?_eq_getElem inside), Utf8.compare_eq_eq] at here
  refine ⟨entries.take index, entries[index], entries.drop (index + 1), ?_,
    List.length_take_of_le inside.le, here, lt_of_mem_take before, lt_of_mem_drop behind⟩
  rw [List.getElem_cons_drop, List.take_append_drop]

/-- Where nothing is found, smaller entries are before and greater ones behind. -/
theorem search_error (sorted : (interner.tell table entries).Sorted)
    (missed : interner.search table entries name = .error index) : ∃ front rest,
      entries = front ++ rest ∧ front.length = index ∧
        (∀ entry ∈ front, interner.resolve table entry.1 < name) ∧
        ∀ entry ∈ rest, name < interner.resolve table entry.1 := by
  obtain ⟨before, behind⟩ := Search.search_error (ascending_place sorted name)
    (place_outside entries name) missed
  have inside : index ≤ entries.length := by
    by_contra outside
    have past := before entries.length (not_le.mp outside)
    rw [place_outside entries name _ le_rfl] at past
    cases past
  exact ⟨entries.take index, entries.drop index, (List.take_append_drop _ _).symm,
    List.length_take_of_le inside, lt_of_mem_take before, lt_of_mem_drop behind⟩

theorem insertIdx_length {α : Type} (front rest : List α) (entry : α) :
    (front ++ rest).insertIdx front.length entry = front ++ entry :: rest := by
  induction front with
  | nil => rfl
  | cons first front inductionHypothesis =>
    rw [List.cons_append, List.length_cons, List.insertIdx_succ_cons, inductionHypothesis,
      List.cons_append]

theorem tell_append (front rest : Entries Symbol) (entry : Symbol × Value Symbol) :
    interner.tell table (front ++ entry :: rest) = ⟨front.map (interner.tellEntry table) ++
      interner.tellEntry table entry :: rest.map (interner.tellEntry table)⟩ := by
  unfold tell
  rw [List.map_append, List.map_cons]

theorem get?_tell (sorted : (interner.tell table entries).Sorted) (name : String) :
    (interner.get? table entries name).map (interner.tellValue table) =
      (interner.tell table entries).get? name := by
  unfold get?
  split
  · rename_i index found
    obtain ⟨front, entry, rest, rfl, rfl, rfl, -, -⟩ := search_ok sorted found
    rw [List.getElem?_append_right le_rfl, Nat.sub_self, List.getElem?_cons_zero]
    have member : interner.tellEntry table entry ∈
        (interner.tell table (front ++ entry :: rest)).entries :=
      List.mem_map_of_mem (List.mem_append_right _ List.mem_cons_self)
    exact (sorted.mem_iff.mp member).symm
  · rename_i index missed
    obtain ⟨front, rest, rfl, rfl, before, behind⟩ := search_error sorted missed
    unfold tell
    rw [List.map_append]
    exact (StaticParameters.get?_missed (List.forall_mem_map.mpr before)
      (List.forall_mem_map.mpr behind)).symm

theorem tell_erase (sorted : (interner.tell table entries).Sorted) (name : String) :
    interner.tell table (interner.erase table entries name) =
      (interner.tell table entries).erase name := by
  unfold erase
  split
  · rename_i index found
    obtain ⟨front, entry, rest, rfl, rfl, rfl, before, behind⟩ := search_ok sorted found
    rw [List.eraseIdx_append_of_length_le le_rfl, Nat.sub_self, List.eraseIdx_cons_zero,
      tell_append]
    unfold tell
    rw [List.map_append]
    exact (StaticParameters.erase_found (List.forall_mem_map.mpr before)
      (List.forall_mem_map.mpr behind)).symm
  · rename_i index missed
    obtain ⟨front, rest, rfl, rfl, before, behind⟩ := search_error sorted missed
    unfold tell
    rw [List.map_append]
    exact (StaticParameters.erase_missed (List.forall_mem_map.mpr before)
      (List.forall_mem_map.mpr behind)).symm

variable (interner table)

/-- The choice of a value is known. -/
def KnowsValue (value : Value Symbol) : Prop :=
  ∀ symbol, value = .choice symbol → interner.Knows table symbol

/-- All symbols of a set are known, and stand for the texts of these parameters. -/
structure Holds (entries : Entries Symbol) (parameters : StaticParameters) : Prop where
  known : ∀ entry ∈ entries, interner.Knows table entry.1 ∧ interner.KnowsValue table entry.2
  told : interner.tell table entries = parameters

variable {interner table}

namespace Grown

variable (grown : interner.Grown table next)
include grown

theorem knowsValue (known : interner.KnowsValue table value) : interner.KnowsValue next value :=
  fun symbol isChoice => (grown symbol (known symbol isChoice)).1

theorem tellValue (known : interner.KnowsValue table value) :
    interner.tellValue next value = interner.tellValue table value := by
  cases value with
  | choice symbol => exact congrArg StaticValue.choice (grown symbol (known symbol rfl)).2
  | _ => rfl

theorem holds (holds : interner.Holds table entries parameters) :
    interner.Holds next entries parameters where
  known entry member := by
    obtain ⟨known, knowsValue⟩ := holds.known entry member
    exact ⟨(grown entry.1 known).1, grown.knowsValue knowsValue⟩
  told := by
    refine Eq.trans (congrArg StaticParameters.mk (List.map_congr_left fun entry member => ?_))
      holds.told
    obtain ⟨known, knowsValue⟩ := holds.known entry member
    exact Prod.ext (grown entry.1 known).2 (grown.tellValue knowsValue)

end Grown

theorem Holds.nil : interner.Holds table [] .empty := ⟨nofun, rfl⟩

theorem Holds.erase (holds : interner.Holds table entries parameters) (sorted : parameters.Sorted)
    (name : String) :
    interner.Holds table (interner.erase table entries name) (parameters.erase name) := by
  obtain ⟨known, rfl⟩ := holds
  refine ⟨fun entry member => known entry ?_, tell_erase sorted name⟩
  unfold Interner.erase at member
  split at member
  · exact List.mem_of_mem_eraseIdx member
  · exact member

/-- Writing into a set writes into the parameters, and the table only grows. -/
theorem Holds.set (lawful : interner.Lawful) (holds : interner.Holds table entries parameters)
    (sorted : parameters.Sorted) (knowsValue : interner.KnowsValue table value)
    (ran : interner.set table entries name value = some (next, entries')) :
    interner.Grown table next ∧ interner.Holds next entries'
      (parameters.set name (interner.tellValue table value)) := by
  obtain ⟨known, rfl⟩ := holds
  unfold Interner.set at ran
  split at ran
  · rename_i index found
    obtain ⟨rfl, rfl⟩ := Prod.mk.inj (Option.some.inj ran)
    obtain ⟨front, entry, rest, rfl, rfl, rfl, before, behind⟩ := search_ok sorted found
    refine ⟨.refl, ?_⟩
    rw [List.modify_eq_take_drop, List.take_left, List.drop_left, List.modifyHead_cons]
    refine ⟨fun other member => ?_, ?_⟩
    · rcases List.mem_append.mp member with there | there
      · exact known other (List.mem_append_left _ there)
      · rcases List.mem_cons.mp there with rfl | later
        · exact ⟨(known entry (List.mem_append_right _ List.mem_cons_self)).1, knowsValue⟩
        · exact known other (List.mem_append_right _ (List.mem_cons_of_mem _ later))
    · rw [tell_append, tell_append]
      exact (StaticParameters.set_found (List.forall_mem_map.mpr before)).symm
  · rename_i index missed
    obtain ⟨⟨grown, symbol⟩, interned, ran⟩ := Option.bind_eq_some_iff.mp ran
    obtain ⟨rfl, rfl⟩ := Prod.mk.inj (Option.some.inj ran)
    obtain ⟨front, rest, rfl, rfl, before, behind⟩ := search_error sorted missed
    have grows := lawful.kept interned
    obtain ⟨knows, isName⟩ := lawful.given interned
    have holds := grows.holds ⟨known, rfl⟩
    refine ⟨grows, ?_⟩
    rw [insertIdx_length]
    refine ⟨fun other member => ?_, ?_⟩
    · rcases List.mem_append.mp member with there | there
      · exact holds.known other (List.mem_append_left _ there)
      · rcases List.mem_cons.mp there with rfl | later
        · exact ⟨knows, grows.knowsValue knowsValue⟩
        · exact holds.known other (List.mem_append_right _ later)
    · have told := congrArg StaticParameters.entries holds.told
      unfold tell at told ⊢
      rw [List.map_append, List.map_append] at told
      obtain ⟨fronts, rests⟩ := List.append_inj told (by rw [List.length_map, List.length_map])
      rw [List.map_append, List.map_append, List.map_cons, fronts, rests,
        StaticParameters.set_missed (List.forall_mem_map.mpr before)
          (List.forall_mem_map.mpr behind)]
      unfold tellEntry
      rw [isName, grows.tellValue knowsValue]

theorem Holds.setAll (lawful : interner.Lawful) (holds : interner.Holds table entries parameters)
    (sorted : parameters.Sorted) {written : List (String × Value Symbol)}
    (knowsValues : ∀ entry ∈ written, interner.KnowsValue table entry.2)
    (ran : interner.setAll table entries written = some (next, entries')) :
    interner.Grown table next ∧ interner.Holds next entries' (parameters.setAll
      (written.map fun entry => (entry.1, interner.tellValue table entry.2))) := by
  unfold Interner.setAll at ran
  unfold StaticParameters.setAll
  induction written generalizing table entries parameters with
  | nil =>
    obtain ⟨rfl, rfl⟩ := Prod.mk.inj (Option.some.inj ran)
    exact ⟨.refl, holds⟩
  | cons first rest inductionHypothesis =>
    obtain ⟨here, later⟩ := List.forall_mem_cons.mp knowsValues
    rw [List.foldlM_cons] at ran
    obtain ⟨⟨middle, filled⟩, ranFirst, ran⟩ := Option.bind_eq_some_iff.mp ran
    obtain ⟨grown, holds⟩ := holds.set lawful sorted here ranFirst
    obtain ⟨grown', holds⟩ := inductionHypothesis holds (sorted.set _ _)
      (fun entry member => grown.knowsValue (later entry member)) ran
    refine ⟨grown.trans grown', ?_⟩
    -- The values that are still to be written stand for the same in the grown table.
    have same : rest.map (fun entry => (entry.1, interner.tellValue middle entry.2)) =
        rest.map fun entry => (entry.1, interner.tellValue table entry.2) :=
      List.map_congr_left fun entry member =>
        congrArg (Prod.mk entry.1) (grown.tellValue (later entry member))
    rwa [same] at holds

theorem Holds.merge {overrides : Entries Symbol} {parameters' : StaticParameters}
    (lawful : interner.Lawful) (holds : interner.Holds table entries parameters)
    (sorted : parameters.Sorted) (holds' : interner.Holds table overrides parameters')
    (ran : interner.merge table entries overrides = some (next, entries')) :
    interner.Grown table next ∧ interner.Holds next entries' (parameters.mergedWith parameters') := by
  obtain ⟨known, rfl⟩ := holds'
  have written := holds.setAll lawful sorted
    (List.forall_mem_map.mpr fun entry member => (known entry member).2) ran
  rwa [List.map_map] at written

theorem internValue_spec {value : StaticValue} {interned : Value Symbol}
    (lawful : interner.Lawful) (ran : interner.internValue table value = some (next, interned)) :
    interner.Grown table next ∧ interner.KnowsValue next interned ∧
      interner.tellValue next interned = value := by
  cases value with
  | switch on =>
    obtain ⟨rfl, rfl⟩ := Prod.mk.inj (Option.some.inj ran)
    exact ⟨.refl, nofun, rfl⟩
  | mask components =>
    obtain ⟨rfl, rfl⟩ := Prod.mk.inj (Option.some.inj ran)
    exact ⟨.refl, nofun, rfl⟩
  | choice name =>
    obtain ⟨⟨grown, symbol⟩, interned, isValue⟩ := Option.bind_eq_some_iff.mp ran
    obtain ⟨rfl, rfl⟩ := Prod.mk.inj (Option.some.inj isValue)
    obtain ⟨knows, rfl⟩ := lawful.given interned
    refine ⟨lawful.kept interned, fun other isChoice => ?_, rfl⟩
    obtain rfl := Value.choice.inj isChoice
    exact knows

theorem Lawful.value_injective (lawful : interner.Lawful) {first second : Value Symbol}
    (known : interner.KnowsValue table first) (known' : interner.KnowsValue table second)
    (same : interner.tellValue table first = interner.tellValue table second) :
    first = second := by
  cases first <;> cases second
  case choice.choice first second =>
    rw [lawful.eq_of_resolve (known first rfl) (known' second rfl) (StaticValue.choice.inj same)]
  all_goals cases same <;> rfl

/-- In one table, sets that hold the same parameters are the same. -/
theorem Holds.unique (lawful : interner.Lawful) (holds : interner.Holds table entries parameters)
    (holds' : interner.Holds table entries' parameters) : entries = entries' := by
  have told := congrArg StaticParameters.entries (holds.told.trans holds'.told.symm)
  have sizes := congrArg List.length told
  unfold tell at told sizes
  rw [List.length_map, List.length_map] at sizes
  refine List.ext_getElem sizes fun index inside inside' => ?_
  have same := List.getElem_of_eq told (List.length_map (interner.tellEntry table) ▸ inside)
  rw [List.getElem_map, List.getElem_map] at same
  obtain ⟨known, knowsValue⟩ := holds.known _ (List.getElem_mem inside)
  obtain ⟨known', knowsValue'⟩ := holds'.known _ (List.getElem_mem inside')
  obtain ⟨names, values⟩ := Prod.mk.inj same
  exact Prod.ext (lawful.eq_of_resolve known known' names)
    (lawful.value_injective knowsValue knowsValue' values)

/-! ### Processes -/

/-- A table and the sets of a process. -/
structure Process (Table Symbol : Type) where
  table : Table
  sets : Nat → Entries Symbol

variable (interner)

/-- Writes a value, whose choice is interned before. -/
def write (table : Table) (entries : Entries Symbol) (name : String) (value : StaticValue) :
    Option (Table × Entries Symbol) := do
  let (table, value) ← interner.internValue table value
  interner.set table entries name value

/-- Puts what has been made in the place of a set. -/
def Process.put (process : Process Table Symbol) (target : Nat)
    (made : Option (Table × Entries Symbol)) : Option (Process Table Symbol) := do
  let (table, entries) ← made
  some { table, sets := Function.update process.sets target entries }

def carryOut (process : Process Table Symbol) :
    StaticParameters.Step → Option (Process Table Symbol)
  | .create target => process.put target (some (process.table, []))
  | .ofSwitches target switches => process.put target
    (interner.setAll process.table [] (switches.map fun (name, on) => (name, .switch on)))
  | .set target name value =>
    process.put target (interner.write process.table (process.sets target) name value)
  | .setSwitch target name on =>
    process.put target (interner.write process.table (process.sets target) name (.switch on))
  | .setChoice target name choice =>
    process.put target (interner.write process.table (process.sets target) name (.choice choice))
  | .erase target name => process.put target
    (some (process.table, interner.erase process.table (process.sets target) name))
  | .merge target overrides => process.put target
    (interner.merge process.table (process.sets target) (process.sets overrides))
  | .mergedWith target base overrides => process.put target
    (interner.merge process.table (process.sets base) (process.sets overrides))
  | .intern text => do
    let (table, _) ← interner.intern process.table text
    some { process with table }

/-- A process that begins with empty sets, and any table. -/
def run (table : Table) (steps : List StaticParameters.Step) : Option (Process Table Symbol) :=
  steps.foldlM interner.carryOut { table, sets := fun _ => [] }

variable {interner} {process process' : Process Table Symbol} {sets : Nat → StaticParameters}
  {step : StaticParameters.Step}

theorem Holds.write {value : StaticValue} (lawful : interner.Lawful)
    (holds : interner.Holds table entries parameters) (sorted : parameters.Sorted)
    (ran : interner.write table entries name value = some (next, entries')) :
    interner.Grown table next ∧ interner.Holds next entries' (parameters.set name value) := by
  obtain ⟨⟨middle, interned⟩, ranValue, written⟩ := Option.bind_eq_some_iff.mp ran
  obtain ⟨grown, knows, rfl⟩ := internValue_spec lawful ranValue
  obtain ⟨grown', holds⟩ := (grown.holds holds).set lawful sorted knows written
  exact ⟨grown.trans grown', holds⟩

/-- Every set of a process holds the parameters of its number. -/
def Mirrors (interner : Interner Table Symbol) (process : Process Table Symbol)
    (sets : Nat → StaticParameters) : Prop :=
  ∀ target, interner.Holds process.table (process.sets target) (sets target)

theorem Mirrors.put {target : Nat} {made : Option (Table × Entries Symbol)}
    (mirrors : interner.Mirrors process sets)
    (holds : ∀ ⦃next entries⦄, made = some (next, entries) →
      interner.Grown process.table next ∧ interner.Holds next entries parameters)
    (ran : process.put target made = some process') :
    interner.Mirrors process' (Function.update sets target parameters) := by
  obtain ⟨⟨next, entries⟩, isMade, ran⟩ := Option.bind_eq_some_iff.mp ran
  obtain rfl := Option.some.inj ran
  obtain ⟨grown, holds⟩ := holds isMade
  intro other
  show interner.Holds next (Function.update process.sets target entries other) _
  by_cases same : other = target
  · rw [same, Function.update_self, Function.update_self]
    exact holds
  · rw [Function.update_of_ne same, Function.update_of_ne same]
    exact grown.holds (mirrors other)

theorem Mirrors.carryOut (lawful : interner.Lawful) (mirrors : interner.Mirrors process sets)
    (sorted : ∀ target, (sets target).Sorted) (ran : interner.carryOut process step = some process') :
    interner.Mirrors process' (step.carryOut sets) := by
  cases step with
  | create target =>
    refine mirrors.put (fun next entries made => ?_) ran
    obtain ⟨rfl, rfl⟩ := Prod.mk.inj (Option.some.inj made)
    exact ⟨.refl, .nil⟩
  | ofSwitches target switches =>
    refine mirrors.put (fun next entries made => ?_) ran
    have written := Holds.nil.setAll lawful StaticParameters.sorted_empty
      (List.forall_mem_map.mpr fun (_, _) _ _ isChoice => nomatch isChoice) made
    rwa [List.map_map] at written
  | set target name value =>
    exact mirrors.put (fun _ _ made => (mirrors target).write lawful (sorted target) made) ran
  | setSwitch target name on =>
    exact mirrors.put (fun _ _ made => (mirrors target).write lawful (sorted target) made) ran
  | setChoice target name choice =>
    exact mirrors.put (fun _ _ made => (mirrors target).write lawful (sorted target) made) ran
  | erase target name =>
    refine mirrors.put (fun next entries made => ?_) ran
    obtain ⟨rfl, rfl⟩ := Prod.mk.inj (Option.some.inj made)
    exact ⟨.refl, (mirrors target).erase (sorted target) name⟩
  | merge target overrides =>
    exact mirrors.put (fun _ _ made =>
      (mirrors target).merge lawful (sorted target) (mirrors overrides) made) ran
  | mergedWith target base overrides =>
    exact mirrors.put (fun _ _ made =>
      (mirrors base).merge lawful (sorted base) (mirrors overrides) made) ran
  | intern text =>
    obtain ⟨⟨next, symbol⟩, interned, ran⟩ := Option.bind_eq_some_iff.mp ran
    obtain rfl := Option.some.inj ran
    exact fun target => (lawful.kept interned).holds (mirrors target)

theorem Mirrors.foldlM {steps : List StaticParameters.Step}
    {maps : Nat → StaticParameters.Values} (lawful : interner.Lawful)
    (mirrors : interner.Mirrors process sets)
    (all : ∀ target, (sets target).Represents (maps target))
    (ran : steps.foldlM interner.carryOut process = some process') :
    interner.Mirrors process' (steps.foldl StaticParameters.Step.carryOut sets) := by
  induction steps generalizing process sets maps with
  | nil =>
    obtain rfl := Option.some.inj ran
    exact mirrors
  | cons first rest inductionHypothesis =>
    rw [List.foldlM_cons] at ran
    obtain ⟨middle, ranFirst, ran⟩ := Option.bind_eq_some_iff.mp ran
    exact inductionHypothesis (mirrors.carryOut lawful (fun target => (all target).sorted) ranFirst)
      (StaticParameters.Step.represents_carryOut all first) ran

/-- What the sets of a process stand for does not depend on the symbols. -/
theorem mirrors_run {steps : List StaticParameters.Step} (lawful : interner.Lawful)
    (ran : interner.run table steps = some process) :
    interner.Mirrors process (StaticParameters.after steps) :=
  Mirrors.foldlM lawful (fun _ => .nil) (fun _ => .empty) ran

end Interner

/-! ### Sets are canonical -/

section

variable {Table Symbol Table' Symbol' : Type} {interner : Interner Table Symbol}
  {interner' : Interner Table' Symbol'} {table : Table} {table' : Table'}
  {steps others : List StaticParameters.Step} {process : Interner.Process Table Symbol}
  {process' : Interner.Process Table' Symbol'}

open StaticParameters

/-- Whatever has been done to sets of static parameters, and in whatever order texts have got their
symbols, a set is the one way to write down a finite map. -/
theorem static_parameters_canonical (lawful : interner.Lawful) (lawful' : interner'.Lawful)
    (ran : interner.run table steps = some process)
    (ran' : interner'.run table' others = some process') (target other : Nat) :
    -- The set is sorted by bytes and read as the map, in the process as well.
    ((after steps target).Represents (meaning steps target) ∧
      interner.tell process.table (process.sets target) = after steps target ∧
      ∀ name, (interner.get? process.table (process.sets target) name).map
        (interner.tellValue process.table) = (meaning steps target).lookup name) ∧
    -- Merging is the union in which the overrides come first.
    (∀ top, ((after steps target).mergedWith (after steps other)).Represents
        (meaning steps other ∪ meaning steps target) ∧
      ((after steps target).mergedWith (after steps other)).mergedWith (after steps top) =
        (after steps target).mergedWith ((after steps other).mergedWith (after steps top)) ∧
      (after steps target).mergedWith .empty = after steps target ∧
      StaticParameters.empty.mergedWith (after steps target) = after steps target) ∧
    -- In one process, sets of the same map have the same entries.
    (meaning steps target = meaning steps other → process.sets target = process.sets other) ∧
    -- In two processes, they have the same texts, streams and descriptions.
    (meaning steps target = meaning others other →
      after steps target = after others other ∧
      (interner.tell process.table (process.sets target)).stream =
        (interner'.tell process'.table (process'.sets other)).stream ∧
      (interner.tell process.table (process.sets target)).describe =
        (interner'.tell process'.table (process'.sets other)).describe) ∧
    -- Streams tell maps apart unless they differ in the upper bits of masks only.
    ((after steps target).Storable → (after others other).Storable →
      ((interner.tell process.table (process.sets target)).stream =
          (interner'.tell process'.table (process'.sets other)).stream ↔
        ∀ name, ((meaning steps target).lookup name).map StaticValue.blurred =
          ((meaning others other).lookup name).map StaticValue.blurred)) := by
  have mirrors := Interner.mirrors_run lawful ran
  have mirrors' := Interner.mirrors_run lawful' ran'
  have here := represents_after steps target
  have there := represents_after others other
  have neighbour := represents_after steps other
  have told := (mirrors target).told
  have told' := (mirrors' other).told
  refine ⟨⟨here, told, fun name => ?_⟩, fun top => ⟨here.mergedWith neighbour, ?_, rfl, ?_⟩,
    fun same => ?_, fun same => ?_, fun fits fits' => ?_⟩
  · rw [Interner.get?_tell (told ▸ here.sorted), told, here.get?]
  · exact (mergedWith_mergedWith (after steps target) neighbour.sorted (after steps top)).symm
  · have union := Represents.empty.mergedWith here
    rw [Finmap.union_empty] at union
    exact union.unique here
  · have equal := (same ▸ here).unique neighbour
    exact Interner.Holds.unique lawful (equal ▸ mirrors target) (mirrors other)
  · have equal := (same ▸ here).unique there
    rw [told, told', equal]
    exact ⟨rfl, rfl, rfl⟩
  · rw [told, told']
    exact here.stream_iff there fits fits'

end

/-! ### Two processes -/

/-- Numbers texts in the order in which they come, as long as there are numbers. -/
def Interner.counting (limit : Nat) : Interner (List String) Nat where
  intern table text :=
    if text ∈ table then some (table, table.idxOf text)
    else if table.length < limit then some (table ++ [text], table.length)
    else none
  resolve table symbol := table[symbol]?.getD ""
  Knows table symbol := ∃ text ∈ table, symbol = table.idxOf text

theorem Interner.lawful_counting (limit : Nat) : (Interner.counting limit).Lawful := by
  have resolve {table : List String} {text : String} (member : text ∈ table) :
      table[table.idxOf text]?.getD "" = text := by
    rw [List.getElem?_eq_getElem (List.idxOf_lt_length_of_mem member), Option.getD_some,
      List.getElem_idxOf]
  have fresh {table : List String} {text : String} (absent : text ∉ table) :
      (table ++ [text]).idxOf text = table.length := by
    rw [List.idxOf_append_of_notMem absent, List.idxOf_cons_self, Nat.add_zero]
  constructor
  case given =>
    intro table next text symbol interned
    simp only [counting] at interned
    split_ifs at interned with known room
    · obtain ⟨rfl, rfl⟩ := Prod.mk.inj (Option.some.inj interned)
      exact ⟨⟨text, known, rfl⟩, resolve known⟩
    · obtain ⟨rfl, rfl⟩ := Prod.mk.inj (Option.some.inj interned)
      have member := List.mem_append_right table (List.mem_singleton_self text)
      exact ⟨⟨text, member, (fresh known).symm⟩, fresh known ▸ resolve member⟩
  case kept =>
    intro table next text symbol interned
    simp only [counting] at interned
    split_ifs at interned with known room
    · obtain ⟨rfl, rfl⟩ := Prod.mk.inj (Option.some.inj interned)
      exact .refl
    · obtain ⟨rfl, rfl⟩ := Prod.mk.inj (Option.some.inj interned)
      rintro - ⟨earlier, member, rfl⟩
      have place : (table ++ [text]).idxOf earlier = table.idxOf earlier :=
        List.idxOf_append_of_mem member
      have member' := List.mem_append_left [text] member
      exact ⟨⟨earlier, member', place.symm⟩,
        (place ▸ resolve member').trans (resolve member).symm⟩
  case known =>
    rintro table - ⟨text, member, rfl⟩
    simp only [counting, resolve member, if_pos member]

/-- Begins where the later name has been seen first. -/
def overridden : List StaticParameters.Step := [
  .setSwitch 0 "zz" true, .setChoice 0 "aa" "Two", .set 1 "zz" (.mask 0x13), .merge 0 1,
  .mergedWith 1 0 1]

/-- Writes the same in another order, and takes back what is too much. -/
def corrected : List StaticParameters.Step := [
  .set 1 "aa" (.choice "Two"), .setSwitch 1 "mm" false, .set 1 "zz" (.mask 0x13), .erase 1 "mm"]

theorem overridden_canonical : ∃ process process',
    (Interner.counting 8).run ["zz", "aa"] overridden = some process ∧
      (Interner.counting 8).run [] corrected = some process' ∧
      process.sets 0 = process.sets 1 ∧ process.sets 0 ≠ process'.sets 1 ∧
      ((Interner.counting 8).tell process.table (process.sets 0)).stream =
        ((Interner.counting 8).tell process'.table (process'.sets 1)).stream ∧
      ((Interner.counting 8).tell process.table (process.sets 0)).describe =
        ((Interner.counting 8).tell process'.table (process'.sets 1)).describe ∧
      ∀ name, ((StaticParameters.meaning overridden 0).lookup name).map StaticValue.blurred =
        ((StaticParameters.meaning corrected 1).lookup name).map StaticValue.blurred := by
  have first : ((Interner.counting 8).run ["zz", "aa"] overridden).map (fun process =>
      process.sets 0) = some [(1, .choice 2), (0, .mask 0x13)] := by cbv
  have second : ((Interner.counting 8).run [] corrected).map (fun process =>
      process.sets 1) = some [(1, .choice 0), (3, .mask 0x13)] := by cbv
  obtain ⟨process, ran, sets⟩ := Option.map_eq_some_iff.mp first
  obtain ⟨process', ran', sets'⟩ := Option.map_eq_some_iff.mp second
  -- Maps are the same whose sets are the same.
  have same {steps others : List StaticParameters.Step} {target other : Nat}
      (equal : StaticParameters.after steps target = StaticParameters.after others other) :
      StaticParameters.meaning steps target = StaticParameters.meaning others other :=
    Finmap.ext_lookup fun name => by
      rw [← (StaticParameters.represents_after steps target).get?, equal,
        (StaticParameters.represents_after others other).get?]
  have written : StaticParameters.after overridden 0 =
      ⟨[("aa", .choice "Two"), ("zz", .mask 0x13)]⟩ := by cbv
  have rewritten : StaticParameters.after corrected 1 = StaticParameters.after overridden 0 := by
    cbv
  have storable : (StaticParameters.after overridden 0).Storable := by
    rw [written]
    refine ⟨by decide, List.forall_mem_cons.mpr ⟨⟨by decide, ?_⟩,
      List.forall_mem_cons.mpr ⟨⟨by decide, ?_⟩, List.forall_mem_nil _⟩⟩⟩
    · rintro _ ⟨⟩
      decide
    · rintro _ ⟨⟩
  have lawful := Interner.lawful_counting 8
  obtain ⟨-, -, inProcess, acrossProcesses, told⟩ :=
    static_parameters_canonical lawful lawful ran ran' 0 1
  obtain ⟨-, streams, descriptions⟩ := acrossProcesses (same rewritten.symm)
  refine ⟨process, process', ran, ran', inProcess (same (by cbv)), ?_, streams, descriptions,
    (told storable (rewritten ▸ storable)).mp streams⟩
  rw [sets, sets']
  decide

end Shading
