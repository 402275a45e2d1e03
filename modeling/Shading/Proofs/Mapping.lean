/-
Sets of static parameters as finite maps. A sorted set is decided by the map
that it stands for, and writing, erasing and merging do to the set what they do
to the map. So sets that were made in different ways are the same as soon as
their maps are. Where the lengths of all texts fit, the stream of a set tells
its map as well, but for the upper bits of masks.
-/

import Mathlib
import Shading.Proofs.Graph.Content
import Shading.Proofs.Merging
import Shading.Proofs.Searching

namespace Shading

/-! ### Sets as finite maps -/

namespace StaticParameters

variable {parameters overrides left right : StaticParameters} {name other : String}
  {value : StaticValue}

theorem Sorted.erase (sorted : parameters.Sorted) (name : String) :
    (parameters.erase name).Sorted := List.Pairwise.filter _ sorted

theorem get?_erase (parameters : StaticParameters) (name other : String) :
    (parameters.erase name).get? other =
      if other = name then none else parameters.get? other := by
  unfold erase get?
  rw [List.find?_filter]
  split
  · rename_i same
    rw [Option.map_eq_none_iff, List.find?_eq_none]
    intro entry _ both
    simp [same] at both
  · rename_i different
    refine congrArg (Option.map Prod.snd) (List.find?_congr fun entry _ => ?_)
    by_cases here : entry.1 = other
    · simp [here, different]
    · simp [here]

/-- In a sorted set every entry is the one of its name. -/
theorem Sorted.mem_iff (sorted : parameters.Sorted) {entry : String × StaticValue} :
    entry ∈ parameters.entries ↔ parameters.get? entry.1 = some entry.2 := by
  obtain ⟨entries⟩ := parameters
  unfold get?
  constructor
  · intro member
    induction entries with
    | nil => cases member
    | cons first rest inductionHypothesis =>
      obtain ⟨before, ordered⟩ := List.pairwise_cons.mp sorted
      rcases List.mem_cons.mp member with rfl | later
      · simp
      · rw [List.find?_cons_of_neg (by simpa using (before entry later).ne)]
        exact inductionHypothesis ordered later
  · intro found
    obtain ⟨there, found, same⟩ := Option.map_eq_some_iff.mp found
    have named := List.find?_some found
    rw [← Prod.ext (of_decide_eq_true named) same]
    exact List.mem_of_find?_eq_some found

/-- Sorted sets from which the same is read are the same. -/
theorem Sorted.ext (sorted : left.Sorted) (sorted' : right.Sorted)
    (same : ∀ name, left.get? name = right.get? name) : left = right := by
  have : Std.Irrefl fun first second : String × StaticValue => first.1 < second.1 :=
    ⟨fun entry => lt_irrefl entry.1⟩
  have : Std.Antisymm fun first second : String × StaticValue => first.1 < second.1 :=
    ⟨fun _ _ earlier later => absurd later earlier.not_gt⟩
  exact congrArg mk (List.Pairwise.eq_of_mem_iff sorted sorted' fun entry => by
    rw [sorted.mem_iff, sorted'.mem_iff, same])

/-- Names with their values. -/
abbrev Values := Finmap fun _ : String => StaticValue

/-- A set stands for a map if its entries are in the order of the bytes of their names and what is
read from it is what the map has. -/
structure Represents (parameters : StaticParameters) (values : Values) : Prop where
  ascending : parameters.entries.Pairwise fun first second =>
    Utf8.encode first.1 < Utf8.encode second.1
  get? : ∀ name, parameters.get? name = values.lookup name

namespace Represents

variable {values values' : Values}

theorem of_sorted (sorted : parameters.Sorted)
    (get? : ∀ name, parameters.get? name = values.lookup name) : parameters.Represents values :=
  ⟨sorted.imp Utf8.encode_lt.mpr, get?⟩

theorem sorted (represents : parameters.Represents values) : parameters.Sorted :=
  represents.ascending.imp Utf8.encode_lt.mp

/-- A map has one set only. -/
theorem unique (represents : left.Represents values) (represents' : right.Represents values) :
    left = right :=
  represents.sorted.ext represents'.sorted fun name =>
    (represents.get? name).trans (represents'.get? name).symm

theorem empty : StaticParameters.empty.Represents ∅ :=
  of_sorted sorted_empty fun name => by
    rw [Finmap.lookup_empty]
    rfl

theorem set (represents : parameters.Represents values) (name : String) (value : StaticValue) :
    (parameters.set name value).Represents (values.insert name value) := by
  refine of_sorted (represents.sorted.set name value) fun other => ?_
  rw [get?_set, represents.get?]
  split
  · rename_i same
    rw [same, Finmap.lookup_insert]
  · rename_i different
    rw [Finmap.lookup_insert_of_ne _ different]

theorem erase (represents : parameters.Represents values) (name : String) :
    (parameters.erase name).Represents (values.erase name) := by
  refine of_sorted (represents.sorted.erase name) fun other => ?_
  rw [get?_erase, represents.get?]
  split
  · rename_i same
    rw [same, Finmap.lookup_erase]
  · rename_i different
    rw [Finmap.lookup_erase_ne different]

/-- Merging is the union in which the overrides come first. -/
theorem mergedWith (represents : parameters.Represents values)
    (represents' : overrides.Represents values') :
    (parameters.mergedWith overrides).Represents (values' ∪ values) := by
  refine of_sorted (represents.sorted.mergedWith overrides) fun name => ?_
  rw [get?_mergedWith parameters represents'.sorted, represents.get?, represents'.get?]
  by_cases present : name ∈ values'
  · rw [Finmap.lookup_union_left present]
    obtain ⟨value, found⟩ := Finmap.mem_iff.mp present
    rw [found, Option.some_or]
  · rw [Finmap.lookup_union_right present, Finmap.lookup_eq_none.mpr present, Option.none_or]

theorem setSwitches (represents : parameters.Represents values)
    (switches : List (String × Bool)) :
    (parameters.setAll (switches.map fun (name, on) => (name, .switch on))).Represents
      (switches.foldl (fun values entry => values.insert entry.1 (.switch entry.2)) values) := by
  unfold StaticParameters.setAll
  induction switches generalizing parameters values with
  | nil => exact represents
  | cons first rest inductionHypothesis =>
    exact inductionHypothesis (represents.set first.1 (.switch first.2))

end Represents

/-! ### Steps on a family of sets -/

/-- What is done with numbered sets, and what else is interned meanwhile. -/
inductive Step where
  | create (target : Nat)
  | ofSwitches (target : Nat) (switches : List (String × Bool))
  | set (target : Nat) (name : String) (value : StaticValue)
  | setSwitch (target : Nat) (name : String) (on : Bool)
  | setChoice (target : Nat) (name choice : String)
  | erase (target : Nat) (name : String)
  | merge (target overrides : Nat)
  | mergedWith (target base overrides : Nat)
  | intern (text : String)

namespace Step

def carryOut (sets : Nat → StaticParameters) : Step → Nat → StaticParameters
  | .create target => Function.update sets target .empty
  | .ofSwitches target switches => Function.update sets target (.ofSwitches switches)
  | .set target name value => Function.update sets target ((sets target).set name value)
  | .setSwitch target name on => Function.update sets target ((sets target).setSwitch name on)
  | .setChoice target name choice =>
    Function.update sets target ((sets target).setChoice name choice)
  | .erase target name => Function.update sets target ((sets target).erase name)
  | .merge target overrides =>
    Function.update sets target ((sets target).mergedWith (sets overrides))
  | .mergedWith target base overrides =>
    Function.update sets target ((sets base).mergedWith (sets overrides))
  | .intern _ => sets

/-- What a step does to the maps that the sets stand for. -/
def denote (maps : Nat → Values) : Step → Nat → Values
  | .create target => Function.update maps target ∅
  | .ofSwitches target switches => Function.update maps target
    (switches.foldl (fun values entry => values.insert entry.1 (.switch entry.2)) ∅)
  | .set target name value => Function.update maps target ((maps target).insert name value)
  | .setSwitch target name on =>
    Function.update maps target ((maps target).insert name (.switch on))
  | .setChoice target name choice =>
    Function.update maps target ((maps target).insert name (.choice choice))
  | .erase target name => Function.update maps target ((maps target).erase name)
  | .merge target overrides => Function.update maps target (maps overrides ∪ maps target)
  | .mergedWith target base overrides => Function.update maps target (maps overrides ∪ maps base)
  | .intern _ => maps

variable {sets : Nat → StaticParameters} {maps : Nat → Values}

theorem represents_update (all : ∀ target, (sets target).Represents (maps target)) {target : Nat}
    {values : Values} (here : parameters.Represents values) (other : Nat) :
    (Function.update sets target parameters other).Represents
      (Function.update maps target values other) := by
  by_cases same : other = target
  · rw [same, Function.update_self, Function.update_self]
    exact here
  · rw [Function.update_of_ne same, Function.update_of_ne same]
    exact all other

theorem represents_carryOut (all : ∀ target, (sets target).Represents (maps target)) (step : Step) :
    ∀ target, (step.carryOut sets target).Represents (step.denote maps target) := by
  cases step with
  | create target => exact represents_update all .empty
  | ofSwitches target switches => exact represents_update all (Represents.empty.setSwitches switches)
  | set target name value => exact represents_update all ((all target).set name value)
  | setSwitch target name on => exact represents_update all ((all target).set name (.switch on))
  | setChoice target name choice =>
    exact represents_update all ((all target).set name (.choice choice))
  | erase target name => exact represents_update all ((all target).erase name)
  | merge target overrides =>
    exact represents_update all ((all target).mergedWith (all overrides))
  | mergedWith target base overrides =>
    exact represents_update all ((all base).mergedWith (all overrides))
  | intern text => exact all

end Step

/-- The sets after steps that begin with empty ones. -/
def after (steps : List Step) : Nat → StaticParameters :=
  steps.foldl Step.carryOut fun _ => .empty

/-- The maps that they stand for. -/
def meaning (steps : List Step) : Nat → Values :=
  steps.foldl Step.denote fun _ => ∅

theorem represents_after (steps : List Step) (target : Nat) :
    (after steps target).Represents (meaning steps target) := by
  unfold after meaning
  have kept (sets : Nat → StaticParameters) (maps : Nat → Values)
      (all : ∀ target, (sets target).Represents (maps target)) :
      (steps.foldl Step.carryOut sets target).Represents
        (steps.foldl Step.denote maps target) := by
    induction steps generalizing sets maps with
    | nil => exact all target
    | cons first rest inductionHypothesis =>
      exact inductionHypothesis _ _ (Step.represents_carryOut all first)
  exact kept _ _ fun _ => .empty

/-! ### What a stream tells of a map -/

/-- The lengths of the texts of an entry fit the eight bytes in which they are written. -/
def Fits (entry : String × StaticValue) : Prop :=
  (Utf8.encode entry.1).length < 2 ^ 64 ∧
    ∀ choice, entry.2 = .choice choice → (Utf8.encode choice).length < 2 ^ 64

/-- The lengths of a set and of its texts fit. -/
structure Storable (parameters : StaticParameters) : Prop where
  size : parameters.entries.length < 2 ^ 64
  texts : ∀ entry ∈ parameters.entries, Fits entry

theorem valueStream_append_inj {first second : StaticValue} {rest rest' : List UInt8}
    (fits : ∀ choice, first = .choice choice → (Utf8.encode choice).length < 2 ^ 64)
    (fits' : ∀ choice, second = .choice choice → (Utf8.encode choice).length < 2 ^ 64)
    (same : valueStream first ++ rest = valueStream second ++ rest') :
    first.blurred = second.blurred ∧ rest = rest' := by
  have tags : first.tag = second.tag :=
    Stream.tag_eq_of_head? same (head?_valueStream first rest) first.tag_lt
      (head?_valueStream second rest') second.tag_lt
  -- Only choices have streams of different lengths.
  have even (lengths : (valueStream first).length = (valueStream second).length)
      (short : (valueStream first).length < 2 ^ 64) :
      first.blurred = second.blurred ∧ rest = rest' :=
    (List.append_inj same lengths).imp_left (legible_valueStream.eq_of_eq short)
  cases first <;> cases second <;> cases tags
  case switch.switch.refl => exact even rfl (of_decide_eq_true rfl)
  case mask.mask.refl => exact even rfl (of_decide_eq_true rfl)
  case choice.choice.refl first second =>
    unfold valueStream at same
    rw [List.append_assoc, List.append_assoc] at same
    obtain ⟨rfl, rest⟩ :=
      Stream.text_append_inj (fits _ rfl) (fits' _ rfl) (List.append_cancel_left same)
    exact ⟨rfl, rest⟩

theorem entryStream_append_inj {first second : String × StaticValue} {rest rest' : List UInt8}
    (fits : Fits first) (fits' : Fits second)
    (same : Stream.text first.1 ++ valueStream first.2 ++ rest =
      Stream.text second.1 ++ valueStream second.2 ++ rest') :
    (first.1, first.2.blurred) = (second.1, second.2.blurred) ∧ rest = rest' := by
  rw [List.append_assoc, List.append_assoc] at same
  obtain ⟨name, same⟩ := Stream.text_append_inj fits.1 fits'.1 same
  obtain ⟨value, same⟩ := valueStream_append_inj fits.2 fits'.2 same
  exact ⟨Prod.ext name value, same⟩

/-- Equal streams tell that the sets are the same up to the masks. -/
theorem blurred_of_stream (fits : left.Storable) (fits' : right.Storable)
    (same : left.stream = right.stream) : left.blurred = right.blurred := by
  obtain ⟨sizes, same⟩ := Stream.littleEndian_append_inj fits.size fits'.size same
  have told := Stream.flatMap_append_inj (fun _ _ _ _ => entryStream_append_inj) sizes
    fits.texts fits'.texts (congrArg (· ++ []) same)
  exact congrArg mk told.1

theorem Sorted.blurred (sorted : parameters.Sorted) : parameters.blurred.Sorted :=
  List.pairwise_map.mpr sorted

/-- Streams are the same for maps that are the same up to the upper bits of masks, and for no
others. -/
theorem Represents.stream_iff {values values' : Values} (represents : left.Represents values)
    (represents' : right.Represents values') (fits : left.Storable) (fits' : right.Storable) :
    left.stream = right.stream ↔ ∀ name,
      (values.lookup name).map StaticValue.blurred =
        (values'.lookup name).map StaticValue.blurred := by
  have read : left.blurred = right.blurred ↔ ∀ name,
      (left.get? name).map StaticValue.blurred = (right.get? name).map StaticValue.blurred := by
    constructor
    · intro same name
      rw [← get?_blurred, same, get?_blurred]
    · intro same
      refine represents.sorted.blurred.ext represents'.sorted.blurred fun name => ?_
      rw [get?_blurred, get?_blurred, same]
  have maps := funext represents.get?
  have maps' := funext represents'.get?
  exact (Iff.intro (blurred_of_stream fits fits') stream_eq_of_blurred).trans (by
    rw [read, maps, maps'])

/-! ### Writing at a place -/

section

variable {front rest : List (String × StaticValue)}

theorem insertSorted_append (before : ∀ entry ∈ front, entry.1 < name) :
    insertSorted name value (front ++ rest) = front ++ insertSorted name value rest := by
  induction front with
  | nil => rfl
  | cons first front inductionHypothesis =>
    obtain ⟨here, later⟩ := List.forall_mem_cons.mp before
    rw [List.cons_append, insertSorted, if_pos here, inductionHypothesis later, List.cons_append]

theorem set_found {old : StaticValue} (before : ∀ entry ∈ front, entry.1 < name) :
    StaticParameters.set ⟨front ++ (name, old) :: rest⟩ name value =
      ⟨front ++ (name, value) :: rest⟩ := by
  unfold set
  rw [insertSorted_append before, insertSorted, if_neg (lt_irrefl name), if_pos rfl]

theorem set_missed (before : ∀ entry ∈ front, entry.1 < name)
    (behind : ∀ entry ∈ rest, name < entry.1) :
    StaticParameters.set ⟨front ++ rest⟩ name value = ⟨front ++ (name, value) :: rest⟩ := by
  unfold set
  rw [insertSorted_append before]
  cases rest with
  | nil => rfl
  | cons first rest =>
    have greater := behind first List.mem_cons_self
    rw [insertSorted, if_neg greater.not_gt, if_neg greater.ne']

theorem get?_missed (before : ∀ entry ∈ front, entry.1 < name)
    (behind : ∀ entry ∈ rest, name < entry.1) :
    StaticParameters.get? ⟨front ++ rest⟩ name = none := by
  unfold get?
  rw [Option.map_eq_none_iff, List.find?_eq_none]
  intro entry member same
  have same := of_decide_eq_true same
  rcases List.mem_append.mp member with there | there
  · exact (before entry there).ne same
  · exact (behind entry there).ne' same

theorem erase_missed (before : ∀ entry ∈ front, entry.1 < name)
    (behind : ∀ entry ∈ rest, name < entry.1) :
    StaticParameters.erase ⟨front ++ rest⟩ name = ⟨front ++ rest⟩ := by
  refine congrArg mk (List.filter_eq_self.mpr fun entry member => decide_eq_true ?_)
  rcases List.mem_append.mp member with there | there
  · exact (before entry there).ne
  · exact (behind entry there).ne'

theorem erase_found (before : ∀ entry ∈ front, entry.1 < name)
    (behind : ∀ entry ∈ rest, name < entry.1) :
    StaticParameters.erase ⟨front ++ (name, value) :: rest⟩ name = ⟨front ++ rest⟩ := by
  have kept := congrArg entries (erase_missed before behind)
  unfold erase at kept ⊢
  rw [List.filter_append] at kept ⊢
  rw [List.filter_cons_of_neg (by simp)]
  exact congrArg mk kept

end

end StaticParameters

end Shading
