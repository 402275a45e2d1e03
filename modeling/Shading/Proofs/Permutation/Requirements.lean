/-
What a material needs, whatever the order in which shader types and vertex
factories were registered. A registration takes the place of an earlier one of
its name, so a catalog holds the last registration of every name and nothing
else. What is asked of a catalog is asked of each of its entries alone, and the
answers are sorted; two catalogs with the same entries give the same lists.
-/

import Mathlib
import Shading.Proofs.Map.Archiving

namespace Shading

/-! ### Sorting by a key -/

section

variable {α κ : Type} [LinearOrder κ] {before : α → α → Bool} {key : α → κ}
  {left right entries : List α}

/-- Entries that all differ are strictly sorted. -/
theorem Catalog.pairwise_sort (ordered : ∀ left right, before left right ↔ key left < key right)
    (injective : Function.Injective key) (distinct : entries.Nodup) :
    (Catalog.sort before entries).Pairwise fun left right => before left right := by
  have notAfter (left right : α) : (!before right left) = true ↔ key left ≤ key right := by
    rw [Bool.not_eq_true', ← Bool.not_eq_true, ordered, not_lt]
  have weakly : (Catalog.sort before entries).Pairwise fun left right =>
      (!before right left) = true := by
    refine List.pairwise_mergeSort (fun first second third => ?_) (fun left right => ?_) entries
    · rw [notAfter, notAfter, notAfter]
      exact le_trans
    · rw [Bool.or_eq_true, notAfter, notAfter]
      exact le_total _ _
  have apart : (Catalog.sort before entries).Nodup :=
    (List.mergeSort_perm entries _).nodup_iff.mpr distinct
  refine (List.Pairwise.and weakly apart).imp fun both => ?_
  obtain ⟨notLater, different⟩ := both
  rw [notAfter] at notLater
  exact (ordered _ _).mpr (lt_of_le_of_ne notLater (injective.ne different))

/-- Strictly sorted lists with the same entries are the same. -/
theorem Catalog.sorted_ext (ordered : ∀ left right, before left right ↔ key left < key right)
    (sorted : left.Pairwise fun left right => before left right)
    (sorted' : right.Pairwise fun left right => before left right)
    (same : ∀ entry, entry ∈ left ↔ entry ∈ right) : left = right := by
  have : Std.Irrefl fun left right => before left right = true :=
    ⟨fun entry earlier => ((ordered entry entry).mp earlier).false⟩
  have : Std.Antisymm fun left right => before left right = true :=
    ⟨fun _ _ earlier later => absurd ((ordered _ _).mp later) ((ordered _ _).mp earlier).not_gt⟩
  exact sorted.eq_of_mem_iff sorted' same

end

/-- Names in lexicographic order, and sources of one name by their digests. -/
def Dependency.key (dependency : Dependency) : String ×ₗ Nat :=
  toLex (dependency.name, dependency.source.toNat)

theorem Dependency.key_injective : Function.Injective Dependency.key := by
  rintro ⟨name, source⟩ ⟨otherName, otherSource⟩ same
  obtain ⟨sameName, sameSource⟩ := Prod.mk.inj (toLex.injective same)
  exact mk.injEq .. ▸ ⟨sameName, BitVec.eq_of_toNat_eq sameSource⟩

theorem Dependency.before_iff (left right : Dependency) :
    left.before right ↔ left.key < right.key := by
  refine Iff.trans ?_ Prod.Lex.toLex_lt_toLex.symm
  unfold before
  split
  · rename_i same
    rw [decide_eq_true_iff, BitVec.lt_def]
    exact ⟨fun earlier => .inr ⟨same, earlier⟩,
      fun either => (either.resolve_left (same ▸ lt_irrefl left.name)).2⟩
  · rename_i different
    rw [decide_eq_true_iff]
    exact ⟨.inl, fun either => either.resolve_right fun both => different both.1⟩

namespace Catalog

/-! ### Entering by name -/

section

variable {α : Type} (name : α → String)

/-- Puts an entry in the place of those that have its name. -/
def enter (entries : List α) (entry : α) : List α :=
  entries.filter (fun other => name other ≠ name entry) ++ [entry]

/-- The last entry of a name. -/
def latest (entered : List α) (wanted : String) : Option α :=
  (entered.filter fun entry => name entry = wanted).getLast?

theorem latest_concat (entered : List α) (entry : α) (wanted : String) :
    latest name (entered ++ [entry]) wanted =
      if name entry = wanted then some entry else latest name entered wanted := by
  unfold latest
  rw [List.filter_append]
  split
  · rename_i same
    simp [same]
  · rename_i different
    simp [different]

theorem name_of_latest {entered : List α} {wanted : String} {entry : α}
    (last : latest name entered wanted = some entry) : name entry = wanted :=
  of_decide_eq_true (List.mem_filter.mp (List.mem_of_getLast? last)).2

theorem mem_enter {entries : List α} {entry last : α} :
    entry ∈ enter name entries last ↔ entry ∈ entries ∧ name entry ≠ name last ∨ entry = last := by
  unfold enter
  rw [List.mem_append, List.mem_filter, decide_eq_true_iff, List.mem_singleton]

/-- What has been entered is the last of its name. -/
theorem mem_entered {entered : List α} {entry : α} :
    entry ∈ entered.foldl (enter name) [] ↔ latest name entered (name entry) = some entry := by
  induction entered using List.reverseRecOn with
  | nil => exact ⟨nofun, nofun⟩
  | append_singleton entered last inductionHypothesis =>
    rw [List.foldl_append, List.foldl_cons, List.foldl_nil, mem_enter, inductionHypothesis,
      latest_concat]
    by_cases same : name last = name entry
    · rw [if_pos same, Option.some.injEq]
      exact ⟨fun either => (either.resolve_left fun both => both.2 same.symm).symm,
        fun equal => .inr equal.symm⟩
    · rw [if_neg same]
      have other : entry ≠ last := fun equal => same (congrArg name equal.symm)
      exact ⟨fun either => (either.resolve_right other).1, fun kept => .inl ⟨kept, Ne.symm same⟩⟩

/-- No two entries have one name. -/
theorem nodup_entered (entered : List α) : ((entered.foldl (enter name) []).map name).Nodup := by
  induction entered using List.reverseRecOn with
  | nil => exact List.nodup_nil
  | append_singleton entered last inductionHypothesis =>
    rw [List.foldl_append, List.foldl_cons, List.foldl_nil]
    unfold enter at inductionHypothesis ⊢
    rw [List.map_append, List.map_singleton, ← List.concat_eq_append, List.nodup_concat]
    refine ⟨fun member => ?_, inductionHypothesis.sublist (List.filter_sublist.map name)⟩
    obtain ⟨other, left, same⟩ := List.mem_map.mp member
    exact of_decide_eq_true (List.mem_filter.mp left).2 same

end

/-! ### Registering -/

/-- A shader type or a vertex factory that is registered. -/
inductive Registration where
  | ofType (shaderType : ShaderType)
  | ofFactory (factory : VertexFactory)

namespace Registration

def shaderType? : Registration → Option ShaderType
  | .ofType shaderType => some shaderType
  | .ofFactory _ => none

def factory? : Registration → Option VertexFactory
  | .ofType _ => none
  | .ofFactory factory => some factory

def carryOut (catalog : Catalog) : Registration → Catalog
  | .ofType shaderType => catalog.addShaderType shaderType
  | .ofFactory factory => catalog.addFactory factory

/-- The last shader type registered under a name. -/
def lastType (registrations : List Registration) (name : String) : Option ShaderType :=
  latest ShaderType.name (registrations.filterMap shaderType?) name

/-- The last vertex factory registered under a name. -/
def lastFactory (registrations : List Registration) (name : String) : Option VertexFactory :=
  latest VertexFactory.name (registrations.filterMap factory?) name

end Registration

/-- The catalog that registrations, one after another, lead to. -/
def ofRegistrations (registrations : List Registration) : Catalog :=
  registrations.foldl Registration.carryOut {}

theorem foldl_carryOut (registrations : List Registration) (catalog : Catalog) :
    registrations.foldl Registration.carryOut catalog = {
      shaderTypes := (registrations.filterMap Registration.shaderType?).foldl
        (enter ShaderType.name) catalog.shaderTypes
      factories := (registrations.filterMap Registration.factory?).foldl
        (enter VertexFactory.name) catalog.factories } := by
  induction registrations generalizing catalog with
  | nil => rfl
  | cons first rest inductionHypothesis =>
    rw [List.foldl_cons, inductionHypothesis]
    simp only [List.filterMap_cons]
    cases first <;> rfl

/-! ### The entries of a catalog -/

/-- No two entries of a kind have one name. -/
structure Distinct (catalog : Catalog) : Prop where
  shaderTypes : (catalog.shaderTypes.map ShaderType.name).Nodup
  factories : (catalog.factories.map VertexFactory.name).Nodup

theorem distinct_ofRegistrations (registrations : List Registration) :
    (ofRegistrations registrations).Distinct := by
  unfold ofRegistrations
  rw [foldl_carryOut]
  exact ⟨nodup_entered _ _, nodup_entered _ _⟩

theorem mem_shaderTypes_ofRegistrations {registrations : List Registration}
    {shaderType : ShaderType} : shaderType ∈ (ofRegistrations registrations).shaderTypes ↔
      Registration.lastType registrations shaderType.name = some shaderType := by
  unfold ofRegistrations
  rw [foldl_carryOut]
  exact mem_entered _

theorem mem_factories_ofRegistrations {registrations : List Registration}
    {factory : VertexFactory} : factory ∈ (ofRegistrations registrations).factories ↔
      Registration.lastFactory registrations factory.name = some factory := by
  unfold ofRegistrations
  rw [foldl_carryOut]
  exact mem_entered _

/-! ### What a catalog requires -/

section

variable {catalog : Catalog} {description : Description} {tier : Tier} {permutation : Permutation}

theorem mem_permutationsOf {shaderType : ShaderType} :
    permutation ∈ catalog.permutationsOf description tier shaderType ↔
      shaderType.accepts description tier = true ∧
        ((shaderType.kind = .plain ∧ permutation = ⟨shaderType.name, none⟩) ∨
          (shaderType.kind = .mesh ∧ ∃ factory ∈ catalog.factories,
            factory.accepts description shaderType tier = true ∧
              permutation = ⟨shaderType.name, some factory.name⟩)) := by
  unfold permutationsOf
  split
  · rename_i accepts
    rw [and_iff_right accepts]
    cases shaderType.kind with
    | plain => exact List.mem_singleton.trans (by simp)
    | mesh =>
      rw [List.mem_map]
      simp only [List.mem_filter, and_assoc, reduceCtorEq, false_and, false_or, true_and,
        eq_comm (b := permutation)]
  · rename_i refuses
    exact iff_of_false List.not_mem_nil fun both => refuses both.1

/-- The permutations of a shader type bear its name. -/
theorem shaderType_of_mem_permutationsOf {shaderType : ShaderType}
    (member : permutation ∈ catalog.permutationsOf description tier shaderType) :
    permutation.shaderType = shaderType.name := by
  obtain ⟨_, ⟨_, rfl⟩ | ⟨_, _, _, _, rfl⟩⟩ := mem_permutationsOf.mp member <;> rfl

theorem nodup_permutationsOf (distinct : catalog.Distinct) (shaderType : ShaderType) :
    (catalog.permutationsOf description tier shaderType).Nodup := by
  unfold permutationsOf
  split
  · cases shaderType.kind with
    | plain => exact List.nodup_singleton _
    | mesh =>
      refine List.Nodup.map_on (fun first left second right same => ?_)
        ((List.Nodup.of_map _ distinct.factories).filter _)
      exact List.inj_on_of_nodup_map distinct.factories (List.mem_of_mem_filter left)
        (List.mem_of_mem_filter right) (Option.some.inj (Permutation.mk.inj same).2)
  · exact List.nodup_nil

theorem mem_permutations : permutation ∈ (catalog.dependencies description tier).permutations ↔
    ∃ shaderType ∈ catalog.shaderTypes,
      permutation ∈ catalog.permutationsOf description tier shaderType :=
  List.mem_mergeSort.trans List.mem_flatMap

theorem sorted_permutations (distinct : catalog.Distinct) :
    (catalog.dependencies description tier).permutations.Pairwise fun left right =>
      left.before right := by
  refine pairwise_sort (fun _ _ => Permutation.before_iff) (fun _ _ => Permutation.key_injective)
    (List.nodup_flatMap.mpr ⟨fun shaderType _ => nodup_permutationsOf distinct shaderType, ?_⟩)
  refine (List.pairwise_map.mp distinct.shaderTypes).imp fun different => ?_
  intro permutation here there
  exact different ((shaderType_of_mem_permutationsOf here).symm.trans
    (shaderType_of_mem_permutationsOf there))

theorem mem_shaderTypes (distinct : catalog.Distinct) {dependency : Dependency} :
    dependency ∈ (catalog.dependencies description tier).shaderTypes ↔
      ∃ shaderType ∈ catalog.shaderTypes, dependency = ⟨shaderType.name, shaderType.source⟩ ∧
        ∃ permutation ∈ (catalog.dependencies description tier).permutations,
          permutation.shaderType = shaderType.name := by
  have used {shaderType : ShaderType} (member : shaderType ∈ catalog.shaderTypes) :
      (!(catalog.permutationsOf description tier shaderType).isEmpty) = true ↔
        ∃ permutation ∈ (catalog.dependencies description tier).permutations,
          permutation.shaderType = shaderType.name := by
    rw [Bool.not_eq_true', List.isEmpty_eq_false_iff_exists_mem]
    constructor
    · rintro ⟨permutation, there⟩
      exact ⟨permutation, mem_permutations.mpr ⟨shaderType, member, there⟩,
        shaderType_of_mem_permutationsOf there⟩
    · rintro ⟨permutation, there, same⟩
      obtain ⟨other, present, there⟩ := mem_permutations.mp there
      have named := (shaderType_of_mem_permutationsOf there).symm.trans same
      rw [← List.inj_on_of_nodup_map distinct.shaderTypes present member named]
      exact ⟨permutation, there⟩
  refine (List.mem_mergeSort.trans List.mem_map).trans ?_
  constructor
  · rintro ⟨shaderType, member, rfl⟩
    obtain ⟨present, needed⟩ := List.mem_filter.mp member
    exact ⟨shaderType, present, rfl, (used present).mp needed⟩
  · rintro ⟨shaderType, present, rfl, needed⟩
    exact ⟨shaderType, List.mem_filter.mpr ⟨present, (used present).mpr needed⟩, rfl⟩

theorem mem_factories {dependency : Dependency} :
    dependency ∈ (catalog.dependencies description tier).factories ↔
      ∃ factory ∈ catalog.factories, dependency = ⟨factory.name, factory.source⟩ ∧
        ∃ permutation ∈ (catalog.dependencies description tier).permutations,
          permutation.factory = some factory.name := by
  have used (factory : VertexFactory) :
      ((catalog.shaderTypes.flatMap (catalog.permutationsOf description tier)).any
          fun permutation => permutation.factory = some factory.name) = true ↔
        ∃ permutation ∈ (catalog.dependencies description tier).permutations,
          permutation.factory = some factory.name := by
    rw [List.any_eq_true]
    refine exists_congr fun permutation => and_congr List.mem_mergeSort.symm decide_eq_true_iff
  refine (List.mem_mergeSort.trans List.mem_map).trans ?_
  constructor
  · rintro ⟨factory, member, rfl⟩
    obtain ⟨present, needed⟩ := List.mem_filter.mp member
    exact ⟨factory, present, rfl, (used factory).mp needed⟩
  · rintro ⟨factory, present, rfl, needed⟩
    exact ⟨factory, List.mem_filter.mpr ⟨present, (used factory).mpr needed⟩, rfl⟩

/-- Entries of different names are sorted by name alone. -/
theorem sorted_dependencies {α : Type} {name : α → String} {entries : List α}
    (distinct : (entries.map name).Nodup) (kept : α → Bool) (source : α → Digest) :
    (sort Dependency.before ((entries.filter kept).map fun entry =>
      ⟨name entry, source entry⟩)).Pairwise fun left right => left.name < right.name := by
  set listed := (entries.filter kept).map fun entry => (⟨name entry, source entry⟩ : Dependency)
    with isListed
  have names : (listed.map Dependency.name).Nodup := by
    rw [isListed, List.map_map]
    exact distinct.sublist (List.filter_sublist.map name)
  have sorted := pairwise_sort Dependency.before_iff Dependency.key_injective
    (List.Nodup.of_map _ names)
  have apart : ((sort Dependency.before listed).map Dependency.name).Nodup :=
    ((List.mergeSort_perm listed _).map Dependency.name).nodup_iff.mpr names
  refine (sorted.and (List.pairwise_map.mp apart)).imp fun {left right} both => ?_
  have earlier := both.1
  unfold Dependency.before at earlier
  rw [if_neg both.2] at earlier
  exact of_decide_eq_true earlier

end

/-! ### What registrations require -/

/-- The permutations that a material needs by the last registrations: the plain shader types that
accept it, and the mesh types that do with each factory that accepts it as well. -/
inductive Required (registrations : List Registration) (description : Description) (tier : Tier) :
    Permutation → Prop
  | plain {shaderType : ShaderType} :
    Registration.lastType registrations shaderType.name = some shaderType →
    shaderType.kind = .plain → shaderType.accepts description tier = true →
    Required registrations description tier ⟨shaderType.name, none⟩
  | mesh {shaderType : ShaderType} {factory : VertexFactory} :
    Registration.lastType registrations shaderType.name = some shaderType →
    shaderType.kind = .mesh → shaderType.accepts description tier = true →
    Registration.lastFactory registrations factory.name = some factory →
    factory.accepts description shaderType tier = true →
    Required registrations description tier ⟨shaderType.name, some factory.name⟩

variable {registrations others : List Registration} {description : Description} {tier : Tier}

theorem required_iff {permutation : Permutation} :
    permutation ∈ ((ofRegistrations registrations).dependencies description tier).permutations ↔
      Required registrations description tier permutation := by
  rw [mem_permutations]
  constructor
  · rintro ⟨shaderType, registered, member⟩
    have last := mem_shaderTypes_ofRegistrations.mp registered
    obtain ⟨accepts, ⟨plain, rfl⟩ | ⟨mesh, factory, present, fits, rfl⟩⟩ :=
      mem_permutationsOf.mp member
    · exact .plain last plain accepts
    · exact .mesh last mesh accepts (mem_factories_ofRegistrations.mp present) fits
  · rintro (⟨last, plain, accepts⟩ | ⟨last, mesh, accepts, present, fits⟩)
    · exact ⟨_, mem_shaderTypes_ofRegistrations.mpr last,
        mem_permutationsOf.mpr ⟨accepts, .inl ⟨plain, rfl⟩⟩⟩
    · exact ⟨_, mem_shaderTypes_ofRegistrations.mpr last, mem_permutationsOf.mpr ⟨accepts,
        .inr ⟨mesh, _, mem_factories_ofRegistrations.mpr present, fits, rfl⟩⟩⟩

/-- What the last registrations make a material depend on, each list in strict order. -/
structure Exact (registrations : List Registration) (description : Description) (tier : Tier)
    (dependencies : Dependencies) : Prop where
  typesSorted : dependencies.shaderTypes.Pairwise fun left right => left.name < right.name
  factoriesSorted : dependencies.factories.Pairwise fun left right => left.name < right.name
  permutationsSorted : dependencies.permutations.Pairwise fun left right => left.before right
  permutations : ∀ permutation, permutation ∈ dependencies.permutations ↔
    Required registrations description tier permutation
  types : ∀ dependency, dependency ∈ dependencies.shaderTypes ↔
    (Registration.lastType registrations dependency.name).map ShaderType.source =
        some dependency.source ∧
      ∃ permutation ∈ dependencies.permutations, permutation.shaderType = dependency.name
  factories : ∀ dependency, dependency ∈ dependencies.factories ↔
    (Registration.lastFactory registrations dependency.name).map VertexFactory.source =
        some dependency.source ∧
      ∃ permutation ∈ dependencies.permutations, permutation.factory = some dependency.name

theorem exact_dependencies (registrations : List Registration) (description : Description)
    (tier : Tier) : Exact registrations description tier
      ((ofRegistrations registrations).dependencies description tier) where
  typesSorted := sorted_dependencies (distinct_ofRegistrations registrations).shaderTypes _ _
  factoriesSorted := sorted_dependencies (distinct_ofRegistrations registrations).factories _ _
  permutationsSorted := sorted_permutations (distinct_ofRegistrations registrations)
  permutations _ := required_iff
  types dependency := by
    rw [mem_shaderTypes (distinct_ofRegistrations registrations)]
    constructor
    · rintro ⟨shaderType, registered, rfl, needed⟩
      exact ⟨Option.map_eq_some_iff.mpr
        ⟨shaderType, mem_shaderTypes_ofRegistrations.mp registered, rfl⟩, needed⟩
    · rintro ⟨last, needed⟩
      obtain ⟨shaderType, last, source⟩ := Option.map_eq_some_iff.mp last
      have named := name_of_latest _ last
      rw [← named] at last needed
      exact ⟨shaderType, mem_shaderTypes_ofRegistrations.mpr last,
        Dependency.mk.injEq .. ▸ ⟨named.symm, source.symm⟩, needed⟩
  factories dependency := by
    rw [mem_factories]
    constructor
    · rintro ⟨factory, registered, rfl, needed⟩
      exact ⟨Option.map_eq_some_iff.mpr
        ⟨factory, mem_factories_ofRegistrations.mp registered, rfl⟩, needed⟩
    · rintro ⟨last, needed⟩
      obtain ⟨factory, last, source⟩ := Option.map_eq_some_iff.mp last
      have named := name_of_latest _ last
      rw [← named] at last needed
      exact ⟨factory, mem_factories_ofRegistrations.mpr last,
        Dependency.mk.injEq .. ▸ ⟨named.symm, source.symm⟩, needed⟩

/-- The last registrations leave nothing open. -/
theorem Exact.unique {first second : Dependencies}
    (left : Exact registrations description tier first)
    (right : Exact registrations description tier second) : first = second := by
  have byName (left right : Dependency) :
      decide (left.name < right.name) ↔ left.name < right.name := decide_eq_true_iff
  have ordered (left right : Permutation) : left.before right ↔ left.key < right.key :=
    Permutation.before_iff
  have permutations : first.permutations = second.permutations :=
    sorted_ext ordered left.permutationsSorted right.permutationsSorted fun permutation =>
        (left.permutations permutation).trans (right.permutations permutation).symm
  have types : first.shaderTypes = second.shaderTypes :=
    sorted_ext byName (left.typesSorted.imp decide_eq_true)
      (right.typesSorted.imp decide_eq_true) fun dependency => by
        rw [left.types, right.types, permutations]
  have factories : first.factories = second.factories :=
    sorted_ext byName (left.factoriesSorted.imp decide_eq_true)
      (right.factoriesSorted.imp decide_eq_true) fun dependency => by
        rw [left.factories, right.factories, permutations]
  cases first
  cases second
  exact (Dependencies.mk.injEq ..).mpr ⟨types, factories, permutations⟩

/-- What is required depends on the last registrations alone. -/
theorem Required.transfer {permutation : Permutation}
    (sameTypes : Registration.lastType registrations = Registration.lastType others)
    (sameFactories : Registration.lastFactory registrations = Registration.lastFactory others)
    (required : Required registrations description tier permutation) :
    Required others description tier permutation := by
  cases required with
  | plain last isPlain accepts => exact .plain (sameTypes ▸ last) isPlain accepts
  | mesh last isMesh accepts present fits =>
    exact .mesh (sameTypes ▸ last) isMesh accepts (sameFactories ▸ present) fits

/-- Registrations that leave the same last one for every name make every material depend on the
same permutations and sources, and these are the ones it needs, in strict order. -/
theorem dependencies_determined
    (sameTypes : ∀ name, Registration.lastType registrations name =
      Registration.lastType others name)
    (sameFactories : ∀ name, Registration.lastFactory registrations name =
      Registration.lastFactory others name) (description : Description) (tier : Tier) :
    Exact registrations description tier
        ((ofRegistrations registrations).dependencies description tier) ∧
      (ofRegistrations others).dependencies description tier =
        (ofRegistrations registrations).dependencies description tier := by
  have types := funext sameTypes
  have factories := funext sameFactories
  have others' := exact_dependencies others description tier
  refine ⟨exact_dependencies registrations description tier,
    Exact.unique ?_ (exact_dependencies registrations description tier)⟩
  exact { others' with
    permutations := fun permutation => (others'.permutations permutation).trans
      ⟨.transfer types.symm factories.symm, .transfer types factories⟩
    types := types ▸ others'.types
    factories := factories ▸ others'.factories }

/-! ### Two orders of registration -/

/-- A pass that is drawn with meshes, and a filter without. -/
def passes : List Registration := [
  .ofType { name := "Base", kind := .mesh, source := 1 },
  .ofType { name := "Blur", kind := .plain, source := 2 },
  .ofFactory { name := "Local", source := 3 },
  .ofFactory { name := "Skin", source := 4, accepts := fun _ _ tier => tier = .desktop }]

/-- The other way round, and the pass is registered twice. -/
def passesReversed : List Registration :=
  .ofType { name := "Base", kind := .plain, source := 5 } :: passes.reverse

theorem passes_determined :
    (∀ name, Registration.lastType passes name = Registration.lastType passesReversed name) ∧
      (∀ name, Registration.lastFactory passes name =
        Registration.lastFactory passesReversed name) ∧
      (Exact passes default .desktop ((ofRegistrations passes).dependencies default .desktop) ∧
        (ofRegistrations passesReversed).dependencies default .desktop =
          (ofRegistrations passes).dependencies default .desktop) ∧
      (ofRegistrations passes).dependencies default .desktop = {
        shaderTypes := [⟨"Base", 1⟩, ⟨"Blur", 2⟩]
        factories := [⟨"Local", 3⟩, ⟨"Skin", 4⟩]
        permutations := [⟨"Base", some "Local"⟩, ⟨"Base", some "Skin"⟩, ⟨"Blur", none⟩] } := by
  have types (name : String) :
      Registration.lastType passes name = Registration.lastType passesReversed name := by
    by_cases base : "Base" = name
    · subst base
      rfl
    · by_cases blur : "Blur" = name
      · subst blur
        rfl
      · simp [Registration.lastType, passes, passesReversed, Registration.shaderType?,
          latest, List.filterMap_cons, *]
  have factories (name : String) :
      Registration.lastFactory passes name = Registration.lastFactory passesReversed name := by
    by_cases plain : "Local" = name
    · subst plain
      rfl
    · by_cases skin : "Skin" = name
      · subst skin
        rfl
      · simp [Registration.lastFactory, passes, passesReversed, Registration.factory?,
          latest, List.filterMap_cons, *]
  exact ⟨types, factories, dependencies_determined types factories default .desktop, by cbv⟩

end Catalog

end Shading
