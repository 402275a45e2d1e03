/-
Instances and what they are derived from. An instance derives from the material
that its parents lead to, by way of all the overrides on that way. The library
follows parents for no more steps than there are instances. That is enough: no
instance is met twice on a way that ends, since the way on from an instance is
always the same.
-/

import Shading.Material.Update
import Shading.Proofs.Merging

namespace Shading

/-- Of each live instance, its parent and its overrides. -/
abbrev Lineage := SlotKey → Option (Target × StaticParameters)

namespace Lineage

variable {lineage lineage' : Lineage} {target : Target} {stack : List StaticParameters}
  {base : SlotKey}

/-- A target leads to a material by way of overrides, its own first. -/
inductive Derives (lineage : Lineage) : Target → List StaticParameters → SlotKey → Prop where
  | material (base : SlotKey) : Derives lineage (.material base) [] base
  | derived {key parent overrides rest base} : lineage key = some (parent, overrides) →
      Derives lineage parent rest base → Derives lineage (.derived key) (overrides :: rest) base

theorem Derives.unique {stack' : List StaticParameters} {base' : SlotKey}
    (derives : lineage.Derives target stack base) (other : lineage.Derives target stack' base') :
    stack = stack' ∧ base = base' := by
  induction derives generalizing stack' with
  | material =>
    cases other
    exact ⟨rfl, rfl⟩
  | derived found _ inductionHypothesis =>
    cases other with
    | derived found' rest =>
      cases found.symm.trans found'
      obtain ⟨rfl, rfl⟩ := inductionHypothesis rest
      exact ⟨rfl, rfl⟩

theorem Derives.mono (derives : lineage.Derives target stack base)
    (kept : ∀ key entry, lineage key = some entry → lineage' key = some entry) :
    lineage'.Derives target stack base := by
  induction derives with
  | material base => exact .material base
  | derived found _ inductionHypothesis => exact .derived (kept _ _ found) inductionHypothesis

/-- The instances on the way, which are all different: from a later one the way is shorter. -/
theorem Derives.exists_keys (derives : lineage.Derives target stack base) :
    ∃ keys : List SlotKey, keys.length = stack.length ∧ keys.Nodup ∧ ∀ key ∈ keys,
      (lineage key).isSome ∧ ∃ rest, lineage.Derives (.derived key) rest base ∧
        rest.length ≤ stack.length := by
  induction derives with
  | material => exact ⟨[], rfl, .nil, fun _ member => nomatch member⟩
  | derived found derives inductionHypothesis =>
    rename_i key parent overrides rest base
    obtain ⟨keys, length, distinct, live⟩ := inductionHypothesis
    refine ⟨key :: keys, congrArg (· + 1) length, List.nodup_cons.mpr ⟨fun member => ?_, distinct⟩,
      fun other member => ?_⟩
    · obtain ⟨_, shorter, way, bound⟩ := live key member
      have same := (way.unique (.derived found derives)).1
      rw [same, List.length_cons] at bound
      exact Nat.not_succ_le_self _ bound
    · rcases List.mem_cons.mp member with rfl | member
      · rw [found]
        exact ⟨rfl, _, .derived found derives, Nat.le_refl _⟩
      · obtain ⟨there, shorter, way, bound⟩ := live other member
        exact ⟨there, shorter, way, Nat.le_succ_of_le bound⟩

end Lineage

namespace Library

variable {library : Library} {target : Target} {stack rest : List StaticParameters}
  {base key : SlotKey} {found : MaterialInstance} {material : Material} {tier : Tier}

def lineage (library : Library) : Lineage := fun key =>
  (library.derived.get? key).map fun found => (found.parent, found.overrides)

theorem lineage_eq_some {overrides : StaticParameters} :
    library.lineage key = some (target, overrides) ↔
      ∃ found, library.derived.get? key = some found ∧ found.parent = target ∧
        found.overrides = overrides := by
  unfold lineage
  rw [Option.map_eq_some_iff]
  simp only [Prod.mk.injEq]

theorem lineage_of_get? (there : library.derived.get? key = some found) :
    library.lineage key = some (found.parent, found.overrides) :=
  lineage_eq_some.mpr ⟨found, there, rfl, rfl⟩

/-! ### The steps that are followed -/

theorem ancestry_material (library : Library) (links : Nat) (key : SlotKey) :
    library.ancestry links (.material key) = ([], .material key) := by
  cases links <;> rfl

theorem ancestry_derived (links : Nat) (there : library.derived.get? key = some found) :
    library.ancestry (links + 1) (.derived key) =
      (found :: (library.ancestry links found.parent).1,
        (library.ancestry links found.parent).2) := by
  rw [ancestry, there]

theorem length_le_of_derives (derives : library.lineage.Derives target stack base) :
    stack.length ≤ library.derived.size := by
  obtain ⟨keys, length, distinct, live⟩ := derives.exists_keys
  have inside : keys ⊆ library.derived.entries.keys := by
    intro key member
    obtain ⟨entry, found⟩ := Option.isSome_iff_exists.mp (live key member).1
    obtain ⟨value, there, _⟩ := Option.map_eq_some_iff.mp found
    exact Table.mem_keys_of_get? there
  have bound := distinct.length_le_of_subset inside
  rw [length] at bound
  exact bound.trans_eq (List.length_map _)

/-- With enough steps the way is followed to its end. -/
theorem ancestry_of_derives (derives : library.lineage.Derives target stack base) :
    ∃ instances, instances.map MaterialInstance.overrides = stack ∧ ∀ links,
      stack.length ≤ links → library.ancestry links target = (instances, .material base) := by
  induction derives with
  | material base => exact ⟨[], rfl, fun links _ => library.ancestry_material links base⟩
  | derived step _ inductionHypothesis =>
    obtain ⟨found, there, rfl, rfl⟩ := lineage_eq_some.mp step
    obtain ⟨instances, same, ends⟩ := inductionHypothesis
    refine ⟨found :: instances, congrArg (found.overrides :: ·) same, fun links enough => ?_⟩
    obtain ⟨left, rfl⟩ := Nat.exists_eq_add_one_of_ne_zero (Nat.ne_zero_of_lt enough)
    rw [ancestry_derived left there, ends left (Nat.le_of_succ_le_succ enough)]

theorem chain_of_derives (derives : library.lineage.Derives target stack base) :
    ∃ instances, instances.map MaterialInstance.overrides = stack ∧
      library.chain target = (instances, .material base) := by
  obtain ⟨instances, same, ends⟩ := ancestry_of_derives derives
  exact ⟨instances, same, ends _ (Nat.le_succ_of_le (length_le_of_derives derives))⟩

/-- An instance comes first on its chain, and then all that is on the chain of its parent. -/
theorem chain_derived (there : library.derived.get? key = some found)
    (derives : library.lineage.Derives found.parent rest base) :
    library.chain (.derived key) =
      (found :: (library.chain found.parent).1, (library.chain found.parent).2) := by
  obtain ⟨instances, same, ends⟩ := ancestry_of_derives derives
  have bound := length_le_of_derives (.derived (lineage_of_get? there) derives)
  have enough : rest.length ≤ library.derived.size := Nat.le_of_succ_le bound
  unfold chain
  rw [ancestry_derived _ there, ends _ enough, ends _ (Nat.le_succ_of_le enough)]

theorem derives_of_ancestry {links : Nat}
    (ends : (library.ancestry links target).2 = .material base) :
    ∃ stack, library.lineage.Derives target stack base := by
  induction links generalizing target with
  | zero =>
    rw [show target = .material base from ends]
    exact ⟨[], .material base⟩
  | succ links inductionHypothesis =>
    cases target with
    | material key =>
      rw [ancestry_material] at ends
      cases ends
      exact ⟨[], .material _⟩
    | derived key =>
      cases there : library.derived.get? key with
      | none =>
        rw [ancestry, there] at ends
        cases ends
      | some found =>
        rw [ancestry_derived links there] at ends
        obtain ⟨stack, derives⟩ := inductionHypothesis ends
        exact ⟨_, .derived (lineage_of_get? there) derives⟩

/-! ### What is read along a chain -/

theorem baseMaterial_eq_some : library.baseMaterial target = some base ↔
    ∃ stack, library.lineage.Derives target stack base := by
  constructor
  · intro is
    unfold baseMaterial at is
    split at is
    · rename_i key ends
      cases is
      exact derives_of_ancestry ends
    · cases is
  · rintro ⟨stack, derives⟩
    obtain ⟨instances, _, chain⟩ := chain_of_derives derives
    unfold baseMaterial
    rw [chain]

theorem effectiveOverrides_of_derives (derives : library.lineage.Derives target stack base) :
    library.effectiveOverrides target = .stacked stack := by
  obtain ⟨instances, same, chain⟩ := chain_of_derives derives
  unfold effectiveOverrides StaticParameters.stacked
  rw [chain, ← same, ← List.map_reverse, List.foldl_map]

theorem baseDescription_of_derives (derives : library.lineage.Derives target stack base)
    (there : library.materials.get? base = some material) :
    library.baseDescription target = .ok (some material.description) := by
  unfold baseDescription
  rw [baseMaterial_eq_some.mpr ⟨stack, derives⟩]
  dsimp only
  rw [there]

/-- The description at the root, if it could be asked for, is that of a live material. -/
theorem baseDescription_cases {description? : Option Description}
    (ran : library.baseDescription target = .ok description?) :
    (description? = none ∧ ∀ stack base, ¬ library.lineage.Derives target stack base) ∨
      ∃ stack base material, library.lineage.Derives target stack base ∧
        library.materials.get? base = some material ∧
        description? = some material.description := by
  unfold baseDescription at ran
  split at ran
  · rename_i nothing
    cases ran
    refine .inl ⟨rfl, fun stack base derives => ?_⟩
    rw [baseMaterial_eq_some.mpr ⟨stack, derives⟩] at nothing
    cases nothing
  · rename_i base is
    obtain ⟨stack, derives⟩ := baseMaterial_eq_some.mp is
    split at ran
    · rename_i material there
      cases ran
      exact .inr ⟨stack, base, material, derives, there, rfl⟩
    · cases ran

/-- A material is drawn with a resource of its own. -/
theorem resource_material (library : Library) (key : SlotKey) (tier : Tier) :
    library.resource (.material key) tier = (library.ownResources (.material key)).get tier := by
  unfold resource chain
  rw [ancestry_material]
  rfl

/-- An instance is drawn with a resource of its own or with that of its parent. -/
theorem resource_derived (there : library.derived.get? key = some found)
    (derives : library.lineage.Derives found.parent rest base) (tier : Tier) :
    library.resource (.derived key) tier =
      (found.resources.get tier).or (library.resource found.parent tier) := by
  unfold resource
  rw [chain_derived there derives]
  dsimp only
  rw [List.findSome?_cons]
  cases found.resources.get tier <;> rfl

/-! ### Whoever depends on a target -/

/-- The instances that have not been found. -/
def unfound (library : Library) (found : List SlotKey) : List (SlotKey × MaterialInstance) :=
  library.derived.toList.filter fun entry => entry.1 ∉ found

theorem mem_toList (there : library.derived.get? key = some found) :
    (key, found) ∈ library.derived.toList := by
  refine List.mem_filterMap.mpr ⟨key, ?_, ?_⟩
  · exact List.mem_mergeSort.mpr (Table.mem_keys_of_get? there)
  · rw [there]
    rfl

/-- Entries chosen in two ways, none of them in both, are no more than those chosen in either. -/
theorem length_filter_add_le {α : Type} {entries : List α} {first second either : α → Bool}
    (apart : ∀ entry ∈ entries, first entry → second entry → False)
    (within : ∀ entry ∈ entries, first entry ∨ second entry → either entry) :
    (entries.filter first).length + (entries.filter second).length ≤
      (entries.filter either).length := by
  induction entries with
  | nil => exact Nat.le_refl _
  | cons entry rest inductionHypothesis =>
    have others := inductionHypothesis
      (fun other member => apart other (List.mem_cons_of_mem _ member))
      fun other member => within other (List.mem_cons_of_mem _ member)
    have here := apart entry List.mem_cons_self
    have inside := within entry List.mem_cons_self
    simp only [List.filter_cons]
    grind

theorem descend_nil (steps : Nat) (met : List SlotKey) : library.descend steps [] met = met := by
  cases steps <;> rfl

/-- The steps that are taken suffice for one target and everything below it. -/
theorem enough_steps (library : Library) (target : Target) :
    [target].length + (library.unfound []).length ≤ library.derived.size + 1 := by
  have count : (library.unfound []).length ≤ library.derived.size := by
    refine (List.length_filter_le _ _).trans ((List.length_filterMap_le _ _).trans ?_)
    exact ((List.length_mergeSort _).trans (List.length_map _)).le
  rw [List.length_singleton]
  omega

/-- Going down finds every instance of a target that is looked at, and every instance of one
that is found. The steps suffice if there are as many as targets to look at and instances to
find: each step takes one target away and adds those that it finds. -/
theorem descend_complete {steps : Nat} {targets : List Target} {met : List SlotKey}
    (enough : targets.length + (library.unfound met).length ≤ steps) :
    met ⊆ library.descend steps targets met ∧
      ∀ key found, library.derived.get? key = some found →
        (found.parent ∈ targets ∨ ∃ above, found.parent = .derived above ∧ above ∉ met ∧
          above ∈ library.descend steps targets met) →
        key ∈ library.descend steps targets met := by
  induction steps generalizing targets met with
  | zero =>
    have nothing := List.eq_nil_of_length_eq_zero (Nat.eq_zero_of_add_eq_zero
      (Nat.eq_zero_of_le_zero enough)).1
    rw [nothing, descend]
    refine ⟨List.Subset.refl _, fun key found _ from_ => ?_⟩
    rcases from_ with none | ⟨above, _, unmet, member⟩
    · cases none
    · exact absurd member unmet
  | succ steps inductionHypothesis =>
    cases targets with
    | nil =>
      rw [descend_nil]
      refine ⟨List.Subset.refl _, fun key found _ from_ => ?_⟩
      rcases from_ with none | ⟨above, _, unmet, member⟩
      · cases none
      · exact absurd member unmet
    | cons parent others =>
      rw [descend]
      generalize children_eq : (library.derived.toList.filter fun entry =>
        entry.2.parent = parent && entry.1 ∉ met).map Prod.fst = children
      have mem_children {key : SlotKey} {found : MaterialInstance}
          (there : library.derived.get? key = some found) (hangs : found.parent = parent)
          (unmet : key ∉ met) : key ∈ children := by
        rw [← children_eq]
        refine List.mem_map.mpr ⟨(key, found), List.mem_filter.mpr ⟨mem_toList there, ?_⟩, rfl⟩
        simp [hangs, unmet]
      have fewer : (library.unfound (met ++ children)).length + children.length ≤
          (library.unfound met).length := by
        have length := congrArg List.length children_eq
        rw [List.length_map] at length
        rw [← length]
        refine length_filter_add_le (fun entry member left chosen => ?_) fun entry _ either => ?_
        · refine of_decide_eq_true left (List.mem_append_right _ ?_)
          rw [← children_eq]
          exact List.mem_map_of_mem (List.mem_filter.mpr ⟨member, chosen⟩)
        · rcases either with left | chosen
          · exact decide_eq_true fun known =>
              of_decide_eq_true left (List.mem_append_left _ known)
          · exact (Bool.and_eq_true_iff.mp chosen).2
      have left : (children.reverse.map Target.derived ++ others).length +
          (library.unfound (met ++ children)).length ≤ steps := by
        simp only [List.length_append, List.length_map, List.length_reverse,
          List.length_cons] at enough ⊢
        omega
      obtain ⟨grows, complete⟩ := inductionHypothesis left
      refine ⟨fun key member => grows (List.mem_append_left _ member),
        fun key found there from_ => ?_⟩
      rcases from_ with member | ⟨above, hangs, unmet, member⟩
      · rcases List.mem_cons.mp member with here | later
        · by_cases known : key ∈ met
          · exact grows (List.mem_append_left _ known)
          · exact grows (List.mem_append_right _ (mem_children there here known))
        · exact complete key found there (.inl (List.mem_append_right _ later))
      · by_cases new : above ∈ children
        · refine complete key found there (.inl (List.mem_append_left _ ?_))
          exact hangs ▸ List.mem_map.mpr ⟨above, List.mem_reverse.mpr new, rfl⟩
        · refine complete key found there (.inr ⟨above, hangs, fun both => ?_, member⟩)
          exact (List.mem_append.mp both).elim unmet new

/-- Whoever derives from a target is among those that depend on it. -/
theorem mem_dependents_of_derives (derives : library.lineage.Derives (.derived key) stack base) :
    key ∈ library.dependents (.material base) := by
  have complete := (descend_complete (library.enough_steps (.material base))).2
  unfold dependents sortByDepth
  rw [List.mem_mergeSort]
  generalize same : Target.derived key = target at derives
  induction derives generalizing key with
  | material => cases same
  | derived step derives inductionHypothesis =>
    cases same
    obtain ⟨found, there, rfl, rfl⟩ := lineage_eq_some.mp step
    refine complete _ found there ?_
    cases above : found.parent with
    | material root =>
      rw [above] at derives
      cases derives
      exact .inl List.mem_cons_self
    | derived parent =>
      exact .inr ⟨parent, rfl, List.not_mem_nil, inductionHypothesis complete above.symm⟩

end Library

end Shading
