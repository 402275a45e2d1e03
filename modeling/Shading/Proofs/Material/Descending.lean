/-
Instances below a target. The chain of parents of an instance ends, since an
instance is always younger than what it was made of; and so the instances that
are found by going down from a target are those whose chains pass through it, each
of them once. Sorted by the lengths of their chains, none of them comes before
one that its own chain passes through.
-/

import Mathlib
import Shading.Proofs.Material.Drawing
import Shading.Proofs.Material.Resolving

namespace Shading

/-! ### Keys of tables -/

namespace Table

variable {κ β : Type} [DecidableEq κ] {table : Table κ β}

theorem nodup_keys_erase (distinct : table.keys.Nodup) (key : κ) :
    (table.erase key).keys.Nodup :=
  distinct.sublist (List.filter_sublist.map _)

theorem nodup_keys_insert (distinct : table.keys.Nodup) (key : κ) (value : β) :
    (table.insert key value).keys.Nodup := by
  refine List.nodup_cons.mpr ⟨fun member => ?_, nodup_keys_erase distinct key⟩
  obtain ⟨entry, inside, same⟩ := List.mem_map.mp member
  exact of_decide_eq_true (List.mem_filter.mp inside).2 same

theorem nodup_keys_modify (distinct : table.keys.Nodup) (key : κ) (change : β → β) :
    (table.modify key change).keys.Nodup := by
  unfold modify
  split
  · exact nodup_keys_insert distinct key _
  · exact distinct

end Table

namespace Library

variable {library next : Library} {target parent : Target} {key : SlotKey}
  {overrides : StaticParameters} {derived : Slots MaterialInstance}

/-! ### Forests -/

/-- Instances that are listed once and come after what they were made of. -/
structure Forest (derived : Slots MaterialInstance) : Prop where
  distinct : derived.entries.keys.Nodup
  ranked : ∃ rank : Target → Nat, ∀ key found, derived.get? key = some found →
    rank found.parent < rank (.derived key)

namespace Forest

theorem empty : Forest {} := ⟨List.nodup_nil, fun _ => 0, fun _ _ there => nomatch there⟩

/-- A change of an instance that is not about its parent. -/
theorem modify (forest : Forest derived) (key : SlotKey)
    {change : MaterialInstance → MaterialInstance}
    (parent : ∀ found, (change found).parent = found.parent) :
    Forest (derived.modify key change) := by
  obtain ⟨rank, older⟩ := forest.ranked
  refine ⟨Table.nodup_keys_modify forest.distinct key change, rank, fun other found there => ?_⟩
  rw [Slots.get?_modify] at there
  split at there
  · rename_i same
    obtain ⟨before, known, rfl⟩ := Option.map_eq_some_iff.mp there
    rw [parent, same]
    exact older key before known
  · exact older other found there

theorem erase (forest : Forest derived) (key : SlotKey) : Forest (derived.erase key) := by
  obtain ⟨rank, older⟩ := forest.ranked
  refine ⟨?_, rank, fun other found there => ?_⟩
  · unfold Slots.erase
    split
    · exact Table.nodup_keys_erase forest.distinct key
    · exact forest.distinct
  · rw [Slots.get?_erase] at there
    split at there
    · cases there
    · exact older other found there

/-- One more instance, that neither itself nor any other instance was made of. -/
theorem insert {entry : MaterialInstance} (forest : Forest derived)
    (new : entry.parent ≠ .derived derived.nextKey)
    (childless : ∀ key found, derived.get? key = some found →
      found.parent ≠ .derived derived.nextKey) : Forest (derived.insert entry).2 := by
  obtain ⟨rank, older⟩ := forest.ranked
  refine ⟨Table.nodup_keys_insert forest.distinct _ entry, fun target =>
    if target = .derived derived.nextKey then rank entry.parent + 1 else rank target,
    fun other found there => ?_⟩
  rw [Slots.get?_insert] at there
  dsimp only
  split at there
  · rename_i same
    cases there
    rw [if_neg new, if_pos (congrArg Target.derived same)]
    exact Nat.lt_succ_self _
  · rename_i different
    rw [if_neg (childless other found there),
      if_neg fun same => different (Target.derived.inj same)]
    exact older other found there

theorem releaseResources (forest : Forest library.derived) (resources : Materials) :
    Forest (library.releaseResources resources).derived :=
  (releaseResources_drops library resources).derived ▸ forest

theorem addResources (forest : Forest library.derived) (owner : Target)
    (description : Description) (overrides : Option StaticParameters) :
    Forest (library.addResources owner description overrides).2.derived :=
  (library.addResources_makes owner description overrides).derived ▸ forest

theorem addPermutation {made : Materials × Library} (forest : Forest library.derived)
    (ran : library.addPermutation key = .ok made) : Forest made.2.derived := by
  obtain ⟨described, _, ran⟩ := bind_eq_ok.mp ran
  cases described with
  | none =>
    cases ran
    exact forest
  | some description =>
    cases ran
    exact forest.addResources _ _ _

theorem cacheShaders {ready : Bool} (forest : Forest library.derived)
    (ran : library.cacheShaders target = .ok (ready, next)) : Forest next.derived := by
  obtain ⟨system, _, rfl⟩ := cacheShaders_kept (motive := fun _ => True)
    (fun _ _ => trivial) trivial ran
  exact forest

theorem syncPermutation {needed : Bool} (forest : Forest library.derived)
    (ran : library.syncPermutation key = .ok (needed, next)) : Forest next.derived := by
  cases synced ran with
  | missing | refreshed | spared => exact forest
  | equipped _ _ _ permuted => exact (forest.addPermutation permuted).modify key fun _ => rfl
  | @bereft found _ _ _ =>
    have bare : Forest (library.setResources key (.fill none)).derived :=
      forest.modify key fun _ => rfl
    exact (bare.releaseResources found.resources).modify key fun _ => rfl

theorem batching : Batching fun library => Forest library.derived where
  synced := fun before => before.syncPermutation
  cached := fun before => before.cacheShaders
  recached := fun _ before => before
  reported := fun _ _ before => before

theorem flushIf {wanted : Bool} (forest : Forest library.derived)
    (ran : library.flushIf wanted = .ok next) : Forest next.derived := by
  obtain ⟨renderer, rfl⟩ := flushIf_eq_ok ran
  exact forest

theorem addMaterial {description : Description} (forest : Forest library.derived)
    (ran : library.addMaterial description = .ok (key, next)) : Forest next.derived := by
  obtain ⟨⟨ready, cached⟩, caching, same⟩ := bind_eq_ok.mp ran
  cases same
  have numbered : Forest { library with
      system := library.system.freshProxy.2
      materials := (library.materials.insert
        { description, proxy := library.system.freshProxy.1 }).2 }.derived := forest
  refine cacheShaders ?_ caching
  exact numbered.addResources (.material library.materials.nextKey) description none

theorem removeMaterial (forest : Forest library.derived) (key : SlotKey) :
    Forest (library.removeMaterial key).derived := by
  cases found : library.materials.get? key with
  | none =>
    rw [removeMaterial_of_missing found]
    exact forest
  | some material =>
    rw [removeMaterial_of_found found]
    have without : Forest { library.relieved key with
      materials := library.materials.erase key }.derived := forest
    exact without.releaseResources material.resources

theorem addInstance {result : Except Failure SlotKey} {pending : SlotKey → Prop}
    (forest : Forest library.derived) (sound : Sound pending library)
    (ran : library.addInstance parent overrides = .ok (result, next)) : Forest next.derived := by
  have ungiven (target : Target) (given : library.Given target) :
      target ≠ .derived library.derived.nextKey := by
    rintro rfl
    exact given.ne_nextKey rfl
  have joined {above : ProxyId} (live : library.proxy? parent = some above) :
      Forest (library.enrolled
        { parent, overrides, proxy := library.system.nextProxy }).derived :=
    forest.insert (ungiven parent (sound.given_of_proxy? live)) fun key found known =>
      ungiven _ (sound.rooted key found.parent found.overrides (lineage_of_get? known))
  cases enrolls ran with
  | orphan => exact forest
  | equipped live _ permuted caching =>
    refine cacheShaders ?_ caching
    exact ((joined live).addPermutation permuted).modify _ fun _ => rfl
  | bare live => exact (joined live).modify _ fun _ => rfl

theorem removeInstance (forest : Forest library.derived) (key : SlotKey) :
    Forest (library.removeInstance key).derived := by
  unfold Library.removeInstance
  split
  · exact forest
  · rename_i found there
    have without : Forest { library with derived := library.derived.erase key }.derived :=
      forest.erase key
    exact without.releaseResources found.resources

theorem onParameters (forest : Forest library.derived) (target : Target)
    (change : Table String ParameterValue → Table String ParameterValue) :
    Forest (library.onParameters target change).derived := by
  cases target with
  | material key => exact forest
  | derived key => exact forest.modify key fun _ => rfl

theorem processResults {count : Nat} (forest : Forest library.derived)
    (ran : library.processResults = .ok (count, next)) : Forest next.derived :=
  processResults_kept (motive := fun library => Forest library.derived)
    (fun _ before completed => by
      obtain ⟨system, _, rfl⟩ := completeAll_kept (motive := fun _ => True)
        (fun _ _ => trivial) trivial completed
      exact before) forest ran

theorem gathers {targets : List Target} (forest : Forest library.derived)
    (gathers : Gathers library targets next) : Forest next.derived := by
  induction gathers with
  | begin => exact forest
  | beside _ _ _ inductionHypothesis => exact inductionHypothesis
  | add _ _ inductionHypothesis => exact inductionHypothesis
  | edit _ ran inductionHypothesis =>
    obtain ⟨material, _, rfl⟩ := replaceDescription_cases ran
    exact inductionHypothesis

end Forest

theorem Reached.forest (reached : Reached library) : Forest library.derived := by
  induction reached with
  | start system => exact .empty
  | beside _ _ _ inductionHypothesis => exact inductionHypothesis
  | addMaterial _ ran inductionHypothesis => exact inductionHypothesis.addMaterial ran
  | setDefaultMaterial _ ran inductionHypothesis =>
    obtain ⟨⟨added, after⟩, adding, same⟩ := bind_eq_ok.mp ran
    cases same
    have entered := inductionHypothesis.addMaterial adding
    split <;> exact entered
  | removeMaterial key _ inductionHypothesis => exact inductionHypothesis.removeMaterial key
  | addInstance reached _ ran inductionHypothesis =>
    exact inductionHypothesis.addInstance reached.sound ran
  | removeInstance key _ inductionHypothesis => exact inductionHypothesis.removeInstance key
  | setParameter _ ran inductionHypothesis =>
    obtain ⟨proxy, _, rfl⟩ := setParameter_cases ran
    exact inductionHypothesis.onParameters _ _
  | clearParameter _ ran inductionHypothesis =>
    obtain ⟨proxy, _, rfl⟩ | rfl := clearParameter_cases ran
    · exact inductionHypothesis.onParameters _ _
    · exact inductionHypothesis
  | cacheShaders _ ran inductionHypothesis => exact inductionHypothesis.cacheShaders ran
  | processResults _ ran inductionHypothesis => exact inductionHypothesis.processResults ran
  | @finishAll library next count _ ran inductionHypothesis =>
    have finished : Forest { library with system := { library.system with
      workshop := library.system.workshop.finishAll library.system.heldMaps } }.derived :=
      inductionHypothesis
    exact finished.processResults ran
  | update _ flushed gathers ran inductionHypothesis =>
    have batch := (inductionHypothesis.flushIf flushed).gathers gathers
    rcases Forest.batching.commit batch ran with rfl | ⟨told, after, ran⟩
    · exact batch
    · exact after.flushIf ran

/-! ### Below a target -/

/-- The chain of parents of an instance passes through a target. -/
inductive Below (lineage : Lineage) (target : Target) : SlotKey → Prop where
  | child {key : SlotKey} {overrides : StaticParameters} :
      lineage key = some (target, overrides) → Below lineage target key
  | further {key parent : SlotKey} {overrides : StaticParameters} :
      lineage key = some (.derived parent, overrides) → Below lineage target parent →
      Below lineage target key

/-- Going down from what is below a target leads to nothing but what is below it. -/
theorem descend_sound {steps : Nat} {targets : List Target} {met : List SlotKey}
    (from_ : ∀ other ∈ targets, other = target ∨ ∃ key, other = .derived key ∧
      Below library.lineage target key)
    (known : ∀ key ∈ met, Below library.lineage target key) :
    ∀ key ∈ library.descend steps targets met, Below library.lineage target key := by
  induction steps generalizing targets met with
  | zero => simpa only [descend] using known
  | succ steps inductionHypothesis =>
    cases targets with
    | nil =>
      rw [descend_nil]
      exact known
    | cons parent others =>
      rw [descend]
      have children : ∀ key ∈ (library.derived.toList.filter fun entry =>
          entry.2.parent = parent && entry.1 ∉ met).map Prod.fst,
          Below library.lineage target key := by
        intro key member
        obtain ⟨⟨_, found⟩, entry, rfl⟩ := List.mem_map.mp member
        obtain ⟨entry, chosen⟩ := List.mem_filter.mp entry
        obtain ⟨other, _, entered⟩ := List.mem_filterMap.mp entry
        obtain ⟨value, there, same⟩ := Option.map_eq_some_iff.mp entered
        obtain ⟨rfl, rfl⟩ := Prod.mk.inj same
        have step := lineage_of_get? there
        rw [of_decide_eq_true (Bool.and_eq_true_iff.mp chosen).1] at step
        rcases from_ parent List.mem_cons_self with rfl | ⟨above, rfl, below⟩
        · exact .child step
        · exact .further step below
      refine inductionHypothesis (fun other member => ?_)
        (List.forall_mem_append.mpr ⟨known, children⟩)
      rcases List.mem_append.mp member with new | before
      · obtain ⟨key, inside, rfl⟩ := List.mem_map.mp new
        exact .inr ⟨key, rfl, children key (List.mem_reverse.mp inside)⟩
      · exact from_ other (List.mem_cons_of_mem _ before)

/-- The dependents of a target are the live instances whose chains pass through it. -/
theorem mem_dependents : key ∈ library.dependents target ↔ Below library.lineage target key := by
  unfold dependents sortByDepth
  rw [List.mem_mergeSort]
  constructor
  · exact descend_sound (fun other member => .inl (List.mem_singleton.mp member))
      (fun _ member => absurd member List.not_mem_nil) key
  · have complete := (descend_complete (library.enough_steps target)).2
    intro below
    induction below with
    | child step =>
      obtain ⟨found, there, parent, _⟩ := lineage_eq_some.mp step
      exact complete _ found there (.inl (List.mem_singleton.mpr parent))
    | @further key above overrides step _ inductionHypothesis =>
      obtain ⟨found, there, parent, _⟩ := lineage_eq_some.mp step
      exact complete _ found there
        (.inr ⟨above, parent, List.not_mem_nil, inductionHypothesis⟩)

/-- Those that depend on targets are the ones below some target that are no targets themselves. -/
theorem mem_dependentsOfAll {targets : List Target} : key ∈ library.dependentsOfAll targets ↔
    (∃ target ∈ targets, Below library.lineage target key) ∧ .derived key ∉ targets := by
  unfold dependentsOfAll sortByDepth
  simp only [List.mem_mergeSort, List.mem_filter, List.mem_eraseDups, List.mem_flatMap,
    mem_dependents, decide_eq_true_eq]

/-! ### In order -/

namespace Forest

theorem nodup_toList (forest : Forest derived) : (derived.toList.map Prod.fst).Nodup := by
  have keys : derived.keys.Nodup := (List.mergeSort_perm _ _).nodup_iff.mpr forest.distinct
  unfold Slots.toList
  rw [List.map_filterMap]
  refine keys.filterMap fun first second key one two => ?_
  simp only [Option.map_map, Option.mem_def, Option.map_eq_some_iff, Function.comp] at one two
  obtain ⟨_, _, rfl⟩ := one
  obtain ⟨_, _, rfl⟩ := two
  rfl

theorem nodup_descend (forest : Forest library.derived) {steps : Nat} {targets : List Target}
    {met : List SlotKey} (distinct : met.Nodup) : (library.descend steps targets met).Nodup := by
  induction steps generalizing targets met with
  | zero => simpa only [descend] using distinct
  | succ steps inductionHypothesis =>
    cases targets with
    | nil =>
      rw [descend_nil]
      exact distinct
    | cons parent others =>
      rw [descend]
      refine inductionHypothesis (distinct.append
        (forest.nodup_toList.sublist (List.filter_sublist.map _)) fun key member new => ?_)
      obtain ⟨entry, member', rfl⟩ := List.mem_map.mp new
      have unmet := (Bool.and_eq_true_iff.mp (List.mem_filter.mp member').2).2
      exact of_decide_eq_true unmet member

theorem nodup_sortByDepth {keys : List SlotKey} (distinct : keys.Nodup) :
    (library.sortByDepth keys).Nodup :=
  (List.mergeSort_perm _ _).nodup_iff.mpr distinct

theorem nodup_dependents (forest : Forest library.derived) (target : Target) :
    (library.dependents target).Nodup :=
  nodup_sortByDepth (forest.nodup_descend List.nodup_nil)

theorem nodup_dependentsOfAll (library : Library) (targets : List Target) :
    (library.dependentsOfAll targets).Nodup :=
  nodup_sortByDepth ((nodup_eraseDups _).filter _)

/-- The chain of an instance is one longer than that of its parent. -/
theorem depth_derived (forest : Forest library.derived) {found : MaterialInstance}
    (there : library.derived.get? key = some found) :
    library.depth (.derived key) = library.depth found.parent + 1 := by
  obtain ⟨rank, ranked⟩ := forest.ranked
  have same : library.ancestry (library.derived.size + 1) found.parent =
      library.ancestry library.derived.size found.parent :=
    ancestry_succ ranked [] .nil (List.nil_subset _) (fun _ member => nomatch member)
      (Nat.le_refl _)
  unfold depth chain
  rw [ancestry_derived _ there, same]
  rfl

theorem depth_lt (forest : Forest library.derived) {above : SlotKey}
    (below : Below library.lineage (.derived above) key) :
    library.depth (.derived above) < library.depth (.derived key) := by
  induction below with
  | child step =>
    obtain ⟨found, there, parent, _⟩ := lineage_eq_some.mp step
    rw [forest.depth_derived there, parent]
    exact Nat.lt_succ_self _
  | further step _ inductionHypothesis =>
    obtain ⟨found, there, parent, _⟩ := lineage_eq_some.mp step
    rw [forest.depth_derived there, parent]
    exact Nat.lt_succ_of_lt inductionHypothesis

/-- No instance comes before one that its chain passes through. -/
theorem pairwise_sortByDepth (forest : Forest library.derived) (keys : List SlotKey) :
    (library.sortByDepth keys).Pairwise fun earlier later =>
      ¬Below library.lineage (.derived later) earlier := by
  let shallower (left right : SlotKey) : Bool :=
    library.depth (.derived left) ≤ library.depth (.derived right)
  have sorted : (keys.mergeSort shallower).Pairwise fun left right => shallower left right :=
    List.pairwise_mergeSort
      (fun first second third one two => decide_eq_true
        ((of_decide_eq_true one).trans (of_decide_eq_true two)))
      (fun left right => by simpa [shallower] using Nat.le_total _ _) keys
  refine sorted.imp fun {earlier later} ordered below => ?_
  exact Nat.not_lt_of_le (of_decide_eq_true ordered) (forest.depth_lt below)

end Forest

end Library

end Shading
