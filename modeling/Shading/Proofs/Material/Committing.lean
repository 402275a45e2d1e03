/-
Instances that come and go, and batches that are committed. The key of a new
instance has not been given before, so nobody derives from it, and nobody who
fits stops fitting. An instance that is removed leaves others behind that have
no base material any more.

Bringing one subject of a batch up to date keeps the shape of the library, so
those that derive from an edited material remain the same while the batch is
worked off. Each of them is a target of the batch or depends on one, and so each
of them fits in the end. Setting parameters, taking over finished compiles and
waiting for the renderer do not touch any of this.
-/

import Shading.Material.Update
import Shading.Proofs.Material.Editing

namespace Shading.Library

variable {library next : Library} {pending : SlotKey → Prop} {target parent : Target}
  {key : SlotKey} {overrides : StaticParameters}

/-! ### One instance more -/

theorem lineage_enrolled (library : Library) (entry : MaterialInstance) (other : SlotKey) :
    (library.enrolled entry).lineage other =
      if other = library.derived.nextKey then some (entry.parent, entry.overrides)
      else library.lineage other := by
  show ((library.derived.insert entry).2.get? other).map _ = _
  rw [Slots.get?_insert]
  split <;> rfl

theorem ownResources_enrolled (library : Library) {entry : MaterialInstance}
    (bare : entry.resources = .fill none) (other : Target) :
    (library.enrolled entry).ownResources other =
      if other = .derived library.derived.nextKey then .fill none
      else library.ownResources other := by
  have entries (other : SlotKey) : (library.enrolled entry).derived.get? other =
      if other = library.derived.nextKey then some entry else library.derived.get? other :=
    Slots.get?_insert ..
  have materials : (library.enrolled entry).materials = library.materials := rfl
  exact ownResources_of_derived materials entries bare other

namespace Sound

/-! ### One instance more or less -/

/-- What can be followed after one instance came in or went could be followed before. -/
theorem derives_before {step? : Option (Target × StaticParameters)} {stack : List StaticParameters}
    {base : SlotKey} (sound : Sound pending library)
    (lineage : ∀ other, next.lineage other = if other = key then step? else library.lineage other)
    (fresh : step?.isSome → ¬ library.derived.Given key)
    (derives : next.lineage.Derives target stack base) (given : library.Given target) :
    library.lineage.Derives target stack base := by
  induction derives with
  | material base => exact .material base
  | derived step _ inductionHypothesis =>
    rw [lineage] at step
    split at step
    · rename_i same
      exact absurd (same ▸ given) (fresh (by rw [step]; rfl))
    · exact .derived step (inductionHypothesis (sound.rooted _ _ _ step))

/-- One instance comes in or goes. If one comes in its key has not been given before. -/
theorem relineage {step? : Option (Target × StaticParameters)} (sound : Sound pending library)
    (touches : Touches (.derived key) library next)
    (lineage : ∀ other, next.lineage other = if other = key then step? else library.lineage other)
    (descriptions : next.descriptionOf = library.descriptionOf)
    (materials : library.materials.SameKeys next.materials) (derived : next.derived.Orderly)
    (given : ∀ other, library.derived.Given other → next.derived.Given other)
    (bare : next.ownResources (.derived key) = .fill none)
    (rooted : ∀ parent overrides, step? = some (parent, overrides) →
      library.Given parent ∧ overrides.Sorted ∧ ¬ library.derived.Given key) :
    Sound (fun other => pending other ∨ other = key) next := by
  have carried {target : Target} (before : library.Given target) : next.Given target := by
    cases target with
    | material root => exact materials.given before
    | derived above => exact given above before
  have steps {other : SlotKey} {parent : Target} {overrides : StaticParameters}
      (step : next.lineage other = some (parent, overrides)) :
      library.Given parent ∧ overrides.Sorted := by
    rw [lineage] at step
    split at step
    · exact ⟨(rooted parent overrides step).1, (rooted parent overrides step).2.1⟩
    · exact ⟨sound.rooted other parent overrides step, sound.sorted other parent overrides step⟩
  refine ⟨materials.orderly sound.materials, derived,
    fun other parent overrides step => carried (steps step).1,
    fun other parent overrides step => (steps step).2, touches.allotted sound.allotted,
    fun other description described => ?_, fun other live => ?_, fun other free => ?_⟩
  · rw [descriptions] at described
    exact touches.supplies (fun same => nomatch same) (sound.supplied other description described)
  · by_cases here : other = key
    · exact .inl (here ▸ bare)
    · rw [lineage, if_neg here] at live
      have different : Target.derived other ≠ .derived key := fun same =>
        here (Target.derived.inj same)
      rcases sound.stocked other live with nothing | supplies
      · rw [touches.others _ different]
        exact .inl nothing
      · exact .inr (touches.supplies different supplies)
  · have away : other ≠ key := fun same => free (.inr same)
    intro parent overrides rest base description step derives described
    rw [lineage, if_neg away] at step
    rw [descriptions] at described
    have before := sound.derives_before lineage (fun there => by
      obtain ⟨⟨parent, overrides⟩, is⟩ := Option.isSome_iff_exists.mp there
      exact (rooted parent overrides is).2.2) derives (sound.rooted other parent overrides step)
    have different : Target.derived other ≠ .derived key := fun same =>
      away (Target.derived.inj same)
    rcases sound.fits other (fun held => free (.inl held)) parent overrides rest base description
      step before described with owns | borrows
    · exact .inl (touches.supplies different owns)
    · rw [touches.others _ different]
      exact .inr borrows

/-! ### Coming -/

theorem given_of_proxy? {proxy : ProxyId} (sound : Sound pending library)
    (there : library.proxy? target = some proxy) : library.Given target := by
  cases target with
  | material root =>
    obtain ⟨material, live, _⟩ := Option.map_eq_some_iff.mp there
    exact sound.materials.given (by rw [live]; rfl)
  | derived above =>
    obtain ⟨found, live, _⟩ := Option.map_eq_some_iff.mp there
    exact sound.derived.given (by rw [live]; rfl)

/-- An instance that has no resources yet comes in. -/
theorem enrolled {entry : MaterialInstance} (sound : Sound pending library)
    (given : library.Given entry.parent) (sorted : entry.overrides.Sorted)
    (bare : entry.resources = .fill none) :
    Sound (fun other => pending other ∨ other = library.derived.nextKey)
      (library.enrolled entry) := by
  have own := ownResources_enrolled library bare
  have none_own : (library.enrolled entry).ownResources (.derived library.derived.nextKey) =
      .fill none := by
    rw [own, if_pos rfl]
  have touches : Touches (.derived library.derived.nextKey) library (library.enrolled entry) := by
    refine ⟨rfl, Nat.le_refl _, fun other different => by rw [own, if_neg different],
      fun _ _ _ _ => rfl, fun id ⟨tier, has⟩ => ?_⟩
    rw [none_own, PerTier.get_fill] at has
    cases has
  refine sound.relineage touches (lineage_enrolled library entry) rfl (.refl _)
    (sound.derived.insert entry) (fun _ before => before.insert entry) none_own fun _ _ is => ?_
  cases is
  exact ⟨given, sorted, fun given => given.ne_nextKey rfl⟩

theorem addInstance {result : Except Failure SlotKey} (sound : Sound pending library)
    (sorted : overrides.Sorted)
    (ran : library.addInstance parent overrides = .ok (result, next)) : Sound pending next := by
  let entry : MaterialInstance := { parent, overrides, proxy := library.system.nextProxy }
  let added := library.enrolled entry
  let key := library.derived.nextKey
  have fresh : ¬ library.derived.Given library.derived.nextKey := fun given => given.ne_nextKey rfl
  have here : added.derived.get? key = some entry := (Slots.get?_insert ..).trans (if_pos rfl)
  have lineage := lineage_enrolled library entry
  have joined (given : library.Given parent) :
      Sound (fun other => pending other ∨ other = key) added := sound.enrolled given sorted rfl
  have settled {last : Library} (given : library.Given parent) (updates : Updates key added last) :
      Sound pending last :=
    ((joined given).update updates).weaken fun other free held =>
      absurd held fun ⟨either, different⟩ => either.elim free different
  cases enrolls ran with
  | orphan => exact sound
  | equipped live asked permuted caching =>
    have given := sound.given_of_proxy? live
    obtain ⟨rest, base, material, derives, alive⟩ := needed_cases asked
    have derives : added.lineage.Derives entry.parent rest base := derives.mono
      fun other step before => by
        rw [lineage, if_neg fun same => ?_]
        · exact before
        · exact fresh (same ▸ sound.given_of_lineage before)
    have updates := updates_addPermutation (joined given).allotted here derives alive permuted
    exact (Sound.cacheShaders (settled given (updates.enqueue _)) caching).1
  | bare live asked =>
    have given := sound.given_of_proxy? live
    suffices updates : Updates key added (added.setResources key (.fill none)) from
      settled given (updates.enqueue _)
    have shape := setResources_shape added key (.fill none)
    have nothing : (added.setResources key (.fill none)).ownResources (.derived key) =
        .fill none := by
      rw [ownResources_setResources here, if_pos rfl]
    refine ⟨shape, touches_setResources here rfl rfl rfl (Nat.le_refl _) (fun _ _ _ _ => rfl)
      (fun tier id has => ?_), .inl nothing, ?_⟩
    · rw [PerTier.get_fill] at has
      cases has
    · intro parent' overrides' rest base description step derives described
      rw [shape.lineage] at step derives
      cases (lineage_of_get? here).symm.trans step
      exact .inr ⟨nothing, changeless_of_unneeded asked
        (sound.derives_before lineage (fun _ => fresh) derives given) described⟩

/-! ### Going -/

theorem removeInstance (sound : Sound pending library) (key : SlotKey) :
    Sound pending (library.removeInstance key) := by
  unfold Library.removeInstance
  split
  · exact sound
  · rename_i found there
    refine Sound.enqueue ?_ _
    have drops := releaseResources_drops { library with derived := library.derived.erase key }
      found.resources
    generalize Library.releaseResources _ _ = next at drops
    have derived : next.derived = library.derived.erase key := drops.derived
    have entries (other : SlotKey) : next.derived.get? other =
        if other = key then none else library.derived.get? other := by
      rw [derived, Slots.get?_erase]
    have materials : next.materials = library.materials := drops.materials
    have own (other : Target) : next.ownResources other =
        if other = .derived key then .fill none else library.ownResources other :=
      ownResources_of_derived materials entries rfl other
    have lineage (other : SlotKey) : next.lineage other =
        if other = key then none else library.lineage other := by
      unfold Library.lineage
      rw [entries]
      split <;> rfl
    have left : Sound (fun other => pending other ∨ other = key) next :=
      sound.relineage (touches_dropped sound.allotted (ownResources_derived there) drops rfl own)
        lineage (by unfold descriptionOf; rw [drops.materials]) (drops.materials ▸ .refl _)
        (derived ▸ sound.derived.erase key) (fun other before => derived ▸ before.erase key)
        (by rw [own, if_pos rfl]) fun _ _ is => nomatch is
    refine left.weaken fun other free held parent overrides rest base description step => ?_
    rw [lineage, if_pos (held.resolve_left free)] at step
    cases step

end Sound

end Shading.Library

namespace Shading.Library

variable {library next : Library} {pending : SlotKey → Prop} {target : Target} {key : SlotKey}
  {targets : List Target}

namespace Sound

/-! ### Parameters and results -/

theorem onParameters (sound : Sound pending library) (target : Target)
    (change : Table String ParameterValue → Table String ParameterValue) :
    Sound pending (library.onParameters target change) := by
  have shape : SameShape library (library.onParameters target change) := by
    cases target with
    | material key => exact .modifyMaterial library key fun _ => rfl
    | derived key => exact .modifyDerived library key (fun _ => rfl) fun _ => rfl
  have own : (library.onParameters target change).ownResources = library.ownResources := by
    funext other
    cases target with
    | material key =>
      cases other with
      | derived other => rfl
      | material other =>
        show ((Slots.get? (library.materials.modify key _) other).map Material.resources).getD _ = _
        rw [Slots.get?_modify]
        split
        · rename_i same
          rw [same, Option.map_map]
          rfl
        · rfl
    | derived key =>
      cases other with
      | material other => rfl
      | derived other =>
        show ((Slots.get? (library.derived.modify key _) other).map
          MaterialInstance.resources).getD _ = _
        rw [Slots.get?_modify]
        split
        · rename_i same
          rw [same, Option.map_map]
          rfl
        · rfl
  have system : (library.onParameters target change).system = library.system := by
    cases target <;> rfl
  exact sound.congr shape own (by rw [system]) (by rw [system]) fun _ _ _ => by rw [system]

theorem setParameter {name : String} {value : ParameterValue} (sound : Sound pending library)
    (ran : library.setParameter target name value = .ok next) : Sound pending next := by
  obtain ⟨proxy, _, rfl⟩ := setParameter_cases ran
  exact (sound.onParameters target _).enqueue _

theorem clearParameter {name : String} (sound : Sound pending library)
    (ran : library.clearParameter target name = .ok next) : Sound pending next := by
  obtain ⟨proxy, _, rfl⟩ | rfl := clearParameter_cases ran
  · exact (sound.onParameters target _).enqueue _
  · exact sound

theorem setDefaultMaterial {description : Description} (sound : Sound pending library)
    (ran : library.setDefaultMaterial description = .ok (key, next)) : Sound pending next := by
  obtain ⟨⟨added, after⟩, adding, ran⟩ := bind_eq_ok.mp ran
  cases ran
  have before := sound.addMaterial adding
  split
  · exact (before.enqueue _).congr (.of_slots rfl rfl) (ownResources_of_slots rfl rfl) rfl
      (Nat.le_refl _) fun _ _ _ => rfl
  · exact before.congr (.of_slots rfl rfl) (ownResources_of_slots rfl rfl) rfl
      (Nat.le_refl _) fun _ _ _ => rfl

theorem completeAll {finished : FinishedCompile} {count : Nat} (sound : Sound pending library)
    (ran : library.completeAll finished = .ok (count, next)) : Sound pending next := by
  obtain ⟨system, steady, rfl⟩ := completeAll_kept (motive := System.Steady library.system)
    (fun before completed => before.trans (.complete completed)) (.refl _) ran
  exact sound.onSystem steady

theorem processResults {count : Nat} (sound : Sound pending library)
    (ran : library.processResults = .ok (count, next)) : Sound pending next :=
  processResults_kept (fun _ before completed => before.completeAll completed)
    (sound.onSystem (.of_resources rfl rfl rfl rfl)) ran

theorem finishAll {count : Nat} (sound : Sound pending library)
    (ran : library.finishAll = .ok (count, next)) : Sound pending next := by
  let system : System := { library.system with
    workshop := library.system.workshop.finishAll library.system.heldMaps }
  have finished : Sound pending { library with system } :=
    sound.onSystem (.of_resources rfl rfl rfl rfl)
  exact finished.processResults ran

theorem flushIf {wanted : Bool} (sound : Sound pending library)
    (ran : library.flushIf wanted = .ok next) : Sound pending next := by
  obtain ⟨renderer, rfl⟩ := flushIf_eq_ok ran
  exact sound.onSystem (.of_resources rfl rfl rfl rfl)

/-! ### Batches -/

/-- Subjects are looked at one after another. Each takes those it is about off those that may
not fit. -/
theorem updateEach {α : Type} {update : Library → α → Except Fault (Updated × Library)}
    (about : α → SlotKey → Prop)
    (each : ∀ pending subject library updated next, Sound pending library →
      update library subject = .ok (updated, next) →
      Sound (fun other => pending other ∧ ¬ about subject other) next ∧ SameShape library next)
    {subjects : List α} {updated : Updated} (sound : Sound pending library)
    (ran : library.updateEach update subjects = .ok (updated, next)) :
    Sound (fun other => pending other ∧ ∀ subject ∈ subjects, ¬ about subject other) next ∧
      SameShape library next := by
  have all := foldlM_invariant
    (motive := fun left state => SameShape library state.2 ∧ ∃ waiting, Sound waiting state.2 ∧
      ∀ other, waiting other → pending other ∧
        ∀ subject ∈ subjects, subject ∈ left ∨ ¬ about subject other)
    (fun subject rest state after before stepped => by
      obtain ⟨shape, waiting, holds, fewer⟩ := before
      obtain ⟨⟨more, later⟩, ran, stepped⟩ := bind_eq_ok.mp stepped
      cases stepped
      obtain ⟨holds, same⟩ := each waiting subject state.2 more later holds ran
      refine ⟨shape.trans same, _, holds, fun other ⟨held, away⟩ => ?_⟩
      obtain ⟨before, covered⟩ := fewer other held
      refine ⟨before, fun one member => ?_⟩
      rcases covered one member with later | past
      · rcases List.mem_cons.mp later with rfl | later
        · exact .inr away
        · exact .inl later
      · exact .inr past)
    subjects ([], library) (updated, next)
    ⟨.of_slots rfl rfl, pending, sound, fun other held => ⟨held, fun _ => .inl⟩⟩ ran
  obtain ⟨shape, waiting, holds, fewer⟩ := all
  refine ⟨holds.weaken fun other free held => absurd ?_ free, shape⟩
  obtain ⟨before, covered⟩ := fewer other held
  exact ⟨before, fun subject member => (covered subject member).resolve_left List.not_mem_nil⟩

theorem updateTarget {updated : Updated} (sound : Sound pending library)
    (ran : library.updateTarget target = .ok (updated, next)) :
    Sound (fun other => pending other ∧ target ≠ .derived other) next ∧
      SameShape library next := by
  obtain ⟨middle, ready, caching, _, ⟨⟨root, rfl⟩, rfl⟩ | ⟨key, needed, rfl, syncing⟩⟩ :=
    updateTarget_cases ran
  · obtain ⟨holds, shape⟩ := sound.cacheShaders caching
    exact ⟨holds.weaken fun other free held => absurd ⟨held, fun same => nomatch same⟩ free, shape⟩
  · have updates := sound.updates_syncPermutation syncing
    obtain ⟨holds, shape⟩ := (sound.update updates).cacheShaders caching
    refine ⟨holds.weaken fun other free held => absurd ⟨held.1, fun same => ?_⟩ free,
      updates.shape.trans shape⟩
    exact held.2 (Target.derived.inj same).symm

theorem updateDependent {updated : Updated} (sound : Sound pending library)
    (ran : library.updateDependent key = .ok (updated, next)) :
    Sound (fun other => pending other ∧ key ≠ other) next ∧ SameShape library next := by
  obtain ⟨needed, synced, middle, syncing, cached, told⟩ := updateDependent_cases ran
  have updates := sound.updates_syncPermutation syncing
  have looked : Sound (fun other => pending other ∧ key ≠ other) synced :=
    (sound.update updates).weaken fun other free held =>
      absurd ⟨held.1, Ne.symm held.2⟩ free
  have after : Sound (fun other => pending other ∧ key ≠ other) middle ∧
      SameShape library middle := by
    obtain ⟨_, ⟨ready, caching⟩, _⟩ | ⟨_, rfl, _⟩ := cached
    · obtain ⟨holds, same⟩ := looked.cacheShaders caching
      exact ⟨holds, updates.shape.trans same⟩
    · exact ⟨looked, updates.shape⟩
  obtain rfl | ⟨proxy, rfl⟩ := told
  · exact after
  · exact ⟨after.1.enqueue _, after.2.trans (.of_slots rfl rfl)⟩

/-- A batch that holds all edited materials leaves nobody behind who does not fit. -/
theorem commit {options : UpdateOptions} (sound : Sound pending library)
    (covered : ∀ key, pending key → ∃ base stack, .material base ∈ targets ∧
      library.lineage.Derives (.derived key) stack base)
    (ran : library.commit options targets = .ok next) : Sound (fun _ => False) next := by
  unfold Library.commit at ran
  split at ran
  · rename_i nothing
    cases ran
    refine sound.weaken fun key _ held => ?_
    obtain ⟨base, stack, member, _⟩ := covered key held
    rw [nothing] at member
    cases member
  · obtain ⟨⟨first, middle⟩, targeted, ran⟩ := bind_eq_ok.mp ran
    obtain ⟨⟨second, last⟩, followed, ran⟩ := bind_eq_ok.mp ran
    obtain ⟨holds, shape⟩ := sound.updateEach (fun target other => target = .derived other)
      (fun _ _ _ _ _ before => before.updateTarget) targeted
    obtain ⟨holds, _⟩ := holds.updateEach (fun key other => key = other)
      (fun _ _ _ _ _ before => before.updateDependent) followed
    refine Sound.flushIf (Sound.enqueue ?_ _) ran
    refine holds.weaken fun key _ ⟨⟨held, untargeted⟩, unmet⟩ => ?_
    obtain ⟨base, stack, member, derives⟩ := covered key held
    have apart : Target.derived key ∉ targets := fun member => untargeted _ member rfl
    refine absurd rfl (unmet key ?_)
    -- The shape is kept, so whoever is found now derives from the material as before.
    rw [← shape.lineage] at derives
    unfold dependentsOfAll sortByDepth
    rw [List.mem_mergeSort, List.mem_filter, List.mem_eraseDups, List.mem_flatMap]
    exact ⟨⟨_, member, mem_dependents_of_derives derives⟩, decide_eq_true apart⟩

end Sound

end Shading.Library
