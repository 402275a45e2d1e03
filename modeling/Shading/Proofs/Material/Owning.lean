/-
Who has resources of their own after a batch. Each instance that a batch is about
is asked once whether it needs them. Whether it does depends on nothing that the
batch changes, except that an instance which changes nothing itself goes by what
its parent has by then. So an instance goes wrong just if it is asked before such
a parent and the parent then changes its mind, and if none does it does not matter
in which order the targets came.
-/

import Mathlib
import Shading.Proofs.Compile.Regular
import Shading.Proofs.Material.Descending

namespace Shading

namespace Library

variable {library middle next : Library} {target parent : Target} {key : SlotKey}
  {overrides : StaticParameters} {needed : Bool} {pending : SlotKey → Prop}
  {targets : List Target}

/-! ### Whether resources are needed -/

theorem hasPermutation_derived (library : Library) (key : SlotKey) :
    library.hasPermutation (.derived key) =
      (library.ownResources (.derived key)).toList.any Option.isSome := by
  cases there : library.derived.get? key <;>
    simp [hasPermutation, ownResources, there, MaterialInstance.hasPermutation, PerTier.toList,
      PerTier.fill]

theorem ownResources_of_missing (missing : library.lineage key = none) :
    library.ownResources (.derived key) = .fill none := by
  simp [ownResources, Option.map_eq_none_iff.mp missing]

theorem hasPermutation_of_missing (missing : library.lineage key = none) :
    library.hasPermutation (.derived key) = false := by
  rw [hasPermutation_derived, ownResources_of_missing missing]
  rfl

theorem needsPermutation_eq_ok : library.needsPermutation parent overrides = .ok needed ↔
    (needed = false ∧ ∀ stack base, ¬ library.lineage.Derives parent stack base) ∨
      ∃ rest base description, library.lineage.Derives parent rest base ∧
        library.descriptionOf base = some description ∧
        (needed = true ↔ ¬ Changeless description rest overrides ∨
          library.hasPermutation parent = true) := by
  have answer {rest : List StaticParameters} {base : SlotKey} {description : Description}
      (derives : library.lineage.Derives parent rest base)
      (asked : library.baseDescription parent = .ok (some description)) :
      library.needsPermutation parent overrides = .ok needed ↔
        (needed = true ↔ ¬ Changeless description rest overrides ∨
          library.hasPermutation parent = true) := by
    unfold needsPermutation Changeless
    rw [asked, effectiveOverrides_of_derives derives]
    show Except.ok _ = _ ↔ _
    rw [Except.ok.injEq, eq_comm, Bool.eq_iff_iff, Bool.or_eq_true, decide_eq_true_eq, ne_comm]
  constructor
  · intro ran
    obtain ⟨description?, asked, rest⟩ := bind_eq_ok.mp ran
    rcases baseDescription_cases asked with ⟨rfl, nowhere⟩ |
      ⟨stack, base, material, derives, there, rfl⟩
    · cases rest
      exact .inl ⟨rfl, nowhere⟩
    · exact .inr ⟨stack, base, _, derives, descriptionOf_eq_some.mpr ⟨material, there, rfl⟩,
        (answer derives asked).mp ran⟩
  · rintro (⟨rfl, nowhere⟩ | ⟨rest, base, description, derives, described, same⟩)
    · have rootless : library.baseMaterial parent = none := by
        by_contra rooted
        obtain ⟨base, is⟩ := Option.ne_none_iff_exists'.mp rooted
        obtain ⟨stack, derives⟩ := baseMaterial_eq_some.mp is
        exact nowhere stack base derives
      unfold needsPermutation baseDescription
      rw [rootless]
      rfl
    · obtain ⟨material, there, rfl⟩ := descriptionOf_eq_some.mp described
      exact (answer derives (baseDescription_of_derives derives there)).mpr same

/-- Overrides change nothing on top of a parent, so that an instance with them needs resources of
its own just if the parent has some. -/
def Follows (library : Library) (parent : Target) (overrides : StaticParameters) : Prop :=
  ∃ rest base description, library.lineage.Derives parent rest base ∧
    library.descriptionOf base = some description ∧ Changeless description rest overrides

/-- Where targets and descriptions have stayed the same, the answer is another one only for those
who go by what their parents have. -/
theorem SameShape.needsPermutation (shape : SameShape library next)
    (asked : library.needsPermutation parent overrides = .ok needed) :
    ∃ answer, next.needsPermutation parent overrides = .ok answer ∧
      (needed = answer ↔ ¬ (next.Follows parent overrides ∧
        library.hasPermutation parent ≠ next.hasPermutation parent)) := by
  rcases needsPermutation_eq_ok.mp asked with ⟨rfl, nowhere⟩ |
    ⟨rest, base, description, derives, described, same⟩
  · refine ⟨false, needsPermutation_eq_ok.mpr (.inl ⟨rfl, shape.lineage ▸ nowhere⟩),
      iff_of_true rfl ?_⟩
    rintro ⟨⟨rest, base, _, derives, _⟩, _⟩
    exact nowhere rest base (shape.lineage ▸ derives)
  · rw [← shape.lineage] at derives
    rw [← shape.descriptions] at described
    have follows : next.Follows parent overrides ↔ Changeless description rest overrides := by
      refine ⟨fun ⟨rest', base', description', derives', described', same⟩ => ?_,
        fun same => ⟨rest, base, description, derives, described, same⟩⟩
      obtain ⟨rfl, rfl⟩ := derives.unique derives'
      cases described.symm.trans described'
      exact same
    classical
    refine ⟨decide (¬ Changeless description rest overrides ∨ next.hasPermutation parent = true),
      needsPermutation_eq_ok.mpr (.inr ⟨rest, base, description, derives, described,
        decide_eq_true_iff⟩), ?_⟩
    rw [Bool.eq_iff_iff, same, decide_eq_true_iff, follows]
    by_cases changeless : Changeless description rest overrides
    · cases library.hasPermutation parent <;> cases next.hasPermutation parent <;>
        simp [changeless]
    · simp [changeless]

theorem SameShape.symm (shape : SameShape library next) : SameShape next library := by
  obtain ⟨lineage, descriptions, materials, derived⟩ := shape
  exact ⟨lineage.symm, descriptions.symm,
    ⟨fun key => (materials.taken key).symm, materials.count.symm, materials.vacant.symm⟩,
    ⟨fun key => (derived.taken key).symm, derived.count.symm, derived.vacant.symm⟩⟩

/-! ### Being asked -/

/-- A target has been looked at. If it is an instance it was asked whether it needs resources of
its own and has them just if it does; nobody else has been given or lost any. -/
structure Decides (target : Target) (library next : Library) : Prop where
  shape : SameShape library next
  settings : next.system.settings = library.system.settings
  others : ∀ other, other ≠ target → next.hasPermutation other = library.hasPermutation other
  decided : ∀ key parent overrides, target = .derived key →
    library.lineage key = some (parent, overrides) →
    ∃ needed, library.needsPermutation parent overrides = .ok needed ∧
      (library.system.settings.activeTiers ≠ [] → next.hasPermutation target = needed)

namespace Decides

/-- Nothing happens to a material. -/
theorem material (key : SlotKey) (library : Library) : Decides (.material key) library library :=
  ⟨.of_slots rfl rfl, rfl, fun _ _ => rfl, fun _ _ _ same => nomatch same⟩

/-- What is not about targets and settings can happen afterwards. -/
theorem before (decides : Decides target library middle)
    (materials : next.materials = middle.materials) (derived : next.derived = middle.derived)
    (settings : next.system.settings = middle.system.settings) : Decides target library next := by
  have same : next.hasPermutation = middle.hasPermutation := by
    funext other
    unfold hasPermutation
    rw [derived]
  exact ⟨decides.shape.trans (.of_slots materials derived), settings.trans decides.settings,
    fun other different => same ▸ decides.others other different, same ▸ decides.decided⟩

theorem cacheShaders {other : Target} {ready : Bool} (decides : Decides target library middle)
    (ran : middle.cacheShaders other = .ok (ready, next)) : Decides target library next := by
  obtain ⟨system, steady, rfl⟩ := cacheShaders_kept (motive := System.Steady middle.system)
    (fun before cached => before.trans (.cacheShaders cached)) (.refl _) ran
  exact decides.before rfl rfl steady.settings

theorem enqueue (decides : Decides target library next) (command : RenderCommand) :
    Decides target library (next.enqueue command) := decides.before rfl rfl rfl

end Decides

/-- Resources that were made for an instance are there if any tier is active. -/
theorem any_of_makes {description : Description} {stack? : Option StaticParameters}
    {made : Materials × Library}
    (makes : Makes library library.system.settings.activeTiers description stack? made)
    (tiers : library.system.settings.activeTiers ≠ []) :
    made.1.toList.any Option.isSome = true := by
  obtain ⟨tier, active⟩ := List.exists_mem_of_ne_nil _ tiers
  obtain ⟨id, _, has, _⟩ := makes.supplied tier active
  exact List.any_eq_true.mpr ⟨_, PerTier.mem_toList.mpr ⟨tier, has⟩, rfl⟩

theorem hasPermutation_setResources {found : MaterialInstance}
    (there : library.derived.get? key = some found) (resources : Materials) :
    (library.setResources key resources).hasPermutation (.derived key) =
      resources.toList.any Option.isSome := by
  rw [hasPermutation_derived, ownResources_setResources there, if_pos rfl]

/-- The library after an instance has given up its resources. -/
def bereaved (library : Library) (key : SlotKey) (resources : Materials) : Library :=
  ((library.setResources key (.fill none)).releaseResources resources).setResources key (.fill none)

theorem ownResources_bereaved {found : MaterialInstance}
    (there : library.derived.get? key = some found) (resources : Materials) :
    (library.bereaved key resources).ownResources (.derived key) = .fill none := by
  have live : (((library.setResources key (.fill none)).releaseResources
      resources).derived.get? key).isSome := by
    rw [(releaseResources_drops _ _).derived]
    show ((library.derived.modify key _).get? key).isSome
    rw [Slots.get?_modify, if_pos rfl, there]
    rfl
  obtain ⟨left, here⟩ := Option.isSome_iff_exists.mp live
  unfold bereaved
  rw [ownResources_setResources here, if_pos rfl]

/-- An instance that does not need resources of its own has none. -/
theorem ownResources_of_unneeded (ran : library.syncPermutation key = .ok (false, next)) :
    next.ownResources (.derived key) = .fill none := by
  cases synced ran with
  | missing gone => exact ownResources_of_missing (Option.map_eq_none_iff.mpr gone)
  | @bereft found there _ _ => exact ownResources_bereaved there found.resources
  | spared there bare _ => exact (ownResources_derived there).trans (eq_fill_none bare)

theorem Sound.decides_syncPermutation (sound : Sound pending library)
    (ran : library.syncPermutation key = .ok (needed, next)) :
    Decides (.derived key) library next := by
  have updates := sound.updates_syncPermutation ran
  refine ⟨updates.shape, updates.touches.settings, fun other different => ?_,
    fun key' parent overrides same step => ?_⟩
  · cases other with
    | material => rfl
    | derived other =>
      rw [hasPermutation_derived, hasPermutation_derived, updates.touches.others _ different]
  · cases same
    obtain ⟨found, there, rfl, rfl⟩ := lineage_eq_some.mp step
    have had : library.hasPermutation (.derived key) = found.hasPermutation := by
      simp [hasPermutation, there]
    cases synced ran with
    | missing gone => cases gone.symm.trans there
    | refreshed there' has asked _ =>
      cases there.symm.trans there'
      exact ⟨true, asked, fun _ => had.trans has⟩
    | equipped there' _ asked permuted =>
      cases there.symm.trans there'
      refine ⟨true, asked, fun tiers => ?_⟩
      obtain ⟨_, _, material, derives, alive⟩ := needed_cases asked
      unfold addPermutation at permuted
      rw [baseDescription_of_derives (.derived step derives) alive] at permuted
      cases permuted
      have makes := library.addResources_makes (.derived key) material.description
        (some (library.effectiveOverrides (.derived key)))
      exact (hasPermutation_setResources (makes.derived ▸ there) _).trans (any_of_makes makes tiers)
    | bereft there' _ asked =>
      cases there.symm.trans there'
      refine ⟨false, asked, fun _ => ?_⟩
      have own := ownResources_bereaved there found.resources
      have nothing := (library.bereaved key found.resources).hasPermutation_derived key
      rw [own] at nothing
      exact nothing
    | spared there' bare asked =>
      cases there.symm.trans there'
      exact ⟨false, asked, fun _ => had.trans bare⟩

theorem Sound.decides_updateTarget {updated : Updated} (sound : Sound pending library)
    (ran : library.updateTarget target = .ok (updated, next)) : Decides target library next := by
  obtain ⟨middle, ready, caching, _, ⟨⟨key, rfl⟩, rfl⟩ | ⟨key, needed, rfl, syncing⟩⟩ :=
    updateTarget_cases ran
  · exact (Decides.material key _).cacheShaders caching
  · exact (sound.decides_syncPermutation syncing).cacheShaders caching

theorem Sound.decides_updateDependent {updated : Updated} (sound : Sound pending library)
    (ran : library.updateDependent key = .ok (updated, next)) :
    Decides (.derived key) library next := by
  obtain ⟨needed, synced, middle, syncing, cached, told⟩ := updateDependent_cases ran
  have decides := sound.decides_syncPermutation syncing
  have after : Decides (.derived key) library middle := by
    obtain ⟨_, ⟨ready, caching⟩, _⟩ | ⟨_, rfl, _⟩ := cached
    · exact decides.cacheShaders caching
    · exact decides
  obtain rfl | ⟨proxy, rfl⟩ := told
  · exact after
  · exact after.enqueue _

/-! ### Being asked in turn -/

/-- Targets have been looked at one after another. -/
inductive Visits : List Target → Library → Library → Prop where
  | done {library : Library} : Visits [] library library
  | step {target : Target} {rest : List Target} {library middle next : Library} :
      Decides target library middle → Visits rest middle next → Visits (target :: rest) library next

/-- What comes after something that is listed once is in the part of the list behind it. -/
theorem mem_of_sublist {α : Type} {first second : α} {before after : List α}
    (distinct : (before ++ first :: after).Nodup)
    (sublist : [first, second].Sublist (before ++ first :: after)) : second ∈ after := by
  induction before with
  | nil =>
    cases sublist with
    | cons _ later =>
      exact absurd (later.subset List.mem_cons_self) (List.nodup_cons.mp distinct).1
    | cons_cons _ rest => exact List.singleton_sublist.mp rest
  | cons entry rest inductionHypothesis =>
    obtain ⟨new, distinct⟩ := List.nodup_cons.mp distinct
    cases sublist with
    | cons _ later => exact inductionHypothesis distinct later
    | cons_cons => exact absurd (List.mem_append_right _ List.mem_cons_self) new

namespace Visits

variable {first second : List Target}

theorem trans (visits : Visits first library middle) (others : Visits second middle next) :
    Visits (first ++ second) library next := by
  induction visits with
  | done => exact others
  | step decides _ inductionHypothesis => exact .step decides (inductionHypothesis others)

/-- What is not about targets and settings can happen after a target has been looked at. -/
theorem before (visits : Visits targets library middle) (some : targets ≠ [])
    (materials : next.materials = middle.materials) (derived : next.derived = middle.derived)
    (settings : next.system.settings = middle.system.settings) : Visits targets library next := by
  induction visits with
  | done => exact absurd rfl some
  | @step _ rest _ _ _ decides visits inductionHypothesis =>
    cases visits with
    | done => exact .step (decides.before materials derived settings) .done
    | step =>
      exact .step decides
        (inductionHypothesis (List.cons_ne_nil _ _) materials derived settings)

theorem split (visits : Visits (first ++ second) library next) :
    ∃ middle, Visits first library middle ∧ Visits second middle next := by
  induction first generalizing library with
  | nil => exact ⟨library, .done, visits⟩
  | cons target rest inductionHypothesis =>
    cases visits with
    | step decides visits =>
      obtain ⟨middle, before, after⟩ := inductionHypothesis visits
      exact ⟨middle, .step decides before, after⟩

theorem shape (visits : Visits targets library next) : SameShape library next := by
  induction visits with
  | done => exact .of_slots rfl rfl
  | step decides _ inductionHypothesis => exact decides.shape.trans inductionHypothesis

theorem settings (visits : Visits targets library next) :
    next.system.settings = library.system.settings := by
  induction visits with
  | done => rfl
  | step decides _ inductionHypothesis => exact inductionHypothesis.trans decides.settings

/-- Whoever is not looked at has what it had. -/
theorem others (visits : Visits targets library next) (away : target ∉ targets) :
    next.hasPermutation target = library.hasPermutation target := by
  induction visits with
  | done => rfl
  | step decides _ inductionHypothesis =>
    obtain ⟨different, later⟩ := not_or.mp (mt List.mem_cons.mpr away)
    exact (inductionHypothesis later).trans (decides.others _ different)

/-- Every instance among those that are looked at gets an answer. -/
theorem answered (visits : Visits targets library next) (member : .derived key ∈ targets)
    (step : next.lineage key = some (parent, overrides)) :
    ∃ needed, next.needsPermutation parent overrides = .ok needed := by
  obtain ⟨before, after, rfl⟩ := List.append_of_mem member
  obtain ⟨middle, _, visits⟩ := visits.split
  cases visits with
  | step decides late =>
    have shape := decides.shape.trans late.shape
    obtain ⟨_, asked, _⟩ := decides.decided key parent overrides rfl (shape.lineage ▸ step)
    obtain ⟨answer, answers, _⟩ := shape.needsPermutation asked
    exact ⟨answer, answers⟩

/-- Where each is looked at once, an instance has resources of its own in the end just if it needs
them then, unless it goes by its parent, was asked before it, and the parent has changed. -/
theorem settled (visits : Visits targets library next) (distinct : targets.Nodup)
    (member : .derived key ∈ targets) (step : next.lineage key = some (parent, overrides))
    (apart : parent ≠ .derived key) (tiers : next.system.settings.activeTiers ≠ []) :
    ∃ needed, next.needsPermutation parent overrides = .ok needed ∧
      (next.hasPermutation (.derived key) = needed ↔
        ¬ ([.derived key, parent].Sublist targets ∧ next.Follows parent overrides ∧
          library.hasPermutation parent ≠ next.hasPermutation parent)) := by
  obtain ⟨before, after, rfl⟩ := List.append_of_mem member
  obtain ⟨middle, early, visits⟩ := visits.split
  cases visits with
  | @step _ _ _ later _ decides late =>
  have shape := decides.shape.trans late.shape
  have away := (List.nodup_cons.mp (List.nodup_middle.mp distinct)).1
  obtain ⟨needed, asked, has⟩ :=
    decides.decided key parent overrides rfl (shape.lineage ▸ step)
  obtain ⟨answer, answers, same⟩ := shape.needsPermutation asked
  refine ⟨answer, answers, ?_⟩
  have kept : next.hasPermutation (.derived key) = needed :=
    (late.others fun later => away (List.mem_append_right _ later)).trans
      (has (by rwa [late.settings, decides.settings] at tiers))
  rw [kept, same, not_iff_not]
  -- The parent is asked afterwards or its answer is there already.
  by_cases follows : parent ∈ after
  · have unasked : parent ∉ before := fun early =>
      List.disjoint_of_nodup_append distinct early (List.mem_cons_of_mem _ follows)
    have sublist : [.derived key, parent].Sublist (before ++ .derived key :: after) :=
      List.sublist_append_of_sublist_right
        (List.Sublist.cons_cons _ (List.singleton_sublist.mpr follows))
    rw [early.others unasked]
    exact (and_iff_right sublist).symm
  · have asked : next.hasPermutation parent = middle.hasPermutation parent :=
      (late.others follows).trans (decides.others parent apart)
    exact iff_of_false (fun changed => changed.2 asked.symm) fun ⟨sublist, _⟩ =>
      follows (mem_of_sublist distinct sublist)

end Visits

theorem Sound.visits_updateEach {α : Type} {update : Library → α → Except Fault (Updated × Library)}
    {subjects : List α} {updated : Updated} (about : α → Target)
    (each : ∀ pending subject library updated next, Sound pending library →
      update library subject = .ok (updated, next) →
      (∃ left, Sound left next) ∧ Decides (about subject) library next)
    (sound : Sound pending library)
    (ran : library.updateEach update subjects = .ok (updated, next)) :
    (∃ left, Sound left next) ∧ Visits (subjects.map about) library next := by
  have all := foldlM_invariant
    (motive := fun left state => (∃ waiting, Sound waiting state.2) ∧ ∃ past,
      subjects.map about = past ++ left.map about ∧ Visits past library state.2)
    (fun subject rest state after ⟨⟨waiting, holds⟩, past, same, visits⟩ stepped => by
      obtain ⟨⟨more, later⟩, ran, stepped⟩ := bind_eq_ok.mp stepped
      cases stepped
      obtain ⟨holds, decides⟩ := each waiting subject state.2 more later holds ran
      refine ⟨holds, past ++ [about subject], ?_, visits.trans (.step decides .done)⟩
      rw [same, List.map_cons, List.append_cons])
    subjects ([], library) (updated, next) ⟨⟨pending, sound⟩, [], rfl, .done⟩ ran
  obtain ⟨holds, past, same, visits⟩ := all
  rw [List.map_nil, List.append_nil] at same
  exact ⟨holds, same ▸ visits⟩

/-- A batch looks at its targets as they were added and then at those that depend on them. -/
theorem Sound.visits_commit {options : UpdateOptions} (sound : Sound pending library)
    (forest : Forest library.derived) (ran : library.commit options targets = .ok next) :
    ∃ middle, SameShape library middle ∧ Forest middle.derived ∧
      Visits (targets ++ (middle.dependentsOfAll targets).map Target.derived) library next := by
  unfold Library.commit at ran
  split at ran
  · rename_i nothing
    cases ran
    exact ⟨library, .of_slots rfl rfl, forest,
      by simpa [nothing, dependentsOfAll, sortByDepth] using .done⟩
  · rename_i some
    obtain ⟨⟨first, middle⟩, targeted, ran⟩ := bind_eq_ok.mp ran
    obtain ⟨⟨second, last⟩, followed, ran⟩ := bind_eq_ok.mp ran
    obtain ⟨⟨waiting, holds⟩, early⟩ := sound.visits_updateEach id
      (fun _ _ _ _ _ before ran =>
        ⟨⟨_, (before.updateTarget ran).1⟩, before.decides_updateTarget ran⟩) targeted
    obtain ⟨_, late⟩ := holds.visits_updateEach Target.derived
      (fun _ _ _ _ _ before ran =>
        ⟨⟨_, (before.updateDependent ran).1⟩, before.decides_updateDependent ran⟩) followed
    rw [List.map_id] at early
    obtain ⟨renderer, rfl⟩ := flushIf_eq_ok ran
    exact ⟨middle, early.shape,
      Batching.updateEach Forest.batching.updateTarget forest targeted,
      (early.trans late).before (List.append_ne_nil_of_left_ne_nil some _) rfl rfl rfl⟩

/-! ### Targets in order -/

theorem Gathers.nodup (gathers : Gathers library targets next) : targets.Nodup := by
  induction gathers with
  | begin => exact List.nodup_nil
  | beside _ _ _ inductionHypothesis => exact inductionHypothesis
  | add target _ inductionHypothesis => exact Manager.nodup_addOnce inductionHypothesis target
  | edit _ _ inductionHypothesis => exact Manager.nodup_addOnce inductionHypothesis _

theorem nodup_order (library : Library) (distinct : targets.Nodup) :
    (targets ++ (library.dependentsOfAll targets).map Target.derived).Nodup := by
  refine distinct.append ((Forest.nodup_dependentsOfAll library targets).map
    fun _ _ same => Target.derived.inj same) fun target member depends => ?_
  obtain ⟨key, inside, rfl⟩ := List.mem_map.mp depends
  exact (mem_dependentsOfAll.mp inside).2 member

/-- A batch is about its targets and the instances below them. -/
inductive Concerned (lineage : Lineage) (targets : List Target) : Target → Prop where
  | target {target : Target} : target ∈ targets → Concerned lineage targets target
  | below {target : Target} {key : SlotKey} : target ∈ targets → Below lineage target key →
      Concerned lineage targets (.derived key)

theorem Concerned.mono {lineage : Lineage} {others : List Target} (within : targets ⊆ others)
    (concerned : Concerned lineage targets target) : Concerned lineage others target := by
  cases concerned with
  | target member => exact .target (within member)
  | below member below => exact .below (within member) below

theorem mem_order : target ∈ targets ++ (library.dependentsOfAll targets).map Target.derived ↔
    Concerned library.lineage targets target := by
  rw [List.mem_append, List.mem_map]
  constructor
  · rintro (member | ⟨key, depends, rfl⟩)
    · exact .target member
    · obtain ⟨⟨above, member, below⟩, _⟩ := mem_dependentsOfAll.mp depends
      exact .below member below
  · intro concerned
    by_cases member : target ∈ targets
    · exact .inl member
    · cases concerned with
      | target member => exact .inl member
      | below above below =>
        exact .inr ⟨_, mem_dependentsOfAll.mpr ⟨⟨_, above, below⟩, member⟩, rfl⟩

/-- A batch looks at an instance before its parent. Both are targets and were added in this order,
or the instance is a target while its parent only depends on one. -/
def Overtakes (lineage : Lineage) (targets : List Target) (key : SlotKey) (parent : Target) :
    Prop :=
  [.derived key, parent].Sublist targets ∨ .derived key ∈ targets ∧ parent ∉ targets ∧
    ∃ above, parent = .derived above ∧ ∃ target ∈ targets, Below lineage target above

/-- Two entries that follow each other in two lists joined are in one of them, or one in each. -/
theorem pair_sublist_append {α : Type} {first second : α} {left right : List α} :
    [first, second].Sublist (left ++ right) ↔ [first, second].Sublist left ∨
      first ∈ left ∧ second ∈ right ∨ [first, second].Sublist right := by
  constructor
  · intro sublist
    obtain ⟨early, late, same, before, after⟩ := List.sublist_append_iff.mp sublist
    match early with
    | [] =>
      obtain rfl : [first, second] = late := by simpa using same
      exact .inr (.inr after)
    | [only] =>
      obtain ⟨rfl, rfl⟩ : first = only ∧ [second] = late := by simpa using same
      exact .inr (.inl ⟨List.singleton_sublist.mp before, List.singleton_sublist.mp after⟩)
    | one :: two :: others =>
      obtain ⟨rfl, rfl, rfl, rfl⟩ : first = one ∧ second = two ∧ others = [] ∧ late = [] := by
        simpa using same
      exact .inl before
  · rintro (sublist | ⟨early, late⟩ | sublist)
    · exact sublist.trans (List.sublist_append_left _ _)
    · exact (List.singleton_sublist.mpr early).append (List.singleton_sublist.mpr late)
    · exact sublist.trans (List.sublist_append_right _ _)

/-- Of those that only depend on targets, none is looked at before its parent. -/
theorem sublist_order (forest : Forest library.derived)
    (step : library.lineage key = some (parent, overrides)) :
    [.derived key, parent].Sublist
        (targets ++ (library.dependentsOfAll targets).map Target.derived) ↔
      Overtakes library.lineage targets key parent := by
  rw [pair_sublist_append, List.mem_map]
  refine or_congr_right ⟨?_, fun ⟨member, untargeted, above, is, below⟩ =>
    .inl ⟨member, above, mem_dependentsOfAll.mpr ⟨below, is ▸ untargeted⟩, is.symm⟩⟩
  rintro (⟨member, above, inside, rfl⟩ | sublist)
  · obtain ⟨below, untargeted⟩ := mem_dependentsOfAll.mp inside
    exact ⟨member, untargeted, above, rfl, below⟩
  · obtain ⟨keys, within, is⟩ := List.sublist_map_iff.mp sublist
    match keys with
    | [first, above] =>
      obtain ⟨rfl, rfl⟩ : key = first ∧ parent = .derived above := by simpa using is
      have apart := List.pairwise_iff_forall_sublist.mp (forest.pairwise_sortByDepth _) within
      exact absurd (.child step) apart

/-! ### Batches -/

/-- An instance that goes by its parent has been looked at before it, and then the parent has
changed. -/
structure Misled (batch : Library) (targets : List Target) (next : Library) (key : SlotKey)
    (parent : Target) (overrides : StaticParameters) : Prop where
  step : next.lineage key = some (parent, overrides)
  overtakes : Overtakes next.lineage targets key parent
  follows : next.Follows parent overrides
  changed : batch.hasPermutation parent ≠ next.hasPermutation parent

/-- Everyone that a batch is about has resources of its own in the end just if it needs them
then, unless it was misled. Nobody else has been given or lost any. -/
structure Settles (batch : Library) (targets : List Target) (next : Library) : Prop where
  shape : SameShape batch next
  settings : next.system.settings = batch.system.settings
  others : ∀ key, ¬ Concerned next.lineage targets (.derived key) →
    next.hasPermutation (.derived key) = batch.hasPermutation (.derived key)
  decided : ∀ key parent overrides, next.lineage key = some (parent, overrides) →
    Concerned next.lineage targets (.derived key) → next.system.settings.activeTiers ≠ [] →
    ∃ needed, next.needsPermutation parent overrides = .ok needed ∧
      (next.hasPermutation (.derived key) = needed ↔
        ¬ Misled batch targets next key parent overrides)

theorem Sound.settles_commit {batch : Library} {options : UpdateOptions}
    (sound : Sound pending batch) (forest : Forest batch.derived) (distinct : targets.Nodup)
    (ran : batch.commit options targets = .ok next) : Settles batch targets next := by
  obtain ⟨middle, same, forest, visits⟩ := sound.visits_commit forest ran
  have lineage : next.lineage = middle.lineage := visits.shape.lineage.trans same.lineage.symm
  refine ⟨visits.shape, visits.settings, fun key away => visits.others fun member => away ?_,
    fun key parent overrides step about tiers => ?_⟩
  · rw [lineage]
    exact mem_order.mp member
  · have apart : parent ≠ .derived key := by
      obtain ⟨rank, ranked⟩ := forest.ranked
      obtain ⟨found, there, rfl, _⟩ := lineage_eq_some.mp (lineage ▸ step)
      intro same
      exact Nat.lt_irrefl _ (same ▸ ranked key found there)
    obtain ⟨needed, needs, iff⟩ := visits.settled (nodup_order middle distinct)
      (mem_order.mpr (lineage ▸ about)) step apart tiers
    refine ⟨needed, needs, iff.trans (not_congr ?_)⟩
    rw [sublist_order forest (lineage ▸ step), ← lineage]
    exact ⟨fun ⟨overtakes, follows, changed⟩ => ⟨step, overtakes, follows, changed⟩,
      fun misled => ⟨misled.overtakes, misled.follows, misled.changed⟩⟩

namespace Settles

variable {batch last : Library} {others : List Target}

/-- Where nobody is misled, who has resources of their own is decided from the roots upwards by
what is there, whatever the order of the targets was. -/
theorem agree (settles : Settles batch targets next) (also : Settles batch others last)
    (forest : Forest batch.derived) (same : targets.Perm others)
    (tiers : next.system.settings.activeTiers ≠ [])
    (one : ∀ key parent overrides, ¬ Misled batch targets next key parent overrides)
    (two : ∀ key parent overrides, ¬ Misled batch others last key parent overrides) :
    next.hasPermutation = last.hasPermutation := by
  have shape : SameShape next last := settles.shape.symm.trans also.shape
  obtain ⟨rank, ranked⟩ := forest.ranked
  funext target
  induction number : rank target using Nat.strong_induction_on generalizing target with
  | _ number inductionHypothesis =>
    cases target with
    | material key => rfl
    | derived key =>
      have concerned : Concerned last.lineage others (.derived key) ↔
          Concerned next.lineage targets (.derived key) := by
        rw [shape.lineage]
        exact ⟨.mono same.symm.subset, .mono same.subset⟩
      by_cases about : Concerned next.lineage targets (.derived key)
      · cases step : next.lineage key with
        | none =>
          rw [hasPermutation_of_missing step, hasPermutation_of_missing (shape.lineage ▸ step)]
        | some entry =>
          obtain ⟨parent, overrides⟩ := entry
          have older : rank parent < rank (.derived key) := by
            obtain ⟨found, there, rfl, _⟩ := lineage_eq_some.mp (settles.shape.lineage ▸ step)
            exact ranked key found there
          obtain ⟨needed, needs, owns⟩ := settles.decided key parent overrides step about tiers
          obtain ⟨wanted, wants, has⟩ := also.decided key parent overrides
            (shape.lineage ▸ step) (concerned.mpr about)
            (by rwa [also.settings, ← settles.settings])
          obtain ⟨answer, answers, agrees⟩ := shape.needsPermutation needs
          have alike := inductionHypothesis _ (number ▸ older) parent rfl
          rw [owns.mpr (one key parent overrides), has.mpr (two key parent overrides),
            agrees.mpr fun ⟨_, differ⟩ => differ alike]
          exact Except.ok.inj (answers.symm.trans wants)
      · rw [settles.others key about, also.others key (mt concerned.mp about)]

end Settles

/-- Those who own resources own one for each active tier. -/
theorem Sound.isSome_ownResources {tier : Tier} (sound : Sound pending library)
    (live : (library.lineage key).isSome) (active : tier ∈ library.system.settings.activeTiers) :
    ((library.ownResources (.derived key)).get tier).isSome =
      library.hasPermutation (.derived key) := by
  rw [hasPermutation_derived]
  rcases sound.stocked key live with nothing | supplies
  · rw [nothing]
    cases tier <;> rfl
  · obtain ⟨id, _, has, _⟩ := supplies tier active
    rw [has]
    exact (List.any_eq_true.mpr ⟨_, PerTier.mem_toList.mpr ⟨tier, has⟩, rfl⟩).symm

/-- After a batch each instance that it is about owns a resource on an active tier just if it
needs resources of its own by then, unless it goes by a parent that was looked at later and has
changed. Where there is no such instance the order of the targets makes no difference. -/
theorem Reached.owns_iff_needed {first batch : Library} {options : UpdateOptions}
    (reached : Reached library) (flushed : library.flushIf options.synchronous = .ok first)
    (gathers : Gathers first targets batch) (ran : batch.commit options targets = .ok next) :
    (∀ key parent overrides tier, next.lineage key = some (parent, overrides) →
      Concerned next.lineage targets (.derived key) → tier ∈ next.system.settings.activeTiers →
      ∃ needed, next.needsPermutation parent overrides = .ok needed ∧
        (((next.ownResources (.derived key)).get tier).isSome = needed ↔
          ¬ Misled batch targets next key parent overrides)) ∧
    ∀ others last, targets.Perm others → batch.commit options others = .ok last →
      (∀ key parent overrides, ¬ Misled batch targets next key parent overrides) →
      (∀ key parent overrides, ¬ Misled batch others last key parent overrides) →
      ∀ key tier, tier ∈ next.system.settings.activeTiers →
        ((next.ownResources (.derived key)).get tier).isSome =
          ((last.ownResources (.derived key)).get tier).isSome := by
  have sound := gathers.sound (reached.sound.flushIf flushed)
  have forest := (reached.forest.flushIf flushed).gathers gathers
  have settles := sound.settles_commit forest gathers.nodup ran
  have after := sound.commit (fun _ held => held) ran
  refine ⟨fun key parent overrides tier step about active => ?_,
    fun others last same also one two key tier active => ?_⟩
  · obtain ⟨needed, needs, owns⟩ := settles.decided key parent overrides step about
      (List.ne_nil_of_mem active)
    refine ⟨needed, needs, ?_⟩
    rw [after.isSome_ownResources (by rw [step]; rfl) active]
    exact owns
  · have settled := sound.settles_commit forest (same.nodup_iff.mp gathers.nodup) also
    have later := sound.commit (fun key ⟨base, stack, member, derives⟩ =>
      ⟨base, stack, same.mem_iff.mp member, derives⟩) also
    have shape : SameShape next last := settles.shape.symm.trans settled.shape
    cases live : next.lineage key with
    | none =>
      rw [ownResources_of_missing live, ownResources_of_missing (shape.lineage ▸ live)]
    | some entry =>
      rw [after.isSome_ownResources (by rw [live]; rfl) active,
        later.isSome_ownResources (by rw [shape.lineage, live]; rfl)
          (by rwa [settled.settings, ← settles.settings]),
        settles.agree settled forest same (List.ne_nil_of_mem active) one two]

/-- A material with a switch that is off, an instance that turns it on, and an instance of that
one which changes nothing. In a batch the material then turns the switch on itself. -/
def nested : Option (Library × Library) :=
  (bare.addMaterial (switched false)).toOption.bind fun added =>
    (added.2.addInstance (.material added.1) (.ofSwitches [("Detail", true)])).toOption.bind
      fun first => first.1.toOption.bind fun above =>
        (first.2.addInstance (.derived above) .empty).toOption.bind fun second =>
          (second.2.replaceDescription added.1 (switched true)).toOption.map fun batch =>
            (second.2, batch)

/-- The material and its two instances as targets of a batch. -/
def nestedTargets (first second : SlotKey) : List Target :=
  [.material ⟨1, 1⟩, .derived first, .derived second]

theorem gathers_nested {batch : Library} (is : nested = some (library, batch)) :
    Reached library ∧ Gathers library [.material ⟨1, 1⟩] batch := by
  obtain ⟨added, adding, is⟩ := Option.bind_eq_some_iff.mp is
  obtain ⟨⟨result, one⟩, joining, is⟩ := Option.bind_eq_some_iff.mp is
  obtain ⟨above, _, is⟩ := Option.bind_eq_some_iff.mp is
  obtain ⟨⟨other, two⟩, following, is⟩ := Option.bind_eq_some_iff.mp is
  obtain ⟨edited, editing, same⟩ := Option.map_eq_some_iff.mp is
  cases same
  have key : added.1 = ⟨1, 1⟩ := by
    have first : (bare.addMaterial (switched false)).toOption.map Prod.fst = some ⟨1, 1⟩ := by cbv
    rw [adding] at first
    exact Option.some.inj first
  rw [key] at editing
  exact ⟨(((Reached.start bare.system).addMaterial (toOption_eq_some.mp adding)).addInstance
    (by decide) (toOption_eq_some.mp joining)).addInstance (by decide)
    (toOption_eq_some.mp following), .edit .begin (toOption_eq_some.mp editing)⟩

theorem gathers_nestedTargets {batch : Library} {first second : SlotKey}
    (is : nested = some (library, batch)) (different : first ≠ second) :
    Gathers library (nestedTargets first second) batch := by
  have gathers := ((gathers_nested is).2.add (.derived first)).add (.derived second)
  simpa [Manager.addOnce, nestedTargets, different.symm] using gathers

/-- What the lower instance is made of, whether it needs resources of its own, and has some. -/
def lower (library : Library) :
    Option (Target × StaticParameters) × Option Bool × Bool × List Tier :=
  (library.lineage ⟨2, 1⟩, (library.needsPermutation (.derived ⟨1, 1⟩) .empty).toOption,
    ((library.ownResources (.derived ⟨2, 1⟩)).get .desktop).isSome,
    library.system.settings.activeTiers)

theorem lower_nested : nested.bind (fun made =>
    (made.2.commit {} (nestedTargets ⟨1, 1⟩ ⟨2, 1⟩)).toOption.bind fun next =>
      (made.2.commit {} (nestedTargets ⟨2, 1⟩ ⟨1, 1⟩)).toOption.map fun last =>
        (next.lower, last.lower)) =
    some ((some (.derived ⟨1, 1⟩, .empty), some false, false, [.desktop]),
      (some (.derived ⟨1, 1⟩, .empty), some false, true, [.desktop])) := by
  cbv

/-- The upper instance does not need its resources any more, and so neither does the lower one if
it is looked at afterwards. -/
theorem nested_owned : ∃ library batch next, Reached library ∧
    Gathers library (nestedTargets ⟨1, 1⟩ ⟨2, 1⟩) batch ∧
    batch.commit {} (nestedTargets ⟨1, 1⟩ ⟨2, 1⟩) = .ok next ∧
    next.needsPermutation (.derived ⟨1, 1⟩) .empty = .ok false ∧
    ((next.ownResources (.derived ⟨2, 1⟩)).get .desktop).isSome = false := by
  obtain ⟨⟨library, batch⟩, made, run⟩ := Option.bind_eq_some_iff.mp lower_nested
  obtain ⟨next, committed, run⟩ := Option.bind_eq_some_iff.mp run
  obtain ⟨_, _, same⟩ := Option.map_eq_some_iff.mp run
  obtain ⟨step, asked, _, active⟩ := by
    simpa only [lower, Prod.mk.injEq] using congrArg Prod.fst same
  have different : (⟨1, 1⟩ : SlotKey) ≠ ⟨2, 1⟩ := by decide
  have reached := (gathers_nested made).1
  have gathers := gathers_nestedTargets made different
  have ran := toOption_eq_some.mp committed
  obtain ⟨needed, needs, owns⟩ := (reached.owns_iff_needed rfl gathers ran).1 ⟨2, 1⟩ _ _ .desktop
    step (.target (by decide)) (active ▸ List.mem_singleton.mpr rfl)
  have unneeded := toOption_eq_some.mp asked
  obtain rfl : needed = false := Except.ok.inj (needs.symm.trans unneeded)
  refine ⟨library, batch, next, reached, gathers, ran, unneeded, owns.mpr fun misled => ?_⟩
  rcases misled.overtakes with sublist | ⟨_, untargeted, _⟩
  · exact absurd sublist (by decide)
  · exact absurd untargeted (by decide)

/-- In the other order the lower instance is looked at while the upper one still has resources. It
keeps its own, which it does not need; so the order of the targets makes a difference. -/
theorem nested_misled : ∃ library batch next last, Reached library ∧
    Gathers library (nestedTargets ⟨2, 1⟩ ⟨1, 1⟩) batch ∧
    Gathers library (nestedTargets ⟨1, 1⟩ ⟨2, 1⟩) batch ∧
    batch.commit {} (nestedTargets ⟨2, 1⟩ ⟨1, 1⟩) = .ok next ∧
    batch.commit {} (nestedTargets ⟨1, 1⟩ ⟨2, 1⟩) = .ok last ∧
    next.lineage ⟨2, 1⟩ = some (.derived ⟨1, 1⟩, .empty) ∧
    .desktop ∈ next.system.settings.activeTiers ∧
    next.needsPermutation (.derived ⟨1, 1⟩) .empty = .ok false ∧
    ((next.ownResources (.derived ⟨2, 1⟩)).get .desktop).isSome = true ∧
    ((last.ownResources (.derived ⟨2, 1⟩)).get .desktop).isSome = false := by
  obtain ⟨⟨library, batch⟩, made, run⟩ := Option.bind_eq_some_iff.mp lower_nested
  obtain ⟨last, following, run⟩ := Option.bind_eq_some_iff.mp run
  obtain ⟨next, committed, same⟩ := Option.map_eq_some_iff.mp run
  obtain ⟨⟨_, _, rid, _⟩, step, asked, owned, active⟩ := by
    simpa only [lower, Prod.mk.injEq] using same
  have different : (⟨1, 1⟩ : SlotKey) ≠ ⟨2, 1⟩ := by decide
  exact ⟨library, batch, next, last, (gathers_nested made).1,
    gathers_nestedTargets made different.symm, gathers_nestedTargets made different,
    toOption_eq_some.mp committed, toOption_eq_some.mp following, step,
    active ▸ List.mem_singleton.mpr rfl, toOption_eq_some.mp asked, owned, rid⟩

end Library

end Shading
