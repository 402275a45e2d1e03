/-
Bringing an instance up to date. Whatever it owned before, and whatever its
parent owns by then, the instance fits afterwards, and nobody else stops
fitting.
-/

import Shading.Proofs.Material.Fitting

namespace Shading

namespace System

/-- Changes the variants of some resources. -/
def varyAll (system : System) (ids : List ResourceId) (change : Variant → Variant) : System :=
  ids.foldl (fun system id => system.onResource id fun resource =>
    { resource with variant := change resource.variant }) system

variable (system : System) (ids : List ResourceId) (change : Variant → Variant)

theorem settings_varyAll : (system.varyAll ids change).settings = system.settings := by
  unfold varyAll
  induction ids generalizing system with
  | nil => rfl
  | cons first rest inductionHypothesis => exact inductionHypothesis _

theorem nextResource_varyAll :
    (system.varyAll ids change).nextResource = system.nextResource := by
  unfold varyAll
  induction ids generalizing system with
  | nil => rfl
  | cons first rest inductionHypothesis => exact inductionHypothesis _

/-- A resource may be named twice, if the change is no other when it is done twice. -/
theorem variantOf_varyAll (twice : ∀ variant, change (change variant) = change variant)
    (id : ResourceId) : (system.varyAll ids change).variantOf id =
      if id ∈ ids then (system.variantOf id).map change else system.variantOf id := by
  induction ids generalizing system with
  | nil => rw [if_neg List.not_mem_nil]; rfl
  | cons first rest inductionHypothesis =>
    have here : (system.onResource first fun resource =>
        { resource with variant := change resource.variant }).variantOf id =
        if id = first then (system.variantOf id).map change else system.variantOf id := by
      rw [variantOf_onResource]
      split
      · rename_i same
        rw [same]
        unfold variantOf
        rw [Option.map_map]
        rfl
      · rfl
    refine (inductionHypothesis _).trans ?_
    rw [here]
    by_cases later : id ∈ rest <;> by_cases same : id = first
    · rw [if_pos later, if_pos same, if_pos (List.mem_cons_of_mem _ later), Option.map_map]
      exact congrArg (fun change => Option.map change _) (funext twice)
    · rw [if_pos later, if_neg same, if_pos (List.mem_cons_of_mem _ later)]
    · rw [if_neg later, if_pos same, if_pos (same ▸ List.mem_cons_self)]
    · rw [if_neg later, if_neg same, if_neg fun member =>
        (List.mem_cons.mp member).elim same later]

end System

namespace Library

variable {library next : Library} {pending : SlotKey → Prop} {target : Target}
  {key base : SlotKey} {parent : Target} {overrides : StaticParameters} {found : MaterialInstance}
  {resources : Materials} {needed : Bool}

/-! ### Other variants -/

section Varying

variable {change : Variant → Variant} (twice : ∀ variant, change (change variant) = change variant)
  (system : next.system =
    library.system.varyAll ((library.ownResources target).toList.filterMap id) change)

include twice system

theorem touches_varyAll (allotted : library.Allotted)
    (own : next.ownResources = library.ownResources) : Touches target library next := by
  refine ⟨?_, ?_, fun other _ => by rw [own], fun other id different owns => ?_, fun id owns => ?_⟩
  · rw [system, System.settings_varyAll]
  · rw [system, System.nextResource_varyAll]
  · rw [system, System.variantOf_varyAll _ _ _ twice, if_neg fun member => different ?_]
    exact allotted.single other target id owns (mem_resources.mp member)
  · unfold Owns at owns
    rw [own] at owns
    exact .inl owns

theorem supplies_varyAll {required required' : Variant → Prop}
    (supplies : library.Supplies (library.ownResources target) required)
    (level : ∀ variant, (change variant).tier = variant.tier)
    (meets : ∀ variant, required variant → required' (change variant)) :
    next.Supplies (library.ownResources target) required' := by
  intro tier active
  rw [system, System.settings_varyAll] at active
  obtain ⟨id, variant, owned, is, same, fits⟩ := supplies tier active
  refine ⟨id, change variant, owned, ?_, (level variant).trans same, meets variant fits⟩
  rw [system, System.variantOf_varyAll _ _ _ twice, if_pos (mem_resources.mpr ⟨tier, owned⟩), is]
  rfl

end Varying

/-! ### Own resources -/

theorem ownResources_derived (there : library.derived.get? key = some found) :
    library.ownResources (.derived key) = found.resources := by
  show ((library.derived.get? key).map MaterialInstance.resources).getD _ = _
  rw [there]
  rfl

theorem setResources_shape (library : Library) (key : SlotKey) (resources : Materials) :
    SameShape library (library.setResources key resources) :=
  .modifyDerived library key (fun _ => rfl) fun _ => rfl

theorem ownResources_setResources (there : library.derived.get? key = some found)
    (resources : Materials) (target : Target) :
    (library.setResources key resources).ownResources target =
      if target = .derived key then resources else library.ownResources target := by
  have entries (other : SlotKey) : (library.setResources key resources).derived.get? other =
      if other = key then some { found with resources } else library.derived.get? other := by
    show (library.derived.modify key _).get? other = _
    rw [Slots.get?_modify, there]
    rfl
  have materials : (library.setResources key resources).materials = library.materials := rfl
  exact ownResources_of_derived materials entries rfl target

theorem eq_fill_none (none_ : resources.toList.any Option.isSome = false) :
    resources = .fill none := by
  obtain ⟨mobile, desktop, highEnd⟩ := resources
  cases mobile <;> cases desktop <;> cases highEnd <;> simp_all [PerTier.toList, PerTier.fill]

/-- Resources of its own for an instance, others having been left alone. -/
theorem touches_setResources {middle : Library} (there : library.derived.get? key = some found)
    (materials : middle.materials = library.materials) (derived : middle.derived = library.derived)
    (settings : middle.system.settings = library.system.settings)
    (numbers : library.system.nextResource.number ≤ middle.system.nextResource.number)
    (variants : ∀ other id, other ≠ .derived key → library.Owns other id →
      middle.system.variantOf id = library.system.variantOf id)
    (own : ∀ tier id, resources.get tier = some id → library.Owns (.derived key) id ∨
      library.system.nextResource.number ≤ id.number ∧
        id.number < middle.system.nextResource.number) :
    Touches (.derived key) library (middle.setResources key resources) := by
  have same := ownResources_setResources (derived ▸ there) resources
  refine ⟨settings, numbers, fun other different => ?_, variants, fun id ⟨tier, has⟩ => ?_⟩
  · rw [same, if_neg different, ownResources_of_slots materials derived]
  · rw [same, if_pos rfl] at has
    exact own tier id has

/-! ### Whether resources are needed -/

/-- The question can only be answered where the base material is alive or there is none at all. -/
theorem needsPermutation_cases (ran : library.needsPermutation parent overrides = .ok needed) :
    (needed = false ∧ ∀ stack base, ¬ library.lineage.Derives parent stack base) ∨
      ∃ rest base material, library.lineage.Derives parent rest base ∧
        library.materials.get? base = some material ∧
        (needed = false → Changeless material.description rest overrides) := by
  obtain ⟨description?, asked, ran⟩ := bind_eq_ok.mp ran
  rcases baseDescription_cases asked with ⟨rfl, nowhere⟩ |
    ⟨rest, base, material, derives, there, rfl⟩
  · cases ran
    exact .inl ⟨rfl, nowhere⟩
  · refine .inr ⟨rest, base, material, derives, there, fun unneeded => ?_⟩
    cases ran
    rw [Bool.or_eq_false_iff] at unneeded
    have same := of_decide_eq_false unneeded.1
    rw [effectiveOverrides_of_derives derives] at same
    exact (not_not.mp same).symm

/-- What an instance must own if it owns anything. -/
theorem fits_of_supplies {material : Material} {rest : List StaticParameters}
    (step : library.lineage key = some (parent, overrides))
    (derives : library.lineage.Derives parent rest base)
    (there : library.materials.get? base = some material)
    (supplies : library.Supplies (library.ownResources (.derived key))
      (Variant.IsFor material.description (some (.stacked (overrides :: rest))))) :
    library.Fits key := by
  intro parent' overrides' rest' base' description step' derives' described
  cases step.symm.trans step'
  obtain ⟨rfl, rfl⟩ := derives.unique derives'
  obtain ⟨material', there', rfl⟩ := descriptionOf_eq_some.mp described
  cases there.symm.trans there'
  exact .inl supplies

theorem changeless_of_unneeded {rest : List StaticParameters} {description : Description}
    (unneeded : library.needsPermutation parent overrides = .ok false)
    (derives : library.lineage.Derives parent rest base)
    (described : library.descriptionOf base = some description) :
    Changeless description rest overrides := by
  rcases needsPermutation_cases unneeded with ⟨_, nowhere⟩ |
    ⟨_, _, material, derives', there, changeless⟩
  · exact absurd derives (nowhere _ _)
  · obtain ⟨rfl, rfl⟩ := derives.unique derives'
    obtain ⟨_, there', rfl⟩ := descriptionOf_eq_some.mp described
    cases there.symm.trans there'
    exact changeless rfl

theorem fits_of_unneeded (step : library.lineage key = some (parent, overrides))
    (nothing : library.ownResources (.derived key) = .fill none)
    (unneeded : library.needsPermutation parent overrides = .ok false) : library.Fits key := by
  intro parent' overrides' rest base description step' derives described
  cases step.symm.trans step'
  exact .inr ⟨nothing, changeless_of_unneeded unneeded derives described⟩

/-- Where resources are needed there is a base material to make them from. -/
theorem needed_cases (ran : library.needsPermutation parent overrides = .ok true) :
    ∃ rest base material, library.lineage.Derives parent rest base ∧
      library.materials.get? base = some material := by
  rcases needsPermutation_cases ran with ⟨no, _⟩ | ⟨rest, base, material, derives, there, _⟩
  · cases no
  · exact ⟨rest, base, material, derives, there⟩

/-! ### What a call that went well has done -/

/-- The library with one instance more. -/
def enrolled (library : Library) (entry : MaterialInstance) : Library :=
  { library with
    system := library.system.freshProxy.2
    derived := (library.derived.insert entry).2 }

/-- An instance has been added below a parent: not at all if the parent is gone, else with
resources of its own if it needs them, and without any if it does not. -/
inductive Enrolls (library : Library) (parent : Target) (overrides : StaticParameters) :
    Except Failure SlotKey → Library → Prop
  | orphan (gone : library.proxy? parent = none) :
    Enrolls library parent overrides (.error parent.missing) library
  | equipped {above : ProxyId} {made : Materials × Library} {ready : Bool} {next : Library}
    (live : library.proxy? parent = some above)
    (asked : library.needsPermutation parent overrides = .ok true)
    (permuted : (library.enrolled
      { parent, overrides, proxy := library.system.nextProxy }).addPermutation
        library.derived.nextKey = .ok made)
    (caching : ((made.2.enqueue
      (.createProxy library.system.nextProxy (.derived above made.1))).setResources
        library.derived.nextKey made.1).cacheShaders (.derived library.derived.nextKey) =
          .ok (ready, next)) :
    Enrolls library parent overrides (.ok library.derived.nextKey) next
  | bare {above : ProxyId} (live : library.proxy? parent = some above)
    (asked : library.needsPermutation parent overrides = .ok false) :
    Enrolls library parent overrides (.ok library.derived.nextKey)
      (((library.enrolled { parent, overrides, proxy := library.system.nextProxy }).enqueue
        (.createProxy library.system.nextProxy (.derived above (.fill none)))).setResources
          library.derived.nextKey (.fill none))

theorem enrolls {result : Except Failure SlotKey}
    (ran : library.addInstance parent overrides = .ok (result, next)) :
    library.Enrolls parent overrides result next := by
  unfold addInstance at ran
  split at ran
  · rename_i gone
    cases ran
    exact .orphan gone
  · rename_i above live
    obtain ⟨needed, asked, ran⟩ := bind_eq_ok.mp ran
    cases needed with
    | true =>
      obtain ⟨made, permuted, ran⟩ := bind_eq_ok.mp ran
      obtain ⟨⟨ready, last⟩, caching, same⟩ := bind_eq_ok.mp ran
      cases same
      exact .equipped live asked permuted caching
    | false =>
      cases ran
      exact .bare live asked

/-- An instance has been brought up to date: there is none; its resources follow its chain; it has
been given resources, or those it had were taken away; or it neither has nor needs any. -/
inductive Synced (library : Library) (key : SlotKey) : Bool → Library → Prop
  | missing (gone : library.derived.get? key = none) : Synced library key false library
  | refreshed {found : MaterialInstance} {description : Description}
    (there : library.derived.get? key = some found) (has : found.hasPermutation = true)
    (asked : library.needsPermutation found.parent found.overrides = .ok true)
    (described : library.baseDescription (.derived key) = .ok (some description)) :
    Synced library key true { library with
      system := library.system.varyAll
        ((library.ownResources (.derived key)).toList.filterMap id) fun variant =>
          { variant with
            description
            overrides := some (library.effectiveOverrides (.derived key)) } }
  | equipped {found : MaterialInstance} {made : Materials × Library}
    (there : library.derived.get? key = some found) (bare : found.hasPermutation = false)
    (asked : library.needsPermutation found.parent found.overrides = .ok true)
    (permuted : library.addPermutation key = .ok made) :
    Synced library key true (made.2.exchangeResources key found.proxy made.1)
  | bereft {found : MaterialInstance}
    (there : library.derived.get? key = some found) (had : found.hasPermutation = true)
    (asked : library.needsPermutation found.parent found.overrides = .ok false) :
    Synced library key false (((library.setResources key (.fill none)).releaseResources
      found.resources).exchangeResources key found.proxy (.fill none))
  | spared {found : MaterialInstance}
    (there : library.derived.get? key = some found) (bare : found.hasPermutation = false)
    (asked : library.needsPermutation found.parent found.overrides = .ok false) :
    Synced library key false library

theorem baseDescription_of_needed {found : MaterialInstance}
    (there : library.derived.get? key = some found)
    (needed : library.needsPermutation found.parent found.overrides = .ok true) :
    ∃ description, library.baseDescription (.derived key) = .ok (some description) := by
  obtain ⟨_, _, material, derives, alive⟩ := needed_cases needed
  exact ⟨_, baseDescription_of_derives (.derived (lineage_of_get? there) derives) alive⟩

theorem synced (ran : library.syncPermutation key = .ok (needed, next)) :
    library.Synced key needed next := by
  unfold syncPermutation at ran
  split at ran
  · rename_i gone
    cases ran
    exact .missing gone
  · rename_i found there
    obtain ⟨wanted, asked, ran⟩ := bind_eq_ok.mp ran
    dsimp only at ran
    split at ran
    · rename_i has
      obtain ⟨description, described⟩ := baseDescription_of_needed there asked
      unfold refreshInstance at ran
      rw [described] at ran
      cases ran
      exact .refreshed there has asked described
    · rename_i bare
      obtain ⟨made, permuted, same⟩ := bind_eq_ok.mp ran
      cases same
      exact .equipped there bare asked permuted
    · rename_i had
      cases ran
      exact .bereft there had asked
    · rename_i bare
      cases ran
      exact .spared there bare asked

/-- The library, a material being no longer the default one. -/
def relieved (library : Library) (key : SlotKey) : Library :=
  { library with
    defaultMaterial :=
      if library.defaultMaterial = some key then none else library.defaultMaterial }

theorem removeMaterial_of_missing (gone : library.materials.get? key = none) :
    library.removeMaterial key = library.relieved key := by
  unfold removeMaterial relieved
  by_cases default : library.defaultMaterial = some key
  · rw [if_pos default, if_pos default]
    dsimp only
    rw [gone]
  · rw [if_neg default, if_neg default]
    dsimp only
    rw [gone]

theorem removeMaterial_of_found {material : Material}
    (found : library.materials.get? key = some material) :
    library.removeMaterial key =
      ({ library.relieved key with materials := library.materials.erase key }.releaseResources
        material.resources).enqueue (.removeProxy material.proxy) := by
  unfold removeMaterial relieved
  by_cases default : library.defaultMaterial = some key
  · rw [if_pos default, if_pos default]
    dsimp only
    rw [found]
  · rw [if_neg default, if_neg default]
    dsimp only
    rw [found]

theorem replaceDescription_cases {description : Description}
    (ran : library.replaceDescription key description = .ok next) :
    ∃ material, library.materials.get? key = some material ∧
      next = { library with
        system := library.system.varyAll (material.resources.toList.filterMap id) fun variant =>
          { variant with
            description := { description with isDefault := material.description.isDefault } }
        materials := library.materials.modify key fun found => { found with
          description := { description with isDefault := material.description.isDefault } } } := by
  unfold replaceDescription at ran
  split at ran
  · cases ran
  · rename_i material found
    cases ran
    exact ⟨material, found, rfl⟩

theorem setParameter_cases {name : String} {value : ParameterValue}
    (ran : library.setParameter target name value = .ok next) :
    ∃ proxy, library.proxy? target = some proxy ∧
      next = (library.onParameters target fun parameters => parameters.insert name value).enqueue
        (.setParameter proxy name value) := by
  unfold setParameter at ran
  split at ran
  · cases ran
  · rename_i proxy live
    cases ran
    exact ⟨proxy, live, rfl⟩

/-- The renderer does not hear of a parameter that was not set. -/
theorem clearParameter_cases {name : String}
    (ran : library.clearParameter target name = .ok next) :
    (∃ proxy, library.proxy? target = some proxy ∧
      next = (library.onParameters target fun parameters => parameters.erase name).enqueue
        (.clearParameter proxy name)) ∨ next = library := by
  unfold clearParameter at ran
  split at ran
  · rename_i proxy parameters live _
    split at ran
    · cases ran
      exact .inl ⟨proxy, live, rfl⟩
    · cases ran
      exact .inr rfl
  · cases ran

/-! ### One instance -/

/-- What bringing an instance up to date comes to. -/
structure Updates (key : SlotKey) (library next : Library) : Prop where
  shape : SameShape library next
  touches : Touches (.derived key) library next
  stocked : next.ownResources (.derived key) = .fill none ∨
    next.Supplies (next.ownResources (.derived key)) fun _ => True
  fits : next.Fits key

theorem Sound.update (sound : Sound pending library) (updates : Updates key library next) :
    Sound (fun other => pending other ∧ other ≠ key) next :=
  sound.rework updates.shape updates.touches updates.stocked updates.fits

/-- Resources that are made for an instance. -/
theorem updates_addPermutation {made : Materials × Library} {rest : List StaticParameters}
    {material : Material} (allotted : library.Allotted)
    (there : library.derived.get? key = some found)
    (derives : library.lineage.Derives found.parent rest base)
    (alive : library.materials.get? base = some material)
    (ran : library.addPermutation key = .ok made) :
    Updates key library (made.2.setResources key made.1) := by
  have step := lineage_of_get? there
  have way := Lineage.Derives.derived step derives
  unfold addPermutation at ran
  rw [baseDescription_of_derives way alive] at ran
  cases ran
  rw [effectiveOverrides_of_derives way]
  have makes := library.addResources_makes (.derived key) material.description
    (some (.stacked (found.overrides :: rest)))
  generalize library.addResources _ _ _ = made at makes
  have shape := (SameShape.of_slots makes.materials makes.derived).trans
    (setResources_shape made.2 key made.1)
  have own : (made.2.setResources key made.1).ownResources (.derived key) = made.1 := by
    rw [ownResources_setResources (makes.derived ▸ there), if_pos rfl]
  have supplies : (made.2.setResources key made.1).Supplies made.1
      (Variant.IsFor material.description (some (.stacked (found.overrides :: rest)))) := by
    intro tier active
    exact makes.supplied tier (makes.settings ▸ active)
  refine ⟨shape, ?_, .inr ?_, ?_⟩
  · refine touches_setResources there makes.materials makes.derived makes.settings makes.numbers
      (fun other id _ owns => makes.older id (allotted.numbered other id owns))
      fun tier id has => .inr (makes.newer tier id has)
  · rw [own]
    intro tier active
    obtain ⟨id, variant, has, is, level, _⟩ := supplies tier active
    exact ⟨id, variant, has, is, level, trivial⟩
  · have materials : (made.2.setResources key made.1).materials = library.materials :=
      makes.materials
    refine fits_of_supplies (shape.lineage ▸ step) (shape.lineage ▸ derives) (materials ▸ alive) ?_
    rw [own]
    exact supplies

/-- Resources that an instance has are made to follow its chain. -/
theorem Sound.updates_refreshed {description : Description} (sound : Sound pending library)
    (there : library.derived.get? key = some found) (has : found.hasPermutation = true)
    (needed : library.needsPermutation found.parent found.overrides = .ok true)
    (described : library.baseDescription (.derived key) = .ok (some description)) :
    Updates key library { library with
      system := library.system.varyAll
        ((library.ownResources (.derived key)).toList.filterMap id) fun variant =>
          { variant with
            description
            overrides := some (library.effectiveOverrides (.derived key)) } } := by
  have step := lineage_of_get? there
  obtain ⟨rest, base, material, derives, alive⟩ := needed_cases needed
  have way := Lineage.Derives.derived step derives
  rw [baseDescription_of_derives way alive] at described
  cases described
  rw [effectiveOverrides_of_derives way]
  let change (variant : Variant) : Variant :=
    { variant with
      description := material.description
      overrides := some (.stacked (found.overrides :: rest)) }
  have twice (variant : Variant) : change (change variant) = change variant := rfl
  generalize is : ({ library with
    system := library.system.varyAll
      ((library.ownResources (.derived key)).toList.filterMap id) change } : Library) = next
  replace is := is.symm
  have system := congrArg Library.system is
  have materials : next.materials = library.materials := by rw [is]
  have derived : next.derived = library.derived := by rw [is]
  have shape := SameShape.of_slots materials derived
  have own := ownResources_of_slots materials derived
  have stocked : library.Supplies (library.ownResources (.derived key)) fun _ => True := by
    refine (sound.stocked key (by rw [step]; rfl)).resolve_left fun nothing => ?_
    rw [ownResources_derived there] at nothing
    unfold MaterialInstance.hasPermutation at has
    rw [nothing] at has
    cases has
  refine ⟨shape, touches_varyAll twice system sound.allotted own, .inr ?_, ?_⟩
  · rw [own]
    exact supplies_varyAll twice system stocked (fun _ => rfl) fun _ _ => trivial
  · refine fits_of_supplies (shape.lineage ▸ step) (shape.lineage ▸ derives) (materials ▸ alive) ?_
    rw [own]
    exact supplies_varyAll twice system stocked (fun _ => rfl) fun _ _ => ⟨rfl, rfl⟩

/-- Resources that an instance no longer needs are given up. -/
theorem Sound.updates_releaseResources (sound : Sound pending library)
    (there : library.derived.get? key = some found)
    (unneeded : library.needsPermutation found.parent found.overrides = .ok false) :
    Updates key library
      (((library.setResources key (.fill none)).releaseResources found.resources).setResources key
        (.fill none)) := by
  have step := lineage_of_get? there
  have drops := releaseResources_drops (library.setResources key (.fill none)) found.resources
  generalize Library.releaseResources _ _ = left at drops
  have shape : SameShape library left :=
    (setResources_shape library key (.fill none)).trans (.of_slots drops.materials drops.derived)
  have owned (target : Target) : left.ownResources target =
      if target = .derived key then .fill none else library.ownResources target := by
    rw [ownResources_of_slots drops.materials drops.derived,
      ownResources_setResources there (.fill none)]
  have touches : Touches (.derived key) library left := by
    refine ⟨drops.settings, Nat.le_of_eq (congrArg Identifier.number drops.nextResource).symm,
      fun other different => by rw [owned, if_neg different], fun other id different owns => ?_,
      fun id ⟨tier, has⟩ => ?_⟩
    · refine drops.variants id fun member => different ?_
      have mine : library.Owns (.derived key) id := by
        obtain ⟨tier, has⟩ := mem_resources.mp member
        exact ⟨tier, ownResources_derived there ▸ has⟩
      exact sound.allotted.single other (.derived key) id owns mine
    · rw [owned, if_pos rfl, PerTier.get_fill] at has
      cases has
  have unchanged : (left.setResources key (.fill none)).ownResources = left.ownResources := by
    funext target
    have live : (left.derived.get? key).isSome := by
      rw [shape.derived.taken, there]
      rfl
    obtain ⟨value, here⟩ := Option.isSome_iff_exists.mp live
    rw [ownResources_setResources here, owned]
    split <;> rfl
  have again : Touches (.derived key) left (left.setResources key (.fill none)) :=
    ⟨rfl, Nat.le_refl _, fun other _ => by rw [unchanged], fun _ _ _ _ => rfl, fun id owns => by
      unfold Owns at owns
      rw [unchanged] at owns
      exact .inl owns⟩
  have final : SameShape library (left.setResources key (.fill none)) :=
    shape.trans (setResources_shape left key (.fill none))
  have nothing : (left.setResources key (.fill none)).ownResources (.derived key) = .fill none := by
    rw [unchanged, owned, if_pos rfl]
  refine ⟨final, touches.trans again, .inl nothing, ?_⟩
  intro parent overrides rest base description step' derives described
  rw [final.lineage] at step' derives
  rw [final.descriptions] at described
  cases step.symm.trans step'
  exact .inr ⟨nothing, changeless_of_unneeded unneeded derives described⟩

theorem Updates.enqueue (updates : Updates key library next) (command : RenderCommand) :
    Updates key library (next.enqueue command) where
  shape := updates.shape.trans (.of_slots rfl rfl)
  touches := ⟨updates.touches.settings, updates.touches.numbers, updates.touches.others,
    updates.touches.variants, updates.touches.own⟩
  stocked := updates.stocked
  fits := updates.fits

/-- An instance that fits without resources of its own needs nothing. -/
theorem Updates.still (nothing : library.ownResources (.derived key) = .fill none)
    (fits : library.Fits key) : Updates key library library where
  shape := .of_slots rfl rfl
  touches := ⟨rfl, Nat.le_refl _, fun _ _ => rfl, fun _ _ _ _ => rfl, fun _ => .inl⟩
  stocked := .inl nothing
  fits := fits

/-- An instance that is brought up to date fits. -/
theorem Sound.updates_syncPermutation (sound : Sound pending library)
    (ran : library.syncPermutation key = .ok (needed, next)) : Updates key library next := by
  cases synced ran with
  | missing gone =>
    have dead : library.lineage key = none := by
      unfold Library.lineage
      rw [gone]
      rfl
    have nothing : library.ownResources (.derived key) = .fill none := by
      show ((library.derived.get? key).map MaterialInstance.resources).getD _ = _
      rw [gone]
      rfl
    refine .still nothing fun _ _ _ _ _ step => ?_
    rw [dead] at step
    cases step
  | refreshed there has asked described => exact sound.updates_refreshed there has asked described
  | equipped there _ asked permuted =>
    obtain ⟨_, _, _, derives, alive⟩ := needed_cases asked
    exact (updates_addPermutation sound.allotted there derives alive permuted).enqueue _
  | bereft there _ asked => exact (sound.updates_releaseResources there asked).enqueue _
  | spared there bare asked =>
    have nothing : library.ownResources (.derived key) = .fill none :=
      (ownResources_derived there).trans (eq_fill_none bare)
    exact .still nothing (fits_of_unneeded (lineage_of_get? there) nothing asked)

end Library

end Shading
