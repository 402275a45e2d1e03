/-
Targets that come, change and go. A new key has not been given before, so nobody
derives from a target by mistake that has just been added. A material that is
edited or removed leaves instances behind that do not fit it; but those of a
removed one have no base material any more that they could fit.
-/

import Shading.Proofs.Material.Permuting

namespace Shading.Library

variable {library next : Library} {pending : SlotKey → Prop} {target : Target}
  {key : SlotKey} {description : Description}

theorem ownResources_material {material : Material}
    (there : library.materials.get? key = some material) :
    library.ownResources (.material key) = material.resources := by
  show ((library.materials.get? key).map Material.resources).getD _ = _
  rw [there]
  rfl

namespace Sound

/-! ### Materials -/

/-- One material gets another description, or none any more. -/
theorem describe {description? : Option Description} (sound : Sound pending library)
    (touches : Touches (.material key) library next) (lineage : next.lineage = library.lineage)
    (descriptions : ∀ other, next.descriptionOf other =
      if other = key then description? else library.descriptionOf other)
    (materials : next.materials.Orderly) (derived : library.derived.SameKeys next.derived)
    (given : ∀ other, library.materials.Given other → next.materials.Given other)
    (supplied : ∀ description, description? = some description →
      next.Supplies (next.ownResources (.material key)) (Variant.IsFor description none)) :
    Sound (fun other => pending other ∨ description?.isSome ∧
      ∃ stack, library.lineage.Derives (.derived other) stack key) next where
  materials := materials
  derived := derived.orderly sound.derived
  rooted := fun other parent overrides step => by
    rw [lineage] at step
    have before := sound.rooted other parent overrides step
    cases parent with
    | material root => exact given root before
    | derived above => exact derived.given before
  sorted := fun other parent overrides step =>
    sound.sorted other parent overrides (lineage ▸ step)
  allotted := touches.allotted sound.allotted
  supplied := fun other description described => by
    rw [descriptions] at described
    split at described
    · rename_i same
      exact same ▸ supplied description described
    · rename_i different
      exact touches.supplies (fun same => different (Target.material.inj same))
        (sound.supplied other description described)
  stocked := fun other live => by
    rw [lineage] at live
    have different : Target.derived other ≠ .material key := fun same => nomatch same
    rcases sound.stocked other live with nothing | supplies
    · rw [touches.others _ different]
      exact .inl nothing
    · exact .inr (touches.supplies different supplies)
  fits := fun other free => by
    intro parent overrides rest base description step derives described
    have way := Lineage.Derives.derived (lineage ▸ step) (lineage ▸ derives)
    have elsewhere : base ≠ key := by
      rintro rfl
      rw [descriptions, if_pos rfl] at described
      exact free (.inr ⟨by rw [described]; rfl, _, way⟩)
    refine (sound.fits other fun held => free (.inl held)).carry lineage
      (fun stack root leads => ?_) touches (fun same => nomatch same) parent overrides rest base
      description step derives described
    rw [descriptions, if_neg ((way.unique leads).2 ▸ elsewhere)]

/-- A material is put in, resources are made for it, and it gets them. -/
theorem entered (sound : Sound pending library) (added : Library) (material : Material)
    (made : Materials × Library) (described : material.description = description)
    (materials : added.materials = (library.materials.insert material).2)
    (derived : added.derived = library.derived)
    (steady : System.Steady library.system added.system)
    (makes : Makes added added.system.settings.activeTiers description none made)
    (given : next.materials = made.2.materials.modify library.materials.nextKey fun material =>
      { material with resources := made.1 })
    (same : next.derived = made.2.derived) (after : System.Steady made.2.system next.system) :
    Sound pending next := by
  have sameDerived : next.derived = library.derived := (same.trans makes.derived).trans derived
  have entries (other : SlotKey) : next.materials.get? other =
      if other = library.materials.nextKey then some { material with resources := made.1 }
      else library.materials.get? other := by
    rw [given, Slots.get?_modify, makes.materials, materials, Slots.get?_insert,
      Slots.get?_insert, if_pos rfl]
    split <;> rfl
  have own := ownResources_of_materials sameDerived entries rfl
  have touches : Touches (.material library.materials.nextKey) library next := by
    refine ⟨(after.settings.trans makes.settings).trans steady.settings, ?_,
      fun other different => by rw [own, if_neg different], fun other id _ owns => ?_,
      fun id ⟨tier, has⟩ => .inr ?_⟩
    · rw [after.nextResource, ← steady.nextResource]
      exact makes.numbers
    · rw [after.variantOf, ← steady.variantOf]
      refine makes.older id ?_
      rw [steady.nextResource]
      exact sound.allotted.numbered other id owns
    · rw [own, if_pos rfl] at has
      rw [after.nextResource, ← steady.nextResource]
      exact makes.newer tier id has
  have modified := Slots.SameKeys.modify made.2.materials library.materials.nextKey
    fun material => { material with resources := made.1 }
  rw [← given, makes.materials, materials] at modified
  have all : Sound (fun other => pending other ∨ (some description).isSome ∧
      ∃ stack, library.lineage.Derives (.derived other) stack library.materials.nextKey) next :=
    sound.describe touches (by unfold Library.lineage; rw [sameDerived])
    (fun other => by
      unfold descriptionOf
      rw [entries]
      split
      · exact congrArg some described
      · rfl)
    (modified.orderly (sound.materials.insert material)) (sameDerived ▸ .refl _)
    (fun other before => modified.given (before.insert material)) fun _ is => by
      cases is
      intro tier active
      rw [own, if_pos rfl, after.variantOf]
      rw [after.settings, makes.settings] at active
      exact makes.supplied tier active
  refine all.weaken fun other free held => ?_
  obtain ⟨_, stack, derives⟩ := held.resolve_left free
  cases derives with
  | derived step rest =>
    have before := sound.given_of_derives rest (sound.rooted _ _ _ step)
    exact absurd rfl before.ne_nextKey

theorem addMaterial (sound : Sound pending library)
    (ran : library.addMaterial description = .ok (key, next)) : Sound pending next := by
  obtain ⟨⟨ready, cached⟩, caching, ran⟩ := bind_eq_ok.mp ran
  cases ran
  refine (Sound.cacheShaders ?_ caching).1
  let material : Material := { description, proxy := library.system.nextProxy }
  let added : Library :=
    { library with
      system := library.system.freshProxy.2
      materials := (library.materials.insert material).2 }
  exact sound.entered added material _ rfl rfl rfl (.of_resources rfl rfl rfl rfl)
    (added.addResources_makes (.material library.materials.nextKey) description none) rfl rfl
    (.enqueue _ _)

/-- A target that is gone owns nothing, and what it owned is dropped. -/
theorem touches_dropped {middle : Library} {resources : Materials}
    (allotted : library.Allotted) (owned : library.ownResources target = resources)
    (drops : Drops middle (resources.toList.filterMap id) next)
    (system : middle.system = library.system)
    (own : ∀ other, next.ownResources other =
      if other = target then .fill none else library.ownResources other) :
    Touches target library next := by
  refine ⟨drops.settings.trans (by rw [system]), ?_, fun other different => by
    rw [own, if_neg different], fun other id different owns => ?_, fun id ⟨tier, has⟩ => ?_⟩
  · rw [drops.nextResource, system]
  · rw [drops.variants id fun member => different ?_, system]
    obtain ⟨tier, has⟩ := mem_resources.mp member
    exact allotted.single other target id owns ⟨tier, owned ▸ has⟩
  · rw [own, if_pos rfl, PerTier.get_fill] at has
    cases has

/-- A material is taken out, and what it had is given up. -/
theorem dropped {middle : Library} {material : Material} (sound : Sound pending library)
    (there : library.materials.get? key = some material)
    (drops : Drops middle (material.resources.toList.filterMap id) next)
    (materials : middle.materials = library.materials.erase key)
    (derived : middle.derived = library.derived) (system : middle.system = library.system) :
    Sound pending next := by
  have sameDerived : next.derived = library.derived := drops.derived.trans derived
  have entries (other : SlotKey) : next.materials.get? other =
      if other = key then none else library.materials.get? other := by
    rw [drops.materials, materials, Slots.get?_erase]
  have own := ownResources_of_materials sameDerived entries rfl
  have touches := touches_dropped sound.allotted (ownResources_material there) drops system own
  have all : Sound (fun other => pending other ∨ (none : Option Description).isSome ∧
      ∃ stack, library.lineage.Derives (.derived other) stack key) next :=
    sound.describe touches (by unfold Library.lineage; rw [sameDerived])
      (fun other => by
        unfold descriptionOf
        rw [entries]
        split <;> rfl)
      (by rw [drops.materials, materials]; exact sound.materials.erase key)
      (sameDerived ▸ .refl _)
      (fun other before => by rw [drops.materials, materials]; exact before.erase key)
      fun _ is => nomatch is
  exact all.weaken fun other free held =>
    absurd (held.resolve_left free).1 (fun there => nomatch there)

theorem removeMaterial (sound : Sound pending library) (key : SlotKey) :
    Sound pending (library.removeMaterial key) := by
  cases there : library.materials.get? key with
  | none =>
    rw [removeMaterial_of_missing there]
    exact sound.congr (.of_slots rfl rfl) (ownResources_of_slots rfl rfl) rfl (Nat.le_refl _)
      fun _ _ _ => rfl
  | some material =>
    rw [removeMaterial_of_found there]
    refine Sound.enqueue ?_ _
    exact sound.dropped there (releaseResources_drops _ material.resources) rfl rfl rfl

theorem replaceDescription (sound : Sound pending library)
    (ran : library.replaceDescription key description = .ok next) :
    Sound (fun other => pending other ∨
      ∃ stack, library.lineage.Derives (.derived other) stack key) next ∧
      next.lineage = library.lineage := by
  obtain ⟨material, there, same⟩ := replaceDescription_cases ran
  let edited : Description := { description with isDefault := material.description.isDefault }
  let change (variant : Variant) : Variant := { variant with description := edited }
  have twice (variant : Variant) : change (change variant) = change variant := rfl
  have is : next = { library with
      system := library.system.varyAll
        ((library.ownResources (.material key)).toList.filterMap id) change
      materials := library.materials.modify key fun material =>
        { material with description := edited } } := by
    rw [ownResources_material there]
    exact same
  have system := congrArg Library.system is
  have derived : next.derived = library.derived := by rw [is]
  have entries (other : SlotKey) : next.materials.get? other =
      if other = key then some { material with description := edited }
      else library.materials.get? other := by
    rw [is]
    show (library.materials.modify key _).get? other = _
    rw [Slots.get?_modify, there]
    rfl
  have keys : library.materials.SameKeys next.materials := by
    rw [is]
    exact .modify _ key _
  have own : next.ownResources = library.ownResources := by
    funext other
    rw [ownResources_of_materials derived entries rfl]
    split
    · rename_i same
      rw [same, ownResources_material there]
      rfl
    · rfl
  have lineage : next.lineage = library.lineage := by
    unfold Library.lineage
    rw [derived]
  have all : Sound (fun other => pending other ∨ (some edited).isSome ∧
      ∃ stack, library.lineage.Derives (.derived other) stack key) next :=
    sound.describe (touches_varyAll twice system sound.allotted own) lineage
      (fun other => by
        unfold descriptionOf
        rw [entries]
        split <;> rfl)
      (keys.orderly sound.materials) (derived ▸ .refl _) (fun other => keys.given)
      fun _ same => by
        cases same
        rw [own]
        exact supplies_varyAll twice system
          (sound.supplied key material.description (descriptionOf_eq_some.mpr ⟨_, there, rfl⟩))
          (fun _ => rfl) fun _ fits => ⟨rfl, fits.2⟩
  exact ⟨all.weaken fun other free held => absurd (held.imp_right And.right) free, lineage⟩

end Sound

end Shading.Library
