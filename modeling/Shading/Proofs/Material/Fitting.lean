/-
Instances that fit. An instance fits if it owns resources for its base material
and all overrides on its chain, or if it owns none and its overrides would
change nothing for its parent. Neither depends on what its parent owns, so it
does not matter in which order instances are looked at; and as long as nothing
but the resources of one target is worked on, all others go on fitting. Editing a
material is the one change after which instances may not fit: those derived from
it are pending then, until they have been looked at.
-/

import Shading.Proofs.Material.Keeping
import Shading.Proofs.Material.Supplying

namespace Shading.Library

variable {library next : Library} {pending : SlotKey → Prop} {target other : Target}
  {key base : SlotKey} {stack rest : List StaticParameters} {overrides : StaticParameters}
  {description : Description} {needed : Bool}

/-! ### Shapes -/

/-- The same targets are there, the instances derive from the same, and the materials have the
same descriptions. -/
structure SameShape (library next : Library) : Prop where
  lineage : next.lineage = library.lineage
  descriptions : next.descriptionOf = library.descriptionOf
  materials : library.materials.SameKeys next.materials
  derived : library.derived.SameKeys next.derived

namespace SameShape

theorem of_slots (materials : next.materials = library.materials)
    (derived : next.derived = library.derived) : SameShape library next := by
  refine ⟨?_, ?_, materials ▸ .refl _, derived ▸ .refl _⟩
  · unfold Library.lineage
    rw [derived]
  · unfold descriptionOf
    rw [materials]

theorem trans {middle : Library} (first : SameShape library middle)
    (second : SameShape middle next) : SameShape library next :=
  ⟨second.lineage.trans first.lineage, second.descriptions.trans first.descriptions,
    first.materials.trans second.materials, first.derived.trans second.derived⟩

/-- A change of an instance that is not about its parent or its overrides. -/
theorem modifyDerived (library : Library) (key : SlotKey)
    {change : MaterialInstance → MaterialInstance}
    (parent : ∀ found, (change found).parent = found.parent)
    (overrides : ∀ found, (change found).overrides = found.overrides) :
    SameShape library { library with derived := library.derived.modify key change } := by
  refine ⟨funext fun other => ?_, rfl, .refl _, .modify _ key change⟩
  show ((library.derived.modify key change).get? other).map _ = _
  rw [Slots.get?_modify]
  split
  · rename_i same
    rw [same, Option.map_map]
    refine congrArg (fun view => Option.map view _) (funext fun found => ?_)
    exact congrArg₂ Prod.mk (parent found) (overrides found)
  · rfl

/-- A change of a material that is not about its description. -/
theorem modifyMaterial (library : Library) (key : SlotKey) {change : Material → Material}
    (description : ∀ material, (change material).description = material.description) :
    SameShape library { library with materials := library.materials.modify key change } := by
  refine ⟨rfl, funext fun other => ?_, .modify _ key change, .refl _⟩
  show ((library.materials.modify key change).get? other).map _ = _
  rw [Slots.get?_modify]
  split
  · rename_i same
    rw [same, Option.map_map]
    exact congrArg (fun view => Option.map view _) (funext description)
  · rfl

end SameShape

/-- A key of the target has been given, so that it will not be given again. -/
def Given (library : Library) : Target → Prop
  | .material key => library.materials.Given key
  | .derived key => library.derived.Given key

theorem SameShape.given (shape : SameShape library next) (given : library.Given target) :
    next.Given target := by
  cases target with
  | material key => exact shape.materials.given given
  | derived key => exact shape.derived.given given

theorem ownResources_of_slots (materials : next.materials = library.materials)
    (derived : next.derived = library.derived) : next.ownResources = library.ownResources := by
  funext target
  cases target with
  | material key =>
    unfold ownResources
    rw [materials]
  | derived key =>
    unfold ownResources
    rw [derived]

/-- Where one material comes, goes or changes, others own what they did. -/
theorem ownResources_of_materials {found? : Option Material} {resources : Materials}
    (derived : next.derived = library.derived)
    (materials : ∀ other, next.materials.get? other =
      if other = key then found? else library.materials.get? other)
    (owns : (found?.map Material.resources).getD (.fill none) = resources) (target : Target) :
    next.ownResources target =
      if target = .material key then resources else library.ownResources target := by
  cases target with
  | derived other =>
    rw [if_neg fun same => nomatch same]
    unfold ownResources
    rw [derived]
  | material other =>
    unfold ownResources
    dsimp only
    rw [materials]
    by_cases same : other = key
    · rw [if_pos same, if_pos (congrArg _ same)]
      exact owns
    · rw [if_neg same, if_neg fun equal => same (Target.material.inj equal)]

/-- Where one instance comes, goes or changes, others own what they did. -/
theorem ownResources_of_derived {found? : Option MaterialInstance} {resources : Materials}
    (materials : next.materials = library.materials)
    (derived : ∀ other, next.derived.get? other =
      if other = key then found? else library.derived.get? other)
    (owns : (found?.map MaterialInstance.resources).getD (.fill none) = resources)
    (target : Target) :
    next.ownResources target =
      if target = .derived key then resources else library.ownResources target := by
  cases target with
  | material other =>
    rw [if_neg fun same => nomatch same]
    unfold ownResources
    rw [materials]
  | derived other =>
    unfold ownResources
    dsimp only
    rw [derived]
    by_cases same : other = key
    · rw [if_pos same, if_pos (congrArg _ same)]
      exact owns
    · rw [if_neg same, if_neg fun equal => same (Target.derived.inj equal)]

/-! ### What holds between operations -/

/-- On top of a stack overrides change nothing for a description. -/
def Changeless (description : Description) (rest : List StaticParameters)
    (overrides : StaticParameters) : Prop :=
  (description.effectiveParameters (some (.stacked rest))).mergedWith overrides =
    description.effectiveParameters (some (.stacked rest))

/-- An instance owns what its chain asks for, or nothing where it asks for nothing of its own. -/
def Fits (library : Library) (key : SlotKey) : Prop :=
  ∀ parent overrides rest base description, library.lineage key = some (parent, overrides) →
    library.lineage.Derives parent rest base → library.descriptionOf base = some description →
    library.Supplies (library.ownResources (.derived key))
        (Variant.IsFor description (some (.stacked (overrides :: rest)))) ∨
      library.ownResources (.derived key) = .fill none ∧ Changeless description rest overrides

/-- What holds of a library, with the instances named that may not fit. -/
structure Sound (pending : SlotKey → Prop) (library : Library) : Prop where
  materials : library.materials.Orderly
  derived : library.derived.Orderly
  rooted : ∀ key parent overrides, library.lineage key = some (parent, overrides) →
    library.Given parent
  sorted : ∀ key parent overrides, library.lineage key = some (parent, overrides) →
    overrides.Sorted
  allotted : library.Allotted
  supplied : ∀ key description, library.descriptionOf key = some description →
    library.Supplies (library.ownResources (.material key)) (Variant.IsFor description none)
  stocked : ∀ key, (library.lineage key).isSome →
    library.ownResources (.derived key) = .fill none ∨
      library.Supplies (library.ownResources (.derived key)) fun _ => True
  fits : ∀ key, ¬ pending key → library.Fits key

theorem Fits.carry (fits : library.Fits key) (lineage : next.lineage = library.lineage)
    (descriptions : ∀ stack base, library.lineage.Derives (.derived key) stack base →
      next.descriptionOf base = library.descriptionOf base)
    (touches : Touches target library next) (different : .derived key ≠ target) :
    next.Fits key := by
  intro parent overrides rest base description step derives described
  rw [lineage] at step derives
  rw [descriptions _ base (.derived step derives)] at described
  rcases fits parent overrides rest base description step derives described with owns | borrows
  · exact .inl (touches.supplies different owns)
  · rw [touches.others _ different]
    exact .inr borrows

namespace Sound

theorem weaken {pending' : SlotKey → Prop} (sound : Sound pending library)
    (fewer : ∀ key, ¬ pending' key → pending key → library.Fits key) :
    Sound pending' library :=
  { sound with
    fits := fun key free => by
      by_cases held : pending key
      · exact fewer key free held
      · exact sound.fits key held }

/-- What a live target leads to has been given. -/
theorem given_of_derives (sound : Sound pending library)
    (derives : library.lineage.Derives target stack base) (given : library.Given target) :
    library.materials.Given base := by
  induction derives with
  | material => exact given
  | derived step _ inductionHypothesis =>
    exact inductionHypothesis (sound.rooted _ _ _ step)

theorem given_of_lineage (sound : Sound pending library) {entry : Target × StaticParameters}
    (step : library.lineage key = some entry) : library.derived.Given key := by
  obtain ⟨found, there, _⟩ := Option.map_eq_some_iff.mp step
  exact sound.derived.given (by rw [there]; rfl)

/-! ### Work on the resources of an instance -/

theorem rework (sound : Sound pending library) (shape : SameShape library next)
    (touches : Touches (.derived key) library next)
    (stocked : next.ownResources (.derived key) = .fill none ∨
      next.Supplies (next.ownResources (.derived key)) fun _ => True)
    (fits : next.Fits key) : Sound (fun other => pending other ∧ other ≠ key) next where
  materials := shape.materials.orderly sound.materials
  derived := shape.derived.orderly sound.derived
  rooted := fun other parent overrides step =>
    shape.given (sound.rooted other parent overrides (shape.lineage ▸ step))
  sorted := fun other parent overrides step =>
    sound.sorted other parent overrides (shape.lineage ▸ step)
  allotted := touches.allotted sound.allotted
  supplied := fun other description described => by
    rw [shape.descriptions] at described
    exact touches.supplies (fun same => nomatch same) (sound.supplied other description described)
  stocked := fun other live => by
    by_cases same : other = key
    · exact same ▸ stocked
    · rw [shape.lineage] at live
      have different : Target.derived other ≠ .derived key := fun equal =>
        same (Target.derived.inj equal)
      rcases sound.stocked other live with nothing | supplies
      · rw [touches.others _ different]
        exact .inl nothing
      · exact .inr (touches.supplies different supplies)
  fits := fun other free => by
    by_cases same : other = key
    · exact same ▸ fits
    · refine (sound.fits other fun held => free ⟨held, same⟩).carry shape.lineage
        (fun _ _ _ => by rw [shape.descriptions]) touches fun equal => ?_
      exact same (Target.derived.inj equal)

/-- A change that is about none of this. -/
theorem congr (sound : Sound pending library) (shape : SameShape library next)
    (own : next.ownResources = library.ownResources)
    (settings : next.system.settings = library.system.settings)
    (numbers : library.system.nextResource.number ≤ next.system.nextResource.number)
    (variants : ∀ target id, library.Owns target id →
      next.system.variantOf id = library.system.variantOf id) : Sound pending next := by
  have touches (target : Target) : Touches target library next :=
    ⟨settings, numbers, fun other _ => by rw [own], fun other id _ => variants other id,
      fun id owns => by
        unfold Owns at owns
        rw [own] at owns
        exact .inl owns⟩
  have another (target : Target) : ∃ other, target ≠ other := by
    cases target with
    | material key => exact ⟨.derived key, fun same => nomatch same⟩
    | derived key => exact ⟨.material key, fun same => nomatch same⟩
  refine ⟨shape.materials.orderly sound.materials, shape.derived.orderly sound.derived,
    fun other parent overrides step => shape.given (sound.rooted other parent overrides
      (shape.lineage ▸ step)), fun other parent overrides step =>
      sound.sorted other parent overrides (shape.lineage ▸ step),
    (touches (.material default)).allotted sound.allotted, fun other description described => ?_,
    fun other live => ?_, fun other free => ?_⟩
  · rw [shape.descriptions] at described
    obtain ⟨aside, different⟩ := another (.material other)
    exact (touches aside).supplies different (sound.supplied other description described)
  · rw [shape.lineage] at live
    obtain ⟨aside, different⟩ := another (.derived other)
    rcases sound.stocked other live with nothing | supplies
    · rw [own]
      exact .inl nothing
    · exact .inr ((touches aside).supplies different supplies)
  · obtain ⟨aside, different⟩ := another (.derived other)
    exact (sound.fits other free).carry shape.lineage (fun _ _ _ => by rw [shape.descriptions])
      (touches aside) different

theorem onSystem {system : System} (sound : Sound pending library)
    (steady : System.Steady library.system system) : Sound pending { library with system } :=
  sound.congr (.of_slots rfl rfl) (ownResources_of_slots rfl rfl) steady.settings
    (by rw [steady.nextResource]) fun _ id _ => by rw [steady.variantOf]

theorem enqueue (sound : Sound pending library) (command : RenderCommand) :
    Sound pending (library.enqueue command) := sound.onSystem (.enqueue _ command)

theorem cacheShaders {ready : Bool} (sound : Sound pending library)
    (ran : library.cacheShaders target = .ok (ready, next)) :
    Sound pending next ∧ SameShape library next := by
  obtain ⟨system, steady, rfl⟩ := cacheShaders_kept (motive := System.Steady library.system)
    (fun before cached => before.trans (.cacheShaders cached)) (.refl _) ran
  exact ⟨sound.onSystem steady, .of_slots rfl rfl⟩

end Sound

end Shading.Library
