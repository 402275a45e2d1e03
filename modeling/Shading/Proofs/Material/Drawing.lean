/-
What a target is drawn with. Whatever has been done to a library, each target
whose base material is there is drawn on every active tier with a resource for
the description its base material has now, and with the overrides of its chain,
of which the nearest decides. An instance can outlive its base material; it still
names that one as its base, but has nothing to be drawn with.
-/

import Mathlib
import Shading.Proofs.Material.Committing

namespace Shading.Library

/-! ### What can have happened -/

/-- What others may do to the system meanwhile: anything that is not about the settings or the
resources of this library. -/
structure Beside (library : Library) (system : System) : Prop where
  settings : system.settings = library.system.settings
  numbers : library.system.nextResource.number ≤ system.nextResource.number
  variants : ∀ target id, library.Owns target id →
    system.variantOf id = library.system.variantOf id

/-- A batch that is put together: targets are added to it, and materials are edited in it. -/
inductive Gathers (library : Library) : List Target → Library → Prop where
  | begin : Gathers library [] library
  | beside {targets next} (system : System) : Gathers library targets next →
    Beside next system → Gathers library targets { next with system }
  | add {targets next} (target : Target) : Gathers library targets next →
    Gathers library (Manager.addOnce targets target) next
  | edit {targets middle next key description} : Gathers library targets middle →
    middle.replaceDescription key description = .ok next →
    Gathers library (Manager.addOnce targets (.material key)) next

/-- What can have happened to a library. Descriptions are edited in batches only. -/
inductive Reached : Library → Prop where
  | start (system : System) : Reached { system }
  | beside {library} (system : System) : Reached library → Beside library system →
    Reached { library with system }
  | addMaterial {library next key description} : Reached library →
    library.addMaterial description = .ok (key, next) → Reached next
  | setDefaultMaterial {library next key description} : Reached library →
    library.setDefaultMaterial description = .ok (key, next) → Reached next
  | removeMaterial {library} (key : SlotKey) : Reached library →
    Reached (library.removeMaterial key)
  | addInstance {library next parent overrides result} : Reached library →
    overrides.Sorted → library.addInstance parent overrides = .ok (result, next) → Reached next
  | removeInstance {library} (key : SlotKey) : Reached library →
    Reached (library.removeInstance key)
  | setParameter {library next target name value} : Reached library →
    library.setParameter target name value = .ok next → Reached next
  | clearParameter {library next target name} : Reached library →
    library.clearParameter target name = .ok next → Reached next
  | cacheShaders {library next target ready} : Reached library →
    library.cacheShaders target = .ok (ready, next) → Reached next
  | processResults {library next count} : Reached library →
    library.processResults = .ok (count, next) → Reached next
  | finishAll {library next count} : Reached library →
    library.finishAll = .ok (count, next) → Reached next
  | update {library first batch next targets options} : Reached library →
    library.flushIf options.synchronous = .ok first → Gathers first targets batch →
    batch.commit options targets = .ok next → Reached next

/-! ### All fit -/

variable {library next : Library} {targets : List Target} {target : Target}
  {key base : SlotKey} {stack : List StaticParameters} {tier : Tier}

theorem sound_start (system : System) : Sound (fun _ => False) { system } where
  materials := Slots.orderly_empty
  derived := Slots.orderly_empty
  rooted := fun _ _ _ step => nomatch step
  sorted := fun _ _ _ step => nomatch step
  allotted := by
    have nothing (target : Target) (id : ResourceId) : ¬ Owns { system } target id := by
      rintro ⟨tier, has⟩
      have bare : ownResources { system } target = .fill none := by cases target <;> rfl
      rw [bare, PerTier.get_fill] at has
      cases has
    exact ⟨fun target id owns => absurd owns (nothing target id),
      fun target _ id owns => absurd owns (nothing target id)⟩
  supplied := fun _ _ described => nomatch described
  stocked := fun _ live => nomatch live
  fits := fun _ _ _ _ _ _ _ step => nomatch step

theorem Sound.beside {pending : SlotKey → Prop} {system : System} (sound : Sound pending library)
    (beside : Beside library system) : Sound pending { library with system } :=
  sound.congr (.of_slots rfl rfl) (ownResources_of_slots rfl rfl) beside.settings beside.numbers
    beside.variants

/-- While a batch is put together, only those may not fit that derive from a material in it. -/
theorem Gathers.sound (gathers : Gathers library targets next)
    (start : Sound (fun _ => False) library) :
    Sound (fun key => ∃ base stack, .material base ∈ targets ∧
      next.lineage.Derives (.derived key) stack base) next := by
  induction gathers with
  | begin => exact start.weaken fun _ _ held => held.elim
  | beside _ _ beside inductionHypothesis => exact inductionHypothesis.beside beside
  | add target _ inductionHypothesis =>
    refine inductionHypothesis.weaken fun key free ⟨base, stack, member, derives⟩ => ?_
    exact absurd ⟨base, stack, Manager.mem_addOnce.mpr (.inl member), derives⟩ free
  | edit _ ran inductionHypothesis =>
    obtain ⟨holds, lineage⟩ := inductionHypothesis.replaceDescription ran
    refine holds.weaken fun key free held => absurd ?_ free
    rw [lineage]
    rcases held with ⟨base, stack, member, derives⟩ | ⟨stack, derives⟩
    · exact ⟨base, stack, Manager.mem_addOnce.mpr (.inl member), derives⟩
    · exact ⟨_, stack, Manager.mem_addOnce.mpr (.inr rfl), derives⟩

theorem Reached.sound (reached : Reached library) : Sound (fun _ => False) library := by
  induction reached with
  | start system => exact sound_start system
  | beside _ _ beside inductionHypothesis => exact inductionHypothesis.beside beside
  | addMaterial _ ran inductionHypothesis => exact inductionHypothesis.addMaterial ran
  | setDefaultMaterial _ ran inductionHypothesis => exact inductionHypothesis.setDefaultMaterial ran
  | removeMaterial key _ inductionHypothesis => exact inductionHypothesis.removeMaterial key
  | addInstance _ sorted ran inductionHypothesis => exact inductionHypothesis.addInstance sorted ran
  | removeInstance key _ inductionHypothesis => exact inductionHypothesis.removeInstance key
  | setParameter _ ran inductionHypothesis => exact inductionHypothesis.setParameter ran
  | clearParameter _ ran inductionHypothesis => exact inductionHypothesis.clearParameter ran
  | cacheShaders _ ran inductionHypothesis => exact (inductionHypothesis.cacheShaders ran).1
  | processResults _ ran inductionHypothesis => exact inductionHypothesis.processResults ran
  | finishAll _ ran inductionHypothesis => exact inductionHypothesis.finishAll ran
  | update _ flushed gathers ran inductionHypothesis =>
    exact (gathers.sound (inductionHypothesis.flushIf flushed)).commit (fun _ held => held) ran

/-! ### What a target is drawn with -/

/-- Down a chain each target either has a resource of its own for the overrides so far, or its
own overrides change nothing. -/
theorem Sound.resource_of_derives (sound : Sound (fun _ => False) library)
    (derives : library.lineage.Derives target stack base) {description : Description}
    (described : library.descriptionOf base = some description)
    (active : tier ∈ library.system.settings.activeTiers) :
    ∃ id variant, library.resource target tier = some id ∧
      library.system.variantOf id = some variant ∧ variant.tier = tier ∧
      variant.description = description ∧
      variant.parameters = description.effectiveParameters (some (.stacked stack)) := by
  induction derives with
  | material base =>
    obtain ⟨id, variant, has, is, level, same, plain⟩ :=
      sound.supplied base description described tier active
    refine ⟨id, variant, (library.resource_material base tier).trans has, is, level, same, ?_⟩
    unfold Variant.parameters
    rw [plain, same]
    rfl
  | derived step rest inductionHypothesis =>
    rename_i key parent overrides stack base
    obtain ⟨found, there, rfl, rfl⟩ := lineage_eq_some.mp step
    rw [resource_derived there rest, ← ownResources_derived there]
    rcases sound.fits key id found.parent found.overrides stack base description step rest
      described with supplies | ⟨nothing, changeless⟩
    · obtain ⟨id, variant, has, is, level, same, overridden⟩ := supplies tier active
      refine ⟨id, variant, by rw [has]; rfl, is, level, same, ?_⟩
      unfold Variant.parameters
      rw [overridden, same]
    · obtain ⟨id, variant, has, is, level, same, parameters⟩ := inductionHypothesis described
      refine ⟨id, variant, ?_, is, level, same, parameters.trans ?_⟩
      · rw [nothing, PerTier.get_fill]
        exact has
      · show _ = description.staticParameters.mergedWith _
        rw [StaticParameters.stacked_cons, StaticParameters.mergedWith_mergedWith _
          (StaticParameters.sorted_stacked stack)]
        exact changeless.symm

theorem Sound.sorted_of_derives {pending : SlotKey → Prop} (sound : Sound pending library)
    (derives : library.lineage.Derives target stack base) : ∀ set ∈ stack, set.Sorted := by
  induction derives with
  | material => exact fun _ member => nomatch member
  | derived step _ inductionHypothesis =>
    intro set member
    rcases List.mem_cons.mp member with rfl | member
    · exact sound.sorted _ _ _ step
    · exact inductionHypothesis set member

/-- A target whose base material is there is drawn on each active tier, with the description of
its base material and the static parameters of its chain. -/
theorem Reached.resource_effective (reached : Reached library) {material : Material}
    (rooted : library.baseMaterial target = some base)
    (there : library.materials.get? base = some material)
    (active : tier ∈ library.system.settings.activeTiers) :
    ∃ id resource, library.resource target tier = some id ∧
      library.system.resources.get? id = some resource ∧
      resource.variant.tier = tier ∧
      resource.variant.description = material.description ∧
      resource.variant.parameters =
        material.description.staticParameters.mergedWith (library.effectiveOverrides target) ∧
      ∀ name, resource.variant.parameters.get? name =
        ((library.chain target).1.findSome? fun found => found.overrides.get? name).or
          (material.description.staticParameters.get? name) := by
  have sound := reached.sound
  obtain ⟨stack, derives⟩ := baseMaterial_eq_some.mp rooted
  obtain ⟨id, variant, drawn, is, level, same, parameters⟩ := sound.resource_of_derives derives
    (descriptionOf_eq_some.mpr ⟨material, there, rfl⟩) active
  obtain ⟨resource, found, rfl⟩ := Option.map_eq_some_iff.mp is
  rw [effectiveOverrides_of_derives derives]
  refine ⟨id, resource, drawn, found, level, same, parameters, fun name => ?_⟩
  rw [parameters]
  obtain ⟨instances, overrides, chain⟩ := chain_of_derives derives
  have sorted := sound.sorted_of_derives derives
  show (material.description.staticParameters.mergedWith _).get? name = _
  rw [StaticParameters.get?_mergedWith _ (StaticParameters.sorted_stacked stack),
    StaticParameters.get?_stacked sorted, chain, ← overrides, List.findSome?_map]
  rfl

/-- An empty library that compiles at once. -/
def bare : Library := { system := { settings := { allowsAsyncCompilation := false } } }

/-- A description with a switch. -/
def switched (on : Bool) : Description :=
  { (default : Description) with staticParameters := .ofSwitches [("Detail", on)] }

/-- An instance turns the switch of its material on; when the material is edited the instance is
drawn with what was edited, and still with the switch on. -/
theorem edited_resource_effective : ∃ library key base id resource, Reached library ∧
    library.baseMaterial (.derived key) = some base ∧
    library.resource (.derived key) .desktop = some id ∧
    library.system.resources.get? id = some resource ∧
    resource.variant.description = { switched false with twoSided := true } ∧
    resource.variant.parameters = .ofSwitches [("Detail", true)] := by
  have run : (bare.addMaterial (switched false)).toOption.bind (fun added =>
      (added.2.addInstance (.material added.1) (.ofSwitches [("Detail", true)])).toOption.bind
        fun made => made.1.toOption.bind fun key =>
          (made.2.replaceDescription added.1 { switched false with twoSided := true }).toOption.bind
            fun batch => (batch.commit {} [.material added.1]).toOption.bind fun library =>
              (library.baseMaterial (.derived key)).bind fun base =>
                (library.materials.get? base).map fun material => (material.description,
                  library.effectiveOverrides (.derived key),
                  library.system.settings.activeTiers)) =
      some ({ switched false with twoSided := true }, .ofSwitches [("Detail", true)],
        [.desktop]) := by
    cbv
  obtain ⟨added, adding, run⟩ := Option.bind_eq_some_iff.mp run
  obtain ⟨⟨result, made⟩, making, run⟩ := Option.bind_eq_some_iff.mp run
  obtain ⟨key, _, run⟩ := Option.bind_eq_some_iff.mp run
  obtain ⟨batch, editing, run⟩ := Option.bind_eq_some_iff.mp run
  obtain ⟨library, committed, run⟩ := Option.bind_eq_some_iff.mp run
  obtain ⟨base, rooted, run⟩ := Option.bind_eq_some_iff.mp run
  obtain ⟨material, there, same⟩ := Option.map_eq_some_iff.mp run
  obtain ⟨described, overrides, tiers⟩ := by simpa only [Prod.mk.injEq] using same
  have reached : Reached library :=
    (((Reached.start bare.system).addMaterial (toOption_eq_some.mp adding)).addInstance
      (by decide) (toOption_eq_some.mp making)).update rfl
      (.edit .begin (toOption_eq_some.mp editing)) (toOption_eq_some.mp committed)
  have active : Tier.desktop ∈ library.system.settings.activeTiers := by
    rw [tiers]
    exact List.mem_singleton.mpr rfl
  obtain ⟨id, resource, drawn, found, _, is, parameters, _⟩ :=
    reached.resource_effective rooted there active
  refine ⟨library, key, base, id, resource, reached, rooted, drawn, found, is.trans described, ?_⟩
  rw [parameters, described, overrides]
  rfl

/-- An instance of a material that was removed names it as its base, and has no resource. -/
theorem orphan_without_resource : ∃ library key base, Reached library ∧
    library.baseMaterial (.derived key) = some base ∧
    .desktop ∈ library.system.settings.activeTiers ∧
    library.resource (.derived key) .desktop = none := by
  have run : (bare.addMaterial default).toOption.bind (fun added =>
      (added.2.addInstance (.material added.1) .empty).toOption.bind fun made =>
        made.1.toOption.map fun key =>
          let library := made.2.removeMaterial added.1
          (library.baseMaterial (.derived key), library.system.settings.activeTiers,
            library.resource (.derived key) .desktop)) =
      some (some ⟨1, 1⟩, [.desktop], none) := by
    cbv
  obtain ⟨added, adding, run⟩ := Option.bind_eq_some_iff.mp run
  obtain ⟨⟨result, made⟩, making, run⟩ := Option.bind_eq_some_iff.mp run
  obtain ⟨key, _, same⟩ := Option.map_eq_some_iff.mp run
  obtain ⟨rooted, tiers, nothing⟩ := by simpa only [Prod.mk.injEq] using same
  have reached := ((Reached.start bare.system).addMaterial (toOption_eq_some.mp adding)).addInstance
    (by decide) (toOption_eq_some.mp making)
  exact ⟨_, key, _, reached.removeMaterial added.1, rooted,
    by rw [tiers]; exact List.mem_singleton.mpr rfl, nothing⟩

end Shading.Library
