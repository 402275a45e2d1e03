/-
The renderer as a mirror of the library. What it will have once all that is
queued has been carried out is what the library has: a resource for each that a
target owns, with the map it offers, and a proxy for each target. Every operation
of a library keeps it so, because each tells the renderer just what it has done.
-/

import Shading.Material.Update
import Shading.Proofs.Material.Permuting
import Shading.Proofs.Material.Staging

namespace Shading

namespace System

/-- A command about a proxy, or about nothing, leaves a system faithful. -/
theorem Faithful.tell {system : System} (faithful : system.Faithful) {command : RenderCommand}
    (elsewhere : command.resource? = none) : (system.enqueue command).Faithful := by
  refine faithful.enqueue rfl fun id => (RenderCommand.settle_other _ ?_).symm
  rw [elsewhere]
  exact (Option.some_ne_none id).symm

theorem cast_tell {system : System} (faithful : system.Faithful) (command : RenderCommand) :
    (system.enqueue command).renderer.cast = command.recast system.renderer.cast :=
  Renderer.cast_enqueue command faithful.here

theorem isSome_variantOf_varyAll (system : System) (ids : List ResourceId)
    (change : Variant → Variant) (id : ResourceId) :
    ((system.varyAll ids change).variantOf id).isSome = (system.variantOf id).isSome := by
  unfold varyAll
  induction ids generalizing system with
  | nil => rfl
  | cons first rest inductionHypothesis =>
    refine (inductionHypothesis _).trans ?_
    rw [variantOf_onResource]
    split
    · rename_i here
      rw [here]
      unfold variantOf
      rw [Option.isSome_map, Option.isSome_map]
    · rfl

theorem Serves.varyAll (system : System) (ids : List ResourceId) (change : Variant → Variant) :
    Serves system (system.varyAll ids change) :=
  List.foldlRecOn (motive := Serves system) ids _ (.refl system) fun _ before id _ =>
    before.trans (.of_quiet (.onResource _ id fun _ => rfl))

end System

namespace Library

variable {library middle next : Library} {target : Target} {role : Role} {resources : Materials}

/-! ### The stock of resources -/

/-- The resources that are there are those that targets own, each owned by one. -/
structure Stocked (library : Library) : Prop where
  numbered : ∀ id, (library.system.variantOf id).isSome →
    id.number < library.system.nextResource.number
  owned : ∀ id, (library.system.variantOf id).isSome ↔ ∃ target, library.Owns target id
  single : ∀ target other id, library.Owns target id → library.Owns other id → target = other

namespace Stocked

theorem congr (stocked : library.Stocked) (own : next.ownResources = library.ownResources)
    (known : ∀ id, (next.system.variantOf id).isSome = (library.system.variantOf id).isSome)
    (nextResource : next.system.nextResource = library.system.nextResource) : next.Stocked := by
  have owns : next.Owns = library.Owns := by
    funext target id
    unfold Owns
    rw [own]
  refine ⟨fun id there => ?_, fun id => ?_, owns ▸ stocked.single⟩
  · rw [nextResource]
    exact stocked.numbered id (known id ▸ there)
  · rw [known, owns]
    exact stocked.owned id

/-- A target gives up what it owned, and gets resources that are new. -/
theorem exchange (stocked : library.Stocked)
    (own : ∀ other, next.ownResources other =
      if other = target then resources else library.ownResources other)
    (numbers : library.system.nextResource.number ≤ next.system.nextResource.number)
    (present : ∀ id, (next.system.variantOf id).isSome ↔ (∃ tier, resources.get tier = some id) ∨
      (library.system.variantOf id).isSome ∧ ¬ library.Owns target id)
    (newer : ∀ tier id, resources.get tier = some id →
      library.system.nextResource.number ≤ id.number ∧
        id.number < next.system.nextResource.number) : next.Stocked := by
  have cases_ {other : Target} {id : ResourceId} : next.Owns other id ↔
      (other = target ∧ ∃ tier, resources.get tier = some id) ∨
        other ≠ target ∧ library.Owns other id := by
    unfold Owns
    rw [own]
    by_cases same : other = target
    · simp [same]
    · simp [same]
  have old {other : Target} {id : ResourceId} (owns : library.Owns other id) (tier : Tier) :
      resources.get tier ≠ some id := fun has =>
    Nat.not_lt_of_le (newer tier id has).1
      (stocked.numbered id ((stocked.owned id).mpr ⟨other, owns⟩))
  refine ⟨fun id there => ?_, fun id => ?_, fun first second id one two => ?_⟩
  · rcases (present id).mp there with ⟨tier, has⟩ | ⟨before, _⟩
    · exact (newer tier id has).2
    · exact Nat.lt_of_lt_of_le (stocked.numbered id before) numbers
  · rw [present, stocked.owned]
    simp only [cases_]
    constructor
    · rintro (new | ⟨⟨other, owns⟩, kept⟩)
      · exact ⟨target, .inl ⟨rfl, new⟩⟩
      · exact ⟨other, .inr ⟨fun same => kept (same ▸ owns), owns⟩⟩
    · rintro ⟨other, ⟨_, new⟩ | ⟨different, owns⟩⟩
      · exact .inl new
      · exact .inr ⟨⟨other, owns⟩, fun mine =>
          different (stocked.single other target id owns mine)⟩
  · rcases cases_.mp one with ⟨here, tier, has⟩ | ⟨_, left⟩ <;>
      rcases cases_.mp two with ⟨there, level, holds⟩ | ⟨_, right⟩
    · exact here.trans there.symm
    · exact absurd has (old right tier)
    · exact absurd holds (old left level)
    · exact stocked.single first second id left right

end Stocked

/-- Resources that have been made for a target that owned none, while it was not told so yet. -/
structure Provides (library : Library) (made : Materials × Library) : Prop where
  materials : made.2.materials = library.materials
  derived : made.2.derived = library.derived
  default : made.2.defaultMaterial = library.defaultMaterial
  serves : System.Serves library.system made.2.system
  numbers : library.system.nextResource.number ≤ made.2.system.nextResource.number
  newer : ∀ tier id, made.1.get tier = some id →
    library.system.nextResource.number ≤ id.number ∧
      id.number < made.2.system.nextResource.number
  present : (∀ id, (library.system.variantOf id).isSome →
      id.number < library.system.nextResource.number) → ∀ id,
    (made.2.system.variantOf id).isSome ↔
      (∃ tier, made.1.get tier = some id) ∨ (library.system.variantOf id).isSome

theorem provides_nothing (library : Library) : Provides library (.fill none, library) := by
  have nothing (tier : Tier) (id : ResourceId) :
      (PerTier.fill none : Materials).get tier ≠ some id := by
    rw [PerTier.get_fill]
    exact (Option.some_ne_none id).symm
  exact ⟨rfl, rfl, rfl, .refl _, Nat.le_refl _, fun tier id has => absurd has (nothing tier id),
    fun _ id => (or_iff_right fun ⟨tier, has⟩ => nothing tier id has).symm⟩

theorem serves_makeOne (owner : Target) (description : Description)
    (overrides : Option StaticParameters) (quality : Quality) (made : Materials × Library)
    (tier : Tier) : System.Serves made.2.system
      (makeOne owner description overrides quality made tier).2.system ∧
    (makeOne owner description overrides quality made tier).2.defaultMaterial =
      made.2.defaultMaterial := by
  refine ⟨?_, rfl⟩
  have added := System.Serves.addResource made.2.system ⟨description, overrides, quality, tier⟩
  unfold makeOne
  dsimp only
  split
  · exact added.trans (.dropResource _ _)
  · exact added

theorem provides_addResources (library : Library) (owner : Target) (description : Description)
    (overrides : Option StaticParameters) :
    Provides library (library.addResources owner description overrides) := by
  have makes := library.addResources_makes owner description overrides
  have folded : System.Serves library.system
      (library.addResources owner description overrides).2.system ∧
      (library.addResources owner description overrides).2.defaultMaterial =
        library.defaultMaterial :=
    List.foldlRecOn (motive := fun made : Materials × Library =>
        System.Serves library.system made.2.system ∧
          made.2.defaultMaterial = library.defaultMaterial) _ _ ⟨.refl _, rfl⟩
      fun made before tier _ => by
        have one := serves_makeOne owner description overrides
          library.system.settings.activeQuality made tier
        exact ⟨before.1.trans one.1, one.2.trans before.2⟩
  refine ⟨makes.materials, makes.derived, folded.2, folded.1, makes.numbers, makes.newer,
    fun numbered id => ?_⟩
  rcases Nat.lt_or_ge id.number library.system.nextResource.number with old | new
  · rw [makes.older id old]
    exact (or_iff_right fun ⟨tier, has⟩ =>
      Nat.not_lt_of_le (makes.newer tier id has).1 old).symm
  · have unknown : (library.system.variantOf id).isSome = false :=
      Bool.eq_false_iff.mpr fun there => Nat.not_lt_of_le new (numbered id there)
    rcases Nat.lt_or_ge id.number (library.addResources owner description
      overrides).2.system.nextResource.number with within | beyond
    · rw [makes.present id new within, unknown]
      exact (or_iff_left Bool.false_ne_true).symm
    · rw [makes.later id beyond]
      exact (or_iff_right fun ⟨tier, has⟩ =>
        Nat.not_lt_of_le beyond (makes.newer tier id has).2).symm

theorem provides_addPermutation {key : SlotKey} {made : Materials × Library}
    (ran : library.addPermutation key = .ok made) : Provides library made := by
  obtain ⟨described, _, ran⟩ := bind_eq_ok.mp ran
  cases described with
  | none =>
    cases ran
    exact provides_nothing library
  | some description =>
    cases ran
    exact provides_addResources ..

theorem serves_releaseResources (library : Library) (resources : Materials) :
    System.Serves library.system (library.releaseResources resources).system ∧
      (library.releaseResources resources).defaultMaterial = library.defaultMaterial :=
  List.foldlRecOn (motive := fun next : Library =>
      System.Serves library.system next.system ∧ next.defaultMaterial = library.defaultMaterial)
    _ _ ⟨.refl _, rfl⟩ fun _ before id _ =>
      ⟨before.1.trans ((System.Serves.releaseMap _ id).trans (.dropResource _ id)), before.2⟩

/-- What was released is not there any more, and all else is. -/
theorem Drops.isSome_variantOf_iff {ids : List ResourceId} (drops : Drops library ids next)
    (id : ResourceId) : (next.system.variantOf id).isSome ↔
      (library.system.variantOf id).isSome ∧ id ∉ ids := by
  by_cases member : id ∈ ids
  · rw [drops.gone id member]
    exact iff_of_false Bool.false_ne_true fun both => both.2 member
  · rw [drops.variants id member]
    exact (and_iff_left member).symm

/-- A target that owns nothing any more, after what it owned has been released. -/
theorem Stocked.release {left last : Library} (stocked : library.Stocked)
    (drops : Drops left (resources.toList.filterMap id) last)
    (system : left.system = library.system) (owned : library.ownResources target = resources)
    (own : ∀ other, next.ownResources other =
      if other = target then .fill none else library.ownResources other)
    (known : ∀ id, (next.system.variantOf id).isSome = (last.system.variantOf id).isSome)
    (nextResource : next.system.nextResource = last.system.nextResource) : next.Stocked := by
  have nothing (tier : Tier) (id : ResourceId) :
      (PerTier.fill none : Materials).get tier ≠ some id := by
    rw [PerTier.get_fill]
    exact (Option.some_ne_none id).symm
  refine stocked.exchange own ?_ (fun id => ?_) fun tier id has => absurd has (nothing tier id)
  · rw [nextResource, drops.nextResource, system]
  · unfold Owns
    rw [known, drops.isSome_variantOf_iff, system, mem_resources, owned]
    exact (or_iff_right fun ⟨tier, has⟩ => nothing tier id has).symm

/-! ### The mirror -/

/-- Once the renderer has carried out all that is queued, it will have what the library has. -/
structure Mirrored (library : Library) : Prop where
  faithful : library.system.Faithful
  staged : library.Staged
  stocked : library.Stocked

namespace Mirrored

/-- Work on maps, variants and results, which changes nothing else. -/
theorem onSystem {system : System} (mirrored : library.Mirrored)
    (serves : System.Serves library.system system)
    (known : ∀ id, (system.variantOf id).isSome = (library.system.variantOf id).isSome)
    (nextResource : system.nextResource = library.system.nextResource) :
    Mirrored { library with system } :=
  ⟨serves.faithful mirrored.faithful,
    mirrored.staged.congr (.of_slots rfl rfl) rfl
      (serves.cast mirrored.faithful) serves.nextProxy rfl,
    mirrored.stocked.congr rfl known nextResource⟩

theorem steadily {system : System} (mirrored : library.Mirrored)
    (serves : System.Serves library.system system)
    (steady : System.Steady library.system system) : Mirrored { library with system } :=
  mirrored.onSystem serves (fun id => by rw [steady.variantOf]) steady.nextResource

/-- Many resources are to be something else. -/
theorem varyAll (mirrored : library.Mirrored) (ids : List ResourceId)
    (change : Variant → Variant) :
    Mirrored { library with system := library.system.varyAll ids change } :=
  mirrored.onSystem (.varyAll ..) (System.isSome_variantOf_varyAll library.system ids change)
    (System.nextResource_varyAll ..)

theorem cacheShaders {ready : Bool} (mirrored : library.Mirrored)
    (ran : library.cacheShaders target = .ok (ready, next)) : next.Mirrored := by
  obtain ⟨system, ⟨serves, steady⟩, rfl⟩ := cacheShaders_kept
    (motive := fun next =>
      System.Serves library.system next ∧ System.Steady library.system next)
    (fun before cached =>
      ⟨before.1.trans (.either (System.Exchanges.cacheShaders_either cached)),
        before.2.trans (.cacheShaders cached)⟩)
    ⟨.refl _, .refl _⟩ ran
  exact mirrored.steadily serves steady

/-! ### Coming and going -/

/-- A target enters with the resources that have been made for it. -/
theorem enter {added : Library} {made : Materials × Library} {kind : ProxyKind}
    (mirrored : library.Mirrored) (plays : Plays library next target (some role))
    (unknown : ¬ library.Given target) (provides : Provides added made)
    (system : added.system = library.system.freshProxy.2)
    (default : added.defaultMaterial = library.defaultMaterial)
    (proxy : role.proxy = library.system.nextProxy) (owns : role.resources = made.1)
    (parameters : role.parameters = .empty) (suits : library.Suits role kind)
    (told : next.system = made.2.system.enqueue (.createProxy role.proxy kind))
    (same : next.defaultMaterial = made.2.defaultMaterial) : next.Mirrored := by
  have numbered : System.Serves library.system.freshProxy.2 made.2.system :=
    system ▸ provides.serves
  have start : library.system.freshProxy.2.Faithful := mirrored.faithful.congr rfl rfl
  have faithful := numbered.faithful start
  have own (other : Target) : next.ownResources other =
      if other = target then made.1 else library.ownResources other := by
    rw [plays.ownResources, Option.map_some, owns, Option.getD_some]
  have nothing (id : ResourceId) : ¬ library.Owns target id := by
    rintro ⟨tier, has⟩
    rw [ownResources_eq, mirrored.staged.role?_of_unknown unknown, Option.map_none,
      Option.getD_none, PerTier.get_fill] at has
    cases has
  refine ⟨told ▸ faithful.tell rfl, ?_, ?_⟩
  · refine mirrored.staged.enter plays unknown proxy ?_ suits parameters ?_
      (same.trans (provides.default.trans default))
    · rw [told]
      exact numbered.nextProxy
    · rw [told, System.cast_tell faithful, numbered.cast start]
      rfl
  · refine mirrored.stocked.exchange own ?_ (fun id => ?_) ?_
    · rw [told]
      have numbers := provides.numbers
      rw [system] at numbers
      exact numbers
    · rw [told]
      have present := provides.present (by rw [system]; exact mirrored.stocked.numbered) id
      rw [system] at present
      exact present.trans (or_congr_right (and_iff_left (nothing id)).symm)
    · have newer := provides.newer
      rw [system] at newer
      rw [told]
      exact newer

/-- A target leaves, and its resources are released. -/
theorem leave {left : Library} (mirrored : library.Mirrored)
    (found : library.role? target = some role) (plays : Plays library next target none)
    (told : next.system =
      (left.releaseResources role.resources).system.enqueue (.removeProxy role.proxy))
    (system : left.system = library.system)
    (default : next.defaultMaterial =
      if library.defaultMaterial.map Target.material = some target then none
      else library.defaultMaterial) : next.Mirrored := by
  have serves : System.Serves library.system (left.releaseResources role.resources).system :=
    system ▸ (serves_releaseResources left role.resources).1
  have drops := releaseResources_drops left role.resources
  have faithful := serves.faithful mirrored.faithful
  have mine : library.ownResources target = role.resources := by
    rw [ownResources_eq, found]
    rfl
  refine ⟨told ▸ faithful.tell rfl, ?_, ?_⟩
  · refine mirrored.staged.leave found plays ?_ ?_ default
    · rw [told]
      exact serves.nextProxy
    · rw [told, System.cast_tell faithful, serves.cast mirrored.faithful]
  · exact mirrored.stocked.release drops system mine plays.ownResources
      (fun id => by rw [told]; rfl) (by rw [told]; rfl)

/-- A target exchanges its resources for others. -/
theorem exchange {system : System} (mirrored : library.Mirrored)
    (found : library.role? target = some role)
    (plays : Plays library next target (some { role with resources }))
    (serves : System.Serves library.system system)
    (told : next.system = system.enqueue (.setMaterials role.proxy resources))
    (default : next.defaultMaterial = library.defaultMaterial) (stocked : next.Stocked) :
    next.Mirrored := by
  have faithful := serves.faithful mirrored.faithful
  have recast : next.system.renderer.cast = library.system.renderer.cast.change role.proxy
      fun owner => { owner with kind := owner.kind.withMaterials resources } := by
    rw [told, System.cast_tell faithful, serves.cast mirrored.faithful]
    rfl
  exact ⟨told ▸ faithful.tell rfl, mirrored.staged.rewrite found plays
    (told ▸ serves.nextProxy) recast (fun kind _ => rfl) default, stocked⟩

/-- Other parameters for a target. -/
theorem reparameter {parameters : Table String ParameterValue} {command : RenderCommand}
    {change : RenderProxy → RenderProxy} (mirrored : library.Mirrored)
    (found : library.role? target = some role)
    (plays : Plays library next target (some { role with parameters }))
    (elsewhere : command.resource? = none)
    (recasts : ∀ cast, command.recast cast = cast.change role.proxy change)
    (changes : ∀ kind, change { kind, overrides := role.parameters } =
      { kind, overrides := parameters })
    (told : next.system = library.system.enqueue command)
    (default : next.defaultMaterial = library.defaultMaterial) : next.Mirrored := by
  have own : next.ownResources = library.ownResources := by
    funext other
    rw [plays.ownResources]
    split
    · rename_i same
      rw [same, ownResources_eq, found]
      rfl
    · rfl
  refine ⟨told ▸ mirrored.faithful.tell elsewhere, ?_,
    mirrored.stocked.congr own (fun id => by rw [told]; rfl) (by rw [told]; rfl)⟩
  have recast : next.system.renderer.cast =
      library.system.renderer.cast.change role.proxy change := by
    rw [told, System.cast_tell mirrored.faithful, recasts]
  refine mirrored.staged.rewrite found plays (by rw [told]; rfl) recast
    (fun kind depicts => ?_) default
  rw [changes, depicts.withMaterials_self]

/-- A command that is neither about a resource nor about what the proxies are. -/
theorem enqueue {command : RenderCommand} (mirrored : library.Mirrored)
    (elsewhere : command.resource? = none) (idle : ∀ cast, command.recast cast = cast) :
    (library.enqueue command).Mirrored := by
  refine ⟨mirrored.faithful.tell elsewhere, ?_, mirrored.stocked.congr rfl (fun _ => rfl) rfl⟩
  refine mirrored.staged.congr (.of_slots rfl rfl) rfl ?_ rfl rfl
  exact (System.cast_tell mirrored.faithful command).trans (idle _)

/-! ### Materials -/

theorem role?_cacheShaders {ready : Bool}
    (ran : library.cacheShaders target = .ok (ready, next)) : next.role? = library.role? := by
  obtain ⟨system, _, rfl⟩ := cacheShaders_kept (motive := fun _ => True)
    (fun _ _ => trivial) trivial ran
  rfl

theorem addMaterial {description : Description} {key : SlotKey} (mirrored : library.Mirrored)
    (ran : library.addMaterial description = .ok (key, next)) :
    next.Mirrored ∧ (next.role? (.material key)).isSome := by
  obtain ⟨⟨ready, cached⟩, caching, ran⟩ := bind_eq_ok.mp ran
  cases ran
  let material : Material := { description, proxy := library.system.nextProxy }
  let added : Library :=
    { library with
      system := library.system.freshProxy.2
      materials := (library.materials.insert material).2 }
  let made := added.addResources (.material library.materials.nextKey) description none
  let placed : Library :=
    { made.2.enqueue (.createProxy material.proxy (.material made.1)) with
      materials := made.2.materials.modify library.materials.nextKey fun material =>
        { material with resources := made.1 } }
  have caching : placed.cacheShaders (.material library.materials.nextKey) = .ok (ready, next) :=
    caching
  have provides : Provides added made := provides_addResources ..
  have modified : (library.materials.insert material).2.SameKeys placed.materials := by
    show Slots.SameKeys _ (made.2.materials.modify library.materials.nextKey _)
    rw [provides.materials]
    exact .modify ..
  have entries (other : SlotKey) : placed.materials.get? other =
      if other = library.materials.nextKey then some { material with resources := made.1 }
      else library.materials.get? other := by
    show (made.2.materials.modify library.materials.nextKey _).get? other = _
    rw [Slots.get?_modify, provides.materials, Slots.get?_insert, Slots.get?_insert, if_pos rfl]
    split <;> rfl
  have derived : placed.derived = library.derived := provides.derived
  have plays := Plays.of_materials derived
    (fun before => modified.orderly (before.insert material))
    (fun _ before => modified.given (before.insert material)) entries
  have unknown : ¬ library.Given (.material library.materials.nextKey) :=
    fun given => given.ne_nextKey rfl
  refine ⟨Mirrored.cacheShaders ?_ caching, ?_⟩
  · exact mirrored.enter plays unknown provides rfl rfl rfl rfl rfl rfl rfl rfl
  · rw [role?_cacheShaders caching, plays.here]
    rfl

theorem setDefaultMaterial {description : Description} {key : SlotKey}
    (mirrored : library.Mirrored)
    (ran : library.setDefaultMaterial description = .ok (key, next)) : next.Mirrored := by
  obtain ⟨⟨added, after⟩, adding, ran⟩ := bind_eq_ok.mp ran
  cases ran
  obtain ⟨before, there⟩ := mirrored.addMaterial adding
  obtain ⟨role, found⟩ := Option.isSome_iff_exists.mp there
  have live := proxy?_of_role? found
  rw [live]
  let told := after.enqueue (.setDefault role.proxy)
  have recast : told.system.renderer.cast =
      RenderCommand.recast after.system.renderer.cast (.setDefault role.proxy) :=
    System.cast_tell before.faithful _
  have staged : Staged { told with defaultMaterial := some key } := by
    refine before.staged.redefault (.of_slots rfl rfl) rfl ?_ rfl ?_ ?_
    · show told.system.renderer.cast.proxies = _
      rw [recast]
      rfl
    · show told.system.renderer.cast.default = _
      rw [recast]
      exact live.symm
    · rintro _ ⟨⟩
      rw [live]
      rfl
  exact ⟨before.faithful.tell rfl, staged, before.stocked.congr rfl (fun _ => rfl) rfl⟩

theorem replaceDescription {description : Description} {key : SlotKey}
    (mirrored : library.Mirrored)
    (ran : library.replaceDescription key description = .ok next) : next.Mirrored := by
  obtain ⟨material, found, rfl⟩ := replaceDescription_cases ran
  generalize { description with isDefault := material.description.isDefault } = description
  have varied := mirrored.varyAll (material.resources.toList.filterMap id)
    fun variant => { variant with description }
  have roles (other : Target) : role? { library with
      materials := library.materials.modify key fun material => { material with description } }
        other = library.role? other := by
    cases other with
    | material other =>
      show ((library.materials.modify key _).get? other).map _ = _
      rw [Slots.get?_modify]
      split
      · rename_i same
        rw [same, Option.map_map]
        rfl
      · rfl
    | derived => rfl
  refine ⟨varied.faithful, varied.staged.congr ?_ (funext roles) rfl rfl rfl,
    varied.stocked.congr (funext fun other => ?_) (fun _ => rfl) rfl⟩
  · have same := Slots.SameKeys.modify library.materials key
      fun material => { material with description }
    exact .of_materials rfl same.orderly fun _ => same.given
  · rw [ownResources_eq, ownResources_eq]
    exact congrArg (fun role => (Option.map Role.resources role).getD _) (roles other)

theorem removeMaterial (mirrored : library.Mirrored) (key : SlotKey) :
    (library.removeMaterial key).Mirrored := by
  have gone : library.materials.get? key = none → library.defaultMaterial ≠ some key :=
    fun missing is => by
      have there := mirrored.staged.standing key is
      rw [proxy?, missing] at there
      cases there
  cases found : library.materials.get? key with
  | none =>
    have same : library.relieved key = library := by
      unfold relieved
      rw [if_neg (gone found)]
    rw [removeMaterial_of_missing found, same]
    exact mirrored
  | some material =>
    rw [removeMaterial_of_found found]
    let without : Library := { library.relieved key with
      materials := library.materials.erase key }
    let next := (without.releaseResources material.resources).enqueue (.removeProxy material.proxy)
    have drops := releaseResources_drops without material.resources
    have erased : next.materials = library.materials.erase key := drops.materials
    have kept : next.derived = library.derived := drops.derived
    have there : library.role? (.material key) = some material.role :=
      congrArg (Option.map Material.role) found
    have entries (other : SlotKey) : next.materials.get? other =
        if other = key then none else library.materials.get? other := by
      rw [erased, Slots.get?_erase]
    have plays := Plays.of_materials kept (fun before => erased ▸ before.erase key)
      (fun _ before => erased ▸ before.erase key) entries
    have told : next.system = (without.releaseResources material.role.resources).system.enqueue
      (.removeProxy material.role.proxy) := rfl
    refine mirrored.leave there plays told rfl ?_
    refine (serves_releaseResources without material.resources).2.trans ?_
    refine if_congr ?_ rfl rfl
    cases library.defaultMaterial <;> simp

/-! ### Instances -/

/-- An instance enters with the resources that have been made for it, if any. -/
theorem enterInstance (mirrored : library.Mirrored) (entry : MaterialInstance) {above : ProxyId}
    {made : Materials × Library} (live : library.proxy? entry.parent = some above)
    (proxy : entry.proxy = library.system.nextProxy) (parameters : entry.parameters = .empty)
    (provides : Provides { library with
      system := library.system.freshProxy.2, derived := (library.derived.insert entry).2 } made) :
    ((made.2.enqueue (.createProxy entry.proxy (.derived above made.1))).setResources
      library.derived.nextKey made.1).Mirrored := by
  let next := (made.2.enqueue (.createProxy entry.proxy (.derived above made.1))).setResources
    library.derived.nextKey made.1
  have materials : next.materials = library.materials := provides.materials
  have modified : (library.derived.insert entry).2.SameKeys next.derived := by
    show Slots.SameKeys _ (made.2.derived.modify library.derived.nextKey _)
    rw [provides.derived]
    exact .modify ..
  have entries (other : SlotKey) : next.derived.get? other =
      if other = library.derived.nextKey then some { entry with resources := made.1 }
      else library.derived.get? other := by
    show (made.2.derived.modify library.derived.nextKey _).get? other = _
    rw [Slots.get?_modify, provides.derived, Slots.get?_insert, Slots.get?_insert, if_pos rfl]
    split <;> rfl
  have plays := Plays.of_derived materials
    (fun before => modified.orderly (before.insert entry))
    (fun _ before => modified.given (before.insert entry)) entries
  have unknown : ¬ library.Given (.derived library.derived.nextKey) :=
    fun given => given.ne_nextKey rfl
  exact mirrored.enter plays unknown provides rfl rfl proxy rfl parameters ⟨above, live, rfl⟩ rfl
    rfl

theorem addInstance {parent : Target} {overrides : StaticParameters}
    {result : Except Failure SlotKey} (mirrored : library.Mirrored)
    (ran : library.addInstance parent overrides = .ok (result, next)) : next.Mirrored := by
  let entry : MaterialInstance := { parent, overrides, proxy := library.system.nextProxy }
  cases enrolls ran with
  | orphan => exact mirrored
  | equipped live _ permuted caching =>
    have entered := mirrored.enterInstance entry live rfl rfl (provides_addPermutation permuted)
    exact entered.cacheShaders caching
  | bare live => exact mirrored.enterInstance entry live rfl rfl (provides_nothing _)

theorem removeInstance (mirrored : library.Mirrored) (key : SlotKey) :
    (library.removeInstance key).Mirrored := by
  unfold Library.removeInstance
  split
  · exact mirrored
  · rename_i entry found
    let without : Library := { library with derived := library.derived.erase key }
    let next := (without.releaseResources entry.resources).enqueue (.removeProxy entry.proxy)
    have drops := releaseResources_drops without entry.resources
    have erased : next.derived = library.derived.erase key := drops.derived
    have kept : next.materials = library.materials := drops.materials
    have there : library.role? (.derived key) = some entry.role :=
      congrArg (Option.map MaterialInstance.role) found
    have entries (other : SlotKey) : next.derived.get? other =
        if other = key then none else library.derived.get? other := by
      rw [erased, Slots.get?_erase]
    have plays := Plays.of_derived kept (fun before => erased ▸ before.erase key)
      (fun _ before => erased ▸ before.erase key) entries
    have told : next.system = (without.releaseResources entry.role.resources).system.enqueue
      (.removeProxy entry.role.proxy) := rfl
    refine mirrored.leave there plays told rfl ?_
    refine (serves_releaseResources without entry.resources).2.trans (if_neg ?_).symm
    cases library.defaultMaterial <;> exact fun same => nomatch same

/-- An instance exchanges its resources for others, those it had having been seen to. -/
theorem exchangeInstance {key : SlotKey} {entry : MaterialInstance} (mirrored : library.Mirrored)
    (found : library.derived.get? key = some entry)
    (materials : middle.materials = library.materials)
    (derived : library.derived.SameKeys middle.derived)
    (entries : ∀ other, (middle.derived.get? other).map ({ · with resources }) =
      (library.derived.get? other).map fun found : MaterialInstance => { found with resources })
    (others : ∀ other, other ≠ key → middle.derived.get? other = library.derived.get? other)
    (default : middle.defaultMaterial = library.defaultMaterial)
    (serves : System.Serves library.system middle.system)
    (stocked : (∀ other, (middle.exchangeResources key entry.proxy resources).ownResources other =
        if other = .derived key then resources else library.ownResources other) →
      (middle.exchangeResources key entry.proxy resources).Stocked) :
    (middle.exchangeResources key entry.proxy resources).Mirrored := by
  let next := middle.exchangeResources key entry.proxy resources
  have there : library.role? (.derived key) = some entry.role :=
    congrArg (Option.map MaterialInstance.role) found
  have modified := Slots.SameKeys.modify middle.derived key
    fun found : MaterialInstance => { found with resources }
  have written (other : SlotKey) : next.derived.get? other =
      if other = key then some { entry with resources } else library.derived.get? other := by
    show (middle.derived.modify key _).get? other = _
    rw [Slots.get?_modify]
    split
    · exact (entries key).trans (congrArg (Option.map _) found)
    · rename_i different
      exact others other different
  have kept : next.materials = library.materials := materials
  have plays := Plays.of_derived kept (fun before => modified.orderly (derived.orderly before))
    (fun _ before => modified.given (derived.given before)) written
  exact mirrored.exchange there plays serves rfl default (stocked plays.ownResources)

theorem syncPermutation {key : SlotKey} {needed : Bool} (mirrored : library.Mirrored)
    (ran : library.syncPermutation key = .ok (needed, next)) : next.Mirrored := by
  cases synced ran with
  | missing | spared => exact mirrored
  | @refreshed _ description _ _ _ _ =>
    exact mirrored.varyAll _ fun variant => { variant with description, overrides := some _ }
  | equipped found bare _ permuted =>
    have provides := provides_addPermutation permuted
    refine mirrored.exchangeInstance found provides.materials (provides.derived ▸ .refl _)
      (fun other => by rw [provides.derived]) (fun other _ => by rw [provides.derived])
      provides.default provides.serves fun own =>
        mirrored.stocked.exchange own provides.numbers (fun id => ?_) provides.newer
    refine (provides.present mirrored.stocked.numbered id).trans
      (or_congr_right (and_iff_left ?_).symm)
    rintro ⟨tier, has⟩
    rw [ownResources_derived found, eq_fill_none bare, PerTier.get_fill] at has
    cases has
  | @bereft entry found _ _ =>
    have drops := releaseResources_drops (library.setResources key (.fill none)) entry.resources
    have releases := serves_releaseResources (library.setResources key (.fill none))
      entry.resources
    refine mirrored.exchangeInstance found drops.materials ?_ (fun other => ?_)
      (fun other different => ?_) releases.2 releases.1 fun own =>
        mirrored.stocked.release drops rfl (ownResources_derived found) own (fun _ => rfl) rfl
    · rw [drops.derived]
      exact .modify ..
    · rw [drops.derived]
      show ((library.derived.modify key _).get? other).map _ = _
      rw [Slots.get?_modify]
      split
      · rename_i same
        rw [same, Option.map_map]
        rfl
      · rfl
    · rw [drops.derived]
      exact (Slots.get?_modify ..).trans (if_neg different)

end Mirrored

end Library

end Shading
