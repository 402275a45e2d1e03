/-
Upholding the default material. Nothing that a library does to others or to its
default material itself, except to remove it, is about the resources of that
material but for new maps. So from one order to the next it stays the same, and
all that its proxy needs to stand in for the rest is spared.
-/

import Shading.Proofs.Material.Reflecting
import Shading.Proofs.Material.Sparing

namespace Shading

namespace Library

variable {start library middle next : Library} {proxy : ProxyId} {materials : Materials}
  {removing : Option ProxyId} {target : Target}

/-! ### The default material -/

/-- The default material of a library, with its proxy and its resources. -/
def Presents (library : Library) (proxy : ProxyId) (materials : Materials) : Prop :=
  ∃ key material, library.defaultMaterial = some key ∧
    library.materials.get? key = some material ∧ material.proxy = proxy ∧
    material.resources = materials ∧ material.description.isDefault

/-- Since some time the default material has been the same, and what it needs to stand in for the
rest has been spared. -/
structure Upheld (start library : Library) (proxy : ProxyId) (materials : Materials) : Prop where
  mirrored : library.Mirrored
  presents : library.Presents proxy materials
  spared : System.Spared proxy materials start.system library.system

namespace Presents

theorem congr (presents : library.Presents proxy materials)
    (same : next.materials = library.materials)
    (default : next.defaultMaterial = library.defaultMaterial) : next.Presents proxy materials := by
  unfold Presents
  rw [same, default]
  exact presents

/-- The material is changed, but not in what matters. -/
theorem modify (presents : library.Presents proxy materials) {key : SlotKey}
    {change : Material → Material} (same : next.materials = library.materials.modify key change)
    (default : next.defaultMaterial = library.defaultMaterial)
    (keeps : ∀ material, library.materials.get? key = some material →
      (change material).proxy = material.proxy ∧
      (change material).resources = material.resources ∧
      (change material).description.isDefault = material.description.isDefault) :
    next.Presents proxy materials := by
  obtain ⟨chosen, material, is, found, own, resources, stands⟩ := presents
  unfold Presents
  rw [same, default]
  by_cases here : chosen = key
  · subst here
    obtain ⟨sameProxy, sameResources, sameDefault⟩ := keeps material found
    refine ⟨chosen, change material, is, ?_, sameProxy.trans own, sameResources.trans resources,
      sameDefault.trans stands⟩
    rw [Slots.get?_modify, if_pos rfl, found]
    rfl
  · refine ⟨chosen, material, is, ?_, own, resources, stands⟩
    rw [Slots.get?_modify, if_neg here]
    exact found

end Presents

/-- A new material before its shaders are cached: it has the next key and the next proxy, and for
each active tier a resource for its description. -/
structure Places (library : Library) (description : Description) (made : Materials)
    (placed : Library) : Prop where
  default : placed.defaultMaterial = library.defaultMaterial
  settings : placed.system.settings = library.system.settings
  entries : ∀ key, placed.materials.get? key =
    if key = library.materials.nextKey then
      some { description, resources := made, proxy := library.system.nextProxy }
    else library.materials.get? key
  supplied : ∀ tier ∈ library.system.settings.activeTiers, (made.get tier).isSome
  described : ∀ {tier id}, made.get tier = some id → ∃ variant,
    placed.system.variantOf id = some variant ∧ variant.description = description

/-- Resources are made for the active tiers only. -/
theorem active_of_addResources {owner : Target} {description : Description}
    {overrides : Option StaticParameters} {tier : Tier}
    (has : ((library.addResources owner description overrides).1.get tier).isSome) :
    tier ∈ library.system.settings.activeTiers := by
  by_contra idle
  have nothing : (library.addResources owner description overrides).1.get tier = none :=
    List.foldlRecOn (motive := fun made : Materials × Library => made.1.get tier = none) _ _
      (PerTier.get_fill none tier) fun made before level member => by
        have different : tier ≠ level := fun same => idle (same ▸ member)
        rw [get_makeOne, if_neg different]
        exact before
  rw [nothing] at has
  cases has

theorem placed_addMaterial {description : Description} {key : SlotKey}
    (ran : library.addMaterial description = .ok (key, next)) :
    ∃ made placed ready, key = library.materials.nextKey ∧
      library.Places description made placed ∧
      placed.cacheShaders (.material key) = .ok (ready, next) := by
  obtain ⟨⟨ready, cached⟩, caching, same⟩ := bind_eq_ok.mp ran
  let material : Material := { description, proxy := library.system.nextProxy }
  let added : Library :=
    { library with
      system := library.system.freshProxy.2
      materials := (library.materials.insert material).2 }
  let made := added.addResources (.material library.materials.nextKey) description none
  let placed : Library :=
    { made.2.enqueue (.createProxy material.proxy (.material made.1)) with
      materials := made.2.materials.modify library.materials.nextKey fun material =>
        { material with resources := made.1 } }
  have caching : placed.cacheShaders (.material library.materials.nextKey) = .ok (ready, cached) :=
    caching
  obtain ⟨first, second⟩ := Prod.mk.inj (Except.ok.inj same)
  have makes : Makes added library.system.settings.activeTiers description none made :=
    addResources_makes ..
  have provides : Provides added made := provides_addResources ..
  refine ⟨made.1, placed, ready, first.symm, ⟨provides.default, makes.settings, fun other => ?_,
    fun tier active => ?_, fun {tier id} has => ?_⟩, first ▸ second ▸ caching⟩
  · show (made.2.materials.modify library.materials.nextKey _).get? other = _
    rw [Slots.get?_modify, makes.materials, Slots.get?_insert, Slots.get?_insert, if_pos rfl]
    split <;> rfl
  · obtain ⟨id, _, has, _⟩ := makes.supplied tier active
    rw [has]
    rfl
  · have there : ((added.addResources (.material library.materials.nextKey) description
        none).1.get tier).isSome := Option.isSome_of_mem has
    have active := active_of_addResources there
    obtain ⟨other, variant, has', is, _, described, _⟩ := makes.supplied tier active
    cases has.symm.trans has'
    exact ⟨variant, is, described⟩

namespace Upheld

/-- The default material is a target with this proxy and these resources. -/
theorem role? (upheld : Upheld start library proxy materials) :
    ∃ key role, library.defaultMaterial = some key ∧
      library.role? (.material key) = some role ∧ role.proxy = proxy ∧
      role.resources = materials := by
  obtain ⟨key, material, is, found, rfl, rfl, _⟩ := upheld.presents
  exact ⟨key, material.role, is, congrArg (Option.map Material.role) found, rfl, rfl⟩

theorem common (upheld : Upheld start library proxy materials) :
    ∀ piece, library.Common piece → piece.Spares proxy materials := by
  intro piece common
  cases common with
  | addResource | createMaterial | createDerived | supply => trivial
  | dropResource newer =>
    exact fun ⟨tier, has⟩ => Nat.not_lt_of_le newer (upheld.spared.supports.known has)
  | @tell command plain => cases command <;> trivial

/-- What is done to another target does not concern the default material. -/
theorem concerns (upheld : Upheld start library proxy materials)
    (other : ∀ key, library.defaultMaterial = some key → target ≠ .material key) :
    ∀ piece, library.Concerns target piece → piece.Spares proxy materials := by
  obtain ⟨key, role, is, found, rfl, rfl⟩ := upheld.role?
  have owns {id : ResourceId} (has : ∃ tier, role.resources.get tier = some id) :
      library.Owns (.material key) id := by
    unfold Owns
    rw [ownResources_eq, found]
    exact has
  have apart {id : ResourceId} (mine : library.Owns target id) :
      ¬ ∃ tier, role.resources.get tier = some id := fun has =>
    other key is (upheld.mirrored.stocked.single _ _ id mine (owns has))
  have different {proxy : ProxyId} (live : library.proxy? target = some proxy) :
      proxy ≠ role.proxy := by
    rintro rfl
    rw [proxy?_eq] at live
    obtain ⟨mine, there, same⟩ := Option.map_eq_some_iff.mp live
    exact other key is (upheld.mirrored.staged.distinct _ _ mine role there found same)
  intro piece concerns
  cases concerns with
  | vary change mine => exact fun has => absurd has (apart mine)
  | releaseMap mine => exact apart mine
  | dropResource mine => exact apart mine
  | setMaterials _ live => exact different live
  | removeProxy live => exact different live

theorem follow (upheld : Upheld start library proxy materials) (mirrored : next.Mirrored)
    (presents : next.Presents proxy materials)
    (tended : System.Tended (System.Piece.Spares proxy materials) ([], library.system) []
      next.system) : Upheld start next proxy materials :=
  ⟨mirrored, presents, upheld.spared.trans (tended.spared upheld.spared.supports)⟩

/-! ### Orders -/

theorem cacheShaders {ready : Bool} (upheld : Upheld start library proxy materials)
    (ran : library.cacheShaders target = .ok (ready, next)) :
    Upheld start next proxy materials := by
  refine upheld.follow (upheld.mirrored.cacheShaders ran) ?_
    (System.Tended.cacheTarget (.rest _ _ _) trivial ran)
  obtain ⟨system, _, rfl⟩ := cacheShaders_kept (motive := fun _ => True)
    (fun _ _ => trivial) trivial ran
  exact upheld.presents

/-- A new material has a new key. -/
theorem addMaterial {description : Description} {key : SlotKey}
    (upheld : Upheld start library proxy materials)
    (ran : library.addMaterial description = .ok (key, next)) :
    Upheld start next proxy materials := by
  refine upheld.follow (upheld.mirrored.addMaterial ran).1 ?_
    (System.Tended.addMaterial (.rest _ _ _) upheld.common ran)
  obtain ⟨made, placed, ready, _, places, caching⟩ := placed_addMaterial ran
  obtain ⟨system, _, rfl⟩ := cacheShaders_kept (motive := fun _ => True)
    (fun _ _ => trivial) trivial caching
  obtain ⟨chosen, material, is, found, own⟩ := upheld.presents
  have older : chosen ≠ library.materials.nextKey :=
    (upheld.mirrored.staged.materials.given (by rw [found]; rfl)).ne_nextKey
  refine ⟨chosen, material, places.default.trans is, ?_, own⟩
  exact (places.entries chosen).trans ((if_neg older).trans found)

/-- A material that is the default stays it. -/
theorem replaceDescription {key : SlotKey} {description : Description}
    (upheld : Upheld start library proxy materials)
    (ran : library.replaceDescription key description = .ok next) :
    Upheld start next proxy materials := by
  have mirrored := upheld.mirrored.replaceDescription ran
  have tended := System.Tended.replaceDescription
    (.rest (System.Piece.Spares proxy materials) [] library.system)
    (fun material resource found mine has => ?_) ran
  · refine upheld.follow mirrored ?_ tended
    obtain ⟨material, found, rfl⟩ := replaceDescription_cases ran
    refine upheld.presents.modify rfl rfl fun other there => ⟨rfl, rfl, ?_⟩
    cases found.symm.trans there
    rfl
  · obtain ⟨chosen, own, is, there, rfl, rfl, stands⟩ := upheld.presents
    have mine' : library.Owns (.material chosen) resource := by
      unfold Owns
      rw [ownResources_material there]
      exact has
    cases upheld.mirrored.stocked.single _ _ resource mine mine'
    cases found.symm.trans there
    exact fun _ => stands

theorem removeMaterial {key : SlotKey} (upheld : Upheld start library proxy materials)
    (other : library.proxy? (.material key) ≠ some proxy) :
    Upheld start (library.removeMaterial key) proxy materials := by
  have apart (chosen : SlotKey) (is : library.defaultMaterial = some chosen) : chosen ≠ key := by
    rintro rfl
    obtain ⟨_, material, is', found, own, _⟩ := upheld.presents
    cases is.symm.trans is'
    exact other (by rw [proxy?, found, Option.map_some, own])
  refine upheld.follow (upheld.mirrored.removeMaterial key) ?_
    (System.Tended.removeMaterial (.rest _ _ _) (upheld.concerns fun chosen is same =>
      apart chosen is (Target.material.inj same).symm))
  obtain ⟨chosen, material, is, found, own⟩ := upheld.presents
  have still : (library.relieved key).defaultMaterial = some chosen :=
    (if_neg fun same => apart chosen is (Option.some.inj (is.symm.trans same))).trans is
  cases there : library.materials.get? key with
  | none =>
    rw [removeMaterial_of_missing there]
    exact ⟨chosen, material, still, found, own⟩
  | some removed =>
    rw [removeMaterial_of_found there]
    let without : Library := { library.relieved key with
      materials := library.materials.erase key }
    refine ⟨chosen, material,
      (serves_releaseResources without removed.resources).2.trans still, ?_, own⟩
    show (without.releaseResources removed.resources).materials.get? chosen = _
    rw [(releaseResources_drops without removed.resources).materials]
    exact (Slots.get?_erase ..).trans ((if_neg (apart chosen is)).trans found)

theorem addInstance {parent : Target} {overrides : StaticParameters}
    {result : Except Failure SlotKey} (upheld : Upheld start library proxy materials)
    (ran : library.addInstance parent overrides = .ok (result, next)) :
    Upheld start next proxy materials := by
  refine upheld.follow (upheld.mirrored.addInstance ran) ?_
    (System.Tended.addInstance (.rest _ _ _) upheld.common ran)
  cases enrolls ran with
  | orphan | bare => exact upheld.presents
  | equipped _ _ permuted caching =>
    obtain ⟨system, _, rfl⟩ := cacheShaders_kept (motive := fun _ => True)
      (fun _ _ => trivial) trivial caching
    have provides := provides_addPermutation permuted
    exact upheld.presents.congr provides.materials provides.default

theorem notDefault (key : SlotKey) :
    ∀ chosen, library.defaultMaterial = some chosen → Target.derived key ≠ .material chosen :=
  fun _ _ same => nomatch same

theorem removeInstance {key : SlotKey} (upheld : Upheld start library proxy materials) :
    Upheld start (library.removeInstance key) proxy materials := by
  refine upheld.follow (upheld.mirrored.removeInstance key) ?_
    (System.Tended.removeInstance (.rest _ _ _) (upheld.concerns (notDefault key)))
  unfold Library.removeInstance
  split
  · exact upheld.presents
  · rename_i entry _
    let without : Library := { library with derived := library.derived.erase key }
    exact upheld.presents.congr (releaseResources_drops without entry.resources).materials
      (serves_releaseResources without entry.resources).2

theorem syncPermutation {key : SlotKey} {needed : Bool}
    (upheld : Upheld start library proxy materials)
    (ran : library.syncPermutation key = .ok (needed, next)) :
    Upheld start next proxy materials := by
  refine upheld.follow (upheld.mirrored.syncPermutation ran) ?_
    (System.Tended.syncPermutation (.rest _ _ _)
      (fun variant => upheld.common _ (.addResource variant))
      (fun _ newer => upheld.common _ (.dropResource newer)) (upheld.concerns (notDefault key)) ran)
  cases synced ran with
  | missing | refreshed | spared => exact upheld.presents
  | equipped _ _ _ permuted =>
    have provides := provides_addPermutation permuted
    exact upheld.presents.congr provides.materials provides.default
  | @bereft entry _ _ _ =>
    let bare := library.setResources key (.fill none)
    exact upheld.presents.congr (releaseResources_drops bare entry.resources).materials
      (serves_releaseResources bare entry.resources).2

theorem enqueue {command : RenderCommand} (upheld : Upheld start library proxy materials)
    (plain : command.isPlain) (elsewhere : command.resource? = none)
    (idle : ∀ cast, command.recast cast = cast) :
    Upheld start (library.enqueue command) proxy materials :=
  upheld.follow (upheld.mirrored.enqueue elsewhere idle) upheld.presents
    (System.Tended.plainly (.rest _ _ _) upheld.common plain)

theorem batching : Batching fun library => Upheld start library proxy materials where
  synced := syncPermutation
  cached := cacheShaders
  recached := fun _ upheld => upheld.enqueue rfl rfl fun _ => rfl
  reported := fun _ _ upheld => upheld.enqueue rfl rfl fun _ => rfl

/-- Parameters do not matter. -/
theorem onParameters (presents : library.Presents proxy materials) (target : Target)
    (change : Table String ParameterValue → Table String ParameterValue) :
    (library.onParameters target change).Presents proxy materials := by
  cases target with
  | material key => exact presents.modify rfl rfl fun _ _ => ⟨rfl, rfl, rfl⟩
  | derived key => exact presents

theorem setParameter {name : String} {value : ParameterValue}
    (upheld : Upheld start library proxy materials)
    (ran : library.setParameter target name value = .ok next) :
    Upheld start next proxy materials := by
  refine upheld.follow (upheld.mirrored.setParameter ran) ?_
    (System.Tended.setParameter (.rest _ _ _) upheld.common ran)
  obtain ⟨proxy, _, rfl⟩ := setParameter_cases ran
  exact onParameters upheld.presents target _

theorem clearParameter {name : String} (upheld : Upheld start library proxy materials)
    (ran : library.clearParameter target name = .ok next) : Upheld start next proxy materials := by
  refine upheld.follow (upheld.mirrored.clearParameter ran) ?_
    (System.Tended.clearParameter (.rest _ _ _) upheld.common ran)
  obtain ⟨proxy, _, rfl⟩ | rfl := clearParameter_cases ran
  · exact onParameters upheld.presents target _
  · exact upheld.presents

theorem processResults {count : Nat} (upheld : Upheld start library proxy materials)
    (ran : library.processResults = .ok (count, next)) : Upheld start next proxy materials := by
  refine upheld.follow (upheld.mirrored.processResults ran) ?_
    (System.Tended.processResults (.rest _ _ _) trivial ran)
  refine processResults_kept (motive := fun library => library.Presents proxy materials)
    (fun _ before completed => ?_) upheld.presents ran
  obtain ⟨system, _, rfl⟩ := completeAll_kept (motive := fun _ => True)
    (fun _ _ => trivial) trivial completed
  exact before

/-- Whoever is removed meanwhile, as long as it is not the default material. -/
theorem orders (upheld : Upheld start library proxy materials)
    (orders : library.Orders removing next) (kept : removing ≠ some proxy) :
    Upheld start next proxy materials := by
  cases orders with
  | addMaterial ran => exact upheld.addMaterial ran
  | replaceDescription ran => exact upheld.replaceDescription ran
  | removeMaterial key => exact upheld.removeMaterial kept
  | addInstance ran => exact upheld.addInstance ran
  | removeInstance key => exact upheld.removeInstance
  | setParameter ran => exact upheld.setParameter ran
  | clearParameter ran => exact upheld.clearParameter ran
  | cacheShaders ran => exact upheld.cacheShaders ran
  | processResults ran => exact upheld.processResults ran
  | finishAll ran =>
    have finished : Upheld start { library with system := { library.system with
        workshop := library.system.workshop.finishAll library.system.heldMaps } } proxy materials :=
      upheld.follow (upheld.mirrored.onWorkshop _) upheld.presents
        (System.Tended.work (.rest _ _ _)
          (show System.Piece.Spares proxy materials .settle from trivial) .finishAll)
    exact finished.processResults ran
  | commit ran =>
    rcases batching.commit upheld ran with rfl | ⟨told, after, same⟩
    · exact upheld
    · cases same
      exact after

end Upheld

end Library

end Shading
