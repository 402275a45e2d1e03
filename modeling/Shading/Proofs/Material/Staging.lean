/-
Targets on the stage of the renderer. Each target of a library plays a role: it
has a proxy, its own resources and parameters, and perhaps a parent. A library
is staged if what the proxies will be is just what the roles ask for. An instance
may outlive its parent; then the proxy above its own is that of nobody any more.
-/

import Shading.Proofs.Material.Fitting
import Shading.Proofs.Material.Serving

namespace Shading

/-- What a target is to the renderer. -/
structure Role where
  proxy : ProxyId
  parent : Option Target := none
  resources : Materials
  parameters : Table String ParameterValue

def Material.role (material : Material) : Role where
  proxy := material.proxy
  resources := material.resources
  parameters := material.parameters

def MaterialInstance.role (found : MaterialInstance) : Role where
  proxy := found.proxy
  parent := some found.parent
  resources := found.resources
  parameters := found.parameters

namespace Library

variable {library next : Library} {target : Target} {role : Role} {part : Option Role}
  {kind : ProxyKind}

def role? (library : Library) : Target → Option Role
  | .material key => (library.materials.get? key).map Material.role
  | .derived key => (library.derived.get? key).map MaterialInstance.role

theorem proxy?_eq (library : Library) (target : Target) :
    library.proxy? target = (library.role? target).map Role.proxy := by
  cases target <;> simp only [proxy?, role?, Option.map_map] <;> rfl

theorem proxy?_of_role? (found : library.role? target = some role) :
    library.proxy? target = some role.proxy := by
  rw [proxy?_eq, found]
  rfl

theorem parameters?_eq (library : Library) (target : Target) :
    library.parameters? target = (library.role? target).map Role.parameters := by
  cases target <;> simp only [parameters?, role?, Option.map_map] <;> rfl

theorem ownResources_eq (library : Library) (target : Target) :
    library.ownResources target =
      ((library.role? target).map Role.resources).getD (.fill none) := by
  cases target <;> simp only [ownResources, role?, Option.map_map] <;> rfl

/-- Where one material comes, goes or changes, others play what they did. -/
theorem role?_of_materials {key : SlotKey} {found? : Option Material}
    (derived : next.derived = library.derived)
    (materials : ∀ other, next.materials.get? other =
      if other = key then found? else library.materials.get? other) (target : Target) :
    next.role? target =
      if target = .material key then found?.map Material.role else library.role? target := by
  cases target with
  | material other =>
    show (next.materials.get? other).map _ = _
    rw [materials]
    by_cases same : other = key
    · rw [if_pos same, if_pos (congrArg _ same)]
    · rw [if_neg same, if_neg fun both => same (Target.material.inj both)]
      rfl
  | derived other =>
    rw [if_neg fun same => nomatch same]
    unfold role?
    rw [derived]

theorem role?_of_derived {key : SlotKey} {found? : Option MaterialInstance}
    (materials : next.materials = library.materials)
    (derived : ∀ other, next.derived.get? other =
      if other = key then found? else library.derived.get? other) (target : Target) :
    next.role? target =
      if target = .derived key then found?.map MaterialInstance.role else library.role? target := by
  cases target with
  | material other =>
    rw [if_neg fun same => nomatch same]
    unfold role?
    rw [materials]
  | derived other =>
    show (next.derived.get? other).map _ = _
    rw [derived]
    by_cases same : other = key
    · rw [if_pos same, if_pos (congrArg _ same)]
    · rw [if_neg same, if_neg fun both => same (Target.derived.inj both)]
      rfl

/-! ### Keys -/

/-- Slots stay orderly, and keys that have been given are still known as given. -/
structure KeepsKeys (library next : Library) : Prop where
  materials : library.materials.Orderly → next.materials.Orderly
  derived : library.derived.Orderly → next.derived.Orderly
  given : ∀ target, library.Given target → next.Given target

namespace KeepsKeys

theorem of_shape (shape : SameShape library next) : KeepsKeys library next :=
  ⟨shape.materials.orderly, shape.derived.orderly, fun _ => shape.given⟩

theorem of_slots (materials : next.materials = library.materials)
    (derived : next.derived = library.derived) : KeepsKeys library next :=
  of_shape (.of_slots materials derived)

theorem trans {middle : Library} (first : KeepsKeys library middle)
    (second : KeepsKeys middle next) : KeepsKeys library next :=
  ⟨second.materials ∘ first.materials, second.derived ∘ first.derived,
    fun target given => second.given target (first.given target given)⟩

theorem of_materials (derived : next.derived = library.derived)
    (orderly : library.materials.Orderly → next.materials.Orderly)
    (given : ∀ key, library.materials.Given key → next.materials.Given key) :
    KeepsKeys library next := by
  refine ⟨orderly, fun before => derived ▸ before, fun target before => ?_⟩
  cases target with
  | material key => exact given key before
  | derived key =>
    show next.derived.Given key
    exact derived ▸ before

theorem of_derived (materials : next.materials = library.materials)
    (orderly : library.derived.Orderly → next.derived.Orderly)
    (given : ∀ key, library.derived.Given key → next.derived.Given key) :
    KeepsKeys library next := by
  refine ⟨fun before => materials ▸ before, orderly, fun target before => ?_⟩
  cases target with
  | material key =>
    show next.materials.Given key
    exact materials ▸ before
  | derived key => exact given key before

end KeepsKeys

/-! ### One role -/

/-- One target has another role from then on, or none, and the others play what they did. -/
structure Plays (library next : Library) (target : Target) (part : Option Role) : Prop where
  keys : KeepsKeys library next
  roles : ∀ other, next.role? other = if other = target then part else library.role? other

namespace Plays

theorem of_materials {key : SlotKey} {found? : Option Material}
    (derived : next.derived = library.derived)
    (orderly : library.materials.Orderly → next.materials.Orderly)
    (given : ∀ key, library.materials.Given key → next.materials.Given key)
    (materials : ∀ other, next.materials.get? other =
      if other = key then found? else library.materials.get? other) :
    Plays library next (.material key) (found?.map Material.role) :=
  ⟨.of_materials derived orderly given, role?_of_materials derived materials⟩

theorem of_derived {key : SlotKey} {found? : Option MaterialInstance}
    (materials : next.materials = library.materials)
    (orderly : library.derived.Orderly → next.derived.Orderly)
    (given : ∀ key, library.derived.Given key → next.derived.Given key)
    (derived : ∀ other, next.derived.get? other =
      if other = key then found? else library.derived.get? other) :
    Plays library next (.derived key) (found?.map MaterialInstance.role) :=
  ⟨.of_derived materials orderly given, role?_of_derived materials derived⟩

theorem here (plays : Plays library next target part) : next.role? target = part :=
  (plays.roles target).trans (if_pos rfl)

theorem elsewhere {other : Target} (plays : Plays library next target part)
    (different : other ≠ target) : next.role? other = library.role? other :=
  (plays.roles other).trans (if_neg different)

/-- Who plays a role afterwards is the target, or played it before. -/
theorem either {other : Target} (plays : Plays library next target part)
    (found : next.role? other = some role) :
    other = target ∧ part = some role ∨ other ≠ target ∧ library.role? other = some role := by
  by_cases same : other = target
  · exact .inl ⟨same, plays.here.symm.trans (same ▸ found)⟩
  · exact .inr ⟨same, (plays.elsewhere same).symm.trans found⟩

theorem ownResources (plays : Plays library next target part) (other : Target) :
    next.ownResources other =
      if other = target then (part.map Role.resources).getD (.fill none)
      else library.ownResources other := by
  rw [ownResources_eq, ownResources_eq, plays.roles]
  split <;> rfl

theorem proxy? {other : Target} (plays : Plays library next target part)
    (different : other ≠ target) : next.proxy? other = library.proxy? other := by
  rw [proxy?_eq, proxy?_eq, plays.elsewhere different]

end Plays

/-! ### The stage -/

/-- A proxy of a kind shows a role. The one above it is the proxy of the parent as long as the
parent is there, and of no other target. -/
def Depicts (library : Library) (role : Role) (kind : ProxyKind) : Prop :=
  match role.parent with
  | none => kind = .material role.resources
  | some parent => ∃ above, kind = .derived above role.resources ∧
    above.number < role.proxy.number ∧ ∀ target other, library.role? target = some other →
      (other.proxy = above ↔ target = parent)

theorem Depicts.withMaterials (depicts : library.Depicts role kind) (resources : Materials) :
    library.Depicts { role with resources } (kind.withMaterials resources) := by
  unfold Depicts at depicts ⊢
  dsimp only
  split at depicts
  · rw [depicts]
    rfl
  · obtain ⟨above, rfl, older, alone⟩ := depicts
    exact ⟨above, rfl, older, alone⟩

theorem Depicts.withMaterials_self (depicts : library.Depicts role kind) :
    kind.withMaterials role.resources = kind := by
  unfold Depicts at depicts
  split at depicts
  · rw [depicts]
    rfl
  · obtain ⟨above, rfl, _⟩ := depicts
    rfl

/-- The others may go, and more may come that are younger and not the parent. -/
theorem Depicts.congr (depicts : library.Depicts role kind)
    (same : ∀ target other, next.role? target = some other →
      (∃ before, library.role? target = some before ∧ before.proxy = other.proxy) ∨
        role.proxy.number ≤ other.proxy.number ∧ role.parent ≠ some target) :
    next.Depicts role kind := by
  unfold Depicts at depicts ⊢
  split at depicts
  · exact depicts
  · rename_i parent is
    obtain ⟨above, kind, older, alone⟩ := depicts
    refine ⟨above, kind, older, fun target other found => ?_⟩
    rcases same target other found with ⟨before, there, proxy⟩ | ⟨younger, unrelated⟩
    · rw [← proxy]
      exact alone target before there
    · refine iff_of_false (fun same => ?_) fun same => unrelated (same ▸ is)
      exact Nat.not_lt_of_le younger (same ▸ older)

/-- What the proxies will be is what the targets of the library are to be shown as. -/
structure Staged (library : Library) : Prop where
  materials : library.materials.Orderly
  derived : library.derived.Orderly
  given : ∀ target role parent, library.role? target = some role → role.parent = some parent →
    library.Given parent
  numbered : ∀ target role, library.role? target = some role →
    role.proxy.number < library.system.nextProxy.number
  distinct : ∀ target other role role', library.role? target = some role →
    library.role? other = some role' → role.proxy = role'.proxy → target = other
  shown : ∀ target role, library.role? target = some role → ∃ kind, library.Depicts role kind ∧
    library.system.renderer.cast.proxies role.proxy = some { kind, overrides := role.parameters }
  known : ∀ proxy, (library.system.renderer.cast.proxies proxy).isSome →
    ∃ target role, library.role? target = some role ∧ role.proxy = proxy
  default : library.system.renderer.cast.default =
    library.defaultMaterial.bind fun key => library.proxy? (.material key)
  standing : ∀ key, library.defaultMaterial = some key → (library.proxy? (.material key)).isSome

/-- A kind of proxy for a new role: where there is a parent, its proxy is the one above. -/
def Suits (library : Library) (role : Role) (kind : ProxyKind) : Prop :=
  match role.parent with
  | none => kind = .material role.resources
  | some parent =>
    ∃ above, library.proxy? parent = some above ∧ kind = .derived above role.resources

namespace Staged

theorem given_of_role? (staged : library.Staged) (found : library.role? target = some role) :
    library.Given target := by
  cases target with
  | material key =>
    refine staged.materials.given ?_
    rw [← Option.isSome_map (f := Material.role)]
    exact Option.isSome_of_mem found
  | derived key =>
    refine staged.derived.given ?_
    rw [← Option.isSome_map (f := MaterialInstance.role)]
    exact Option.isSome_of_mem found

theorem role?_of_unknown (staged : library.Staged) (unknown : ¬ library.Given target) :
    library.role? target = none := by
  by_contra there
  obtain ⟨role, found⟩ := Option.ne_none_iff_exists'.mp there
  exact unknown (staged.given_of_role? found)

theorem given_of_suits (staged : library.Staged) (suits : library.Suits role kind)
    {parent : Target} (is : role.parent = some parent) : library.Given parent := by
  unfold Suits at suits
  rw [is] at suits
  obtain ⟨above, live, _⟩ := suits
  rw [proxy?_eq, Option.map_eq_some_iff] at live
  obtain ⟨_, live, _⟩ := live
  exact staged.given_of_role? live

/-- The same proxies, but perhaps another one steps in for others. -/
theorem redefault (staged : library.Staged) (keys : KeepsKeys library next)
    (roles : next.role? = library.role?)
    (cast : next.system.renderer.cast.proxies = library.system.renderer.cast.proxies)
    (nextProxy : next.system.nextProxy = library.system.nextProxy)
    (default : next.system.renderer.cast.default =
      next.defaultMaterial.bind fun key => library.proxy? (.material key))
    (standing : ∀ key, next.defaultMaterial = some key →
      (library.proxy? (.material key)).isSome) : next.Staged := by
  have proxies : next.proxy? = library.proxy? := funext fun target => by
    rw [proxy?_eq, proxy?_eq, roles]
  refine ⟨keys.materials staged.materials, keys.derived staged.derived, ?_, ?_, ?_, ?_, ?_,
    proxies ▸ default, proxies ▸ standing⟩
  · rw [roles]
    exact fun target role parent found is =>
      keys.given parent (staged.given target role parent found is)
  · rw [roles, nextProxy]
    exact staged.numbered
  · rw [roles]
    exact staged.distinct
  · rw [roles, cast]
    intro target role found
    obtain ⟨kind, depicts, shows⟩ := staged.shown target role found
    exact ⟨kind, depicts.congr fun _ other there => .inl ⟨other, roles ▸ there, rfl⟩, shows⟩
  · rw [roles, cast]
    exact staged.known

/-- Whatever is not about proxies leaves a library staged. -/
theorem congr (staged : library.Staged) (keys : KeepsKeys library next)
    (roles : next.role? = library.role?)
    (cast : next.system.renderer.cast = library.system.renderer.cast)
    (nextProxy : next.system.nextProxy = library.system.nextProxy)
    (default : next.defaultMaterial = library.defaultMaterial) : next.Staged :=
  staged.redefault keys roles (congrArg Cast.proxies cast) nextProxy
    (by rw [cast, default]; exact staged.default) (by rw [default]; exact staged.standing)

/-- Where nobody will step in for the others, there is no default material. -/
theorem vacant (staged : library.Staged) (nobody : library.system.renderer.cast.default = none) :
    library.defaultMaterial = none := by
  refine Option.eq_none_iff_forall_ne_some.mpr fun key chosen => ?_
  have live := staged.standing key chosen
  have none : (library.proxy? (.material key)) = none := by
    rw [staged.default, chosen] at nobody
    exact nobody
  rw [none] at live
  cases live

theorem standing_role (staged : library.Staged) {key : SlotKey}
    (is : library.defaultMaterial = some key) :
    ∃ role, library.role? (.material key) = some role := by
  have there := staged.standing key is
  rw [proxy?_eq, Option.isSome_map] at there
  exact Option.isSome_iff_exists.mp there

/-- One target plays another role, and the proxy that is its own and no other's shows that. -/
theorem recast {proxy : ProxyId} {shown : Option RenderProxy} (staged : library.Staged)
    (plays : Plays library next target part)
    (own : ∀ role, library.role? target = some role → role.proxy = proxy)
    (apart : ∀ other role, other ≠ target → library.role? other = some role → role.proxy ≠ proxy)
    (numbers : library.system.nextProxy.number ≤ next.system.nextProxy.number)
    (fits : ∀ role, part = some role → role.proxy = proxy ∧
      proxy.number < next.system.nextProxy.number ∧
      ∀ parent, role.parent = some parent → library.Given parent)
    (shows : ∀ role, part = some role → ∃ kind, next.Depicts role kind ∧
      shown = some { kind, overrides := role.parameters })
    (gone : part = none → shown = none)
    (others : ∀ other role kind, library.role? other = some role → library.Depicts role kind →
      next.Depicts role kind)
    (cast : ∀ other, next.system.renderer.cast.proxies other =
      (library.system.renderer.cast.write proxy shown).proxies other)
    (default : next.system.renderer.cast.default =
      next.defaultMaterial.bind fun key => next.proxy? (.material key))
    (standing : ∀ key, next.defaultMaterial = some key →
      (next.proxy? (.material key)).isSome) : next.Staged := by
  refine ⟨plays.keys.materials staged.materials, plays.keys.derived staged.derived,
    fun other role parent there is => ?_, fun other role there => ?_,
    fun first second one two there here same => ?_, fun other role there => ?_,
    fun it there => ?_, default, standing⟩
  · refine plays.keys.given parent ?_
    rcases plays.either there with ⟨_, new⟩ | ⟨_, before⟩
    · exact (fits role new).2.2 parent is
    · exact staged.given other role parent before is
  · rcases plays.either there with ⟨_, new⟩ | ⟨_, before⟩
    · obtain ⟨rfl, numbered, _⟩ := fits role new
      exact numbered
    · exact Nat.lt_of_lt_of_le (staged.numbered other role before) numbers
  · rcases plays.either there with ⟨left, new⟩ | ⟨left, before⟩ <;>
      rcases plays.either here with ⟨right, newer⟩ | ⟨right, after⟩
    · exact left.trans right.symm
    · exact absurd (same.symm.trans (fits one new).1) (apart second two right after)
    · exact absurd (same.trans (fits two newer).1) (apart first one left before)
    · exact staged.distinct first second one two before after same
  · rcases plays.either there with ⟨_, new⟩ | ⟨different, before⟩
    · obtain ⟨kind, depicts, is⟩ := shows role new
      refine ⟨kind, depicts, ?_⟩
      rw [cast, (fits role new).1, Cast.proxies_write_self, is]
    · obtain ⟨kind, depicts, is⟩ := staged.shown other role before
      refine ⟨kind, others other role kind before depicts, ?_⟩
      rw [cast, Cast.proxies_write_other (apart other role different before), is]
  · rw [cast, Cast.proxies_write] at there
    split at there
    · rename_i same
      cases is : part with
      | none =>
        rw [gone is] at there
        cases there
      | some role => exact ⟨target, role, plays.here.trans is, (fits role is).1.trans same.symm⟩
    · rename_i different
      obtain ⟨other, role, live, rfl⟩ := staged.known it there
      refine ⟨other, role, (plays.elsewhere ?_).trans live, rfl⟩
      rintro rfl
      exact different (own role live)

/-- Proxies of those that are there stay apart from that of one of them. -/
theorem apart (staged : library.Staged) (found : library.role? target = some role)
    (other : Target) (its : Role) (different : other ≠ target)
    (there : library.role? other = some its) : its.proxy ≠ role.proxy :=
  fun same => different (staged.distinct other target its role there found same)

/-- A kind that suits a new role depicts it once its target has entered. -/
theorem depicts_of_suits (staged : library.Staged) (plays : Plays library next target (some role))
    (unknown : ¬ library.Given target)
    (older : ∀ other before, library.role? other = some before →
      before.proxy.number < role.proxy.number)
    (suits : library.Suits role kind) : next.Depicts role kind := by
  unfold Suits at suits
  unfold Depicts
  split at suits
  · exact suits
  · rename_i parent _
    obtain ⟨above, live, is⟩ := suits
    rw [proxy?_eq, Option.map_eq_some_iff] at live
    obtain ⟨its, live, rfl⟩ := live
    refine ⟨_, is, older parent its live, fun other found there => ?_⟩
    rcases plays.either there with ⟨rfl, new⟩ | ⟨_, before⟩
    · cases new
      refine iff_of_false (fun same => ?_) fun same => ?_
      · exact absurd (same ▸ older parent its live) (Nat.lt_irrefl _)
      · rw [same] at unknown
        exact unknown (staged.given_of_role? live)
    · refine ⟨staged.distinct other parent found its before live, ?_⟩
      rintro rfl
      exact congrArg Role.proxy (Option.some.inj (before.symm.trans live))

/-- A target enters, with a proxy that has been numbered for it. -/
theorem enter (staged : library.Staged) (plays : Plays library next target (some role))
    (unknown : ¬ library.Given target) (proxy : role.proxy = library.system.nextProxy)
    (nextProxy : next.system.nextProxy = library.system.nextProxy.next)
    (suits : library.Suits role kind) (parameters : role.parameters = .empty)
    (cast : next.system.renderer.cast =
      library.system.renderer.cast.write role.proxy (some { kind }))
    (default : next.defaultMaterial = library.defaultMaterial) : next.Staged := by
  have absent := staged.role?_of_unknown unknown
  have older (other : Target) (before : Role) (found : library.role? other = some before) :
      before.proxy.number < role.proxy.number := proxy ▸ staged.numbered other before found
  have stays (key : SlotKey) (is : library.defaultMaterial = some key) :
      next.proxy? (.material key) = library.proxy? (.material key) := by
    obtain ⟨its, there⟩ := staged.standing_role is
    refine plays.proxy? ?_
    rintro rfl
    rw [absent] at there
    cases there
  refine staged.recast plays (fun its there => nomatch absent.symm.trans there)
    (fun other its _ there same => Nat.lt_irrefl _ (same ▸ older other its there)) ?_
    (fun its is => ?_) (fun its is => ?_) (fun none => nomatch none)
    (fun other its kind there depicts => ?_) (fun other => by rw [cast]) ?_ fun key is => ?_
  · rw [nextProxy]
    exact Nat.le_succ _
  · cases is
    refine ⟨rfl, ?_, fun parent is => staged.given_of_suits suits is⟩
    rw [proxy, nextProxy]
    exact Nat.lt_succ_self _
  · cases is
    exact ⟨kind, staged.depicts_of_suits plays unknown older suits, by rw [parameters]⟩
  · refine depicts.congr fun third found present => ?_
    rcases plays.either present with ⟨rfl, new⟩ | ⟨_, before⟩
    · cases new
      exact .inr ⟨Nat.le_of_lt (older other its there), fun is =>
        unknown (staged.given other its third there is)⟩
    · exact .inl ⟨found, before, rfl⟩
  · rw [cast, default]
    refine staged.default.trans ?_
    cases is : library.defaultMaterial with
    | none => rfl
    | some key => exact (stays key is).symm
  · rw [default] at is
    rw [stays key is]
    exact staged.standing key is

/-- A target leaves. If it is the default material, there is none from then on. -/
theorem leave (staged : library.Staged) (found : library.role? target = some role)
    (plays : Plays library next target none)
    (nextProxy : next.system.nextProxy = library.system.nextProxy)
    (cast : next.system.renderer.cast =
      RenderCommand.recast library.system.renderer.cast (.removeProxy role.proxy))
    (default : next.defaultMaterial =
      if library.defaultMaterial.map Target.material = some target then none
      else library.defaultMaterial) : next.Staged := by
  refine staged.recast plays (fun its there => ?_) (staged.apart found) (by rw [nextProxy])
    (fun its is => nomatch is) (fun its is => nomatch is) (fun _ => rfl)
    (fun other its kind _ depicts => ?_) (fun other => by rw [cast]; rfl) ?_ fun key is => ?_
  · cases found.symm.trans there
    rfl
  · refine depicts.congr fun third its there => .inl ⟨its, ?_, rfl⟩
    rcases plays.either there with ⟨_, none⟩ | ⟨_, before⟩
    · cases none
    · exact before
  · rw [cast, default]
    show (if library.system.renderer.cast.default = _ then _ else _) = _
    rw [staged.default]
    cases is : library.defaultMaterial with
    | none => rfl
    | some key =>
      obtain ⟨its, there⟩ := staged.standing_role is
      rw [Option.bind_some, proxy?_of_role? there, Option.map_some]
      by_cases same : Target.material key = target
      · cases found.symm.trans (same ▸ there)
        rw [if_pos rfl, if_pos (congrArg some same)]
        rfl
      · rw [if_neg fun both => staged.apart found _ its same there (Option.some.inj both),
          if_neg fun both => same (Option.some.inj both), Option.bind_some]
        exact (proxy?_of_role? ((plays.elsewhere same).trans there)).symm
  · rw [default] at is
    split at is
    · cases is
    · rename_i other
      have different : Target.material key ≠ target := by
        rintro rfl
        rw [is] at other
        exact other rfl
      rw [plays.proxy? different]
      exact staged.standing key is

/-- A target gets other resources or parameters. -/
theorem rewrite (staged : library.Staged) (found : library.role? target = some role)
    {resources : Materials} {parameters : Table String ParameterValue}
    (plays : Plays library next target (some { role with resources, parameters }))
    (nextProxy : next.system.nextProxy = library.system.nextProxy)
    {change : RenderProxy → RenderProxy}
    (cast : next.system.renderer.cast = library.system.renderer.cast.change role.proxy change)
    (changes : ∀ kind, library.Depicts role kind → change { kind, overrides := role.parameters } =
      { kind := kind.withMaterials resources, overrides := parameters })
    (default : next.defaultMaterial = library.defaultMaterial) : next.Staged := by
  have proxies : next.proxy? = library.proxy? := by
    funext other
    by_cases same : other = target
    · rw [same, proxy?_eq, proxy?_eq, plays.here, found]
      rfl
    · exact plays.proxy? same
  have others (its : Role) (kind : ProxyKind) (depicts : library.Depicts its kind) :
      next.Depicts its kind := depicts.congr fun third other there => by
    rcases plays.either there with ⟨rfl, new⟩ | ⟨_, before⟩
    · cases new
      exact .inl ⟨role, found, rfl⟩
    · exact .inl ⟨other, before, rfl⟩
  obtain ⟨kind, depicts, shows⟩ := staged.shown target role found
  have now : next.system.renderer.cast = library.system.renderer.cast.write role.proxy
      (some { kind := kind.withMaterials resources, overrides := parameters }) := by
    rw [cast, Cast.change, shows, Option.map_some, changes kind depicts]
  refine staged.recast plays (fun its there => ?_) (staged.apart found) (by rw [nextProxy])
    (fun its is => ?_) (fun its is => ?_) (fun none => by cases none)
    (fun other its kind _ depicts => others its kind depicts) (fun other => by rw [now]) ?_
    fun key is => ?_
  · cases found.symm.trans there
    rfl
  · cases is
    refine ⟨rfl, ?_, fun parent is => staged.given target role parent found is⟩
    rw [nextProxy]
    exact staged.numbered target role found
  · cases is
    exact ⟨_, others _ _ (depicts.withMaterials resources), rfl⟩
  · rw [now, default, proxies]
    exact staged.default
  · rw [default] at is
    rw [proxies]
    exact staged.standing key is

end Staged

end Library

end Shading
