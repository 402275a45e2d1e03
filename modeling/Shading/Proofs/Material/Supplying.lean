/-
Who owns which resources. Every resource of a library belongs to one target, and
new ones are numbered higher than all before. So work on the resources of one
target leaves those of all others as they are.
-/

import Shading.Proofs.Material.Deriving
import Shading.Proofs.Material.Steady
import Shading.Proofs.Slots

namespace Shading

/-- The variant of a description with the given overrides. -/
def Variant.IsFor (description : Description) (overrides : Option StaticParameters)
    (variant : Variant) : Prop :=
  variant.description = description ∧ variant.overrides = overrides

namespace Library

variable {library middle next : Library} {target other : Target} {tier : Tier}
  {resources : Materials} {required : Variant → Prop}

/-- The description of a live material. -/
def descriptionOf (library : Library) (key : SlotKey) : Option Description :=
  (library.materials.get? key).map Material.description

theorem descriptionOf_eq_some {key : SlotKey} {description : Description} :
    library.descriptionOf key = some description ↔
      ∃ material, library.materials.get? key = some material ∧
        material.description = description :=
  Option.map_eq_some_iff

/-- A target owns a resource. -/
def Owns (library : Library) (target : Target) (id : ResourceId) : Prop :=
  ∃ tier, (library.ownResources target).get tier = some id

/-- There is a resource for every active tier, each for a variant as it is required. -/
def Supplies (library : Library) (resources : Materials) (required : Variant → Prop) : Prop :=
  ∀ tier ∈ library.system.settings.activeTiers, ∃ id variant, resources.get tier = some id ∧
    library.system.variantOf id = some variant ∧ variant.tier = tier ∧ required variant

theorem Supplies.congr (supplies : library.Supplies resources required)
    (settings : next.system.settings = library.system.settings)
    (variants : ∀ tier id, resources.get tier = some id →
      next.system.variantOf id = library.system.variantOf id) :
    next.Supplies resources required := by
  intro tier active
  rw [settings] at active
  obtain ⟨id, variant, has, there, rest⟩ := supplies tier active
  exact ⟨id, variant, has, (variants tier id has).trans there, rest⟩

/-- Every resource has one owner, and none is numbered like one that will be made. -/
structure Allotted (library : Library) : Prop where
  numbered : ∀ target id, library.Owns target id →
    id.number < library.system.nextResource.number
  single : ∀ target other id, library.Owns target id → library.Owns other id → target = other

/-! ### Work on one target -/

/-- The resources of other targets are as they were, and those of the target are new, or they
were its own before. -/
structure Touches (target : Target) (library next : Library) : Prop where
  settings : next.system.settings = library.system.settings
  numbers : library.system.nextResource.number ≤ next.system.nextResource.number
  others : ∀ other, other ≠ target → next.ownResources other = library.ownResources other
  variants : ∀ other id, other ≠ target → library.Owns other id →
    next.system.variantOf id = library.system.variantOf id
  own : ∀ id, next.Owns target id → library.Owns target id ∨
    library.system.nextResource.number ≤ id.number ∧
      id.number < next.system.nextResource.number

namespace Touches

theorem owns_other (touches : Touches target library next) (different : other ≠ target)
    {id : ResourceId} : next.Owns other id ↔ library.Owns other id := by
  unfold Owns
  rw [touches.others other different]

theorem allotted (touches : Touches target library next) (allotted : library.Allotted) :
    next.Allotted := by
  have apart {other : Target} {id : ResourceId} (different : other ≠ target)
      (owns : library.Owns other id) : ¬ next.Owns target id := by
    intro mine
    rcases touches.own id mine with before | ⟨new, _⟩
    · exact different (allotted.single other target id owns before)
    · exact Nat.not_lt_of_le new (allotted.numbered other id owns)
  refine ⟨fun other id owns => ?_, fun first second id one two => ?_⟩
  · by_cases same : other = target
    · rcases touches.own id (same ▸ owns) with before | ⟨_, bound⟩
      · exact Nat.lt_of_lt_of_le (allotted.numbered target id before) touches.numbers
      · exact bound
    · exact Nat.lt_of_lt_of_le
        (allotted.numbered other id ((touches.owns_other same).mp owns)) touches.numbers
  · by_cases left : first = target <;> by_cases right : second = target
    · rw [left, right]
    · exact absurd (left ▸ one) (apart right ((touches.owns_other right).mp two))
    · exact absurd (right ▸ two) (apart left ((touches.owns_other left).mp one))
    · exact allotted.single first second id ((touches.owns_other left).mp one)
        ((touches.owns_other right).mp two)

theorem supplies (touches : Touches target library next) (different : other ≠ target)
    (supplies : library.Supplies (library.ownResources other) required) :
    next.Supplies (next.ownResources other) required := by
  rw [touches.others other different]
  exact supplies.congr touches.settings fun tier id has =>
    touches.variants other id different ⟨tier, has⟩

theorem trans (first : Touches target library middle) (second : Touches target middle next) :
    Touches target library next where
  settings := second.settings.trans first.settings
  numbers := first.numbers.trans second.numbers
  others := fun other different =>
    (second.others other different).trans (first.others other different)
  variants := fun other id different owns =>
    (second.variants other id different ((first.owns_other different).mpr owns)).trans
      (first.variants other id different owns)
  own := fun id owns => by
    rcases second.own id owns with before | ⟨new, bound⟩
    · exact (first.own id before).imp_right fun ⟨new, bound⟩ =>
        ⟨new, Nat.lt_of_lt_of_le bound second.numbers⟩
    · exact .inr ⟨first.numbers.trans new, bound⟩

end Touches

/-! ### Making resources -/

/-- What making resources for tiers comes to: they have new numbers, no two tiers have the same
one, and each is for the variant that was asked for. -/
structure Makes (library : Library) (tiers : List Tier) (description : Description)
    (overrides : Option StaticParameters) (made : Materials × Library) : Prop where
  materials : made.2.materials = library.materials
  derived : made.2.derived = library.derived
  settings : made.2.system.settings = library.system.settings
  numbers : library.system.nextResource.number ≤ made.2.system.nextResource.number
  older : ∀ id, id.number < library.system.nextResource.number →
    made.2.system.variantOf id = library.system.variantOf id
  later : ∀ id, made.2.system.nextResource.number ≤ id.number →
    made.2.system.variantOf id = library.system.variantOf id
  newer : ∀ tier id, made.1.get tier = some id → library.system.nextResource.number ≤ id.number ∧
    id.number < made.2.system.nextResource.number
  present : ∀ id, library.system.nextResource.number ≤ id.number →
    id.number < made.2.system.nextResource.number →
    ((made.2.system.variantOf id).isSome ↔ ∃ tier, made.1.get tier = some id)
  apart : ∀ tier other id, made.1.get tier = some id → made.1.get other = some id → tier = other
  supplied : ∀ tier ∈ tiers, ∃ id variant, made.1.get tier = some id ∧
    made.2.system.variantOf id = some variant ∧ variant.tier = tier ∧
      variant.IsFor description overrides

theorem variantOf_addResource (system : System) (variant : Variant) (id : ResourceId) :
    (system.addResource variant).2.variantOf id =
      if id = system.nextResource then some variant else system.variantOf id := by
  show ((Table.insert system.resources system.nextResource _).get? id).map _ = _
  rw [Table.get?_insert]
  split <;> rfl

theorem variantOf_dropResource (system : System) (id other : ResourceId) :
    (system.dropResource id).variantOf other =
      if other = id then none else system.variantOf other := by
  show ((Table.erase system.resources id).get? other).map _ = _
  rw [Table.get?_erase]
  split <;> rfl

section

variable {owner : Target} {description : Description} {overrides : Option StaticParameters}
  {quality : Quality} {tiers : List Tier} {made : Materials × Library} {tier : Tier}

theorem settings_makeOne :
    (makeOne owner description overrides quality made tier).2.system.settings =
      made.2.system.settings := by
  unfold makeOne
  dsimp only
  split <;> rfl

theorem nextResource_makeOne :
    (makeOne owner description overrides quality made tier).2.system.nextResource =
      made.2.system.nextResource.next := by
  unfold makeOne
  dsimp only
  split <;> rfl

theorem get_makeOne (level : Tier) :
    (makeOne owner description overrides quality made tier).1.get level =
      if level = tier then some made.2.system.nextResource else made.1.get level :=
  PerTier.get_set ..

namespace Makes

theorem unmade (makes : Makes library tiers description overrides made) (level : Tier) :
    made.1.get level ≠ some made.2.system.nextResource :=
  fun has => Nat.lt_irrefl _ (makes.newer level _ has).2

/-- The resource that is made is there, and the one the tier had is not there any more. -/
theorem variantOf (makes : Makes library tiers description overrides made) (id : ResourceId) :
    (Library.makeOne owner description overrides quality made tier).2.system.variantOf id =
      if id = made.2.system.nextResource then some { description, overrides, quality, tier }
      else if made.1.get tier = some id then none
      else made.2.system.variantOf id := by
  have added := variantOf_addResource made.2.system { description, overrides, quality, tier } id
  unfold Library.makeOne
  dsimp only
  cases had : made.1.get tier with
  | none => exact added.trans (by rw [if_neg (Option.some_ne_none id).symm])
  | some replaced =>
    have older : made.2.system.nextResource ≠ replaced := fun same =>
      makes.unmade tier (same ▸ had)
    refine (variantOf_dropResource ..).trans ?_
    rw [added]
    by_cases new : id = made.2.system.nextResource
    · rw [if_pos new, if_pos new, if_neg (new ▸ older)]
    · rw [if_neg new, if_neg new]
      exact if_congr (by rw [Option.some.injEq, eq_comm]) rfl rfl

/-- The tier has the new resource. What it had before is not there any more, and the others have
what they had. -/
theorem present_makeOne (makes : Makes library tiers description overrides made) {id : ResourceId}
    (new : library.system.nextResource.number ≤ id.number)
    (bound : id.number < made.2.system.nextResource.next.number) :
    ((Library.makeOne owner description overrides quality made tier).2.system.variantOf id).isSome ↔
      ∃ level, (Library.makeOne owner description overrides quality made tier).1.get level =
        some id := by
  rw [makes.variantOf]
  simp only [get_makeOne]
  by_cases last : id = made.2.system.nextResource
  · rw [if_pos last]
    exact ⟨fun _ => ⟨tier, by rw [if_pos rfl, last]⟩, fun _ => rfl⟩
  · have before : id.number < made.2.system.nextResource.number :=
      Nat.lt_of_le_of_ne (Nat.le_of_lt_succ bound) fun same => last (congrArg Identifier.mk same)
    rw [if_neg last]
    split
    · rename_i replaced
      refine iff_of_false Bool.false_ne_true fun ⟨level, has⟩ => ?_
      split at has
      · exact absurd (Option.some.inj has).symm last
      · rename_i other
        exact absurd (makes.apart level tier id has replaced) other
    · rename_i kept
      rw [makes.present id new before]
      refine exists_congr fun level => ?_
      split
      · rename_i here
        subst here
        exact iff_of_false kept fun has => last (Option.some.inj has).symm
      · rfl

theorem makeOne (makes : Makes library tiers description overrides made) (owner : Target)
    (quality : Quality) (tier : Tier) :
    Makes library (tiers ++ [tier]) description overrides
      (Library.makeOne owner description overrides quality made tier) := by
  have numbers := makes.numbers
  refine ⟨makes.materials, makes.derived, settings_makeOne.trans makes.settings, ?_,
    fun id old => ?_, fun id late => ?_, fun level id has => ?_, fun id new bound => ?_,
    fun level other id one two => ?_, fun level member => ?_⟩
  · rw [nextResource_makeOne]
    exact Nat.le_succ_of_le numbers
  · rw [makes.variantOf, if_neg, if_neg]
    · exact makes.older id old
    · exact fun has => Nat.not_lt_of_le (makes.newer tier id has).1 old
    · rintro rfl
      exact Nat.not_lt_of_le numbers old
  · rw [nextResource_makeOne] at late
    rw [makes.variantOf, if_neg, if_neg]
    · exact makes.later id (Nat.le_of_succ_le late)
    · exact fun has => Nat.not_lt_of_le late (Nat.lt_succ_of_lt (makes.newer tier id has).2)
    · rintro rfl
      exact Nat.not_succ_le_self _ late
  · rw [nextResource_makeOne]
    rw [get_makeOne] at has
    split at has
    · cases has
      exact ⟨numbers, Nat.lt_succ_self _⟩
    · obtain ⟨new, bound⟩ := makes.newer level id has
      exact ⟨new, Nat.lt_succ_of_lt bound⟩
  · rw [nextResource_makeOne] at bound
    exact makes.present_makeOne new bound
  · rw [get_makeOne] at one two
    split at one <;> split at two
    · rename_i left right
      exact left.trans right.symm
    · cases one
      exact absurd two (makes.unmade other)
    · cases two
      exact absurd one (makes.unmade level)
    · exact makes.apart level other id one two
  · by_cases here : level = tier
    · refine ⟨made.2.system.nextResource, { description, overrides, quality, tier }, ?_,
        (makes.variantOf _).trans (if_pos rfl), here.symm, rfl, rfl⟩
      rw [get_makeOne, if_pos here]
    · have before := (List.mem_append.mp member).resolve_right fun last =>
        here (List.mem_singleton.mp last)
      obtain ⟨id, variant, has, there, rest⟩ := makes.supplied level before
      refine ⟨id, variant, ?_, ?_, rest⟩
      · rw [get_makeOne, if_neg here]
        exact has
      · rw [makes.variantOf, if_neg (by rintro rfl; exact makes.unmade level has),
          if_neg fun same => here (makes.apart level tier id has same)]
        exact there

end Makes

end

theorem addResources_makes (library : Library) (owner : Target) (description : Description)
    (overrides : Option StaticParameters) :
    Makes library library.system.settings.activeTiers description overrides
      (library.addResources owner description overrides) := by
  have all (tiers before : List Tier) (made : Materials × Library)
      (makes : Makes library before description overrides made) :
      Makes library (before ++ tiers) description overrides (tiers.foldl
        (makeOne owner description overrides library.system.settings.activeQuality) made) := by
    induction tiers generalizing before made with
    | nil =>
      rw [List.append_nil]
      exact makes
    | cons tier rest inductionHypothesis =>
      rw [List.append_cons]
      exact inductionHypothesis _ _ (makes.makeOne owner _ tier)
  refine all library.system.settings.activeTiers [] (.fill none, library)
    ⟨rfl, rfl, rfl, Nat.le_refl _, fun _ _ => rfl, fun _ _ => rfl, fun tier id has => ?_,
      fun _ new bound => absurd bound (Nat.not_lt_of_le new), fun tier _ id has => ?_,
      fun _ member => nomatch member⟩
  all_goals
    rw [PerTier.get_fill] at has
    cases has

/-! ### Giving resources up -/

/-- Only the resources that are given up are gone. -/
structure Drops (library : Library) (ids : List ResourceId) (next : Library) : Prop where
  materials : next.materials = library.materials
  derived : next.derived = library.derived
  settings : next.system.settings = library.system.settings
  nextResource : next.system.nextResource = library.system.nextResource
  variants : ∀ id, id ∉ ids → next.system.variantOf id = library.system.variantOf id
  gone : ∀ id ∈ ids, next.system.variantOf id = none

theorem releaseResources_drops (library : Library) (resources : Materials) :
    Drops library (resources.toList.filterMap id) (library.releaseResources resources) := by
  unfold releaseResources
  generalize resources.toList.filterMap id = ids
  induction ids generalizing library with
  | nil => exact ⟨rfl, rfl, rfl, rfl, fun _ _ => rfl, fun _ member => nomatch member⟩
  | cons first rest inductionHypothesis =>
    have released := System.Steady.releaseMap library.system first
    have drops := inductionHypothesis { library with
      system := (library.system.releaseMap first).dropResource first
      owners := library.owners.erase first }
    have erased (id : ResourceId) : ((library.system.releaseMap first).dropResource first).variantOf
        id = if id = first then none else library.system.variantOf id := by
      rw [variantOf_dropResource, released.variantOf]
    refine ⟨drops.materials, drops.derived, drops.settings.trans released.settings,
      drops.nextResource.trans released.nextResource, fun id absent => ?_, fun id member => ?_⟩
    · have later : id ∉ rest := fun member => absent (List.mem_cons_of_mem _ member)
      have different : id ≠ first := fun same => absent (same ▸ List.mem_cons_self)
      rw [List.foldl_cons, drops.variants id later]
      exact (erased id).trans (if_neg different)
    · rw [List.foldl_cons]
      by_cases later : id ∈ rest
      · exact drops.gone id later
      · rw [drops.variants id later]
        exact (erased id).trans (if_pos ((List.mem_cons.mp member).resolve_right later))

theorem mem_resources {resources : Materials} {resource : ResourceId} :
    resource ∈ resources.toList.filterMap id ↔ ∃ tier, resources.get tier = some resource := by
  simp only [List.mem_filterMap, id_eq, exists_eq_right, PerTier.mem_toList]

end Library

end Shading
