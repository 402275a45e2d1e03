/-
Chains of proxies. A proxy hangs on its parent as long as the proxy itself is
live; the parent may be gone. Which resource a proxy draws with is told twice:
by a search along the chain that takes a limited number of steps, and here by
the rule that an own resource comes first and what a parent draws with second.
Where every proxy is younger than its parent the two agree, because then no
proxy is met twice on a chain and the search has as many steps as there are
proxies.
-/

import Mathlib.Logic.Function.Basic
import Mathlib.Logic.Relation
import Shading.Render.World

namespace Shading

/-- What a proxy of each number is, where there is one. -/
abbrev Kinds := ProxyId → Option ProxyKind

namespace ProxyKind

/-- The resource a proxy has of its own for a tier. -/
def own? (kind : ProxyKind) (tier : Tier) : Option ResourceId :=
  kind.materials?.bind fun materials => materials.get tier

theorem parent?_withMaterials (kind : ProxyKind) (materials : Materials) :
    (kind.withMaterials materials).parent? = kind.parent? := by
  cases kind <;> rfl

theorem materials?_withMaterials {kind : ProxyKind} {own : Materials}
    (owned : kind.materials? = some own) (materials : Materials) :
    (kind.withMaterials materials).materials? = some materials := by
  cases kind with
  | material | derived => rfl
  | _ => cases owned

end ProxyKind

namespace RenderProxy

/-- A proxy apart from its caches. -/
def bare (owner : RenderProxy) : RenderProxy := { owner with caches := .fill {} }

theorem bare_kind (owner : RenderProxy) : owner.bare.kind = owner.kind := rfl

end RenderProxy

namespace Kinds

variable {kinds kinds' : Kinds} {tier : Tier} {rank : ProxyId → Nat}

/-- A live proxy hangs on its parent. -/
def Hangs (kinds : Kinds) (child parent : ProxyId) : Prop :=
  ∃ kind, kinds child = some kind ∧ kind.parent? = some parent

/-- A proxy is below itself and below whatever its parent is below. -/
def Below (kinds : Kinds) : ProxyId → ProxyId → Prop := Relation.ReflTransGen kinds.Hangs

/-- The resource a proxy draws with: its own, or else the one its parent draws with. -/
inductive Draws (kinds : Kinds) (tier : Tier) : ProxyId → ResourceId → Prop where
  | own {proxy kind resource} : kinds proxy = some kind → kind.own? tier = some resource →
      Draws kinds tier proxy resource
  | inherited {proxy kind parent resource} : kinds proxy = some kind → kind.own? tier = none →
      kind.parent? = some parent → Draws kinds tier parent resource →
      Draws kinds tier proxy resource

/-- Parents come first. -/
def Ranked (kinds : Kinds) (rank : ProxyId → Nat) : Prop :=
  ∀ child parent, kinds.Hangs child parent → rank parent < rank child

theorem Ranked.below_le (ranked : kinds.Ranked rank) {low high : ProxyId}
    (below : kinds.Below low high) : rank high ≤ rank low := by
  induction below with
  | refl => exact Nat.le_refl _
  | tail _ hangs inductionHypothesis =>
    exact Nat.le_trans (Nat.le_of_lt (ranked _ _ hangs)) inductionHypothesis

/-- Where the rank is the position in a list, a parent is in the list if a child is. -/
theorem Ranked.parent_mem {created : List ProxyId} (ranked : kinds.Ranked created.idxOf)
    {child parent : ProxyId} (hangs : kinds.Hangs child parent) (member : child ∈ created) :
    parent ∈ created := by
  have position := List.idxOf_lt_length_iff.mpr member
  exact List.idxOf_lt_length_iff.mp (Nat.lt_trans (ranked child parent hangs) position)

theorem Ranked.below_mem {created : List ProxyId} (ranked : kinds.Ranked created.idxOf)
    {low high : ProxyId} (below : kinds.Below low high) (member : low ∈ created) :
    high ∈ created := by
  induction below with
  | refl => exact member
  | tail _ hangs inductionHypothesis => exact ranked.parent_mem hangs inductionHypothesis

/-- A new proxy comes last, after its parent. -/
theorem Ranked.append {created : List ProxyId} (ranked : kinds.Ranked created.idxOf)
    (known : ∀ child kind, kinds child = some kind → child ∈ created) {proxy : ProxyId}
    {kind : ProxyKind} (fresh : proxy ∉ created)
    (older : ∀ parent, kind.parent? = some parent → parent ∈ created) :
    Ranked (Function.update kinds proxy (some kind)) (created ++ [proxy]).idxOf := by
  have position (other : ProxyId) (member : other ∈ created) :
      (created ++ [proxy]).idxOf other = created.idxOf other := by
    rw [List.idxOf_append, if_pos member]
  rintro child parent ⟨found, live, hangs⟩
  show (created ++ [proxy]).idxOf parent < (created ++ [proxy]).idxOf child
  rw [Function.update_apply] at live
  split at live
  · rename_i same
    cases live
    have before := List.idxOf_lt_length_iff.mpr (older parent hangs)
    rw [position parent (older parent hangs), same, List.idxOf_append, if_neg fresh]
    exact Nat.lt_of_lt_of_le before (Nat.le_add_left _ _)
  · have hung : kinds.Hangs child parent := ⟨found, live, hangs⟩
    have member := known child found live
    rw [position parent (ranked.parent_mem hung member), position child member]
    exact ranked child parent hung

/-- Whoever is below a proxy without being that proxy is below one of those that hang on it. -/
theorem below_child {low high : ProxyId} (below : kinds.Below low high) (other : low ≠ high) :
    ∃ child, kinds.Hangs child high ∧ kinds.Below low child := by
  rcases Relation.ReflTransGen.cases_tail below with same | ⟨child, way, hangs⟩
  · exact absurd same.symm other
  · exact ⟨child, hangs, way⟩

/-- Only the parents decide what hangs on what. -/
theorem hangs_update {proxy : ProxyId} {kind other : ProxyKind} (found : kinds proxy = some kind)
    (sameParent : other.parent? = kind.parent?) :
    Hangs (Function.update kinds proxy (some other)) = kinds.Hangs := by
  funext child parent
  unfold Hangs
  by_cases same : child = proxy
  · rw [same, Function.update_self, found]
    simp only [Option.some.injEq, exists_eq_left', sameParent]
  · rw [Function.update_of_ne same]

/-- Without a proxy that comes before one, what was below that one still is. -/
theorem Below.without {low middle gone : ProxyId} (below : kinds.Below low middle)
    (ranked : kinds.Ranked rank) (earlier : rank gone < rank middle) :
    Below (Function.update kinds gone none) low middle := by
  induction below using Relation.ReflTransGen.head_induction_on with
  | refl => exact .refl
  | head hangs below inductionHypothesis =>
    rename_i child parent
    obtain ⟨kind, live, parent?⟩ := id hangs
    have later := Nat.lt_of_le_of_lt (ranked.below_le below) (ranked child parent hangs)
    have other : child ≠ gone := by
      rintro rfl
      exact Nat.lt_irrefl _ (Nat.lt_trans earlier later)
    refine .head ⟨kind, ?_, parent?⟩ inductionHypothesis
    rw [Function.update_of_ne other, live]

theorem Hangs.ne {child parent : ProxyId} (hangs : kinds.Hangs child parent)
    (ranked : kinds.Ranked rank) : child ≠ parent := by
  rintro rfl
  exact Nat.lt_irrefl _ (ranked child child hangs)

/-- A proxy that was below a removed one, and is below no orphan but those that are still to
come. -/
structure LeftBelow (kinds : Kinds) (gone : ProxyId) (orphans : List ProxyId)
    (low : ProxyId) : Prop where
  below : kinds.Below low gone
  live : (kinds gone).isSome
  among : ∀ child, kinds.Hangs child gone → Below (Function.update kinds gone none) low child →
    child ∈ orphans

namespace LeftBelow

variable {low gone first : ProxyId} {rest : List ProxyId}

/-- The first orphan has been seen to. -/
theorem tail (left : kinds.LeftBelow gone (first :: rest) low) (ranked : kinds.Ranked rank)
    (apart : (Function.update kinds gone none first).isSome →
      ¬ Below (Function.update kinds gone none) low first) : kinds.LeftBelow gone rest low := by
  refine ⟨left.below, left.live, fun child hung below => ?_⟩
  rcases List.mem_cons.mp (left.among child hung below) with rfl | later
  · obtain ⟨kind, live, _⟩ := id hung
    have live' : (Function.update kinds gone none child).isSome := by
      rw [Function.update_of_ne (hung.ne ranked), live]
      rfl
    exact absurd below (apart live')
  · exact later

/-- Every proxy that is still there is below an orphan if it was below the removed one, and that
also without the removed one. -/
theorem not_nil (ranked : kinds.Ranked rank) (live : (Function.update kinds gone none low).isSome) :
    ¬ kinds.LeftBelow gone [] low := by
  intro left
  have other : low ≠ gone := by
    rintro rfl
    rw [Function.update_self] at live
    cases live
  obtain ⟨child, hung, below⟩ := below_child left.below other
  exact List.not_mem_nil (left.among child hung (below.without ranked (ranked child gone hung)))

end LeftBelow

/-- Only the proxies on the chain decide what is drawn with. -/
theorem Draws.congr {proxy : ProxyId} {resource : ResourceId}
    (draws : kinds.Draws tier proxy resource)
    (same : ∀ high, kinds.Below proxy high → kinds' high = kinds high) :
    kinds'.Draws tier proxy resource := by
  induction draws with
  | own found owned => exact .own ((same _ .refl).trans found) owned
  | inherited found missing parent _ inductionHypothesis =>
    refine .inherited ((same _ .refl).trans found) missing parent (inductionHypothesis ?_)
    exact fun high below => same high (.head ⟨_, found, parent⟩ below)

end Kinds

namespace Proxies

def kinds (proxies : Proxies) : Kinds := fun id =>
  (Table.get? proxies id).map RenderProxy.kind

theorem kinds_eq_some {proxies : Proxies} {id : ProxyId} {kind : ProxyKind} :
    proxies.kinds id = some kind ↔
      ∃ owner, Table.get? proxies id = some owner ∧ owner.kind = kind :=
  Option.map_eq_some_iff

theorem kinds_insert (proxies : Proxies) (id : ProxyId) (owner : RenderProxy) :
    kinds (Table.insert proxies id owner) =
      Function.update proxies.kinds id (some owner.kind) := by
  funext other
  unfold kinds
  rw [Table.get?_insert, Function.update_apply]
  split <;> rfl

/-- Another value of the same kind in the place of a proxy. -/
theorem kinds_insert_same {proxies : Proxies} {id : ProxyId} {owner other : RenderProxy}
    (found : Table.get? proxies id = some owner) (same : other.kind = owner.kind) :
    kinds (Table.insert proxies id other) = proxies.kinds := by
  rw [kinds_insert, same, Function.update_eq_self_iff]
  exact (kinds_eq_some.mpr ⟨owner, found, rfl⟩).symm

/-! ### The search and the rule -/

/-- One step of the search. -/
theorem resolve_succ {proxies : Proxies} (tier : Tier) (links : Nat) {id : ProxyId}
    {owner : RenderProxy} (found : Table.get? proxies id = some owner) :
    proxies.resolve tier (links + 1) id =
      match owner.kind.own? tier with
      | some resource => some resource
      | none => owner.kind.parent?.bind fun parent => proxies.resolve tier links parent := by
  obtain ⟨kind, overrides, caches⟩ := owner
  rw [resolve, found]
  cases kind with
  | material materials => cases own : materials.get tier <;> simp [ProxyKind.own?, own,
      ProxyKind.materials?, ProxyKind.parent?]
  | derived parent materials => cases own : materials.get tier <;> simp [ProxyKind.own?, own,
      ProxyKind.materials?, ProxyKind.parent?]
  | colored => rfl
  | coloredTextured => rfl
  | selectionColor => rfl
  | lightingDensity => rfl

theorem draws_of_resolve {proxies : Proxies} {tier : Tier} {links : Nat} {id : ProxyId}
    {resource : ResourceId} (resolved : proxies.resolve tier links id = some resource) :
    proxies.kinds.Draws tier id resource := by
  induction links generalizing id with
  | zero => cases resolved
  | succ links inductionHypothesis =>
    cases found : Table.get? proxies id with
    | none =>
      rw [resolve, found] at resolved
      cases resolved
    | some owner =>
      have kind : proxies.kinds id = some owner.kind := kinds_eq_some.mpr ⟨owner, found, rfl⟩
      rw [resolve_succ tier links found] at resolved
      cases own : owner.kind.own? tier with
      | some other =>
        rw [own] at resolved
        cases resolved
        exact .own kind own
      | none =>
        rw [own] at resolved
        obtain ⟨parent, hangs, resolved⟩ := Option.bind_eq_some_iff.mp resolved
        exact .inherited kind own hangs (inductionHypothesis resolved)

/-- The search never runs out of steps: those it has left are at least the live proxies it has
not met, since all it has met are younger than the one it looks at now. -/
theorem resolve_of_draws {proxies : Proxies} {rank : ProxyId → Nat}
    (ranked : proxies.kinds.Ranked rank) {tier : Tier} {id : ProxyId} {resource : ResourceId}
    (draws : proxies.kinds.Draws tier id resource) (met : List ProxyId) (distinct : met.Nodup)
    (live : met ⊆ Table.keys proxies) (younger : ∀ other ∈ met, rank id < rank other) :
    proxies.resolve tier (Table.size proxies - met.length) id = some resource := by
  have room {id : ProxyId} {kind : ProxyKind} {met : List ProxyId} (distinct : met.Nodup)
      (live : met ⊆ Table.keys proxies) (younger : ∀ other ∈ met, rank id < rank other)
      (found : proxies.kinds id = some kind) :
      (id :: met).Nodup ∧ id :: met ⊆ Table.keys proxies ∧
        Table.size proxies - met.length = Table.size proxies - (id :: met).length + 1 := by
    obtain ⟨owner, found, _⟩ := kinds_eq_some.mp found
    have unmet : id ∉ met := fun member => Nat.lt_irrefl _ (younger id member)
    have all : (id :: met).Nodup := List.nodup_cons.mpr ⟨unmet, distinct⟩
    have known : id :: met ⊆ Table.keys proxies :=
      List.cons_subset.mpr ⟨Table.mem_keys_of_get? found, live⟩
    have count := all.length_le_of_subset known
    have size : (Table.keys proxies).length = Table.size proxies := List.length_map _
    refine ⟨all, known, ?_⟩
    simp only [List.length_cons] at count ⊢
    omega
  induction draws generalizing met with
  | own found own =>
    obtain ⟨_, _, steps⟩ := room distinct live younger found
    obtain ⟨owner, entry, rfl⟩ := kinds_eq_some.mp found
    rw [steps, resolve_succ tier _ entry, own]
  | inherited found own parent _ inductionHypothesis =>
    obtain ⟨all, known, steps⟩ := room distinct live younger found
    have older := ranked _ _ ⟨_, found, parent⟩
    obtain ⟨owner, entry, rfl⟩ := kinds_eq_some.mp found
    rw [steps, resolve_succ tier _ entry, own, parent]
    refine inductionHypothesis _ all known fun other member => ?_
    rcases List.mem_cons.mp member with rfl | member
    · exact older
    · exact Nat.lt_trans older (younger other member)

end Proxies

/-- A proxy draws with a resource by the rule just if the world finds that resource. -/
theorem World.resolve_iff {world : World} {rank : ProxyId → Nat}
    (ranked : world.proxies.kinds.Ranked rank) (proxy : ProxyId) (tier : Tier)
    (resource : ResourceId) :
    world.resolve proxy tier = some resource ↔ world.proxies.kinds.Draws tier proxy resource := by
  refine ⟨Proxies.draws_of_resolve, fun draws => ?_⟩
  exact Proxies.resolve_of_draws ranked draws [] List.nodup_nil (List.nil_subset _) (by simp)

end Shading
