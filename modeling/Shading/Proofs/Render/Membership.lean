/-
Entering and leaving. A proxy that is put in the world becomes a child of its
parent, and one that is taken out leaves the lists it was in. What belongs to
other proxies stays as it was.
-/

import Shading.Proofs.Render.Upkeep
import Shading.Render.Execution

namespace Shading.World

/-! ### Entering -/

theorem attach_proxies (world : World) (proxy : ProxyId) (kind : ProxyKind) :
    (world.attach proxy kind).proxies = world.proxies.insert proxy { kind } := by
  unfold attach
  cases kind.parent? <;> cases kind.materials? <;> rfl

theorem attach_materials (world : World) (proxy : ProxyId) (kind : ProxyKind) :
    (world.attach proxy kind).materials = world.materials := by
  unfold attach
  cases kind.parent? <;> cases kind.materials? <;> rfl

theorem attach_bindings (world : World) (proxy : ProxyId) (kind : ProxyKind) :
    (world.attach proxy kind).bindings = world.bindings := by
  unfold attach
  cases kind.parent? <;> cases kind.materials? <;> rfl

theorem attach_builtFrom (world : World) (proxy : ProxyId) (kind : ProxyKind) :
    (world.attach proxy kind).builtFrom = world.builtFrom := by
  unfold attach
  cases kind.parent? <;> cases kind.materials? <;> rfl

/-- The new proxy becomes a child of its parent. -/
theorem mem_attach_children (world : World) (proxy : ProxyId) {kind : ProxyKind}
    {parent : ProxyId} (hangs : kind.parent? = some parent) :
    proxy ∈ Index.entriesOf (world.attach proxy kind).children parent := by
  unfold attach
  rw [hangs]
  have pushed : proxy ∈ Index.entriesOf (Index.push world.children parent proxy) parent := by
    rw [Index.entriesOf_push, if_pos rfl]
    exact List.mem_append_right _ List.mem_cons_self
  cases kind.materials? <;> exact pushed

theorem mem_attach_children_other {world : World} (proxy : ProxyId) (kind : ProxyKind)
    {child parent : ProxyId} (member : child ∈ Index.entriesOf world.children parent) :
    child ∈ Index.entriesOf (world.attach proxy kind).children parent := by
  unfold attach
  cases kind.parent? with
  | none => cases kind.materials? <;> exact member
  | some above =>
    have pushed : child ∈ Index.entriesOf (Index.push world.children above proxy) parent := by
      rw [Index.entriesOf_push]
      split
      · rename_i same
        exact List.mem_append_left _ (same ▸ member)
      · exact member
    cases kind.materials? <;> exact pushed

theorem cacheOf_attach (world : World) (proxy : ProxyId) (kind : ProxyKind) (other : ProxyId)
    (tier : Tier) : (world.attach proxy kind).cacheOf other tier =
      if other = proxy then some {} else world.cacheOf other tier := by
  unfold cacheOf
  rw [attach_proxies, Table.get?_insert]
  split
  · rw [Option.map_some, PerTier.get_fill]
  · rfl

/-- Nothing but the proxies and two of the indices is touched. -/
theorem attach_eq (world : World) (proxy : ProxyId) (kind : ProxyKind) :
    ∃ children users, world.attach proxy kind =
      { world with children, users, proxies := world.proxies.insert proxy { kind } } := by
  unfold attach
  cases kind.parent? <;> cases kind.materials? <;> exact ⟨_, _, rfl⟩

/-! ### The proxies that name a resource -/

theorem mem_indexMaterials {world : World} {proxy other : ProxyId} {materials : Materials}
    {resource : ResourceId} :
    other ∈ Index.entriesOf (world.indexMaterials proxy materials).users resource ↔
      other ∈ Index.entriesOf world.users resource ∨
        (other = proxy ∧ ∃ tier, materials.get tier = some resource) := by
  have each (resources : List ResourceId) (users : Index ResourceId ProxyId) :
      other ∈ Index.entriesOf (resources.foldl (fun users resource =>
        Index.add users resource proxy) users) resource ↔
          other ∈ Index.entriesOf users resource ∨ (other = proxy ∧ resource ∈ resources) := by
    induction resources generalizing users with
    | nil => simp
    | cons first rest inductionHypothesis =>
      rw [List.foldl_cons, inductionHypothesis, Index.mem_entriesOf_add, List.mem_cons, or_assoc,
        and_or_left, and_comm (a := resource = first)]
  have named : resource ∈ materials.toList.filterMap id ↔
      ∃ tier, materials.get tier = some resource := by
    rw [List.mem_filterMap]
    simp only [id_eq, exists_eq_right, PerTier.mem_toList]
  unfold indexMaterials
  rw [each, named]

/-- The other proxies that name a resource are still known to do so. -/
theorem mem_unindexMaterials_other {world : World} {proxy other : ProxyId} {resource : ResourceId}
    (materials : Materials) (member : other ∈ Index.entriesOf world.users resource)
    (different : other ≠ proxy) :
    other ∈ Index.entriesOf (world.unindexMaterials proxy materials).users resource := by
  unfold unindexMaterials
  generalize world.users = users at member
  dsimp only
  induction materials.toList.filterMap id generalizing users with
  | nil => exact member
  | cons first rest inductionHypothesis =>
    refine inductionHypothesis _ ?_
    rw [Index.entriesOf_remove]
    split
    · rename_i same
      exact List.mem_filter.mpr ⟨same ▸ member, decide_eq_true different⟩
    · exact member

theorem mem_attach_users {world : World} {proxy other : ProxyId} {kind : ProxyKind}
    {resource : ResourceId} :
    other ∈ Index.entriesOf (world.attach proxy kind).users resource ↔
      other ∈ Index.entriesOf world.users resource ∨
        (other = proxy ∧ ∃ tier, kind.own? tier = some resource) := by
  have named : (∃ tier, kind.own? tier = some resource) ↔
      ∃ materials, kind.materials? = some materials ∧ ∃ tier, materials.get tier = some resource := by
    unfold ProxyKind.own?
    simp only [Option.bind_eq_some_iff]
    exact ⟨fun ⟨tier, materials, found, same⟩ => ⟨materials, found, tier, same⟩,
      fun ⟨materials, found, tier, same⟩ => ⟨tier, materials, found, same⟩⟩
  rw [named]
  unfold attach
  cases kind.parent? <;> cases kind.materials? <;>
    simp [mem_indexMaterials]

/-! ### Leaving -/

theorem detach_proxies (world : World) (proxy : ProxyId) (owner : RenderProxy) :
    (world.detach proxy owner).proxies = world.proxies.erase proxy := by
  unfold detach
  cases owner.kind.materials? <;> rfl

theorem detach_materials (world : World) (proxy : ProxyId) (owner : RenderProxy) :
    (world.detach proxy owner).materials = world.materials := by
  unfold detach
  cases owner.kind.materials? <;> rfl

theorem detach_bindings (world : World) (proxy : ProxyId) (owner : RenderProxy) :
    (world.detach proxy owner).bindings = world.bindings := by
  unfold detach
  cases owner.kind.materials? <;> rfl

theorem detach_builtFrom (world : World) (proxy : ProxyId) (owner : RenderProxy) :
    (world.detach proxy owner).builtFrom = forgetBuilds world.builtFrom proxy owner.caches := by
  unfold detach
  cases owner.kind.materials? <;> rfl

theorem detach_children (world : World) (proxy : ProxyId) (owner : RenderProxy) :
    (world.detach proxy owner).children =
      match owner.kind.parent? with
      | some parent => Index.remove world.children parent proxy
      | none => world.children := by
  unfold detach
  cases owner.kind.materials? <;> rfl

theorem without_proxies (world : World) (proxy other : ProxyId) :
    (world.without proxy).proxies.get? other =
      if other = proxy then none else world.proxies.get? other := by
  unfold without
  dsimp only
  split
  · rw [detach_proxies, Table.get?_erase]
  · rename_i missing
    split
    · rename_i same
      rw [same, missing]
    · rfl

theorem cacheOf_without (world : World) (proxy other : ProxyId) (tier : Tier) :
    (world.without proxy).cacheOf other tier =
      if other = proxy then none else world.cacheOf other tier := by
  unfold cacheOf
  rw [without_proxies]
  split <;> rfl

theorem without_materials (world : World) (proxy : ProxyId) :
    (world.without proxy).materials = world.materials := by
  unfold without
  dsimp only
  split
  · exact detach_materials ..
  · rfl

theorem without_bindings (world : World) (proxy : ProxyId) :
    (world.without proxy).bindings = world.bindings := by
  unfold without
  dsimp only
  split
  · exact detach_bindings ..
  · rfl

theorem mem_forgetBuilds {builtFrom : Index ResourceId (ProxyId × Tier)} {proxy : ProxyId}
    (caches : PerTier UniformCache) {note : ProxyId × Tier} {resource : ResourceId}
    (member : note ∈ Index.entriesOf builtFrom resource) (other : note.1 ≠ proxy) :
    note ∈ Index.entriesOf (forgetBuilds builtFrom proxy caches) resource := by
  unfold forgetBuilds
  induction caches.entries generalizing builtFrom with
  | nil => exact member
  | cons entry rest inductionHypothesis =>
    refine inductionHypothesis ?_
    dsimp only
    split
    · rw [Index.entriesOf_remove]
      split
      · rename_i same
        refine List.mem_filter.mpr ⟨same ▸ member, decide_eq_true fun equal => ?_⟩
        exact other (congrArg Prod.fst equal)
      · exact member
    · exact member

/-- The notes about the caches of other proxies stay. -/
theorem mem_without_builtFrom {world : World} {proxy : ProxyId} {note : ProxyId × Tier}
    {resource : ResourceId} (member : note ∈ Index.entriesOf world.builtFrom resource)
    (other : note.1 ≠ proxy) :
    note ∈ Index.entriesOf (world.without proxy).builtFrom resource := by
  unfold without
  dsimp only
  split
  · rw [detach_builtFrom]
    exact mem_forgetBuilds _ member other
  · exact member

/-- A proxy is taken away from its parent, but no other child is. -/
theorem mem_without_children {world : World} {proxy child parent : ProxyId}
    (member : child ∈ Index.entriesOf world.children parent) (other : child ≠ proxy) :
    child ∈ Index.entriesOf (world.without proxy).children parent := by
  unfold without
  dsimp only
  split
  · rw [detach_children]
    split
    · rw [Index.entriesOf_remove]
      split
      · rename_i same
        exact List.mem_filter.mpr ⟨same ▸ member, decide_eq_true other⟩
      · exact member
    · exact member
  · exact member

theorem mem_without_users {world : World} {proxy other : ProxyId} {resource : ResourceId}
    (member : other ∈ Index.entriesOf world.users resource) (different : other ≠ proxy) :
    other ∈ Index.entriesOf (world.without proxy).users resource := by
  unfold without
  dsimp only
  split
  · unfold detach
    dsimp only
    split
    · exact mem_unindexMaterials_other _ member different
    · exact member
  · exact member

/-- Neither what is done nor how it is done changes with a proxy that leaves. -/
theorem without_mode (world : World) (proxy : ProxyId) :
    (world.without proxy).deferring = world.deferring ∧
      (world.without proxy).activeTiers = world.activeTiers := by
  unfold without detach
  dsimp only
  split
  · split <;> exact ⟨rfl, rfl⟩
  · exact ⟨rfl, rfl⟩

/-- The other proxies go on waiting. -/
theorem mem_without_deferred {world : World} {proxy other : ProxyId}
    (member : other ∈ world.deferred) (different : other ≠ proxy) :
    other ∈ (world.without proxy).deferred := by
  have kept : (world.without proxy).deferred = world.deferred.filter (· ≠ proxy) := by
    unfold without detach
    dsimp only
    split
    · split <;> rfl
    · rfl
  rw [kept]
  exact List.mem_filter.mpr ⟨member, decide_eq_true different⟩

/-! ### What a command that went well has done -/

variable {world next : World} {resource : ResourceId} {proxy : ProxyId}

/-- A map that has been set was of no resource, or it was compiled and has taken the place of the
one the resource had. -/
theorem setMap_cases {map : Option SharedMap} (ran : world.setMap resource map = .ok next) :
    (world.materials.get? resource = none ∧ next = world) ∨
      ∃ material, world.materials.get? resource = some material ∧
        (∀ shared, map = some shared → shared.map.isCompiled = true) ∧
        world.exchangeMap resource material map = .ok next := by
  unfold setMap at ran
  split at ran
  · rename_i missing
    cases ran
    exact .inl ⟨missing, rfl⟩
  · rename_i material found
    exact .inr ⟨material, found, fun shared same => (by cases same), ran⟩
  · rename_i material shared found
    split at ran
    · rename_i compiled
      exact .inr ⟨material, found, fun other same => Option.some.inj same ▸ compiled, ran⟩
    · cases ran

/-- A resource that has been released was none, or its dependents were told and its builds are
forgotten. -/
theorem releaseMaterial_cases (ran : world.releaseMaterial resource = .ok next) :
    (world.materials.get? resource = none ∧ next = world) ∨
      ∃ material left, world.materials.get? resource = some material ∧
        (world.withdraw resource).invalidateDependents resource material.info.tier true =
          .ok left ∧
        next = { left with builtFrom := left.builtFrom.erase resource } := by
  unfold releaseMaterial at ran
  split at ran
  · rename_i missing
    cases ran
    exact .inl ⟨missing, rfl⟩
  · rename_i material found
    obtain ⟨left, invalidated, same⟩ := bind_eq_ok.mp ran
    cases same
    exact .inr ⟨material, left, found, invalidated, rfl⟩

/-- Materials are only given to a proxy that has materials of its own, and its family is told. -/
theorem setMaterials_cases {materials : Materials}
    (ran : world.setMaterials proxy materials = .ok next) :
    ((∀ owner, world.proxies.get? proxy = some owner → owner.kind.materials? = none) ∧
        next = world) ∨
      ∃ owner previous, world.proxies.get? proxy = some owner ∧
        owner.kind.materials? = some previous ∧
        (world.reassign proxy owner previous materials).invalidateFamily proxy = .ok next := by
  unfold setMaterials at ran
  split at ran
  · rename_i missing
    cases ran
    exact .inl ⟨fun owner found => (by rw [missing] at found; cases found), rfl⟩
  · rename_i owner found
    split at ran
    · rename_i without
      cases ran
      refine .inl ⟨fun other same => ?_, rfl⟩
      rw [found] at same
      exact Option.some.inj same ▸ without
    · rename_i previous owned
      exact .inr ⟨owner, previous, found, owned, ran⟩

/-- A parameter is only set on a proxy that is there, and its family is told. -/
theorem setParameter_cases {name : String} {value : Option ParameterValue}
    (ran : world.setParameter proxy name value = .ok next) :
    (world.proxies.get? proxy = none ∧ next = world) ∨
      ∃ owner, world.proxies.get? proxy = some owner ∧
        (world.override proxy owner name value).invalidateFamily proxy = .ok next := by
  unfold setParameter at ran
  split at ran
  · rename_i missing
    cases ran
    exact .inl ⟨missing, rfl⟩
  · rename_i owner found
    exact .inr ⟨owner, found, ran⟩

end Shading.World
