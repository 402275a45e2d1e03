/-
Indices that name nothing but what is there. A child is listed under the parent
it hangs on, a proxy under the resources it has of its own, a cache under the
resource it was built from, and a proxy that waits to be looked at is live. That
the indices leave nothing out is said elsewhere; here it is said that nothing is
left in them, and that nothing is in them twice. So a world without proxies has
empty indices.
-/

import Shading.Proofs.Render.Runs

namespace Shading

/-! ### What is left in an index -/

namespace Index

variable {κ β : Type} [DecidableEq κ] [DecidableEq β]

theorem mem_entriesOf_remove {index : Index κ β} {key other : κ} {entry its : β} :
    its ∈ entriesOf (remove index key entry) other ↔
      its ∈ entriesOf index other ∧ ¬(other = key ∧ its = entry) := by
  rw [entriesOf_remove]
  by_cases same : other = key
  · rw [if_pos same, same, List.mem_filter, decide_eq_true_eq]
    simp
  · rw [if_neg same]
    simp [same]

/-- An entry is taken from many keys. -/
theorem mem_entriesOf_foldl_remove {index : Index κ β} {keys : List κ} {other : κ}
    {entry its : β} :
    its ∈ entriesOf (keys.foldl (fun index key => remove index key entry) index) other ↔
      its ∈ entriesOf index other ∧ ¬(other ∈ keys ∧ its = entry) := by
  induction keys generalizing index with
  | nil => simp
  | cons first rest inductionHypothesis =>
    rw [List.foldl_cons, inductionHypothesis, mem_entriesOf_remove, List.mem_cons, and_assoc,
      ← not_or, or_and_right]

omit [DecidableEq β] in
theorem mem_entriesOf_push {index : Index κ β} {key other : κ} {entry its : β} :
    its ∈ entriesOf (push index key entry) other ↔
      its ∈ entriesOf index other ∨ other = key ∧ its = entry := by
  rw [entriesOf_push]
  by_cases same : other = key
  · rw [if_pos same, same, List.mem_append, List.mem_singleton]
    simp
  · rw [if_neg same]
    simp [same]

omit [DecidableEq β] in
/-- What many steps have left was there before, and none of them has taken it out. -/
theorem of_mem_entriesOf_foldl {α : Type} {step : Index κ β → α → Index κ β} {other : κ} {its : β}
    (taken : α → Prop) (each : ∀ index entry, its ∈ entriesOf (step index entry) other →
      its ∈ entriesOf index other ∧ ¬taken entry) {entries : List α} {index : Index κ β}
    (member : its ∈ entriesOf (entries.foldl step index) other) :
    its ∈ entriesOf index other ∧ ∀ entry ∈ entries, ¬taken entry := by
  induction entries generalizing index with
  | nil => exact ⟨member, List.forall_mem_nil _⟩
  | cons first rest inductionHypothesis =>
    obtain ⟨left, apart⟩ := inductionHypothesis member
    obtain ⟨there, different⟩ := each index first left
    exact ⟨there, List.forall_mem_cons.mpr ⟨different, apart⟩⟩

/-! ### Nothing twice -/

omit [DecidableEq β] in
/-- No key has an entry twice. -/
def Single (index : Index κ β) : Prop := ∀ key, (entriesOf index key).Nodup

namespace Single

variable {index : Index κ β} {key : κ} {entry : β}

omit [DecidableEq β] in
theorem push (single : Single index) (new : entry ∉ entriesOf index key) :
    Single (Index.push index key entry) := by
  intro other
  rw [entriesOf_push]
  split
  · exact List.nodup_append.mpr ⟨single key, List.nodup_singleton entry,
      fun its member last inside same =>
        new (same.trans (List.mem_singleton.mp inside) ▸ member)⟩
  · exact single other

theorem add (single : Single index) (key : κ) (entry : β) : Single (Index.add index key entry) := by
  unfold Index.add
  split
  · exact single
  · rename_i new
    exact single.push new

theorem remove (single : Single index) (key : κ) (entry : β) :
    Single (Index.remove index key entry) := by
  intro other
  rw [entriesOf_remove]
  split
  · exact (single key).filter _
  · exact single other

omit [DecidableEq β] in
theorem erase (single : Single index) (key : κ) : Single (Table.erase index key) := by
  intro other
  rw [entriesOf_erase]
  split
  · exact List.nodup_nil
  · exact single other

omit [DecidableEq β] in
theorem foldl {α : Type} {step : Index κ β → α → Index κ β}
    (each : ∀ index entry, Single index → Single (step index entry)) (single : Single index)
    (entries : List α) : Single (entries.foldl step index) :=
  List.foldlRecOn entries step single fun index before entry _ => each index entry before

end Single

end Index

namespace World

variable {created : List ProxyId} {world next : World} {proxy : ProxyId} {tier : Tier}
  {recreate : Bool} {owner : RenderProxy} {resource : ResourceId}

theorem mem_unindexMaterials {other : ProxyId} {materials : Materials} :
    other ∈ Index.entriesOf (world.unindexMaterials proxy materials).users resource ↔
      other ∈ Index.entriesOf world.users resource ∧
        ¬((∃ tier, materials.get tier = some resource) ∧ other = proxy) := by
  have named : resource ∈ materials.toList.filterMap id ↔
      ∃ tier, materials.get tier = some resource := by
    rw [List.mem_filterMap]
    simp only [id_eq, exists_eq_right, PerTier.mem_toList]
  rw [← named]
  exact Index.mem_entriesOf_foldl_remove

/-- Only the notes of the caches themselves are taken out. -/
theorem of_mem_forgetBuilds {builtFrom : Index ResourceId (ProxyId × Tier)}
    {caches : PerTier UniformCache} {note : ProxyId × Tier}
    (member : note ∈ Index.entriesOf (forgetBuilds builtFrom proxy caches) resource) :
    note ∈ Index.entriesOf builtFrom resource ∧
      ¬(note.1 = proxy ∧ (caches.get note.2).resource = some resource) := by
  refine (Index.of_mem_entriesOf_foldl
    (fun entry : Tier × UniformCache =>
      note = (proxy, entry.1) ∧ entry.2.resource = some resource)
    (fun builtFrom entry left => ?_) member).imp_right fun apart both => ?_
  · obtain ⟨tier, cache⟩ := entry
    dsimp only at left ⊢
    cases built : cache.resource with
    | none =>
      rw [built] at left
      exact ⟨left, fun both => Option.some_ne_none _ both.2.symm⟩
    | some other =>
      rw [built] at left
      obtain ⟨there, different⟩ := Index.mem_entriesOf_remove.mp left
      exact ⟨there, fun both => different ⟨(Option.some.inj both.2).symm, both.1⟩⟩
  · refine apart (note.2, caches.get note.2) ?_ ⟨Prod.ext both.1 rfl, both.2⟩
    cases note.2 <;> simp [PerTier.entries, PerTier.get]

/-- A cache is noted under what it is built from, and taken out where it was noted before. -/
theorem of_mem_install_builtFrom {built : ResourceId} {rebuilt : UniformCache.Rebuilt}
    {note : ProxyId × Tier}
    (member : note ∈ Index.entriesOf (world.install proxy tier owner built rebuilt).builtFrom
      resource) :
    note = (proxy, tier) ∧ resource = built ∨ note ∈ Index.entriesOf world.builtFrom resource ∧
      ¬(note = (proxy, tier) ∧ (owner.caches.get tier).resource = some resource ∧
        resource ≠ built) := by
  rw [install_builtFrom] at member
  cases was : (owner.caches.get tier).resource with
  | none =>
    rw [was, if_neg (Option.some_ne_none _).symm] at member
    rcases Index.mem_entriesOf_push.mp member with there | ⟨here, same⟩
    · exact .inr ⟨there, fun both => Option.some_ne_none _ both.2.1.symm⟩
    · exact .inl ⟨same, here⟩
  | some previous =>
    rw [was] at member
    split at member
    · rename_i same
      exact .inr ⟨member, fun both => both.2.2 (Option.some.inj (both.2.1.symm.trans same))⟩
    · rcases Index.mem_entriesOf_push.mp member with left | ⟨here, same⟩
      · obtain ⟨there, apart⟩ := Index.mem_entriesOf_remove.mp left
        exact .inr ⟨there, fun both => apart ⟨(Option.some.inj both.2.1).symm, both.1⟩⟩
      · exact .inl ⟨same, here⟩

/-- A proxy that is put in the world is listed under its parent and nowhere else. -/
theorem of_mem_attach_children {kind : ProxyKind} {child parent : ProxyId}
    (member : child ∈ Index.entriesOf (world.attach proxy kind).children parent) :
    child ∈ Index.entriesOf world.children parent ∨
      (child = proxy ∧ kind.parent? = some parent) := by
  unfold World.attach at member
  cases hangs : kind.parent? with
  | none =>
    rw [hangs] at member
    cases materials : kind.materials? <;> rw [materials] at member <;> exact .inl member
  | some above =>
    rw [hangs] at member
    have there : child ∈ Index.entriesOf (Index.push world.children above proxy) parent := by
      cases materials : kind.materials? <;> rw [materials] at member <;> exact member
    rw [Index.entriesOf_push] at there
    split at there
    · rename_i same
      rcases List.mem_append.mp there with before | last
      · exact .inl (same ▸ before)
      · exact .inr ⟨List.mem_singleton.mp last, congrArg some same.symm⟩
    · exact .inl there

/-! ### Tidy worlds -/

/-- Nothing is listed twice. -/
structure Unrepeated (world : World) : Prop where
  children : Index.Single world.children
  users : Index.Single world.users
  builtFrom : Index.Single world.builtFrom
  deferred : world.deferred.Nodup

theorem Unrepeated.congr (once : Unrepeated world) (sameChildren : next.children = world.children)
    (sameUsers : next.users = world.users) (sameBuilds : next.builtFrom = world.builtFrom)
    (sameWaiting : next.deferred = world.deferred) : Unrepeated next :=
  ⟨sameChildren ▸ once.children, sameUsers ▸ once.users, sameBuilds ▸ once.builtFrom,
    sameWaiting ▸ once.deferred⟩

theorem single_indexMaterials (single : Index.Single world.users) (proxy : ProxyId)
    (materials : Materials) : Index.Single (world.indexMaterials proxy materials).users :=
  single.foldl (fun _ _ before => before.add _ _) _

theorem single_unindexMaterials (single : Index.Single world.users) (proxy : ProxyId)
    (materials : Materials) : Index.Single (world.unindexMaterials proxy materials).users :=
  single.foldl (fun _ _ before => before.remove _ _) _

theorem single_forgetBuilds {builtFrom : Index ResourceId (ProxyId × Tier)}
    (single : Index.Single builtFrom) (proxy : ProxyId) (caches : PerTier UniformCache) :
    Index.Single (forgetBuilds builtFrom proxy caches) := by
  refine single.foldl (fun _ _ before => ?_) _
  dsimp only
  split
  · exact before.remove _ _
  · exact before

/-- Whatever is listed is there, and is listed for what it is, once. -/
structure Tidy (created : List ProxyId) (world : World) : Prop where
  known : ∀ proxy kind, world.proxies.kinds proxy = some kind → proxy ∈ created
  children : ∀ parent, ∀ child ∈ Index.entriesOf world.children parent,
    world.proxies.kinds.Hangs child parent
  users : ∀ resource, ∀ proxy ∈ Index.entriesOf world.users resource,
    ∃ kind, world.proxies.kinds proxy = some kind ∧ ∃ tier, kind.own? tier = some resource
  builtFrom : ∀ resource, ∀ note ∈ Index.entriesOf world.builtFrom resource,
    ∃ cache, world.cacheOf note.1 note.2 = some cache ∧ cache.resource = some resource
  deferred : ∀ proxy ∈ world.deferred, (world.proxies.kinds proxy).isSome
  once : Unrepeated world

namespace Tidy

/-- The proxies are what they were, and their caches were built from what they were built from. -/
theorem carry (tidy : Tidy created world) (sameKinds : next.proxies.kinds = world.proxies.kinds)
    (caches : ∀ proxy tier cache, world.cacheOf proxy tier = some cache →
      ∃ later, next.cacheOf proxy tier = some later ∧ later.resource = cache.resource)
    (sameChildren : next.children = world.children) (sameUsers : next.users = world.users)
    (sameBuilds : next.builtFrom = world.builtFrom)
    (sameWaiting : next.deferred = world.deferred) : Tidy created next := by
  refine ⟨sameKinds ▸ tidy.known, ?_, ?_, fun resource note member => ?_, ?_,
    tidy.once.congr sameChildren sameUsers sameBuilds sameWaiting⟩
  · rw [sameKinds, sameChildren]
    exact tidy.children
  · rw [sameKinds, sameUsers]
    exact tidy.users
  · rw [sameBuilds] at member
    obtain ⟨cache, there, built⟩ := tidy.builtFrom resource note member
    obtain ⟨later, found, same⟩ := caches _ _ cache there
    exact ⟨later, found, same.trans built⟩
  · rw [sameKinds, sameWaiting]
    exact tidy.deferred

theorem congr (tidy : Tidy created world) (sameProxies : next.proxies = world.proxies)
    (sameChildren : next.children = world.children) (sameUsers : next.users = world.users)
    (sameBuilds : next.builtFrom = world.builtFrom)
    (sameWaiting : next.deferred = world.deferred) : Tidy created next := by
  refine tidy.carry (by rw [sameProxies]) (fun proxy tier cache there => ⟨cache, ?_, rfl⟩)
    sameChildren sameUsers sameBuilds sameWaiting
  unfold cacheOf
  rw [sameProxies]
  exact there

/-! ### Upkeep -/

/-- A cache is not noted yet under what it was not built from. -/
theorem unrepeated_install {built : ResourceId} (tidy : Tidy created world)
    (found : world.proxies.get? proxy = some owner) (rebuilt : UniformCache.Rebuilt) :
    Unrepeated (world.install proxy tier owner built rebuilt) := by
  have noted : (proxy, tier) ∈ Index.entriesOf world.builtFrom built →
      (owner.caches.get tier).resource = some built := by
    intro member
    obtain ⟨cache, there, was⟩ := tidy.builtFrom built (proxy, tier) member
    rw [cacheOf, found] at there
    cases there
    exact was
  refine ⟨?_, ?_, ?_, ?_⟩
  · rw [install_children]
    exact tidy.once.children
  · rw [install_users]
    exact tidy.once.users
  · rw [install_builtFrom]
    split
    · exact tidy.once.builtFrom
    · rename_i other
      cases was : (owner.caches.get tier).resource with
      | none => exact tidy.once.builtFrom.push fun member => other (noted member)
      | some previous =>
        refine (tidy.once.builtFrom.remove previous (proxy, tier)).push fun member => ?_
        exact other (noted (Index.mem_entriesOf_remove.mp member).1)
  · rw [install_deferred]
    exact tidy.once.deferred

theorem installing : Installing (Tidy created) where
  installed := by
    intro world proxy tier drawable owner rebuilt tidy drawn found rebuild
    have kinds : (world.install proxy tier owner drawable.resource rebuilt).proxies.kinds =
        world.proxies.kinds := by
      rw [install_proxies]
      exact Proxies.kinds_insert_same found rfl
    have source := UniformCache.rebuild_resource rebuild
    refine ⟨kinds ▸ tidy.known, ?_, ?_, fun resource note member => ?_, ?_,
      tidy.unrepeated_install found rebuilt⟩
    · rw [kinds, install_children]
      exact tidy.children
    · rw [kinds, install_users]
      exact tidy.users
    · rcases of_mem_install_builtFrom member with ⟨rfl, rfl⟩ | ⟨there, left⟩
      · refine ⟨rebuilt.cache, ?_, source⟩
        rw [cacheOf_install _ _ _ _ _ _ found, if_pos ⟨rfl, rfl⟩]
      · obtain ⟨cache, old, built⟩ := tidy.builtFrom resource note there
        rw [cacheOf_install _ _ _ _ _ _ found]
        split
        · rename_i here
          rw [here.1, here.2, cacheOf, found] at old
          cases old
          have same : drawable.resource = resource := by_contra fun different =>
            left ⟨Prod.ext here.1 here.2, built, Ne.symm different⟩
          exact ⟨_, rfl, source.trans (congrArg some same)⟩
        · exact ⟨cache, old, built⟩
    · rw [kinds, install_deferred]
      exact tidy.deferred

theorem updateDeferred {count : Nat} (tidy : Tidy created world)
    (ran : world.updateDeferred = .ok (count, next)) : Tidy created next := by
  obtain ⟨updated, updates, same⟩ := bind_eq_ok.mp ran
  cases same
  have idle : Tidy created { world with deferred := [] } :=
    { tidy with
      deferred := fun _ none => nomatch none
      once := { tidy.once with deferred := List.nodup_nil } }
  exact foldlM_kept (fun _ _ _ before ran => installing.updateActive before ran) _ _ _ idle updates

theorem markStale (tidy : Tidy created world) (live : (world.proxies.kinds proxy).isSome)
    (ran : world.markStale proxy = .ok next) : Tidy created next := by
  unfold World.markStale at ran
  split at ran
  · cases ran
    split
    · exact tidy
    · rename_i new
      have once : (world.deferred ++ [proxy]).Nodup :=
        List.nodup_append.mpr ⟨tidy.once.deferred, List.nodup_singleton proxy,
          fun other member last inside same =>
            new (same.trans (List.mem_singleton.mp inside) ▸ member)⟩
      refine { tidy with
        deferred := fun other member => ?_
        once := { tidy.once with deferred := once } }
      rcases List.mem_append.mp member with before | last
      · exact tidy.deferred other before
      · exact List.mem_singleton.mp last ▸ live
  · exact installing.updateActive tidy ran

theorem live_of_found (found : world.proxies.get? proxy = some owner) :
    (world.proxies.kinds proxy).isSome := by
  unfold Proxies.kinds
  rw [found]
  rfl

/-- Emptied caches are still known to be built from what they were. -/
theorem emptied {other : RenderProxy} {hit : ProxyId → Tier → Prop}
    [∀ proxy tier, Decidable (hit proxy tier)] (tidy : Tidy created world)
    (found : world.proxies.get? proxy = some owner)
    (written : next.proxies = world.proxies.insert proxy other) (sameKind : other.kind = owner.kind)
    (sameChildren : next.children = world.children) (sameUsers : next.users = world.users)
    (sameBuilds : next.builtFrom = world.builtFrom)
    (sameWaiting : next.deferred = world.deferred)
    (caches : ∀ proxy tier, next.cacheOf proxy tier =
      if hit proxy tier then (world.cacheOf proxy tier).map (·.invalidate recreate)
      else world.cacheOf proxy tier) :
    Tidy created next ∧ (next.proxies.kinds proxy).isSome := by
  have kinds : next.proxies.kinds = world.proxies.kinds :=
    written ▸ Proxies.kinds_insert_same found sameKind
  refine ⟨tidy.carry kinds (fun proxy tier cache there => ?_) sameChildren sameUsers sameBuilds
    sameWaiting, kinds ▸ live_of_found found⟩
  rw [caches, there]
  split <;> exact ⟨_, rfl, rfl⟩

theorem invalidate (tidy : Tidy created world)
    (ran : world.invalidate recreate proxy = .ok next) : Tidy created next := by
  unfold World.invalidate at ran
  split at ran
  · cases ran
    exact tidy
  · rename_i owner found
    obtain ⟨dropped, live⟩ := tidy.emptied found (dropCaches_proxies ..) rfl rfl rfl rfl rfl
      fun other level => cacheOf_dropCaches world recreate proxy owner found other level
    exact dropped.markStale live ran

theorem invalidateTier (tidy : Tidy created world)
    (ran : world.invalidateTier recreate proxy tier = .ok next) : Tidy created next := by
  unfold World.invalidateTier at ran
  split at ran
  · cases ran
    exact tidy
  · rename_i owner found
    obtain ⟨dropped, live⟩ := tidy.emptied found (dropCache_proxies ..) rfl rfl rfl rfl rfl
      fun other level => cacheOf_dropCache world recreate proxy owner tier found other level
    exact dropped.markStale live ran

theorem invalidateFamily (tidy : Tidy created world)
    (ran : world.invalidateFamily proxy = .ok next) : Tidy created next :=
  foldlM_kept (fun _ _ _ before stepped => before.invalidate stepped) _ _ _ tidy ran

theorem invalidateDependents (tidy : Tidy created world)
    (ran : world.invalidateDependents resource tier recreate = .ok next) : Tidy created next :=
  foldlM_kept (fun _ _ _ before stepped => before.invalidateTier stepped) _ _ _ tidy ran

/-! ### Resources -/

theorem setMap {map : Option SharedMap} (tidy : Tidy created world)
    (ran : world.setMap resource map = .ok next) : Tidy created next := by
  obtain ⟨-, rfl⟩ | ⟨material, -, -, ran⟩ := setMap_cases ran
  · exact tidy
  · have placed : Tidy created (world.placeMap resource material map) :=
      tidy.congr rfl rfl rfl rfl rfl
    exact placed.invalidateDependents ran

theorem releaseMaterial (tidy : Tidy created world)
    (ran : world.releaseMaterial resource = .ok next) : Tidy created next := by
  obtain ⟨-, rfl⟩ | ⟨material, left, -, invalidated, rfl⟩ := releaseMaterial_cases ran
  · exact tidy
  · have withdrawn : Tidy created (world.withdraw resource) := tidy.congr rfl rfl rfl rfl rfl
    have after := withdrawn.invalidateDependents invalidated
    refine { after with
      builtFrom := fun other note member => ?_
      once := { after.once with builtFrom := after.once.builtFrom.erase resource } }
    rw [Index.entriesOf_erase] at member
    split at member
    · cases member
    · exact after.builtFrom other note member

/-! ### Proxies -/

theorem unrepeated_attach {kind : ProxyKind} (tidy : Tidy created world)
    (fresh : proxy ∉ created) : Unrepeated (world.attach proxy kind) := by
  have new (parent : ProxyId) : proxy ∉ Index.entriesOf world.children parent := fun member => by
    obtain ⟨its, live, _⟩ := tidy.children parent proxy member
    exact fresh (tidy.known proxy its live)
  have children (parent : ProxyId) : Index.Single (Index.push world.children parent proxy) :=
    tidy.once.children.push (new parent)
  have users (materials : Materials) :=
    single_indexMaterials tidy.once.users proxy materials
  obtain ⟨onceChildren, onceUsers, onceBuilt, onceWaiting⟩ := tidy.once
  unfold World.attach
  cases kind.parent? with
  | none =>
    cases kind.materials? with
    | none => exact ⟨onceChildren, onceUsers, onceBuilt, onceWaiting⟩
    | some materials => exact ⟨onceChildren, users materials, onceBuilt, onceWaiting⟩
  | some parent =>
    cases kind.materials? with
    | none => exact ⟨children parent, onceUsers, onceBuilt, onceWaiting⟩
    | some materials => exact ⟨children parent, users materials, onceBuilt, onceWaiting⟩

/-- Nothing is listed of a proxy that is not there. -/
theorem attach {kind : ProxyKind} (tidy : Tidy created world) (fresh : proxy ∉ created) :
    Tidy (created ++ [proxy]) (world.attach proxy kind) := by
  have kinds : (world.attach proxy kind).proxies.kinds =
      Function.update world.proxies.kinds proxy (some kind) := by
    rw [attach_proxies, Proxies.kinds_insert]
  have other {its : ProxyId} (live : (world.proxies.kinds its).isSome) : its ≠ proxy := by
    obtain ⟨_, found⟩ := Option.isSome_iff_exists.mp live
    exact fun same => fresh (same ▸ tidy.known its _ found)
  refine ⟨fun its kind live => ?_, fun parent child member => ?_, fun resource its member => ?_,
    fun resource note member => ?_, fun its member => ?_, tidy.unrepeated_attach fresh⟩
  · rw [kinds, Function.update_apply] at live
    split at live
    · rename_i same
      exact List.mem_append_right _ (List.mem_singleton.mpr same)
    · exact List.mem_append_left _ (tidy.known its kind live)
  · rcases of_mem_attach_children member with before | ⟨rfl, hangs⟩
    · obtain ⟨its, live, hangs⟩ := tidy.children parent child before
      refine ⟨its, ?_, hangs⟩
      rw [kinds, Function.update_of_ne (other (by rw [live]; rfl)), live]
    · exact ⟨kind, by rw [kinds, Function.update_self], hangs⟩
  · rcases mem_attach_users.mp member with before | ⟨rfl, named⟩
    · obtain ⟨found, live, named⟩ := tidy.users resource its before
      refine ⟨found, ?_, named⟩
      rw [kinds, Function.update_of_ne (other (by rw [live]; rfl)), live]
    · exact ⟨kind, by rw [kinds, Function.update_self], named⟩
  · rw [attach_builtFrom] at member
    obtain ⟨cache, there, built⟩ := tidy.builtFrom resource note member
    refine ⟨cache, ?_, built⟩
    obtain ⟨owner, found, _⟩ := Option.map_eq_some_iff.mp there
    rw [cacheOf_attach, if_neg (other (live_of_found found)), there]
  · have before : its ∈ world.deferred := by
      obtain ⟨children, users, same⟩ := attach_eq world proxy kind
      rw [same] at member
      exact member
    have live := tidy.deferred its before
    rw [kinds, Function.update_of_ne (other live)]
    exact live

theorem createProxy {kind : ProxyKind} (tidy : Tidy created world) (fresh : proxy ∉ created)
    (ran : world.createProxy proxy kind = .ok next) : Tidy (created ++ [proxy]) next := by
  refine (tidy.attach fresh).markStale ?_ ran
  rw [attach_proxies, Proxies.kinds_insert, Function.update_self]
  rfl

/-- With other materials a proxy is listed under others. -/
theorem reassign {previous materials : Materials} (tidy : Tidy created world)
    (found : world.proxies.get? proxy = some owner)
    (owned : owner.kind.materials? = some previous) :
    Tidy created (world.reassign proxy owner previous materials) := by
  have before : world.proxies.kinds proxy = some owner.kind :=
    Proxies.kinds_eq_some.mpr ⟨owner, found, rfl⟩
  have written : (world.reassign proxy owner previous materials).proxies =
    world.proxies.insert proxy { owner with kind := owner.kind.withMaterials materials } := rfl
  have kinds : (world.reassign proxy owner previous materials).proxies.kinds =
      Function.update world.proxies.kinds proxy (some (owner.kind.withMaterials materials)) := by
    rw [written, Proxies.kinds_insert]
  have users : Index.Single (world.reassign proxy owner previous materials).users :=
    single_indexMaterials (single_unindexMaterials tidy.once.users proxy previous) proxy materials
  refine ⟨fun other kind live => ?_, fun parent child member => ?_, fun resource other member => ?_,
    fun resource note member => ?_, fun other member => ?_, { tidy.once with users }⟩
  · rw [kinds, Function.update_apply] at live
    split at live
    · rename_i same
      exact same ▸ tidy.known proxy owner.kind before
    · exact tidy.known other kind live
  · rw [kinds, Kinds.hangs_update before (ProxyKind.parent?_withMaterials _ _)]
    exact tidy.children parent child member
  · rw [kinds]
    rcases mem_indexMaterials.mp member with there | ⟨rfl, level, has⟩
    · obtain ⟨there, apart⟩ := mem_unindexMaterials.mp there
      obtain ⟨kind, live, level, named⟩ := tidy.users resource other there
      have different : other ≠ proxy := by
        rintro rfl
        obtain ⟨own, mine, has⟩ := Option.bind_eq_some_iff.mp named
        cases before.symm.trans live
        cases owned.symm.trans mine
        exact apart ⟨⟨level, has⟩, rfl⟩
      exact ⟨kind, (Function.update_of_ne different ..).trans live, level, named⟩
    · refine ⟨_, Function.update_self .., level, ?_⟩
      unfold ProxyKind.own?
      rw [ProxyKind.materials?_withMaterials owned]
      exact has
  · rw [cacheOf_insert found written rfl]
    exact tidy.builtFrom resource note member
  · rw [kinds, Function.update_apply]
    split
    · rfl
    · exact tidy.deferred other member

theorem setMaterials {materials : Materials} (tidy : Tidy created world)
    (ran : world.setMaterials proxy materials = .ok next) : Tidy created next := by
  obtain ⟨-, rfl⟩ | ⟨owner, previous, found, owned, ran⟩ := setMaterials_cases ran
  · exact tidy
  · exact (tidy.reassign found owned).invalidateFamily ran

theorem setParameter {name : String} {value : Option ParameterValue} (tidy : Tidy created world)
    (ran : world.setParameter proxy name value = .ok next) : Tidy created next := by
  obtain ⟨-, rfl⟩ | ⟨owner, found, ran⟩ := setParameter_cases ran
  · exact tidy
  · have written : (world.override proxy owner name value).proxies =
      world.proxies.insert proxy { owner with overrides := owner.overrides.set name value } := rfl
    have overridden : Tidy created (world.override proxy owner name value) := by
      refine tidy.carry (written ▸ Proxies.kinds_insert_same found rfl)
        (fun _ _ cache there => ⟨cache, ?_, rfl⟩) rfl rfl rfl rfl
      rw [cacheOf_insert found written rfl]
      exact there
    exact overridden.invalidateFamily ran

/-! ### What is left without a proxy -/

theorem left_children {child parent : ProxyId} (tidy : Tidy created world)
    (member : child ∈ Index.entriesOf (world.without proxy).children parent) :
    child ∈ Index.entriesOf world.children parent ∧ child ≠ proxy := by
  unfold World.without at member
  dsimp only at member
  split at member
  · rename_i owner found
    have hung (there : child ∈ Index.entriesOf world.children parent) (here : child = proxy) :
        owner.kind.parent? = some parent := by
      obtain ⟨kind, live, hangs⟩ := tidy.children parent child there
      rw [here, Proxies.kinds, found] at live
      cases live
      exact hangs
    rw [detach_children] at member
    split at member
    · rename_i above hangs
      obtain ⟨there, apart⟩ := Index.mem_entriesOf_remove.mp member
      refine ⟨there, fun here => apart ⟨?_, here⟩⟩
      exact Option.some.inj ((hung there here).symm.trans hangs)
    · rename_i root
      exact ⟨member, fun here => Option.some_ne_none _ ((hung member here).symm.trans root)⟩
  · rename_i missing
    refine ⟨member, fun here => ?_⟩
    obtain ⟨kind, live, _⟩ := tidy.children parent child member
    rw [here, Proxies.kinds, missing] at live
    cases live

theorem left_users {other : ProxyId} (tidy : Tidy created world)
    (member : other ∈ Index.entriesOf (world.without proxy).users resource) :
    other ∈ Index.entriesOf world.users resource ∧ other ≠ proxy := by
  unfold World.without at member
  dsimp only at member
  split at member
  · rename_i owner found
    have named (there : other ∈ Index.entriesOf world.users resource) (here : other = proxy) :
        ∃ materials, owner.kind.materials? = some materials ∧
          ∃ tier, materials.get tier = some resource := by
      obtain ⟨kind, live, tier, has⟩ := tidy.users resource other there
      rw [here, Proxies.kinds, found] at live
      cases live
      obtain ⟨materials, owned, has⟩ := Option.bind_eq_some_iff.mp has
      exact ⟨materials, owned, tier, has⟩
    unfold detach at member
    dsimp only at member
    split at member
    · rename_i materials owned
      obtain ⟨there, apart⟩ := mem_unindexMaterials.mp member
      refine ⟨there, fun here => apart ⟨?_, here⟩⟩
      obtain ⟨_, same, has⟩ := named there here
      cases owned.symm.trans same
      exact has
    · rename_i bare
      refine ⟨member, fun here => ?_⟩
      obtain ⟨_, owned, _⟩ := named member here
      cases bare.symm.trans owned
  · rename_i missing
    refine ⟨member, fun here => ?_⟩
    obtain ⟨kind, live, _⟩ := tidy.users resource other member
    rw [here, Proxies.kinds, missing] at live
    cases live

theorem left_builtFrom {note : ProxyId × Tier} (tidy : Tidy created world)
    (member : note ∈ Index.entriesOf (world.without proxy).builtFrom resource) :
    note ∈ Index.entriesOf world.builtFrom resource ∧ note.1 ≠ proxy := by
  unfold World.without at member
  dsimp only at member
  split at member
  · rename_i owner found
    rw [detach_builtFrom] at member
    obtain ⟨there, apart⟩ := of_mem_forgetBuilds member
    refine ⟨there, fun here => apart ⟨here, ?_⟩⟩
    obtain ⟨cache, had, built⟩ := tidy.builtFrom resource note there
    rw [here, cacheOf, found] at had
    cases had
    exact built
  · rename_i missing
    refine ⟨member, fun here => ?_⟩
    obtain ⟨cache, had, _⟩ := tidy.builtFrom resource note member
    rw [here, cacheOf, missing] at had
    cases had

theorem without_deferred (world : World) (proxy : ProxyId) :
    (world.without proxy).deferred = world.deferred.filter (· ≠ proxy) := by
  unfold World.without detach
  dsimp only
  split
  · split <;> rfl
  · rfl

theorem left_deferred {other : ProxyId} (member : other ∈ (world.without proxy).deferred) :
    other ∈ world.deferred ∧ other ≠ proxy := by
  rw [without_deferred] at member
  obtain ⟨before, different⟩ := List.mem_filter.mp member
  exact ⟨before, of_decide_eq_true different⟩

theorem unrepeated_without (once : Unrepeated world) (proxy : ProxyId) :
    Unrepeated (world.without proxy) := by
  have waiting : (world.without proxy).deferred.Nodup := by
    rw [without_deferred]
    exact once.deferred.filter _
  unfold World.without at waiting ⊢
  dsimp only at waiting ⊢
  cases found : world.proxies.get? proxy with
  | none =>
    rw [found] at waiting
    exact { once with deferred := waiting }
  | some owner =>
    rw [found] at waiting
    have children : Index.Single (world.detach proxy owner).children := by
      rw [detach_children]
      split
      · exact once.children.remove _ _
      · exact once.children
    have users : Index.Single (world.detach proxy owner).users := by
      unfold detach
      dsimp only
      split
      · exact single_unindexMaterials once.users proxy _
      · exact once.users
    have builtFrom : Index.Single (world.detach proxy owner).builtFrom := by
      rw [detach_builtFrom]
      exact single_forgetBuilds once.builtFrom proxy owner.caches
    exact ⟨children, users, builtFrom, waiting⟩

/-- A proxy that goes is taken off every list it was on. -/
theorem detached {proxy : ProxyId} (tidy : Tidy created world) :
    Tidy created { world.without proxy with
      children := Table.erase (world.without proxy).children proxy } := by
  have kinds {other : ProxyId} {kind : ProxyKind} (different : other ≠ proxy)
      (live : world.proxies.kinds other = some kind) :
      (world.without proxy).proxies.kinds other = some kind := by
    unfold Proxies.kinds
    rw [without_proxies, if_neg different]
    exact live
  have once := unrepeated_without tidy.once proxy
  refine ⟨fun other kind live => ?_, fun parent child member => ?_, fun resource other member => ?_,
    fun resource note member => ?_, fun other member => ?_,
    { once with children := once.children.erase proxy }⟩
  · obtain ⟨owner, found, same⟩ := Proxies.kinds_eq_some.mp live
    rw [without_proxies] at found
    split at found
    · cases found
    · exact tidy.known other kind (Proxies.kinds_eq_some.mpr ⟨owner, found, same⟩)
  · rw [Index.entriesOf_erase] at member
    split at member
    · cases member
    · obtain ⟨there, different⟩ := tidy.left_children member
      obtain ⟨kind, live, hangs⟩ := tidy.children parent child there
      exact ⟨kind, kinds different live, hangs⟩
  · obtain ⟨there, different⟩ := tidy.left_users member
    obtain ⟨kind, live, named⟩ := tidy.users resource other there
    exact ⟨kind, kinds different live, named⟩
  · obtain ⟨there, different⟩ := tidy.left_builtFrom member
    obtain ⟨cache, had, built⟩ := tidy.builtFrom resource note there
    exact ⟨cache, (cacheOf_without ..).trans ((if_neg different).trans had), built⟩
  · obtain ⟨there, different⟩ := left_deferred member
    obtain ⟨kind, live⟩ := Option.isSome_iff_exists.mp (tidy.deferred other there)
    exact Option.isSome_iff_exists.mpr ⟨kind, kinds different live⟩

theorem removeProxy (tidy : Tidy created world) (ran : world.removeProxy proxy = .ok next) :
    Tidy created next :=
  foldlM_kept (fun _ _ _ before stepped => before.invalidateFamily stepped) _ _ _ tidy.detached ran

/-! ### All operations -/

theorem destroyProducer {producer : ProducerId} (tidy : Tidy created world)
    (ran : world.destroyProducer producer = .ok next) : Tidy created next := by
  have start : Tidy created
      { world with streaming := (world.streaming.destroyProducer producer).2 } :=
    tidy.congr rfl rfl rfl rfl rfl
  exact foldlM_kept (fun _ _ _ before stepped => before.invalidate stepped) _ _ next start ran

/-- Every command leaves a world tidy that creates no proxy a second time. -/
theorem apply {command : RenderCommand} (tidy : Tidy created world)
    (fresh : ∀ proxy ∈ (Operation.perform command).creates?, proxy ∉ created)
    (ran : world.apply command = .ok next) :
    Tidy (created ++ (Operation.perform command).creates?.toList) next := by
  have counted : Tidy created
      (world.count fun stats => { stats with commands := stats.commands + 1 }) :=
    tidy.congr rfl rfl rfl rfl rfl
  unfold World.apply at ran
  cases command <;> simp only [Operation.creates?, Option.toList_none, Option.toList_some,
    List.append_nil]
  case setMap => exact counted.setMap ran
  case releaseMaterial => exact counted.releaseMaterial ran
  case createProxy proxy kind => exact counted.createProxy (fresh proxy rfl) ran
  case setMaterials => exact counted.setMaterials ran
  case setParameter => exact counted.setParameter ran
  case clearParameter => exact counted.setParameter ran
  case recache => exact counted.invalidate ran
  case removeProxy => exact counted.removeProxy ran
  case destroyProducer => exact counted.destroyProducer ran
  all_goals
    cases ran
    exact counted.congr rfl rfl rfl rfl rfl

/-- So does every operation. -/
theorem carryOut {operation : Operation} (tidy : Tidy created world)
    (fresh : ∀ proxy ∈ operation.creates?, proxy ∉ created)
    (ran : operation.carryOut world = .ok next) :
    Tidy (created ++ operation.creates?.toList) next := by
  cases operation <;> simp only [Operation.creates?, Option.toList_none, List.append_nil]
  case perform command => exact tidy.apply fresh ran
  case announce =>
    cases ran
    exact tidy.congr rfl rfl rfl rfl rfl
  case updateDeferred =>
    obtain ⟨⟨count, world⟩, updated, rfl⟩ := map_eq_ok.mp ran
    exact tidy.updateDeferred updated
  case updateIfNeeded => exact installing.updateIfNeeded tidy ran
  case evaluate =>
    obtain ⟨⟨built, world⟩, evaluated, rfl⟩ := map_eq_ok.mp ran
    exact installing.evaluate tidy evaluated
  case prepareDraw =>
    obtain ⟨⟨drawn, world⟩, prepared, rfl⟩ := map_eq_ok.mp ran
    exact installing.prepareDraw tidy prepared
  case invalidate => exact tidy.invalidate ran

theorem start (deferring : Bool) (activeTiers : List Tier) :
    Tidy [] { deferring, activeTiers } where
  known := fun _ _ live => nomatch live
  children := fun _ _ member => nomatch member
  users := fun _ _ member => nomatch member
  builtFrom := fun _ _ member => nomatch member
  deferred := fun _ member => nomatch member
  once := ⟨fun _ => List.nodup_nil, fun _ => List.nodup_nil, fun _ => List.nodup_nil,
    List.nodup_nil⟩

/-- Where there are no proxies nothing is listed, and nobody waits. -/
theorem deserted (tidy : Tidy created world) (nobody : ∀ proxy, world.proxies.get? proxy = none) :
    (∀ parent, Index.entriesOf world.children parent = []) ∧
      (∀ resource, Index.entriesOf world.users resource = []) ∧
      (∀ resource, Index.entriesOf world.builtFrom resource = []) ∧ world.deferred = [] := by
  have gone (proxy : ProxyId) : world.proxies.kinds proxy = none := by
    unfold Proxies.kinds
    rw [nobody]
    rfl
  refine ⟨fun parent => List.eq_nil_iff_forall_not_mem.mpr fun child member => ?_,
    fun resource => List.eq_nil_iff_forall_not_mem.mpr fun proxy member => ?_,
    fun resource => List.eq_nil_iff_forall_not_mem.mpr fun note member => ?_,
    List.eq_nil_iff_forall_not_mem.mpr fun proxy member => ?_⟩
  · obtain ⟨_, live, _⟩ := tidy.children parent child member
    cases (gone child).symm.trans live
  · obtain ⟨_, live, _⟩ := tidy.users resource proxy member
    cases (gone proxy).symm.trans live
  · obtain ⟨_, there, _⟩ := tidy.builtFrom resource note member
    rw [cacheOf, nobody] at there
    cases there
  · have live := tidy.deferred proxy member
    rw [gone] at live
    cases live

end Tidy

end World

end Shading
