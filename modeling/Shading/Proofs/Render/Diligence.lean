/-
How caches are kept up. A cache is wanted where its proxy draws with a resource
that has a map. Such a cache is seen to if it is valid, or if its proxy waits to
be looked at. A change of the world may leave caches behind that are wanted and
not seen to; they are excused, and whoever makes the change has to see to them.

This is the converse of consistency: there whatever is valid has to be right,
and here whatever is wanted has to be valid.
-/

import Mathlib.Data.List.Flatten
import Shading.Proofs.Render.Commands

namespace Shading

namespace Kinds

variable {kinds : Kinds} {tier : Tier} {proxy : ProxyId} {resource : ResourceId}

theorem Draws.live (draws : kinds.Draws tier proxy resource) : (kinds proxy).isSome := by
  cases draws with
  | own found | inherited found => exact Option.isSome_iff_exists.mpr ⟨_, found⟩

/-- Whatever is drawn with is named by a proxy. -/
theorem Draws.named (draws : kinds.Draws tier proxy resource) :
    ∃ high kind, kinds high = some kind ∧ kind.own? tier = some resource := by
  induction draws with
  | own found owned => exact ⟨_, _, found, owned⟩
  | inherited _ _ _ _ inductionHypothesis => exact inductionHypothesis

/-- Nothing hangs on a proxy that comes last, so the others draw as they did without it. -/
theorem Draws.without_last {created : List ProxyId} {last : ProxyId} {kind : ProxyKind}
    (draws : Draws (Function.update kinds last (some kind)) tier proxy resource)
    (different : proxy ≠ last) (fresh : last ∉ created)
    (known : ∀ child kind, kinds child = some kind → child ∈ created)
    (ranked : Ranked (Function.update kinds last (some kind)) (created ++ [last]).idxOf) :
    kinds.Draws tier proxy resource := by
  have member : proxy ∈ created := by
    have live := draws.live
    rw [Function.update_of_ne different] at live
    obtain ⟨its, there⟩ := Option.isSome_iff_exists.mp live
    exact known proxy its there
  refine draws.congr fun high below => (Function.update_of_ne ?_ ..).symm
  rintro rfl
  have least := ranked.below_le below
  rw [List.idxOf_append, if_neg fresh, List.idxOf_append, if_pos member] at least
  have earlier := List.idxOf_lt_length_iff.mpr member
  exact Nat.lt_irrefl _ (Nat.lt_of_le_of_lt (Nat.le_trans (Nat.le_add_left _ _) least) earlier)

end Kinds

/-- A cache is valid once it has been rebuilt. -/
theorem UniformCache.rebuild_valid {cache : UniformCache} {proxy : ProxyId}
    {resource : ResourceId} {shared : SharedMap} {source : ParameterSource} {streaming : Streaming}
    {nextBuffer : BufferId} {rebuilt : Rebuilt}
    (ran : cache.rebuild proxy resource shared source streaming nextBuffer = .ok rebuilt) :
    rebuilt.cache.valid := by
  obtain ⟨composition, _, ran⟩ := bind_eq_ok.mp ran
  obtain ⟨content, _, ran⟩ := bind_eq_ok.mp ran
  cases ran
  rfl

namespace World

section

variable {deferring : Bool} {activeTiers : List Tier} {created : List ProxyId}
  {registered : List ResourceId} {kinds : Kinds} {excused excused' : ProxyId → Tier → Prop}
  {world next : World} {proxy : ProxyId} {tier : Tier} {recreate : Bool}

/-! ### Who names a resource -/

/-- Every proxy is listed under the resources that it has of its own. -/
def Enlists (world : World) : Prop :=
  ∀ proxy kind tier resource, world.proxies.kinds proxy = some kind →
    kind.own? tier = some resource → proxy ∈ Index.entriesOf world.users resource

namespace Enlists

theorem carry (enlists : world.Enlists) (sameKinds : next.proxies.kinds = world.proxies.kinds)
    (sameUsers : next.users = world.users) : next.Enlists := by
  unfold Enlists
  rw [sameKinds, sameUsers]
  exact enlists

theorem attach (enlists : world.Enlists) (proxy : ProxyId) (kind : ProxyKind) :
    (world.attach proxy kind).Enlists := by
  intro other found level resource live named
  refine mem_attach_users.mpr ?_
  rw [attach_proxies, Proxies.kinds_insert, Function.update_apply] at live
  split at live
  · rename_i here
    cases live
    exact .inr ⟨here, level, named⟩
  · exact .inl (enlists other found level resource live named)

theorem reassign {owner : RenderProxy} {previous : Materials} (enlists : world.Enlists)
    (owned : owner.kind.materials? = some previous) (materials : Materials) :
    (world.reassign proxy owner previous materials).Enlists := by
  intro low kind level resource live named
  refine mem_indexMaterials.mpr ?_
  have written : (world.reassign proxy owner previous materials).proxies =
    world.proxies.insert proxy { owner with kind := owner.kind.withMaterials materials } := rfl
  rw [written, Proxies.kinds_insert, Function.update_apply] at live
  split at live
  · rename_i same
    cases live
    refine .inr ⟨same, level, ?_⟩
    obtain ⟨own, given, named⟩ := Option.bind_eq_some_iff.mp named
    rw [ProxyKind.materials?_withMaterials owned] at given
    exact Option.some.inj given ▸ named
  · rename_i different
    exact .inl (mem_unindexMaterials_other previous
      (enlists low kind level resource live named) different)

theorem without (enlists : world.Enlists) (proxy : ProxyId) : (world.without proxy).Enlists := by
  intro low kind level resource live named
  obtain ⟨owner, found, rfl⟩ := Proxies.kinds_eq_some.mp live
  rw [without_proxies] at found
  split at found
  · cases found
  · rename_i different
    exact mem_without_users (enlists low _ level resource
      (Proxies.kinds_eq_some.mpr ⟨owner, found, rfl⟩) named) different

end Enlists

/-! ### What is wanted -/

/-- A proxy draws with a resource that has a map. -/
def Wants (kinds : Kinds) (world : World) (proxy : ProxyId) (tier : Tier) : Prop :=
  ∃ resource, kinds.Draws tier proxy resource ∧ (world.mapOf resource).isSome

def HasValid (world : World) (proxy : ProxyId) (tier : Tier) : Prop :=
  ∃ cache, world.cacheOf proxy tier = some cache ∧ cache.valid

/-- A cache is valid, or its proxy waits to be looked at. -/
def Seen (deferring : Bool) (world : World) (proxy : ProxyId) (tier : Tier) : Prop :=
  (deferring ∧ proxy ∈ world.deferred) ∨ world.HasValid proxy tier

/-- What upkeep relies on: the indices are complete, and it is known how caches are kept up. -/
structure Ready (deferring : Bool) (activeTiers : List Tier) (created : List ProxyId)
    (registered : List ResourceId) (kinds : Kinds) (world : World) : Prop where
  consistent : Consistent created registered kinds (fun _ _ => True) world
  deferring_eq : world.deferring = deferring
  activeTiers_eq : world.activeTiers = activeTiers
  users : ∀ proxy kind tier resource, kinds proxy = some kind → kind.own? tier = some resource →
    proxy ∈ Index.entriesOf world.users resource

namespace Ready

theorem lasting : Lasting (Ready deferring activeTiers created registered kinds) where
  deferred := fun _ _ ready => ⟨ready.consistent.congr rfl rfl rfl rfl, ready.deferring_eq,
    ready.activeTiers_eq, ready.users⟩
  installed := by
    intro world proxy tier drawable owner rebuilt ready drawn found rebuild
    refine ⟨Consistent.lasting.installed world proxy tier drawable owner rebuilt ready.consistent
      drawn found rebuild, (install_deferring ..).trans ready.deferring_eq,
      (install_activeTiers ..).trans ready.activeTiers_eq, ?_⟩
    rw [install_users]
    exact ready.users

theorem dropCaches {owner : RenderProxy}
    (ready : Ready deferring activeTiers created registered kinds world)
    (found : world.proxies.get? proxy = some owner) :
    Ready deferring activeTiers created registered kinds
      (world.dropCaches recreate proxy owner) := by
  have consistent := ready.consistent.emptied found (dropCaches_proxies ..) rfl rfl rfl rfl
    fun other level => cacheOf_dropCaches world recreate proxy owner found other level
  exact ⟨consistent.weaken fun _ _ _ _ _ _ => trivial, ready.deferring_eq, ready.activeTiers_eq,
    ready.users⟩

theorem dropCache {owner : RenderProxy}
    (ready : Ready deferring activeTiers created registered kinds world)
    (found : world.proxies.get? proxy = some owner) :
    Ready deferring activeTiers created registered kinds
      (world.dropCache recreate proxy owner tier) := by
  have consistent := ready.consistent.emptied found (dropCache_proxies ..) rfl rfl rfl rfl
    fun other level => cacheOf_dropCache world recreate proxy owner tier found other level
  exact ⟨consistent.weaken fun _ _ _ _ _ _ => trivial, ready.deferring_eq, ready.activeTiers_eq,
    ready.users⟩

theorem exists_owner (ready : Ready deferring activeTiers created registered kinds world)
    (wants : Wants kinds world proxy tier) : ∃ owner, world.proxies.get? proxy = some owner := by
  obtain ⟨resource, draws, _⟩ := wants
  obtain ⟨kind, live⟩ := Option.isSome_iff_exists.mp draws.live
  rw [← ready.consistent.arranged.kinds_eq] at live
  obtain ⟨owner, found, _⟩ := Proxies.kinds_eq_some.mp live
  exact ⟨owner, found⟩

theorem exists_drawable (ready : Ready deferring activeTiers created registered kinds world)
    (wants : Wants kinds world proxy tier) :
    ∃ drawable, world.ownDrawable proxy tier = some drawable := by
  obtain ⟨resource, draws, has⟩ := wants
  obtain ⟨shared, held⟩ := Option.isSome_iff_exists.mp has
  have resolved := (ready.consistent.arranged.resolve_iff proxy tier resource).mpr draws
  refine ⟨⟨resource, shared, proxy⟩, ?_⟩
  unfold ownDrawable
  rw [resolved, Option.bind_eq_bind, Option.bind_some, held]
  rfl

/-- The search for those that draw with a resource starts at all that name it and goes down from
each of those that draw with it, so it misses none. -/
theorem mem_drawingWith (ready : Ready deferring activeTiers created registered kinds world)
    {resource : ResourceId} (draws : kinds.Draws tier proxy resource) :
    proxy ∈ world.drawingWith resource tier := by
  have arranged := ready.consistent.arranged
  have shows {other : ProxyId} {resource : ResourceId} (draws : kinds.Draws tier other resource) :
      decide (world.resolve other tier = some resource) = true :=
    decide_eq_true ((arranged.resolve_iff other tier resource).mpr draws)
  have closed (resource : ResourceId) := @reachable_closed ProxyId _
    (fun proxy => if decide (world.resolve proxy tier = some resource) then
      world.childrenOf proxy else []) _
    (fun met distinct => by
      refine Nat.le_trans (List.Sublist.length_le ?_)
        (length_flatMap_childrenOf_le world met distinct)
      refine List.Sublist.flatMap_right met fun other _ => ?_
      split
      · exact .refl _
      · exact List.nil_sublist _)
    (Index.entriesOf world.users resource)
  unfold drawingWith
  dsimp only
  refine List.mem_filter.mpr ⟨?_, shows draws⟩
  induction draws with
  | own found owned => exact (closed _).1 _ (ready.users _ _ _ _ found owned)
  | inherited found _ hangs above inductionHypothesis =>
    refine (closed _).2 _ inductionHypothesis _ ?_
    rw [if_pos (shows above)]
    exact List.mem_mergeSort.mpr (arranged.children _ _ ⟨_, found, hangs⟩ above.live)

end Ready

/-! ### Seeing to caches -/

/-- Every cache that is wanted and not excused is seen to. -/
structure Tended (deferring : Bool) (activeTiers : List Tier) (created : List ProxyId)
    (registered : List ResourceId) (kinds : Kinds) (excused : ProxyId → Tier → Prop)
    (world : World) : Prop where
  ready : Ready deferring activeTiers created registered kinds world
  seen : ∀ proxy tier, tier ∈ activeTiers → Wants kinds world proxy tier → ¬ excused proxy tier →
    Seen deferring world proxy tier

namespace Tended

/-- Others are excused now, and those that no longer are have been seen to. -/
theorem clear (tended : Tended deferring activeTiers created registered kinds excused world)
    (cleared : ∀ proxy tier, tier ∈ activeTiers → Wants kinds world proxy tier →
      excused proxy tier → ¬ excused' proxy tier → Seen deferring world proxy tier) :
    Tended deferring activeTiers created registered kinds excused' world := by
  refine ⟨tended.ready, fun proxy tier active wants left => ?_⟩
  by_cases before : excused proxy tier
  · exact cleared proxy tier active wants before left
  · exact tended.seen proxy tier active wants before

theorem weaken (tended : Tended deferring activeTiers created registered kinds excused world)
    (more : ∀ proxy tier, tier ∈ activeTiers → Wants kinds world proxy tier →
      excused proxy tier → excused' proxy tier) :
    Tended deferring activeTiers created registered kinds excused' world :=
  tended.clear fun proxy tier active wants before left =>
    absurd (more proxy tier active wants before) left

/-- What a change leaves as it was need not be looked at. -/
theorem carry {created' : List ProxyId} {registered' : List ResourceId} {kinds' : Kinds}
    (tended : Tended deferring activeTiers created registered kinds excused world)
    (ready : Ready deferring activeTiers created' registered' kinds' next)
    (kept : ∀ proxy tier, Wants kinds' next proxy tier → ¬ excused' proxy tier →
      Wants kinds world proxy tier ∧ ¬ excused proxy tier ∧
        next.cacheOf proxy tier = world.cacheOf proxy tier ∧
        (proxy ∈ world.deferred → proxy ∈ next.deferred)) :
    Tended deferring activeTiers created' registered' kinds' excused' next := by
  refine ⟨ready, fun proxy tier active wants left => ?_⟩
  obtain ⟨before, fresh, same, waits⟩ := kept proxy tier wants left
  rcases tended.seen proxy tier active before fresh with ⟨late, waiting⟩ | ⟨cache, found, valid⟩
  · exact .inl ⟨late, waits waiting⟩
  · exact .inr ⟨cache, same.trans found, valid⟩

/-- Looking at more proxies later. -/
theorem defer (tended : Tended deferring activeTiers created registered kinds excused world)
    {pending : List ProxyId} (kept : ∀ proxy ∈ world.deferred, proxy ∈ pending) :
    Tended deferring activeTiers created registered kinds excused
      { world with deferred := pending } :=
  tended.carry (Ready.lasting.deferred world pending tended.ready) fun proxy _ wants left =>
    ⟨wants, left, rfl, kept proxy⟩

/-- A cache that was rebuilt is seen to. -/
theorem install {drawable : Drawable} {owner : RenderProxy} {rebuilt : UniformCache.Rebuilt}
    (tended : Tended deferring activeTiers created registered kinds excused world)
    (drawn : world.ownDrawable proxy tier = some drawable)
    (found : world.proxies.get? proxy = some owner)
    (rebuild : (owner.caches.get tier).rebuild proxy drawable.resource drawable.map
      (world.proxies.parameters proxy) world.streaming world.nextBuffer = .ok rebuilt) :
    Tended deferring activeTiers created registered kinds
      (fun other level => excused other level ∧ ¬ (other = proxy ∧ level = tier))
      (world.install proxy tier owner drawable.resource rebuilt) := by
  have caches := cacheOf_install world proxy owner tier drawable.resource rebuilt found
  refine ⟨Ready.lasting.installed world proxy tier drawable owner rebuilt tended.ready drawn found
    rebuild, fun other level active wants left => ?_⟩
  by_cases here : other = proxy ∧ level = tier
  · exact .inr ⟨rebuilt.cache, (caches other level).trans (if_pos here),
      UniformCache.rebuild_valid rebuild⟩
  · have before : Wants kinds world other level := by
      obtain ⟨resource, draws, has⟩ := wants
      refine ⟨resource, draws, ?_⟩
      unfold mapOf at has ⊢
      rw [install_materials] at has
      exact has
    rcases tended.seen other level active before fun old => left ⟨old, here⟩ with
      ⟨late, waiting⟩ | ⟨cache, there, valid⟩
    · refine .inl ⟨late, ?_⟩
      rw [install_deferred]
      exact waiting
    · exact .inr ⟨cache, ((caches other level).trans (if_neg here)).trans there, valid⟩

theorem installing :
    Installing (Tended deferring activeTiers created registered kinds excused) where
  installed := fun _ _ _ _ _ _ tended drawn found rebuild =>
    (tended.install drawn found rebuild).weaken fun _ _ _ _ => And.left

theorem updateIfNeeded
    (tended : Tended deferring activeTiers created registered kinds excused world)
    (ran : world.updateIfNeeded proxy tier = .ok next) :
    Tended deferring activeTiers created registered kinds
      (fun other level => excused other level ∧ ¬ (other = proxy ∧ level = tier)) next := by
  unfold World.updateIfNeeded at ran
  split at ran
  · rename_i drawable owner drawn found
    split at ran
    · rename_i good
      cases ran
      refine tended.clear fun other level _ _ before left => .inr ?_
      obtain ⟨rfl, rfl⟩ := not_not.mp fun different => left ⟨before, different⟩
      refine ⟨owner.caches.get level, ?_, (Bool.and_eq_true_iff.mp good).1⟩
      unfold cacheOf
      rw [found]
      rfl
    · obtain ⟨⟨built, later⟩, evaluated, rfl⟩ := map_eq_ok.mp ran
      unfold World.evaluate at evaluated
      rw [drawn, found] at evaluated
      obtain ⟨rebuilt, rebuild, evaluated⟩ := bind_eq_ok.mp evaluated
      cases evaluated
      exact tended.install drawn found rebuild
  · rename_i nothing
    cases ran
    refine tended.weaken fun other level _ wants before => ⟨before, ?_⟩
    rintro ⟨rfl, rfl⟩
    obtain ⟨drawable, drawn⟩ := tended.ready.exists_drawable wants
    obtain ⟨owner, found⟩ := tended.ready.exists_owner wants
    exact nothing drawable owner drawn found

theorem updateActive (tended : Tended deferring activeTiers created registered kinds excused world)
    (ran : world.updateActive proxy = .ok next) :
    Tended deferring activeTiers created registered kinds
      (fun other level => excused other level ∧ other ≠ proxy) next := by
  have all := foldlM_invariant
    (motive := fun rest world => Tended deferring activeTiers created registered kinds
      (fun other level => excused other level ∧ (other = proxy → level ∈ rest)) world)
    (fun first rest _ _ before stepped =>
      (before.updateIfNeeded stepped).weaken fun other level _ _ left =>
        ⟨left.1.1, fun same => (List.mem_cons.mp (left.1.2 same)).resolve_left fun here =>
          left.2 ⟨same, here⟩⟩)
    world.activeTiers world next
    (tended.weaken fun other level active _ before => by
      rw [tended.ready.activeTiers_eq]
      exact ⟨before, fun _ => active⟩) ran
  exact all.weaken fun other level _ _ left =>
    ⟨left.1, fun same => List.not_mem_nil (left.2 same)⟩

theorem markStale (tended : Tended deferring activeTiers created registered kinds excused world)
    (ran : world.markStale proxy = .ok next) :
    Tended deferring activeTiers created registered kinds
      (fun other level => excused other level ∧ other ≠ proxy) next := by
  unfold World.markStale at ran
  split at ran
  · rename_i late
    rw [tended.ready.deferring_eq] at late
    have waits (pending : List ProxyId) (kept : ∀ other ∈ world.deferred, other ∈ pending)
        (member : proxy ∈ pending) : Tended deferring activeTiers created registered kinds
          (fun other level => excused other level ∧ other ≠ proxy)
          { world with deferred := pending } :=
      (tended.defer kept).clear fun other level _ _ before left => .inl ⟨late, by
        rwa [not_not.mp fun different => left ⟨before, different⟩]⟩
    cases ran
    split
    · rename_i member
      exact waits world.deferred (fun _ => id) member
    · exact waits _ (fun _ => List.mem_append_left _)
        (List.mem_append_right _ (List.mem_singleton.mpr rfl))
  · exact tended.updateActive ran

/-- When caches of one proxy have been emptied, that proxy is excused. -/
theorem emptied (tended : Tended deferring activeTiers created registered kinds excused world)
    (ready : Ready deferring activeTiers created registered kinds next)
    (sameMaterials : next.materials = world.materials)
    (sameWaiting : next.deferred = world.deferred)
    (others : ∀ other level, other ≠ proxy → next.cacheOf other level = world.cacheOf other level) :
    Tended deferring activeTiers created registered kinds
      (fun other level => excused other level ∨ other = proxy) next :=
  tended.carry ready fun other level wants left => by
    obtain ⟨old, different⟩ := not_or.mp left
    refine ⟨?_, old, others other level different, sameWaiting ▸ id⟩
    unfold Wants mapOf at wants ⊢
    rw [sameMaterials] at wants
    exact wants

/-- Whoever is invalidated is seen to. -/
theorem invalidate (tended : Tended deferring activeTiers created registered kinds excused world)
    (ran : world.invalidate recreate proxy = .ok next) :
    Tended deferring activeTiers created registered kinds
      (fun other level => excused other level ∧ other ≠ proxy) next := by
  unfold World.invalidate at ran
  split at ran
  · rename_i missing
    cases ran
    refine tended.weaken fun other level _ wants before => ⟨before, ?_⟩
    rintro rfl
    obtain ⟨owner, found⟩ := tended.ready.exists_owner wants
    rw [missing] at found
    cases found
  · rename_i owner found
    have dropped := tended.emptied (tended.ready.dropCaches found) rfl rfl
      fun other level different =>
        (cacheOf_dropCaches world recreate proxy owner found other level).trans (if_neg different)
    exact (dropped.markStale ran).weaken fun other level _ _ left =>
      ⟨left.1.resolve_right left.2, left.2⟩

theorem invalidateTier
    (tended : Tended deferring activeTiers created registered kinds excused world)
    (ran : world.invalidateTier recreate proxy tier = .ok next) :
    Tended deferring activeTiers created registered kinds
      (fun other level => excused other level ∧ other ≠ proxy) next := by
  unfold World.invalidateTier at ran
  split at ran
  · rename_i missing
    cases ran
    refine tended.weaken fun other level _ wants before => ⟨before, ?_⟩
    rintro rfl
    obtain ⟨owner, found⟩ := tended.ready.exists_owner wants
    rw [missing] at found
    cases found
  · rename_i owner found
    have dropped := tended.emptied (tended.ready.dropCache found) rfl rfl
      fun other level different =>
        (cacheOf_dropCache world recreate proxy owner tier found other level).trans
          (if_neg fun both => different both.1)
    exact (dropped.markStale ran).weaken fun other level _ _ left =>
      ⟨left.1.resolve_right left.2, left.2⟩

theorem invalidateFamily
    (tended : Tended deferring activeTiers created registered kinds excused world)
    (ran : world.invalidateFamily proxy = .ok next) :
    Tended deferring activeTiers created registered kinds
      (fun other level => excused other level ∧ other ∉ world.family proxy) next := by
  have all := foldlM_invariant
    (motive := fun rest after => Tended deferring activeTiers created registered kinds
      (fun other level => excused other level ∧ (other ∈ world.family proxy → other ∈ rest)) after)
    (fun first rest _ _ before stepped =>
      (before.invalidate stepped).weaken fun other level _ _ left =>
        ⟨left.1.1, fun member => (List.mem_cons.mp (left.1.2 member)).resolve_left left.2⟩)
    _ world next (tended.weaken fun _ _ _ _ before => ⟨before, id⟩) ran
  exact all.weaken fun other level _ _ left =>
    ⟨left.1, fun member => List.not_mem_nil (left.2 member)⟩

/-- All that draw with a resource are dependents of it. -/
theorem invalidateDependents {resource : ResourceId}
    (tended : Tended deferring activeTiers created registered kinds excused world)
    (ran : world.invalidateDependents resource tier recreate = .ok next) :
    Tended deferring activeTiers created registered kinds
      (fun other level => excused other level ∧ ¬ kinds.Draws tier other resource) next := by
  have all := foldlM_invariant
    (motive := fun rest after => Tended deferring activeTiers created registered kinds
      (fun other level => excused other level ∧
        (kinds.Draws tier other resource → (other, tier) ∈ rest)) after)
    (fun first rest _ _ before stepped =>
      (before.invalidateTier stepped).weaken fun other level _ _ left =>
        ⟨left.1.1, fun draws => (List.mem_cons.mp (left.1.2 draws)).resolve_left fun same =>
          left.2 (congrArg Prod.fst same)⟩)
    _ world next
    (tended.weaken fun other level _ _ before => by
      refine ⟨before, fun draws => ?_⟩
      unfold dependents
      rw [List.mem_eraseDups, List.mem_mergeSort]
      exact List.mem_append_right _
        (List.mem_map_of_mem (tended.ready.mem_drawingWith draws))) ran
  exact all.weaken fun other level _ _ left =>
    ⟨left.1, fun draws => List.not_mem_nil (left.2 draws)⟩

/-- Once all that wait have been looked at, nobody waits any more. -/
theorem updateDeferred {count : Nat}
    (tended : Tended deferring activeTiers created registered kinds excused world)
    (ran : world.updateDeferred = .ok (count, next)) :
    Tended deferring activeTiers created registered kinds excused next ∧ next.deferred = [] := by
  obtain ⟨updated, updates, ran⟩ := bind_eq_ok.mp ran
  cases ran
  have emptied : Tended deferring activeTiers created registered kinds
      (fun other level => excused other level ∨ other ∈ Identifier.sort world.deferred)
      { world with deferred := [] } := by
    refine ⟨Ready.lasting.deferred world [] tended.ready, fun other level active wants left => ?_⟩
    obtain ⟨old, idle⟩ := not_or.mp left
    refine .inr ((tended.seen other level active wants old).resolve_left fun waits => idle ?_)
    exact List.mem_mergeSort.mpr waits.2
  have all := foldlM_invariant
    (motive := fun rest after => Tended deferring activeTiers created registered kinds
      (fun other level => excused other level ∨ other ∈ rest) after)
    (fun first rest _ _ before stepped =>
      (before.updateActive stepped).weaken fun other level _ _ left =>
        left.1.imp_right fun member => (List.mem_cons.mp member).resolve_left left.2)
    _ _ _ emptied updates
  have idle : Installing fun after => after.deferred = [] :=
    ⟨fun _ _ _ _ _ _ nobody _ _ _ => (install_deferred ..).trans nobody⟩
  exact ⟨all.weaken fun _ _ _ _ left => left.resolve_right List.not_mem_nil,
    foldlM_kept (fun _ _ _ nobody stepped => idle.updateActive nobody stepped) _ _ _ rfl
      updates⟩

end Tended

end

end World

end Shading
