/-
Runs keep every cache up that is wanted. Whatever makes a map available to a
proxy, however far down a chain the proxy is, sees to the cache of the proxy: it
rebuilds it at once, or it puts the proxy on the list of those to be looked at.
So where stale caches do not wait none is ever missing, and where they wait none
is missing once the list has been worked off.
-/

import Shading.Proofs.Render.Diligence
import Shading.Proofs.Render.Outcome

namespace Shading

/-- With more proxies whatever was drawn with still is. -/
theorem Kinds.Draws.mono {kinds kinds' : Kinds} {tier : Tier} {proxy : ProxyId}
    {resource : ResourceId} (draws : kinds.Draws tier proxy resource)
    (more : ∀ proxy kind, kinds proxy = some kind → kinds' proxy = some kind) :
    kinds'.Draws tier proxy resource := by
  induction draws with
  | own found owned => exact .own (more _ _ found) owned
  | inherited found missing parent _ inductionHypothesis =>
    exact .inherited (more _ _ found) missing parent inductionHypothesis

namespace World

variable {deferring : Bool} {activeTiers : List Tier} {created : List ProxyId}
  {registered : List ResourceId} {kinds : Kinds} {world next : World} {proxy : ProxyId}

/-- Every cache that is wanted is seen to. -/
abbrev Diligent (deferring : Bool) (activeTiers : List Tier) (created : List ProxyId)
    (registered : List ResourceId) (world : World) : Prop :=
  Tended deferring activeTiers created registered world.proxies.kinds (fun _ _ => False) world

theorem Tended.diligent {excused : ProxyId → Tier → Prop}
    (tended : Tended deferring activeTiers created registered kinds excused world)
    (all : ∀ proxy tier, ¬ excused proxy tier) :
    Diligent deferring activeTiers created registered world := by
  unfold Diligent
  rw [tended.ready.consistent.arranged.kinds_eq]
  exact tended.weaken fun proxy tier _ _ => all proxy tier

/-- Upkeep after which nobody is left to be seen to. -/
theorem Diligent.installing :
    Installing (Diligent deferring activeTiers created registered) where
  installed := fun world proxy tier drawable owner rebuilt diligent drawn found rebuild =>
    (Tended.installing.installed world proxy tier drawable owner rebuilt diligent drawn found
      rebuild).diligent fun _ _ => id

namespace Diligent

theorem ready_of_sound {created' : List ProxyId} {registered' : List ResourceId}
    {stale : ProxyId → Tier → Prop}
    (diligent : Diligent deferring activeTiers created registered world)
    (consistent : Consistent created' registered' kinds stale next)
    (sameDeferring : next.deferring = world.deferring)
    (sameTiers : next.activeTiers = world.activeTiers)
    (users : ∀ proxy kind tier resource, kinds proxy = some kind →
      kind.own? tier = some resource → proxy ∈ Index.entriesOf next.users resource) :
    Ready deferring activeTiers created' registered' kinds next :=
  ⟨consistent.weaken fun _ _ _ _ _ _ => trivial,
    sameDeferring.trans diligent.ready.deferring_eq,
    sameTiers.trans diligent.ready.activeTiers_eq, users⟩

/-- A change of the world that is not about proxies, resources or what waits. -/
theorem congr (diligent : Diligent deferring activeTiers created registered world)
    (sameProxies : next.proxies = world.proxies) (sameChildren : next.children = world.children)
    (sameUsers : next.users = world.users) (sameMaterials : next.materials = world.materials)
    (sameBuilds : next.builtFrom = world.builtFrom) (sameWaiting : next.deferred = world.deferred)
    (sameDeferring : next.deferring = world.deferring)
    (sameTiers : next.activeTiers = world.activeTiers) :
    Diligent deferring activeTiers created registered next := by
  have consistent := diligent.ready.consistent.congr sameProxies sameChildren sameMaterials
    sameBuilds
  have ready := diligent.ready_of_sound consistent sameDeferring sameTiers
    (sameUsers ▸ diligent.ready.users)
  refine (diligent.carry ready fun other level wants left => ⟨?_, left, ?_, ?_⟩).diligent
    fun _ _ => id
  · unfold Wants mapOf at wants ⊢
    rwa [sameMaterials] at wants
  · unfold cacheOf
    rw [sameProxies]
  · rw [sameWaiting]
    exact id

theorem invalidate {recreate : Bool}
    (diligent : Diligent deferring activeTiers created registered world)
    (ran : world.invalidate recreate proxy = .ok next) :
    Diligent deferring activeTiers created registered next :=
  (Tended.invalidate diligent ran).diligent fun _ _ => And.left

/-! ### Resources -/

theorem registerMaterial {resource : ResourceId} {info : MaterialInfo}
    (diligent : Diligent deferring activeTiers created registered world)
    (sound : Sound created registered world) (fresh : resource ∉ registered) :
    Diligent deferring activeTiers created (registered ++ [resource])
      (world.registerMaterial resource info) := by
  have materials (other : ResourceId) :
      (world.registerMaterial resource info).materials.get? other =
        if other = resource then some { info } else world.materials.get? other :=
    Table.get?_insert ..
  have entered : Sound created (registered ++ [resource]) (world.registerMaterial resource info) :=
    sound.registerMaterial fresh
  have ready := diligent.ready_of_sound entered rfl rfl diligent.ready.users
  refine diligent.carry ready fun other level wants left => ⟨?_, left, rfl, id⟩
  obtain ⟨drawn, draws, has⟩ := wants
  refine ⟨drawn, draws, ?_⟩
  unfold mapOf at has ⊢
  rw [materials] at has
  split at has
  · cases has
  · exact has

/-- Whatever is written in the place of a registered resource concerns only the proxies that draw
with it, and those do so at the tier of the resource. -/
theorem rewritten {resource : ResourceId} {material : RenderMaterial}
    {written : Option RenderMaterial} {stale : ProxyId → Tier → Prop}
    (diligent : Diligent deferring activeTiers created registered world)
    (leveled : world.Leveled) (found : world.materials.get? resource = some material)
    (consistent : Consistent created registered world.proxies.kinds stale next)
    (materials : next.materials = world.materials.set resource written)
    (sameProxies : next.proxies = world.proxies) (sameUsers : next.users = world.users)
    (sameWaiting : next.deferred = world.deferred)
    (sameDeferring : next.deferring = world.deferring)
    (sameTiers : next.activeTiers = world.activeTiers) :
    Tended deferring activeTiers created registered world.proxies.kinds
      (fun other level => level = material.info.tier ∧
        world.proxies.kinds.Draws level other resource) next := by
  have ready := diligent.ready_of_sound consistent sameDeferring sameTiers
    (sameUsers ▸ diligent.ready.users)
  refine diligent.carry ready fun other level wants left => ⟨?_, id, ?_, ?_⟩
  · obtain ⟨drawn, draws, has⟩ := wants
    have different : drawn ≠ resource := by
      rintro rfl
      obtain ⟨high, kind, live, named⟩ := draws.named
      exact left ⟨(leveled high kind level drawn material live named found).symm, draws⟩
    refine ⟨drawn, draws, ?_⟩
    unfold mapOf at has ⊢
    rwa [materials, Table.get?_set, if_neg different] at has
  · unfold cacheOf
    rw [sameProxies]
  · rw [sameWaiting]
    exact id

/-- Whoever draws with the resource depends on it, and so is seen to. -/
theorem rewritten_dependents {resource : ResourceId} {tier : Tier} {recreate : Bool}
    (tended : Tended deferring activeTiers created registered kinds (fun other level =>
      level = tier ∧ kinds.Draws level other resource) world)
    (ran : world.invalidateDependents resource tier recreate = .ok next) :
    Diligent deferring activeTiers created registered next := by
  refine (tended.invalidateDependents ran).diligent fun other level left => ?_
  obtain ⟨⟨rfl, draws⟩, apart⟩ := left
  exact apart draws

theorem exchangeMap {resource : ResourceId} {material : RenderMaterial} {map : Option SharedMap}
    (diligent : Diligent deferring activeTiers created registered world)
    (sound : Sound created registered world) (leveled : world.Leveled)
    (found : world.materials.get? resource = some material)
    (compiled : ∀ shared, map = some shared → shared.map.isCompiled)
    (ran : world.exchangeMap resource material map = .ok next) :
    Diligent deferring activeTiers created registered next := by
  have placed : (world.placeMap resource material map).materials =
    world.materials.set resource (some { material with map }) := rfl
  have consistent := sound.rewritten (by rw [found]; rfl) placed
    (fun written shared same held => by cases same; exact compiled shared held) rfl rfl rfl
  exact rewritten_dependents
    (diligent.rewritten leveled found consistent placed rfl rfl rfl rfl rfl) ran

theorem setMap {resource : ResourceId} {map : Option SharedMap}
    (diligent : Diligent deferring activeTiers created registered world)
    (sound : Sound created registered world) (leveled : world.Leveled)
    (ran : world.setMap resource map = .ok next) :
    Diligent deferring activeTiers created registered next := by
  obtain ⟨-, rfl⟩ | ⟨material, found, compiled, ran⟩ := setMap_cases ran
  · exact diligent
  · exact diligent.exchangeMap sound leveled found compiled ran

theorem releaseMaterial {resource : ResourceId}
    (diligent : Diligent deferring activeTiers created registered world)
    (sound : Sound created registered world) (leveled : world.Leveled)
    (ran : world.releaseMaterial resource = .ok next) :
    Diligent deferring activeTiers created registered next := by
  have after := sound.releaseMaterial ran
  obtain ⟨-, rfl⟩ | ⟨material, left, found, invalidated, rfl⟩ := releaseMaterial_cases ran
  · exact diligent
  · have withdrawn : (world.withdraw resource).materials = world.materials.set resource none := rfl
    have consistent := sound.rewritten (by rw [found]; rfl) withdrawn
      (fun written shared same _ => by cases same) rfl rfl rfl
    have diligent := rewritten_dependents
      (diligent.rewritten leveled found consistent withdrawn rfl rfl rfl rfl rfl) invalidated
    have ready := diligent.ready_of_sound after rfl rfl diligent.ready.users
    exact diligent.carry ready fun _ _ wants apart => ⟨wants, apart, rfl, id⟩

/-! ### Proxies -/

theorem createProxy {kind : ProxyKind}
    (diligent : Diligent deferring activeTiers created registered world)
    (sound : Sound created registered world) (fresh : proxy ∉ created)
    (older : ∀ parent, kind.parent? = some parent → parent ∈ created)
    (ran : world.createProxy proxy kind = .ok next) :
    Diligent deferring activeTiers (created ++ [proxy]) registered next := by
  have attached := sound.attach fresh older
  have kinds : (world.attach proxy kind).proxies.kinds =
      Function.update world.proxies.kinds proxy (some kind) := by
    rw [attach_proxies, Proxies.kinds_insert]
  obtain ⟨children, users, same⟩ := world.attach_eq proxy kind
  have deferring_eq : (world.attach proxy kind).deferring = world.deferring := by rw [same]
  have tiers_eq : (world.attach proxy kind).activeTiers = world.activeTiers := by rw [same]
  have waiting : (world.attach proxy kind).deferred = world.deferred := by rw [same]
  have ready : Ready deferring activeTiers (created ++ [proxy]) registered
      (world.attach proxy kind).proxies.kinds (world.attach proxy kind) := by
    have enlists : world.Enlists := diligent.ready.users
    exact diligent.ready_of_sound attached deferring_eq tiers_eq (enlists.attach proxy kind)
  have tended : Tended deferring activeTiers (created ++ [proxy]) registered
      (world.attach proxy kind).proxies.kinds (fun other _ => other = proxy)
      (world.attach proxy kind) := by
    refine diligent.carry ready fun other level wants different => ⟨?_, id, ?_, ?_⟩
    · obtain ⟨resource, draws, has⟩ := wants
      refine ⟨resource, ?_, ?_⟩
      · have ranked := attached.arranged.ranked
        rw [kinds] at draws ranked
        exact draws.without_last different fresh sound.arranged.known ranked
      · unfold mapOf at has ⊢
        rwa [attach_materials] at has
    · rw [cacheOf_attach, if_neg different]
    · rw [waiting]
      exact id
  exact (tended.markStale ran).diligent fun other _ left => left.2 left.1

/-- Whatever is written about a live proxy that keeps its parent and its caches concerns only the
proxies below it, and invalidating its family sees to all of those. -/
theorem reformed {owner other : RenderProxy} {between : World}
    (diligent : Diligent deferring activeTiers created registered world)
    (sound : Sound created registered world) (found : world.proxies.get? proxy = some owner)
    (written : between.proxies = world.proxies.insert proxy other)
    (sameParent : other.kind.parent? = owner.kind.parent?)
    (sameCaches : other.caches = owner.caches) (sameChildren : between.children = world.children)
    (sameMaterials : between.materials = world.materials)
    (sameBuilds : between.builtFrom = world.builtFrom)
    (sameWaiting : between.deferred = world.deferred)
    (sameDeferring : between.deferring = world.deferring)
    (sameTiers : between.activeTiers = world.activeTiers)
    (enlists : between.Enlists)
    (ran : between.invalidateFamily proxy = .ok next) :
    Diligent deferring activeTiers created registered next := by
  have consistent := sound.reformed found written sameParent sameCaches sameChildren sameMaterials
    sameBuilds
  have kinds : between.proxies.kinds =
      Function.update world.proxies.kinds proxy (some other.kind) := by
    rw [written, Proxies.kinds_insert]
  have ready := diligent.ready_of_sound consistent sameDeferring sameTiers enlists
  have tended : Tended deferring activeTiers created registered between.proxies.kinds
      (fun low _ => between.proxies.kinds.Below low proxy) between := by
    refine diligent.carry ready fun low level wants apart => ⟨?_, id, ?_, ?_⟩
    · obtain ⟨resource, draws, has⟩ := wants
      refine ⟨resource, draws.congr fun high below => ?_, ?_⟩
      · have different : high ≠ proxy := by
          rintro rfl
          exact apart below
        rw [kinds, Function.update_of_ne different]
      · unfold mapOf at has ⊢
        rwa [sameMaterials] at has
    · rw [cacheOf_insert found written sameCaches]
    · rw [sameWaiting]
      exact id
  have live : (between.proxies.kinds proxy).isSome := by
    rw [kinds, Function.update_self]
    rfl
  exact (tended.invalidateFamily ran).diligent fun low _ left =>
    left.2 (consistent.arranged.mem_family left.1 live)

theorem setMaterials {materials : Materials}
    (diligent : Diligent deferring activeTiers created registered world)
    (sound : Sound created registered world)
    (ran : world.setMaterials proxy materials = .ok next) :
    Diligent deferring activeTiers created registered next := by
  obtain ⟨-, rfl⟩ | ⟨owner, previous, found, owned, ran⟩ := setMaterials_cases ran
  · exact diligent
  · have written : (world.reassign proxy owner previous materials).proxies =
      world.proxies.insert proxy { owner with kind := owner.kind.withMaterials materials } := rfl
    have enlists : world.Enlists := diligent.ready.users
    exact diligent.reformed sound found written (ProxyKind.parent?_withMaterials _ _) rfl rfl
      rfl rfl rfl rfl rfl (enlists.reassign owned materials) ran

theorem setParameter {name : String} {value : Option ParameterValue}
    (diligent : Diligent deferring activeTiers created registered world)
    (sound : Sound created registered world)
    (ran : world.setParameter proxy name value = .ok next) :
    Diligent deferring activeTiers created registered next := by
  obtain ⟨-, rfl⟩ | ⟨owner, found, ran⟩ := setParameter_cases ran
  · exact diligent
  · have written : (world.override proxy owner name value).proxies =
      world.proxies.insert proxy { owner with overrides := owner.overrides.set name value } := rfl
    have enlists : world.Enlists := diligent.ready.users
    exact diligent.reformed sound found written rfl rfl rfl rfl rfl rfl rfl rfl
      (enlists.carry (Proxies.kinds_insert_same found rfl) rfl) ran

/-- Without a proxy nobody draws with more than before. -/
theorem removeProxy (diligent : Diligent deferring activeTiers created registered world)
    (sound : Sound created registered world) (ran : world.removeProxy proxy = .ok next) :
    Diligent deferring activeTiers created registered next := by
  have left (low : ProxyId) (kind : ProxyKind)
      (live : Function.update world.proxies.kinds proxy none low = some kind) :
      low ≠ proxy ∧ world.proxies.kinds low = some kind := by
    rw [Function.update_apply] at live
    split at live
    · cases live
    · rename_i different
      exact ⟨different, live⟩
  have mode := world.without_mode proxy
  have removed : Consistent created registered (Function.update world.proxies.kinds proxy none) _
    { world.without proxy with
      children := Table.erase (world.without proxy).children proxy } := sound.removed
  have enlists : world.Enlists := diligent.ready.users
  have ready := diligent.ready_of_sound removed mode.1 mode.2
    (removed.arranged.kinds_eq ▸ enlists.without proxy)
  have tended : Tended deferring activeTiers created registered
      (Function.update world.proxies.kinds proxy none) (fun _ _ => False)
      { world.without proxy with
        children := Table.erase (world.without proxy).children proxy } := by
    refine diligent.carry ready fun low level wants apart => ?_
    obtain ⟨resource, draws, has⟩ := wants
    obtain ⟨kind, live⟩ := Option.isSome_iff_exists.mp draws.live
    have different := (left low kind live).1
    refine ⟨⟨resource, draws.mono fun low kind live => (left low kind live).2, ?_⟩, apart, ?_,
      fun waits => mem_without_deferred waits different⟩
    · have has : (((world.without proxy).materials.get? resource).bind RenderMaterial.map).isSome :=
        has
      rwa [without_materials] at has
    · exact (cacheOf_without world proxy low level).trans (if_neg different)
  have all := foldlM_kept
    (motive := fun after => Tended deferring activeTiers created registered
      (Function.update world.proxies.kinds proxy none) (fun _ _ => False) after)
    (fun _ _ _ tended stepped => (tended.invalidateFamily stepped).weaken fun _ _ _ _ => And.left)
    _ _ next tended ran
  exact all.diligent fun _ _ => id

theorem destroyProducer {producer : ProducerId}
    (diligent : Diligent deferring activeTiers created registered world)
    (ran : world.destroyProducer producer = .ok next) :
    Diligent deferring activeTiers created registered next := by
  have start : Diligent deferring activeTiers created registered
      { world with streaming := (world.streaming.destroyProducer producer).2 } :=
    diligent.congr rfl rfl rfl rfl rfl rfl rfl rfl
  exact foldlM_kept (fun _ _ _ diligent stepped => diligent.invalidate stepped) _ _ next start ran

/-! ### One step -/

theorem apply {command : RenderCommand}
    (diligent : Diligent deferring activeTiers created registered world)
    (sound : Sound created registered world) (leveled : world.Leveled)
    (creates : ∀ proxy kind, command = .createProxy proxy kind →
      proxy ∉ created ∧ ∀ parent, kind.parent? = some parent → parent ∈ created)
    (registers : ∀ resource info, command = .registerMaterial resource info →
      resource ∉ registered)
    (ran : world.apply command = .ok next) :
    Diligent deferring activeTiers (created ++ (Operation.perform command).creates?.toList)
      (registered ++ (Operation.perform command).registers?.toList) next := by
  let counted := world.count fun stats => { stats with commands := stats.commands + 1 }
  have sound : Sound created registered counted := sound.congr rfl rfl rfl rfl
  have leveled : counted.Leveled := leveled
  have diligent : Diligent deferring activeTiers created registered counted :=
    diligent.congr rfl rfl rfl rfl rfl rfl rfl rfl
  unfold World.apply at ran
  cases command <;> simp only [Operation.creates?, Operation.registers?, Option.toList_none,
    Option.toList_some, List.append_nil]
  case registerMaterial resource info =>
    cases ran
    exact diligent.registerMaterial sound (registers resource info rfl)
  case setMap => exact diligent.setMap sound leveled ran
  case releaseMaterial => exact diligent.releaseMaterial sound leveled ran
  case createProxy proxy kind =>
    obtain ⟨fresh, older⟩ := creates proxy kind rfl
    exact diligent.createProxy sound fresh older ran
  case setMaterials => exact diligent.setMaterials sound ran
  case setParameter => exact diligent.setParameter sound ran
  case clearParameter => exact diligent.setParameter sound ran
  case recache => exact diligent.invalidate ran
  case removeProxy => exact diligent.removeProxy sound ran
  case destroyProducer => exact diligent.destroyProducer ran
  all_goals
    cases ran
    exact diligent.congr rfl rfl rfl rfl rfl rfl rfl rfl

/-- Every operation that may follow sees to the caches that are wanted. -/
theorem carryOut {operation : Operation} {past : List Operation}
    (diligent : Diligent deferring activeTiers (Operation.createdBy past)
      (Operation.registeredBy past) world)
    (sound : Sound (Operation.createdBy past) (Operation.registeredBy past) world)
    (leveled : world.Leveled) (may : operation.MayFollow past)
    (ran : operation.carryOut world = .ok next) :
    Diligent deferring activeTiers (Operation.createdBy (past ++ [operation]))
      (Operation.registeredBy (past ++ [operation])) next := by
  unfold Operation.createdBy Operation.registeredBy
  rw [List.flatMap_append, List.flatMap_append, List.flatMap_singleton, List.flatMap_singleton]
  cases operation <;> simp only [Operation.creates?, Operation.registers?, Option.toList_none,
    List.append_nil]
  case perform command =>
    refine diligent.apply sound leveled (fun proxy kind same => ?_) (fun resource info same => ?_)
      ran
    · subst same
      exact ⟨may.creates proxy rfl, may.parent⟩
    · subst same
      exact may.registers resource rfl
  case announce =>
    cases ran
    exact diligent.congr rfl rfl rfl rfl rfl rfl rfl rfl
  case updateDeferred =>
    obtain ⟨⟨count, world⟩, updated, rfl⟩ := map_eq_ok.mp ran
    exact (Tended.updateDeferred diligent updated).1.diligent fun _ _ => id
  case updateIfNeeded => exact installing.updateIfNeeded diligent ran
  case evaluate =>
    obtain ⟨⟨built, world⟩, evaluated, rfl⟩ := map_eq_ok.mp ran
    exact installing.evaluate diligent evaluated
  case prepareDraw =>
    obtain ⟨⟨drawn, world⟩, prepared, rfl⟩ := map_eq_ok.mp ran
    exact installing.prepareDraw diligent prepared
  case invalidate => exact diligent.invalidate ran

end Diligent

end World

/-! ### Whole runs -/

namespace Run

open World

variable {deferring : Bool} {activeTiers : List Tier} {past : List Operation} {world : World}

theorem diligent (run : Run deferring activeTiers past world)
    (leveled : RenderCommand.Leveled (Operation.commandsOf past)) :
    Diligent deferring activeTiers (Operation.createdBy past) (Operation.registeredBy past)
      world := by
  induction run with
  | start =>
    have sound := World.Sound.start deferring activeTiers
    exact ⟨⟨sound.weaken fun _ _ _ _ _ => False.elim, rfl, rfl,
      fun _ _ _ _ live => (nomatch live)⟩, fun _ _ _ ⟨_, draws, _⟩ => (nomatch draws.live)⟩
  | step run may ran inductionHypothesis =>
    rw [Operation.commandsOf_append] at leveled
    exact (inductionHypothesis leveled.before).carryOut run.sound (run.leveled leveled.before) may
      ran

/-- Nobody waits after the list has been worked off. -/
theorem deferred_eq_nil (run : Run deferring activeTiers past world)
    (leveled : RenderCommand.Leveled (Operation.commandsOf past))
    (last : past.getLast? = some .updateDeferred) : world.deferred = [] := by
  cases run with
  | start => cases last
  | step run may ran =>
    rw [List.getLast?_append, List.getLast?_singleton, Option.some_or] at last
    cases last
    rw [Operation.commandsOf_append] at leveled
    obtain ⟨⟨count, world⟩, updated, rfl⟩ := map_eq_ok.mp ran
    exact (Tended.updateDeferred (run.diligent leveled.before) updated).2

/-- In a run in which no proxy names at a tier a resource of another tier, take any proxy and
active tier whose resource has a map. Where stale caches do not wait, the cache of the proxy is
good for that very map at every moment; where they wait, it is so whenever the list of those to be
looked at has just been worked off, and at any other moment it is so unless the proxy is on that
list. -/
theorem wanted_cache_valid (run : Run deferring activeTiers past world)
    (leveled : RenderCommand.Leveled (Operation.commandsOf past)) {proxy : ProxyId} {tier : Tier}
    {resource : ResourceId} {shared : SharedMap} (active : tier ∈ activeTiers)
    (resolved : world.resolve proxy tier = some resource)
    (held : world.mapOf resource = some shared) :
    (deferring = false ∨ past.getLast? = some .updateDeferred →
      ∃ cache, world.cacheOf proxy tier = some cache ∧ cache.isValidFor shared) ∧
    (deferring = true → (∃ cache, world.cacheOf proxy tier = some cache ∧
      cache.isValidFor shared) ∨ proxy ∈ world.deferred) := by
  have good : world.HasValid proxy tier →
      ∃ cache, world.cacheOf proxy tier = some cache ∧ cache.isValidFor shared := by
    rintro ⟨cache, found, valid⟩
    obtain ⟨drawn, current, resolved', held', serves⟩ := run.serves found valid
    rw [resolved] at resolved'
    cases resolved'
    rw [held] at held'
    cases held'
    refine ⟨cache, found, ?_⟩
    unfold UniformCache.isValidFor
    rw [valid, serves.map_eq, decide_eq_true rfl]
    rfl
  have draws := (run.sound.arranged.resolve_iff proxy tier resource).mp resolved
  have seen := (run.diligent leveled).seen proxy tier active
    ⟨resource, draws, by rw [held]; rfl⟩ not_false
  refine ⟨fun settled => good (seen.resolve_left ?_), fun _ => seen.symm.imp good And.right⟩
  rintro ⟨late, waits⟩
  rcases settled with soon | last
  · rw [soon] at late
    cases late
  · rw [run.deferred_eq_nil leveled last] at waits
    cases waits

/-- What the first frame waits for: the cache of the proxy is not valid yet, and so the proxy is on
the list. -/
theorem firstFrame_waits : ∃ world, Run true [.desktop] (firstFrame.take 3) world ∧
    (∀ cache, world.cacheOf .first .desktop = some cache → cache.valid = false) ∧
    .first ∈ world.deferred := by
  have built : (Operation.carryOutAll {} (firstFrame.take 3)).map (fun world =>
      ((world.cacheOf .first .desktop).map UniformCache.valid, world.resolve .first .desktop,
        world.mapOf .first)) = .ok (some false, some .first, some tinted) := by
    cbv
  obtain ⟨world, ran, built⟩ := map_eq_ok.mp built
  simp only [Prod.mk.injEq] at built
  obtain ⟨invalid, resolved, held⟩ := built
  have run : Run true [.desktop] (firstFrame.take 3) world := Run.start.continued (by decide) ran
  obtain ⟨_, late⟩ := run.wanted_cache_valid (by decide) (by decide) resolved held
  have unbuilt (cache : UniformCache) (found : world.cacheOf .first .desktop = some cache) :
      cache.valid = false := by
    rw [found] at invalid
    exact Option.some.inj invalid
  refine ⟨world, run, unbuilt, (late rfl).resolve_left ?_⟩
  rintro ⟨cache, found, good⟩
  have valid := (Bool.and_eq_true_iff.mp good).1
  rw [unbuilt cache found] at valid
  cases valid

end Run

end Shading
