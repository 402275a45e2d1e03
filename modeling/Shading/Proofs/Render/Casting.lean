/-
What the proxies are. Apart from their caches it is the commands alone that
decide which proxies there are, what kind each is of, which parameters have been
set on it and which of them steps in for the others. So what they will be once
nothing waits any more can be read off the queue, and upkeep does not matter.
-/

import Shading.Proofs.Render.Settling

namespace Shading

/-- The proxies apart from their caches, and the one that steps in for others. -/
structure Cast where
  proxies : ProxyId → Option RenderProxy
  default : Option ProxyId

namespace Cast

@[ext]
theorem ext {cast other : Cast} (proxies : ∀ proxy, cast.proxies proxy = other.proxies proxy)
    (default : cast.default = other.default) : cast = other := by
  cases cast
  cases other
  obtain rfl := funext proxies
  obtain rfl := default
  rfl

/-- A proxy is something else, or is not there any more. -/
def write (cast : Cast) (proxy : ProxyId) (owner : Option RenderProxy) : Cast :=
  { cast with proxies := Function.update cast.proxies proxy owner }

theorem proxies_write (cast : Cast) (proxy other : ProxyId) (owner : Option RenderProxy) :
    (cast.write proxy owner).proxies other =
      if other = proxy then owner else cast.proxies other :=
  Function.update_apply ..

theorem proxies_write_self (cast : Cast) (proxy : ProxyId) (owner : Option RenderProxy) :
    (cast.write proxy owner).proxies proxy = owner :=
  Function.update_self ..

theorem proxies_write_other {cast : Cast} {proxy other : ProxyId} {owner : Option RenderProxy}
    (different : other ≠ proxy) : (cast.write proxy owner).proxies other = cast.proxies other :=
  Function.update_of_ne different ..

/-- A proxy is changed, if it is there. -/
def change (cast : Cast) (proxy : ProxyId) (other : RenderProxy → RenderProxy) : Cast :=
  cast.write proxy ((cast.proxies proxy).map other)

theorem change_eq_self {cast : Cast} {proxy : ProxyId} {other : RenderProxy → RenderProxy}
    (same : (cast.proxies proxy).map other = cast.proxies proxy) :
    cast.change proxy other = cast := by
  unfold change write
  rw [same, Function.update_eq_self]

end Cast

namespace RenderCommand

/-- What a command makes of the cast. -/
def recast (cast : Cast) : RenderCommand → Cast
  | .createProxy proxy kind => cast.write proxy (some { kind })
  | .setMaterials proxy materials =>
    cast.change proxy fun owner => { owner with kind := owner.kind.withMaterials materials }
  | .setParameter proxy name value =>
    cast.change proxy fun owner => { owner with overrides := owner.overrides.insert name value }
  | .clearParameter proxy name =>
    cast.change proxy fun owner => { owner with overrides := owner.overrides.erase name }
  | .removeProxy proxy =>
    { cast.write proxy none with
      default := if cast.default = some proxy then none else cast.default }
  | .setDefault proxy => { cast with default := some proxy }
  | _ => cast

end RenderCommand

namespace World

variable {world next : World} {proxy : ProxyId} {owner : RenderProxy}

def cast (world : World) : Cast where
  proxies := fun proxy => (world.proxies.get? proxy).map RenderProxy.bare
  default := world.defaultProxy

/-- One proxy is written anew. -/
theorem cast_insert (proxies : next.proxies = world.proxies.insert proxy owner)
    (default : next.defaultProxy = world.defaultProxy) :
    next.cast = world.cast.write proxy (some owner.bare) := by
  refine Cast.ext (fun other => ?_) default
  show (next.proxies.get? other).map _ = _
  rw [proxies, Table.get?_insert, Cast.proxies_write]
  split <;> rfl

/-- A proxy whose caches are written anew is the same without them. -/
theorem cast_recache (found : world.proxies.get? proxy = some owner)
    (caches : PerTier UniformCache)
    (proxies : next.proxies = world.proxies.insert proxy { owner with caches })
    (default : next.defaultProxy = world.defaultProxy) : next.cast = world.cast := by
  rw [cast_insert proxies default]
  refine Cast.ext (fun other => ?_) rfl
  rw [Cast.proxies_write]
  split
  · rename_i here
    rw [here]
    exact (congrArg (Option.map RenderProxy.bare) found).symm
  · rfl

theorem install_defaultProxy (world : World) (proxy : ProxyId) (tier : Tier) (owner : RenderProxy)
    (resource : ResourceId) (rebuilt : UniformCache.Rebuilt) :
    (world.install proxy tier owner resource rebuilt).defaultProxy = world.defaultProxy := by
  unfold install recordBuild
  dsimp only
  split <;> rfl

/-! ### Upkeep -/

theorem lasting_cast (cast : Cast) : Lasting fun world => world.cast = cast where
  deferred := fun _ _ same => same
  installed := fun _ _ _ _ _ _ same _ found _ =>
    (cast_recache found _ (install_proxies ..) (install_defaultProxy ..)).trans same

theorem cast_invalidate {recreate : Bool} (ran : world.invalidate recreate proxy = .ok next) :
    next.cast = world.cast :=
  (lasting_cast world.cast).invalidate (fun _ => rfl)
    (fun _ found => cast_recache found _ (dropCaches_proxies ..) rfl) ran

theorem cast_invalidateTier {recreate : Bool} {tier : Tier}
    (ran : world.invalidateTier recreate proxy tier = .ok next) : next.cast = world.cast :=
  (lasting_cast world.cast).invalidateTier (fun _ => rfl)
    (fun _ found => cast_recache found _ (dropCache_proxies ..) rfl) ran

theorem cast_invalidateFamily (ran : world.invalidateFamily proxy = .ok next) :
    next.cast = world.cast :=
  foldlM_kept (motive := fun after => after.cast = world.cast)
    (fun _ _ _ same stepped => (cast_invalidate stepped).trans same) _ _ _ rfl ran

theorem cast_invalidateDependents {resource : ResourceId} {tier : Tier} {recreate : Bool}
    (ran : world.invalidateDependents resource tier recreate = .ok next) :
    next.cast = world.cast :=
  foldlM_kept (motive := fun after => after.cast = world.cast)
    (fun _ _ _ same stepped => (cast_invalidateTier stepped).trans same) _ _ _ rfl ran

/-! ### Commands -/

theorem cast_exchangeMap {resource : ResourceId} {material : RenderMaterial}
    {map : Option SharedMap} (ran : world.exchangeMap resource material map = .ok next) :
    next.cast = world.cast := by
  have placed : (world.placeMap resource material map).cast = world.cast := rfl
  exact (cast_invalidateDependents ran).trans placed

theorem cast_setMap {resource : ResourceId} {map : Option SharedMap}
    (ran : world.setMap resource map = .ok next) : next.cast = world.cast := by
  obtain ⟨-, rfl⟩ | ⟨material, -, -, ran⟩ := setMap_cases ran
  · rfl
  · exact cast_exchangeMap ran

theorem cast_releaseMaterial {resource : ResourceId}
    (ran : world.releaseMaterial resource = .ok next) : next.cast = world.cast := by
  obtain ⟨-, rfl⟩ | ⟨material, left, -, invalidated, rfl⟩ := releaseMaterial_cases ran
  · rfl
  · have withdrawn : (world.withdraw resource).cast = world.cast := rfl
    exact (show left.cast = _ from cast_invalidateDependents invalidated).trans withdrawn

theorem cast_createProxy {kind : ProxyKind} (ran : world.createProxy proxy kind = .ok next) :
    next.cast = world.cast.write proxy (some { kind }) := by
  have default : (world.attach proxy kind).defaultProxy = world.defaultProxy := by
    unfold attach
    cases kind.parent? <;> cases kind.materials? <;> rfl
  exact (lasting_cast _).markStale (cast_insert (attach_proxies ..) default) ran

theorem cast_change {change : RenderProxy → RenderProxy}
    (found : world.proxies.get? proxy = some owner)
    (bare : (change owner).bare = change owner.bare)
    (proxies : next.proxies = world.proxies.insert proxy (change owner))
    (default : next.defaultProxy = world.defaultProxy) :
    next.cast = world.cast.change proxy change := by
  have there : world.cast.proxies proxy = some owner.bare :=
    congrArg (Option.map RenderProxy.bare) found
  rw [cast_insert proxies default, Cast.change, there, bare]
  rfl

theorem cast_change_missing {change : RenderProxy → RenderProxy}
    (missing : world.proxies.get? proxy = none) :
    world.cast = world.cast.change proxy change := by
  have nothing : world.cast.proxies proxy = none :=
    congrArg (Option.map RenderProxy.bare) missing
  exact (Cast.change_eq_self (by rw [nothing]; rfl)).symm

theorem withMaterials_eq_self {kind : ProxyKind} (nothing : kind.materials? = none)
    (materials : Materials) : kind.withMaterials materials = kind := by
  cases kind with
  | material | derived => cases nothing
  | colored | coloredTextured | selectionColor | lightingDensity => rfl

theorem cast_setMaterials {materials : Materials}
    (ran : world.setMaterials proxy materials = .ok next) :
    next.cast = world.cast.change proxy fun owner =>
      { owner with kind := owner.kind.withMaterials materials } := by
  obtain ⟨nothing, rfl⟩ | ⟨owner, previous, found, -, ran⟩ := setMaterials_cases ran
  · cases found : next.proxies.get? proxy with
    | none => exact cast_change_missing found
    | some owner =>
      refine (Cast.change_eq_self ?_).symm
      have there : next.cast.proxies proxy = some owner.bare :=
        congrArg (Option.map RenderProxy.bare) found
      rw [there, Option.map_some]
      exact congrArg (fun kind => some { owner.bare with kind })
        (withMaterials_eq_self (nothing owner found) materials)
  · rw [cast_invalidateFamily ran]
    exact cast_change found rfl rfl rfl

theorem cast_setParameter {name : String} {value : Option ParameterValue}
    (ran : world.setParameter proxy name value = .ok next) :
    next.cast = world.cast.change proxy fun owner =>
      { owner with overrides := owner.overrides.set name value } := by
  obtain ⟨missing, rfl⟩ | ⟨owner, found, ran⟩ := setParameter_cases ran
  · exact cast_change_missing missing
  · rw [cast_invalidateFamily ran]
    exact cast_change found rfl rfl rfl

theorem without_defaultProxy (world : World) (proxy : ProxyId) :
    (world.without proxy).defaultProxy =
      if world.defaultProxy = some proxy then none else world.defaultProxy := by
  unfold without
  dsimp only
  split
  · rename_i owner _
    have kept : (world.detach proxy owner).defaultProxy = world.defaultProxy := by
      unfold detach
      cases owner.kind.materials? <;> rfl
    rw [kept]
  · rfl

theorem cast_removeProxy (ran : world.removeProxy proxy = .ok next) :
    next.cast = RenderCommand.recast world.cast (.removeProxy proxy) := by
  have start : World.cast { world.without proxy with
      children := Table.erase (world.without proxy).children proxy } =
        RenderCommand.recast world.cast (.removeProxy proxy) := by
    refine Cast.ext (fun other => ?_) ?_
    · show ((world.without proxy).proxies.get? other).map _ =
        (world.cast.write proxy none).proxies other
      rw [without_proxies, Cast.proxies_write]
      split <;> rfl
    · exact without_defaultProxy world proxy
  exact foldlM_kept (motive := fun after => after.cast = _)
    (fun _ _ _ same stepped => (cast_invalidateFamily stepped).trans same) _ _ _ start ran

theorem cast_destroyProducer {producer : ProducerId}
    (ran : world.destroyProducer producer = .ok next) : next.cast = world.cast := by
  have start : World.cast { world with
      streaming := (world.streaming.destroyProducer producer).2 } = world.cast := rfl
  exact foldlM_kept (motive := fun after => after.cast = world.cast)
    (fun _ _ _ same stepped => (cast_invalidate stepped).trans same) _ _ _ start ran

/-- What every command makes of the proxies. -/
theorem cast_of_apply {command : RenderCommand} (ran : world.apply command = .ok next) :
    next.cast = command.recast world.cast := by
  unfold World.apply at ran
  generalize counted : world.count _ = before at ran
  have same : before.cast = world.cast := by rw [← counted]; rfl
  rw [← same]
  cases command with
  | setMap => exact cast_setMap ran
  | releaseMaterial => exact cast_releaseMaterial ran
  | createProxy => exact cast_createProxy ran
  | setMaterials => exact cast_setMaterials ran
  | setParameter => exact cast_setParameter ran
  | clearParameter => exact cast_setParameter ran
  | recache => exact cast_invalidate ran
  | removeProxy => exact cast_removeProxy ran
  | destroyProducer => exact cast_destroyProducer ran
  | registerMaterial | setDefault | createProducer | materialsUpdated | fence =>
    cases ran
    rfl

end World

namespace Renderer

variable {renderer next : Renderer}

/-- What the proxies will be once all that is queued has been carried out. -/
def cast (renderer : Renderer) : Cast :=
  renderer.queue.foldl RenderCommand.recast renderer.world.cast

theorem cast_enqueue (command : RenderCommand) (here : renderer.isGone = false) :
    (renderer.enqueue command).cast = command.recast renderer.cast := by
  rw [enqueue_eq renderer command here]
  unfold cast
  rw [List.foldl_append]
  rfl

/-- A map that is sent is not about proxies. -/
theorem cast_publish (renderer : Renderer) (resource : ResourceId) (map : Option SharedMap) :
    (renderer.publish resource map).cast = renderer.cast := by
  unfold publish enqueue
  split
  · rfl
  · unfold cast
    rw [List.foldl_append]
    rfl

theorem cast_of_apply {command : RenderCommand} {rest : List RenderCommand} {world : World}
    (queued : renderer.queue = command :: rest) (ran : renderer.world.apply command = .ok world) :
    Renderer.cast { renderer with world, queue := rest } = renderer.cast := by
  unfold cast
  rw [queued, List.foldl_cons, World.cast_of_apply ran]

theorem cast_onWorld {world : World} (same : world.cast = renderer.world.cast) :
    Renderer.cast { renderer with world } = renderer.cast := by
  unfold cast
  rw [same]

end Renderer

end Shading
