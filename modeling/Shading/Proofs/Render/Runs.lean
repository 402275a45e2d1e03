/-
Runs of a render world. A run begins with an empty world and carries out one
operation after the other, none of them with a fault: commands, in any order,
and calls that evaluate or invalidate caches in between. What numbers things
gives no number twice, so a run creates every proxy and registers every resource
at most once, and the parent of a proxy is created before the proxy.

In every world that a run leads to, a valid cache serves what its proxy is
drawn with.
-/

import Mathlib
import Shading.Proofs.Render.Commands

namespace Shading

/-! ### Operations -/

/-- What is done with a render world from outside. -/
inductive Operation where
  | perform (command : RenderCommand)
  /-- The material side counts a map that it is about to send. -/
  | announce (resource : ResourceId)
  | updateDeferred
  | updateIfNeeded (proxy : ProxyId) (tier : Tier)
  | evaluate (proxy : ProxyId) (tier : Tier)
  | prepareDraw (proxy : ProxyId) (tier : Tier)
  | invalidate (proxy : ProxyId) (recreate : Bool)

namespace Operation

def carryOut (world : World) : Operation → Except Fault World
  | .perform command => world.apply command
  | .announce resource => .ok (world.onBinding resource Binding.beginPublish)
  | .updateDeferred => world.updateDeferred.map Prod.snd
  | .updateIfNeeded proxy tier => world.updateIfNeeded proxy tier
  | .evaluate proxy tier => (world.evaluate proxy tier).map Prod.snd
  | .prepareDraw proxy tier => (world.prepareDraw proxy tier).map Prod.snd
  | .invalidate proxy recreate => world.invalidate recreate proxy

/-- The proxy that an operation creates. -/
def creates? : Operation → Option ProxyId
  | .perform (.createProxy proxy _) => some proxy
  | _ => none

/-- The resource that an operation registers. -/
def registers? : Operation → Option ResourceId
  | .perform (.registerMaterial resource _) => some resource
  | _ => none

/-- The parent of the proxy that an operation creates. -/
def parent? : Operation → Option ProxyId
  | .perform (.createProxy _ kind) => kind.parent?
  | _ => none

def createdBy (past : List Operation) : List ProxyId :=
  past.flatMap fun operation => operation.creates?.toList

def registeredBy (past : List Operation) : List ResourceId :=
  past.flatMap fun operation => operation.registers?.toList

/-- Whether an operation may follow others: it creates and registers nothing a second time, and
creates no proxy before its parent. -/
structure MayFollow (past : List Operation) (operation : Operation) : Prop where
  creates : ∀ proxy ∈ operation.creates?, proxy ∉ createdBy past
  registers : ∀ resource ∈ operation.registers?, resource ∉ registeredBy past
  parent : ∀ parent ∈ operation.parent?, parent ∈ createdBy past

instance (past : List Operation) (operation : Operation) : Decidable (MayFollow past operation) :=
  decidable_of_iff (_ ∧ _ ∧ _)
    ⟨fun ⟨creates, registers, parent⟩ => ⟨creates, registers, parent⟩,
      fun may => ⟨may.creates, may.registers, may.parent⟩⟩

/-- Whether operations may follow others one after the other. -/
def InOrder (past : List Operation) : List Operation → Prop
  | [] => True
  | operation :: later => MayFollow past operation ∧ InOrder (past ++ [operation]) later

instance decidableInOrder (past : List Operation) :
    (later : List Operation) → Decidable (InOrder past later)
  | [] => .isTrue trivial
  | operation :: later =>
    have := decidableInOrder (past ++ [operation]) later
    inferInstanceAs (Decidable (_ ∧ _))

def carryOutAll (world : World) (operations : List Operation) : Except Fault World :=
  operations.foldlM carryOut world

end Operation

/-- The operations carried out so far, oldest first, and the world they lead to. -/
inductive Run (deferring : Bool) (activeTiers : List Tier) : List Operation → World → Prop where
  | start : Run deferring activeTiers [] { deferring, activeTiers }
  | step {past world operation next} : Run deferring activeTiers past world →
      operation.MayFollow past → operation.carryOut world = .ok next →
      Run deferring activeTiers (past ++ [operation]) next

namespace World.Sound

variable {created : List ProxyId} {registered : List ResourceId} {world next : World}

/-! ### One step -/

theorem apply {command : RenderCommand} (sound : Sound created registered world)
    (creates : ∀ proxy kind, command = .createProxy proxy kind →
      proxy ∉ created ∧ ∀ parent, kind.parent? = some parent → parent ∈ created)
    (registers : ∀ resource info, command = .registerMaterial resource info →
      resource ∉ registered)
    (ran : world.apply command = .ok next) :
    Sound (created ++ (Operation.perform command).creates?.toList)
      (registered ++ (Operation.perform command).registers?.toList) next := by
  have counted : Sound created registered
      (world.count fun stats => { stats with commands := stats.commands + 1 }) :=
    sound.congr rfl rfl rfl rfl
  unfold World.apply at ran
  cases command <;> simp only [Operation.creates?, Operation.registers?, Option.toList_none,
    Option.toList_some, List.append_nil]
  case registerMaterial resource info =>
    cases ran
    exact counted.registerMaterial (registers resource info rfl)
  case setMap => exact counted.setMap ran
  case releaseMaterial => exact counted.releaseMaterial ran
  case createProxy proxy kind =>
    obtain ⟨fresh, older⟩ := creates proxy kind rfl
    exact counted.createProxy fresh older ran
  case setMaterials => exact counted.setMaterials ran
  case setParameter => exact counted.setParameter ran
  case clearParameter => exact counted.setParameter ran
  case recache => exact counted.invalidate ran
  case removeProxy => exact counted.removeProxy ran
  case destroyProducer => exact counted.destroyProducer ran
  all_goals
    cases ran
    exact counted.congr rfl rfl rfl rfl

/-- Every operation that may follow keeps the world consistent. -/
theorem carryOut {operation : Operation} {past : List Operation}
    (sound : Sound (Operation.createdBy past) (Operation.registeredBy past) world)
    (may : operation.MayFollow past) (ran : operation.carryOut world = .ok next) :
    Sound (Operation.createdBy (past ++ [operation])) (Operation.registeredBy (past ++ [operation]))
      next := by
  unfold Operation.createdBy Operation.registeredBy
  rw [List.flatMap_append, List.flatMap_append, List.flatMap_singleton, List.flatMap_singleton]
  cases operation <;> simp only [Operation.creates?, Operation.registers?, Option.toList_none,
    List.append_nil]
  case perform command =>
    refine sound.apply (fun proxy kind same => ?_) (fun resource info same => ?_) ran
    · subst same
      exact ⟨may.creates proxy rfl, may.parent⟩
    · subst same
      exact may.registers resource rfl
  case announce =>
    cases ran
    exact sound.congr rfl rfl rfl rfl
  case updateDeferred =>
    obtain ⟨⟨count, world⟩, updated, rfl⟩ := map_eq_ok.mp ran
    exact lasting_sound.updateDeferred sound updated
  case updateIfNeeded => exact lasting_sound.updateIfNeeded sound ran
  case evaluate =>
    obtain ⟨⟨built, world⟩, evaluated, rfl⟩ := map_eq_ok.mp ran
    exact lasting_sound.evaluate sound evaluated
  case prepareDraw =>
    obtain ⟨⟨drawn, world⟩, prepared, rfl⟩ := map_eq_ok.mp ran
    exact lasting_sound.prepareDraw sound prepared
  case invalidate => exact sound.invalidate ran

/-- A world without anything is consistent. -/
theorem start (deferring : Bool) (activeTiers : List Tier) :
    Sound [] [] { deferring, activeTiers } where
  arranged := {
    kinds_eq := rfl
    known := fun _ _ live => nomatch live
    ranked := fun _ _ ⟨_, live, _⟩ => nomatch live
    children := fun _ _ ⟨_, live, _⟩ => nomatch live
    registered := fun _ _ found => nomatch found
    compiled := fun _ _ held => nomatch held }
  noted := ⟨fun _ _ _ _ found => (nomatch found), fun _ _ _ _ found => (nomatch found)⟩
  current := fun _ _ _ found => nomatch found

end World.Sound

/-! ### Whole runs -/

variable {deferring : Bool} {activeTiers : List Tier} {past : List Operation} {world : World}

namespace World

/-- What a proxy is drawn with: a resource, and the one map that the resource has now. -/
def drawnWith (world : World) (proxy : ProxyId) (tier : Tier) : Option (ResourceId × MapId) :=
  (world.ownDrawable proxy tier).map fun drawable => (drawable.resource, drawable.map.id)

theorem drawnWith_eq_some {proxy : ProxyId} {tier : Tier} {resource : ResourceId}
    {shared : SharedMap} (resolved : world.resolve proxy tier = some resource)
    (held : world.mapOf resource = some shared) :
    world.drawnWith proxy tier = some (resource, shared.id) := by
  unfold drawnWith ownDrawable
  rw [resolved, Option.bind_eq_bind, Option.bind_some, held]
  rfl

end World

namespace Run

/-- Whatever is carried out in order without a fault is a run. -/
theorem continued (run : Run deferring activeTiers past world) {later : List Operation}
    {final : World} (order : Operation.InOrder past later)
    (ran : Operation.carryOutAll world later = .ok final) :
    Run deferring activeTiers (past ++ later) final := by
  induction later generalizing past world with
  | nil =>
    cases ran
    rw [List.append_nil]
    exact run
  | cons operation later inductionHypothesis =>
    obtain ⟨next, carried, ran⟩ := bind_eq_ok.mp ran
    rw [List.append_cons]
    exact inductionHypothesis (run.step order.1 carried) order.2 ran

theorem sound (run : Run deferring activeTiers past world) :
    World.Sound (Operation.createdBy past) (Operation.registeredBy past) world := by
  induction run with
  | start => exact World.Sound.start deferring activeTiers
  | step _ may ran inductionHypothesis => exact inductionHypothesis.carryOut may ran

theorem serves (run : Run deferring activeTiers past world) {proxy : ProxyId} {tier : Tier}
    {cache : UniformCache} (found : world.cacheOf proxy tier = some cache) (valid : cache.valid) :
    ∃ resource shared, world.resolve proxy tier = some resource ∧
      world.mapOf resource = some shared ∧ cache.Serves resource shared := by
  obtain ⟨resource, shared, draws, held, serves⟩ :=
    run.sound.current proxy tier cache found valid id
  exact ⟨resource, shared, (run.sound.arranged.resolve_iff ..).mpr draws, held, serves⟩

/-- What a valid cache serves has expressions. -/
theorem serves_set (run : Run deferring activeTiers past world) {proxy : ProxyId} {tier : Tier}
    {cache : UniformCache} (found : world.cacheOf proxy tier = some cache) (valid : cache.valid) :
    ∃ resource shared set, world.resolve proxy tier = some resource ∧
      world.mapOf resource = some shared ∧ cache.Serves resource shared ∧
      shared.map.expressions? = some set := by
  obtain ⟨resource, shared, resolved, held, serves⟩ := run.serves found valid
  have compiled := run.sound.arranged.compiled resource shared held
  obtain ⟨content, stored⟩ := Option.isSome_iff_exists.mp compiled
  exact ⟨resource, shared, content.profile.expressions, resolved, held, serves,
    by simp [ShaderMap.expressions?, stored]⟩

/-- A valid cache was built from the resource that its proxy resolves to now and from the very
map that this resource has now, and its buffer has the layout and the length that this map asks
for. So a cache does not stay valid when something changes what its proxy is drawn with: if it
is valid afterwards, it has been built from something else. -/
theorem valid_cache_current (run : Run deferring activeTiers past world) {proxy : ProxyId}
    {tier : Tier} {cache : UniformCache} (found : world.cacheOf proxy tier = some cache)
    (valid : cache.valid) :
    (∃ resource shared buffer,
      cache.resource = some resource ∧ world.resolve proxy tier = some resource ∧
      cache.map = some shared.id ∧ world.mapOf resource = some shared ∧
      cache.buffer = some buffer ∧ shared.map.layout? = some buffer.layout ∧
      buffer.content.length = buffer.layout.size) ∧
    ∀ (operation : Operation) (next : World) (later : UniformCache),
      operation.MayFollow past → operation.carryOut world = .ok next →
      next.drawnWith proxy tier ≠ world.drawnWith proxy tier →
      next.cacheOf proxy tier = some later → later.valid →
      (later.resource, later.map) ≠ (cache.resource, cache.map) := by
  obtain ⟨resource, shared, resolved, held, serves⟩ := run.serves found valid
  obtain ⟨buffer, stored, layout, length⟩ := serves.buffer_fits
  refine ⟨⟨resource, shared, buffer, serves.resource_eq, resolved, serves.map_eq, held, stored,
    layout, length⟩, fun operation next later may ran changed found' valid' same => changed ?_⟩
  obtain ⟨resource', shared', resolved', held', serves'⟩ :=
    (run.step may ran).serves found' valid'
  rw [World.drawnWith_eq_some resolved held, World.drawnWith_eq_some resolved' held']
  rw [serves.resource_eq, serves.map_eq, serves'.resource_eq, serves'.map_eq] at same
  obtain ⟨sameResource, sameMap⟩ := Prod.mk.inj same
  rw [Option.some.inj sameResource, Option.some.inj sameMap]

/-- A map with one vector parameter. -/
def tinted : SharedMap where
  id := .first
  map := {
    identity := default
    name := "Tinted"
    content := some {
      binaries := []
      profile := { expressions := { vectors := [.vectorParameter "Tint" (.splat .one)] } } } }

/-- A resource gets its map, and a proxy is drawn with it. -/
def firstFrame : List Operation :=
  [.perform (.registerMaterial .first { name := "Tinted", tier := .desktop, quality := .high }),
    .perform (.setMap .first (some tinted)),
    .perform (.createProxy .first (.material ((PerTier.fill none).set .desktop (some .first)))),
    .updateDeferred]

/-- After the first frame the cache of the proxy is valid, and so it serves the map. -/
theorem firstFrame_current : ∃ world cache, Run true [.desktop] firstFrame world ∧
    world.cacheOf .first .desktop = some cache ∧ cache.valid = true ∧
    ∃ resource shared, cache.resource = some resource ∧ cache.map = some shared.id ∧
      world.mapOf resource = some shared := by
  have built : (Operation.carryOutAll {} firstFrame).map (fun world =>
      (world.cacheOf .first .desktop).map UniformCache.valid) = .ok (some true) := by
    cbv
  obtain ⟨world, ran, built⟩ := map_eq_ok.mp built
  obtain ⟨cache, found, valid⟩ := Option.map_eq_some_iff.mp built
  have run : Run true [.desktop] firstFrame world :=
    Run.start.continued (by decide) ran
  obtain ⟨⟨resource, shared, _, source, _, map, held, _⟩, _⟩ := run.valid_cache_current found valid
  exact ⟨world, cache, run, found, valid, resource, shared, source, map, held⟩

end Run

end Shading
