/-
Waiting makes no difference in the end. Whether stale caches wait for the end of
the frame or are rebuilt at once, and whatever else is drawn or evaluated in
between: when nothing waits any more, the same caches are valid, and they hold
the same. For which caches are wanted, and with which parameters, maps and
producers, is decided by the commands, and a valid cache holds what these ask for.

What the producers supply can be read off the commands of a run, as it does not
depend on any cache. And where all producers are created before all proxies, the
caches have only ever seen producers go away, which they are told of.

Rebuilding writes into the buffer that is there, and it leaves the bytes alone
that pad a section. So these depend on what has been in the buffer before, and
there it does make a difference which caches were rebuilt when.
-/

import Mathlib
import Shading.Proofs.Render.Freshness
import Shading.Proofs.Render.Outcome
import Shading.Proofs.Render.Promptness
import Shading.Proofs.Render.Renewal

namespace Shading

/-! ### Supplies -/

/-- Which producers answer for the textures, and what the producers supply. -/
structure Outline where
  offered : TextureId → Option ProducerId
  supply : ProducerId → Option Supply

@[ext]
theorem Outline.ext {outline other : Outline}
    (offered : ∀ texture, outline.offered texture = other.offered texture)
    (supply : ∀ id, outline.supply id = other.supply id) : outline = other := by
  cases outline
  cases other
  obtain rfl := funext offered
  obtain rfl := funext supply
  rfl

namespace RenderCommand

/-- What a command makes of the supplies. -/
def resupply (outline : Outline) : RenderCommand → Outline
  | .createProducer id texture tile border preallocates => {
    offered := Function.update outline.offered texture (some id)
    supply := Function.update outline.supply id (some ⟨texture, tile, border, preallocates⟩) }
  | .destroyProducer id =>
    match outline.supply id with
    | none => outline
    | some supply => {
      offered :=
        if outline.offered supply.texture = some id then
          Function.update outline.offered supply.texture none
        else outline.offered
      supply := Function.update outline.supply id none }
  | _ => outline

end RenderCommand

namespace Streaming

variable {streaming next : Streaming} {id : ProducerId}

def outline (streaming : Streaming) : Outline := ⟨streaming.producerFor, streaming.supply⟩

theorem outline_congr (bare : next.bare = streaming.bare)
    (byTexture : next.byTexture = streaming.byTexture) : next.outline = streaming.outline := by
  refine Outline.ext (fun texture => ?_) fun id => ?_
  · exact congrArg (·.get? texture) byTexture
  · exact supply_eq_bare.trans ((congrArg (Option.map StreamingProducer.supply)
      (congrFun bare id)).trans supply_eq_bare.symm)

theorem outline_createProducer (texture : TextureId) (tile border : UInt32) (preallocates : Bool) :
    (streaming.createProducer id texture tile border preallocates).outline =
      RenderCommand.resupply streaming.outline
        (.createProducer id texture tile border preallocates) := by
  refine Outline.ext (fun other => ?_) fun other => ?_
  · refine (congrArg (·.get? other) (createProducer_byTexture ..)).trans ?_
    exact (Table.get?_insert ..).trans (Function.update_apply ..).symm
  · refine Eq.trans ?_ (Function.update_apply ..).symm
    refine supply_eq_bare.trans ?_
    rw [bare_createProducer]
    split
    · cases preallocates <;> rfl
    · exact supply_eq_bare.symm

theorem outline_destroyProducer : (streaming.destroyProducer id).2.outline =
    RenderCommand.resupply streaming.outline (.destroyProducer id) := by
  cases found : streaming.producers.get? id with
  | none =>
    have absent : streaming.outline.supply id = none := congrArg (Option.map _) found
    unfold RenderCommand.resupply
    dsimp only
    rw [destroyProducer_absent found, absent]
  | some producer =>
    have there : streaming.outline.supply id = some producer.supply :=
      congrArg (Option.map _) found
    unfold RenderCommand.resupply
    dsimp only
    rw [there]
    refine Outline.ext (fun texture => ?_) fun other => ?_
    · have supplied : producer.supply.texture = producer.texture := rfl
      rw [destroyProducer_eq found]
      unfold outline producerFor
      dsimp only
      rw [supplied]
      split
      · exact (Table.get?_erase ..).trans (Function.update_apply ..).symm
      · rfl
    · refine Eq.trans ?_ (Function.update_apply ..).symm
      refine supply_eq_bare.trans ?_
      rw [bare_destroyProducer]
      split
      · rfl
      · exact supply_eq_bare.symm

end Streaming

theorem UniformCache.Alike.of_outline {streaming next : Streaming}
    (same : next.outline = streaming.outline) (textures : List TextureId) :
    Alike textures streaming next :=
  ⟨fun texture _ => congrFun (congrArg Outline.offered same) texture,
    fun _ _ id _ => congrFun (congrArg Outline.supply same) id⟩

/-! ### Whole runs -/

namespace Operation

theorem supplies?_eq_none {operation : Operation} (apart : operation.producer? = none) :
    operation.supplies? = none := by
  cases operation with
  | perform command =>
    cases command with
    | createProducer => cases apart
    | _ => rfl
  | _ => rfl

/-- What only commands tell is told by the commands. -/
theorem flatMap_commandsOf {α : Type} (tells : Operation → Option α)
    (silent : ∀ operation, operation.command? = none → tells operation = none)
    (past : List Operation) : past.flatMap (fun operation => (tells operation).toList) =
      (commandsOf past).flatMap fun command => (tells (.perform command)).toList := by
  induction past with
  | nil => rfl
  | cons operation rest inductionHypothesis =>
    rw [List.flatMap_cons, inductionHypothesis]
    unfold commandsOf
    cases operation with
    | perform command => rfl
    | _ => rw [silent _ rfl, List.filterMap_cons_none rfl, Option.toList_none, List.nil_append]

theorem producedBy_congr {past other : List Operation} (same : commandsOf past = commandsOf other) :
    producedBy past = producedBy other := by
  have silent (operation : Operation) (upkeep : operation.command? = none) :
      operation.produces? = none := by
    cases operation with
    | perform => cases upkeep
    | _ => rfl
  unfold producedBy
  rw [flatMap_commandsOf _ silent, flatMap_commandsOf _ silent, same]

end Operation

/-- Whether every producer is created before every proxy. -/
def RenderCommand.ProducersFirst (commands : List RenderCommand) : Prop :=
  commands.Pairwise fun earlier later =>
    (Operation.perform earlier).creates? = none ∨ (Operation.perform later).produces? = none

instance (commands : List RenderCommand) :
    Decidable (RenderCommand.ProducersFirst commands) :=
  inferInstanceAs (Decidable (List.Pairwise _ commands))

namespace Run

open World

variable {deferring : Bool} {activeTiers : List Tier} {past : List Operation} {world : World}

theorem outline_eq (run : Run deferring activeTiers past world)
    (once : (Operation.producedBy past).Nodup) : world.streaming.outline =
      (Operation.commandsOf past).foldl RenderCommand.resupply (Streaming.outline {}) := by
  induction run with
  | start => rfl
  | @step past world operation next run may ran inductionHypothesis =>
    obtain ⟨before, _⟩ := producer_new once
    have furnished := run.furnished before
    have counted : Furnished world.streaming
        (world.count fun stats => { stats with commands := stats.commands + 1 }) :=
      furnished.congr rfl rfl
    have steady : Attended (Operation.producedBy past) (fun _ _ => False)
        (world.count fun stats => { stats with commands := stats.commands + 1 }) :=
      (run.attended before).congr rfl rfl
    rw [Operation.commandsOf_append, List.foldl_append, ← inductionHypothesis before]
    rcases operation.producer_cases with apart | ⟨id, texture, tile, border, preallocates, rfl⟩ |
      ⟨id, rfl⟩
    · have nothing : (Operation.commandsOf [operation]).foldl RenderCommand.resupply
          world.streaming.outline = world.streaming.outline := by
        cases operation with
        | perform command => cases command <;> first | rfl | cases apart
        | _ => rfl
      have kept := furnished.carryOut run.sound may apart ran
      rw [nothing, Streaming.outline_congr kept.bare kept.byTexture]
    · cases ran
      exact Streaming.outline_createProducer ..
    · have kept := counted.destroyProducer steady ran
      rw [Streaming.outline_congr kept.bare kept.byTexture]
      exact Streaming.outline_destroyProducer

/-- No producer comes once there are proxies, so all valid caches are fresh. -/
theorem fresh_first (run : Run deferring activeTiers past world)
    (once : (Operation.producedBy past).Nodup)
    (first : RenderCommand.ProducersFirst (Operation.commandsOf past)) :
    Fresh [] (fun _ _ => none) world := by
  induction run with
  | start =>
    have begun : Run deferring activeTiers [] { deferring, activeTiers } := .start
    exact ⟨_, begun.furnished List.nodup_nil, fun _ _ _ found => nomatch found⟩
  | @step past world operation next run may ran inductionHypothesis =>
    obtain ⟨before, _⟩ := producer_new once
    have furnished := (run.step may ran).furnished once
    rw [Operation.commandsOf_append] at first
    have earlier := List.pairwise_append.mp first
    rcases operation.producer_cases with apart | ⟨id, texture, tile, border, preallocates, rfl⟩ |
      ⟨id, rfl⟩
    · refine run.fresh_step (inductionHypothesis before earlier.1) once may
        (fun texture supplies => ?_) ran
      rw [Operation.supplies?_eq_none apart] at supplies
      cases supplies
    · refine ⟨_, furnished, fun proxy tier cache found => ?_⟩
      -- The proxy of the cache would have been created before the producer.
      cases ran
      have there : world.cacheOf proxy tier = some cache := found
      obtain ⟨operation, member, created⟩ := List.mem_flatMap.mp (run.sound.cacheOf_created there)
      cases operation with
      | perform command =>
        have inside : command ∈ Operation.commandsOf past := List.mem_filterMap.mpr ⟨_, member, rfl⟩
        rcases earlier.2.2 command inside _ (List.mem_singleton.mpr rfl) with none | none
        · rw [none] at created
          cases created
        · cases none
      | _ => cases created
    · exact run.fresh_step (inductionHypothesis before earlier.1) once may
        (fun _ supplies => nomatch supplies) ran

end Run

/-! ### The same contents -/

namespace UniformCache

/-- Two caches that were built from the same and hold the same, wherever the buffers of a set are
not loose. -/
structure Matches (set : ExpressionSet) (cache other : UniformCache) : Prop where
  map : cache.map = other.map
  resource : cache.resource = other.resource
  collections : cache.collections = other.collections
  producers : cache.producers = other.producers
  buffers : ∃ first second, cache.buffer = some first ∧ other.buffer = some second ∧
    first.layout = second.layout ∧ first.content.length = second.content.length ∧
    ∀ position, ¬ set.Loose position → first.content[position]? = second.content[position]?

/-- A cache whose buffer holds what would be written into it now. -/
structure Current (set : ExpressionSet) (source : ParameterSource) (streaming : Streaming)
    (cache : UniformCache) (buffer : UniformBuffer) : Prop where
  has : cache.buffer = some buffer
  sections : set.sectionsOf buffer.content = set.written source
  composed : ∃ parts, HoldsParts set cache parts ∧
    List.Forall₂ (fun stack part => describeStack set source streaming stack = .ok part)
      set.streamingStacks parts

/-- What would be written does not depend on more of the streaming textures than their outline. -/
theorem Current.matches {set : ExpressionSet} {source : ParameterSource}
    {streaming streaming' : Streaming} {cache other : UniformCache} {first second : UniformBuffer}
    {resource : ResourceId} {shared : SharedMap}
    (current : Current set source streaming cache first)
    (beside : Current set source streaming' other second)
    (outline : streaming'.outline = streaming.outline) (serves : cache.Serves resource shared)
    (alike : other.Serves resource shared) : cache.Matches set other := by
  obtain ⟨parts, holds, described⟩ := current.composed
  obtain ⟨parts', holds', described'⟩ := beside.composed
  obtain rfl : parts' = parts := by
    refine Relator.RightUnique.forall₂ (fun stack part part' one two => ?_) (described'.imp
      fun stack part same => ?_) described
    · exact Except.ok.inj (one.symm.trans two)
    · rw [← same]
      exact describeStack_congr (.of_outline outline.symm _)
  obtain ⟨_, stored, bytes⟩ := holds.bytes
  cases current.has.symm.trans stored
  obtain ⟨_, stored, bytes'⟩ := holds'.bytes
  cases beside.has.symm.trans stored
  obtain ⟨_, stored, layout, sized⟩ := serves.buffer_fits
  cases current.has.symm.trans stored
  obtain ⟨_, stored, layout', sized'⟩ := alike.buffer_fits
  cases beside.has.symm.trans stored
  have layouts : first.layout = second.layout := Option.some.inj (layout.symm.trans layout')
  refine ⟨serves.map_eq.trans alike.map_eq.symm, serves.resource_eq.trans alike.resource_eq.symm,
    holds.collections.trans holds'.collections.symm, holds.producers.trans holds'.producers.symm,
    first, second, current.has, beside.has, layouts, ?_, fun position fixed => ?_⟩
  · rw [sized, sized', layouts]
  · refine ExpressionSet.getElem?_of_sections ?_ (fun index inside => ?_) fixed
    · rw [current.sections, beside.sections]
    · have part := List.getElem?_eq_getElem (described.length_eq ▸ inside)
      rw [bytes index _ part, bytes' index _ part]

end UniformCache

namespace World

/-- Two worlds in which everything that caches are built from is the same. -/
structure Resembles (world other : World) : Prop where
  resolve : ∀ proxy tier, other.resolve proxy tier = world.resolve proxy tier
  mapOf : ∀ resource, other.mapOf resource = world.mapOf resource
  parameters : other.proxies.parameters = world.proxies.parameters
  outline : other.streaming.outline = world.streaming.outline

theorem Resembles.symm {world other : World} (same : Resembles world other) :
    Resembles other world :=
  ⟨fun proxy tier => (same.resolve proxy tier).symm, fun resource => (same.mapOf resource).symm,
    same.parameters.symm, same.outline.symm⟩

end World

namespace Run

open World

variable {deferring deferring' : Bool} {activeTiers : List Tier} {past past' : List Operation}
  {world other : World} {proxy : ProxyId} {tier : Tier} {cache : UniformCache}

/-! ### Worlds of the same commands -/

/-- The same commands lead to the same contents. -/
theorem resembles (run : Run deferring activeTiers past world)
    (twin : Run deferring' activeTiers past' other)
    (commands : Operation.commandsOf past' = Operation.commandsOf past)
    (once : (Operation.producedBy past).Nodup) : Resembles world other := by
  have cast : other.cast = world.cast := by rw [run.cast_eq, twin.cast_eq, commands]
  have stock : other.stock = world.stock := by rw [run.stock_eq, twin.stock_eq, commands]
  have bare (proxy : ProxyId) : (other.proxies.get? proxy).map RenderProxy.bare =
      (world.proxies.get? proxy).map RenderProxy.bare :=
    congrFun (congrArg Cast.proxies cast) proxy
  have kinds : other.proxies.kinds = world.proxies.kinds := funext fun proxy => by
    have kind (proxies : Proxies) : proxies.kinds proxy =
        ((proxies.get? proxy).map RenderProxy.bare).map RenderProxy.kind := by
      rw [Option.map_map]
      rfl
    rw [kind, kind, bare]
  refine ⟨fun proxy tier => Option.ext fun resource => ?_, fun resource => ?_, ?_, ?_⟩
  · rw [twin.sound.arranged.resolve_iff, run.sound.arranged.resolve_iff, kinds]
  · rw [mapOf_eq, mapOf_eq, stock]
  · exact funext fun proxy => Proxies.parameters_congr fun high _ => bare high
  · have again := once
    rw [← Operation.producedBy_congr commands] at again
    rw [run.outline_eq once, twin.outline_eq again, commands]

/-- A cache that is valid in one of the worlds is wanted in the other one as well, and so it is
valid there when nothing waits any more. -/
theorem hasValid_of_resembles (run : Run deferring activeTiers past world)
    (twin : Run deferring' activeTiers past' other) (same : Resembles world other)
    (settled : deferring' = false ∨ past'.getLast? = some .updateDeferred)
    (leveled : RenderCommand.Leveled (Operation.commandsOf past'))
    (active : tier ∈ activeTiers) (valid : world.HasValid proxy tier) :
    other.HasValid proxy tier := by
  obtain ⟨cache, found, valid⟩ := valid
  obtain ⟨resource, shared, resolved, held, _⟩ := run.serves found valid
  rw [← same.resolve] at resolved
  rw [← same.mapOf] at held
  obtain ⟨its, there, good⟩ := (twin.wanted_cache_valid leveled active resolved held).1 settled
  exact ⟨its, there, (Bool.and_eq_true_iff.mp good).1⟩

/-! ### What valid caches hold -/

/-- Where no producer comes once there are proxies, a valid cache is current as a whole. -/
theorem current (run : Run deferring activeTiers past world)
    (once : (Operation.producedBy past).Nodup)
    (first : RenderCommand.ProducersFirst (Operation.commandsOf past))
    (found : world.cacheOf proxy tier = some cache) (valid : cache.valid) {resource : ResourceId}
    {shared : SharedMap} (built : cache.resource = some resource)
    (held : world.mapOf resource = some shared) :
    ∃ buffer, cache.Current (shared.map.expressions?.getD .empty)
      (world.proxies.parameters proxy) world.streaming buffer := by
  obtain ⟨buffer, has, written⟩ :=
    run.allFilled.kept proxy tier cache found valid id resource shared built held
  obtain ⟨reference, warranted⟩ := run.fresh_first once first
  obtain ⟨parts, holds, described⟩ := (warranted.kept proxy tier cache found valid id resource
    shared built held).resolve_left (Option.some_ne_none cache ∘ Eq.symm)
  refine ⟨buffer, has, written, parts, holds, described.imp fun stack part same => ?_⟩
  rw [← UniformCache.describeStack_congr (warranted.assured.alike _)]
  exact same fun _ _ => List.not_mem_nil

/-- Two worlds of the same commands, in neither of which a stale cache waits any more: stale
caches may have waited in the one and not in the other, and other caches may have been evaluated
or drawn with on the way. No proxy names at a tier a resource of another tier, and every producer
is created before every proxy. Then the same caches for active tiers are valid, and any two of
them were built from the same resource and the same map, read the same producers and collections,
and have buffers of the same layout that hold the same bytes, except for the numbers of
allocations and the bytes that pad the scalars and the textures. -/
theorem modes_agree (run : Run deferring activeTiers past world)
    (twin : Run deferring' activeTiers past' other)
    (commands : Operation.commandsOf past' = Operation.commandsOf past)
    (settled : deferring = false ∨ past.getLast? = some .updateDeferred)
    (settled' : deferring' = false ∨ past'.getLast? = some .updateDeferred)
    (once : (Operation.producedBy past).Nodup)
    (leveled : RenderCommand.Leveled (Operation.commandsOf past))
    (first : RenderCommand.ProducersFirst (Operation.commandsOf past))
    (active : tier ∈ activeTiers) :
    (world.HasValid proxy tier ↔ other.HasValid proxy tier) ∧
    ∀ cache its, world.cacheOf proxy tier = some cache → cache.valid →
      other.cacheOf proxy tier = some its → its.valid →
      ∃ resource shared set, cache.resource = some resource ∧ cache.map = some shared.id ∧
        world.mapOf resource = some shared ∧ other.mapOf resource = some shared ∧
        shared.map.expressions? = some set ∧ cache.Matches set its := by
  have same := run.resembles twin commands once
  have again := once
  rw [← Operation.producedBy_congr commands] at again
  refine ⟨⟨run.hasValid_of_resembles twin same settled' (commands ▸ leveled) active,
    twin.hasValid_of_resembles run same.symm settled leveled active⟩,
    fun cache its found valid there good => ?_⟩
  obtain ⟨resource, shared, set, resolved, held, serves, expressions⟩ := run.serves_set found valid
  obtain ⟨_, _, _, resolved', held', serves', _⟩ := twin.serves_set there good
  rw [same.resolve, resolved] at resolved'
  cases resolved'
  have kept := held'
  rw [same.mapOf, held] at kept
  cases kept
  obtain ⟨buffer, current⟩ := run.current once first found valid serves.resource_eq held
  obtain ⟨buffer', current'⟩ :=
    twin.current again (commands ▸ first) there good serves'.resource_eq held'
  rw [expressions, Option.getD_some] at current current'
  rw [same.parameters] at current'
  exact ⟨resource, shared, set, serves.resource_eq, serves.map_eq, held, held', expressions,
    current.matches current' same.outline serves serves'⟩

/-- Both ways of keeping caches fresh lead to the same cache for the proxy of the first frame with
streaming textures. -/
theorem layeredFrame_modes : ∃ (world other : World) (cache its : UniformCache)
    (set : ExpressionSet), Run true [.desktop] layeredFrame world ∧
    Run false [.desktop] (layeredFrame.take 4) other ∧
    world.cacheOf .first .desktop = some cache ∧ cache.valid = true ∧
    other.cacheOf .first .desktop = some its ∧ its.valid = true ∧ cache.Matches set its := by
  have built : (Operation.carryOutAll {} layeredFrame).map (fun world =>
      (world.cacheOf .first .desktop).map UniformCache.valid) = .ok (some true) := by
    cbv
  have ready : (Operation.carryOutAll { deferring := false } (layeredFrame.take 4)).isOk := by
    cbv
  obtain ⟨world, ran, built⟩ := map_eq_ok.mp built
  obtain ⟨cache, found, valid⟩ := Option.map_eq_some_iff.mp built
  have run : Run true [.desktop] layeredFrame world := Run.start.continued (by decide) ran
  cases ran' : Operation.carryOutAll { deferring := false } (layeredFrame.take 4) with
  | error fault =>
    rw [ran'] at ready
    cases ready
  | ok other =>
    have twin : Run false [.desktop] (layeredFrame.take 4) other :=
      Run.start.continued (by decide) ran'
    obtain ⟨validity, agree⟩ := run.modes_agree twin rfl (.inr rfl) (.inl rfl) (by decide)
      (by decide) (by decide) (List.mem_singleton.mpr rfl)
    obtain ⟨its, there, good⟩ := validity.mp ⟨cache, found, valid⟩
    obtain ⟨_, _, set, _, _, _, _, _, same⟩ := agree cache its found valid there good
    exact ⟨world, other, cache, its, set, run, twin, found, valid, there, good, same⟩

/-- A map with scalar parameters that are one if they are not set. -/
def scaled (id : MapId) (names : List String) : SharedMap where
  id
  map := {
    identity := default
    name := "Scaled"
    content := some {
      binaries := []
      profile := { expressions := {
        scalars := names.map fun name => .scalarParameter name .one } } } }

/-- A proxy is drawn with one map and then with another one that has less scalars but the same
layout. -/
def thinned : List Operation :=
  [.perform (.registerMaterial .first { name := "Scaled", tier := .desktop, quality := .high }),
    .perform (.createProxy .first (.material ((PerTier.fill none).set .desktop (some .first)))),
    .perform (.setMap .first (some (scaled .first ["Roughness", "Metallic"]))),
    .perform (.setMap .first (some (scaled Identifier.first.next ["Roughness"]))),
    .updateDeferred]

/-- Where stale caches do not wait, the buffer was filled for the first map before it was filled
for the second one, and what pads the scalars is left of that. Where they wait it was filled only
for the second one. -/
theorem thinned_modes_differ : ∃ (world other : World) (cache its : UniformCache)
    (first second : UniformBuffer),
    Run true [.desktop] thinned world ∧ Run false [.desktop] thinned other ∧
    (Operation.producedBy thinned).Nodup ∧
    RenderCommand.Leveled (Operation.commandsOf thinned) ∧
    RenderCommand.ProducersFirst (Operation.commandsOf thinned) ∧
    thinned.getLast? = some .updateDeferred ∧
    world.cacheOf .first .desktop = some cache ∧ cache.valid = true ∧
    other.cacheOf .first .desktop = some its ∧ its.valid = true ∧
    cache.buffer = some first ∧ its.buffer = some second ∧ first.layout = second.layout ∧
    first.content = [0, 0, 0x80, 0x3F] ++ List.replicate 12 0 ∧
    second.content = [0, 0, 0x80, 0x3F, 0, 0, 0x80, 0x3F] ++ List.replicate 8 0 := by
  have filled (deferring : Bool) : (Operation.carryOutAll { deferring } thinned).map (fun world =>
      (world.cacheOf .first .desktop).bind fun cache => cache.buffer.map fun buffer =>
        (cache.valid, buffer.layout, buffer.content)) =
      .ok (some (true, ⟨0, 0, 16, 16, 16⟩,
        if deferring then [0, 0, 0x80, 0x3F] ++ List.replicate 12 0
        else [0, 0, 0x80, 0x3F, 0, 0, 0x80, 0x3F] ++ List.replicate 8 0)) := by
    cases deferring <;> cbv
  obtain ⟨world, ran, built⟩ := map_eq_ok.mp (filled true)
  obtain ⟨cache, found, built⟩ := Option.bind_eq_some_iff.mp built
  obtain ⟨first, has, built⟩ := Option.map_eq_some_iff.mp built
  obtain ⟨other, ran', built'⟩ := map_eq_ok.mp (filled false)
  obtain ⟨its, there, built'⟩ := Option.bind_eq_some_iff.mp built'
  obtain ⟨second, has', built'⟩ := Option.map_eq_some_iff.mp built'
  simp only [Prod.mk.injEq] at built built'
  obtain ⟨valid, layout, content⟩ := built
  obtain ⟨valid', layout', content'⟩ := built'
  exact ⟨world, other, cache, its, first, second, Run.start.continued (by decide) ran,
    Run.start.continued (by decide) ran', by decide, by decide, by decide, rfl, found, valid, there,
    valid', has, has', layout.trans layout'.symm, content, content'⟩

end Run

end Shading
