/-
Which streaming stacks of valid caches are current. Whoever reads a producer is
told when it goes away, and is rebuilt. Nobody is told when a producer comes:
it answers for its texture at once, but the caches that have read the texture
before stay as they are. So a stack of a valid cache is as it would be composed
now, unless a producer has come for one of its textures since the cache was
built.
-/

import Mathlib
import Shading.Proofs.Render.Furnishing

namespace Shading

open UniformCache (texturesOf describeStack describeStack_congr HoldsParts Alike)

namespace Operation

/-- The texture that an operation brings a producer for. -/
def supplies? : Operation → Option TextureId
  | .perform (.createProducer _ texture _ _ _) => some texture
  | _ => none

def suppliedBy (past : List Operation) : List TextureId :=
  past.flatMap fun operation => operation.supplies?.toList

end Operation

/-! ### Producers that come and go -/

namespace UniformCache.Alike

variable {streaming : Streaming} {textures : List TextureId} {id : ProducerId}

/-- A producer that comes answers for its own texture only. -/
theorem created {texture : TextureId} (unread : texture ∉ textures)
    (new : ∀ read, streaming.byTexture.get? read ≠ some id) (tile border : UInt32)
    (preallocates : Bool) :
    Alike textures streaming (streaming.createProducer id texture tile border preallocates) := by
  refine ⟨fun read member => ?_, fun read _ other answers => ?_⟩
  · have different : read ≠ texture := fun here => unread (here ▸ member)
    unfold Streaming.producerFor
    rw [Streaming.createProducer_byTexture, Table.get?_insert, if_neg different]
  · have different : other ≠ id := fun here => new read (here ▸ answers)
    rw [Streaming.supply_eq_bare, Streaming.supply_eq_bare, Streaming.bare_createProducer,
      if_neg different]

/-- A producer that goes away leaves the textures that others answer for, or nobody. -/
theorem destroyed {producer : StreamingProducer}
    (found : streaming.producers.get? id = some producer)
    (others : ∀ texture ∈ textures, streaming.byTexture.get? texture ≠ some id) :
    Alike textures streaming (streaming.destroyProducer id).2 := by
  refine ⟨fun texture member => ?_, fun texture member answering answers => ?_⟩
  · rw [Streaming.destroyProducer_eq found]
    unfold Streaming.producerFor
    dsimp only
    split
    · rename_i answers
      rw [Table.get?_erase, if_neg]
      rintro rfl
      exact others _ member answers
    · rfl
  · have different : answering ≠ id := fun here => others texture member (here ▸ answers)
    rw [Streaming.supply_eq_bare, Streaming.supply_eq_bare, Streaming.bare_destroyProducer,
      if_neg different]

end UniformCache.Alike

/-! ### What caches reflect -/

/-- The promise that a cache holds the parts of its stacks as they are described by some streaming
textures, at least of the stacks that read none of the textures supplied. Caches that are as they
were at some earlier time are let pass. -/
def Reflects (reference : Streaming) (supplied : List TextureId)
    (old : ProxyId → Tier → Option UniformCache) : Promise :=
  fun proxy tier set source cache => old proxy tier = some cache ∨ ∃ parts,
    HoldsParts set cache parts ∧
    List.Forall₂ (fun stack part => (∀ texture ∈ texturesOf set source stack, texture ∉ supplied) →
      describeStack set source reference stack = .ok part) set.streamingStacks parts

namespace World

variable {reference : Streaming} {supplied : List TextureId}
  {old : ProxyId → Tier → Option UniformCache} {world next : World}

/-- Rebuilding makes a cache reflect the streaming textures as they are. -/
theorem reflecting : Warranty (Reflects reference supplied old) (Furnished reference) where
  lasting := Furnished.lasting
  rebuilt := by
    intro world proxy tier drawable owner rebuilt furnished _ found ran
    have mine := furnished.apart proxy tier
    rw [owned_of_found found] at mine
    obtain ⟨_, parts, described, holds⟩ :=
      UniformCache.rebuild_parts furnished.equipped mine ran
    refine .inr ⟨parts, holds, described.imp fun stack part same _ => ?_⟩
    rw [describeStack_congr (furnished.alike _), same]
  congr := fun furnished => furnished.congr
  dropCaches := fun recreate furnished => furnished.dropCaches recreate
  dropCache := fun tier recreate furnished => furnished.dropCache tier recreate
  attach := fun kind furnished => furnished.attach kind
  without := fun proxy furnished => furnished.without proxy

/-- The valid caches reflect the streaming textures that there are. -/
def Fresh (supplied : List TextureId) (old : ProxyId → Tier → Option UniformCache)
    (world : World) : Prop :=
  ∃ reference, AllWarranted (Reflects reference supplied old) (Furnished reference) world

namespace Fresh

variable {produced : List ProducerId} {id : ProducerId} {past : List Operation}
  {operation : Operation}

/-- A producer that comes for a texture changes nothing for the stacks that do not read it. -/
theorem createProducer (fresh : Fresh supplied old world)
    (attended : Attended produced (fun _ _ => False) world) (new : id ∉ produced)
    {texture : TextureId} (inside : texture ∈ supplied) (tile border : UInt32)
    (preallocates : Bool) :
    Fresh supplied old (world.createProducer id texture tile border preallocates) := by
  obtain ⟨reference, warranted⟩ := fresh
  have safe := warranted.assured.createProducer attended new texture tile border preallocates
  refine ⟨_, warranted.instead safe rfl rfl fun proxy tier cache set source _ _ =>
    ⟨not_false, ?_⟩⟩
  refine Or.imp_right fun ⟨parts, holds, described⟩ => ⟨parts, holds, described.imp ?_⟩
  intro stack part same apart
  -- Whatever answers for a texture has been there before.
  have unanswering (read : TextureId) : world.streaming.byTexture.get? read ≠ some id := by
    intro answers
    obtain ⟨producer, live, _⟩ := attended.offered read id answers
    exact new (attended.produced id (live ▸ rfl))
  have unread : texture ∉ texturesOf set source stack := fun member => apart texture member inside
  rw [← same apart, describeStack_congr (warranted.assured.alike _)]
  exact describeStack_congr (.created unread unanswering tile border preallocates)

/-- A producer that goes away changes nothing for the caches that have not read it. -/
theorem destroyed {producer : StreamingProducer}
    (warranted : AllWarranted (Reflects reference supplied old) (Furnished reference) world)
    (attended : Attended produced (fun _ _ => False) world)
    (found : world.streaming.producers.get? id = some producer) :
    WarrantedBut (Reflects (world.streaming.destroyProducer id).2 supplied old)
      (Furnished (world.streaming.destroyProducer id).2)
      (fun proxy _ => proxy ∈ producer.subscribers)
      { world with streaming := (world.streaming.destroyProducer id).2 } := by
  have safe := warranted.assured.destroyed attended found
  refine warranted.instead safe rfl rfl fun proxy tier cache set source there untold =>
    ⟨not_false, Or.imp_right fun ⟨parts, holds, described⟩ => ⟨parts, holds, ?_⟩⟩
  refine List.forall₂_iff_zip.mpr ⟨described.length_eq, fun {stack part} paired apart => ?_⟩
  have unread : id ∉ part.producers := by
    intro reads
    have inside : id ∈ cache.producers := by
      rw [holds.producers]
      exact List.mem_flatMap.mpr ⟨part, (List.of_mem_zip paired).2, reads⟩
    obtain ⟨_, same, told⟩ :=
      (attended.told proxy id ⟨tier, cache, there, inside⟩).resolve_right not_false
    rw [found] at same
    cases same
    exact untold told
  have before := List.forall₂_zip described paired apart
  rw [describeStack_congr (warranted.assured.alike _)] at before
  rw [← before]
  exact describeStack_congr (.destroyed found fun texture member answers =>
    unread (UniformCache.mem_producers_of_describeStack before member answers))

theorem destroyProducer (fresh : Fresh supplied old world)
    (attended : Attended produced (fun _ _ => False) world)
    (ran : world.destroyProducer id = .ok next) : Fresh supplied old next := by
  unfold World.destroyProducer at ran
  cases found : world.streaming.producers.get? id with
  | none =>
    rw [Streaming.destroyProducer_absent found] at ran
    cases ran
    exact fresh
  | some producer =>
    obtain ⟨reference, warranted⟩ := fresh
    have started := destroyed warranted attended found
    rw [Streaming.destroyProducer_eq found] at ran started
    refine ⟨_, (started.invalidateAll reflecting ran).all fun proxy _ left => left.2 ?_⟩
    exact List.mem_mergeSort.mpr left.1

/-- Every operation leaves valid caches fresh, if no producer comes but for the textures
supplied. -/
theorem carryOut (fresh : Fresh supplied old world)
    (attended : Attended produced (fun _ _ => False) world)
    (sound : Sound (Operation.createdBy past) (Operation.registeredBy past) world)
    (may : operation.MayFollow past) (new : ∀ id ∈ operation.produces?, id ∉ produced)
    (inside : ∀ texture ∈ operation.supplies?, texture ∈ supplied)
    (ran : operation.carryOut world = .ok next) : Fresh supplied old next := by
  have counted : Fresh supplied old
      (world.count fun stats => { stats with commands := stats.commands + 1 }) := by
    obtain ⟨reference, warranted⟩ := fresh
    exact ⟨reference, warranted.congr (warranted.assured.congr rfl rfl) rfl rfl⟩
  have steady : Attended produced (fun _ _ => False)
      (world.count fun stats => { stats with commands := stats.commands + 1 }) :=
    attended.congr rfl rfl
  rcases operation.producer_cases with apart | ⟨id, texture, tile, border, preallocates, rfl⟩ |
    ⟨id, rfl⟩
  · obtain ⟨reference, warranted⟩ := fresh
    exact ⟨reference, warranted.carryOut reflecting sound may apart ran⟩
  · cases ran
    exact counted.createProducer steady (new id rfl) (inside texture rfl) tile border preallocates
  · exact counted.destroyProducer steady ran

end Fresh

end World

/-! ### Whole runs -/

namespace Run

open World

variable {deferring : Bool} {activeTiers : List Tier} {past earlier later : List Operation}
  {middle world : World} {supplied : List TextureId} {old : ProxyId → Tier → Option UniformCache}

theorem fresh_step {operation : Operation} {next : World}
    (run : Run deferring activeTiers past world) (fresh : Fresh supplied old world)
    (once : (Operation.producedBy (past ++ [operation])).Nodup) (may : operation.MayFollow past)
    (inside : ∀ texture ∈ operation.supplies?, texture ∈ supplied)
    (ran : operation.carryOut world = .ok next) : Fresh supplied old next := by
  obtain ⟨before, new⟩ := producer_new once
  exact fresh.carryOut (run.attended before) run.sound may new inside ran

/-- What is fresh in the middle of a run is fresh at its end, if no producer has come in between
but for the textures supplied. -/
theorem fresh_later (before : Run deferring activeTiers earlier middle)
    (fresh : Fresh supplied old middle) (order : Operation.InOrder earlier later)
    (ran : Operation.carryOutAll middle later = .ok world)
    (once : (Operation.producedBy (earlier ++ later)).Nodup)
    (inside : ∀ texture ∈ Operation.suppliedBy later, texture ∈ supplied) :
    Fresh supplied old world := by
  induction later generalizing earlier middle with
  | nil =>
    cases ran
    exact fresh
  | cons operation later inductionHypothesis =>
    obtain ⟨next, carried, ran⟩ := bind_eq_ok.mp ran
    rw [List.append_cons] at once
    have here : (Operation.producedBy (earlier ++ [operation])).Nodup := by
      unfold Operation.producedBy at once ⊢
      rw [List.flatMap_append] at once
      exact (List.nodup_append.mp once).1
    unfold Operation.suppliedBy at inside
    rw [List.flatMap_cons] at inside
    refine inductionHypothesis (before.step order.1 carried) (before.fresh_step fresh here order.1
      (fun texture supplies => ?_) carried) order.2 ran once fun texture member =>
        inside texture (List.mem_append_right _ member)
    exact inside texture (List.mem_append_left _ (Option.mem_toList.mpr supplies))

/-- Take a valid cache and some earlier moment at which it was not yet as it is now. If no producer
has come since then for any of the textures that a stack of its map reads, then this stack can be
composed now as well, and its block in the buffer holds, but for the word that numbers the
allocation, what it is composed of now: the words of the producers that answer for its textures. So
it agrees with what any rebuilding of the cache would write; and if that is so for all stacks, then
the cache can be rebuilt. -/
theorem untouched_stacks_current (before : Run deferring activeTiers earlier middle)
    (order : Operation.InOrder earlier later)
    (ran : Operation.carryOutAll middle later = .ok world)
    (once : (Operation.producedBy (earlier ++ later)).Nodup) {proxy : ProxyId} {tier : Tier}
    {cache : UniformCache} (found : world.cacheOf proxy tier = some cache) (valid : cache.valid)
    (built : middle.cacheOf proxy tier ≠ some cache) :
    ∃ resource shared set buffer, cache.resource = some resource ∧ cache.map = some shared.id ∧
      world.mapOf resource = some shared ∧ shared.map.expressions? = some set ∧
      cache.buffer = some buffer ∧
      (∀ index stack, set.streamingStacks[index]? = some stack →
        (∀ texture ∈ texturesOf set (world.proxies.parameters proxy) stack,
          texture ∉ Operation.suppliedBy later) →
        ∃ part, describeStack set (world.proxies.parameters proxy) world.streaming stack = .ok part ∧
          set.stackBytes buffer.content index = part.words.flatMap ExpressionSet.wordBytes ∧
          ∀ rebuilt, cache.rebuild proxy resource shared (world.proxies.parameters proxy)
              world.streaming world.nextBuffer = .ok rebuilt →
            ∃ other, rebuilt.cache.buffer = some other ∧
              set.stackBytes other.content index = set.stackBytes buffer.content index) ∧
      ((∀ stack ∈ set.streamingStacks,
        ∀ texture ∈ texturesOf set (world.proxies.parameters proxy) stack,
          texture ∉ Operation.suppliedBy later) →
        ∃ rebuilt, cache.rebuild proxy resource shared (world.proxies.parameters proxy)
          world.streaming world.nextBuffer = .ok rebuilt) := by
  have run := before.continued order ran
  have start : Fresh (Operation.suppliedBy later) middle.cacheOf middle := by
    refine ⟨_, before.furnished ?_, fun proxy tier cache there _ _ _ _ _ _ => .inl there⟩
    unfold Operation.producedBy at once ⊢
    rw [List.flatMap_append] at once
    exact (List.nodup_append.mp once).1
  obtain ⟨reference, warranted⟩ := before.fresh_later start order ran once fun _ => id
  have furnished := warranted.assured
  obtain ⟨resource, shared, set, _, held, serves, expressions⟩ := run.serves_set found valid
  obtain ⟨parts, holds, described⟩ :=
    (warranted.kept proxy tier cache found valid id resource shared serves.resource_eq held
      ).resolve_left built
  rw [expressions, Option.getD_some] at holds described
  obtain ⟨buffer, has, bytes⟩ := holds.bytes
  -- The part of a stack is what the stack would be composed of now.
  have current {index : Nat} {stack : StreamingStack}
      (there : set.streamingStacks[index]? = some stack)
      (untouched : ∀ texture ∈ texturesOf set (world.proxies.parameters proxy) stack,
        texture ∉ Operation.suppliedBy later) :
      ∃ part, parts[index]? = some part ∧ describeStack set (world.proxies.parameters proxy)
        world.streaming stack = .ok part := by
    obtain ⟨within, _⟩ := List.getElem?_eq_some_iff.mp there
    have inside := List.getElem?_eq_getElem (described.length_eq ▸ within)
    refine ⟨_, inside, ?_⟩
    rw [← describeStack_congr (furnished.alike _)]
    exact List.forall₂_zip described
      (List.mem_of_getElem? (List.getElem?_zip_eq_some.mpr ⟨there, inside⟩)) untouched
  have mine := furnished.apart proxy tier
  rw [owned_cache found] at mine
  refine ⟨resource, shared, set, buffer, serves.resource_eq, serves.map_eq, held, expressions, has,
    fun index stack there untouched => ?_, fun untouched => ?_⟩
  · obtain ⟨part, inside, composed⟩ := current there untouched
    refine ⟨part, composed, bytes index part inside, fun rebuilt again => ?_⟩
    obtain ⟨_, others, afresh, holds⟩ := UniformCache.rebuild_parts furnished.equipped mine again
    rw [expressions, Option.getD_some] at afresh holds
    obtain ⟨other, stored, written⟩ := holds.bytes
    obtain ⟨within, _⟩ := List.getElem?_eq_some_iff.mp there
    have beside := List.getElem?_eq_getElem (afresh.length_eq ▸ within)
    have same := composed.symm.trans (List.forall₂_zip afresh
      (List.mem_of_getElem? (List.getElem?_zip_eq_some.mpr ⟨there, beside⟩)))
    refine ⟨other, stored, ?_⟩
    rw [written index _ beside, bytes index part inside, Except.ok.inj same]
  · refine UniformCache.exists_rebuild furnished.equipped mine (fun stored there => ?_) ?_
      (expressions ▸ holds.inside)
    · obtain ⟨fitting, same, _, sized⟩ := serves.buffer_fits
      rw [there] at same
      cases same
      exact sized
    · rw [expressions, Option.getD_some]
      intro stack member
      obtain ⟨index, there⟩ := List.mem_iff_getElem?.mp member
      obtain ⟨part, _, composed⟩ := current there (untouched stack member)
      exact ⟨part, composed⟩

/-- The producer is there before the cache is built, so both stacks are composed of it. -/
theorem layeredFrame_current : ∃ (world : World) (cache : UniformCache) (set : ExpressionSet)
    (buffer : UniformBuffer), Run true [.desktop] layeredFrame world ∧
    world.cacheOf .first .desktop = some cache ∧ cache.valid = true ∧
    cache.buffer = some buffer ∧
    ∀ index < 2, set.stackBytes buffer.content index =
      [128, 4, 1, 7, 0xFFFFFFFF, 0xFFFFFFFF, 0xFFFFFFFF].flatMap ExpressionSet.wordBytes := by
  have built : (Operation.carryOutAll {} (layeredFrame.take 1) >>= fun middle =>
      (Operation.carryOutAll middle (layeredFrame.drop 1)).map fun world =>
        (middle.cacheOf .first .desktop, (world.cacheOf .first .desktop).map fun cache =>
          (cache.valid, cache.resource), world.mapOf .first,
          (layered.map.expressions?.getD .empty).streamingStacks.map (describeStack
            (layered.map.expressions?.getD .empty) (world.proxies.parameters .first)
            world.streaming))) =
      .ok (none, some (true, some .first), some layered, List.replicate 2
        (.ok ⟨[.first], [128, 4, 1, 7, 0xFFFFFFFF, 0xFFFFFFFF, 0xFFFFFFFF]⟩)) := by
    cbv
  obtain ⟨middle, started, built⟩ := bind_eq_ok.mp built
  obtain ⟨world, ran, built⟩ := map_eq_ok.mp built
  simp only [Prod.mk.injEq] at built
  obtain ⟨nothing, made, held, described⟩ := built
  obtain ⟨cache, found, same⟩ := Option.map_eq_some_iff.mp made
  obtain ⟨valid, source⟩ := Prod.mk.inj same
  have before : Run true [.desktop] (layeredFrame.take 1) middle :=
    Run.start.continued (by decide) started
  have order : Operation.InOrder (layeredFrame.take 1) (layeredFrame.drop 1) := by decide
  obtain ⟨resource, shared, set, buffer, same, _, drawn, expressions, has, blocks, _⟩ :=
    before.untouched_stacks_current order ran (by decide) found valid
      (by rw [nothing]; exact Option.some_ne_none cache ∘ Eq.symm)
  rw [source] at same
  cases same
  rw [held] at drawn
  cases drawn
  rw [expressions, Option.getD_some] at described
  refine ⟨world, cache, set, buffer, before.continued order ran, found, valid, has,
    fun index small => ?_⟩
  have part := congrArg (·[index]?) described
  rw [List.getElem?_map, List.getElem?_replicate, if_pos small] at part
  obtain ⟨stack, there, part⟩ := Option.map_eq_some_iff.mp part
  obtain ⟨composed, same, bytes, _⟩ := blocks index stack there fun _ _ => List.not_mem_nil
  rw [bytes, Except.ok.inj (same.symm.trans part)]

/-- A proxy is drawn with a streaming texture before there is a producer for it. -/
def lateProducer : List Operation :=
  layeredFrame.tail ++ layeredFrame.take 1 ++ [.updateDeferred]

/-- The frame after the producer has come leaves the cache as it was: it is valid, and its first
stack, which has been composed without a producer, is not what rebuilding would write now. -/
theorem lateProducer_unread : ∃ (world : World) (cache : UniformCache) (shared : SharedMap)
    (set : ExpressionSet) (buffer : UniformBuffer) (rebuilt : UniformCache.Rebuilt)
    (other : UniformBuffer), Run true [.desktop] lateProducer world ∧
    (Operation.producedBy lateProducer).Nodup ∧
    lateProducer.getLast? = some .updateDeferred ∧
    world.cacheOf .first .desktop = some cache ∧ cache.valid = true ∧
    cache.resource = some .first ∧ world.mapOf .first = some shared ∧
    shared.map.expressions? = some set ∧ cache.buffer = some buffer ∧
    cache.rebuild .first .first shared (world.proxies.parameters .first) world.streaming
      world.nextBuffer = .ok rebuilt ∧
    rebuilt.cache.buffer = some other ∧
    set.stackBytes buffer.content 0 ≠ set.stackBytes other.content 0 := by
  have built : (Operation.carryOutAll {} lateProducer).map (fun world =>
      (world.cacheOf .first .desktop).bind fun cache =>
        cache.buffer.map fun buffer => (cache.valid, cache.resource, world.mapOf .first,
          (layered.map.expressions?.getD .empty).stackBytes buffer.content 0,
          (cache.rebuild .first .first layered (world.proxies.parameters .first) world.streaming
            world.nextBuffer).toOption.bind fun rebuilt => rebuilt.cache.buffer.map fun other =>
              (layered.map.expressions?.getD .empty).stackBytes other.content 0)) =
      .ok (some (true, some .first, some layered,
        [0, 0, 1, 0xFFFFFFFF, 0xFFFFFFFF, 0xFFFFFFFF, 0xFFFFFFFF].flatMap ExpressionSet.wordBytes,
        some ([128, 4, 1, 7, 0xFFFFFFFF, 0xFFFFFFFF, 0xFFFFFFFF].flatMap
          ExpressionSet.wordBytes))) := by
    cbv
  obtain ⟨world, ran, built⟩ := map_eq_ok.mp built
  obtain ⟨cache, found, built⟩ := Option.bind_eq_some_iff.mp built
  obtain ⟨buffer, has, built⟩ := Option.map_eq_some_iff.mp built
  simp only [Prod.mk.injEq] at built
  obtain ⟨valid, source, held, first, again⟩ := built
  obtain ⟨rebuilt, rebuilds, again⟩ := Option.bind_eq_some_iff.mp again
  obtain ⟨other, stored, second⟩ := Option.map_eq_some_iff.mp again
  have run : Run true [.desktop] lateProducer world := Run.start.continued (by decide) ran
  refine ⟨world, cache, layered, layered.map.expressions?.getD .empty, buffer, rebuilt, other, run,
    by decide, rfl, found, valid, source, held, rfl, has, toOption_eq_some.mp rebuilds, stored, ?_⟩
  rw [first, second]
  decide

end Run

end Shading
