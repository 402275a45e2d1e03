/-
Runs keep caches filled with current parameters. Holding what would be written
now is a promise that rebuilding makes and that every command keeps, so after
every operation of a run the buffer of a valid cache holds what would be written
into it now.
-/

import Mathlib
import Shading.Proofs.Render.Warranty

namespace Shading

/-- The promise that a buffer holds what the source answers. -/
def Fills : Promise := fun _ _ set source cache =>
  ∃ buffer, cache.buffer = some buffer ∧ set.sectionsOf buffer.content = set.written source

namespace World

variable {world next : World}

/-- Nothing needs to be assured for what rebuilding writes. -/
theorem filling : Warranty Fills fun _ => True where
  lasting := ⟨⟨fun _ _ _ _ _ _ _ _ _ _ => trivial⟩, fun _ _ _ => trivial⟩
  rebuilt := fun _ _ _ ran => UniformCache.rebuild_written ran
  congr := fun _ _ _ => trivial
  dropCaches := fun _ _ _ => trivial
  dropCache := fun _ _ _ _ => trivial
  attach := fun _ _ _ => trivial
  without := fun _ _ => trivial

/-- Every valid cache holds what its proxy answers. -/
abbrev AllFilled (world : World) : Prop := AllWarranted Fills (fun _ => True) world

namespace AllFilled

theorem createProducer (filled : world.AllFilled) (producer : ProducerId) (texture : TextureId)
    (tile border : UInt32) (preallocates : Bool) :
    (world.createProducer producer texture tile border preallocates).AllFilled :=
  filled.congr trivial rfl rfl

theorem destroyProducer {producer : ProducerId} (filled : world.AllFilled)
    (ran : world.destroyProducer producer = .ok next) : next.AllFilled := by
  have left : { world with streaming := (world.streaming.destroyProducer producer).2 }.AllFilled :=
    filled.congr trivial rfl rfl
  exact (left.invalidateAll filling ran).all fun _ _ stale => stale.1

theorem carryOut {operation : Operation} {past : List Operation} (filled : world.AllFilled)
    (sound : Sound (Operation.createdBy past) (Operation.registeredBy past) world)
    (may : operation.MayFollow past) (ran : operation.carryOut world = .ok next) :
    next.AllFilled := by
  have counted : (world.count fun stats =>
      { stats with commands := stats.commands + 1 }).AllFilled := filled.congr trivial rfl rfl
  rcases operation.producer_cases with apart | ⟨id, texture, tile, border, preallocates, rfl⟩ |
    ⟨id, rfl⟩
  · exact WarrantedBut.carryOut filled filling sound may apart ran
  · cases ran
    exact counted.createProducer ..
  · exact counted.destroyProducer ran

end AllFilled

end World

/-! ### Whole runs -/

namespace Run

variable {deferring : Bool} {activeTiers : List Tier} {past : List Operation} {world : World}

theorem allFilled (run : Run deferring activeTiers past world) : world.AllFilled := by
  induction run with
  | start => exact ⟨trivial, fun _ _ _ found => nomatch found⟩
  | step run may ran inductionHypothesis => exact inductionHypothesis.carryOut run.sound may ran

/-- The buffer of a valid cache holds, byte for byte, the vectors, scalars and textures that
would be written now for the expressions of its map and the parameters of its proxy, whatever
the streaming stacks are and whatever buffer they would be written into. -/
theorem valid_cache_filled (run : Run deferring activeTiers past world) {proxy : ProxyId}
    {tier : Tier} {cache : UniformCache} (found : world.cacheOf proxy tier = some cache)
    (valid : cache.valid) :
    ∃ resource shared set buffer, cache.resource = some resource ∧ cache.map = some shared.id ∧
      world.mapOf resource = some shared ∧ shared.map.expressions? = some set ∧
      cache.buffer = some buffer ∧
      ∀ blocks blank, blocks.length = set.streamingStacks.length →
        (∀ block ∈ blocks, block.length = 8) → blank.length = set.layout.size →
        ∃ content, set.fill (world.proxies.parameters proxy) blocks blank = .ok content ∧
          set.sectionsOf buffer.content = set.sectionsOf content := by
  obtain ⟨resource, shared, _, held, serves⟩ := run.serves found valid
  have compiled := run.sound.arranged.compiled resource shared held
  obtain ⟨content, stored⟩ := Option.isSome_iff_exists.mp compiled
  have expressions : shared.map.expressions? = some content.profile.expressions := by
    simp [ShaderMap.expressions?, stored]
  obtain ⟨buffer, has, sections⟩ :=
    run.allFilled.kept proxy tier cache found valid id resource shared serves.resource_eq held
  rw [expressions, Option.getD_some] at sections
  refine ⟨resource, shared, _, buffer, serves.resource_eq, serves.map_eq, held, expressions, has,
    fun blocks blank matched words sized => ?_⟩
  obtain ⟨bytes, filled⟩ := ExpressionSet.exists_fill content.profile.expressions
    (world.proxies.parameters proxy) sized matched
  exact ⟨bytes, filled, sections.trans (ExpressionSet.sectionsOf_fill words filled).symm⟩

/-- A proxy is drawn with the map of another one, and then the parameter of that other one is
set. -/
def retinted : List Operation :=
  firstFrame ++ [
    .perform (.createProxy Identifier.first.next (.derived .first (.fill none))),
    .updateDeferred,
    .perform (.setParameter .first "Tint" (.vector (.splat .zero))),
    .updateDeferred]

/-- The derived proxy was filled anew: its valid cache holds the zeros that were set on the proxy
it is derived from, and not the ones that were in the buffer before. -/
theorem retinted_filled : ∃ world cache buffer set content,
    Run true [.desktop] retinted world ∧
    world.cacheOf Identifier.first.next .desktop = some cache ∧ cache.valid = true ∧
    cache.buffer = some buffer ∧ buffer.content = List.replicate 16 0 ∧ buffer.version = 2 ∧
    ExpressionSet.fill set (world.proxies.parameters Identifier.first.next) []
      (List.replicate 16 255) = .ok content ∧
    set.sectionsOf buffer.content = set.sectionsOf content := by
  have built : (Operation.carryOutAll {} retinted).map (fun world =>
      (world.cacheOf Identifier.first.next .desktop).map fun cache =>
        (cache.valid, cache.buffer.map fun buffer => (buffer.content, buffer.version),
          (cache.resource.bind world.mapOf).bind fun shared => shared.map.expressions?)) =
      .ok (some (true, some (List.replicate 16 0, 2),
        some { vectors := [.vectorParameter "Tint" (.splat .one)] })) := by
    cbv
  obtain ⟨world, ran, built⟩ := map_eq_ok.mp built
  obtain ⟨cache, found, built⟩ := Option.map_eq_some_iff.mp built
  have run : Run true [.desktop] retinted world :=
    Run.start.continued (by decide) ran
  simp only [Prod.mk.injEq] at built
  obtain ⟨valid, stored, expressions⟩ := built
  obtain ⟨resource, shared, set, buffer, source, _, held, same, has, filled⟩ :=
    run.valid_cache_filled found valid
  rw [source, Option.bind_some, held, Option.bind_some, same] at expressions
  cases expressions
  rw [has, Option.map_some, Option.some.injEq, Prod.mk.injEq] at stored
  obtain ⟨content, fills, sections⟩ := filled [] (List.replicate 16 255) rfl (by simp) (by decide)
  exact ⟨world, cache, buffer, _, content, run, found, valid, has, stored.1, stored.2, fills,
    sections⟩

end Run

end Shading
