/-
What can go wrong while caches are kept up. The layers of a stack may be any
positions and the stack may be adopted by any of them: whatever answers for a
texture is there, and if all producers have one tile size and border then the
layers agree. A cache never has a buffer of another length than its layout says.
So there are two things left, the number of layers of a stack that is to be
allocated and a buffer that is too large for words. Nothing in an archive limits
them when the archive is read.
-/

import Mathlib
import Shading.Proofs.Map.Archiving
import Shading.Proofs.Map.Genuine
import Shading.Proofs.Render.Furnishing

namespace Shading

namespace StreamingStack

/-- No allocation has to be made for the stack, or there is one that is large enough. -/
def Fits (stack : StreamingStack) : Prop :=
  stack.preallocated = none → stack.layers.length ≤ Streaming.maxLayers

instance : DecidablePred Fits := fun _ => inferInstanceAs (Decidable (_ → _))

end StreamingStack

namespace ShaderMap

/-- The streaming stacks that a cache of the map is built with. -/
def streamingStacks (map : ShaderMap) : List StreamingStack :=
  (map.expressions?.getD .empty).streamingStacks

/-- Caches can be built for the map: its stacks fit, and its buffer is not too large for words. -/
structure Buildable (map : ShaderMap) : Prop where
  allFit : ∀ stack ∈ map.streamingStacks, stack.Fits
  bufferFits : (map.expressions?.getD .empty).layout.size < UInt32.size

instance : DecidablePred Buildable := fun map =>
  decidable_of_iff ((∀ stack ∈ map.streamingStacks, stack.Fits) ∧
      (map.expressions?.getD .empty).layout.size < UInt32.size)
    ⟨fun both => ⟨both.1, both.2⟩, fun buildable => ⟨buildable.allFit, buildable.bufferFits⟩⟩

/-- The fault says of a stack of the map that it is too long, or that what is written into the
buffer of the map ends behind it. -/
def Overloads (map : ShaderMap) (fault : Fault) : Prop :=
  (∃ stack ∈ map.streamingStacks, ¬ stack.Fits ∧ fault = .stackTooLong stack.layers.length) ∨
    ∃ stop, (map.expressions?.getD .empty).overrun = some stop ∧
      fault = .writeRange stop (map.expressions?.getD .empty).wordLayout.size

theorem Overloads.not_buildable {map : ShaderMap} {fault : Fault}
    (overloads : map.Overloads fault) : ¬ map.Buildable := by
  intro buildable
  rcases overloads with ⟨stack, member, long, _⟩ | ⟨stop, outside, _⟩
  · exact long (buildable.allFit stack member)
  · cases outside.symm.trans ((ExpressionSet.overrun_eq_none _).mpr buildable.bufferFits)

end ShaderMap

/-! ### Layers -/

namespace Streaming

variable {streaming next : Streaming}

/-- All producers have one tile size and border. -/
def Uniform (streaming : Streaming) : Prop :=
  ∃ tile border, ∀ id producer, streaming.producers.get? id = some producer →
    producer.tile = tile ∧ producer.border = border

/-- Whatever answers for a texture is there. -/
def Answered (streaming : Streaming) : Prop :=
  ∀ texture id, streaming.producerFor texture = some id → (streaming.bare id).isSome

theorem Uniform.congr (uniform : streaming.Uniform) (bare : next.bare = streaming.bare) :
    next.Uniform := by
  obtain ⟨tile, border, same⟩ := uniform
  refine ⟨tile, border, fun id producer found => ?_⟩
  have there : next.bare id = some { producer with subscribers := [] } := by
    unfold Streaming.bare
    rw [found]
    rfl
  rw [bare] at there
  obtain ⟨other, before, alike⟩ := Option.map_eq_some_iff.mp there
  obtain ⟨_, sameTile, sameBorder, _⟩ := StreamingProducer.mk.inj alike
  rw [← sameTile, ← sameBorder]
  exact same id other before

/-- Layers agree if their producers are there and all of one size. -/
theorem exists_agree (uniform : streaming.Uniform) (layers : List (Option ProducerId))
    (live : ∀ id, some id ∈ layers → (streaming.bare id).isSome) :
    ∃ agreed, streaming.agree 0 none layers = .ok agreed := by
  obtain ⟨tile, border, same⟩ := uniform
  -- Whatever has been agreed on before is the size of all producers.
  have agrees (index : Nat) (agreed : Agreed)
      (before : ∀ first, first ∈ agreed → first.2 = (tile, border)) :
      ∃ agreed', streaming.agree index agreed layers = .ok agreed' := by
    induction layers generalizing index agreed with
    | nil => exact ⟨agreed, rfl⟩
    | cons layer rest inductionHypothesis =>
      have later := inductionHypothesis fun id member => live id (List.mem_cons_of_mem _ member)
      cases layer with
      | none => exact later _ _ before
      | some id =>
        obtain ⟨_, there⟩ := Option.isSome_iff_exists.mp (live id List.mem_cons_self)
        obtain ⟨producer, found, _⟩ := Option.map_eq_some_iff.mp there
        obtain ⟨itsTile, itsBorder⟩ := same id producer found
        unfold agree
        rw [found]
        dsimp only
        cases agreed with
        | none =>
          refine later _ _ fun first member => ?_
          cases member
          rw [itsTile, itsBorder]
        | some first =>
          obtain ⟨position, firstTile, firstBorder⟩ := first
          cases before _ rfl
          dsimp only
          rw [if_pos ⟨itsTile, itsBorder⟩]
          exact later _ _ before
  exact agrees 0 none fun first member => absurd member (Option.not_mem_none first)

end Streaming

/-! ### Rebuilding -/

namespace UniformCache

variable {set : ExpressionSet} {source : ParameterSource} {streaming : Streaming}
  {stack : StreamingStack} {cache : UniformCache} {fault : Fault}

theorem describeStack_long (long : ¬ stack.Fits) :
    describeStack set source streaming stack = .error (.stackTooLong stack.layers.length) := by
  obtain ⟨allocates, more⟩ := Classical.not_imp.mp long
  have length : (layersOf set source streaming stack).length = stack.layers.length := by
    unfold layersOf StreamingStack.expressions
    rw [allocates]
    exact List.length_map _
  unfold describeStack
  rw [allocates]
  dsimp only
  rw [if_pos (length.symm ▸ Nat.lt_of_not_le more), length]

theorem exists_describeStack (uniform : streaming.Uniform) (answered : streaming.Answered)
    (fits : stack.Fits) : ∃ part, describeStack set source streaming stack = .ok part := by
  unfold describeStack
  dsimp only
  split
  · exact ⟨_, rfl⟩
  · rename_i allocates
    have length : (layersOf set source streaming stack).length = stack.layers.length := by
      unfold layersOf StreamingStack.expressions
      rw [allocates]
      exact List.length_map _
    rw [if_neg (length.symm ▸ Nat.not_lt_of_le (fits allocates))]
    obtain ⟨agreed, agrees⟩ := Streaming.exists_agree uniform _ fun id member => by
      obtain ⟨texture, _, answers⟩ := exists_texture member
      exact answered texture id answers
    rw [agrees]
    exact ⟨_, rfl⟩

/-- Only a stack that is too long cannot be composed. -/
theorem Follows.overlong {composition : Composition} (follows : Follows streaming composition)
    (uniform : streaming.Uniform) (answered : streaming.Answered)
    (ran : UniformCache.composeStack set source composition stack = .error fault) :
    ¬ stack.Fits ∧ fault = .stackTooLong stack.layers.length := by
  have long : ¬ stack.Fits := by
    intro fits
    obtain ⟨part, described⟩ := exists_describeStack uniform answered fits
    obtain ⟨next, composed⟩ := follows.exists_composeStack described
    cases ran.symm.trans composed
  refine ⟨long, ?_⟩
  obtain ⟨allocates, more⟩ := Classical.not_imp.mp long
  unfold UniformCache.composeStack compose at ran
  rw [allocates] at ran
  dsimp only at ran
  rw [Streaming.allocate_eq, if_pos (by rw [List.length_map]; exact Nat.lt_of_not_le more)] at ran
  cases ran
  rw [List.length_map]

variable {proxy : ProxyId} {resource : ResourceId} {shared : SharedMap} {nextBuffer : BufferId}

/-- Whatever goes wrong while a cache is rebuilt goes wrong for one of the stacks, or else when the
buffer is filled that is too large for words. -/
theorem cause_of_rebuild_error (equipped : streaming.Equipped)
    (apart : Apart cache.allocations streaming)
    (sized : ∀ buffer, cache.buffer = some buffer → buffer.content.length = buffer.layout.size)
    (ran : cache.rebuild proxy resource shared source streaming nextBuffer = .error fault) :
    (∃ stack ∈ shared.map.streamingStacks, ∃ composition, Follows streaming composition ∧
      UniformCache.composeStack (shared.map.expressions?.getD .empty) source composition stack =
        .error fault) ∨
    ∃ stop, (shared.map.expressions?.getD .empty).overrun = some stop ∧
      fault = .writeRange stop (shared.map.expressions?.getD .empty).wordLayout.size := by
  have follows := follows_begin equipped apart
  rcases bind_eq_error.mp ran with failed | ⟨composition, composed, rest⟩
  · exact .inl (foldlM_error
      (fun _ _ _ follows stepped => (Follows.composeStack follows stepped).1) _ _ follows failed)
  · cases outside : (shared.map.expressions?.getD .empty).overrun with
    | some stop =>
      rcases bind_eq_error.mp rest with failed | ⟨_, _, ends⟩
      · unfold ExpressionSet.fillInWords at failed
        rw [outside] at failed
        cases failed
        exact .inr ⟨stop, rfl, rfl⟩
      · cases ends
    | none =>
      -- All stacks have been composed, so nothing is left that could go wrong.
      obtain ⟨_, parts, _, described, _⟩ := follows.composed composed
      have ends : ∃ rebuilt, cache.rebuild proxy resource shared source streaming nextBuffer =
          .ok rebuilt := by
        refine exists_rebuild equipped apart sized (fun stack member => ?_)
          ((ExpressionSet.overrun_eq_none _).mp outside)
        obtain ⟨index, within, rfl⟩ := List.getElem_of_mem member
        exact ⟨_, described.get within (described.length_eq ▸ within)⟩
      obtain ⟨rebuilt, ends⟩ := ends
      cases ran.symm.trans ends

/-- Where all producers are of one size, a stack is too long or the buffer is too large. -/
theorem overloads_of_rebuild (equipped : streaming.Equipped)
    (apart : Apart cache.allocations streaming)
    (sized : ∀ buffer, cache.buffer = some buffer → buffer.content.length = buffer.layout.size)
    (uniform : streaming.Uniform) (answered : streaming.Answered)
    (ran : cache.rebuild proxy resource shared source streaming nextBuffer = .error fault) :
    shared.map.Overloads fault := by
  exact (cause_of_rebuild_error equipped apart sized ran).imp_left
    fun ⟨stack, member, _, follows, failed⟩ =>
      ⟨stack, member, follows.overlong uniform answered failed⟩

/-- A cache that could be rebuilt was rebuilt from a map for which that is possible. -/
theorem buildable_of_rebuild {rebuilt : Rebuilt} (equipped : streaming.Equipped)
    (apart : Apart cache.allocations streaming)
    (ran : cache.rebuild proxy resource shared source streaming nextBuffer = .ok rebuilt) :
    shared.map.Buildable := by
  obtain ⟨_, parts, described, holds⟩ := rebuild_parts equipped apart ran
  refine ⟨fun stack member => ?_, holds.inside⟩
  obtain ⟨index, within, rfl⟩ := List.getElem_of_mem member
  by_contra long
  have same := described.get within (described.length_eq ▸ within)
  cases (describeStack_long long).symm.trans same

end UniformCache

/-! ### Worlds -/

namespace World

variable {before world next : World} {proxy : ProxyId} {tier : Tier} {recreate : Bool}
  {fault : Fault}

/-- The buffer of every cache, whether it is valid or not, is as long as its layout says. -/
def Sized (world : World) : Prop :=
  ∀ proxy tier cache buffer, world.cacheOf proxy tier = some cache → cache.buffer = some buffer →
    buffer.content.length = buffer.layout.size

namespace Sized

theorem congr (sized : world.Sized) (caches : next.cacheOf = world.cacheOf) : next.Sized := by
  intro proxy tier cache buffer found
  rw [caches] at found
  exact sized proxy tier cache buffer found

/-- Caches that are emptied keep their buffers or lose them. -/
theorem emptied {hit : ProxyId → Tier → Prop} [∀ proxy tier, Decidable (hit proxy tier)]
    (sized : world.Sized) (caches : ∀ proxy tier, next.cacheOf proxy tier =
      if hit proxy tier then (world.cacheOf proxy tier).map (·.invalidate recreate)
      else world.cacheOf proxy tier) : next.Sized := by
  intro proxy tier cache buffer found has
  rw [caches] at found
  split at found
  · obtain ⟨old, there, rfl⟩ := Option.map_eq_some_iff.mp found
    unfold UniformCache.invalidate at has
    dsimp only at has
    split at has
    · cases has
    · exact sized proxy tier old buffer there has
  · exact sized proxy tier cache buffer found has

theorem warranty : Warranty (fun _ _ _ _ _ => True) Sized where
  lasting := {
    deferred := fun _ _ sized => sized.congr rfl
    installed := by
      intro world proxy tier drawable owner rebuilt sized _ found ran other level cache buffer there
        has
      rw [cacheOf_install _ _ _ _ _ _ found] at there
      split at there
      · cases there
        obtain ⟨filled, stored, _, fits⟩ := UniformCache.rebuild_buffer ran
        cases stored.symm.trans has
        exact fits
      · exact sized other level cache buffer there has }
  rebuilt := fun _ _ _ _ => trivial
  congr := fun sized caches _ => sized.congr caches
  dropCaches := fun recreate sized found => sized.emptied fun other level =>
    cacheOf_dropCaches _ recreate _ _ found other level
  dropCache := fun tier recreate sized found => sized.emptied fun other level =>
    cacheOf_dropCache _ recreate _ _ tier found other level
  attach := by
    intro world proxy kind sized absent other level cache buffer there has
    rw [cacheOf_attach] at there
    split at there
    · cases there
      cases has
    · exact sized other level cache buffer there has
  without := by
    intro world proxy sized other level cache buffer there has
    rw [cacheOf_without] at there
    split at there
    · cases there
    · exact sized other level cache buffer there has

theorem destroyProducer {id : ProducerId} (sized : world.Sized)
    (ran : world.destroyProducer id = .ok next) : next.Sized := by
  have left : Sized { world with streaming := (world.streaming.destroyProducer id).2 } :=
    sized.congr rfl
  exact foldlM_kept (fun _ _ _ sized stepped => warranty.invalidate sized stepped) _ _ _ left ran

end Sized

end World

namespace Run

open World

variable {deferring : Bool} {activeTiers : List Tier} {past : List Operation} {world : World}

theorem sized (run : Run deferring activeTiers past world) : world.Sized := by
  induction run with
  | start => exact fun _ _ _ _ found => nomatch found
  | @step past world operation next run may ran sized =>
    have counted : Sized (world.count fun stats => { stats with commands := stats.commands + 1 }) :=
      sized.congr rfl
    rcases operation.producer_cases with apart | ⟨id, texture, tile, border, preallocates, rfl⟩ |
      ⟨id, rfl⟩
    · exact Sized.warranty.carryOut sized run.sound may apart ran
    · cases ran
      exact counted.congr rfl
    · exact counted.destroyProducer ran

end Run

namespace World

variable {before world next : World} {proxy : ProxyId} {tier : Tier} {recreate : Bool}
  {fault : Fault}

theorem Furnished.answered {reference : Streaming} (furnished : Furnished reference world) :
    world.streaming.Answered := by
  intro texture id answers
  obtain ⟨_, _, attended⟩ := furnished.attended
  obtain ⟨producer, live, _⟩ := attended.offered texture id answers
  rw [live]
  rfl

/-- Only a cache that cannot be rebuilt keeps a proxy from being evaluated. -/
theorem evaluate_eq_error (ran : world.evaluate proxy tier = .error fault) :
    ∃ drawable owner, world.ownDrawable proxy tier = some drawable ∧
      world.proxies.get? proxy = some owner ∧
      (owner.caches.get tier).rebuild proxy drawable.resource drawable.map
        (world.proxies.parameters proxy) world.streaming world.nextBuffer = .error fault := by
  unfold World.evaluate at ran
  split at ran
  · rename_i drawable owner draws found
    rcases bind_eq_error.mp ran with failed | ⟨_, _, ends⟩
    · exact ⟨drawable, owner, draws, found, failed⟩
    · cases ends
  · cases ran

/-- A world in which nothing but caches has changed since an earlier one, so that they can be
rebuilt like then. -/
structure Serviceable (before world : World) : Prop where
  furnished : Furnished before.streaming world
  sized : world.Sized
  rests : Rests before world
  deferring : world.deferring = before.deferring

namespace Serviceable

theorem lasting : Lasting (Serviceable before) where
  deferred := fun _ _ serviceable => ⟨serviceable.furnished.congr rfl rfl,
    serviceable.sized.congr rfl, ⟨serviceable.rests.materials, serviceable.rests.bindings⟩,
    serviceable.deferring⟩
  installed := fun world proxy tier drawable owner rebuilt serviceable draws found ran => {
    furnished := Furnished.lasting.installed world proxy tier drawable owner rebuilt
      serviceable.furnished draws found ran
    sized := Sized.warranty.lasting.installed world proxy tier drawable owner rebuilt
      serviceable.sized draws found ran
    rests := Rests.lasting.installed world proxy tier drawable owner rebuilt
      serviceable.rests draws found ran
    deferring := (install_deferring ..).trans serviceable.deferring }

theorem dropCache {owner : RenderProxy} (serviceable : Serviceable before world)
    (found : world.proxies.get? proxy = some owner) :
    Serviceable before (world.dropCache recreate proxy owner tier) where
  furnished := serviceable.furnished.dropCache tier recreate found
  sized := Sized.warranty.dropCache tier recreate serviceable.sized found
  rests := ⟨serviceable.rests.materials, serviceable.rests.bindings⟩
  deferring := serviceable.deferring

theorem invalidateTier (serviceable : Serviceable before world)
    (ran : world.invalidateTier recreate proxy tier = .ok next) : Serviceable before next :=
  lasting.invalidateTier (fun _ => serviceable) (fun _ found => serviceable.dropCache found) ran

theorem mapOf_eq (serviceable : Serviceable before world) : world.mapOf = before.mapOf := by
  unfold mapOf
  rw [serviceable.rests.materials]

/-- Whoever draws with a map for which no cache can be built cannot be evaluated. -/
theorem buildable_of_evaluate {drawable : Drawable} {built : Bool}
    (serviceable : Serviceable before world) (draws : world.ownDrawable proxy tier = some drawable)
    (ran : world.evaluate proxy tier = .ok (built, next)) : drawable.map.map.Buildable := by
  obtain ⟨owner, found⟩ : ∃ owner, world.proxies.get? proxy = some owner := by
    have resolved := (ownDrawable_eq_some draws).1
    unfold World.resolve Proxies.resolve at resolved
    split at resolved
    · cases resolved
    · split at resolved
      · cases resolved
      · rename_i owner found
        exact ⟨owner, found⟩
  unfold World.evaluate at ran
  rw [draws, found] at ran
  obtain ⟨rebuilt, rebuilds, _⟩ := bind_eq_ok.mp ran
  have mine := serviceable.furnished.apart proxy tier
  rw [owned_of_found found] at mine
  exact UniformCache.buildable_of_rebuild serviceable.furnished.equipped mine rebuilds

/-! ### What can go wrong -/

variable (uniform : before.streaming.Uniform)

include uniform

theorem overloads_of_evaluate (serviceable : Serviceable before world)
    (ran : world.evaluate proxy tier = .error fault) :
    ∃ drawable, world.ownDrawable proxy tier = some drawable ∧
      drawable.map.map.Overloads fault := by
  obtain ⟨drawable, owner, draws, found, failed⟩ := evaluate_eq_error ran
  refine ⟨drawable, draws, ?_⟩
  have mine := serviceable.furnished.apart proxy tier
  rw [owned_of_found found] at mine
  exact UniformCache.overloads_of_rebuild serviceable.furnished.equipped mine
    (fun buffer has => serviceable.sized proxy tier _ buffer (cacheOf_of_found found tier) has)
    (uniform.congr serviceable.furnished.bare) serviceable.furnished.answered failed

theorem overloads_of_invalidateTier (serviceable : Serviceable before world)
    (ran : world.invalidateTier recreate proxy tier = .error fault) :
    before.deferring = false ∧
      ∃ resource shared, before.mapOf resource = some shared ∧ shared.map.Overloads fault := by
  have rebuilding (world : World) (proxy : ProxyId) (tier : Tier) (fault : Fault)
      (serviceable : Serviceable before world) (ran : world.evaluate proxy tier = .error fault) :
      ∃ resource shared, before.mapOf resource = some shared ∧ shared.map.Overloads fault := by
    obtain ⟨drawable, draws, overloads⟩ := serviceable.overloads_of_evaluate uniform ran
    rw [← serviceable.mapOf_eq]
    exact ⟨drawable.resource, drawable.map, (ownDrawable_eq_some draws).2, overloads⟩
  rw [← serviceable.deferring]
  exact lasting.expected_of_invalidateTier rebuilding
    (fun owner found => serviceable.dropCache found) ran

theorem overloads_of_invalidateDependents {resource : ResourceId}
    (serviceable : Serviceable before world)
    (ran : world.invalidateDependents resource tier recreate = .error fault) :
    before.deferring = false ∧
      ∃ resource shared, before.mapOf resource = some shared ∧ shared.map.Overloads fault := by
  obtain ⟨⟨proxy, level⟩, _, later, serviceable, failed⟩ := foldlM_error
    (fun _ _ _ serviceable stepped => serviceable.invalidateTier stepped) _ _ serviceable ran
  exact serviceable.overloads_of_invalidateTier uniform failed

end Serviceable

/-- Neither the map that is exchanged nor the other resources have to be looked at where stale
caches wait. -/
theorem overloads_of_exchangeMap {resource : ResourceId} {material : RenderMaterial}
    {map : Option SharedMap} (serviceable : Serviceable world world)
    (uniform : world.streaming.Uniform)
    (ran : world.exchangeMap resource material map = .error fault) :
    world.deferring = false ∧ ∃ other shared,
      (if other = resource then map else world.mapOf other) = some shared ∧
        shared.map.Overloads fault := by
  have placed : Serviceable (world.placeMap resource material map)
      (world.placeMap resource material map) :=
    ⟨serviceable.furnished.congr rfl rfl, serviceable.sized.congr rfl, ⟨rfl, rfl⟩, rfl⟩
  have alike : (world.placeMap resource material map).streaming.Uniform := uniform
  obtain ⟨soon, other, shared, held, overloads⟩ :=
    placed.overloads_of_invalidateDependents alike ran
  refine ⟨soon, other, shared, ?_, overloads⟩
  change (Table.get? (world.materials.insert resource { material with map }) other).bind
    RenderMaterial.map = some shared at held
  rw [Table.get?_insert] at held
  split at held
  · rename_i here
    rw [if_pos here]
    exact held
  · rename_i different
    rw [if_neg different]
    exact held

end World

/-! ### Maps from archives -/

namespace Run

open World

variable {deferring : Bool} {activeTiers : List Tier} {past : List Operation} {world : World}

/-- Only the map that is sent or one that another resource has can keep the world from taking a
compiled map in, and only if the caches that it concerns are rebuilt at once. -/
theorem overloads_of_setMap (run : Run deferring activeTiers past world)
    (once : (Operation.producedBy past).Nodup) (uniform : world.streaming.Uniform)
    {resource : ResourceId} {shared : SharedMap} (compiled : shared.map.isCompiled) {fault : Fault}
    (ran : world.apply (.setMap resource (some shared)) = .error fault) :
    world.deferring = false ∧ (shared.map.Overloads fault ∨ ∃ other held, other ≠ resource ∧
      world.mapOf other = some held ∧ held.map.Overloads fault) := by
  change (world.count fun stats => { stats with commands := stats.commands + 1 }).setMap resource
    (some shared) = _ at ran
  unfold World.setMap at ran
  split at ran
  · cases ran
  · rename_i same
    cases same
  · rename_i material sent found same
    cases same
    rw [if_pos compiled] at ran
    have serviceable : Serviceable
        (world.count fun stats => { stats with commands := stats.commands + 1 })
        (world.count fun stats => { stats with commands := stats.commands + 1 }) :=
      ⟨(run.furnished once).congr rfl rfl, run.sized.congr rfl, ⟨rfl, rfl⟩, rfl⟩
    obtain ⟨soon, other, held, there, overloads⟩ :=
      overloads_of_exchangeMap serviceable uniform ran
    refine ⟨soon, ?_⟩
    split at there
    · cases there
      exact .inl overloads
    · rename_i different
      exact .inr ⟨other, held, different, there, overloads⟩

/-- Take a world whose producers all have one tile size and border, and any map that an archive
was read as. If stale caches wait, or if neither the map nor any other one in the world has a stack
that is too long or a buffer that is too large for words, then the world takes the map in; and
nothing else but such a stack or buffer can keep it from doing so. After that a proxy that draws
with the map can be evaluated, at whatever tier, if all stacks of the map fit, whatever textures
their layers are, and so does its buffer; and if one of them does not fit, it cannot be. -/
theorem archive_evaluated_iff (run : Run deferring activeTiers past world)
    (once : (Operation.producedBy past).Nodup) (uniform : world.streaming.Uniform)
    {bytes : List UInt8} {map : ShaderMap} (read : ShaderMap.ofArchive bytes = .ok map)
    (id : MapId) (resource : ResourceId) :
    ((world.deferring = true ∨ (map.Buildable ∧ ∀ other held, other ≠ resource →
        world.mapOf other = some held → held.map.Buildable)) →
      ∃ next, world.apply (.setMap resource (some ⟨id, map⟩)) = .ok next) ∧
    (∀ fault, world.apply (.setMap resource (some ⟨id, map⟩)) = .error fault →
      map.Overloads fault ∨ ∃ other held, other ≠ resource ∧ world.mapOf other = some held ∧
        held.map.Overloads fault) ∧
    ∀ next, world.apply (.setMap resource (some ⟨id, map⟩)) = .ok next →
      ∀ proxy tier drawable, next.ownDrawable proxy tier = some drawable →
        drawable.map = ⟨id, map⟩ →
          ((∃ built later, next.evaluate proxy tier = .ok (built, later)) ↔ map.Buildable) ∧
          ∀ fault, next.evaluate proxy tier = .error fault → map.Overloads fault := by
  have refused {fault : Fault}
      (ran : world.apply (.setMap resource (some ⟨id, map⟩)) = .error fault) :=
    run.overloads_of_setMap once uniform (ShaderMap.isCompiled_of_archive read) ran
  refine ⟨fun may => ?_, fun fault ran => (refused ran).2, fun next ran => ?_⟩
  · cases ran : world.apply (.setMap resource (some ⟨id, map⟩)) with
    | ok next => exact ⟨next, rfl⟩
    | error fault =>
      obtain ⟨soon, overloads | ⟨other, held, different, there, overloads⟩⟩ := refused ran <;>
        rcases may with late | ⟨buildable, others⟩
      · cases soon.symm.trans late
      · exact absurd buildable overloads.not_buildable
      · cases soon.symm.trans late
      · exact absurd (others other held different there) overloads.not_buildable
  · have may : (Operation.perform (.setMap resource (some ⟨id, map⟩))).MayFollow past :=
      ⟨nofun, nofun, nofun⟩
    have after : Run deferring activeTiers _ next := run.step may ran
    have furnished := (run.furnished once).carryOut run.sound may rfl ran
    have serviceable : Serviceable next next :=
      ⟨furnished.settled, after.sized, ⟨rfl, rfl⟩, rfl⟩
    intro proxy tier drawable draws same
    have failed {fault : Fault} (ran : next.evaluate proxy tier = .error fault) :
        map.Overloads fault := by
      obtain ⟨other, there, overloads⟩ :=
        serviceable.overloads_of_evaluate (uniform.congr furnished.bare) ran
      cases draws.symm.trans there
      rwa [same] at overloads
    refine ⟨⟨fun ⟨built, later, ran⟩ => ?_, fun buildable => ?_⟩, fun fault => failed⟩
    · have buildable := serviceable.buildable_of_evaluate draws ran
      rwa [same] at buildable
    · cases ran : next.evaluate proxy tier with
      | ok result => exact ⟨result.1, result.2, rfl⟩
      | error fault => exact absurd buildable (failed ran).not_buildable

/-- One stack with a number of layers, of which only the first one has a texture. -/
def towerProfile (layers : Nat) : Profile where
  expressions := {
    streamingTextures := [⟨none, ⟨7⟩, .streaming⟩]
    streamingStacks := [⟨(List.range layers).map UInt32.ofNat, none⟩] }

def tower (layers : Nat) : ShaderMap where
  identity := default
  name := "Tower"
  content := some (.ofCodes [] (towerProfile layers))

/-- There is a producer for the texture, and a proxy that draws with a resource that has no map. -/
def unmapped : List Operation :=
  [.perform (.createProducer .first ⟨7⟩ 128 4 true),
    .perform (.registerMaterial .first { name := "Tower", tier := .desktop, quality := .high }),
    .perform (.createProxy .first (.material ((PerTier.fill none).set .desktop (some .first))))]

/-- Its archive is read, however high it is. -/
theorem ofArchive_tower (layers : Nat)
    (nested : ((tower layers).encode (.ofCodes [] (towerProfile layers))).nesting ≤ 127) :
    ShaderMap.ofArchive (Utf8.encode ((tower layers).encode
      (.ofCodes [] (towerProfile layers))).render) = .ok (tower layers) :=
  (ShaderMap.ofArchive_encode rfl nested fun _ none => nomatch none).trans
    (if_pos fun _ none => nomatch none)

/-- The tower is taken in, and the proxy draws with it. -/
theorem tower_taken_in (layers : Nat) : ∃ world next,
    Operation.carryOutAll {} unmapped = .ok world ∧ Run true [.desktop] unmapped world ∧
    world.streaming.Uniform ∧
    world.apply (.setMap .first (some ⟨.first, tower layers⟩)) = .ok next ∧
    next.ownDrawable .first .desktop = some ⟨.first, ⟨.first, tower layers⟩, .first⟩ := by
  have built : (Operation.carryOutAll {} unmapped >>= fun world =>
      (world.apply (.setMap .first (some ⟨.first, tower layers⟩))).map fun next =>
        (world.streaming.producers.entries.map fun entry => (entry.2.tile, entry.2.border),
          next.ownDrawable .first .desktop)) =
      .ok ([(128, 4)], some ⟨.first, ⟨.first, tower layers⟩, .first⟩) := by
    cbv
  obtain ⟨world, ran, built⟩ := bind_eq_ok.mp built
  obtain ⟨next, sent, built⟩ := map_eq_ok.mp built
  obtain ⟨sizes, draws⟩ := Prod.mk.inj built
  refine ⟨world, next, ran, Run.start.continued (by decide) ran,
    ⟨128, 4, fun id producer found => ?_⟩, sent, draws⟩
  have member : (producer.tile, producer.border) ∈ world.streaming.producers.entries.map
      fun entry => (entry.2.tile, entry.2.border) :=
    List.mem_map.mpr ⟨(id, producer), Table.mem_entries_of_get? found, rfl⟩
  rw [sizes] at member
  exact Prod.mk.inj (List.mem_singleton.mp member)

/-- A tower of eight layers, seven of them without a texture, is read, taken in and evaluated. -/
theorem tower_evaluated : ∃ bytes world next built later,
    ShaderMap.ofArchive bytes = .ok (tower 8) ∧ Run true [.desktop] unmapped world ∧
    world.streaming.Uniform ∧
    world.apply (.setMap .first (some ⟨.first, tower 8⟩)) = .ok next ∧
    next.evaluate .first .desktop = .ok (built, later) := by
  obtain ⟨world, next, _, run, uniform, sent, draws⟩ := tower_taken_in 8
  have read := ofArchive_tower 8 (by decide +kernel)
  obtain ⟨_, _, evaluated⟩ := run.archive_evaluated_iff (by decide) uniform read .first .first
  obtain ⟨built, later, ran⟩ :=
    (evaluated next sent .first .desktop _ draws rfl).1.mpr (by decide +kernel)
  exact ⟨_, world, next, built, later, read, run, uniform, sent, ran⟩

/-- One layer more, and the archive is read and the map is taken in as well, but the proxy cannot be
evaluated. -/
theorem tower_too_high : ∃ bytes world next,
    ShaderMap.ofArchive bytes = .ok (tower 9) ∧ Run true [.desktop] unmapped world ∧
    (Operation.producedBy unmapped).Nodup ∧ world.streaming.Uniform ∧
    world.apply (.setMap .first (some ⟨.first, tower 9⟩)) = .ok next ∧
    next.ownDrawable .first .desktop = some ⟨.first, ⟨.first, tower 9⟩, .first⟩ ∧
    next.evaluate .first .desktop = .error (.stackTooLong 9) := by
  obtain ⟨world, next, ran, run, uniform, sent, draws⟩ := tower_taken_in 9
  have fails : (Operation.carryOutAll {} unmapped >>= fun world =>
      world.apply (.setMap .first (some ⟨.first, tower 9⟩)) >>= fun next =>
        (next.evaluate .first .desktop).map Prod.fst) = .error (.stackTooLong 9) := by
    cbv
  rw [ran] at fails
  change (world.apply (.setMap .first (some ⟨.first, tower 9⟩)) >>= fun next =>
    (next.evaluate .first .desktop).map Prod.fst) = _ at fails
  rw [sent] at fails
  exact ⟨_, world, next, ofArchive_tower 9 (by decide +kernel), run, by decide, uniform, sent,
    draws, map_eq_error.mp fails⟩

end Run

end Shading
