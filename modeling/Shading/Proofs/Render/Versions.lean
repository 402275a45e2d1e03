/-
Uniform buffers over time. A buffer is known by its number and its version, and
whoever has uploaded one looks at nothing else to see that it can be used again.
What happens to buffers between two looks at the world is told as a course of
touches: a cache is built for a map, emptied with or without its buffer, or its
proxy comes or goes. Whatever the course, a number stays with one cache, its
version only grows, and what has the same number and version has the same
content. A buffer is still there after the course if every touch has spared it.
-/

import Mathlib
import Shading.Proofs.Render.Runs

namespace Shading

/-- The layout that a buffer needs to be filled for a map. -/
def SharedMap.layout (shared : SharedMap) : BufferLayout :=
  (shared.map.expressions?.getD .empty).wordLayout

/-! ### Rebuilding -/

namespace UniformCache

/-- How a buffer comes from the one there was: it is the old one in its next version, or else a
new one. -/
inductive Refilled (old : Option UniformBuffer) (layout : BufferLayout) (fresh : BufferId)
    (new : UniformBuffer) : BufferId → Prop where
  | kept {buffer : UniformBuffer} : old = some buffer → buffer.layout = layout →
      new.id = buffer.id → new.layout = layout → new.version = buffer.version + 1 →
      Refilled old layout fresh new fresh
  | made : (∀ buffer, old = some buffer → buffer.layout ≠ layout) → new.id = fresh →
      new.layout = layout → Refilled old layout fresh new fresh.next

theorem refilled_bufferFor (cache : UniformCache) (layout : BufferLayout) (fresh : BufferId)
    (content : List UInt8) :
    Refilled cache.buffer layout fresh
      { (cache.bufferFor layout fresh).1 with
        content, version := (cache.bufferFor layout fresh).1.version + 1 }
      (cache.bufferFor layout fresh).2 := by
  unfold bufferFor
  split
  · rename_i buffer serves
    obtain ⟨there, fits⟩ := Option.filter_eq_some_iff.mp serves
    have fits := of_decide_eq_true fits
    exact .kept there fits rfl fits rfl
  · rename_i missing
    refine .made (fun buffer there fits => ?_) rfl rfl
    rw [there, Option.filter_some, if_pos (decide_eq_true fits)] at missing
    cases missing

theorem rebuild_refilled {cache : UniformCache} {proxy : ProxyId} {resource : ResourceId}
    {shared : SharedMap} {source : ParameterSource} {streaming : Streaming}
    {nextBuffer : BufferId} {rebuilt : Rebuilt}
    (ran : cache.rebuild proxy resource shared source streaming nextBuffer = .ok rebuilt) :
    ∃ new, rebuilt.cache.buffer = some new ∧
      Refilled cache.buffer shared.layout nextBuffer new rebuilt.nextBuffer := by
  obtain ⟨composition, _, ran⟩ := bind_eq_ok.mp ran
  obtain ⟨content, _, ran⟩ := bind_eq_ok.mp ran
  cases ran
  exact ⟨_, rfl, refilled_bufferFor cache shared.layout nextBuffer content⟩

end UniformCache

namespace World

/-- The buffer of a proxy for a tier, if there is one. -/
def bufferOf (world : World) (proxy : ProxyId) (tier : Tier) : Option UniformBuffer :=
  (world.cacheOf proxy tier).bind UniformCache.buffer

/-! ### Touches -/

/-- What can happen to the caches of a proxy. -/
inductive Touch where
  | built (proxy : ProxyId) (tier : Tier) (map : SharedMap)
  | emptied (proxy : ProxyId) (recreate : Bool)
  | emptiedFor (proxy : ProxyId) (tier : Tier) (recreate : Bool)
  | entered (proxy : ProxyId)
  | left (proxy : ProxyId)

namespace Touch

/-- The layout for which a touch builds a cache, if it does. -/
def builds? (touch : Touch) (proxy : ProxyId) (tier : Tier) : Option BufferLayout :=
  match touch with
  | .built other level map => if proxy = other ∧ tier = level then some map.layout else none
  | _ => none

theorem builds?_built (here other : ProxyId) (low level : Tier) (map : SharedMap) :
    builds? (.built here low map) other level =
      if other = here ∧ level = low then some map.layout else none := rfl

/-- Whether a touch takes the buffer from a cache, or the cache from the world. -/
def Drops (touch : Touch) (proxy : ProxyId) (tier : Tier) : Prop :=
  match touch with
  | .built _ _ _ => False
  | .emptied other recreate => recreate = true ∧ proxy = other
  | .emptiedFor other level recreate => recreate = true ∧ proxy = other ∧ tier = level
  | .entered other => proxy = other
  | .left other => proxy = other

instance (touch : Touch) (proxy : ProxyId) (tier : Tier) : Decidable (touch.Drops proxy tier) := by
  cases touch <;> unfold Drops <;> infer_instance

/-- A touch spares a buffer if it does not drop it and does not build its cache for another
layout. -/
def Spares (touch : Touch) (proxy : ProxyId) (tier : Tier) (layout : BufferLayout) : Prop :=
  ¬touch.Drops proxy tier ∧ ∀ needed, touch.builds? proxy tier = some needed → needed = layout

/-- How often a cache is built. -/
def builds (touches : List Touch) (proxy : ProxyId) (tier : Tier) : Nat :=
  touches.countP fun touch => (touch.builds? proxy tier).isSome

end Touch

/-- One touch of a world. -/
inductive Move (world : World) : Touch → World → Prop where
  | built {proxy : ProxyId} {tier : Tier} {drawable : Drawable} {owner : RenderProxy}
      {rebuilt : UniformCache.Rebuilt} : world.ownDrawable proxy tier = some drawable →
      world.proxies.get? proxy = some owner →
      (owner.caches.get tier).rebuild proxy drawable.resource drawable.map
        (world.proxies.parameters proxy) world.streaming world.nextBuffer = .ok rebuilt →
      Move world (.built proxy tier drawable.map)
        (world.install proxy tier owner drawable.resource rebuilt)
  | emptied {proxy : ProxyId} {owner : RenderProxy} (recreate : Bool) :
      world.proxies.get? proxy = some owner →
      Move world (.emptied proxy recreate) (world.dropCaches recreate proxy owner)
  | emptiedFor {proxy : ProxyId} {owner : RenderProxy} (tier : Tier) (recreate : Bool) :
      world.proxies.get? proxy = some owner →
      Move world (.emptiedFor proxy tier recreate) (world.dropCache recreate proxy owner tier)
  | entered (proxy : ProxyId) (kind : ProxyKind) :
      Move world (.entered proxy) (world.attach proxy kind)
  | left (proxy : ProxyId) : Move world (.left proxy) (world.without proxy)

/-- The touches that lead from one world to another, the first of them first. In between, what is
not about buffers may change as well. -/
inductive Course (world : World) : List Touch → World → Prop where
  | start : Course world [] world
  | still {touches : List Touch} {middle next : World} : Course world touches middle →
      next.bufferOf = middle.bufferOf → next.nextBuffer = middle.nextBuffer →
      Course world touches next
  | moved {touches : List Touch} {touch : Touch} {middle next : World} :
      Course world touches middle → Move middle touch next →
      Course world (touches ++ [touch]) next

variable {world middle next : World} {proxy other : ProxyId} {tier level : Tier} {touch : Touch}
  {touches : List Touch} {buffer : UniformBuffer}

/-! ### What a touch does to buffers -/

theorem install_nextBuffer (world : World) (proxy : ProxyId) (tier : Tier) (owner : RenderProxy)
    (resource : ResourceId) (rebuilt : UniformCache.Rebuilt) :
    (world.install proxy tier owner resource rebuilt).nextBuffer = rebuilt.nextBuffer := by
  unfold install recordBuild
  dsimp only
  split <;> rfl

theorem without_nextBuffer (world : World) (proxy : ProxyId) :
    (world.without proxy).nextBuffer = world.nextBuffer := by
  unfold without detach
  dsimp only
  split
  · split <;> rfl
  · rfl

/-- A cache is built, or buffers are dropped and nothing else. -/
theorem Move.cases (move : Move world touch next) :
    (∃ proxy tier map new, touch = .built proxy tier map ∧
      UniformCache.Refilled (world.bufferOf proxy tier) map.layout world.nextBuffer new
        next.nextBuffer ∧
      ∀ other level, next.bufferOf other level =
        if other = proxy ∧ level = tier then some new else world.bufferOf other level) ∨
    ((∀ proxy tier, touch.builds? proxy tier = none) ∧ next.nextBuffer = world.nextBuffer ∧
      ∀ other level, next.bufferOf other level =
        if touch.Drops other level then none else world.bufferOf other level) := by
  cases move with
  | @built proxy tier drawable owner rebuilt draws found rebuild =>
    obtain ⟨new, has, refilled⟩ := UniformCache.rebuild_refilled rebuild
    refine .inl ⟨proxy, tier, drawable.map, new, rfl, ?_, fun other level => ?_⟩
    · rw [install_nextBuffer]
      unfold bufferOf cacheOf
      rw [found]
      exact refilled
    · unfold bufferOf
      rw [cacheOf_install _ _ _ _ _ _ found]
      split
      · exact has
      · rfl
  | @emptied proxy owner recreate found =>
    refine .inr ⟨fun _ _ => rfl, rfl, fun other level => ?_⟩
    unfold bufferOf
    rw [cacheOf_dropCaches _ _ _ _ found]
    by_cases here : other = proxy
    · rw [if_pos here]
      cases recreate <;> cases world.cacheOf other level <;> simp [Touch.Drops, here,
        UniformCache.invalidate]
    · simp [Touch.Drops, here]
  | @emptiedFor proxy owner tier recreate found =>
    refine .inr ⟨fun _ _ => rfl, rfl, fun other level => ?_⟩
    unfold bufferOf
    rw [cacheOf_dropCache _ _ _ _ _ found]
    by_cases here : other = proxy ∧ level = tier
    · rw [if_pos here]
      cases recreate <;> cases world.cacheOf other level <;> simp [Touch.Drops, here,
        UniformCache.invalidate]
    · simp [Touch.Drops, here]
  | entered proxy kind =>
    refine .inr ⟨fun _ _ => rfl, ?_, fun other level => ?_⟩
    · obtain ⟨children, users, attached⟩ := attach_eq world proxy kind
      rw [attached]
    · unfold bufferOf
      rw [cacheOf_attach]
      by_cases here : other = proxy <;> simp [Touch.Drops, here]
  | left proxy =>
    refine .inr ⟨fun _ _ => rfl, without_nextBuffer world proxy, fun other level => ?_⟩
    unfold bufferOf
    rw [cacheOf_without]
    by_cases here : other = proxy <;> simp [Touch.Drops, here]

/-- A later state of a buffer: nothing has happened to it, or it has a later version. -/
structure Succeeds (later buffer : UniformBuffer) : Prop where
  id_eq : later.id = buffer.id
  layout_eq : later.layout = buffer.layout
  version : later = buffer ∨ buffer.version < later.version

theorem Succeeds.refl (buffer : UniformBuffer) : Succeeds buffer buffer := ⟨rfl, rfl, .inl rfl⟩

theorem Succeeds.trans {last later : UniformBuffer} (second : Succeeds last later)
    (first : Succeeds later buffer) : Succeeds last buffer := by
  refine ⟨second.id_eq.trans first.id_eq, second.layout_eq.trans first.layout_eq, ?_⟩
  rcases second.version with rfl | grown
  · exact first.version
  · rcases first.version with rfl | grown'
    · exact .inr grown
    · exact .inr (grown'.trans grown)

/-- A buffer after a touch was there before, in the same cache, or is the next new one and has just
been built. -/
theorem Move.origin (move : Move world touch next) {later : UniformBuffer}
    (held : next.bufferOf proxy tier = some later) :
    (∃ buffer, world.bufferOf proxy tier = some buffer ∧ Succeeds later buffer) ∨
      later.id = world.nextBuffer ∧ next.nextBuffer = world.nextBuffer.next ∧
        (touch.builds? proxy tier).isSome := by
  rcases move.cases with ⟨here, low, map, new, rfl, refilled, buffers⟩ | ⟨-, -, buffers⟩
  · rw [buffers] at held
    split at held
    · rename_i same
      obtain ⟨rfl, rfl⟩ := same
      obtain rfl := Option.some.inj held
      generalize after : next.nextBuffer = following at refilled
      cases refilled with
      | @kept buffer there fits sameId sameLayout version =>
        exact .inl ⟨buffer, there, sameId, sameLayout.trans fits.symm,
          .inr (version ▸ Nat.lt_succ_self _)⟩
      | made misfits fresh sameLayout =>
        refine .inr ⟨fresh, rfl, ?_⟩
        rw [Touch.builds?_built, if_pos ⟨rfl, rfl⟩]
        rfl
    · exact .inl ⟨later, held, .refl later⟩
  · rw [buffers] at held
    split at held
    · cases held
    · exact .inl ⟨later, held, .refl later⟩

theorem Move.nextBuffer_le (move : Move world touch next) :
    world.nextBuffer.number ≤ next.nextBuffer.number := by
  rcases move.cases with ⟨here, low, map, new, rfl, refilled, -⟩ | ⟨-, same, -⟩
  · generalize next.nextBuffer = following at refilled
    cases refilled with
    | kept => exact Nat.le_refl _
    | made => exact Nat.le_succ _
  · rw [same]

/-- A touch builds one cache at most. -/
theorem Touch.builds?_unique (here : (touch.builds? proxy tier).isSome)
    (there : (touch.builds? other level).isSome) : other = proxy ∧ level = tier := by
  cases touch with
  | built built for_ map =>
    rw [builds?_built] at here there
    by_cases same : proxy = built ∧ tier = for_
    · by_cases same' : other = built ∧ level = for_
      · exact ⟨same'.1.trans same.1.symm, same'.2.trans same.2.symm⟩
      · rw [if_neg same'] at there
        cases there
    · rw [if_neg same] at here
      cases here
  | _ => cases here

/-! ### One cache for a number -/

/-- Every number that a buffer has was given before, and only one cache has it. -/
structure Labelled (world : World) : Prop where
  given : ∀ proxy tier buffer, world.bufferOf proxy tier = some buffer →
    buffer.id.number < world.nextBuffer.number
  apart : ∀ proxy tier buffer other level twin, world.bufferOf proxy tier = some buffer →
    world.bufferOf other level = some twin → twin.id = buffer.id → other = proxy ∧ level = tier

theorem Labelled.move (labelled : Labelled world) (move : Move world touch next) :
    Labelled next := by
  constructor
  case given =>
    intro proxy tier later held
    rcases move.origin held with ⟨buffer, before, succeeds⟩ | ⟨fresh, following, -⟩
    · rw [succeeds.id_eq]
      exact (labelled.given proxy tier buffer before).trans_le move.nextBuffer_le
    · rw [fresh, following]
      exact Nat.lt_succ_self _
  case apart =>
    intro proxy tier later other level twin held held' same
    have old {proxy : ProxyId} {tier : Tier} {later buffer : UniformBuffer}
        (before : world.bufferOf proxy tier = some buffer) (succeeds : Succeeds later buffer) :
        later.id ≠ world.nextBuffer := fun fresh => by
      have given := labelled.given proxy tier buffer before
      rw [← succeeds.id_eq, fresh] at given
      exact Nat.lt_irrefl _ given
    rcases move.origin held with ⟨buffer, before, succeeds⟩ | ⟨fresh, -, built⟩
    · rcases move.origin held' with ⟨buffer', before', succeeds'⟩ | ⟨fresh', -, -⟩
      · exact labelled.apart proxy tier buffer other level buffer' before before'
          ((succeeds'.id_eq.symm.trans same).trans succeeds.id_eq)
      · exact absurd (same.symm.trans fresh') (old before succeeds)
    · rcases move.origin held' with ⟨buffer', before', succeeds'⟩ | ⟨-, -, built'⟩
      · exact absurd (same.trans fresh) (old before' succeeds')
      · exact Touch.builds?_unique built built'

theorem Labelled.course (labelled : Labelled world) (course : Course world touches next) :
    Labelled next := by
  induction course with
  | start => exact labelled
  | still _ buffers numbers inductionHypothesis =>
    refine ⟨fun proxy tier buffer held => ?_, ?_⟩
    · rw [buffers] at held
      rw [numbers]
      exact inductionHypothesis.given proxy tier buffer held
    · rw [buffers]
      exact inductionHypothesis.apart
  | moved _ move inductionHypothesis => exact inductionHypothesis.move move

/-! ### From one world to a later one -/

theorem Course.nextBuffer_le (course : Course world touches next) :
    world.nextBuffer.number ≤ next.nextBuffer.number := by
  induction course with
  | start => exact Nat.le_refl _
  | still _ _ numbers inductionHypothesis => rwa [numbers]
  | moved _ move inductionHypothesis => exact inductionHypothesis.trans move.nextBuffer_le

/-- A buffer has been in its cache all along, or its number was given since. -/
theorem Course.origin (course : Course world touches next) {later : UniformBuffer}
    (held : next.bufferOf proxy tier = some later) :
    (∃ buffer, world.bufferOf proxy tier = some buffer ∧ Succeeds later buffer) ∨
      world.nextBuffer.number ≤ later.id.number := by
  induction course generalizing later with
  | start => exact .inl ⟨later, held, .refl later⟩
  | still _ buffers _ inductionHypothesis =>
    rw [buffers] at held
    exact inductionHypothesis held
  | moved course move inductionHypothesis =>
    rcases move.origin held with ⟨between, before, succeeds⟩ | ⟨fresh, -, -⟩
    · rcases inductionHypothesis before with ⟨buffer, first, succeeds'⟩ | since
      · exact .inl ⟨buffer, first, succeeds.trans succeeds'⟩
      · exact .inr (succeeds.id_eq ▸ since)
    · exact .inr (fresh ▸ course.nextBuffer_le)

/-- What has the number of an earlier buffer is in the same cache, and is the same buffer or a
later version of it. -/
theorem Course.succeeds (course : Course world touches next) (labelled : Labelled world)
    (held : world.bufferOf proxy tier = some buffer) {later : UniformBuffer}
    (held' : next.bufferOf other level = some later) (same : later.id = buffer.id) :
    (other = proxy ∧ level = tier) ∧ Succeeds later buffer := by
  rcases course.origin held' with ⟨twin, before, succeeds⟩ | since
  · obtain ⟨rfl, rfl⟩ := labelled.apart proxy tier buffer other level twin held before
      (succeeds.id_eq.symm.trans same)
    obtain rfl := Option.some.inj (before.symm.trans held)
    exact ⟨⟨rfl, rfl⟩, succeeds⟩
  · rw [same] at since
    exact absurd (labelled.given proxy tier buffer held) (Nat.not_lt.mpr since)

/-! ### Who survives -/

/-- A buffer that is spared is in its cache after a touch, and in its next version if it was
built. -/
theorem Move.spared (move : Move world touch next)
    (held : world.bufferOf proxy tier = some buffer)
    (spares : touch.Spares proxy tier buffer.layout) :
    ∃ later, next.bufferOf proxy tier = some later ∧ later.id = buffer.id ∧
      later.layout = buffer.layout ∧
      later.version = buffer.version + Touch.builds [touch] proxy tier := by
  rcases move.cases with ⟨here, low, map, new, rfl, refilled, buffers⟩ | ⟨none, -, buffers⟩
  · rw [buffers]
    unfold Touch.builds
    split
    · rename_i same
      obtain ⟨rfl, rfl⟩ := same
      have builds : Touch.builds? (.built proxy tier map) proxy tier = some map.layout :=
        if_pos ⟨rfl, rfl⟩
      have fits := spares.2 map.layout builds
      generalize next.nextBuffer = following at refilled
      cases refilled with
      | @kept old there _ sameId sameLayout version =>
        obtain rfl := Option.some.inj (there.symm.trans held)
        refine ⟨new, rfl, sameId, sameLayout.trans fits, ?_⟩
        rw [version, List.countP_singleton, builds]
        rfl
      | made misfits => exact absurd fits.symm (misfits buffer held)
    · rename_i apart
      refine ⟨buffer, held, rfl, rfl, ?_⟩
      have builds : Touch.builds? (.built here low map) proxy tier = none := if_neg apart
      rw [List.countP_singleton, builds]
      rfl
  · refine ⟨buffer, ?_, rfl, rfl, ?_⟩
    · rw [buffers, if_neg spares.1, held]
    · unfold Touch.builds
      rw [List.countP_singleton, none]
      rfl

/-- If a buffer is not spared, its cache has none after the touch, or a new one. -/
theorem Move.replaced (move : Move world touch next)
    (held : world.bufferOf proxy tier = some buffer)
    (strikes : ¬touch.Spares proxy tier buffer.layout) {later : UniformBuffer}
    (held' : next.bufferOf proxy tier = some later) : later.id = world.nextBuffer := by
  rcases move.cases with ⟨here, low, map, new, rfl, refilled, buffers⟩ | ⟨none, -, buffers⟩
  · by_cases same : proxy = here ∧ tier = low
    · obtain ⟨rfl, rfl⟩ := same
      rw [buffers, if_pos ⟨rfl, rfl⟩] at held'
      obtain rfl := Option.some.inj held'
      generalize next.nextBuffer = following at refilled
      cases refilled with
      | @kept old there fits =>
        obtain rfl := Option.some.inj (there.symm.trans held)
        refine absurd ⟨id, fun needed builds => ?_⟩ strikes
        rw [Touch.builds?_built, if_pos ⟨rfl, rfl⟩] at builds
        exact (Option.some.inj builds).symm.trans fits.symm
      | made _ fresh => exact fresh
    · refine absurd ⟨id, fun needed builds => ?_⟩ strikes
      rw [Touch.builds?_built, if_neg same] at builds
      cases builds
  · rw [buffers] at held'
    split at held'
    · cases held'
    · rename_i stays
      exact absurd ⟨stays, fun needed builds => by rw [none] at builds; cases builds⟩ strikes

/-- A buffer that every touch spares is still there, as many versions later as its cache was built;
and otherwise its number is nowhere any more. -/
theorem Course.survival (course : Course world touches next) (labelled : Labelled world)
    (held : world.bufferOf proxy tier = some buffer) :
    ((∀ touch ∈ touches, touch.Spares proxy tier buffer.layout) ∧
      ∃ later, next.bufferOf proxy tier = some later ∧ later.id = buffer.id ∧
        later.layout = buffer.layout ∧
        later.version = buffer.version + Touch.builds touches proxy tier) ∨
    ((¬∀ touch ∈ touches, touch.Spares proxy tier buffer.layout) ∧
      ∀ other level later, next.bufferOf other level = some later → later.id ≠ buffer.id) := by
  have given := labelled.given proxy tier buffer held
  induction course with
  | start => exact .inl ⟨nofun, buffer, held, rfl, rfl, rfl⟩
  | still _ buffers _ inductionHypothesis => rwa [buffers]
  | @moved touches touch middle next course move inductionHypothesis =>
    have newer : buffer.id ≠ middle.nextBuffer := fun same => by
      rw [same] at given
      exact absurd course.nextBuffer_le (Nat.not_le.mpr given)
    rcases inductionHypothesis with ⟨spared, between, held', sameId, sameLayout, version⟩ |
      ⟨struck, gone⟩
    · by_cases spares : touch.Spares proxy tier buffer.layout
      · obtain ⟨later, after, sameId', sameLayout', version'⟩ :=
          move.spared held' (sameLayout ▸ spares)
        refine .inl ⟨List.forall_mem_append.mpr ⟨spared, List.forall_mem_singleton.mpr spares⟩,
          later, after, sameId'.trans sameId, sameLayout'.trans sameLayout, ?_⟩
        unfold Touch.builds at version version' ⊢
        rw [version', version, List.countP_append, Nat.add_assoc]
      · refine .inr ⟨fun all => spares (all touch (List.mem_append_right _ List.mem_cons_self)),
          fun other level later after same => ?_⟩
        rcases move.origin after with ⟨twin, before, succeeds⟩ | ⟨fresh, -, -⟩
        · obtain ⟨rfl, rfl⟩ := (labelled.course course).apart proxy tier between other level twin
            held' before ((succeeds.id_eq.symm.trans same).trans sameId.symm)
          exact newer (same.symm.trans (move.replaced held' (sameLayout ▸ spares) after))
        · exact newer (same.symm.trans fresh)
    · refine .inr ⟨fun all => struck fun touch member => all touch (List.mem_append_left _ member),
        fun other level later after same => ?_⟩
      rcases move.origin after with ⟨twin, before, succeeds⟩ | ⟨fresh, -, -⟩
      · exact gone other level twin before (succeeds.id_eq.symm.trans same)
      · exact newer (same.symm.trans fresh)

/-! ### Whatever is done is a course -/

/-- A world that some touches lead to. -/
def Reaches (world next : World) : Prop := ∃ touches, Course world touches next

namespace Reaches

variable {recreate : Bool} {resource : ResourceId}

theorem still (reaches : Reaches world middle) (buffers : next.bufferOf = middle.bufferOf)
    (numbers : next.nextBuffer = middle.nextBuffer) : Reaches world next := by
  obtain ⟨touches, course⟩ := reaches
  exact ⟨touches, course.still buffers numbers⟩

theorem move (reaches : Reaches world middle) (move : Move middle touch next) :
    Reaches world next := by
  obtain ⟨touches, course⟩ := reaches
  exact ⟨touches ++ [touch], course.moved move⟩

theorem lasting : Lasting (Reaches world) where
  deferred _ _ reaches := reaches.still rfl rfl
  installed _ _ _ _ _ _ reaches draws found rebuild := reaches.move (.built draws found rebuild)

theorem invalidate (reaches : Reaches world middle)
    (ran : middle.invalidate recreate proxy = .ok next) : Reaches world next :=
  lasting.invalidate (fun _ => reaches) (fun _ found => reaches.move (.emptied recreate found)) ran

theorem invalidateTier (reaches : Reaches world middle)
    (ran : middle.invalidateTier recreate proxy tier = .ok next) : Reaches world next :=
  lasting.invalidateTier (fun _ => reaches)
    (fun _ found => reaches.move (.emptiedFor tier recreate found)) ran

theorem invalidateFamily (reaches : Reaches world middle)
    (ran : middle.invalidateFamily proxy = .ok next) : Reaches world next :=
  foldlM_kept (fun _ _ _ reaches stepped => reaches.invalidate stepped) _ _ _ reaches ran

theorem invalidateDependents (reaches : Reaches world middle)
    (ran : middle.invalidateDependents resource tier recreate = .ok next) : Reaches world next :=
  foldlM_kept (fun _ _ _ reaches stepped => reaches.invalidateTier stepped) _ _ _ reaches ran

theorem setMap {map : Option SharedMap} (reaches : Reaches world middle)
    (ran : middle.setMap resource map = .ok next) : Reaches world next := by
  obtain ⟨-, rfl⟩ | ⟨material, -, -, ran⟩ := setMap_cases ran
  · exact reaches
  · have placed : Reaches world (middle.placeMap resource material map) := reaches.still rfl rfl
    exact placed.invalidateDependents ran

theorem releaseMaterial (reaches : Reaches world middle)
    (ran : middle.releaseMaterial resource = .ok next) : Reaches world next := by
  obtain ⟨-, rfl⟩ | ⟨material, left, -, invalidated, rfl⟩ := releaseMaterial_cases ran
  · exact reaches
  · have withdrawn : Reaches world (middle.withdraw resource) := reaches.still rfl rfl
    exact (withdrawn.invalidateDependents invalidated).still rfl rfl

/-- A proxy that is written anew with the caches it had. -/
theorem reformed {owner other : RenderProxy} (reaches : Reaches world middle)
    (found : middle.proxies.get? proxy = some owner)
    (written : next.proxies = middle.proxies.insert proxy other)
    (sameCaches : other.caches = owner.caches) (numbers : next.nextBuffer = middle.nextBuffer) :
    Reaches world next := by
  refine reaches.still ?_ numbers
  unfold bufferOf
  rw [cacheOf_insert found written sameCaches]

theorem setMaterials {materials : Materials} (reaches : Reaches world middle)
    (ran : middle.setMaterials proxy materials = .ok next) : Reaches world next := by
  obtain ⟨-, rfl⟩ | ⟨owner, previous, found, -, ran⟩ := setMaterials_cases ran
  · exact reaches
  · have formed : Reaches world (middle.reassign proxy owner previous materials) :=
      reaches.reformed found rfl rfl rfl
    exact formed.invalidateFamily ran

theorem setParameter {name : String} {value : Option ParameterValue}
    (reaches : Reaches world middle)
    (ran : middle.setParameter proxy name value = .ok next) : Reaches world next := by
  obtain ⟨-, rfl⟩ | ⟨owner, found, ran⟩ := setParameter_cases ran
  · exact reaches
  · have formed : Reaches world (middle.override proxy owner name value) :=
      reaches.reformed found rfl rfl rfl
    exact formed.invalidateFamily ran

theorem removeProxy (reaches : Reaches world middle)
    (ran : middle.removeProxy proxy = .ok next) : Reaches world next := by
  have left : Reaches world { middle.without proxy with
      children := Table.erase (middle.without proxy).children proxy } :=
    (reaches.move (.left proxy)).still rfl rfl
  exact foldlM_kept (fun _ _ _ reaches stepped => reaches.invalidateFamily stepped) _ _ _ left ran

theorem destroyProducer {producer : ProducerId} (reaches : Reaches world middle)
    (ran : middle.destroyProducer producer = .ok next) : Reaches world next := by
  have destroyed : Reaches world
      { middle with streaming := (middle.streaming.destroyProducer producer).2 } :=
    reaches.still rfl rfl
  exact foldlM_kept (fun _ _ _ reaches stepped => reaches.invalidate stepped) _ _ _ destroyed ran

theorem apply {command : RenderCommand} (reaches : Reaches world middle)
    (ran : middle.apply command = .ok next) : Reaches world next := by
  have counted : Reaches world
      (middle.count fun stats => { stats with commands := stats.commands + 1 }) :=
    reaches.still rfl rfl
  unfold World.apply at ran
  cases command with
  | setMap => exact counted.setMap ran
  | releaseMaterial => exact counted.releaseMaterial ran
  | createProxy proxy kind => exact lasting.markStale (counted.move (.entered proxy kind)) ran
  | setMaterials => exact counted.setMaterials ran
  | setParameter => exact counted.setParameter ran
  | clearParameter => exact counted.setParameter ran
  | recache => exact counted.invalidate ran
  | removeProxy => exact counted.removeProxy ran
  | destroyProducer => exact counted.destroyProducer ran
  | _ =>
    cases ran
    exact counted.still rfl rfl

theorem carryOut {operation : Operation} (reaches : Reaches world middle)
    (ran : operation.carryOut middle = .ok next) : Reaches world next := by
  cases operation with
  | perform command => exact reaches.apply ran
  | announce resource =>
    cases ran
    exact reaches.still rfl rfl
  | updateDeferred =>
    obtain ⟨⟨count, updated⟩, updates, rfl⟩ := map_eq_ok.mp ran
    exact lasting.updateDeferred reaches updates
  | updateIfNeeded proxy tier => exact lasting.updateIfNeeded reaches ran
  | evaluate proxy tier =>
    obtain ⟨⟨built, next⟩, evaluated, rfl⟩ := map_eq_ok.mp ran
    exact lasting.evaluate reaches evaluated
  | prepareDraw proxy tier =>
    obtain ⟨⟨drawn, next⟩, prepared, rfl⟩ := map_eq_ok.mp ran
    exact lasting.prepareDraw reaches prepared
  | invalidate proxy recreate => exact reaches.invalidate ran

theorem carryOutAll {operations : List Operation}
    (ran : Operation.carryOutAll world operations = .ok next) : Reaches world next :=
  foldlM_kept (fun _ _ _ reaches stepped => reaches.carryOut stepped) _ _ _ ⟨[], .start⟩ ran

end Reaches

theorem labelled_start (deferring : Bool) (activeTiers : List Tier) :
    Labelled { deferring, activeTiers } := ⟨nofun, nofun⟩

/-! ### Numbers and versions -/

/-- At any two moments of a run, a number stays with one cache, its version only grows, and what
has the same number and version is the same. A buffer is still there at the later moment exactly
if nothing in between has dropped it or built its cache for another layout. -/
theorem buffers_identified {deferring : Bool} {activeTiers : List Tier}
    {earlier later : List Operation}
    (ran : Operation.carryOutAll { deferring, activeTiers } earlier = .ok middle)
    (continued : Operation.carryOutAll middle later = .ok next) :
    (∀ proxy tier other level buffer twin, next.bufferOf proxy tier = some buffer →
      next.bufferOf other level = some twin → twin.id = buffer.id →
        other = proxy ∧ level = tier) ∧
    (∀ proxy tier other level buffer after, middle.bufferOf proxy tier = some buffer →
      next.bufferOf other level = some after → after.id = buffer.id →
        (other = proxy ∧ level = tier) ∧ buffer.version ≤ after.version ∧
          after.layout = buffer.layout ∧
          (after.version = buffer.version → after.content = buffer.content)) ∧
    (∃ touches, Course middle touches next) ∧
    ∀ touches, Course middle touches next →
      ∀ proxy tier buffer, middle.bufferOf proxy tier = some buffer →
        ((∃ other level after, next.bufferOf other level = some after ∧ after.id = buffer.id) ↔
          ∀ touch ∈ touches, touch.Spares proxy tier buffer.layout) ∧
        ∀ after, next.bufferOf proxy tier = some after → after.id = buffer.id →
          after.version = buffer.version + Touch.builds touches proxy tier := by
  obtain ⟨_, before⟩ := Reaches.carryOutAll ran
  obtain ⟨touches, course⟩ := Reaches.carryOutAll continued
  have labelled := (labelled_start deferring activeTiers).course before
  refine ⟨fun proxy tier other level buffer twin =>
      (labelled.course course).apart proxy tier buffer other level twin,
    fun proxy tier other level buffer after held held' same => ?_, ⟨touches, course⟩,
    fun touches course proxy tier buffer held => ⟨⟨?_, ?_⟩, fun after held' same => ?_⟩⟩
  · obtain ⟨place, succeeds⟩ := course.succeeds labelled held held' same
    refine ⟨place, ?_, succeeds.layout_eq, fun sameVersion => ?_⟩
    · rcases succeeds.version with rfl | grown
      · exact Nat.le_refl _
      · exact grown.le
    · rcases succeeds.version with rfl | grown
      · rfl
      · exact absurd sameVersion grown.ne'
  · rintro ⟨other, level, after, held', same⟩
    rcases course.survival labelled held with ⟨spared, -⟩ | ⟨-, gone⟩
    · exact spared
    · exact absurd same (gone other level after held')
  · intro spared
    rcases course.survival labelled held with ⟨-, after, held', same, -⟩ | ⟨struck, -⟩
    · exact ⟨proxy, tier, after, held', same⟩
    · exact absurd spared struck
  · rcases course.survival labelled held with ⟨-, later, found, -, -, version⟩ | ⟨-, gone⟩
    · rwa [Option.some.inj (held'.symm.trans found)]
    · exact absurd same (gone proxy tier after held')

/-- A proxy that is drawn with the map of another one. -/
def derivedFrame : List Operation :=
  Run.firstFrame ++ [
    .perform (.createProxy Identifier.first.next (.derived .first (.fill none))), .updateDeferred]

/-- A parameter of both is set, and then the buffer of one of them is recreated. -/
def recreated : List Operation := [
  .perform (.setParameter .first "Tint" (.vector (.splat .zero))), .updateDeferred,
  .invalidate Identifier.first.next true, .updateDeferred]

/-- One buffer has been filled once more, and the other has made way for a third one. -/
theorem recreated_identified : ∃ middle next buffer old,
    Operation.carryOutAll { deferring := true, activeTiers := [.desktop] } derivedFrame =
      .ok middle ∧
    Operation.carryOutAll middle recreated = .ok next ∧
    middle.bufferOf .first .desktop = some buffer ∧
    middle.bufferOf Identifier.first.next .desktop = some old ∧
    ∃ touches, Course middle touches next ∧
      (∀ touch ∈ touches, touch.Spares .first .desktop buffer.layout) ∧
      Touch.builds touches .first .desktop = 1 ∧
      ¬∀ touch ∈ touches, touch.Spares Identifier.first.next .desktop old.layout := by
  have told : ((Operation.carryOutAll { deferring := true, activeTiers := [.desktop] }
      derivedFrame).bind fun middle => (Operation.carryOutAll middle recreated).map fun next =>
        [middle, next].map fun world => [Identifier.first, Identifier.first.next].map fun proxy =>
          (world.bufferOf proxy .desktop).map fun buffer => (buffer.id, buffer.version)) =
      .ok [[some (⟨1⟩, 1), some (⟨2⟩, 1)], [some (⟨1⟩, 2), some (⟨3⟩, 1)]] := by
    cbv
  obtain ⟨middle, ran, told⟩ := bind_eq_ok.mp told
  obtain ⟨next, continued, told⟩ := map_eq_ok.mp told
  simp only [List.map_cons, List.map_nil, List.cons.injEq, and_true, Option.map_eq_some_iff,
    Prod.mk.injEq] at told
  obtain ⟨⟨⟨buffer, held, number, version⟩, old, held', number'⟩,
    ⟨after, later, numberLater, versionLater⟩, new, laterNew, numberNew⟩ := told
  obtain ⟨-, stays, ⟨touches, course⟩, survival⟩ := buffers_identified ran continued
  obtain ⟨iff, versions⟩ := survival touches course .first .desktop buffer held
  obtain ⟨iff', -⟩ := survival touches course Identifier.first.next .desktop old held'
  refine ⟨middle, next, buffer, old, ran, continued, held, held', touches, course,
    iff.mp ⟨.first, .desktop, after, later, numberLater.trans number.symm⟩, ?_, fun spared => ?_⟩
  · have grown := versions after later (numberLater.trans number.symm)
    rw [versionLater, version] at grown
    omega
  · obtain ⟨other, level, twin, there, same⟩ := iff'.mpr spared
    -- The number could only be where it was, and there is another one now.
    obtain ⟨⟨rfl, rfl⟩, -⟩ := stays _ _ other level old twin held' there same
    rw [laterNew, Option.some.injEq] at there
    rw [← there, numberNew.1, number'.1] at same
    cases same

end World

end Shading
