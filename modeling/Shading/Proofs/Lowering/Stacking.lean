/-
How streaming stacks are filled. The stacks are opened, filled and replaced
while nodes are emitted, and among them stand those of textures laid out
beforehand. Through all of that, a stack holds from one to eight textures, each
once, and they are all read at the coordinates that the stack was opened for.
-/

import Mathlib
import Shading.Proofs.Lowering.Gathering

namespace Shading

open ExpressionSet (intern prefix_intern_exact getElem?_intern_exact mem_of_mem_intern nodup_intern)

/-- The streaming texture that a node reads. -/
def Node.streamed? : Node → Option TextureExpression
  | .textureSample parameter texture .streaming _ => some ⟨parameter, texture, .streaming⟩
  | .runtimeTexture parameter texture => some ⟨parameter, texture, .streaming⟩
  | _ => none

/-! ### Stacks -/

/-- A stack for which a renderer has room, whose layers are different textures among so many, and
which has no further layers if it stands for a texture laid out beforehand. -/
structure StreamingStack.WellFormed (stack : StreamingStack) (textures : Nat) : Prop where
  filled : 1 ≤ stack.size
  bounded : stack.size ≤ maxLayers
  distinct : stack.layers.Nodup
  there : ∀ number ∈ stack.layers, number.toNat < textures
  alone : ∀ number, stack.preallocated = some number → stack.layers = [number]

namespace StreamingStack

variable {stack later : StreamingStack} {textures : Nat} {number : UInt32} {layer : Nat}

theorem WellFormed.mono {more : Nat} (wellFormed : stack.WellFormed textures)
    (le : textures ≤ more) : stack.WellFormed more :=
  { wellFormed with there := fun number member => (wellFormed.there number member).trans_le le }

theorem one_le_maxLayers : 1 ≤ maxLayers := by decide

theorem wellFormed_single (there : number.toNat < textures) :
    StreamingStack.WellFormed { layers := [number] } textures where
  filled := Nat.le_refl 1
  bounded := one_le_maxLayers
  distinct := List.nodup_singleton number
  there := List.forall_mem_singleton.mpr there
  alone _ laid := nomatch laid

theorem wellFormed_ofPreallocated (there : number.toNat < textures) :
    (ofPreallocated number).WellFormed textures where
  filled := Nat.le_refl 1
  bounded := one_le_maxLayers
  distinct := List.nodup_singleton number
  there := List.forall_mem_singleton.mpr there
  alone _ laid := congrArg (fun number => [number]) (Option.some.inj laid)

theorem getElem?_of_layer? (found : stack.layer? number = some layer) :
    stack.layers[layer]? = some number := by
  obtain ⟨inside, same, _⟩ := List.findIdx?_eq_some_iff_getElem.mp found
  rw [List.getElem?_eq_getElem inside, of_decide_eq_true same]

theorem push?_eq_some (pushed : stack.push? number = some (layer, later)) :
    stack.size < maxLayers ∧ layer = stack.size ∧
      later = { stack with layers := stack.layers ++ [number] } := by
  unfold push? at pushed
  split at pushed
  · rename_i room
    cases pushed
    exact ⟨room, rfl, rfl⟩
  · cases pushed

/-- A texture that the stack does not have yet fits on top as long as there is room. -/
theorem WellFormed.push (wellFormed : stack.WellFormed textures)
    (filled : stack.preallocated = none) (new : stack.layer? number = none)
    (there : number.toNat < textures) (room : stack.size < maxLayers) :
    StreamingStack.WellFormed { stack with layers := stack.layers ++ [number] } textures where
  filled := by
    rw [size, List.length_append]
    exact Nat.le_add_left 1 _
  bounded := by
    rw [size, List.length_append]
    exact room
  distinct := by
    refine List.nodup_append.mpr ⟨wellFormed.distinct, List.nodup_singleton number, ?_⟩
    intro other inside last member same
    cases List.mem_singleton.mp member
    exact of_decide_eq_false (List.findIdx?_eq_none_iff.mp new other inside) same
  there := List.forall_mem_append.mpr
    ⟨wellFormed.there, List.forall_mem_singleton.mpr there⟩
  alone number laid := by
    rw [filled] at laid
    cases laid

theorem grows_push (filled : stack.preallocated = none) :
    stack.Grows { stack with layers := stack.layers ++ [number] } :=
  ⟨rfl, List.prefix_append _ _, fun laid => absurd filled laid⟩

end StreamingStack

namespace Lowering

variable {graph : Graph} {met : NodeId → Prop} {progress after middle : Progress}
  {gathered later : Gathered} {places : List (Option NodeId)} {place : Option NodeId}
  {number : UInt32} {texture : TextureExpression}

/-! ### What holds of everything gathered -/

namespace Gathered

/-- A texture has been sampled at the given coordinates. -/
def Sampled (graph : Graph) (met : NodeId → Prop) (gathered : Gathered) (place : Option NodeId)
    (number : UInt32) : Prop :=
  ∃ id parameter texture, met id ∧
    graph.node? id = some (.textureSample parameter texture .streaming place) ∧
    gathered.entries.streamingTextures[number.toNat]? = some ⟨parameter, texture, .streaming⟩

/-- Every stack is well formed, and unless it stands for a texture laid out beforehand, its
layers have all been sampled at the coordinates of the stack. -/
structure Tidy (graph : Graph) (met : NodeId → Prop) (gathered : Gathered) : Prop where
  aligned : gathered.coordinates.length = gathered.entries.streamingStacks.length
  distinct : gathered.entries.streamingTextures.Nodup
  streamed : ∀ texture ∈ gathered.entries.streamingTextures, ∃ id node,
    graph.node? id = some node ∧ node.streamed? = some texture
  wellFormed : ∀ (position : Nat) (stack : StreamingStack),
    gathered.entries.streamingStacks[position]? = some stack →
      stack.WellFormed gathered.entries.streamingTextures.length
  sampled : ∀ (position : Nat) (stack : StreamingStack) (place : Option NodeId),
    gathered.entries.streamingStacks[position]? = some stack →
    gathered.coordinates[position]? = some place → stack.preallocated = none →
      ∀ number ∈ stack.layers, gathered.Sampled graph met place number

theorem Sampled.grow (sampled : gathered.Sampled graph met place number)
    (grows : gathered.Grows later) : later.Sampled graph met place number := by
  obtain ⟨id, parameter, texture, known, there, entry⟩ := sampled
  exact ⟨id, parameter, texture, known, there,
    getElem?_of_grown (grows.entries.textures .streaming) entry⟩

theorem Tidy.of_textures (tidy : gathered.Tidy graph met) (grows : gathered.Grows later)
    (coordinates : later.coordinates = gathered.coordinates)
    (untouched : later.entries.streamingStacks = gathered.entries.streamingStacks)
    (distinct : later.entries.streamingTextures.Nodup)
    (streamed : ∀ texture ∈ later.entries.streamingTextures, ∃ id node,
      graph.node? id = some node ∧ node.streamed? = some texture) : later.Tidy graph met where
  aligned := by rw [coordinates, untouched, tidy.aligned]
  distinct := distinct
  streamed := streamed
  wellFormed position stack there :=
    (tidy.wellFormed position stack (untouched ▸ there)).mono
      (grows.entries.textures .streaming).length_le
  sampled position stack place there known filled number member :=
    (tidy.sampled position stack place (untouched ▸ there) (coordinates ▸ known) filled number
      member).grow grows

/-- A further stack. -/
theorem Tidy.append {stack : StreamingStack} (tidy : gathered.Tidy graph met)
    (wellFormed : stack.WellFormed gathered.entries.streamingTextures.length)
    (sampled : stack.preallocated = none →
      ∀ number ∈ stack.layers, gathered.Sampled graph met place number) :
    Tidy graph met ⟨{ gathered.entries with
      streamingStacks := gathered.entries.streamingStacks ++ [stack] },
      gathered.coordinates ++ [place]⟩ where
  aligned := by
    rw [List.length_append, List.length_append, tidy.aligned]
    rfl
  distinct := tidy.distinct
  streamed := tidy.streamed
  wellFormed position other there := by
    rcases getElem?_concat_eq_some.mp there with there | ⟨_, rfl⟩
    · exact tidy.wellFormed position other there
    · exact wellFormed
  sampled position other coordinates there known := by
    rcases getElem?_concat_eq_some.mp there with there | ⟨rfl, rfl⟩
    · rcases getElem?_concat_eq_some.mp known with known | ⟨rfl, _⟩
      · exact tidy.sampled position other coordinates there known
      · rw [tidy.aligned] at there
        exact absurd (List.getElem?_eq_some_iff.mp there).1 (Nat.lt_irrefl _)
    · rw [← tidy.aligned, List.getElem?_concat_length] at known
      cases known
      exact sampled

/-- A stack that has become another one. -/
theorem Tidy.setStack {position : Nat} {stack other : StreamingStack}
    (tidy : gathered.Tidy graph met)
    (there : gathered.entries.streamingStacks[position]? = some stack)
    (wellFormed : other.WellFormed gathered.entries.streamingTextures.length)
    (sampled : ∀ place, gathered.coordinates[position]? = some place →
      other.preallocated = none → ∀ number ∈ other.layers,
        gathered.Sampled graph met place number) :
    Tidy graph met ⟨{ gathered.entries with
      streamingStacks := gathered.entries.streamingStacks.set position other },
      gathered.coordinates⟩ where
  aligned := by rw [List.length_set, tidy.aligned]
  distinct := tidy.distinct
  streamed := tidy.streamed
  wellFormed index known found := by
    by_cases same : position = index
    · subst same
      rw [List.getElem?_set_self (List.getElem?_eq_some_iff.mp there).1] at found
      cases found
      exact wellFormed
    · rw [List.getElem?_set_ne same] at found
      exact tidy.wellFormed index known found
  sampled index known place found := by
    by_cases same : position = index
    · subst same
      rw [List.getElem?_set_self (List.getElem?_eq_some_iff.mp there).1] at found
      cases found
      exact sampled place
    · rw [List.getElem?_set_ne same] at found
      exact tidy.sampled index known place found

end Gathered

/-- Different textures that nodes read are no more than there are numbers. -/
theorem length_le_of_streamed {textures : List TextureExpression} (distinct : textures.Nodup)
    (streamed : ∀ texture ∈ textures, ∃ id node, graph.node? id = some node ∧
      node.streamed? = some texture) : textures.length ≤ 2 ^ 32 := by
  have inside : textures.map some ⊆
      (List.range (2 ^ 32)).map fun number => graph.nodes[number]?.bind Node.streamed? := by
    intro entry member
    obtain ⟨texture, listed, rfl⟩ := List.mem_map.mp member
    obtain ⟨id, node, there, reads⟩ := streamed texture listed
    refine List.mem_map.mpr ⟨id.number.toNat, List.mem_range.mpr id.number.toNat_lt, ?_⟩
    exact Option.bind_eq_some_iff.mpr ⟨node, there, reads⟩
  have fewer := (List.subperm_of_subset (distinct.map (Option.some_injective _)) inside).length_le
  rwa [List.length_map, List.length_map, List.length_range] at fewer

namespace Progress

def gatheredAt (progress : Progress) (places : List (Option NodeId)) : Gathered :=
  ⟨progress.profile.expressions, places⟩

/-- What has been gathered is tidy, and the stacks that may get further layers are kept under
the coordinates they were opened for. -/
structure Tidy (graph : Graph) (met : NodeId → Prop) (progress : Progress)
    (places : List (Option NodeId)) : Prop extends (progress.gatheredAt places).Tidy graph met where
  openStacks : ∀ place position, progress.openStacks.get? place = some position →
    ∃ stack, progress.streamingStacks[position]? = some stack ∧ stack.preallocated = none ∧
      places[position]? = some place

end Progress

/-- Whatever is tidy before is tidy afterwards, has grown, and makes the claim true from then
on, however it may grow further. -/
def Gathers (graph : Graph) (met : NodeId → Prop) (progress after : Progress)
    (claim : Gathered → Prop) : Prop :=
  ∀ places, progress.Tidy graph met places → ∃ places', after.Tidy graph met places' ∧
    (progress.gatheredAt places).Grows (after.gatheredAt places') ∧
    ∀ final, (after.gatheredAt places').Grows final → claim final

namespace Gathers

variable {claim claim' : Gathered → Prop}

theorem refl (progress : Progress) : Gathers graph met progress progress fun _ => True :=
  fun places tidy => ⟨places, tidy, .refl _, fun _ _ => trivial⟩

theorem imp (gathers : Gathers graph met progress after claim)
    (weaker : ∀ final, claim final → claim' final) : Gathers graph met progress after claim' := by
  intro places tidy
  obtain ⟨places', tidy', grows, holds⟩ := gathers places tidy
  exact ⟨places', tidy', grows, fun final more => weaker final (holds final more)⟩

/-- What the first step makes true the second one may build on. -/
theorem andThen (first : Gathers graph met progress middle claim)
    (second : (∃ places, claim (middle.gatheredAt places)) →
      Gathers graph met middle after claim') :
    Gathers graph met progress after fun final => claim final ∧ claim' final := by
  intro places tidy
  obtain ⟨places', tidy', grows, holds⟩ := first places tidy
  obtain ⟨places'', tidy'', more, holds'⟩ := second ⟨places', holds _ (.refl _)⟩ places' tidy'
  exact ⟨places'', tidy'', grows.trans more,
    fun final further => ⟨holds final (more.trans further), holds' final further⟩⟩

/-- Steps that leave the stacks as they are. -/
theorem of_stacks (openStacks : after.openStacks = progress.openStacks)
    (untouched : after.streamingStacks = progress.streamingStacks)
    (grows : progress.profile.expressions.Grows after.profile.expressions)
    (distinct : progress.profile.expressions.streamingTextures.Nodup →
      after.profile.expressions.streamingTextures.Nodup)
    (streamed : ∀ texture ∈ after.profile.expressions.streamingTextures,
      texture ∈ progress.profile.expressions.streamingTextures ∨
        ∃ id node, graph.node? id = some node ∧ node.streamed? = some texture)
    (holds : ∀ places, after.Tidy graph met places →
      ∀ final, (after.gatheredAt places).Grows final → claim final) :
    Gathers graph met progress after claim := by
  intro places tidy
  have grown : (progress.gatheredAt places).Grows (after.gatheredAt places) :=
    ⟨grows, List.prefix_rfl⟩
  have tidy' : after.Tidy graph met places := by
    refine ⟨tidy.of_textures grown rfl untouched (distinct tidy.distinct) fun texture member =>
      (streamed texture member).elim (tidy.streamed texture) id, ?_⟩
    rw [openStacks, untouched]
    exact tidy.openStacks
  exact ⟨places, tidy', grown, holds places tidy'⟩

/-- Flags and counts are no entries. -/
theorem of_same (openStacks : after.openStacks = progress.openStacks)
    (expressions : after.profile.expressions = progress.profile.expressions) :
    Gathers graph met progress after fun _ => True := by
  refine of_stacks openStacks (congrArg ExpressionSet.streamingStacks expressions) ?_ ?_ ?_
    fun _ _ _ _ => trivial
  · exact expressions ▸ .refl _
  · exact expressions ▸ id
  · exact expressions ▸ fun _ member => .inl member

theorem withFlags (progress : Progress) (flags : FeatureFlags) :
    Gathers graph met progress (progress.withFlags flags) fun _ => True :=
  of_same rfl rfl

theorem countSample (progress : Progress) :
    Gathers graph met progress progress.countSample fun _ => True :=
  of_same rfl rfl

/-- A texture that has been added stands at its position, and a streaming texture's position can
be told by a layer. -/
theorem addTexture (progress : Progress)
    (origin : texture.kind = .streaming → ∃ id node, graph.node? id = some node ∧
      node.streamed? = some texture) :
    Gathers graph met progress (progress.addTexture texture).2 fun final =>
      (final.entries.textures texture.kind)[(progress.addTexture texture).1]? = some texture ∧
        (texture.kind = .streaming → final.entries.streamingTextures[
          (UInt32.ofNat (progress.addTexture texture).1).toNat]? = some texture) := by
  have added := ExpressionSet.textures_setTextures progress.profile.expressions texture.kind
  have entry : ((progress.addTexture texture).2.profile.expressions.textures texture.kind)[
      (progress.addTexture texture).1]? = some texture := by
    refine (congrArg (·[(progress.addTexture texture).1]?) (added texture.kind _)).trans ?_
    rw [if_pos rfl]
    exact getElem?_intern_exact
  have streaming : (progress.addTexture texture).2.profile.expressions.streamingTextures =
      if .streaming = texture.kind then
        (intern (fun left right => left = right)
          (progress.profile.expressions.textures texture.kind) texture).2
      else progress.profile.expressions.streamingTextures :=
    added .streaming _
  refine of_stacks rfl (ExpressionSet.streamingStacks_setTextures _ _ _)
    (ExpressionSet.grows_setTextures prefix_intern_exact) ?_ ?_ ?_
  · intro distinct
    rw [streaming]
    split
    · rename_i same
      exact nodup_intern (same ▸ distinct)
    · exact distinct
  · intro other member
    rw [streaming] at member
    split at member
    · rename_i same
      rcases mem_of_mem_intern member with member | rfl
      · rw [← same] at member
        exact .inl member
      · exact .inr (origin same.symm)
    · exact .inl member
  · intro places tidy final more
    have there := getElem?_of_grown (more.entries.textures _) entry
    refine ⟨there, fun same => ?_⟩
    have few := length_le_of_streamed tidy.distinct tidy.streamed
    have inside := (List.getElem?_eq_some_iff.mp entry).1
    rw [same] at inside there
    have number : (UInt32.ofNat (progress.addTexture texture).1).toNat = _ :=
      UInt32.toNat_ofNat_of_lt (inside.trans_le few)
    rw [number]
    exact there

theorem addExternal (progress : Progress) (external : UInt64) :
    Gathers graph met progress (progress.addExternal external).2 fun final =>
      final.entries.externalTextures[(progress.addExternal external).1]? = some external :=
  of_stacks rfl rfl
    { ExpressionSet.Grows.refl progress.profile.expressions with
      externalTextures := prefix_intern_exact }
    id (fun _ member => .inl member) fun _ _ _ more =>
      getElem?_of_grown more.entries.externalTextures getElem?_intern_exact

theorem addCollection (progress : Progress) (collection : UInt64) :
    Gathers graph met progress (progress.addCollection collection).2 fun final =>
      final.entries.collections[(progress.addCollection collection).1]? = some collection :=
  of_stacks rfl rfl
    { ExpressionSet.Grows.refl progress.profile.expressions with
      collections := prefix_intern_exact }
    id (fun _ member => .inl member) fun _ _ _ more =>
      getElem?_of_grown more.entries.collections getElem?_intern_exact

/-! ### Stacks -/

/-- A node that samples a streaming texture at the given coordinates. -/
def Samples (graph : Graph) (met : NodeId → Prop) (place : Option NodeId)
    (texture : TextureExpression) : Prop :=
  ∃ id parameter default, met id ∧
    graph.node? id = some (.textureSample parameter default .streaming place) ∧
    texture = ⟨parameter, default, .streaming⟩

/-- The texture that is sampled becomes the only layer of a new stack. -/
theorem openStack
    (there : progress.profile.expressions.streamingTextures[number.toNat]? = some texture)
    (samples : Samples graph met place texture) :
    Gathers graph met progress (progress.openStack place number).2 fun final =>
      final.Holds place texture (progress.openStack place number).1.1
        (progress.openStack place number).1.2 := by
  intro places tidy
  obtain ⟨id, parameter, default, known, node, rfl⟩ := samples
  have last : (places ++ [place])[progress.streamingStacks.length]? = some place := by
    rw [← show places.length = progress.streamingStacks.length from tidy.aligned]
    exact List.getElem?_concat_length
  have grows : (progress.gatheredAt places).Grows
      ((progress.openStack place number).2.gatheredAt (places ++ [place])) :=
    ⟨ExpressionSet.grows_append _ _, List.prefix_append _ _⟩
  refine ⟨places ++ [place], ⟨tidy.append (StreamingStack.wellFormed_single ?_) fun _ =>
    List.forall_mem_singleton.mpr ⟨id, parameter, default, known, node, there⟩, ?_⟩, grows, ?_⟩
  · exact (List.getElem?_eq_some_iff.mp there).1
  · intro other position opened
    change (progress.openStacks.insert place progress.streamingStacks.length).get? other = _
      at opened
    rw [Table.get?_insert] at opened
    split at opened
    · rename_i same
      cases opened
      cases same
      exact ⟨_, List.getElem?_concat_length, rfl, last⟩
    · obtain ⟨stack, found, filled, known⟩ := tidy.openStacks other position opened
      exact ⟨stack, getElem?_concat_eq_some.mpr (.inl found), filled,
        getElem?_of_grown grows.coordinates known⟩
  · exact fun final more => more.holds ⟨_, number, List.getElem?_concat_length, rfl, last, rfl,
      there⟩

/-- The open stack gets the texture as a further layer. -/
theorem pushLayer {position layer : Nat} {stack later : StreamingStack}
    (there : progress.profile.expressions.streamingTextures[number.toNat]? = some texture)
    (samples : Samples graph met place texture)
    (opened : progress.openStacks.get? place = some position)
    (found : progress.streamingStacks[position]? = some stack)
    (new : stack.layer? number = none) (pushed : stack.push? number = some (layer, later)) :
    Gathers graph met progress
      (progress.setStacks (progress.streamingStacks.set position later)) fun final =>
        final.Holds place texture position layer := by
  intro places tidy
  obtain ⟨id, parameter, default, known, node, rfl⟩ := samples
  obtain ⟨other, same, filled, located⟩ := tidy.openStacks place position opened
  cases found.symm.trans same
  obtain ⟨room, rfl, rfl⟩ := StreamingStack.push?_eq_some pushed
  have inside := (List.getElem?_eq_some_iff.mp found).1
  have wellFormed := (tidy.wellFormed position stack found).push filled new
    (List.getElem?_eq_some_iff.mp there).1 room
  refine ⟨places, ⟨tidy.setStack found wellFormed ?_, ?_⟩,
    ⟨ExpressionSet.grows_setStack found (StreamingStack.grows_push filled), List.prefix_rfl⟩, ?_⟩
  · intro other same _
    cases located.symm.trans same
    refine List.forall_mem_append.mpr ⟨tidy.sampled position stack place found located filled, ?_⟩
    exact List.forall_mem_singleton.mpr ⟨id, parameter, default, known, node, there⟩
  · intro other index opened
    obtain ⟨entry, same, untouched, where_⟩ := tidy.openStacks other index opened
    by_cases equal : position = index
    · subst equal
      exact ⟨_, List.getElem?_set_self inside, filled, where_⟩
    · exact ⟨entry, (List.getElem?_set_ne equal).trans same, untouched, where_⟩
  · exact fun final more => more.holds ⟨_, number, List.getElem?_set_self inside, filled, located,
      List.getElem?_concat_length, there⟩

/-- Wherever it goes, the texture is on a stack for its coordinates. -/
theorem addStreamingLayer
    (there : progress.profile.expressions.streamingTextures[number.toNat]? = some texture)
    (samples : Samples graph met place texture) :
    Gathers graph met progress (progress.addStreamingLayer place number).2 fun final =>
      final.Holds place texture (progress.addStreamingLayer place number).1.1
        (progress.addStreamingLayer place number).1.2 := by
  unfold Progress.addStreamingLayer
  split
  · exact openStack there samples
  · rename_i position opened
    split
    · exact openStack there samples
    · rename_i stack found
      split
      · rename_i layer known
        intro places tidy
        obtain ⟨other, same, filled, located⟩ := tidy.openStacks place position opened
        cases found.symm.trans same
        exact ⟨places, tidy, .refl _, fun final more => more.holds
          ⟨stack, number, found, filled, located, StreamingStack.getElem?_of_layer? known, there⟩⟩
      · rename_i new
        split
        · rename_i layer later pushed
          exact pushLayer there samples opened found new pushed
        · exact openStack there samples

/-- A texture laid out beforehand has a stack for itself. -/
theorem addPreallocated
    (there : progress.profile.expressions.streamingTextures[number.toNat]? = some texture) :
    Gathers graph met progress (progress.addPreallocated number).2 fun final =>
      final.HoldsAlone texture (progress.addPreallocated number).1 := by
  intro places tidy
  unfold Progress.addPreallocated
  split
  · rename_i position known
    obtain ⟨inside, laid, _⟩ := List.findIdx?_eq_some_iff_getElem.mp known
    have laid := of_decide_eq_true laid
    have found := List.getElem?_eq_getElem inside
    have layers := (tidy.wellFormed position _ found).alone number laid
    have alone : progress.streamingStacks[position] = .ofPreallocated number := by
      generalize progress.streamingStacks[position] = stack at laid layers
      cases stack
      cases laid
      cases layers
      rfl
    rw [alone] at found
    exact ⟨places, tidy, .refl _, fun final more => more.holdsAlone ⟨number, found, there⟩⟩
  · have grows : (progress.gatheredAt places).Grows ((progress.setStacks
        (progress.streamingStacks ++ [.ofPreallocated number])).gatheredAt (places ++ [none])) :=
      ⟨ExpressionSet.grows_append _ _, List.prefix_append _ _⟩
    refine ⟨places ++ [none], ⟨tidy.append (StreamingStack.wellFormed_ofPreallocated ?_)
      (fun filled => nomatch filled), ?_⟩, grows, ?_⟩
    · exact (List.getElem?_eq_some_iff.mp there).1
    · intro other position opened
      obtain ⟨stack, found, filled, known⟩ := tidy.openStacks other position opened
      exact ⟨stack, getElem?_concat_eq_some.mpr (.inl found), filled,
        getElem?_of_grown grows.coordinates known⟩
    · exact fun final more => more.holdsAlone ⟨number, List.getElem?_concat_length, there⟩

end Gathers

end Lowering

end Shading
