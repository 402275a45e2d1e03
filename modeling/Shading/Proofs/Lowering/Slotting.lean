/-
How streaming textures are put on stacks, compared with the samples that they
are put there for. The open stack for some coordinates always has just the layers
that can be told from the samples so far. So each sample is allotted its slot,
and the slots of all samples are the layers of all stacks.
-/

import Mathlib
import Shading.Proofs.Lowering.Allotting
import Shading.Proofs.Lowering.Stacking

namespace Shading

namespace Lowering

variable {graph : Graph} {progress middle after : Progress} {samples : List Sample}
  {place : Option NodeId} {number : UInt32} {texture : TextureExpression}

/-! ### The open stacks -/

namespace Progress

/-- The open stack for some coordinates has the layers that it is to have after some samples, and
each of them has been written for one of these samples. -/
structure Opened (progress : Progress) (samples : List Sample) (place : Option NodeId)
    (position : Nat) (stack : StreamingStack) : Prop where
  there : progress.streamingStacks[position]? = some stack
  layers : stack.layers.map (fun number =>
      progress.profile.expressions.streamingTextures[number.toNat]?) =
    (openLayers (texturesAt place samples)).map some
  written : ∀ (layer : Nat) (texture : TextureExpression),
    (openLayers (texturesAt place samples))[layer]? = some texture →
      ∃ sample ∈ samples, sample.subject = (place, texture) ∧ sample.slot = (position, layer)

/-- The samples so far have been allotted the layers of the stacks that there are. -/
structure Kept (progress : Progress) (samples : List Sample) : Prop where
  allotted : Allotted samples
  unopened : ∀ place, progress.openStacks.get? place = none → texturesAt place samples = []
  opened : ∀ place position, progress.openStacks.get? place = some position →
    ∃ stack, progress.Opened samples place position stack
  slots : ∀ position layer, (position, layer) ∈ StreamingStack.slots progress.streamingStacks ↔
    ∃ sample ∈ samples, sample.slot = (position, layer)

theorem kept_empty : Kept {} [] where
  allotted := .nil
  unopened _ _ := rfl
  opened _ _ opened := nomatch opened
  slots _ _ := ⟨fun member => absurd member List.not_mem_nil, fun ⟨_, member, _⟩ => nomatch member⟩

/-- The stacks stay as they are, and others come only for textures laid out beforehand. -/
structure Still (progress after : Progress) : Prop where
  openStacks : after.openStacks = progress.openStacks
  there : ∀ (position : Nat) (stack : StreamingStack),
    progress.streamingStacks[position]? = some stack →
      after.streamingStacks[position]? = some stack
  slots : ∀ position layer, (position, layer) ∈ StreamingStack.slots after.streamingStacks ↔
    (position, layer) ∈ StreamingStack.slots progress.streamingStacks

theorem still_of_stacks (openStacks : after.openStacks = progress.openStacks)
    (untouched : after.streamingStacks = progress.streamingStacks) : progress.Still after :=
  ⟨openStacks, fun _ _ there => untouched ▸ there, fun _ _ => untouched ▸ Iff.rfl⟩

theorem still_addTexture (progress : Progress) (texture : TextureExpression) :
    progress.Still (progress.addTexture texture).2 :=
  still_of_stacks rfl (ExpressionSet.streamingStacks_setTextures _ _ _)

theorem still_addPreallocated (progress : Progress) (number : UInt32) :
    progress.Still (progress.addPreallocated number).2 := by
  unfold addPreallocated
  split
  · exact still_of_stacks rfl rfl
  · refine ⟨rfl, fun _ _ there => getElem?_concat_eq_some.mpr (.inl there), fun _ _ => ?_⟩
    exact StreamingStack.mem_slots_concat.trans (or_iff_left fun ⟨_, filled, _⟩ => nomatch filled)

theorem Still.trans (first : progress.Still middle) (second : middle.Still after) :
    progress.Still after where
  openStacks := second.openStacks.trans first.openStacks
  there position stack there := second.there position stack (first.there position stack there)
  slots position layer := (second.slots position layer).trans (first.slots position layer)

namespace Kept

theorem still (kept : progress.Kept samples) (still : progress.Still after)
    (grown : progress.profile.expressions.streamingTextures <+:
      after.profile.expressions.streamingTextures) : after.Kept samples where
  allotted := kept.allotted
  unopened place := by
    rw [still.openStacks]
    exact kept.unopened place
  opened place position opened := by
    rw [still.openStacks] at opened
    obtain ⟨stack, there, layers, written⟩ := kept.opened place position opened
    refine ⟨stack, still.there position stack there, ?_, written⟩
    rw [← layers]
    refine List.map_congr_left fun number member => ?_
    have known := List.mem_map_of_mem (f := fun number : UInt32 =>
      progress.profile.expressions.streamingTextures[number.toNat]?) member
    rw [layers] at known
    obtain ⟨texture, _, entry⟩ := List.mem_map.mp known
    exact (getElem?_of_grown grown entry.symm).trans entry
  slots position layer := (still.slots position layer).trans (kept.slots position layer)

end Kept

/-! ### One more sample -/

namespace Opened

variable {position layer : Nat} {stack : StreamingStack} {sample : Sample}

theorem getElem?_openLayers (opened : progress.Opened samples place position stack)
    (layered : stack.layers[layer]? = some number)
    (entry : progress.profile.expressions.streamingTextures[number.toNat]? = some texture) :
    (openLayers (texturesAt place samples))[layer]? = some texture := by
  have same := congrArg (·[layer]?) opened.layers
  simp only [List.getElem?_map, layered, Option.map_some, entry] at same
  obtain ⟨other, there, equal⟩ := Option.map_eq_some_iff.mp same.symm
  rw [there, Option.some.inj equal]

/-- A texture whose number is not on the open stack is not one of its layers. -/
theorem notMem (opened : progress.Opened samples place position stack)
    (distinct : progress.profile.expressions.streamingTextures.Nodup)
    (new : stack.layer? number = none)
    (entry : progress.profile.expressions.streamingTextures[number.toNat]? = some texture) :
    texture ∉ openLayers (texturesAt place samples) := by
  intro member
  have known := List.mem_map_of_mem (f := some) member
  rw [← opened.layers] at known
  obtain ⟨other, inside, entry'⟩ := List.mem_map.mp known
  have same := (List.getElem?_inj (List.getElem?_eq_some_iff.mp entry).1 distinct).mp
    (entry.trans entry'.symm)
  exact of_decide_eq_false (List.findIdx?_eq_none_iff.mp new other inside)
    (UInt32.toNat_inj.mp same.symm)

theorem length_openLayers (opened : progress.Opened samples place position stack) :
    (openLayers (texturesAt place samples)).length = stack.size := by
  have same := congrArg List.length opened.layers
  rwa [List.length_map, List.length_map, eq_comm] at same

/-- What is sampled besides leaves an open stack as it was told. -/
theorem concat (opened : progress.Opened samples place position stack)
    (there : after.streamingStacks[position]? = some stack)
    (textures : after.profile.expressions.streamingTextures =
      progress.profile.expressions.streamingTextures)
    (same : openLayers (texturesAt place (samples ++ [sample])) =
      openLayers (texturesAt place samples)) :
    after.Opened (samples ++ [sample]) place position stack where
  there := there
  layers := by
    rw [same, textures]
    exact opened.layers
  written layer texture layered := by
    rw [same] at layered
    obtain ⟨earlier, member, subject, slot⟩ := opened.written layer texture layered
    exact ⟨earlier, List.mem_append_left _ member, subject, slot⟩

end Opened

namespace Kept

variable {position layer : Nat} {stack later : StreamingStack} {sample : Sample}
  {places : List (Option NodeId)}

theorem exists_slot_concat {slot : Nat × Nat} : (∃ other ∈ samples ++ [sample], other.slot = slot) ↔
    (∃ other ∈ samples, other.slot = slot) ∨ slot = sample.slot := by
  simp only [List.mem_append, List.mem_singleton, or_and_right, exists_or, exists_eq_left,
    eq_comm (b := slot)]

theorem unopened_concat (kept : progress.Kept samples)
    (before : ∀ place, after.openStacks.get? place = none →
      progress.openStacks.get? place = none ∧ sample.place ≠ place) :
    ∀ place, after.openStacks.get? place = none → texturesAt place (samples ++ [sample]) = [] := by
  intro place unopened
  obtain ⟨unopened, elsewhere⟩ := before place unopened
  rw [texturesAt_elsewhere elsewhere]
  exact kept.unopened place unopened

/-- A texture that is on the open stack is given the layer that it has there. -/
theorem again (kept : progress.Kept samples)
    (opened : progress.openStacks.get? place = some position)
    (found : progress.streamingStacks[position]? = some stack)
    (known : stack.layer? number = some layer)
    (entry : progress.profile.expressions.streamingTextures[number.toNat]? = some texture) :
    progress.Kept (samples ++ [⟨place, texture, position, layer⟩]) := by
  obtain ⟨_, there⟩ := kept.opened place position opened
  cases found.symm.trans there.there
  have layered := there.getElem?_openLayers (StreamingStack.getElem?_of_layer? known) entry
  obtain ⟨earlier, member, subject, slot⟩ := there.written layer texture layered
  have finds := List.mem_of_getElem? layered
  refine ⟨kept.allotted.again finds member subject slot, ?_, fun other index opened' => ?_,
    fun index other => ?_⟩
  · refine kept.unopened_concat fun other unopened => ⟨unopened, ?_⟩
    rintro rfl
    cases opened.symm.trans unopened
  · obtain ⟨entered, known⟩ := kept.opened other index opened'
    refine ⟨entered, known.concat known.there rfl ?_⟩
    by_cases here : place = other
    · subst here
      exact (congrArg openLayers (texturesAt_here samples ⟨place, texture, position, layer⟩)).trans
        (openLayers_again finds)
    · rw [texturesAt_elsewhere here]
  · rw [exists_slot_concat, kept.slots, iff_self_or]
    rintro same
    exact ⟨earlier, member, slot.trans same.symm⟩

/-- A texture that is not on the open stack is put on top if there is room. -/
theorem push (tidy : progress.Tidy graph (fun _ => True) places) (kept : progress.Kept samples)
    (opened : progress.openStacks.get? place = some position)
    (found : progress.streamingStacks[position]? = some stack)
    (new : stack.layer? number = none) (pushed : stack.push? number = some (layer, later))
    (entry : progress.profile.expressions.streamingTextures[number.toNat]? = some texture) :
    (progress.setStacks (progress.streamingStacks.set position later)).Kept
      (samples ++ [⟨place, texture, position, layer⟩]) := by
  obtain ⟨_, there⟩ := kept.opened place position opened
  cases found.symm.trans there.there
  obtain ⟨_, same, filled, located⟩ := tidy.openStacks place position opened
  cases found.symm.trans same
  obtain ⟨room, rfl, rfl⟩ := StreamingStack.push?_eq_some pushed
  have lost := there.notMem tidy.distinct new entry
  have layers : openLayers
        (texturesAt place (samples ++ [⟨place, texture, position, stack.size⟩])) =
      openLayers (texturesAt place samples) ++ [texture] :=
    (congrArg openLayers (texturesAt_here samples ⟨place, texture, position, stack.size⟩)).trans
      (openLayers_room lost (there.length_openLayers ▸ room))
  refine ⟨kept.allotted.anew lost fun earlier member slot => ?_, ?_, fun other index opened' => ?_,
    fun index other => ?_⟩
  · obtain ⟨_, found', _, inside⟩ := StreamingStack.mem_slots.mp
      ((kept.slots position stack.size).mpr ⟨earlier, member, slot⟩)
    cases found.symm.trans found'
    exact Nat.lt_irrefl _ inside
  · refine kept.unopened_concat fun other unopened => ⟨unopened, ?_⟩
    rintro rfl
    cases opened.symm.trans unopened
  · by_cases here : place = other
    · subst here
      cases opened.symm.trans opened'
      refine ⟨_, List.getElem?_set_self (List.getElem?_eq_some_iff.mp found).1, ?_, ?_⟩
      · rw [layers, List.map_append, List.map_append]
        exact congrArg₂ (· ++ ·) there.layers (congrArg (fun known => [known]) entry)
      · intro layer other layered
        rw [layers] at layered
        rcases getElem?_concat_eq_some.mp layered with layered | ⟨rfl, rfl⟩
        · obtain ⟨earlier, member, subject, slot⟩ := there.written layer other layered
          exact ⟨earlier, List.mem_append_left _ member, subject, slot⟩
        · refine ⟨_, List.mem_append_right _ (List.mem_singleton_self _), rfl, ?_⟩
          exact congrArg (position, ·) there.length_openLayers.symm
    · obtain ⟨entered, known⟩ := kept.opened other index opened'
      refine ⟨entered, known.concat ?_ rfl ?_⟩
      · have apart : position ≠ index := by
          rintro rfl
          obtain ⟨_, _, _, located'⟩ := tidy.openStacks other position opened'
          exact here (Option.some.inj (located.symm.trans located'))
        exact (List.getElem?_set_ne apart).trans known.there
      · rw [texturesAt_elsewhere here]
  · rw [exists_slot_concat, ← kept.slots]
    exact StreamingStack.mem_slots_set found filled

/-- A texture for which the open stack has no room, if there is one at all, starts a new stack. -/
theorem openStack (kept : progress.Kept samples)
    (lost : texture ∉ openLayers (texturesAt place samples))
    (full : openLayers (texturesAt place samples ++ [texture]) = [texture])
    (entry : progress.profile.expressions.streamingTextures[number.toNat]? = some texture) :
    (progress.openStack place number).2.Kept
      (samples ++ [⟨place, texture, progress.streamingStacks.length, 0⟩]) := by
  have layers := (congrArg openLayers (texturesAt_here samples
    ⟨place, texture, progress.streamingStacks.length, 0⟩)).trans full
  have opens (other : Option NodeId) : (progress.openStack place number).2.openStacks.get? other =
      if other = place then some progress.streamingStacks.length
      else progress.openStacks.get? other :=
    Table.get?_insert ..
  refine ⟨kept.allotted.anew lost fun earlier member slot => ?_, ?_, fun other index opened => ?_,
    fun index other => ?_⟩
  · obtain ⟨_, there, _⟩ := StreamingStack.mem_slots.mp
      ((kept.slots progress.streamingStacks.length 0).mpr ⟨earlier, member, slot⟩)
    exact Nat.lt_irrefl _ (List.getElem?_eq_some_iff.mp there).1
  · refine kept.unopened_concat fun other unopened => ?_
    rw [opens] at unopened
    split at unopened
    · cases unopened
    · rename_i elsewhere
      exact ⟨unopened, Ne.symm elsewhere⟩
  · rw [opens] at opened
    split at opened
    · rename_i here
      cases opened
      subst here
      refine ⟨_, List.getElem?_concat_length, ?_, ?_⟩
      · rw [layers]
        exact congrArg (fun known => [known]) entry
      · intro layer known layered
        rw [layers, List.getElem?_singleton, Option.ite_none_right_eq_some] at layered
        obtain ⟨rfl, same⟩ := layered
        cases same
        exact ⟨_, List.mem_append_right _ (List.mem_singleton_self _), rfl, rfl⟩
    · rename_i elsewhere
      obtain ⟨entered, known⟩ := kept.opened other index opened
      refine ⟨entered, known.concat (getElem?_concat_eq_some.mpr (.inl known.there)) rfl ?_⟩
      rw [texturesAt_elsewhere (Ne.symm elsewhere)]
  · rw [exists_slot_concat, ← kept.slots]
    refine StreamingStack.mem_slots_concat.trans (or_congr_right ⟨?_, ?_⟩)
    · rintro ⟨rfl, _, inside⟩
      exact congrArg _ (Nat.lt_one_iff.mp inside)
    · rintro same
      obtain ⟨rfl, rfl⟩ := Prod.mk.inj same
      exact ⟨rfl, rfl, Nat.one_pos⟩

/-- The layer that a streaming texture is given is the one it is allotted. -/
theorem addStreamingLayer (tidy : progress.Tidy graph (fun _ => True) places)
    (kept : progress.Kept samples)
    (entry : progress.profile.expressions.streamingTextures[number.toNat]? = some texture) :
    (progress.addStreamingLayer place number).2.Kept (samples ++
      [⟨place, texture, (progress.addStreamingLayer place number).1.1,
        (progress.addStreamingLayer place number).1.2⟩]) := by
  unfold Progress.addStreamingLayer
  split
  · rename_i unopened
    have none_yet := kept.unopened place unopened
    refine kept.openStack ?_ ?_ entry
    · rw [none_yet]
      exact List.not_mem_nil
    · rw [none_yet]
      rfl
  · rename_i position opened
    obtain ⟨stack, there⟩ := kept.opened place position opened
    rw [there.there]
    dsimp only
    split
    · rename_i layer known
      exact kept.again opened there.there known entry
    · rename_i new
      split
      · rename_i layer later pushed
        exact push tidy kept opened there.there new pushed entry
      · rename_i full
        have lost := there.notMem tidy.distinct new entry
        refine kept.openStack lost (openLayers_full lost ?_) entry
        rw [there.length_openLayers]
        unfold StreamingStack.push? at full
        split at full
        · cases full
        · rename_i occupied
          exact Nat.not_lt.mp occupied

end Kept

end Progress

end Lowering

end Shading
