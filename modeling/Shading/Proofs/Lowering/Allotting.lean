/-
Samples of streaming textures and the slots they are allotted. Only the stack
that was opened last for some coordinates is looked through before a texture is
put on it. So a texture that is sampled again is found as long as that stack is
open, and gets a further slot once a fuller stack has been left for a new one.
Which of the two happens can be told from the order of the samples alone, and
that is what is done here, without any stacks.
-/

import Mathlib
import Shading.Graph.Node
import Shading.Proofs.Lowering.Gathering

namespace Shading

namespace Lowering

/-- A streaming texture that is sampled at some coordinates, with the stack and the layer that
are written for it. -/
structure Sample where
  place : Option NodeId
  texture : TextureExpression
  stack : Nat
  layer : Nat
deriving DecidableEq

namespace Sample

def subject (sample : Sample) : Option NodeId × TextureExpression := (sample.place, sample.texture)

def slot (sample : Sample) : Nat × Nat := (sample.stack, sample.layer)

end Sample

variable {samples before earlier : List Sample} {sample : Sample} {place : Option NodeId}
  {texture : TextureExpression} {textures : List TextureExpression}

/-! ### The open stack -/

/-- The layers of the open stack after one more texture. -/
def layersWith (layers : List TextureExpression) (texture : TextureExpression) :
    List TextureExpression :=
  if texture ∈ layers then layers
  else if layers.length < StreamingStack.maxLayers then layers ++ [texture]
  else [texture]

/-- The layers of the stack that is open after textures have been sampled, one after another and
all at the same coordinates. -/
def openLayers (textures : List TextureExpression) : List TextureExpression :=
  textures.foldl layersWith []

theorem openLayers_concat (textures : List TextureExpression) (texture : TextureExpression) :
    openLayers (textures ++ [texture]) = layersWith (openLayers textures) texture :=
  List.foldl_concat ..

theorem openLayers_again (again : texture ∈ openLayers textures) :
    openLayers (textures ++ [texture]) = openLayers textures := by
  rw [openLayers_concat, layersWith, if_pos again]

theorem openLayers_room (new : texture ∉ openLayers textures)
    (room : (openLayers textures).length < StreamingStack.maxLayers) :
    openLayers (textures ++ [texture]) = openLayers textures ++ [texture] := by
  rw [openLayers_concat, layersWith, if_neg new, if_pos room]

theorem openLayers_full (new : texture ∉ openLayers textures)
    (full : StreamingStack.maxLayers ≤ (openLayers textures).length) :
    openLayers (textures ++ [texture]) = [texture] := by
  rw [openLayers_concat, layersWith, if_neg new, if_neg (Nat.not_lt.mpr full)]

/-- As long as there is room for all the different textures, the first stack stays open. -/
theorem openLayers_few (few : textures.toFinset.card ≤ StreamingStack.maxLayers) :
    (openLayers textures).Nodup ∧
      ∀ texture, texture ∈ openLayers textures ↔ texture ∈ textures := by
  induction textures using List.reverseRecOn with
  | nil => exact ⟨List.nodup_nil, fun _ => Iff.rfl⟩
  | append_singleton textures texture inductionHypothesis =>
    have fewer : textures.toFinset ⊆ (textures ++ [texture]).toFinset := fun other member =>
      List.mem_toFinset.mpr (List.mem_append_left _ (List.mem_toFinset.mp member))
    obtain ⟨distinct, same⟩ := inductionHypothesis ((Finset.card_le_card fewer).trans few)
    by_cases again : texture ∈ openLayers textures
    · rw [openLayers_again again]
      refine ⟨distinct, fun other => ?_⟩
      rw [same, List.mem_append, List.mem_singleton]
      exact ⟨.inl, fun either => either.elim id fun last => last ▸ (same texture).mp again⟩
    · have outside : texture ∉ textures.toFinset := fun member =>
        again ((same texture).mpr (List.mem_toFinset.mp member))
      have length : (openLayers textures).length = textures.toFinset.card := by
        rw [← List.toFinset_card_of_nodup distinct]
        exact congrArg Finset.card (Finset.ext fun other => by
          rw [List.mem_toFinset, List.mem_toFinset, same])
      have room : (openLayers textures).length < StreamingStack.maxLayers := by
        have more : (textures ++ [texture]).toFinset = insert texture textures.toFinset := by
          rw [List.toFinset_append, Finset.union_comm]
          rfl
        rw [more, Finset.card_insert_of_notMem outside, ← length] at few
        exact few
      rw [openLayers_room again room]
      refine ⟨List.nodup_append.mpr ⟨distinct, List.nodup_singleton texture, ?_⟩, fun other => ?_⟩
      · rintro other inside last member rfl
        exact again (List.mem_singleton.mp member ▸ inside)
      · rw [List.mem_append, List.mem_append, same]

/-! ### Coming back -/

/-- The textures that have been sampled at the given coordinates, in order. -/
def texturesAt (place : Option NodeId) (samples : List Sample) : List TextureExpression :=
  (samples.filter fun sample => sample.place = place).map Sample.texture

theorem texturesAt_here (before : List Sample) (sample : Sample) :
    texturesAt sample.place (before ++ [sample]) =
      texturesAt sample.place before ++ [sample.texture] := by
  unfold texturesAt
  rw [List.filter_append, List.filter_singleton, decide_eq_true rfl, List.map_append]
  rfl

theorem texturesAt_elsewhere (elsewhere : sample.place ≠ place) (before : List Sample) :
    texturesAt place (before ++ [sample]) = texturesAt place before := by
  unfold texturesAt
  rw [List.filter_append, List.filter_singleton, decide_eq_false elsewhere]
  exact congrArg _ (List.append_nil _)

theorem mem_texturesAt : texture ∈ texturesAt place samples ↔
    ∃ sample ∈ samples, sample.subject = (place, texture) := by
  unfold texturesAt
  rw [List.mem_map]
  constructor
  · rintro ⟨sample, member, rfl⟩
    obtain ⟨member, here⟩ := List.mem_filter.mp member
    exact ⟨sample, member, congrArg (·, sample.texture) (of_decide_eq_true here)⟩
  · rintro ⟨sample, member, same⟩
    obtain ⟨here, rfl⟩ := Prod.mk.inj same
    exact ⟨sample, List.mem_filter.mpr ⟨member, decide_eq_true here⟩, rfl⟩

/-- The sample finds its texture on the open stack. -/
def Finds (before : List Sample) (sample : Sample) : Prop :=
  sample.texture ∈ openLayers (texturesAt sample.place before)

/-- Some texture is sampled again at the same coordinates when the stack it was put on has been
left for another one. -/
def ComesBack (samples : List Sample) : Prop :=
  ∃ before sample rest, samples = before ++ sample :: rest ∧
    sample.texture ∈ texturesAt sample.place before ∧ ¬ Finds before sample

theorem not_comesBack_nil : ¬ ComesBack [] := by
  rintro ⟨before, sample, rest, split, _⟩
  exact List.append_ne_nil_of_right_ne_nil before (List.cons_ne_nil sample rest) split.symm

theorem comesBack_concat : ComesBack (samples ++ [sample]) ↔ ComesBack samples ∨
    sample.texture ∈ texturesAt sample.place samples ∧ ¬ Finds samples sample := by
  constructor
  · rintro ⟨before, other, rest, split, known, lost⟩
    rcases List.eq_nil_or_concat rest with rfl | ⟨middle, last, rfl⟩
    · obtain ⟨rfl, same⟩ := List.append_inj' split rfl
      obtain ⟨rfl, _⟩ := List.cons.inj same
      exact .inr ⟨known, lost⟩
    · rw [List.concat_eq_append, ← List.cons_append, ← List.append_assoc] at split
      obtain ⟨rfl, _⟩ := List.append_inj' split rfl
      exact .inl ⟨before, other, middle, rfl, known, lost⟩
  · rintro (⟨before, other, rest, rfl, known, lost⟩ | ⟨known, lost⟩)
    · exact ⟨before, other, rest ++ [sample], by rw [List.append_assoc]; rfl, known, lost⟩
    · exact ⟨samples, sample, [], rfl, known, lost⟩

theorem not_comesBack_of_few (few : ∀ place,
    (texturesAt place samples).toFinset.card ≤ StreamingStack.maxLayers) : ¬ ComesBack samples := by
  rintro ⟨before, sample, rest, rfl, known, lost⟩
  have fewer : (texturesAt sample.place before).toFinset ⊆
      (texturesAt sample.place (before ++ sample :: rest)).toFinset := by
    intro texture member
    obtain ⟨other, inside, same⟩ := mem_texturesAt.mp (List.mem_toFinset.mp member)
    exact List.mem_toFinset.mpr (mem_texturesAt.mpr ⟨other, List.mem_append_left _ inside, same⟩)
  have found := openLayers_few ((Finset.card_le_card fewer).trans (few sample.place))
  exact lost ((found.2 sample.texture).mpr known)

/-! ### Slots -/

/-- A sample that finds its texture is given the slot of an earlier sample of that texture at the
same coordinates, and any other sample a slot that no sample has. -/
inductive Allotted : List Sample → Prop where
  | nil : Allotted []
  | again {before : List Sample} {sample earlier : Sample} : Allotted before →
      Finds before sample → earlier ∈ before → earlier.subject = sample.subject →
      earlier.slot = sample.slot → Allotted (before ++ [sample])
  | anew {before : List Sample} {sample : Sample} : Allotted before → ¬ Finds before sample →
      (∀ earlier ∈ before, earlier.slot ≠ sample.slot) → Allotted (before ++ [sample])

/-- Samples of the same texture at the same coordinates have the same slot. -/
def Agreeing (samples : List Sample) : Prop :=
  ∀ first ∈ samples, ∀ second ∈ samples, first.subject = second.subject → first.slot = second.slot

theorem Agreeing.concat (agreeing : Agreeing samples)
    (last : ∀ earlier ∈ samples, earlier.subject = sample.subject → earlier.slot = sample.slot) :
    Agreeing (samples ++ [sample]) := by
  intro first member second member' same
  rcases List.mem_append.mp member with inside | here <;>
    rcases List.mem_append.mp member' with inside' | here'
  · exact agreeing first inside second inside' same
  · cases List.mem_singleton.mp here'
    exact last first inside same
  · cases List.mem_singleton.mp here
    exact (last second inside' same.symm).symm
  · cases List.mem_singleton.mp here
    cases List.mem_singleton.mp here'
    rfl

/-- The slots agree just if no texture comes back. -/
theorem Allotted.agreeing_iff (allotted : Allotted samples) :
    Agreeing samples ↔ ¬ ComesBack samples := by
  induction allotted with
  | nil => exact iff_of_true (fun _ member => absurd member List.not_mem_nil) not_comesBack_nil
  | @again before sample earlier _ finds member subject slot inductionHypothesis =>
    rw [comesBack_concat, or_iff_left fun back => back.2 finds, ← inductionHypothesis]
    constructor
    · exact fun agreeing first inside second inside' =>
        agreeing first (List.mem_append_left _ inside) second (List.mem_append_left _ inside')
    · intro agreeing
      refine agreeing.concat fun other inside same => ?_
      exact (agreeing other inside earlier member (same.trans subject.symm)).trans slot
  | @anew before sample _ lost fresh inductionHypothesis =>
    rw [comesBack_concat, not_or, ← inductionHypothesis]
    constructor
    · refine fun agreeing => ⟨fun first inside second inside' =>
        agreeing first (List.mem_append_left _ inside) second (List.mem_append_left _ inside'),
        fun ⟨known, _⟩ => ?_⟩
      obtain ⟨earlier, member, same⟩ := mem_texturesAt.mp known
      exact fresh earlier member (agreeing earlier (List.mem_append_left _ member) sample
        (List.mem_append_right _ (List.mem_singleton_self sample)) same)
    · rintro ⟨agreeing, new⟩
      refine agreeing.concat fun earlier member same => ?_
      exact absurd ⟨mem_texturesAt.mpr ⟨earlier, member, same⟩, lost⟩ new

/-- Where no two subjects share a slot, there are as many slots as subjects just if the slots
agree. -/
theorem card_slots_eq_iff (apart : ∀ first ∈ samples, ∀ second ∈ samples,
    first.slot = second.slot → first.subject = second.subject) :
    (samples.map Sample.slot).toFinset.card = (samples.map Sample.subject).toFinset.card ↔
      Agreeing samples := by
  let pairs : Finset ((Nat × Nat) × (Option NodeId × TextureExpression)) :=
    (samples.map fun sample => (sample.slot, sample.subject)).toFinset
  have mem_pairs {pair} : pair ∈ pairs ↔
      ∃ sample ∈ samples, (sample.slot, sample.subject) = pair := by
    rw [List.mem_toFinset, List.mem_map]
  have slots : (samples.map Sample.slot).toFinset = pairs.image Prod.fst := by
    ext slot
    simp only [List.mem_toFinset, List.mem_map, Finset.mem_image, mem_pairs]
    constructor
    · exact fun ⟨sample, member, same⟩ => ⟨_, ⟨sample, member, rfl⟩, same⟩
    · rintro ⟨_, ⟨sample, member, rfl⟩, same⟩
      exact ⟨sample, member, same⟩
  have subjects : (samples.map Sample.subject).toFinset = pairs.image Prod.snd := by
    ext subject
    simp only [List.mem_toFinset, List.mem_map, Finset.mem_image, mem_pairs]
    constructor
    · exact fun ⟨sample, member, same⟩ => ⟨_, ⟨sample, member, rfl⟩, same⟩
    · rintro ⟨_, ⟨sample, member, rfl⟩, same⟩
      exact ⟨sample, member, same⟩
  have slotted : (pairs.image Prod.fst).card = pairs.card := by
    refine Finset.card_image_iff.mpr fun first inside second inside' same => ?_
    obtain ⟨sample, member, rfl⟩ := mem_pairs.mp inside
    obtain ⟨other, member', rfl⟩ := mem_pairs.mp inside'
    exact Prod.ext same (apart sample member other member' same)
  rw [slots, subjects, slotted, eq_comm, Finset.card_image_iff]
  constructor
  · intro injective first member second member' same
    exact congrArg Prod.fst (injective (mem_pairs.mpr ⟨first, member, rfl⟩)
      (mem_pairs.mpr ⟨second, member', rfl⟩) same)
  · intro agreeing first inside second inside' same
    obtain ⟨sample, member, rfl⟩ := mem_pairs.mp inside
    obtain ⟨other, member', rfl⟩ := mem_pairs.mp inside'
    exact Prod.ext (agreeing sample member other member' same) same

end Lowering

/-! ### The slots of stacks -/

namespace StreamingStack

/-- The layers of all stacks, without those that stand for a texture laid out beforehand. -/
def slots (streamingStacks : List StreamingStack) : List (Nat × Nat) :=
  streamingStacks.zipIdx.flatMap fun entry =>
    if entry.1.preallocated = none then (List.range entry.1.size).map (entry.2, ·) else []

theorem mem_slots {streamingStacks : List StreamingStack} {position layer : Nat} :
    (position, layer) ∈ slots streamingStacks ↔
      ∃ stack, streamingStacks[position]? = some stack ∧ stack.preallocated = none ∧
        layer < stack.size := by
  unfold slots
  rw [List.mem_flatMap]
  constructor
  · rintro ⟨⟨stack, index⟩, entered, member⟩
    split at member
    · rename_i filled
      obtain ⟨other, inside, same⟩ := List.mem_map.mp member
      obtain ⟨rfl, rfl⟩ := Prod.mk.inj same
      exact ⟨stack, List.mem_zipIdx_iff_getElem?.mp entered, filled, List.mem_range.mp inside⟩
    · cases member
  · rintro ⟨stack, there, filled, inside⟩
    refine ⟨(stack, position), List.mem_zipIdx_iff_getElem?.mpr there, ?_⟩
    rw [if_pos filled]
    exact List.mem_map_of_mem (List.mem_range.mpr inside)

/-- A further stack has its own layers besides those that there are, unless it stands for a
texture laid out beforehand. -/
theorem mem_slots_concat {streamingStacks : List StreamingStack} {stack : StreamingStack}
    {position layer : Nat} : (position, layer) ∈ slots (streamingStacks ++ [stack]) ↔
      (position, layer) ∈ slots streamingStacks ∨ position = streamingStacks.length ∧
        stack.preallocated = none ∧ layer < stack.size := by
  simp only [mem_slots, getElem?_concat_eq_some]
  constructor
  · rintro ⟨other, there | ⟨last, rfl⟩, filled, inside⟩
    · exact .inl ⟨other, there, filled, inside⟩
    · exact .inr ⟨last, filled, inside⟩
  · rintro (⟨other, there, filled, inside⟩ | ⟨last, filled, inside⟩)
    · exact ⟨other, .inl there, filled, inside⟩
    · exact ⟨stack, .inr ⟨last, rfl⟩, filled, inside⟩

/-- A stack that gets a further layer has that one besides those that there are. -/
theorem mem_slots_set {streamingStacks : List StreamingStack} {stack : StreamingStack}
    {index position layer : Nat} {number : UInt32} (there : streamingStacks[index]? = some stack)
    (filled : stack.preallocated = none) : (position, layer) ∈ slots (streamingStacks.set index
        { stack with layers := stack.layers ++ [number] }) ↔
      (position, layer) ∈ slots streamingStacks ∨ (position, layer) = (index, stack.size) := by
  have inside := (List.getElem?_eq_some_iff.mp there).1
  have more : StreamingStack.size { stack with layers := stack.layers ++ [number] } =
      stack.size + 1 := List.length_append
  simp only [mem_slots]
  by_cases same : index = position
  · subst same
    rw [List.getElem?_set_self inside]
    constructor
    · rintro ⟨other, same, _, below⟩
      cases same
      rw [more] at below
      refine (Nat.lt_succ_iff_lt_or_eq.mp below).imp (fun below => ?_) fun last => ?_
      · exact ⟨stack, there, filled, below⟩
      · rw [last]
    · rintro (⟨other, known, _, below⟩ | last)
      · cases there.symm.trans known
        exact ⟨_, rfl, filled, more ▸ Nat.lt_succ_of_lt below⟩
      · cases last
        exact ⟨_, rfl, filled, more ▸ Nat.lt_succ_self _⟩
  · rw [List.getElem?_set_ne same, or_iff_left fun last => same (Prod.mk.inj last).1.symm]

theorem nodup_slots (streamingStacks : List StreamingStack) : (slots streamingStacks).Nodup := by
  refine List.nodup_flatMap.mpr ⟨fun entry _ => ?_, ?_⟩
  · split
    · exact List.nodup_range.map fun _ _ same => (Prod.mk.inj same).2
    · exact List.nodup_nil
  · have ordered : streamingStacks.zipIdx.Pairwise fun first second => first.2 ≠ second.2 := by
      have positions := List.nodup_range' (s := 0) (n := streamingStacks.length)
      rw [← List.zipIdx_map_snd] at positions
      exact List.pairwise_map.mp positions
    refine ordered.imp fun {first second} different => ?_
    intro slot member member'
    have within {entry : StreamingStack × Nat} (member : slot ∈
        if entry.1.preallocated = none then (List.range entry.1.size).map (entry.2, ·) else []) :
        slot.1 = entry.2 := by
      split at member
      · obtain ⟨layer, _, rfl⟩ := List.mem_map.mp member
        rfl
      · cases member
    exact different ((within member).symm.trans (within member'))

theorem length_slots (streamingStacks : List StreamingStack) : (slots streamingStacks).length =
    ((streamingStacks.filter fun stack => stack.preallocated = none).map size).sum := by
  have from_ (start : Nat) : ((streamingStacks.zipIdx start).flatMap fun entry =>
      if entry.1.preallocated = none then (List.range entry.1.size).map (entry.2, ·)
      else []).length =
        ((streamingStacks.filter fun stack => stack.preallocated = none).map size).sum := by
    induction streamingStacks generalizing start with
    | nil => rfl
    | cons stack rest inductionHypothesis =>
      rw [List.zipIdx_cons, List.flatMap_cons, List.length_append, inductionHypothesis]
      by_cases filled : stack.preallocated = none <;> simp [filled]
  exact from_ 0

end StreamingStack

end Shading
