/-
What is gathered while a material is lowered. Entries are kept once: whoever adds
one is told its position, and no two entries of a list are equal, in the sense in
which the list compares them. They are only added, at the ends of their lists,
and a stack gets further layers on top of the ones it has, or none at all if it
stands for a texture that is laid out beforehand. So what was once true of a
reference stays true.
-/

import Mathlib
import Shading.Lowering.Emission
import Shading.Uniform.ExpressionSet

namespace Shading

theorem getElem?_of_grown {α : Type} {entries later : List α} {position : Nat} {entry : α}
    (grown : entries <+: later) (there : entries[position]? = some entry) :
    later[position]? = some entry := by
  obtain ⟨inside, rfl⟩ := List.getElem?_eq_some_iff.mp there
  exact List.prefix_iff_getElem?.mp grown position inside

theorem getElem?_concat_eq_some {α : Type} {entries : List α} {position : Nat} {last entry : α} :
    (entries ++ [last])[position]? = some entry ↔
      entries[position]? = some entry ∨ position = entries.length ∧ entry = last := by
  rw [List.getElem?_append]
  split
  · rename_i inside
    simp [inside.ne]
  · rename_i outside
    rw [List.getElem?_eq_none (Nat.le_of_not_lt outside), List.getElem?_singleton]
    grind

namespace ExpressionSet

variable {α : Type} {equal : α → α → Bool} {entries : List α} {entry other : α}

/-! ### One list -/

theorem prefix_intern (equal : α → α → Bool) (entries : List α) (entry : α) :
    entries <+: (intern equal entries entry).2 := by
  unfold intern
  split
  · exact List.prefix_rfl
  · exact List.prefix_append _ _

/-- At the position that is told stands the entry or one that is equal to it. -/
theorem getElem?_intern (equal : α → α → Bool) (entries : List α) (entry : α) : ∃ other,
    (intern equal entries entry).2[(intern equal entries entry).1]? = some other ∧
      (other = entry ∨ equal other entry) := by
  unfold intern
  split
  · rename_i position found
    obtain ⟨inside, same, _⟩ := List.findIdx?_eq_some_iff_getElem.mp found
    exact ⟨entries[position], List.getElem?_eq_getElem inside, .inr same⟩
  · exact ⟨entry, List.getElem?_concat_length, .inl rfl⟩

theorem mem_of_mem_intern (member : other ∈ (intern equal entries entry).2) :
    other ∈ entries ∨ other = entry := by
  unfold intern at member
  split at member
  · exact .inl member
  · exact (List.mem_append.mp member).imp_right List.mem_singleton.mp

/-- An entry is an old one or the one that has just been added. -/
theorem lt_of_lt_intern {position : Nat}
    (inside : position < (intern equal entries entry).2.length) :
    position < entries.length ∨ position = (intern equal entries entry).1 := by
  unfold intern at inside ⊢
  split at inside
  · exact .inl inside
  · rw [List.length_append] at inside
    exact Nat.lt_succ_iff_lt_or_eq.mp inside

theorem pairwise_intern (distinct : entries.Pairwise fun left right => equal left right = false) :
    (intern equal entries entry).2.Pairwise fun left right => equal left right = false := by
  unfold intern
  split
  · exact distinct
  · rename_i new
    refine List.pairwise_append.mpr ⟨distinct, List.pairwise_singleton _ _, ?_⟩
    intro left inside right last
    cases List.mem_singleton.mp last
    exact List.findIdx?_eq_none_iff.mp new left inside

section Exact

variable [DecidableEq α]

theorem prefix_intern_exact :
    entries <+: (intern (fun left right => left = right) entries entry).2 :=
  prefix_intern _ _ _

theorem getElem?_intern_exact :
    (intern (fun left right => left = right) entries entry).2[
      (intern (fun left right => left = right) entries entry).1]? = some entry := by
  obtain ⟨other, there, same⟩ :=
    getElem?_intern (fun left right => decide (left = right)) entries entry
  rw [there, same.elim id of_decide_eq_true]

theorem nodup_intern (distinct : entries.Nodup) :
    (intern (fun left right => left = right) entries entry).2.Nodup := by
  refine (pairwise_intern (distinct.imp ?_)).imp ?_
  · exact fun other => decide_eq_false other
  · exact fun other => of_decide_eq_false other

end Exact

end ExpressionSet

open ExpressionSet (intern prefix_intern_exact getElem?_intern_exact mem_of_mem_intern nodup_intern)

/-! ### Growing -/

/-- A stack later on: with more layers, but only if it is one that is filled. -/
structure StreamingStack.Grows (stack later : StreamingStack) : Prop where
  preallocated : later.preallocated = stack.preallocated
  layers : stack.layers <+: later.layers
  fixed : stack.preallocated ≠ none → later = stack

theorem StreamingStack.Grows.refl (stack : StreamingStack) : stack.Grows stack :=
  ⟨rfl, List.prefix_rfl, fun _ => rfl⟩

theorem StreamingStack.Grows.trans {first second third : StreamingStack}
    (left : first.Grows second) (right : second.Grows third) : first.Grows third where
  preallocated := right.preallocated.trans left.preallocated
  layers := left.layers.trans right.layers
  fixed laid := by
    obtain rfl := left.fixed laid
    exact right.fixed laid

/-- The expressions that are single numbers, and those that are vectors. -/
def ExpressionSet.uniforms (set : ExpressionSet) (single : Bool) : List UniformExpression :=
  bif single then set.scalars else set.vectors

/-- A set of expressions later on. -/
structure ExpressionSet.Grows (set later : ExpressionSet) : Prop where
  uniforms : ∀ single, set.uniforms single <+: later.uniforms single
  textures : ∀ kind, set.textures kind <+: later.textures kind
  externalTextures : set.externalTextures <+: later.externalTextures
  collections : set.collections <+: later.collections
  streamingStacks : ∀ (position : Nat) (stack : StreamingStack), set.streamingStacks[position]? = some stack →
    ∃ other : StreamingStack, later.streamingStacks[position]? = some other ∧ stack.Grows other

namespace ExpressionSet.Grows

theorem refl (set : ExpressionSet) : set.Grows set :=
  ⟨fun _ => List.prefix_rfl, fun _ => List.prefix_rfl, List.prefix_rfl, List.prefix_rfl,
    fun _ stack there => ⟨stack, there, .refl stack⟩⟩

theorem trans {first second third : ExpressionSet} (left : first.Grows second)
    (right : second.Grows third) : first.Grows third where
  uniforms single := (left.uniforms single).trans (right.uniforms single)
  textures kind := (left.textures kind).trans (right.textures kind)
  externalTextures := left.externalTextures.trans right.externalTextures
  collections := left.collections.trans right.collections
  streamingStacks position stack there := by
    obtain ⟨middle, there, grown⟩ := left.streamingStacks position stack there
    obtain ⟨other, there, more⟩ := right.streamingStacks position middle there
    exact ⟨other, there, grown.trans more⟩

end ExpressionSet.Grows

namespace ExpressionSet

variable {set : ExpressionSet} {position : Nat} {stack later : StreamingStack}

theorem textures_setTextures (set : ExpressionSet) (kind other : TextureKind)
    (textures : List TextureExpression) :
    (set.setTextures kind textures).textures other =
      if other = kind then textures else set.textures other := by
  cases kind <;> cases other <;> rfl

theorem streamingStacks_setTextures (set : ExpressionSet) (kind : TextureKind)
    (textures : List TextureExpression) :
    (set.setTextures kind textures).streamingStacks = set.streamingStacks := by
  cases kind <;> rfl

theorem grows_setTextures {kind : TextureKind} {textures : List TextureExpression}
    (grown : set.textures kind <+: textures) : set.Grows (set.setTextures kind textures) where
  uniforms _ := by cases kind <;> exact List.prefix_rfl
  textures other := by
    rw [textures_setTextures]
    split
    · rename_i same
      exact same ▸ grown
    · exact List.prefix_rfl
  externalTextures := by cases kind <;> exact List.prefix_rfl
  collections := by cases kind <;> exact List.prefix_rfl
  streamingStacks position stack there :=
    ⟨stack, (streamingStacks_setTextures set kind textures).symm ▸ there, .refl stack⟩

theorem grows_append (set : ExpressionSet) (stack : StreamingStack) :
    set.Grows { set with streamingStacks := set.streamingStacks ++ [stack] } :=
  { Grows.refl set with
    streamingStacks := fun _ other there =>
      ⟨other, getElem?_concat_eq_some.mpr (.inl there), .refl other⟩ }

theorem grows_setStack (there : set.streamingStacks[position]? = some stack)
    (grown : stack.Grows later) :
    set.Grows { set with streamingStacks := set.streamingStacks.set position later } :=
  { Grows.refl set with
    streamingStacks := fun index other known => by
      by_cases same : position = index
      · subst same
        obtain rfl := Option.some.inj (there.symm.trans known)
        exact ⟨later, List.getElem?_set_self (List.getElem?_eq_some_iff.mp there).1, grown⟩
      · exact ⟨other, (List.getElem?_set_ne same).trans known, .refl other⟩ }

end ExpressionSet

namespace Lowering

/-- Entries, and for each stack the coordinates that the textures in it are read at. For a stack
that stands for one texture laid out beforehand that is of no concern. -/
structure Gathered where
  entries : ExpressionSet
  coordinates : List (Option NodeId)

namespace Gathered

structure Grows (gathered later : Gathered) : Prop where
  entries : gathered.entries.Grows later.entries
  coordinates : gathered.coordinates <+: later.coordinates

theorem Grows.refl (gathered : Gathered) : gathered.Grows gathered :=
  ⟨.refl _, List.prefix_rfl⟩

theorem Grows.trans {first second third : Gathered} (left : first.Grows second)
    (right : second.Grows third) : first.Grows third :=
  ⟨left.entries.trans right.entries, left.coordinates.trans right.coordinates⟩

/-- A layer of a stack holds a texture that is read at the coordinates of that stack. -/
def Holds (gathered : Gathered) (coordinates : Option NodeId) (texture : TextureExpression)
    (position layer : Nat) : Prop :=
  ∃ stack number, gathered.entries.streamingStacks[position]? = some stack ∧
    stack.preallocated = none ∧ gathered.coordinates[position]? = some coordinates ∧
    stack.layers[layer]? = some number ∧
    gathered.entries.streamingTextures[number.toNat]? = some texture

/-- A stack stands for a texture laid out beforehand. -/
def HoldsAlone (gathered : Gathered) (texture : TextureExpression) (position : Nat) : Prop :=
  ∃ number, gathered.entries.streamingStacks[position]? = some (.ofPreallocated number) ∧
    gathered.entries.streamingTextures[number.toNat]? = some texture

variable {gathered later : Gathered} {coordinates : Option NodeId} {texture : TextureExpression}
  {position layer : Nat}

theorem Grows.holds (grows : gathered.Grows later)
    (holds : gathered.Holds coordinates texture position layer) :
    later.Holds coordinates texture position layer := by
  obtain ⟨stack, number, there, open_, place, layered, entry⟩ := holds
  obtain ⟨other, there, grown⟩ := grows.entries.streamingStacks position stack there
  exact ⟨other, number, there, grown.preallocated.trans open_,
    getElem?_of_grown grows.coordinates place, getElem?_of_grown grown.layers layered,
    getElem?_of_grown (grows.entries.textures .streaming) entry⟩

theorem Grows.holdsAlone (grows : gathered.Grows later)
    (holds : gathered.HoldsAlone texture position) : later.HoldsAlone texture position := by
  obtain ⟨number, there, entry⟩ := holds
  obtain ⟨other, there, grown⟩ := grows.entries.streamingStacks position _ there
  obtain rfl := grown.fixed (Option.some_ne_none number)
  exact ⟨number, there, getElem?_of_grown (grows.entries.textures .streaming) entry⟩

end Gathered

end Lowering

end Shading
