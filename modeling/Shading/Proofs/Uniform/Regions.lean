/-
Where everything lies in a filled buffer. The sections start at whole lines and
follow one another, each with room for its entries, and they end inside of the
buffer. An entry can be read back at its own place, and a byte that is not part of
any entry is as it was before.
-/

import Shading.Proofs.Uniform.Sections

namespace Shading

namespace BufferLayout

/-- Where the sections begin, and where the last one ends. -/
def offsets (layout : BufferLayout) : List Nat :=
  [layout.vectors, layout.scalars, layout.streamingStacks, layout.textures, layout.size]

end BufferLayout

namespace ExpressionSet

/-! ### The layout -/

/-- The offsets of a layout worked out in words, whose arithmetic is modulo `2 ^ 32`. -/
def offsetWords (set : ExpressionSet) : List UInt32 :=
  [0, set.scalarsWord, set.stacksWord, set.texturesWord, set.sizeWord]

/-- Where a buffer fits into words, so do all its offsets. -/
theorem toNat_offsetWords (set : ExpressionSet) (fits : set.layout.size < UInt32.size) :
    set.offsetWords.map UInt32.toNat = set.layout.offsets := by
  rw [← set.wordLayout_eq fits]
  rfl

/-- The sections of a layout start at whole lines, one behind the other, and each has room for its
entries. -/
structure Arranged (set : ExpressionSet) (layout : BufferLayout) : Prop where
  start : layout.vectors = 0
  aligned : ∀ offset ∈ layout.offsets, 16 ∣ offset
  vectors : layout.vectors + set.vectors.length * 16 ≤ layout.scalars
  scalars : layout.scalars + set.scalars.length * 4 ≤ layout.streamingStacks
  streamingStacks : layout.streamingStacks + set.streamingStacks.length * 32 ≤ layout.textures
  textures : layout.textures + set.textureSlots * 4 ≤ layout.size

theorem arranged (set : ExpressionSet) : set.Arranged set.layout where
  start := rfl
  aligned := by
    simp only [BufferLayout.offsets, layout, lines, List.forall_mem_cons]
    exact ⟨Nat.dvd_zero 16, by omega, by omega, by omega, by omega,
      fun _ member => absurd member List.not_mem_nil⟩
  vectors := by
    simp only [layout]
    omega
  scalars := Nat.add_le_add_left (le_lines _) _
  streamingStacks := Nat.le_refl _
  textures := Nat.add_le_add_left (le_lines _) _

/-- The bytes of the entries: those that a layout has places for. -/
def Occupied (set : ExpressionSet) (layout : BufferLayout) (position : Nat) : Prop :=
  (layout.vectors ≤ position ∧ position < layout.vectors + set.vectors.length * 16) ∨
  (layout.scalars ≤ position ∧ position < layout.scalars + set.scalars.length * 4) ∨
  (layout.streamingStacks ≤ position ∧
    position < layout.streamingStacks + set.streamingStacks.length * 32) ∨
  (layout.textures ≤ position ∧ position < layout.textures + set.textureSlots * 4)

instance (set : ExpressionSet) (layout : BufferLayout) (position : Nat) :
    Decidable (set.Occupied layout position) :=
  inferInstanceAs (Decidable (_ ∨ _))

/-! ### Bytes that stay -/

theorem getElem?_overwrite_other (buffer : List UInt8) (offset : Nat) (content : List UInt8)
    (inside : offset ≤ buffer.length) {position : Nat}
    (other : position < offset ∨ offset + content.length ≤ position) :
    (overwrite buffer offset content)[position]? = buffer[position]? := by
  have taken : (buffer.take offset).length = offset := List.length_take_of_le inside
  unfold overwrite
  rcases other with before | behind
  · rw [List.append_assoc, List.getElem?_append_left (by omega), List.getElem?_take_of_lt before]
  · have front : (buffer.take offset ++ content).length = offset + content.length := by
      rw [List.length_append, taken]
    rw [List.getElem?_append_right (by omega), front, List.getElem?_drop,
      Nat.add_sub_cancel' behind]

variable {set : ExpressionSet} {source : ParameterSource} {blocks : List StackBlock}
  {buffer content : List UInt8}

/-- Filling leaves every byte alone that is not part of an entry. -/
theorem getElem?_fill_other (words : ∀ block ∈ blocks, block.length = 8)
    (filled : set.fill source blocks buffer = .ok content) {position : Nat}
    (free : ¬ set.Occupied set.layout position) : content[position]? = buffer[position]? := by
  simp only [fill] at filled
  split at filled
  · cases filled
  · rename_i sized
    split at filled
    · cases filled
    · rename_i matched
      cases filled
      have vectors := length_vectorSection set source
      have scalars := length_scalarSection set source
      have textures := length_textureSection set source
      have stacked := length_blocks blocks words
      obtain ⟨_, _, behindVectors, behindScalars, behindStacks, behindTextures⟩ := set.arranged
      unfold Occupied at free
      have first := length_overwrite buffer set.layout.vectors (set.vectorSection source) (by omega)
      have second := length_overwrite _ set.layout.scalars (set.scalarSection source)
        (by rw [first]; omega)
      have third := length_overwrite _ set.layout.streamingStacks
        (blocks.flatMap fun block => block.flatMap wordBytes) (by rw [second, first]; omega)
      rw [getElem?_overwrite_other _ _ _ (by omega) (by omega),
        getElem?_overwrite_other _ _ _ (by omega) (by omega),
        getElem?_overwrite_other _ _ _ (by omega) (by omega),
        getElem?_overwrite_other _ _ _ (by omega) (by omega)]

/-! ### Entries at their places -/

/-- The entry with an index lies at that multiple of its width in a section that holds the entries
one after another. -/
theorem excerpt_entry {α : Type} {encode : α → List UInt8} {width : Nat} {entries : List α}
    (each : ∀ entry ∈ entries, (encode entry).length = width) {offset : Nat}
    (written : excerpt content offset (entries.length * width) = entries.flatMap encode)
    {index : Nat} {entry : α} (found : entries[index]? = some entry) :
    excerpt content (offset + width * index) width = encode entry := by
  have inside : index < entries.length := (List.getElem?_eq_some_iff.mp found).1
  have room : index * width + width ≤ entries.length * width := by
    rw [← Nat.succ_mul]
    exact Nat.mul_le_mul_right width inside
  have wide := each entry (List.mem_of_getElem? found)
  rw [Nat.mul_comm width index, ← excerpt_excerpt _ _ _ room, written]
  have there : excerpt (entries.flatMap encode) (index * width + 0) width =
      excerpt (encode entry) 0 width := excerpt_flatMap encode each found (by omega)
  rw [Nat.add_zero] at there
  rw [there]
  exact List.take_of_length_le (Nat.le_of_eq wide)

/-- The textures of a set in the order of their places, as they are at the time. -/
def textureIds (set : ExpressionSet) (source : ParameterSource) : List TextureId :=
  (set.flatTextures ++ set.cubeTextures ++ set.volumeTextures ++ set.streamingTextures).map
      (fun expression => expression.evaluate source) ++
    set.externalTextures.map fun external => (source.external external).getD .null

theorem textureSection_eq (set : ExpressionSet) (source : ParameterSource) :
    set.textureSection source =
      (set.textureIds source).flatMap fun texture => wordBytes texture.number := by
  unfold textureSection textureIds
  rw [List.flatMap_append, List.flatMap_map _ _ set.externalTextures]
  rfl

theorem length_textureIds (set : ExpressionSet) (source : ParameterSource) :
    (set.textureIds source).length = set.textureSlots := by
  unfold textureIds textureSlots allTextures
  rw [List.length_append, List.length_map, List.length_map]

/-- A buffer of the right size with a block of eight words for each stack can be filled. The
sections of the layout lie inside of the buffer one behind the other, at whole lines, and their
offsets are right in words if the buffer fits into words; every entry is written at its place; and
no other byte is changed. -/
theorem fill_exact (set : ExpressionSet) (source : ParameterSource) {blocks : List StackBlock}
    {buffer : List UInt8} (sized : buffer.length = set.layout.size)
    (matched : blocks.length = set.streamingStacks.length)
    (words : ∀ block ∈ blocks, block.length = 8) :
    set.Arranged set.layout ∧
    (set.layout.size < UInt32.size → set.offsetWords.map UInt32.toNat = set.layout.offsets) ∧
    ∃ content, set.fill source blocks buffer = .ok content ∧ content.length = buffer.length ∧
      (∀ index expression, set.vectors[index]? = some expression →
        excerpt content (set.layout.vectors + 16 * index) 16 =
          (expression.evaluate source).toList.flatMap Binary32.toBytes) ∧
      (∀ index expression, set.scalars[index]? = some expression →
        excerpt content (set.layout.scalars + 4 * index) 4 =
          (expression.evaluate source).x.toBytes) ∧
      (∀ index block, blocks[index]? = some block →
        excerpt content (set.layout.streamingStacks + 32 * index) 32 = block.flatMap wordBytes) ∧
      (∀ index texture, (set.textureIds source)[index]? = some texture →
        excerpt content (set.layout.textures + 4 * index) 4 = wordBytes texture.number) ∧
      ∀ position, ¬ set.Occupied set.layout position → content[position]? = buffer[position]? := by
  refine ⟨set.arranged, set.toNat_offsetWords, ?_⟩
  obtain ⟨content, filled⟩ := set.exists_fill source sized matched
  have long : content.length = buffer.length :=
    (length_fill set source blocks words buffer content filled).trans sized.symm
  obtain ⟨vectors, scalars, stacked, textures⟩ := excerpts_fill words filled
  rw [textureSection_eq, ← set.length_textureIds source] at textures
  have wide (block : StackBlock) (member : block ∈ blocks) :
      (block.flatMap wordBytes).length = 32 := by
    rw [length_flatMap_of_forall _ 4 _ fun _ _ => length_wordBytes _, words block member]
  have four (expression : UniformExpression) (_ : expression ∈ set.vectors) :
      ((expression.evaluate source).toList.flatMap Binary32.toBytes).length = 16 :=
    length_flatMap_of_forall Binary32.toBytes 4 _ fun _ _ => rfl
  have one (expression : UniformExpression) (_ : expression ∈ set.scalars) :
      (expression.evaluate source).x.toBytes.length = 4 := rfl
  exact ⟨content, filled, long, fun _ _ found => excerpt_entry four vectors found,
    fun _ _ found => excerpt_entry one scalars found,
    fun _ _ found => excerpt_entry wide stacked found,
    fun _ _ found => excerpt_entry (fun _ _ => length_wordBytes _) textures found,
    fun _ free => getElem?_fill_other words filled free⟩

/-- Two vectors, five scalars, a stack, and three textures of different kinds. -/
def swatch : ExpressionSet where
  vectors := [.constant (.splat .one), .vectorParameter "Tint" (.splat .one)]
  scalars := List.replicate 4 (.constant (.splat .zero)) ++ [.scalarParameter "Gloss" .zero]
  flatTextures := [⟨none, ⟨3⟩, .flat⟩]
  streamingTextures := [⟨none, ⟨7⟩, .streaming⟩]
  externalTextures := [5]
  streamingStacks := [⟨[0], none⟩]

/-- Knows how glossy a material is, and nothing else. -/
def glossy : ParameterSource where
  scalar name := if name = "Gloss" then some .one else none
  vector _ := none
  texture _ := none
  external _ := none

/-- The last scalar, the block of the stack and the unresolved texture come to lie where they
belong, and the bytes that pad the scalars and the textures stay. -/
theorem swatch_filled : ∃ content,
    swatch.fill glossy [List.replicate 8 9] (List.replicate 112 170) = .ok content ∧
    excerpt content 48 4 = Binary32.one.toBytes ∧
    excerpt content 64 32 = (List.replicate 8 9).flatMap wordBytes ∧
    excerpt content 104 4 = [255, 255, 255, 255] ∧
    content[52]? = some 170 ∧ content[111]? = some 170 := by
  obtain ⟨_, _, content, filled, _, _, scalars, stacked, textures, others⟩ :=
    swatch.fill_exact glossy (show (List.replicate 112 170).length = swatch.layout.size from rfl)
      (show [List.replicate 8 9].length = swatch.streamingStacks.length from rfl)
      (List.forall_mem_singleton.mpr rfl)
  have free (position : Nat) (pads : position = 52 ∨ position = 111) :
      ¬ swatch.Occupied swatch.layout position := by
    rcases pads with rfl | rfl <;> decide
  exact ⟨content, filled, scalars 4 _ rfl, stacked 0 _ rfl, textures 2 _ rfl,
    others 52 (free 52 (.inl rfl)), others 111 (free 111 (.inr rfl))⟩

end ExpressionSet

end Shading
