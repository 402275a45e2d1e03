/-
What a filled buffer holds. Every section of the layout is as long as what is
written there or a little longer, so filling writes inside the buffer and leaves
it as long as it was. Each section is written once, and whatever is written
after it lies behind it. So the sections of a filled buffer can be read back,
whatever the streaming stacks are and whatever the buffer held before.
-/

import Shading.Uniform.ExpressionSet

namespace Shading.ExpressionSet

/-! ### Lengths of the sections -/

theorem length_flatMap_of_forall {α : Type} (encode : α → List UInt8) (width : Nat)
    (entries : List α) (each : ∀ entry ∈ entries, (encode entry).length = width) :
    (entries.flatMap encode).length = entries.length * width := by
  induction entries with
  | nil => simp
  | cons entry rest inductionHypothesis =>
    rw [List.flatMap_cons, List.length_append, each entry List.mem_cons_self,
      inductionHypothesis fun other member => each other (List.mem_cons_of_mem _ member),
      List.length_cons, Nat.succ_mul, Nat.add_comm]

theorem length_wordBytes (word : UInt32) : (wordBytes word).length = 4 :=
  Stream.length_littleEndian 4 _

theorem length_vectorSection (set : ExpressionSet) (source : ParameterSource) :
    (set.vectorSection source).length = set.vectors.length * 16 :=
  length_flatMap_of_forall _ 16 _ fun _ _ =>
    length_flatMap_of_forall Binary32.toBytes 4 _ fun _ _ => rfl

theorem length_scalarSection (set : ExpressionSet) (source : ParameterSource) :
    (set.scalarSection source).length = set.scalars.length * 4 :=
  length_flatMap_of_forall _ 4 _ fun _ _ => rfl

theorem length_textureSection (set : ExpressionSet) (source : ParameterSource) :
    (set.textureSection source).length = set.textureSlots * 4 := by
  unfold textureSection
  rw [List.length_append, length_flatMap_of_forall _ 4 _ fun _ _ => length_wordBytes _,
    length_flatMap_of_forall _ 4 _ fun _ _ => length_wordBytes _, List.length_map,
    ← Nat.add_mul]
  rfl

theorem length_blocks (blocks : List StackBlock) (words : ∀ block ∈ blocks, block.length = 8) :
    (blocks.flatMap fun block => block.flatMap wordBytes).length = blocks.length * 32 := by
  refine length_flatMap_of_forall _ 32 _ fun block member => ?_
  rw [length_flatMap_of_forall _ 4 _ fun _ _ => length_wordBytes _, words block member]

theorem le_lines (words : Nat) : words * 4 ≤ lines words := by
  unfold lines
  omega

/-! ### The layout in words -/

/-- In words an offset is what it would be, but modulo `2 ^ 32`. -/
theorem wordLayout_eq_mod (set : ExpressionSet) : set.wordLayout =
    ⟨0, set.layout.scalars % UInt32.size, set.layout.streamingStacks % UInt32.size,
      set.layout.textures % UInt32.size, set.layout.size % UInt32.size⟩ := by
  simp only [wordLayout, sizeWord, texturesWord, stacksWord, scalarsWord, lineWords, layout, lines,
    UInt32.toNat_add, UInt32.toNat_mul, UInt32.toNat_ofNat', UInt32.reduceToNat, UInt32.size,
    BufferLayout.mk.injEq, true_and]
  refine ⟨?_, ?_, ?_, ?_⟩ <;> omega

/-- Where a buffer fits into words, the layout in words is the right one. -/
theorem wordLayout_eq (set : ExpressionSet) (fits : set.layout.size < UInt32.size) :
    set.wordLayout = set.layout := by
  have ordered : set.layout.scalars ≤ set.layout.streamingStacks ∧
      set.layout.streamingStacks ≤ set.layout.textures ∧ set.layout.textures ≤ set.layout.size :=
    ⟨Nat.le_add_right _ _, Nat.le_add_right _ _, Nat.le_add_right _ _⟩
  rw [wordLayout_eq_mod, Nat.mod_eq_of_lt (by omega), Nat.mod_eq_of_lt (by omega),
    Nat.mod_eq_of_lt (by omega), Nat.mod_eq_of_lt fits]
  rfl

theorem firstOutside_eq_none {size offset width count : Nat} (wide : 0 < width) :
    firstOutside size offset width count = none ↔ count * width ≤ size - offset := by
  unfold firstOutside
  dsimp only
  rw [← Nat.le_div_iff_mul_le wide, ite_eq_right_iff]
  constructor
  · exact fun none => Nat.le_of_not_lt fun less => nomatch none less
  · exact fun le less => absurd less (Nat.not_lt_of_le le)

/-- Every entry has a place just if the buffer fits into words. An offset that is too large for a
word is the first one to be so, so that what lies before it is more than a buffer can hold whose
size is a word. -/
theorem overrun_eq_none (set : ExpressionSet) :
    set.overrun = none ↔ set.layout.size < UInt32.size := by
  simp (disch := decide) only [overrun, Option.orElse_eq_orElse, Option.orElse_eq_or,
    Option.or_eq_none_iff, firstOutside_eq_none, wordLayout_eq_mod, layout, lines, UInt32.size]
  constructor
  · rintro ⟨vectors, scalars, streamingStacks, textures⟩
    omega
  · exact fun fits => ⟨by omega, by omega, by omega, by omega⟩

theorem fillInWords_eq_ok {set : ExpressionSet} {source : ParameterSource}
    {blocks : List StackBlock} {buffer content : List UInt8} :
    set.fillInWords source blocks buffer = .ok content ↔
      set.layout.size < UInt32.size ∧ set.fill source blocks buffer = .ok content := by
  rw [← overrun_eq_none]
  unfold fillInWords
  cases set.overrun with
  | none => exact ⟨fun filled => ⟨rfl, filled⟩, And.right⟩
  | some stop => exact ⟨nofun, fun ⟨inside, _⟩ => nomatch inside⟩

/-! ### Length of the buffer -/

theorem length_overwrite (buffer : List UInt8) (offset : Nat) (content : List UInt8)
    (inside : offset + content.length ≤ buffer.length) :
    (overwrite buffer offset content).length = buffer.length := by
  simp only [overwrite, List.length_append, List.length_take, List.length_drop]
  omega

/-- A buffer that was filled has the size of the layout. -/
theorem length_fill (set : ExpressionSet) (source : ParameterSource) (blocks : List StackBlock)
    (words : ∀ block ∈ blocks, block.length = 8) (buffer content : List UInt8)
    (filled : set.fill source blocks buffer = .ok content) :
    content.length = set.layout.size := by
  simp only [fill] at filled
  by_cases sized : buffer.length = set.layout.size
  · by_cases matched : blocks.length = set.streamingStacks.length
    · rw [if_neg (not_not_intro sized), if_neg (not_not_intro matched)] at filled
      cases filled
      have vectors := length_vectorSection set source
      have scalars := length_scalarSection set source
      have textures := length_textureSection set source
      have stacked := length_blocks blocks words
      have scalarLines := le_lines set.scalars.length
      have textureLines := le_lines set.textureSlots
      simp only [layout] at sized ⊢
      have first := length_overwrite buffer 0 (set.vectorSection source) (by omega)
      have second := length_overwrite _ (set.vectors.length * 16) (set.scalarSection source)
        (by rw [first]; omega)
      have third := length_overwrite _ (set.vectors.length * 16 + lines set.scalars.length)
        (blocks.flatMap fun block => block.flatMap wordBytes) (by rw [second, first]; omega)
      rw [length_overwrite _ _ _ (by rw [third, second, first]; omega), third, second, first,
        sized]
    · rw [if_neg (not_not_intro sized), if_pos matched] at filled
      cases filled
  · rw [if_pos sized] at filled
    cases filled

/-! ### Reading a part of a buffer -/

/-- The bytes of a buffer from an offset on, as many as are asked for. -/
def excerpt (buffer : List UInt8) (offset length : Nat) : List UInt8 :=
  (buffer.drop offset).take length

theorem excerpt_overwrite (buffer : List UInt8) (offset : Nat) (content : List UInt8)
    (inside : offset ≤ buffer.length) :
    excerpt (overwrite buffer offset content) offset content.length = content := by
  have before : (buffer.take offset).length = offset := List.length_take_of_le inside
  unfold excerpt overwrite
  rw [List.append_assoc, List.drop_left' before, List.take_left]

/-- What lies before the bytes that are written stays. -/
theorem excerpt_overwrite_other (buffer : List UInt8) (offset : Nat) (content : List UInt8)
    (inside : offset ≤ buffer.length) {position length : Nat}
    (before : position + length ≤ offset) :
    excerpt (overwrite buffer offset content) position length = excerpt buffer position length := by
  have taken : (buffer.take offset).length = offset := List.length_take_of_le inside
  unfold excerpt overwrite
  rw [List.take_drop, List.take_drop, List.append_assoc,
    List.take_append_of_le_length (by rw [taken]; exact before), List.take_take,
    Nat.min_eq_left before]

theorem excerpt_excerpt (buffer : List UInt8) (offset outer : Nat) {position length : Nat}
    (inside : position + length ≤ outer) :
    excerpt (excerpt buffer offset outer) position length =
      excerpt buffer (offset + position) length := by
  unfold excerpt
  rw [List.drop_take, List.drop_drop, List.take_take, Nat.min_eq_left (by omega)]

/-- Entries of one width lie at the multiples of it. -/
theorem excerpt_flatMap {α : Type} (encode : α → List UInt8) {width : Nat} {entries : List α}
    (each : ∀ entry ∈ entries, (encode entry).length = width) {index : Nat} {entry : α}
    (found : entries[index]? = some entry) {position length : Nat}
    (inside : position + length ≤ width) :
    excerpt (entries.flatMap encode) (index * width + position) length =
      excerpt (encode entry) position length := by
  induction entries generalizing index with
  | nil => cases found
  | cons first rest inductionHypothesis =>
    have long := each first List.mem_cons_self
    rw [List.flatMap_cons]
    cases index with
    | zero =>
      cases found
      unfold excerpt
      rw [Nat.zero_mul, Nat.zero_add, List.drop_append_of_le_length (by omega),
        List.take_append_of_le_length (by rw [List.length_drop]; omega)]
    | succ index =>
      rw [← inductionHypothesis (fun other member => each other (List.mem_cons_of_mem _ member))
        found]
      unfold excerpt
      rw [Nat.succ_mul, Nat.add_right_comm, Nat.add_comm _ width, ← List.drop_drop,
        List.drop_left' long]

/-! ### The sections of a buffer -/

/-- What a buffer holds for the vectors, the scalars and the textures. The streaming stacks and
the bytes that pad a section are left out. -/
structure Sections where
  vectors : List UInt8
  scalars : List UInt8
  textures : List UInt8
deriving DecidableEq

def sectionsOf (set : ExpressionSet) (buffer : List UInt8) : Sections where
  vectors := excerpt buffer set.layout.vectors (set.vectors.length * 16)
  scalars := excerpt buffer set.layout.scalars (set.scalars.length * 4)
  textures := excerpt buffer set.layout.textures (set.textureSlots * 4)

/-- The sections that are written for the parameters of a source. -/
def written (set : ExpressionSet) (source : ParameterSource) : Sections where
  vectors := set.vectorSection source
  scalars := set.scalarSection source
  textures := set.textureSection source

/-- The bytes of the block of one streaming stack but for its first word, which numbers an
allocation. -/
def stackBytes (set : ExpressionSet) (buffer : List UInt8) (index : Nat) : List UInt8 :=
  excerpt buffer (set.layout.streamingStacks + (index * 32 + 4)) 28

/-- Where buffers that were filled alike may differ: in the bytes that pad the scalars and the
textures to whole lines, and in the first word of the block of each stack. -/
def Loose (set : ExpressionSet) (position : Nat) : Prop :=
  (set.layout.scalars + set.scalars.length * 4 ≤ position ∧
    position < set.layout.streamingStacks) ∨
  (set.layout.streamingStacks ≤ position ∧ position < set.layout.textures ∧
    (position - set.layout.streamingStacks) % 32 < 4) ∨
  set.layout.textures + set.textureSlots * 4 ≤ position

theorem getElem?_of_excerpt {first second : List UInt8} {offset length : Nat}
    (same : excerpt first offset length = excerpt second offset length) {position : Nat}
    (least : offset ≤ position) (most : position < offset + length) :
    first[position]? = second[position]? := by
  have inside : position - offset < length := by omega
  have there : offset + (position - offset) = position := by omega
  have read := congrArg (·[position - offset]?) same
  unfold excerpt at read
  rwa [List.getElem?_take_of_lt inside, List.getElem?_take_of_lt inside, List.getElem?_drop,
    List.getElem?_drop, there] at read

/-- Elsewhere they hold the same bytes. -/
theorem getElem?_of_sections {set : ExpressionSet} {first second : List UInt8}
    (same : set.sectionsOf first = set.sectionsOf second)
    (blocks : ∀ index < set.streamingStacks.length,
      set.stackBytes first index = set.stackBytes second index)
    {position : Nat} (fixed : ¬ set.Loose position) : first[position]? = second[position]? := by
  have vectors : _ → _ → first[position]? = second[position]? :=
    getElem?_of_excerpt (congrArg Sections.vectors same)
  have scalars : _ → _ → first[position]? = second[position]? :=
    getElem?_of_excerpt (congrArg Sections.scalars same)
  have textures : _ → _ → first[position]? = second[position]? :=
    getElem?_of_excerpt (congrArg Sections.textures same)
  have stacked := fun inside (least : _ ≤ position) => getElem?_of_excerpt
    (blocks ((position - set.layout.streamingStacks) / 32) inside) least
  unfold Loose at fixed
  simp only [layout] at vectors scalars textures stacked fixed
  by_cases early : position < set.vectors.length * 16
  · exact vectors (Nat.zero_le _) (by omega)
  · by_cases scalar : position < set.vectors.length * 16 + lines set.scalars.length
    · exact scalars (by omega) (by omega)
    · by_cases stack : position < set.vectors.length * 16 + lines set.scalars.length +
          set.streamingStacks.length * 32
      · exact stacked (by omega) (by omega) (by omega)
      · exact textures (by omega) (by omega)

section Filled

variable {set : ExpressionSet} {source : ParameterSource} {blocks : List StackBlock}
  {buffer content : List UInt8}

/-- Each section is looked for behind those that are written later. -/
theorem excerpts_fill (words : ∀ block ∈ blocks, block.length = 8)
    (filled : set.fill source blocks buffer = .ok content) :
    excerpt content set.layout.vectors (set.vectors.length * 16) = set.vectorSection source ∧
    excerpt content set.layout.scalars (set.scalars.length * 4) = set.scalarSection source ∧
    excerpt content set.layout.streamingStacks (blocks.length * 32) =
      (blocks.flatMap fun block => block.flatMap wordBytes) ∧
    excerpt content set.layout.textures (set.textureSlots * 4) = set.textureSection source := by
  simp only [fill] at filled
  split at filled
  · cases filled
  · rename_i sized
    split at filled
    · cases filled
    · rename_i matched
      cases filled
      have vectors := length_vectorSection set source
      have scalars := length_scalarSection set source
      have textures := length_textureSection set source
      have stacked := length_blocks blocks words
      have scalarLines := le_lines set.scalars.length
      have textureLines := le_lines set.textureSlots
      simp only [layout] at sized ⊢
      have first := length_overwrite buffer 0 (set.vectorSection source) (by omega)
      have second := length_overwrite _ (set.vectors.length * 16) (set.scalarSection source)
        (by rw [first]; omega)
      have third := length_overwrite _ (set.vectors.length * 16 + lines set.scalars.length)
        (blocks.flatMap fun block => block.flatMap wordBytes) (by rw [second, first]; omega)
      refine ⟨?_, ?_, ?_, ?_⟩
      · rw [excerpt_overwrite_other _ _ _ (by omega) (by omega),
          excerpt_overwrite_other _ _ _ (by omega) (by omega),
          excerpt_overwrite_other _ _ _ (by omega) (by omega), ← vectors]
        exact excerpt_overwrite _ _ _ (by omega)
      · rw [excerpt_overwrite_other _ _ _ (by omega) (by omega),
          excerpt_overwrite_other _ _ _ (by omega) (by omega), ← scalars]
        exact excerpt_overwrite _ _ _ (by omega)
      · rw [excerpt_overwrite_other _ _ _ (by omega) (by omega), ← stacked]
        exact excerpt_overwrite _ _ _ (by omega)
      · rw [← textures]
        exact excerpt_overwrite _ _ _ (by omega)

/-- Filling writes whatever the parameters ask for. -/
theorem sectionsOf_fill (words : ∀ block ∈ blocks, block.length = 8)
    (filled : set.fill source blocks buffer = .ok content) :
    set.sectionsOf content = set.written source := by
  obtain ⟨vectors, scalars, _, textures⟩ := excerpts_fill words filled
  unfold sectionsOf written
  rw [vectors, scalars, textures]

/-- And it writes the block of every stack. -/
theorem stackBytes_fill (words : ∀ block ∈ blocks, block.length = 8)
    (filled : set.fill source blocks buffer = .ok content) {index : Nat} {number : UInt32}
    {rest : List UInt32} (found : blocks[index]? = some (number :: rest)) :
    set.stackBytes content index = rest.flatMap wordBytes := by
  obtain ⟨_, _, written, _⟩ := excerpts_fill words filled
  obtain ⟨within, same⟩ := List.getElem?_eq_some_iff.mp found
  have seven : rest.length = 7 :=
    Nat.succ.inj (words _ (List.mem_of_getElem? found))
  have wide (block : StackBlock) (member : block ∈ blocks) :
      (block.flatMap wordBytes).length = 32 := by
    rw [length_flatMap_of_forall _ 4 _ fun _ _ => length_wordBytes _, words block member]
  have long : (rest.flatMap wordBytes).length = 28 := by
    rw [length_flatMap_of_forall _ 4 _ fun _ _ => length_wordBytes _, seven]
  unfold stackBytes
  rw [← excerpt_excerpt _ _ (blocks.length * 32) (by omega), written,
    excerpt_flatMap _ wide found (by omega)]
  unfold excerpt
  rw [List.flatMap_cons, List.drop_left' (length_wordBytes number), List.take_of_length_le]
  exact Nat.le_of_eq long

end Filled

/-- A buffer of the right size can be filled, given a block for each stack. -/
theorem exists_fill (set : ExpressionSet) (source : ParameterSource) {blocks : List StackBlock}
    {buffer : List UInt8} (sized : buffer.length = set.layout.size)
    (matched : blocks.length = set.streamingStacks.length) :
    ∃ content, set.fill source blocks buffer = .ok content := by
  unfold fill
  dsimp only
  rw [if_neg (not_not_intro sized), if_neg (not_not_intro matched)]
  exact ⟨_, rfl⟩

end Shading.ExpressionSet
