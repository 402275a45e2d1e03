/-
Byte streams that can be read back. An encoder is legible if its bytes tell what
the value means, and where they end, whatever follows them. So streams put
together from legible parts are equal only if all their parts mean the same.
Lengths are written in eight bytes, and hence this is about streams that are no
longer than such a length can say.
-/

import Mathlib
import Shading.Digest.Stream

namespace Shading

namespace Utf8

theorem toByteArray_eq (text : String) : text.toByteArray = (encode text).toByteArray := by
  show text.toByteArray = text.toList.utf8Encode
  rw [← String.toByteArray_ofList, String.ofList_toList]

theorem encode_injective {left right : String} (same : encode left = encode right) :
    left = right := by
  rw [← String.toByteArray_inj, toByteArray_eq, toByteArray_eq, same]

end Utf8

namespace Stream

variable {α β γ : Type} {encode : α → List UInt8} {meaning : α → β}

/-- Whatever follows, the bytes of a value tell what it means and where they end. -/
def Legible (encode : α → List UInt8) (meaning : α → β) : Prop :=
  ∀ ⦃left right : α⦄ ⦃after after' : List UInt8⦄, (encode left ++ after).length < 2 ^ 64 →
    encode left ++ after = encode right ++ after' → meaning left = meaning right ∧ after = after'

namespace Legible

/-- What tells values apart may stand for the values. -/
theorem faithful (legible : Legible encode meaning) (injective : ∀ left right,
    meaning left = meaning right → left = right) : Legible encode id := by
  intro left right after after' short same
  exact (legible short same).imp_left (injective left right)

/-- A part of a value is told as well as the part itself. -/
theorem on (legible : Legible encode meaning) (part : γ → α) :
    Legible (fun value => encode (part value)) fun value => meaning (part value) :=
  fun _ _ _ _ short same => legible short same

/-- What comes first is told, and what follows it is a shorter stream. -/
theorem next (legible : Legible encode meaning) {left right : α} {after after' : List UInt8}
    (short : (encode left ++ after).length < 2 ^ 64)
    (same : encode left ++ after = encode right ++ after') :
    meaning left = meaning right ∧ after.length < 2 ^ 64 ∧ after = after' := by
  obtain ⟨told, rest⟩ := legible short same
  rw [List.length_append] at short
  exact ⟨told, Nat.lt_of_le_of_lt (Nat.le_add_left _ _) short, rest⟩

theorem read {encode : α → List UInt8} (legible : Legible encode id) {left right : α}
    {after after' : List UInt8} (short : (encode left ++ after).length < 2 ^ 64)
    (same : encode left ++ after = encode right ++ after') :
    left = right ∧ after.length < 2 ^ 64 ∧ after = after' :=
  legible.next short same

theorem append {encode' : α → List UInt8} {meaning' : α → γ} (first : Legible encode meaning)
    (second : Legible encode' meaning') :
    Legible (fun value => encode value ++ encode' value)
      fun value => (meaning value, meaning' value) := by
  intro left right after after' short same
  rw [List.append_assoc] at short
  rw [List.append_assoc, List.append_assoc] at same
  obtain ⟨here, short, same⟩ := first.next short same
  obtain ⟨there, same⟩ := second short same
  exact ⟨Prod.ext here there, same⟩

/-- Streams of which nothing follows. -/
theorem eq_of_eq (legible : Legible encode meaning) {left right : α}
    (short : (encode left).length < 2 ^ 64) (same : encode left = encode right) :
    meaning left = meaning right := by
  refine (@legible left right [] [] ?_ ?_).1
  · rwa [List.append_nil]
  · rw [same]

end Legible

/-- Where both sides begin with the same bytes, they tell nothing. -/
theorem drop_front {front after after' : List UInt8} (short : (front ++ after).length < 2 ^ 64)
    (same : front ++ after = front ++ after') : after.length < 2 ^ 64 ∧ after = after' := by
  rw [List.length_append] at short
  exact ⟨Nat.lt_of_le_of_lt (Nat.le_add_left _ _) short, List.append_cancel_left same⟩

/-- The byte in front of a stream. -/
theorem tag_eq_of_head? {left right : List UInt8} {tag tag' : Nat} (same : left = right)
    (first : left.head? = some (UInt8.ofNat tag)) (fits : tag < 256)
    (second : right.head? = some (UInt8.ofNat tag')) (fits' : tag' < 256) : tag = tag' := by
  rw [same, second] at first
  have bytes := congrArg UInt8.toNat (Option.some.inj first)
  rw [UInt8.toNat_ofNat_of_lt' fits, UInt8.toNat_ofNat_of_lt' fits'] at bytes
  exact bytes.symm

/-! ### Numbers -/

theorem littleEndian_injective {width left right : Nat}
    (same : littleEndian width left = littleEndian width right) :
    left % 256 ^ width = right % 256 ^ width := by
  induction width generalizing left right with
  | zero => rw [Nat.pow_zero, Nat.mod_one, Nat.mod_one]
  | succ width inductionHypothesis =>
    obtain ⟨low, high⟩ := List.cons.inj same
    have low : left % 256 = right % 256 := congrArg UInt8.toNat low
    rw [Nat.pow_succ', Nat.mod_mul, Nat.mod_mul, low, inductionHypothesis high]

/-- Numbers that their width has room for. -/
theorem littleEndian_append_inj {width left right : Nat} {after after' : List UInt8}
    (fits : left < 256 ^ width) (fits' : right < 256 ^ width)
    (same : littleEndian width left ++ after = littleEndian width right ++ after') :
    left = right ∧ after = after' := by
  have widths : (littleEndian width left).length = (littleEndian width right).length := by
    rw [length_littleEndian, length_littleEndian]
  obtain ⟨same, rest⟩ := List.append_inj same widths
  have number := littleEndian_injective same
  rw [Nat.mod_eq_of_lt fits, Nat.mod_eq_of_lt fits'] at number
  exact ⟨number, rest⟩

theorem legible_number {number : α → Nat} {width : Nat}
    (fits : ∀ value, number value < 256 ^ width) :
    Legible (fun value => littleEndian width (number value)) number :=
  fun left right _ _ _ same => littleEndian_append_inj (fits left) (fits right) same

theorem legible_byte {code : α → Nat} (fits : ∀ value, code value < 256)
    (injective : ∀ left right, code left = code right → left = right) :
    Legible (fun value => byte (code value)) id :=
  (legible_number fits).faithful injective

theorem legible_word : Legible (fun value : UInt32 => word value.toNat) id :=
  (legible_number UInt32.toNat_lt).faithful fun _ _ => UInt32.toNat_inj.mp

theorem legible_longWord : Legible (fun value : UInt64 => longWord value.toNat) id :=
  (legible_number UInt64.toNat_lt).faithful fun _ _ => UInt64.toNat_inj.mp

theorem legible_bool : Legible bool id :=
  legible_byte (by decide) (by decide)

theorem legible_single : Legible single id :=
  (legible_word.on Binary32.bits).faithful fun ⟨_⟩ ⟨_⟩ same => congrArg Binary32.mk same

/-! ### Texts and lists -/

theorem legible_bytes : Legible bytes id := by
  intro left right after after' short same
  have lengths := congrArg List.length same
  unfold bytes at short same lengths
  rw [List.append_assoc] at short
  rw [List.append_assoc, List.append_assoc] at same
  simp only [List.length_append, longWord, length_littleEndian] at short lengths
  obtain ⟨size, rest⟩ := littleEndian_append_inj (by omega) (by omega) same
  exact List.append_inj rest size

theorem legible_text : Legible text id :=
  (legible_bytes.on Utf8.encode).faithful fun _ _ => Utf8.encode_injective

theorem length_le_flatMap (filled : ∀ entry, encode entry ≠ []) (entries : List α) :
    entries.length ≤ (entries.flatMap encode).length := by
  induction entries with
  | nil => exact Nat.le_refl 0
  | cons entry rest inductionHypothesis =>
    rw [List.flatMap_cons, List.length_append, List.length_cons, Nat.add_comm]
    exact Nat.add_le_add (List.length_pos_iff.mpr (filled entry)) inductionHypothesis

/-- As many entries on both sides, one after another. -/
theorem map_eq_of_flatMap (legible : Legible encode meaning) {left right : List α}
    {after after' : List UInt8} (sizes : left.length = right.length)
    (short : (left.flatMap encode ++ after).length < 2 ^ 64)
    (same : left.flatMap encode ++ after = right.flatMap encode ++ after') :
    left.map meaning = right.map meaning ∧ after = after' := by
  induction left generalizing right with
  | nil =>
    obtain rfl := List.eq_nil_of_length_eq_zero sizes.symm
    exact ⟨rfl, same⟩
  | cons entry rest inductionHypothesis =>
    cases right with
    | nil => cases sizes
    | cons other others =>
      rw [List.flatMap_cons, List.append_assoc] at short same
      rw [List.flatMap_cons, List.append_assoc] at same
      obtain ⟨here, short, same⟩ := legible.next short same
      obtain ⟨there, same⟩ := inductionHypothesis (Nat.succ.inj sizes) short same
      exact ⟨List.cons_eq_cons.mpr ⟨here, there⟩, same⟩

theorem Legible.list (legible : Legible encode meaning) (filled : ∀ entry, encode entry ≠ []) :
    Legible (list encode) (List.map meaning) := by
  intro left right after after' short same
  have lengths := congrArg List.length same
  unfold Stream.list at short same lengths
  rw [List.append_assoc] at short
  rw [List.append_assoc, List.append_assoc] at same
  have fewer := length_le_flatMap filled left
  have fewer' := length_le_flatMap filled right
  simp only [List.length_append, longWord, length_littleEndian] at short lengths
  obtain ⟨size, rest⟩ := littleEndian_append_inj (by omega) (by omega) same
  refine map_eq_of_flatMap legible size ?_ rest
  rw [List.length_append]
  omega

/-- Lists whose entries mean the same have one stream, if what an entry means has its stream. -/
theorem list_eq_of_map {meaning : α → α} (told : ∀ entry, encode (meaning entry) = encode entry)
    {left right : List α} (same : left.map meaning = right.map meaning) :
    list encode left = list encode right := by
  have replaced (entries : List α) : list encode (entries.map meaning) = list encode entries := by
    unfold list
    rw [List.length_map, List.flatMap_map, funext told]
  rw [← replaced left, same, replaced right]

/-! ### Lengths that fit

A stream as a whole may also be longer, if each length in it is one that eight bytes can say. -/

theorem text_append_inj {first second : String} {after after' : List UInt8}
    (fits : (Utf8.encode first).length < 2 ^ 64) (fits' : (Utf8.encode second).length < 2 ^ 64)
    (same : text first ++ after = text second ++ after') : first = second ∧ after = after' := by
  unfold text bytes at same
  rw [List.append_assoc, List.append_assoc] at same
  obtain ⟨size, same⟩ := littleEndian_append_inj fits fits' same
  exact (List.append_inj same size).imp_left Utf8.encode_injective

/-- As many entries on both sides, each of which is told wherever it fits. -/
theorem flatMap_append_inj {Fits : α → Prop} {left right : List α} {after after' : List UInt8}
    (told : ∀ ⦃first second : α⦄ ⦃rest rest' : List UInt8⦄, Fits first → Fits second →
      encode first ++ rest = encode second ++ rest' →
        meaning first = meaning second ∧ rest = rest')
    (sizes : left.length = right.length) (fits : ∀ entry ∈ left, Fits entry)
    (fits' : ∀ entry ∈ right, Fits entry)
    (same : left.flatMap encode ++ after = right.flatMap encode ++ after') :
    left.map meaning = right.map meaning ∧ after = after' := by
  induction left generalizing right with
  | nil =>
    obtain rfl := List.eq_nil_of_length_eq_zero sizes.symm
    exact ⟨rfl, same⟩
  | cons entry rest inductionHypothesis =>
    cases right with
    | nil => cases sizes
    | cons other others =>
      obtain ⟨here, later⟩ := List.forall_mem_cons.mp fits
      obtain ⟨here', later'⟩ := List.forall_mem_cons.mp fits'
      rw [List.flatMap_cons, List.flatMap_cons, List.append_assoc, List.append_assoc] at same
      obtain ⟨first, same⟩ := told here here' same
      obtain ⟨others, same⟩ := inductionHypothesis (Nat.succ.inj sizes) later later' same
      exact ⟨List.cons_eq_cons.mpr ⟨first, others⟩, same⟩

end Stream

end Shading
