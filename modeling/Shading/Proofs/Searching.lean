/-
Searching a sorted list by halving. What is compared is the bytes of texts, and
these are in the order of the texts themselves: a longer form of a character
begins with a greater byte. The search says where a text is or where it belongs.
-/

import Mathlib
import Shading.Proofs.Digest.Legible

namespace Shading

/-! ### The order of bytes -/

namespace Utf8

theorem encodeChar_lt {left right : Char} (earlier : left < right) (after after' : List UInt8) :
    String.utf8EncodeChar left ++ after < String.utf8EncodeChar right ++ after' := by
  have smaller : left.val.toNat < right.val.toNat := UInt32.lt_iff_toNat_lt.mp earlier
  have bound : right.val.toNat < 0x110000 := by
    have valid := right.valid
    unfold UInt32.isValidChar Nat.isValidChar at valid
    omega
  unfold String.utf8EncodeChar
  generalize left.val.toNat = low at smaller
  generalize right.val.toNat = high at smaller bound
  -- Longer forms have greater first bytes; forms of one length are numbers in base 64.
  have digit (number : Nat) : (number % 64 + 128) % 2 ^ 8 = number % 64 + 128 := by omega
  have lead (number : Nat) : (number % 8 + 240) % 2 ^ 8 = number % 8 + 240 := by omega
  have third (number : Nat) : number / 4096 = number / 64 / 64 := by omega
  have fourth (number : Nat) : number / 262144 = number / 64 / 64 / 64 := by omega
  dsimp only
  split_ifs <;>
    simp only [List.cons_append, List.nil_append, List.cons_lt_cons_iff, UInt8.lt_iff_toNat_lt,
      ← UInt8.toNat_inj, UInt8.toNat_ofNat', digit, lead, third, fourth] <;>
    by_cases rest : after < after' <;>
    simp only [rest, and_true, and_false, or_false, Nat.reducePow] <;> omega

/-- Texts are in the order of their bytes. -/
theorem encode_lt {left right : String} : encode left < encode right ↔ left < right := by
  have forward {left right : String} (earlier : left < right) : encode left < encode right := by
    have chars := String.lt_iff_toList_lt.mp earlier
    unfold encode encodeChars
    generalize left.toList = first at chars
    generalize right.toList = second at chars
    induction chars with
    | nil =>
      rw [List.flatMap_cons, List.flatMap_nil]
      obtain ⟨byte, bytes, isCons⟩ := List.exists_cons_of_ne_nil
        (List.append_ne_nil_of_left_ne_nil String.utf8EncodeChar_ne_nil _)
      rw [isCons]
      exact List.nil_lt_cons _ _
    | cons _ inductionHypothesis =>
      rw [List.flatMap_cons, List.flatMap_cons]
      exact List.append_left_lt inductionHypothesis
    | rel earlier =>
      rw [List.flatMap_cons, List.flatMap_cons]
      exact encodeChar_lt earlier _ _
  refine ⟨fun earlier => ?_, forward⟩
  rcases lt_trichotomy left right with before | rfl | behind
  · exact before
  · exact absurd earlier (List.lt_irrefl _)
  · exact absurd (forward behind) (List.lt_asymm earlier)

/-- How the bytes of two texts compare. -/
def compare (left right : String) : Ordering := compareOfLessAndEq (encode left) (encode right)

theorem compare_eq_lt {left right : String} : compare left right = .lt ↔ left < right :=
  compareOfLessAndEq_eq_lt.trans encode_lt

theorem compare_eq_eq {left right : String} : compare left right = .eq ↔ left = right := by
  unfold compare compareOfLessAndEq
  split_ifs with smaller same
  · exact iff_of_false nofun (encode_lt.mp smaller).ne
  · exact iff_of_true rfl (encode_injective same)
  · exact iff_of_false nofun fun equal => same (congrArg encode equal)

theorem compare_eq_gt {left right : String} : compare left right = .gt ↔ right < left := by
  unfold compare compareOfLessAndEq
  split_ifs with smaller same
  · exact iff_of_false nofun (encode_lt.mp smaller).not_gt
  · exact iff_of_false nofun (encode_injective same).not_gt
  · refine iff_of_true rfl (lt_of_le_of_ne (not_lt.mp fun earlier => ?_) fun equal => ?_)
    · exact smaller (encode_lt.mpr earlier)
    · exact same (congrArg encode equal.symm)

end Utf8

/-! ### Searching by halving -/

namespace Search

variable {place : Nat → Ordering} {index : Nat}

/-- Halves a range of places until one is left. -/
def narrow (place : Nat → Ordering) (base size : Nat) : Nat :=
  if size ≤ 1 then base
  else narrow place (if place (base + size / 2) = .gt then base else base + size / 2)
    (size - size / 2)
termination_by size

/-- The place of what is looked for among so many places, or else where it belongs. -/
def search (place : Nat → Ordering) (size : Nat) : Except Nat Nat :=
  if size = 0 then .error 0
  else
    let base := narrow place 0 size
    match place base with
    | .eq => .ok base
    | .lt => .error (base + 1)
    | .gt => .error base

/-- From a place that is not before what is looked for, all later ones are behind it. -/
def Ascending (place : Nat → Ordering) : Prop :=
  ∀ ⦃first second : Nat⦄, first < second → place first ≠ .lt → place second = .gt

theorem narrow_spec (ascending : Ascending place) {base size : Nat} (filled : 0 < size)
    (below : ∀ other < base, place other = .lt)
    (above : ∀ other, base + size ≤ other → place other = .gt) :
    (∀ other < narrow place base size, place other = .lt) ∧
      ∀ other, narrow place base size < other → place other = .gt := by
  fun_induction narrow place base size with
  | case1 base size single => exact ⟨below, fun other later => above other (by omega)⟩
  | case2 base size several inductionHypothesis =>
    by_cases behind : place (base + size / 2) = .gt
    · rw [dif_pos behind] at inductionHypothesis
      rw [if_pos behind]
      refine inductionHypothesis (by omega) below fun other later => ?_
      rcases Nat.eq_or_lt_of_le (show base + size / 2 ≤ other by omega) with rfl | further
      · exact behind
      · exact ascending further (behind ▸ nofun)
    · rw [dif_neg behind] at inductionHypothesis
      rw [if_neg behind]
      refine inductionHypothesis (by omega) (fun other earlier => ?_)
        fun other later => above other (by omega)
      by_contra notBefore
      exact behind (ascending earlier notBefore)

variable {size : Nat}

theorem Ascending.narrow (ascending : Ascending place) (filled : 0 < size)
    (outside : ∀ other, size ≤ other → place other = .gt) :
    (∀ other < Search.narrow place 0 size, place other = .lt) ∧
      ∀ other, Search.narrow place 0 size < other → place other = .gt :=
  narrow_spec ascending filled nofun fun other later => outside other (Nat.zero_add size ▸ later)

/-- What is found is there, with smaller places before it and greater ones behind. -/
theorem search_ok (ascending : Ascending place) (outside : ∀ other, size ≤ other → place other = .gt)
    (found : search place size = .ok index) : place index = .eq ∧
      (∀ other < index, place other = .lt) ∧ ∀ other, index < other → place other = .gt := by
  unfold search at found
  split at found
  · cases found
  · rename_i filled
    have spec := ascending.narrow (Nat.pos_of_ne_zero filled) outside
    dsimp only at found
    split at found
    · obtain rfl := Except.ok.inj found
      exact ⟨by assumption, spec⟩
    · cases found
    · cases found

/-- Where nothing is found, the places before are smaller and all others greater. -/
theorem search_error (ascending : Ascending place)
    (outside : ∀ other, size ≤ other → place other = .gt)
    (missed : search place size = .error index) :
    (∀ other < index, place other = .lt) ∧ ∀ other, index ≤ other → place other = .gt := by
  unfold search at missed
  split at missed
  · rename_i isEmpty
    obtain rfl := Except.error.inj missed
    exact ⟨nofun, fun other _ => outside other (by omega)⟩
  · rename_i filled
    obtain ⟨below, above⟩ := ascending.narrow (Nat.pos_of_ne_zero filled) outside
    dsimp only at missed
    split at missed
    · cases missed
    · rename_i before
      obtain rfl := Except.error.inj missed
      refine ⟨fun other earlier => ?_, above⟩
      rcases Nat.lt_succ_iff_lt_or_eq.mp earlier with lower | rfl
      · exact below other lower
      · exact before
    · rename_i behind
      obtain rfl := Except.error.inj missed
      refine ⟨below, fun other later => ?_⟩
      rcases Nat.eq_or_lt_of_le later with rfl | further
      · exact behind
      · exact above other further

end Search

end Shading
