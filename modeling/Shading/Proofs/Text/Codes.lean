/-
Text and bytes read back. The bytes of a character are one byte below `0x80`, or
a leading byte and continuation bytes, all of them from `0x80` on. So a reader
that looks for signs of the lower half finds them only where a character of the
lower half was written, and decoding gives back whatever was encoded.

The digits of a number have their value again, whether they are the low ones of
a fixed width or all without leading zeros; a digest has as many as it needs.
Base64 goes in groups of three bytes, and the last group tells by its padding
how many there are.
-/

import Mathlib
import Shading.Text.Codes
import Shading.Text.Utf8

namespace Shading.Utf8

variable {char : Char} {rest : List UInt8}

theorem encodeChars_cons (char : Char) (chars : List Char) :
    encodeChars (char :: chars) = String.utf8EncodeChar char ++ encodeChars chars :=
  List.flatMap_cons

theorem encodeChars_append (left right : List Char) :
    encodeChars (left ++ right) = encodeChars left ++ encodeChars right :=
  List.flatMap_append

/-! ### The bytes of one character -/

theorem encodeChar_ascii (low : char.toNat < 0x80) :
    String.utf8EncodeChar char = [UInt8.ofNat char.toNat] :=
  if_pos (Nat.le_of_lt_succ low)

theorem le_of_mem_encodeChar (high : 0x80 ≤ char.toNat) {byte : UInt8}
    (member : byte ∈ String.utf8EncodeChar char) : 0x80 ≤ byte.toNat := by
  have above : ¬ char.val.toNat ≤ 0x7F := Nat.not_le_of_lt high
  unfold String.utf8EncodeChar at member
  simp only [above, if_false] at member
  split at member
  · simp only [List.mem_cons, List.not_mem_nil, or_false] at member
    rcases member with rfl | rfl <;> rw [UInt8.toNat_ofNat'] <;> omega
  · split at member
    · simp only [List.mem_cons, List.not_mem_nil, or_false] at member
      rcases member with rfl | rfl | rfl <;> rw [UInt8.toNat_ofNat'] <;> omega
    · simp only [List.mem_cons, List.not_mem_nil, or_false] at member
      rcases member with rfl | rfl | rfl | rfl <;> rw [UInt8.toNat_ofNat'] <;> omega

/-! ### Decoding -/

theorem continuation?_ofNat {value : Nat} (fits : value < 64) :
    continuation? (UInt8.ofNat (value + 0x80)) = some value := by
  have number : (UInt8.ofNat (value + 0x80)).toNat = value + 0x80 :=
    UInt8.toNat_ofNat_of_lt' (Nat.lt_trans (Nat.add_lt_add_right fits _) (by decide))
  have range : 0x80 ≤ UInt8.ofNat (value + 0x80) ∧ UInt8.ofNat (value + 0x80) < 0xC0 := by
    rw [UInt8.le_iff_toNat_le, UInt8.lt_iff_toNat_lt, number]
    exact ⟨Nat.le_add_left _ _, Nat.add_lt_add_right fits _⟩
  rw [continuation?, if_pos range, number, Nat.add_sub_cancel]

theorem char?_toNat {lowest : Nat} (enough : lowest ≤ char.toNat) :
    char? char.toNat lowest = some char := by
  rw [char?, dif_pos ⟨char.valid, enough⟩]
  exact congrArg some (Char.ext rfl)

/-- A leading byte tells by its range how many bytes there are. -/
theorem decode?_one {first : UInt8} (range : first.toNat < 0x80) :
    decode? (first :: rest) = (decode? rest).map (Char.ofNat first.toNat :: ·) := by
  rw [decode?.eq_def]
  have lower : first < 0x80 := by
    simpa only [UInt8.lt_iff_toNat_lt, UInt8.reduceToNat] using range
  simp only [lower, if_true]
  cases decode? rest <;> rfl

theorem decode?_two {first second : UInt8} (lower : 0xC0 ≤ first.toNat)
    (upper : first.toNat < 0xE0) :
    decode? (first :: second :: rest) =
      (continuation? second).bind fun low =>
        (char? ((first.toNat - 0xC0) * 64 + low) 0x80).bind fun char =>
          (decode? rest).map (char :: ·) := by
  rw [decode?.eq_def]
  have range : ¬ first < 0x80 ∧ 0xC0 ≤ first ∧ first < 0xE0 := by
    simp only [UInt8.lt_iff_toNat_lt, UInt8.le_iff_toNat_le, UInt8.reduceToNat]
    omega
  simp only [range.1, range.2, if_false, and_self, if_true]
  cases decode? rest <;> rfl

theorem decode?_three {first second third : UInt8} (lower : 0xE0 ≤ first.toNat)
    (upper : first.toNat < 0xF0) :
    decode? (first :: second :: third :: rest) =
      (continuation? second).bind fun middle => (continuation? third).bind fun low =>
        (char? (((first.toNat - 0xE0) * 64 + middle) * 64 + low) 0x800).bind fun char =>
          (decode? rest).map (char :: ·) := by
  rw [decode?.eq_def]
  have range : ¬ first < 0x80 ∧ ¬ (0xC0 ≤ first ∧ first < 0xE0) ∧ 0xE0 ≤ first ∧
      first < 0xF0 := by
    simp only [UInt8.lt_iff_toNat_lt, UInt8.le_iff_toNat_le, UInt8.reduceToNat]
    omega
  simp only [range.1, range.2.1, range.2.2, if_false, and_self, if_true]
  cases decode? rest <;> rfl

theorem decode?_four {first second third fourth : UInt8} (lower : 0xF0 ≤ first.toNat)
    (upper : first.toNat < 0xF8) :
    decode? (first :: second :: third :: fourth :: rest) =
      (continuation? second).bind fun high => (continuation? third).bind fun middle =>
        (continuation? fourth).bind fun low =>
          (char? ((((first.toNat - 0xF0) * 64 + high) * 64 + middle) * 64 + low) 0x10000).bind
            fun char => (decode? rest).map (char :: ·) := by
  rw [decode?.eq_def]
  have range : ¬ first < 0x80 ∧ ¬ (0xC0 ≤ first ∧ first < 0xE0) ∧
      ¬ (0xE0 ≤ first ∧ first < 0xF0) ∧ 0xF0 ≤ first ∧ first < 0xF8 := by
    simp only [UInt8.lt_iff_toNat_lt, UInt8.le_iff_toNat_le, UInt8.reduceToNat]
    omega
  simp only [range.1, range.2.1, range.2.2.1, range.2.2.2, if_false, and_self, if_true]
  cases decode? rest <;> rfl

theorem toNat_leading {value base : Nat} (fits : value + base < 0x100) :
    (UInt8.ofNat (value + base)).toNat = value + base :=
  UInt8.toNat_ofNat_of_lt' fits

theorem decode?_encodeChar (char : Char) (rest : List UInt8) :
    decode? (String.utf8EncodeChar char ++ rest) = (decode? rest).map (char :: ·) := by
  have valid : char.toNat < 0x110000 := by
    rcases char.valid with low | ⟨_, high⟩
    · exact Nat.lt_trans low (by decide)
    · exact high
  have digit (value : Nat) : value % 64 < 64 := Nat.mod_lt _ (by decide)
  simp only [String.utf8EncodeChar, Char.toNat_val]
  split
  · rename_i one
    have number : (UInt8.ofNat char.toNat).toNat = char.toNat :=
      UInt8.toNat_ofNat_of_lt' (Nat.lt_of_le_of_lt one (by decide))
    rw [List.singleton_append, decode?_one (by omega), number, Char.ofNat_toNat]
  split
  · have first := toNat_leading (show char.toNat / 64 % 32 + 0xC0 < 0x100 by omega)
    have value : (char.toNat / 64 % 32 + 0xC0 - 0xC0) * 64 + char.toNat % 64 = char.toNat := by
      omega
    rw [List.cons_append, List.singleton_append, decode?_two (by omega) (by omega), first,
      continuation?_ofNat (digit _), Option.bind_some, value, char?_toNat (by omega),
      Option.bind_some]
  split
  · have first := toNat_leading (show char.toNat / 4096 % 16 + 0xE0 < 0x100 by omega)
    have value : ((char.toNat / 4096 % 16 + 0xE0 - 0xE0) * 64 + char.toNat / 64 % 64) * 64 +
        char.toNat % 64 = char.toNat := by omega
    rw [List.cons_append, List.cons_append, List.singleton_append,
      decode?_three (by omega) (by omega), first, continuation?_ofNat (digit _),
      continuation?_ofNat (digit _), Option.bind_some, Option.bind_some, value,
      char?_toNat (by omega), Option.bind_some]
  · have first := toNat_leading (show char.toNat / 262144 % 8 + 0xF0 < 0x100 by omega)
    have value : (((char.toNat / 262144 % 8 + 0xF0 - 0xF0) * 64 + char.toNat / 4096 % 64) * 64 +
        char.toNat / 64 % 64) * 64 + char.toNat % 64 = char.toNat := by omega
    rw [List.cons_append, List.cons_append, List.cons_append, List.singleton_append,
      decode?_four (by omega) (by omega), first, continuation?_ofNat (digit _),
      continuation?_ofNat (digit _), continuation?_ofNat (digit _), Option.bind_some,
      Option.bind_some, Option.bind_some, value, char?_toNat (by omega), Option.bind_some]

theorem decode?_encodeChars (chars : List Char) : decode? (encodeChars chars) = some chars := by
  induction chars with
  | nil => rfl
  | cons char chars inductionHypothesis =>
    rw [encodeChars_cons, decode?_encodeChar, inductionHypothesis]
    rfl

theorem text?_encode (text : String) : text? (encode text) = some text := by
  rw [text?, encode, decode?_encodeChars, Option.map_some, String.ofList_toList]

end Shading.Utf8

namespace Shading

/-! ### Hexadecimal digits -/

namespace Hex

theorem digitValue?_digit : ∀ value < 16, digitValue? (digit value) = some value := by
  decide

theorem digit_ne_plus : ∀ value < 16, digit value ≠ '+' := by
  decide

theorem value?_append (digits : List Char) (last : Char) :
    value? (digits ++ [last]) =
      (value? digits).bind fun total => (digitValue? last).map (16 * total + ·) := by
  show (digits ++ [last]).foldlM _ 0 = _
  rw [List.foldlM_append]
  refine congrArg _ (funext fun total => ?_)
  rw [List.foldlM_cons]
  cases digitValue? last <;> rfl

theorem value?_fixed (width value : Nat) : value? (fixed width value) = some (value % 16 ^ width) := by
  induction width generalizing value with
  | zero => rw [Nat.pow_zero, Nat.mod_one]; rfl
  | succ width inductionHypothesis =>
    have number : 16 * (value / 16 % 16 ^ width) + value % 16 = value % 16 ^ (width + 1) := by
      rw [Nat.pow_succ', Nat.mod_mul, Nat.add_comm]
    rw [fixed, value?_append, inductionHypothesis, Option.bind_some,
      digitValue?_digit _ (Nat.mod_lt _ (by decide)), Option.map_some, number]

theorem value?_toDigits (value : Nat) : value? (Nat.toDigits 16 value) = some value := by
  induction value using Nat.strong_induction_on with
  | _ value inductionHypothesis =>
    by_cases single : value < 16
    · have alone : value? [value.digitChar] =
          (digitValue? value.digitChar).map (16 * 0 + ·) := value?_append [] _
      have digit : digitValue? value.digitChar = some value := digitValue?_digit value single
      rw [Nat.toDigits_of_lt_base single, alone, digit, Option.map_some, Nat.mul_zero, Nat.zero_add]
    · rw [Nat.toDigits_of_base_le (by decide) (by omega), value?_append,
        inductionHypothesis _ (by omega), Option.bind_some]
      have last : digitValue? (value % 16).digitChar = some (value % 16) :=
        digitValue?_digit _ (Nat.mod_lt _ (by decide))
      rw [last, Option.map_some, Nat.div_add_mod]

/-- Digits without a sign are read as their value. -/
theorem read?_ofList {digits : List Char} {value bound : Nat} (some' : digits ≠ [])
    (unsigned : '+' ∉ digits) (read : value? digits = some value) (fits : value < bound) :
    read? (String.ofList digits) bound = some value := by
  simp only [read?, String.toList_ofList]
  split
  · exact absurd List.mem_cons_self unsigned
  · rw [if_neg some', read]
    exact Option.filter_some_pos (decide_eq_true fits)

theorem fixed_ne_nil (width value : Nat) : fixed (width + 1) value ≠ [] :=
  List.append_ne_nil_of_right_ne_nil _ (List.cons_ne_nil _ _)

theorem plus_not_mem_fixed (width value : Nat) : '+' ∉ fixed width value := by
  induction width generalizing value with
  | zero => exact List.not_mem_nil
  | succ width inductionHypothesis =>
    rw [fixed, List.mem_append, List.mem_singleton]
    rintro (front | last)
    · exact inductionHypothesis _ front
    · exact digit_ne_plus _ (Nat.mod_lt _ (by decide)) last.symm

theorem plus_not_mem_toDigits (value : Nat) : '+' ∉ Nat.toDigits 16 value := by
  induction value using Nat.strong_induction_on with
  | _ value inductionHypothesis =>
    by_cases single : value < 16
    · rw [Nat.toDigits_of_lt_base single, List.mem_singleton]
      exact fun same => digit_ne_plus _ single same.symm
    · rw [Nat.toDigits_of_base_le (by decide) (by omega), List.mem_append, List.mem_singleton]
      rintro (front | last)
      · exact inductionHypothesis _ (by omega) front
      · exact digit_ne_plus _ (Nat.mod_lt _ (by decide)) last.symm

end Hex

theorem Digest.ofHex?_toHex (digest : Digest) : ofHex? digest.toHex = some digest := by
  have power : 2 ^ 128 = 16 ^ 32 := by norm_num
  have bound : digest.toNat < 2 ^ 128 := digest.isLt
  have value : Hex.value? (Hex.fixed 32 digest.toNat) = some digest.toNat := by
    rw [Hex.value?_fixed, ← power, Nat.mod_eq_of_lt bound]
  have read : Hex.read? (String.ofList (Hex.fixed 32 digest.toNat)) (2 ^ 128) =
      some digest.toNat :=
    Hex.read?_ofList (Hex.fixed_ne_nil 31 digest.toNat) (Hex.plus_not_mem_fixed 32 digest.toNat)
      value bound
  rw [ofHex?, toHex, Nat.pow_eq, read, Option.map_some, BitVec.ofNat_toNat, BitVec.setWidth_eq]

/-! ### Base64 -/

namespace Base64

theorem digitValue?_digit (value : Nat) : digitValue? (digit value) = some (value % 64) := by
  have all : ∀ value < 64, digitValue? (alphabet.getD value 'A') = some value := by decide
  exact all _ (Nat.mod_lt _ (by decide))

theorem digit_ne_pad (value : Nat) : digit value ≠ '=' := by
  intro same
  have none' : digitValue? '=' = none := by decide
  exact Option.some_ne_none _ ((digitValue?_digit value).symm.trans (same ▸ none'))

theorem byte_of_mod {value : Nat} (byte : UInt8) (same : value % 256 = byte.toNat) :
    Base64.byte value = byte := by
  rw [Base64.byte, ← UInt8.toNat_inj, UInt8.toNat_ofNat']
  exact same

theorem decodeGroups_cons {first second third fourth : Char} (full : fourth ≠ '=')
    (rest : List Char) :
    decodeGroups (first :: second :: third :: fourth :: rest) =
      (digitValue? first).bind fun first => (digitValue? second).bind fun second =>
        (digitValue? third).bind fun third => (digitValue? fourth).bind fun fourth =>
          let bits := ((first * 64 + second) * 64 + third) * 64 + fourth
          (decodeGroups rest).map fun tail =>
            byte (bits / 65536) :: byte (bits / 256) :: byte bits :: tail := by
  rw [decodeGroups]
  · cases digitValue? first <;> cases digitValue? second <;> cases digitValue? third <;>
      cases digitValue? fourth <;> first | rfl | (cases decodeGroups rest <;> rfl)
  · exact fun _ same _ => full same
  · exact fun same _ => full same

theorem padding_add (count : Nat) : padding (count + 3) = padding count := by
  rw [padding, Nat.add_mod_right, padding]

theorem decodeGroups_encode (bytes : List UInt8) :
    decodeGroups (encodeBare bytes ++ padding bytes.length) = some bytes := by
  induction bytes using encodeBare.induct with
  | case1 => rfl
  | case2 first =>
    have number := first.toNat_lt
    show decodeGroups [digit (first.toNat * 16 / 64), digit (first.toNat * 16), '=', '='] = _
    rw [decodeGroups, digitValue?_digit, digitValue?_digit]
    dsimp only [Option.bind_eq_bind, Option.bind_some]
    rw [if_pos (by omega), byte_of_mod first (by omega)]
  | case3 first second =>
    have numbers := And.intro first.toNat_lt second.toNat_lt
    show decodeGroups [digit ((first.toNat * 256 + second.toNat) * 4 / 4096),
      digit ((first.toNat * 256 + second.toNat) * 4 / 64),
      digit ((first.toNat * 256 + second.toNat) * 4), '='] = _
    rw [decodeGroups, digitValue?_digit, digitValue?_digit, digitValue?_digit]
    · dsimp only [Option.bind_eq_bind, Option.bind_some]
      rw [if_pos (by omega), byte_of_mod first (by omega),
        byte_of_mod second (by omega)]
    · exact digit_ne_pad _
  | case4 first second third rest inductionHypothesis =>
    have numbers := And.intro first.toNat_lt (And.intro second.toNat_lt third.toNat_lt)
    rw [List.length_cons, List.length_cons, List.length_cons, padding_add, encodeBare,
      List.cons_append, List.cons_append, List.cons_append, List.cons_append,
      decodeGroups_cons (digit_ne_pad _), inductionHypothesis]
    simp only [digitValue?_digit, Option.bind_some, Option.map_some]
    rw [byte_of_mod first (by omega), byte_of_mod second (by omega),
      byte_of_mod third (by omega)]

theorem decode?_encode (bytes : List UInt8) : decode? (encode bytes) = some bytes := by
  rw [decode?, encode, String.toList_ofList, decodeGroups_encode]

end Base64

end Shading
