/-
Literals that are numerals. A numeral has digits before its point, and no zero
in front of others. The decimal digits of a number are of this kind, and so is
every layout of a single-precision number: the shortest digits of a magnitude
above zero begin with a digit above zero, because a grid on which the magnitude
is looked for is never so coarse that only zero is near.
-/

import Mathlib
import Shading.Number.Shortest

namespace Shading

namespace Literal

/-! ### Digits of a number -/

theorem digit_digitChar : ∀ value < 10,
    Digit.ofNat (value.digitChar.toNat - 48) = Digit.ofNat value := by
  decide

theorem digits_of_lt {number : Nat} (single : number < 10) :
    digits number = [Digit.ofNat number] := by
  rw [digits, Nat.toDigits_of_lt_base single, List.map_singleton, digit_digitChar _ single]

theorem digits_of_le {number : Nat} (several : 10 ≤ number) :
    digits number = digits (number / 10) ++ [Digit.ofNat (number % 10)] := by
  rw [digits, Nat.toDigits_of_base_le (by decide) several, List.map_append, List.map_singleton,
    digit_digitChar _ (Nat.mod_lt _ (by decide)), digits]

theorem ofDigits_append (front : List Digit) (last : Digit) :
    ofDigits (front ++ [last]) = 10 * ofDigits front + last.val := by
  rw [ofDigits, List.foldl_append]
  rfl

theorem ofDigits_digits (number : Nat) : ofDigits (digits number) = number := by
  induction number using Nat.strong_induction_on with
  | _ number inductionHypothesis =>
    by_cases single : number < 10
    · rw [digits_of_lt single]
      show 10 * 0 + number % 10 = number
      omega
    · rw [digits_of_le (by omega), ofDigits_append, inductionHypothesis _ (by omega)]
      show 10 * (number / 10) + number % 10 % 10 = number
      omega

/-- The first digit is not zero. -/
def Leads (digits : List Digit) : Prop :=
  ∃ first rest, digits = first :: rest ∧ first ≠ Digit.zero

theorem Leads.append {digits : List Digit} (leads : Leads digits) (more : List Digit) :
    Leads (digits ++ more) := by
  obtain ⟨first, rest, rfl, nonzero⟩ := leads
  exact ⟨first, rest ++ more, rfl, nonzero⟩

theorem Leads.take {digits : List Digit} (leads : Leads digits) (count : Nat) :
    Leads (digits.take (count + 1)) := by
  obtain ⟨first, rest, rfl, nonzero⟩ := leads
  exact ⟨first, rest.take count, rfl, nonzero⟩

theorem digits_leads {number : Nat} (positive : number ≠ 0) : Leads (digits number) := by
  induction number using Nat.strong_induction_on with
  | _ number inductionHypothesis =>
    by_cases single : number < 10
    · refine ⟨Digit.ofNat number, [], digits_of_lt single, fun zero => positive ?_⟩
      have value : number % 10 = 0 := congrArg Fin.val zero
      omega
    · rw [digits_of_le (by omega)]
      exact (inductionHypothesis (number / 10) (by omega) (by omega)).append _

theorem digits_zero : digits 0 = [Digit.zero] := digits_of_lt (by decide)

theorem digits_ne_nil (number : Nat) : digits number ≠ [] := by
  rw [digits, ne_eq, List.map_eq_nil_iff]
  exact Nat.toDigits_ne_nil

/-! ### Numerals -/

/-- There are digits before the point, and a leading zero is alone. -/
def IsNumeral (literal : Literal) : Prop :=
  literal.whole = [Digit.zero] ∨ Leads literal.whole

theorem IsNumeral.exists_cons {literal : Literal} (numeral : literal.IsNumeral) :
    ∃ first rest, literal.whole = first :: rest := by
  rcases numeral with alone | ⟨first, rest, front, _⟩
  · exact ⟨_, _, alone⟩
  · exact ⟨_, _, front⟩

theorem isNumeral_ofNat (number : Nat) : (ofNat number).IsNumeral := by
  by_cases zero : number = 0
  · exact .inl (zero ▸ digits_zero)
  · exact .inr (digits_leads zero)

theorem natural?_ofNat {number bound : Nat} (fits : number < bound) (word : bound ≤ UInt64.size) :
    (ofNat number).natural? bound = some number := by
  have integer : (ofNat number).integer? = some (.ofNat number) := by
    unfold integer?
    show (if True ∧ True then if false = true then _ else if ofDigits (digits number) < UInt64.size
      then some (ofDigits (digits number) : Int) else none else none) = _
    rw [ofDigits_digits, if_pos ⟨trivial, trivial⟩, if_neg (by decide),
      if_pos (Nat.lt_of_lt_of_le fits word)]
    rfl
  rw [natural?, integer]
  exact if_pos fits

end Literal

namespace Digits

open Literal (Leads)

/-! ### Shortest digits -/

theorem leads_dropTrailingZeros {digits : List Digit} (leads : Leads digits) :
    Leads (dropTrailingZeros digits) := by
  obtain ⟨first, rest, rfl, nonzero⟩ := leads
  have kept : ¬ first.val = 0 := fun zero => nonzero (Fin.ext zero)
  unfold dropTrailingZeros
  rw [List.reverse_cons, List.dropWhile_append]
  split
  · refine ⟨first, [], ?_, nonzero⟩
    rw [List.dropWhile_cons_of_neg (by simpa using kept)]
    rfl
  · exact ⟨first, _, by rw [List.reverse_append]; rfl, nonzero⟩

theorem leads_ofGrid {count : Nat} (positive : count ≠ 0) (grid : Int) :
    Leads (ofGrid count grid).digits :=
  leads_dropTrailingZeros (Literal.digits_leads positive)

/-- No interval of a magnitude above zero holds the zero of a grid. -/
theorem not_contains_zero {interval : Interval} (positive : 0 < interval.low) (grid : Int) :
    contains interval 0 grid = false := by
  have scaled : 0 < (compareScale interval interval.low 0 grid).1 ∧
      (compareScale interval interval.low 0 grid).2 = 0 := by
    unfold compareScale
    split
    · exact ⟨positive, by rw [Nat.zero_mul, Nat.zero_mul]⟩
    · exact ⟨Nat.mul_pos positive (Nat.pow_pos (by decide)), Nat.zero_mul _⟩
  unfold contains
  obtain ⟨above, zero⟩ := scaled
  generalize compareScale interval interval.low 0 grid = pair at above zero
  obtain ⟨low, atLow⟩ := pair
  subst zero
  have : ¬ low ≤ 0 := Nat.not_le_of_lt above
  simp [this]

theorem onGrid?_ne_zero {tie : Tie} {interval : Interval} {grid : Int} {count : Nat}
    (positive : 0 < interval.low) (hit : onGrid? tie interval grid = some count) : count ≠ 0 := by
  have below (fits : contains interval (floorOn interval grid) grid = true) :
      floorOn interval grid ≠ 0 := by
    intro zero
    rw [zero, not_contains_zero positive] at fits
    cases fits
  simp only [onGrid?] at hit
  split at hit
  · rename_i fits
    obtain rfl := Option.some.inj hit
    split
    · exact Nat.succ_ne_zero _
    · exact below (Bool.and_eq_true_iff.mp fits).1
  split at hit
  · rename_i fits
    exact Option.some.inj hit ▸ below fits
  split at hit
  · exact Option.some.inj hit ▸ Nat.succ_ne_zero _
  · cases hit

/-- The magnitude is at least one step of the grid. -/
def Reaches (interval : Interval) (grid : Int) : Prop :=
  (compareScale interval interval.middle 1 grid).2 ≤
    (compareScale interval interval.middle 1 grid).1

theorem floorOn_ne_zero {interval : Interval} {grid : Int} (some' : 0 < interval.denominator)
    (reaches : Reaches interval grid) : floorOn interval grid ≠ 0 := by
  have unit : 0 < (compareScale interval interval.middle 1 grid).2 := by
    unfold compareScale
    split
    · rw [Nat.one_mul]
      exact Nat.mul_pos (Nat.pow_pos (by decide)) some'
    · rw [Nat.one_mul]
      exact some'
  exact (Nat.div_pos reaches unit).ne'

/-- The grid nine digits below the leading one is fine enough. -/
theorem reaches_leading {interval : Interval} (some' : 0 < interval.denominator)
    (above : interval.denominator ≤ interval.middle * 10 ^ 46) :
    Reaches interval (leadingExponent interval - 9) := by
  have floor : floorOn interval (-46) = interval.middle * 10 ^ 46 / interval.denominator := by
    show interval.middle * 10 ^ 46 / (1 * interval.denominator) = _
    rw [Nat.one_mul]
  have length : (Literal.digits (floorOn interval (-46))).length =
      (Nat.toDigits 10 (floorOn interval (-46))).length := List.length_map _
  unfold Reaches leadingExponent
  rw [length, floor]
  have reached : 0 < interval.middle * 10 ^ 46 / interval.denominator := Nat.div_pos above some'
  generalize count : (Nat.toDigits 10 (interval.middle * 10 ^ 46 / interval.denominator)).length =
    places
  have filled : 0 < places := count ▸ Nat.length_toDigits_pos
  -- The leading digit weighs `10 ^ (places - 1)` on the finest grid.
  have lead : 10 ^ (places - 1) ≤ interval.middle * 10 ^ 46 / interval.denominator := by
    rcases Nat.eq_zero_or_pos (places - 1) with none' | more
    · rw [none']
      exact reached
    · refine Nat.le_of_not_lt fun less => ?_
      have := (Nat.length_toDigits_le_iff (by decide) more).mpr less
      omega
  have lead : 10 ^ (places - 1) * interval.denominator ≤ interval.middle * 10 ^ 55 :=
    ((Nat.le_div_iff_mul_le some').mp lead).trans
      (Nat.mul_le_mul_left _ (Nat.pow_le_pow_right (by decide) (by decide)))
  unfold compareScale
  split
  · have exponent : ((places : Int) - 47 - 9).toNat + 55 = places - 1 := by omega
    rw [← exponent, Nat.pow_add, Nat.mul_right_comm] at lead
    rw [Nat.one_mul]
    exact Nat.le_of_mul_le_mul_right lead (Nat.pow_pos (by decide))
  · have exponent : (-((places : Int) - 47 - 9)).toNat + (places - 1) = 55 := by omega
    rw [← exponent, Nat.pow_add, ← Nat.mul_assoc, Nat.mul_comm] at lead
    rw [Nat.one_mul]
    exact Nat.le_of_mul_le_mul_right lead (Nat.pow_pos (by decide))

theorem search_leads {tie : Tie} {interval : Interval} {leading : Int}
    (positive : 0 < interval.low) (fuel count : Nat)
    (reaches : floorOn interval (leading - (fuel + count : Nat)) ≠ 0) :
    Leads (search tie interval leading fuel count).digits := by
  induction fuel generalizing count with
  | zero =>
    rw [Nat.zero_add] at reaches
    exact leads_ofGrid reaches _
  | succ fuel inductionHypothesis =>
    rw [search]
    split
    · rename_i hit found
      exact leads_ofGrid (onGrid?_ne_zero positive found) _
    · refine inductionHypothesis (count + 1) ?_
      rwa [Nat.add_right_comm, Nat.add_assoc] at reaches

/-- The interval around a magnitude above zero has no end at zero, and the smallest one is still
above `10 ^ (-46)`. -/
theorem interval_positive {number : Binary32} (nonzero : number.magnitude ≠ 0) :
    0 < (interval number.scaled).denominator ∧ 0 < (interval number.scaled).low ∧
      (interval number.scaled).denominator ≤ (interval number.scaled).middle * 10 ^ 46 := by
  have significand : 0 < number.scaled.significand := by
    unfold Binary32.scaled
    dsimp only
    split
    · rename_i subnormal
      have := Nat.div_add_mod number.magnitude Binary32.leadingBit
      rw [subnormal, Nat.mul_zero, Nat.zero_add] at this
      exact Nat.pos_of_ne_zero fun zero => nonzero (this ▸ zero)
    · exact Nat.add_pos_left (by decide) _
  have exponent : -149 ≤ number.scaled.exponent := by
    unfold Binary32.scaled
    dsimp only
    split
    · exact Int.le_refl _
    · rename_i normal
      show -149 ≤ ((number.magnitude / Binary32.leadingBit : Nat) : Int) - 150
      generalize number.magnitude / Binary32.leadingBit = biased at normal
      omega
  generalize number.scaled = scaled at significand exponent
  have below : 0 < 4 * scaled.significand -
      (if scaled.significand = Binary32.leadingBit ∧ -149 < scaled.exponent then 1 else 2) := by
    split <;> omega
  unfold interval
  dsimp only
  generalize (if scaled.significand = Binary32.leadingBit ∧ -149 < scaled.exponent then 1 else 2) =
    gap at below
  split
  · have power : 0 < 2 ^ (scaled.exponent - 2).toNat := Nat.pow_pos (by decide)
    refine ⟨Nat.one_pos, Nat.mul_pos below power, ?_⟩
    exact Nat.mul_pos (Nat.mul_pos (Nat.mul_pos (by decide) significand) power)
      (Nat.pow_pos (by decide))
  · refine ⟨Nat.pow_pos (by decide), below, ?_⟩
    have least : (2 - scaled.exponent).toNat ≤ 151 := by omega
    calc 2 ^ (2 - scaled.exponent).toNat
      _ ≤ 2 ^ 151 := Nat.pow_le_pow_right (by decide) least
      _ ≤ 4 * 1 * 10 ^ 46 := by norm_num
      _ ≤ 4 * scaled.significand * 10 ^ 46 :=
        Nat.mul_le_mul_right _ (Nat.mul_le_mul_left _ significand)

/-- The digits of a magnitude are a lone zero or lead with another digit. -/
theorem ofMagnitude_cases (tie : Tie) (number : Binary32) :
    ofMagnitude tie number = zero ∨ Leads (ofMagnitude tie number).digits := by
  unfold ofMagnitude
  split
  · exact .inl rfl
  · rename_i nonzero
    obtain ⟨some', positive, above⟩ := interval_positive nonzero
    have reached := floorOn_ne_zero some' (reaches_leading some' above)
    dsimp only
    generalize interval number.scaled = interval at positive reached
    generalize leadingExponent interval = leading at reached
    exact .inr (search_leads positive 9 0 reached)

end Digits

/-! ### Layouts -/

namespace Layout

open Literal (Leads IsNumeral)

theorem isNumeral_positional {digits : Digits} (layout : Layout) (negative : Bool)
    (shortest : digits = .zero ∨ Leads digits.digits) :
    (layout.positional negative digits).IsNumeral := by
  rcases shortest with rfl | leads
  · exact .inl rfl
  unfold positional
  split
  · exact .inl rfl
  · refine .inr ?_
    dsimp only
    split
    · exact leads.append _
    · exact leads.take _

theorem isNumeral_scientific {digits : Digits} (negative : Bool)
    (shortest : digits = .zero ∨ Leads digits.digits) :
    (scientific negative digits).IsNumeral := by
  rcases shortest with rfl | leads
  · exact .inl rfl
  · exact .inr (leads.take 0)

theorem isNumeral_literal (layout : Layout) (number : Binary32) :
    (layout.literal number).IsNumeral := by
  have shortest := Digits.ofMagnitude_cases layout.tie number
  unfold literal
  dsimp only
  split
  · exact isNumeral_positional layout _ shortest
  · exact isNumeral_scientific _ shortest

end Layout

end Shading
