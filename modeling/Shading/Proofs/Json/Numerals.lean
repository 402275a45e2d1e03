/-
Numbers in JSON text. A numeral is read back from its text, part by part, as
long as what follows it could not continue a number.
-/

import Shading.Json.Reader
import Shading.Proofs.Number.Numerals
import Shading.Proofs.Text.Codes

namespace Shading

open Utf8 (encodeChars)

namespace Json

variable {rest : List UInt8}

/-- What follows does not continue a number: it closes what the number stands in, or goes on with
the next entry. -/
def Closes (rest : List UInt8) : Prop :=
  ∀ byte ∈ rest.head?, byte = 0x2C ∨ byte = 0x5D ∨ byte = 0x7D

theorem closes_nil : Closes [] := by
  intro byte member
  cases member

theorem closes_cons {byte : UInt8} (closing : byte = 0x2C ∨ byte = 0x5D ∨ byte = 0x7D) :
    Closes (byte :: rest) := by
  intro other member
  exact Option.mem_some.mp member ▸ closing

/-! ### Digits -/

def digitByte (digit : Digit) : UInt8 := UInt8.ofNat digit.val.digitChar.toNat

theorem digit?_digitByte : ∀ digit, digit? (digitByte digit) = some digit := by
  decide

theorem encodeChar_digitChar : ∀ digit : Digit,
    String.utf8EncodeChar digit.val.digitChar = [digitByte digit] := by
  decide

theorem encodeChars_digitText (digits : List Digit) :
    encodeChars (Literal.digitText digits) = digits.map digitByte := by
  induction digits with
  | nil => rfl
  | cons digit digits inductionHypothesis =>
    unfold Literal.digitText at inductionHypothesis ⊢
    rw [List.map_cons, Utf8.encodeChars_cons, encodeChar_digitChar, inductionHypothesis]
    rfl

/-- No digit comes next. -/
def Stops (rest : List UInt8) : Prop := ∀ byte ∈ rest.head?, digit? byte = none

theorem Closes.stops (closes : Closes rest) : Stops rest := by
  intro byte member
  rcases closes byte member with rfl | rfl | rfl <;> rfl

theorem stops_cons {byte : UInt8} (other : digit? byte = none) : Stops (byte :: rest) := by
  intro next member
  exact Option.mem_some.mp member ▸ other

theorem takeDigits_map (digits : List Digit) (stops : Stops rest) :
    takeDigits (digits.map digitByte ++ rest) = (digits, rest) := by
  induction digits with
  | nil =>
    cases rest with
    | nil => rfl
    | cons byte rest =>
      rw [List.map_nil, List.nil_append, takeDigits, stops byte rfl]
  | cons digit digits inductionHypothesis =>
    rw [List.map_cons, List.cons_append, takeDigits, digit?_digitByte, inductionHypothesis]

theorem takeSome_map {digits : List Digit} (some' : digits ≠ []) (stops : Stops rest) :
    takeSome (digits.map digitByte ++ rest) = some (digits, rest) := by
  obtain ⟨digit, digits, rfl⟩ := List.exists_cons_of_ne_nil some'
  rw [takeSome, takeDigits_map _ stops]

/-! ### The parts of a number -/

theorem takeWhole_map {literal : Literal} (numeral : literal.IsNumeral) (stops : Stops rest) :
    takeWhole (literal.whole.map digitByte ++ rest) = some (literal.whole, rest) := by
  rcases numeral with alone | ⟨first, others, leads, nonzero⟩
  · rw [takeWhole, alone, takeSome_map (List.cons_ne_nil _ _) stops]
    rfl
  · rw [takeWhole, leads, takeSome_map (List.cons_ne_nil _ _) stops]
    split
    · rename_i same
      exact absurd (List.cons.inj (Prod.mk.inj (Option.some.inj same)).1).1 nonzero
    · rfl

theorem takeFraction_text (fraction : List Digit) (stops : Stops rest)
    (unpointed : ∀ later, rest ≠ 0x2E :: later) :
    takeFraction (encodeChars (if fraction = [] then [] else '.' :: Literal.digitText fraction) ++
      rest) = some (fraction, rest) := by
  split
  · rename_i none'
    subst none'
    rw [takeFraction]
    · rfl
    · exact unpointed
  · rename_i some'
    rw [Utf8.encodeChars_cons, encodeChars_digitText]
    exact takeSome_map some' stops

theorem takeExponent_text (exponent : Option Int) (closes : Closes rest) :
    takeExponent (encodeChars (Literal.exponentText exponent) ++ rest) =
      some (exponent, rest) := by
  cases exponent with
  | none =>
    cases rest with
    | nil => rfl
    | cons byte rest =>
      rcases closes byte rfl with rfl | rfl | rfl <;> rfl
  | some exponent =>
    rw [Literal.exponentText, Utf8.encodeChars_cons, Utf8.encodeChars_cons, encodeChars_digitText]
    have read := takeSome_map (Literal.digits_ne_nil exponent.natAbs) closes.stops
    split
    · rename_i negative
      change ((((takeSome ((Literal.digits exponent.natAbs).map digitByte ++ rest)).map fun found =>
        (Literal.ofDigits found.1, found.2)).map fun found => (-(found.1 : Int), found.2)).map
          fun found => (some found.1, found.2)) = _
      rw [read]
      simp only [Option.map_some, Literal.ofDigits_digits]
      congr
      omega
    · rename_i positive
      change ((((takeSome ((Literal.digits exponent.natAbs).map digitByte ++ rest)).map fun found =>
        (Literal.ofDigits found.1, found.2)).map fun found => ((found.1 : Int), found.2)).map
          fun found => (some found.1, found.2)) = _
      rw [read]
      simp only [Option.map_some, Literal.ofDigits_digits]
      congr
      omega

/-! ### Whole numbers -/

/-- A number after its sign. -/
def takeUnsigned (negative : Bool) (bytes : List UInt8) : Option (Literal × List UInt8) := do
  let (whole, rest) ← takeWhole bytes
  let (fraction, rest) ← takeFraction rest
  let (exponent, rest) ← takeExponent rest
  some (⟨negative, whole, fraction, exponent⟩, rest)

theorem takeNumber_negative (bytes : List UInt8) :
    takeNumber (0x2D :: bytes) = takeUnsigned true bytes := by
  unfold takeNumber
  split
  rename_i sign
  obtain ⟨rfl, rfl⟩ := Prod.mk.inj sign
  rfl

theorem takeNumber_unsigned {first : UInt8} (unsigned : first ≠ 0x2D) (bytes : List UInt8) :
    takeNumber (first :: bytes) = takeUnsigned false (first :: bytes) := by
  unfold takeNumber
  split
  rename_i sign
  split at sign
  · rename_i same
    exact absurd (List.cons.inj same).1 unsigned
  · obtain ⟨rfl, rfl⟩ := Prod.mk.inj sign
    rfl

/-- What may come after the digits before the point. -/
theorem stops_exponent (exponent : Option Int) (closes : Closes rest) :
    Stops (encodeChars (Literal.exponentText exponent) ++ rest) ∧
      ∀ later, encodeChars (Literal.exponentText exponent) ++ rest ≠ 0x2E :: later := by
  cases exponent with
  | none =>
    refine ⟨closes.stops, ?_⟩
    rintro later rfl
    rcases closes 0x2E rfl with same | same | same <;> cases same
  | some exponent =>
    rw [Literal.exponentText, Utf8.encodeChars_cons]
    exact ⟨stops_cons rfl, fun later same => absurd (List.cons.inj same).1 (by decide)⟩

theorem stops_fraction (fraction : List Digit) (stops : Stops rest) :
    Stops (encodeChars (if fraction = [] then [] else '.' :: Literal.digitText fraction) ++
      rest) := by
  split
  · exact stops
  · rw [Utf8.encodeChars_cons]
    exact stops_cons rfl

theorem takeUnsigned_text {literal : Literal} (numeral : literal.IsNumeral)
    (closes : Closes rest) :
    takeUnsigned literal.negative (literal.whole.map digitByte ++
      (encodeChars (if literal.fraction = [] then [] else
        '.' :: Literal.digitText literal.fraction) ++
          (encodeChars (Literal.exponentText literal.exponent) ++ rest))) =
      some (literal, rest) := by
  obtain ⟨stops, unpointed⟩ := stops_exponent literal.exponent closes
  rw [takeUnsigned, takeWhole_map numeral (stops_fraction _ stops)]
  dsimp only [Option.bind_eq_bind, Option.bind_some]
  rw [takeFraction_text _ stops unpointed]
  dsimp only [Option.bind_some]
  rw [takeExponent_text _ closes]
  rfl

theorem digitByte_ne_sign : ∀ digit, digitByte digit ≠ 0x2D := by
  decide

/-- A numeral starts with its sign or with a digit. -/
theorem front_text {literal : Literal} (numeral : literal.IsNumeral) :
    (∃ bytes, encodeChars literal.text = 0x2D :: bytes) ∨
      ∃ digit bytes, encodeChars literal.text = digitByte digit :: bytes := by
  obtain ⟨first, others, front⟩ := numeral.exists_cons
  rw [Literal.text, Utf8.encodeChars_append, Utf8.encodeChars_append, Utf8.encodeChars_append,
    encodeChars_digitText, front]
  cases literal.negative with
  | true => exact .inl ⟨_, rfl⟩
  | false => exact .inr ⟨first, _, rfl⟩

/-- A numeral is read back, whatever it is followed by. -/
theorem takeNumber_text {literal : Literal} (numeral : literal.IsNumeral) (closes : Closes rest) :
    takeNumber (encodeChars literal.text ++ rest) = some (literal, rest) := by
  have read := takeUnsigned_text numeral closes
  rw [Literal.text, Utf8.encodeChars_append, Utf8.encodeChars_append, Utf8.encodeChars_append,
    encodeChars_digitText, List.append_assoc, List.append_assoc, List.append_assoc]
  obtain ⟨first, others, front⟩ := numeral.exists_cons
  cases sign : literal.negative with
  | true =>
    rw [sign] at read
    rw [if_pos rfl, Utf8.encodeChars_cons]
    exact (takeNumber_negative _).trans read
  | false =>
    rw [sign] at read
    rw [if_neg (by decide)]
    rw [front] at read ⊢
    exact (takeNumber_unsigned (digitByte_ne_sign first) _).trans read

end Json

end Shading
