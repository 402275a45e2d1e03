/-
Reading documents back from their text. Writing a string escapes the quote, the
backslash and the controls; every other character stands for itself, and so does
each of its bytes, so the string is read back up to its closing quote. A document
is readable if all its strings have a value and all its numbers are numerals. The
reader takes such a document from the front of its text and leaves what follows
alone, so the text of a readable document is read as that document.
-/

import Shading.Proofs.Json.Numerals

namespace Shading.Json

open Utf8 (encodeChars)

variable {rest : List UInt8}

/-! ### Pieces -/

/-- A byte that stands for itself inside a string. -/
def Plain (byte : UInt8) : Prop := 0x20 ≤ byte ∧ byte ≠ 0x22 ∧ byte ≠ 0x5C

theorem takePieces_plain {byte : UInt8} (plain : Plain byte) (fuel : Nat) (rest : List UInt8) :
    takePieces (fuel + 1) (byte :: rest) =
      (takePieces fuel rest).map fun found => (.byte byte :: found.1, found.2) := by
  obtain ⟨visible, quote, slash⟩ := plain
  rw [takePieces]
  · rw [if_neg (UInt8.not_lt.mpr visible)]
    cases takePieces fuel rest <;> rfl
  · exact quote
  · exact slash

theorem takePieces_plains {bytes : List UInt8} (plain : ∀ byte ∈ bytes, Plain byte) (fuel : Nat)
    (rest : List UInt8) :
    takePieces (fuel + bytes.length) (bytes ++ rest) =
      (takePieces fuel rest).map fun found => (bytes.map .byte ++ found.1, found.2) := by
  induction bytes with
  | nil => exact (congrFun Option.map_id _).symm
  | cons byte bytes inductionHypothesis =>
    obtain ⟨first, others⟩ := List.forall_mem_cons.mp plain
    rw [List.length_cons, ← Nat.add_assoc, List.cons_append, takePieces_plain first,
      inductionHypothesis others, Option.map_map]
    rfl

theorem takePieces_escape {escaped : List UInt8} {piece : Piece}
    (taken : takeEscape escaped = some (piece, rest)) (fuel : Nat) :
    takePieces (fuel + 1) (0x5C :: escaped) =
      (takePieces fuel rest).map fun found => (piece :: found.1, found.2) := by
  rw [takePieces, taken]
  change ((takePieces fuel rest).bind fun found => some (piece :: found.1, found.2)) = _
  cases takePieces fuel rest <;> rfl

theorem textBytes?_bytes (bytes : List UInt8) (later : List Piece) :
    textBytes? (bytes.map .byte ++ later) = (textBytes? later).map (bytes ++ ·) := by
  induction bytes with
  | nil => exact (congrFun Option.map_id _).symm
  | cons byte bytes inductionHypothesis =>
    rw [List.map_cons, List.cons_append, textBytes?, inductionHypothesis, Option.map_map]
    rfl

/-! ### Escapes -/

theorem hexValue?_digitChar : ∀ value < 16,
    hexValue? (UInt8.ofNat value.digitChar.toNat) = some value ∧
      value.digitChar.toNat < 0x80 := by
  decide

theorem takeEscape_control {char : Char} (control : char.toNat < 32) (rest : List UInt8) :
    takeEscape (encodeChars ['u', '0', '0', (char.toNat / 16).digitChar,
      (char.toNat % 16).digitChar] ++ rest) = some (.char char, rest) := by
  obtain ⟨high, highAscii⟩ := hexValue?_digitChar (char.toNat / 16) (by omega)
  obtain ⟨low, lowAscii⟩ := hexValue?_digitChar (char.toNat % 16) (by omega)
  have bytes : encodeChars ['u', '0', '0', (char.toNat / 16).digitChar,
      (char.toNat % 16).digitChar] = [0x75, 0x30, 0x30,
        UInt8.ofNat (char.toNat / 16).digitChar.toNat,
        UInt8.ofNat (char.toNat % 16).digitChar.toNat] := by
    simp only [Utf8.encodeChars_cons, Utf8.encodeChar_ascii highAscii,
      Utf8.encodeChar_ascii lowAscii]
    rfl
  have zero : hexValue? 0x30 = some 0 := rfl
  have number : char.toNat / 16 * 16 + char.toNat % 16 = char.toNat := by omega
  have low' : ¬ (0xD800 ≤ char.toNat ∧ char.toNat < 0xE000) := by omega
  simp [bytes, takeEscape, takeUnit, high, low, zero, number, Piece.ofUnit, low']

theorem plain_of_mem_encodeChar {char : Char} (quote : char ≠ '"') (slash : char ≠ '\\')
    (visible : ¬ char.toNat < 32) {byte : UInt8} (member : byte ∈ String.utf8EncodeChar char) :
    Plain byte := by
  by_cases low : char.toNat < 0x80
  · rw [Utf8.encodeChar_ascii low, List.mem_singleton] at member
    have number : byte.toNat = char.toNat :=
      member ▸ UInt8.toNat_ofNat_of_lt' (Nat.lt_trans low (by decide))
    refine ⟨?_, ?_, ?_⟩
    · rw [UInt8.le_iff_toNat_le, number]
      exact Nat.le_of_not_lt visible
    · rintro rfl
      exact quote (Char.toNat_inj.mp number.symm)
    · rintro rfl
      exact slash (Char.toNat_inj.mp number.symm)
  · have high := Utf8.le_of_mem_encodeChar (Nat.le_of_not_lt low) member
    refine ⟨?_, ?_, ?_⟩
    · rw [UInt8.le_iff_toNat_le]
      exact Nat.le_trans (by decide) high
    · rintro rfl
      exact absurd high (by decide)
    · rintro rfl
      exact absurd high (by decide)

/-- A character is written as an escape of its own, or as it is. -/
theorem escape_cases (char : Char) :
    (∃ escaped, escape char = '\\' :: escaped ∧
      ∀ rest, takeEscape (encodeChars escaped ++ rest) = some (.char char, rest)) ∨
    escape char = [char] ∧ ∀ byte ∈ String.utf8EncodeChar char, Plain byte := by
  unfold escape
  split
  · rename_i same
    subst same
    exact .inl ⟨_, rfl, fun rest => rfl⟩
  rename_i quote
  split
  · rename_i same
    subst same
    exact .inl ⟨_, rfl, fun rest => rfl⟩
  rename_i slash
  split
  · rename_i same
    subst same
    exact .inl ⟨_, rfl, fun rest => rfl⟩
  split
  · rename_i same
    subst same
    exact .inl ⟨_, rfl, fun rest => rfl⟩
  split
  · rename_i same
    subst same
    exact .inl ⟨_, rfl, fun rest => rfl⟩
  split
  · rename_i same
    subst same
    exact .inl ⟨_, rfl, fun rest => rfl⟩
  split
  · rename_i same
    subst same
    exact .inl ⟨_, rfl, fun rest => rfl⟩
  split
  · rename_i control
    exact .inl ⟨_, rfl, takeEscape_control control⟩
  · rename_i visible
    exact .inr ⟨rfl, fun byte => plain_of_mem_encodeChar quote slash visible⟩

/-! ### Whole strings -/

theorem takePieces_chars (chars : List Char) (fuel : Nat) (rest : List UInt8)
    (enough : (encodeChars (chars.flatMap escape)).length < fuel) :
    ∃ pieces, takePieces fuel (encodeChars (chars.flatMap escape) ++ 0x22 :: rest) =
      some (pieces, rest) ∧ textBytes? pieces = some (encodeChars chars) := by
  induction chars generalizing fuel with
  | nil =>
    obtain ⟨fuel, rfl⟩ := Nat.exists_eq_add_of_lt enough
    exact ⟨[], rfl, rfl⟩
  | cons char chars inductionHypothesis =>
    rw [List.flatMap_cons, Utf8.encodeChars_append, List.length_append] at enough
    rw [List.flatMap_cons, Utf8.encodeChars_append, List.append_assoc]
    rcases escape_cases char with ⟨escaped, written, taken⟩ | ⟨written, plain⟩
    · have front : encodeChars (escape char) = 0x5C :: encodeChars escaped := by
        rw [written, Utf8.encodeChars_cons]
        rfl
      rw [front, List.length_cons] at enough
      obtain ⟨fuel, rfl⟩ : ∃ less, fuel = less + 1 := ⟨fuel - 1, by omega⟩
      obtain ⟨pieces, found, read⟩ := inductionHypothesis fuel (by omega)
      refine ⟨.char char :: pieces, ?_, ?_⟩
      · rw [front, List.cons_append, takePieces_escape (taken _), found]
        rfl
      · rw [textBytes?, read, Utf8.encodeChars_cons]
        rfl
    · have front : encodeChars (escape char) = String.utf8EncodeChar char := by
        rw [written, Utf8.encodeChars_cons]
        exact List.append_nil _
      rw [front] at enough ⊢
      obtain ⟨less, rfl⟩ : ∃ less, fuel = less + (String.utf8EncodeChar char).length :=
        ⟨fuel - (String.utf8EncodeChar char).length, by omega⟩
      obtain ⟨pieces, found, read⟩ := inductionHypothesis less (by omega)
      refine ⟨(String.utf8EncodeChar char).map .byte ++ pieces, ?_, ?_⟩
      · rw [takePieces_plains plain, found]
        rfl
      · rw [textBytes?_bytes, read, Utf8.encodeChars_cons]
        rfl

/-- A string is read back up to its closing quote. -/
theorem takeString_quoted (text : String) {fuel : Nat}
    (enough : (encodeChars (text.toList.flatMap escape)).length < fuel) (rest : List UInt8) :
    takeString fuel (encodeChars (text.toList.flatMap escape) ++ 0x22 :: rest) =
      some (some text, rest) := by
  obtain ⟨pieces, found, read⟩ := takePieces_chars text.toList fuel rest enough
  have whole : textOf? pieces = some text := by
    rw [textOf?, read, Option.bind_some]
    exact Utf8.text?_encode text
  rw [takeString, found, ← whole]
  rfl

/-! ### Readable documents -/

mutual

/-- Every string has a value, and every number is a numeral. -/
def Readable : Json → Prop
  | .number literal => literal.IsNumeral
  | .string text => text.isSome
  | .array items => ReadableItems items
  | .object members => ReadableMembers members
  | _ => True

def ReadableItems : List Json → Prop
  | [] => True
  | item :: items => item.Readable ∧ ReadableItems items

def ReadableMembers : List (Option String × Json) → Prop
  | [] => True
  | (name, value) :: members => name.isSome ∧ value.Readable ∧ ReadableMembers members

end

theorem readable_array {items : List Json} (readable : ∀ item ∈ items, item.Readable) :
    (array items).Readable := by
  rw [Readable]
  induction items with
  | nil => trivial
  | cons item items inductionHypothesis =>
    obtain ⟨first, others⟩ := List.forall_mem_cons.mp readable
    exact ⟨first, inductionHypothesis others⟩

theorem readable_record {members : List (String × Json)}
    (readable : ∀ member ∈ members, member.2.Readable) : (record members).Readable := by
  rw [record, Readable]
  induction members with
  | nil => trivial
  | cons member members inductionHypothesis =>
    obtain ⟨first, others⟩ := List.forall_mem_cons.mp readable
    exact ⟨rfl, first, inductionHypothesis others⟩

/-! ### The first byte -/

theorem skipBlanks_cons {byte : UInt8} (mark : isBlank byte = false) (bytes : List UInt8) :
    skipBlanks (byte :: bytes) = byte :: bytes := by
  rw [skipBlanks, List.dropWhile_cons_of_neg]
  rw [mark]
  exact Bool.false_ne_true

theorem takeValue_digit (fuel : Nat) (digit : Digit) (bytes : List UInt8) :
    takeValue (fuel + 1) (digitByte digit :: bytes) =
      (takeNumber (digitByte digit :: bytes)).map fun (literal, rest) => (.number literal, rest) := by
  fin_cases digit <;> rfl

theorem takeValue_sign (fuel : Nat) (bytes : List UInt8) :
    takeValue (fuel + 1) (0x2D :: bytes) =
      (takeNumber (0x2D :: bytes)).map fun (literal, rest) => (.number literal, rest) :=
  rfl

theorem takeValue_text (text : String) {fuel : Nat}
    (enough : (encodeChars (text.toList.flatMap escape)).length < fuel) (rest : List UInt8) :
    takeValue fuel (encodeChars (quoted text) ++ rest) = some (.string (some text), rest) := by
  obtain ⟨fuel, rfl⟩ := Nat.exists_eq_add_of_lt enough
  rw [quoted, Utf8.encodeChars_append, Utf8.encodeChars_cons, List.append_assoc, List.append_assoc]
  change ((takeString _ (encodeChars (text.toList.flatMap escape) ++ 0x22 :: rest)).map
    fun found => (Json.string found.1, found.2)) = _
  rw [takeString_quoted text (by omega)]
  rfl

theorem takeValue_number {literal : Literal} (numeral : literal.IsNumeral) (closes : Closes rest)
    (fuel : Nat) :
    takeValue (fuel + 1) (encodeChars literal.text ++ rest) = some (.number literal, rest) := by
  have read := takeNumber_text numeral closes
  rcases front_text numeral with ⟨bytes, front⟩ | ⟨digit, bytes, front⟩
  · rw [front, List.cons_append] at read ⊢
    rw [takeValue_sign, read]
    rfl
  · rw [front, List.cons_append] at read ⊢
    rw [takeValue_digit, read]
    rfl

theorem takeValue_items {byte : UInt8} (mark : isBlank byte = false) (open' : byte ≠ 0x5D)
    (fuel : Nat) (bytes : List UInt8) :
    takeValue (fuel + 1) (0x5B :: byte :: bytes) =
      (takeItems fuel (byte :: bytes)).map fun (items, rest) => (.array items, rest) := by
  have inside : skipBlanks (byte :: bytes) = byte :: bytes := skipBlanks_cons mark bytes
  rw [takeValue, skipBlanks_cons rfl]
  split
  case h_5 same =>
    obtain ⟨-, rfl⟩ := List.cons.inj same
    rw [inside]
    split
    · rename_i same
      exact absurd (List.cons.inj same).1 open'
    · rfl
  case h_7 other _ => exact (other _ rfl).elim
  all_goals
    rename_i same
    exact absurd (List.cons.inj same).1 (by decide)

theorem takeItems_last {fuel : Nat} {bytes later : List UInt8} {item : Json}
    (taken : takeValue fuel bytes = some (item, 0x5D :: later)) :
    takeItems (fuel + 1) bytes = some ([item], later) := by
  rw [takeItems, taken]
  rfl

theorem takeItems_more {fuel : Nat} {bytes later : List UInt8} {item : Json}
    (taken : takeValue fuel bytes = some (item, 0x2C :: later)) :
    takeItems (fuel + 1) bytes =
      (takeItems fuel later).map fun (items, rest) => (item :: items, rest) := by
  rw [takeItems, taken]
  change ((takeItems fuel later).bind fun found => some (item :: found.1, found.2)) = _
  cases takeItems fuel later <;> rfl

theorem takeMembers_last {fuel : Nat} {bytes between later : List UInt8} {name : Option String}
    {value : Json} (named : takeString (fuel + 1) bytes = some (name, 0x3A :: between))
    (taken : takeValue fuel between = some (value, 0x7D :: later)) :
    takeMembers (fuel + 1) (0x22 :: bytes) = some ([(name, value)], later) := by
  change ((takeString (fuel + 1) bytes).bind fun found => _) = _
  rw [named]
  change ((takeValue fuel between).bind fun found => _) = _
  rw [taken]
  rfl

theorem takeMembers_more {fuel : Nat} {bytes between later : List UInt8} {name : Option String}
    {value : Json} (named : takeString (fuel + 1) bytes = some (name, 0x3A :: between))
    (taken : takeValue fuel between = some (value, 0x2C :: later)) :
    takeMembers (fuel + 1) (0x22 :: bytes) =
      (takeMembers fuel later).map fun (members, rest) => ((name, value) :: members, rest) := by
  change ((takeString (fuel + 1) bytes).bind fun found => _) = _
  rw [named]
  change ((takeValue fuel between).bind fun found => _) = _
  rw [taken]
  change ((takeMembers fuel later).bind fun found => some ((name, value) :: found.1, found.2)) = _
  cases takeMembers fuel later <;> rfl

/-! ### Whole documents -/

theorem front_print {document : Json} (readable : document.Readable) :
    ∃ byte bytes, encodeChars document.print = byte :: bytes ∧ isBlank byte = false ∧
      byte ≠ 0x5D := by
  match document with
  | .null => exact ⟨0x6E, _, rfl, rfl, by decide⟩
  | .bool true => exact ⟨0x74, _, rfl, rfl, by decide⟩
  | .bool false => exact ⟨0x66, _, rfl, rfl, by decide⟩
  | .number literal =>
    rcases front_text readable with ⟨bytes, front⟩ | ⟨digit, bytes, front⟩
    · exact ⟨_, _, front, rfl, by decide⟩
    · have marks : ∀ digit, isBlank (digitByte digit) = false ∧ digitByte digit ≠ 0x5D := by
        decide
      exact ⟨_, _, front, marks digit⟩
  | .string text => exact ⟨0x22, _, rfl, rfl, by decide⟩
  | .array items => exact ⟨0x5B, _, rfl, rfl, by decide⟩
  | .object members => exact ⟨0x7B, _, rfl, rfl, by decide⟩

theorem encodeChars_items (item next : Json) (items : List Json) :
    encodeChars (printItems (item :: next :: items)) =
      encodeChars item.print ++ 0x2C :: encodeChars (printItems (next :: items)) :=
  Utf8.encodeChars_append _ _

theorem front_printItems {item : Json} {items : List Json}
    (readable : ReadableItems (item :: items)) :
    ∃ byte bytes, encodeChars (printItems (item :: items)) = byte :: bytes ∧
      isBlank byte = false ∧ byte ≠ 0x5D := by
  obtain ⟨byte, bytes, front, marks⟩ := front_print readable.1
  cases items with
  | nil => exact ⟨byte, bytes, front, marks⟩
  | cons next items =>
    refine ⟨byte, bytes ++ 0x2C :: encodeChars (printItems (next :: items)), ?_, marks⟩
    rw [encodeChars_items, front, List.cons_append]

theorem front_printMembers {members : List (Option String × Json)} (some' : members ≠ []) :
    ∃ bytes, encodeChars (printMembers members) = 0x22 :: bytes := by
  match members with
  | [(name, value)] => exact ⟨_, rfl⟩
  | (name, value) :: next :: members => exact ⟨_, rfl⟩

theorem encodeChars_between (opening closing : Char) (inside : List Char) :
    encodeChars (opening :: inside ++ [closing]) =
      String.utf8EncodeChar opening ++ (encodeChars inside ++ String.utf8EncodeChar closing) := by
  rw [Utf8.encodeChars_append, Utf8.encodeChars_cons, List.append_assoc]
  exact congrArg _ (congrArg _ (List.append_nil _))

theorem encodeChars_quoted (text : String) :
    encodeChars (quoted text) = 0x22 :: (encodeChars (text.toList.flatMap escape) ++ [0x22]) :=
  encodeChars_between '"' '"' _

theorem encodeChars_array (items : List Json) :
    encodeChars (print (.array items)) = 0x5B :: (encodeChars (printItems items) ++ [0x5D]) :=
  encodeChars_between '[' ']' _

theorem encodeChars_object (members : List (Option String × Json)) :
    encodeChars (print (.object members)) =
      0x7B :: (encodeChars (printMembers members) ++ [0x7D]) :=
  encodeChars_between '\x7b' '\x7d' _

/-- The text of a name after its first quote, up to the value. -/
def named (name : String) (rest : List UInt8) : List UInt8 :=
  encodeChars (name.toList.flatMap escape) ++ 0x22 :: 0x3A :: rest

theorem encodeChars_member (name : String) (value : Json) :
    encodeChars (printMembers [(some name, value)]) =
      0x22 :: named name (encodeChars value.print) := by
  show encodeChars (quoted name ++ ':' :: value.print) = _
  rw [Utf8.encodeChars_append, encodeChars_quoted, named, List.cons_append, List.append_assoc]
  rfl

theorem encodeChars_members (name : String) (value : Json) (next : Option String × Json)
    (members : List (Option String × Json)) :
    encodeChars (printMembers ((some name, value) :: next :: members)) =
      0x22 :: named name
        (encodeChars value.print ++ 0x2C :: encodeChars (printMembers (next :: members))) := by
  show encodeChars (quoted name ++ ':' :: value.print ++ ',' :: printMembers (next :: members)) = _
  rw [Utf8.encodeChars_append, Utf8.encodeChars_append, encodeChars_quoted, named,
    List.cons_append, List.append_assoc, List.cons_append, List.append_assoc]
  rfl

theorem named_append (name : String) (front rest : List UInt8) :
    named name front ++ rest = named name (front ++ rest) := by
  rw [named, named, List.append_assoc]
  rfl

theorem takeString_named (name : String) {fuel : Nat}
    (enough : (encodeChars (name.toList.flatMap escape)).length < fuel) (rest : List UInt8) :
    takeString fuel (named name rest) = some (some name, 0x3A :: rest) :=
  takeString_quoted name enough _

theorem length_named (name : String) (rest : List UInt8) :
    (named name rest).length =
      (encodeChars (name.toList.flatMap escape)).length + rest.length + 2 := by
  rw [named, List.length_append, List.length_cons, List.length_cons]
  omega

mutual

/-- A readable document is taken from the front of its text. -/
theorem takeValue_print {document : Json} (readable : document.Readable) {fuel : Nat}
    (enough : 2 * (encodeChars document.print).length ≤ fuel) {rest : List UInt8}
    (closes : Closes rest) :
    takeValue fuel (encodeChars document.print ++ rest) = some (document, rest) := by
  obtain ⟨fuel, rfl⟩ : ∃ less, fuel = less + 1 := by
    obtain ⟨byte, bytes, front, -, -⟩ := front_print readable
    rw [front, List.length_cons] at enough
    exact ⟨fuel - 1, by omega⟩
  match document with
  | .null => rfl
  | .bool true => rfl
  | .bool false => rfl
  | .number literal => exact takeValue_number readable closes fuel
  | .string (some text) =>
    change 2 * (encodeChars (quoted text)).length ≤ fuel + 1 at enough
    rw [encodeChars_quoted, List.length_cons, List.length_append] at enough
    exact takeValue_text text (by omega) rest
  | .array [] => rfl
  | .array (item :: items) =>
    rw [encodeChars_array, List.length_cons, List.length_append] at enough
    obtain ⟨byte, bytes, front, mark, other⟩ := front_printItems readable
    have inside : takeItems fuel (encodeChars (printItems (item :: items)) ++ 0x5D :: rest) =
        some (item :: items, rest) :=
      takeItems_print readable (List.cons_ne_nil _ _) (by omega) rest
    rw [encodeChars_array, List.cons_append, List.append_assoc, List.singleton_append]
    rw [front, List.cons_append] at inside ⊢
    rw [takeValue_items mark other, inside]
    rfl
  | .object [] => rfl
  | .object (member :: members) =>
    rw [encodeChars_object, List.length_cons, List.length_append] at enough
    obtain ⟨bytes, front⟩ := front_printMembers (List.cons_ne_nil member members)
    have inside : takeMembers fuel (encodeChars (printMembers (member :: members)) ++
        0x7D :: rest) = some (member :: members, rest) :=
      takeMembers_print readable (List.cons_ne_nil _ _) (by omega) rest
    rw [encodeChars_object, List.cons_append, List.append_assoc, List.singleton_append]
    rw [front, List.cons_append] at inside ⊢
    exact congrArg (Option.map fun (members, rest) => (Json.object members, rest)) inside

theorem takeItems_print {items : List Json} (readable : ReadableItems items) (some' : items ≠ [])
    {fuel : Nat} (enough : 2 * (encodeChars (printItems items)).length + 1 ≤ fuel)
    (rest : List UInt8) :
    takeItems fuel (encodeChars (printItems items) ++ 0x5D :: rest) = some (items, rest) := by
  obtain ⟨fuel, rfl⟩ : ∃ less, fuel = less + 1 := ⟨fuel - 1, by omega⟩
  match items with
  | [item] =>
    change 2 * (encodeChars item.print).length + 1 ≤ fuel + 1 at enough
    have taken : takeValue fuel (encodeChars item.print ++ 0x5D :: rest) =
        some (item, 0x5D :: rest) :=
      takeValue_print readable.1 (by omega) (closes_cons (by decide))
    exact takeItems_last taken
  | item :: next :: items =>
    rw [encodeChars_items, List.length_append, List.length_cons] at enough
    have taken (later : List UInt8) :
        takeValue fuel (encodeChars item.print ++ 0x2C :: later) = some (item, 0x2C :: later) :=
      takeValue_print readable.1 (by omega) (closes_cons (by decide))
    rw [encodeChars_items, List.append_assoc, List.cons_append, takeItems_more (taken _),
      takeItems_print readable.2 (List.cons_ne_nil _ _) (by omega) rest]
    rfl

theorem takeMembers_print {members : List (Option String × Json)}
    (readable : ReadableMembers members) (some' : members ≠ []) {fuel : Nat}
    (enough : 2 * (encodeChars (printMembers members)).length + 1 ≤ fuel) (rest : List UInt8) :
    takeMembers fuel (encodeChars (printMembers members) ++ 0x7D :: rest) =
      some (members, rest) := by
  obtain ⟨fuel, rfl⟩ : ∃ less, fuel = less + 1 := ⟨fuel - 1, by omega⟩
  match members with
  | [(some name, value)] =>
    rw [encodeChars_member, List.length_cons, length_named] at enough
    have taken : takeValue fuel (encodeChars value.print ++ 0x7D :: rest) =
        some (value, 0x7D :: rest) :=
      takeValue_print readable.2.1 (by omega) (closes_cons (by decide))
    rw [encodeChars_member, List.cons_append, named_append]
    exact takeMembers_last (takeString_named name (by omega) _) taken
  | (some name, value) :: next :: members =>
    rw [encodeChars_members, List.length_cons, length_named, List.length_append,
      List.length_cons] at enough
    have taken (later : List UInt8) :
        takeValue fuel (encodeChars value.print ++ 0x2C :: later) = some (value, 0x2C :: later) :=
      takeValue_print readable.2.1 (by omega) (closes_cons (by decide))
    have called (later : List UInt8) :
        takeString (fuel + 1) (named name later) = some (some name, 0x3A :: later) :=
      takeString_named name (by omega) later
    rw [encodeChars_members, List.cons_append, named_append, List.append_assoc, List.cons_append,
      takeMembers_more (called _) (taken _),
      takeMembers_print readable.2.2 (List.cons_ne_nil _ _) (by omega) rest]
    rfl

end

theorem encode_render (document : Json) :
    Utf8.encode document.render = encodeChars document.print := by
  rw [Utf8.encode, render, String.toList_ofList]

/-- The text of a readable document is read as that document. -/
theorem read?_render {document : Json} (readable : document.Readable) :
    read? (Utf8.encode document.render) = some document := by
  have taken := takeValue_print readable
    (show 2 * (encodeChars document.print).length ≤ 2 * (encodeChars document.print).length + 2
      by omega) closes_nil
  rw [List.append_nil] at taken
  rw [encode_render, read?, taken]
  rfl

end Shading.Json
