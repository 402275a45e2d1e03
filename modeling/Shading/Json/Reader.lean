/-
Reading JSON text. The reader works on bytes and accepts one document with
blanks around it and nothing else. It judges the form only: numbers may be out
of any range, and strings may name characters that do not exist. How deep a
document may nest is likewise left to whoever decodes the tree.
-/

import Shading.Json.Syntax

namespace Shading.Json

/-! ### Blanks and digits -/

def isBlank (byte : UInt8) : Bool := byte = 0x20 || byte = 0x0A || byte = 0x0D || byte = 0x09

def skipBlanks (bytes : List UInt8) : List UInt8 := bytes.dropWhile isBlank

def digit? (byte : UInt8) : Option Digit :=
  if 0x30 ≤ byte ∧ byte ≤ 0x39 then some (Digit.ofNat (byte.toNat - 0x30)) else none

/-- The digits a text starts with, and what follows them. -/
def takeDigits : List UInt8 → List Digit × List UInt8
  | [] => ([], [])
  | byte :: rest =>
    match digit? byte with
    | some digit =>
      let (digits, rest) := takeDigits rest
      (digit :: digits, rest)
    | none => ([], byte :: rest)

def takeSome (bytes : List UInt8) : Option (List Digit × List UInt8) :=
  match takeDigits bytes with
  | ([], _) => none
  | found => some found

/-! ### Numbers -/

/-- No other digit follows a leading zero. -/
def takeWhole (bytes : List UInt8) : Option (List Digit × List UInt8) :=
  match takeSome bytes with
  | some (0 :: _ :: _, _) => none
  | found => found

def takeFraction : List UInt8 → Option (List Digit × List UInt8)
  | 0x2E :: rest => takeSome rest
  | bytes => some ([], bytes)

def takeSignedExponent (bytes : List UInt8) : Option (Int × List UInt8) :=
  let size (rest : List UInt8) : Option (Nat × List UInt8) :=
    (takeSome rest).map fun (digits, rest) => (Literal.ofDigits digits, rest)
  match bytes with
  | 0x2D :: rest => (size rest).map fun (value, rest) => (-(value : Int), rest)
  | 0x2B :: rest => (size rest).map fun (value, rest) => ((value : Int), rest)
  | _ => (size bytes).map fun (value, rest) => ((value : Int), rest)

def takeExponent (bytes : List UInt8) : Option (Option Int × List UInt8) :=
  match bytes with
  | 0x65 :: rest | 0x45 :: rest =>
    (takeSignedExponent rest).map fun (exponent, rest) => (some exponent, rest)
  | _ => some (none, bytes)

def takeNumber (bytes : List UInt8) : Option (Literal × List UInt8) := do
  let (negative, rest) := match bytes with
    | 0x2D :: rest => (true, rest)
    | _ => (false, bytes)
  let (whole, rest) ← takeWhole rest
  let (fraction, rest) ← takeFraction rest
  let (exponent, rest) ← takeExponent rest
  some (⟨negative, whole, fraction, exponent⟩, rest)

/-! ### Strings -/

def hexValue? (byte : UInt8) : Option Nat :=
  if 0x30 ≤ byte ∧ byte ≤ 0x39 then some (byte.toNat - 0x30)
  else if 0x61 ≤ byte ∧ byte ≤ 0x66 then some (byte.toNat - 0x57)
  else if 0x41 ≤ byte ∧ byte ≤ 0x46 then some (byte.toNat - 0x37)
  else none

/-- A unit written with four hexadecimal digits. -/
def takeUnit : List UInt8 → Option (Nat × List UInt8)
  | first :: second :: third :: fourth :: rest => do
    let value := (((← hexValue? first) * 16 + (← hexValue? second)) * 16 +
      (← hexValue? third)) * 16 + (← hexValue? fourth)
    some (value, rest)
  | _ => none

/-- What the pieces of a string stand for: a byte as written, a character from
an escape, or half of a surrogate pair. -/
inductive Piece where
  | byte (value : UInt8)
  | char (value : Char)
  | unit (value : Nat)
deriving DecidableEq, Inhabited

def Piece.ofUnit (value : Nat) : Piece :=
  if 0xD800 ≤ value ∧ value < 0xE000 then .unit value else .char (Char.ofNat value)

def takeEscape : List UInt8 → Option (Piece × List UInt8)
  | 0x22 :: rest => some (.char '"', rest)
  | 0x5C :: rest => some (.char '\\', rest)
  | 0x2F :: rest => some (.char '/', rest)
  | 0x62 :: rest => some (.char '\x08', rest)
  | 0x66 :: rest => some (.char '\x0c', rest)
  | 0x6E :: rest => some (.char '\n', rest)
  | 0x72 :: rest => some (.char '\r', rest)
  | 0x74 :: rest => some (.char '\t', rest)
  | 0x75 :: rest => (takeUnit rest).map fun (value, rest) => (.ofUnit value, rest)
  | _ => none

/-- The pieces up to the closing quote. The fuel is any bound on the number of
bytes. -/
def takePieces : Nat → List UInt8 → Option (List Piece × List UInt8)
  | 0, _ => none
  | _, [] => none
  | _, 0x22 :: rest => some ([], rest)
  | fuel + 1, 0x5C :: rest => do
    let (piece, rest) ← takeEscape rest
    let (pieces, rest) ← takePieces fuel rest
    some (piece :: pieces, rest)
  | fuel + 1, byte :: rest =>
    if byte < 0x20 then none
    else do
      let (pieces, rest) ← takePieces fuel rest
      some (.byte byte :: pieces, rest)

/-- The bytes of the text; two units that form a surrogate pair are one
character, and any other unit has no text. -/
def textBytes? : List Piece → Option (List UInt8)
  | [] => some []
  | .byte value :: rest => (textBytes? rest).map (value :: ·)
  | .char value :: rest => (textBytes? rest).map (String.utf8EncodeChar value ++ ·)
  | .unit high :: .unit low :: rest =>
    if high < 0xDC00 ∧ 0xDC00 ≤ low then
      let char := Char.ofNat (0x10000 + (high - 0xD800) * 0x400 + (low - 0xDC00))
      (textBytes? rest).map (String.utf8EncodeChar char ++ ·)
    else none
  | .unit _ :: _ => none

def textOf? (pieces : List Piece) : Option String := (textBytes? pieces).bind Utf8.text?

/-- A string after its opening quote. -/
def takeString (fuel : Nat) (bytes : List UInt8) : Option (Option String × List UInt8) :=
  (takePieces fuel bytes).map fun (pieces, rest) => (textOf? pieces, rest)

/-! ### Documents -/

def takeWord : List UInt8 → List UInt8 → Option (List UInt8)
  | [], rest => some rest
  | expected :: word, byte :: rest => if byte = expected then takeWord word rest else none
  | _, [] => none

mutual

/-- One value, with blanks before it allowed. Each step down or along consumes
at least one byte, so the number of bytes is fuel enough. -/
def takeValue : Nat → List UInt8 → Option (Json × List UInt8)
  | 0, _ => none
  | fuel + 1, bytes =>
    match skipBlanks bytes with
    | 0x6E :: rest => (takeWord [0x75, 0x6C, 0x6C] rest).map fun rest => (.null, rest)
    | 0x74 :: rest => (takeWord [0x72, 0x75, 0x65] rest).map fun rest => (.bool true, rest)
    | 0x66 :: rest =>
      (takeWord [0x61, 0x6C, 0x73, 0x65] rest).map fun rest => (.bool false, rest)
    | 0x22 :: rest => (takeString (fuel + 1) rest).map fun (text, rest) => (.string text, rest)
    | 0x5B :: rest =>
      match skipBlanks rest with
      | 0x5D :: rest => some (.array [], rest)
      | rest => (takeItems fuel rest).map fun (items, rest) => (.array items, rest)
    | 0x7B :: rest =>
      match skipBlanks rest with
      | 0x7D :: rest => some (.object [], rest)
      | rest => (takeMembers fuel rest).map fun (members, rest) => (.object members, rest)
    | rest => (takeNumber rest).map fun (literal, rest) => (.number literal, rest)

/-- The items of an array that is not empty, and its closing bracket. -/
def takeItems : Nat → List UInt8 → Option (List Json × List UInt8)
  | 0, _ => none
  | fuel + 1, bytes => do
    let (item, rest) ← takeValue fuel bytes
    match skipBlanks rest with
    | 0x2C :: rest =>
      let (items, rest) ← takeItems fuel rest
      some (item :: items, rest)
    | 0x5D :: rest => some ([item], rest)
    | _ => none

/-- The members of an object that is not empty, and its closing brace. -/
def takeMembers : Nat → List UInt8 → Option (List (Option String × Json) × List UInt8)
  | 0, _ => none
  | fuel + 1, bytes =>
    match skipBlanks bytes with
    | 0x22 :: rest => do
      let (name, rest) ← takeString (fuel + 1) rest
      match skipBlanks rest with
      | 0x3A :: rest =>
        let (value, rest) ← takeValue fuel rest
        match skipBlanks rest with
        | 0x2C :: rest =>
          let (members, rest) ← takeMembers fuel rest
          some ((name, value) :: members, rest)
        | 0x7D :: rest => some ([(name, value)], rest)
        | _ => none
      | _ => none
    | _ => none

end

/-- Reads a whole text as one document. -/
def read? (bytes : List UInt8) : Option Json :=
  match takeValue (2 * bytes.length + 2) bytes with
  | some (document, rest) => if skipBlanks rest = [] then some document else none
  | none => none

end Shading.Json
