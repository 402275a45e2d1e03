/-
UTF-8 as lists of bytes. Writing a text gives the bytes that digests and
archives are made of; reading accepts exactly the bytes that writing produces,
so overlong forms, surrogates and values past the last character are refused.
-/

namespace Shading.Utf8

def encodeChars (chars : List Char) : List UInt8 := chars.flatMap String.utf8EncodeChar

def encode (text : String) : List UInt8 := encodeChars text.toList

/-- The six payload bits of a continuation byte. -/
def continuation? (byte : UInt8) : Option Nat :=
  if 0x80 ≤ byte ∧ byte < 0xC0 then some (byte.toNat - 0x80) else none

/-- A character from its number, if it is one and lies above what a shorter
form can hold. -/
def char? (number lowest : Nat) : Option Char :=
  if h : number.isValidChar ∧ lowest ≤ number then some (Char.ofNatAux number h.1) else none

def decode? : List UInt8 → Option (List Char)
  | [] => some []
  | first :: rest =>
    if first < 0x80 then do
      let chars ← decode? rest
      some (Char.ofNat first.toNat :: chars)
    else if 0xC0 ≤ first ∧ first < 0xE0 then
      match rest with
      | second :: rest => do
        let low ← continuation? second
        let char ← char? ((first.toNat - 0xC0) * 64 + low) 0x80
        let chars ← decode? rest
        some (char :: chars)
      | _ => none
    else if 0xE0 ≤ first ∧ first < 0xF0 then
      match rest with
      | second :: third :: rest => do
        let middle ← continuation? second
        let low ← continuation? third
        let char ← char? (((first.toNat - 0xE0) * 64 + middle) * 64 + low) 0x800
        let chars ← decode? rest
        some (char :: chars)
      | _ => none
    else if 0xF0 ≤ first ∧ first < 0xF8 then
      match rest with
      | second :: third :: fourth :: rest => do
        let high ← continuation? second
        let middle ← continuation? third
        let low ← continuation? fourth
        let char ← char? ((((first.toNat - 0xF0) * 64 + high) * 64 + middle) * 64 + low) 0x10000
        let chars ← decode? rest
        some (char :: chars)
      | _ => none
    else none

def text? (bytes : List UInt8) : Option String := (decode? bytes).map String.ofList

end Shading.Utf8
