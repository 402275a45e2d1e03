/-
Bytes and digests as text. In hexadecimal, bytes are two lower-case digits each
and digests 32 digits. A digest may be written with a leading plus sign, leading
zeros and digits of either case, as long as its value fits 128 bits.

Base64 has the standard alphabet. Reading accepts exactly the canonical text of
some bytes: groups of four, padding where the last group is short, and zero in
the bits the last group does not use.
-/

import Shading.Digest.Xxh3

namespace Shading.Base64

def alphabet : List Char :=
  "ABCDEFGHIJKLMNOPQRSTUVWXYZabcdefghijklmnopqrstuvwxyz0123456789+/".toList

def digit (value : Nat) : Char := alphabet.getD (value % 64) 'A'

def digitValue? (char : Char) : Option Nat := alphabet.findIdx? (· = char)

/-! ### Writing -/

/-- The text without padding. -/
def encodeBare : List UInt8 → List Char
  | [] => []
  | [first] =>
    let bits := first.toNat * 16
    [digit (bits / 64), digit bits]
  | [first, second] =>
    let bits := (first.toNat * 256 + second.toNat) * 4
    [digit (bits / 4096), digit (bits / 64), digit bits]
  | first :: second :: third :: rest =>
    let bits := (first.toNat * 256 + second.toNat) * 256 + third.toNat
    digit (bits / 262144) :: digit (bits / 4096) :: digit (bits / 64) :: digit bits ::
      encodeBare rest

def padding (count : Nat) : List Char :=
  match count % 3 with
  | 0 => []
  | 1 => ['=', '=']
  | _ => ['=']

def encode (bytes : List UInt8) : String :=
  String.ofList (encodeBare bytes ++ padding bytes.length)

def encodeUnpadded (bytes : List UInt8) : String := String.ofList (encodeBare bytes)

/-! ### Reading -/

def byte (value : Nat) : UInt8 := UInt8.ofNat value

/-- Decodes groups of four; only the last one may be padded. -/
def decodeGroups : List Char → Option (List UInt8)
  | [] => some []
  | [first, second, '=', '='] => do
    let bits := (← digitValue? first) * 64 + (← digitValue? second)
    if bits % 16 = 0 then some [byte (bits / 16)] else none
  | [first, second, third, '='] => do
    let bits := ((← digitValue? first) * 64 + (← digitValue? second)) * 64 +
      (← digitValue? third)
    if bits % 4 = 0 then some [byte (bits / 1024), byte (bits / 4)] else none
  | first :: second :: third :: fourth :: rest => do
    let bits := (((← digitValue? first) * 64 + (← digitValue? second)) * 64 +
      (← digitValue? third)) * 64 + (← digitValue? fourth)
    let tail ← decodeGroups rest
    some (byte (bits / 65536) :: byte (bits / 256) :: byte bits :: tail)
  | _ => none

def decode? (text : String) : Option (List UInt8) := decodeGroups text.toList

end Shading.Base64

namespace Shading

namespace Hex

def digit (value : Nat) : Char := Nat.digitChar value

/-- The low `width` digits of a number. -/
def fixed (width value : Nat) : List Char :=
  match width with
  | 0 => []
  | width + 1 => fixed width (value / 16) ++ [digit (value % 16)]

def ofBytes (bytes : List UInt8) : String :=
  String.ofList (bytes.flatMap fun byte => fixed 2 byte.toNat)

/-- A number without leading zeros. -/
def ofNat (value : Nat) : String := String.ofList (Nat.toDigits 16 value)

def digitValue? (char : Char) : Option Nat :=
  if '0' ≤ char ∧ char ≤ '9' then some (char.toNat - 48)
  else if 'a' ≤ char ∧ char ≤ 'f' then some (char.toNat - 87)
  else if 'A' ≤ char ∧ char ≤ 'F' then some (char.toNat - 55)
  else none

def value? (digits : List Char) : Option Nat :=
  digits.foldlM (fun total char => (digitValue? char).map (16 * total + ·)) 0

def pairs : List Char → List UInt8
  | high :: low :: rest =>
    UInt8.ofNat ((digitValue? high).getD 0 * 16 + (digitValue? low).getD 0) :: pairs rest
  | _ => []

/-- Reads two digits for each byte; what is no digit counts as zero. -/
def bytes (text : String) : List UInt8 := pairs text.toList

/-- Reads at least one digit after an optional plus sign; the value has to stay
below `bound`. -/
def read? (text : String) (bound : Nat) : Option Nat :=
  let digits := match text.toList with
    | '+' :: rest => rest
    | all => all
  if digits = [] then none
  else (value? digits).filter (· < bound)

end Hex

namespace Digest

def toHex (digest : Digest) : String := String.ofList (Hex.fixed 32 digest.toNat)

def ofHex? (text : String) : Option Digest :=
  (Hex.read? text (Nat.pow 2 128)).map (BitVec.ofNat 128)

/-- The low bytes of a digest, least significant first. -/
def lowBytes (digest : Digest) (count : Nat) : List UInt8 :=
  (List.range count).map fun index => UInt8.ofNat (digest.toNat / Nat.pow 256 index)

end Digest

end Shading
