/-
The 128-bit content digest. Every artifact this library shares -- an identity,
a store key, a checksum -- is named by the digest of some bytes, so the digest
has to be one fixed function of the bytes and nothing else. The function is
XXH3 with seed zero in its 128-bit form.

It works in four ranges of length. Up to 16 bytes the input is read as one or
two words and mixed directly; up to 128 and up to 240 bytes it is folded from
both ends in pairs of 16-byte lanes; longer inputs go through eight
accumulators in stripes of 64 bytes. Each range is a function below, and
`Digest.ofBytes` picks one.
-/

namespace Shading

/-- A 128-bit digest. -/
abbrev Digest := BitVec 128

namespace Xxh3

/-! ### Words -/

/-- The key material the mixing steps draw from. -/
def secret : ByteArray := ⟨#[
  0xb8, 0xfe, 0x6c, 0x39, 0x23, 0xa4, 0x4b, 0xbe, 0x7c, 0x01, 0x81, 0x2c, 0xf7, 0x21, 0xad, 0x1c,
  0xde, 0xd4, 0x6d, 0xe9, 0x83, 0x90, 0x97, 0xdb, 0x72, 0x40, 0xa4, 0xa4, 0xb7, 0xb3, 0x67, 0x1f,
  0xcb, 0x79, 0xe6, 0x4e, 0xcc, 0xc0, 0xe5, 0x78, 0x82, 0x5a, 0xd0, 0x7d, 0xcc, 0xff, 0x72, 0x21,
  0xb8, 0x08, 0x46, 0x74, 0xf7, 0x43, 0x24, 0x8e, 0xe0, 0x35, 0x90, 0xe6, 0x81, 0x3a, 0x26, 0x4c,
  0x3c, 0x28, 0x52, 0xbb, 0x91, 0xc3, 0x00, 0xcb, 0x88, 0xd0, 0x65, 0x8b, 0x1b, 0x53, 0x2e, 0xa3,
  0x71, 0x64, 0x48, 0x97, 0xa2, 0x0d, 0xf9, 0x4e, 0x38, 0x19, 0xef, 0x46, 0xa9, 0xde, 0xac, 0xd8,
  0xa8, 0xfa, 0x76, 0x3f, 0xe3, 0x9c, 0x34, 0x3f, 0xf9, 0xdc, 0xbb, 0xc7, 0xc7, 0x0b, 0x4f, 0x1d,
  0x8a, 0x51, 0xe0, 0x4b, 0xcd, 0xb4, 0x59, 0x31, 0xc8, 0x9f, 0x7e, 0xc9, 0xd9, 0x78, 0x73, 0x64,
  0xea, 0xc5, 0xac, 0x83, 0x34, 0xd3, 0xeb, 0xc3, 0xc5, 0x81, 0xa0, 0xff, 0xfa, 0x13, 0x63, 0xeb,
  0x17, 0x0d, 0xdd, 0x51, 0xb7, 0xf0, 0xda, 0x49, 0xd3, 0x16, 0x55, 0x26, 0x29, 0xd4, 0x68, 0x9e,
  0x2b, 0x16, 0xbe, 0x58, 0x7d, 0x47, 0xa1, 0xfc, 0x8f, 0xf8, 0xb8, 0xd1, 0x7a, 0xd0, 0x31, 0xce,
  0x45, 0xcb, 0x3a, 0x8f, 0x95, 0x16, 0x04, 0x28, 0xaf, 0xd7, 0xfb, 0xca, 0xbb, 0x4b, 0x40, 0x7e]⟩

def prime32a : UInt64 := 0x9E3779B1
def prime32b : UInt64 := 0x85EBCA77
def prime32c : UInt64 := 0xC2B2AE3D
def prime64a : UInt64 := 0x9E3779B185EBCA87
def prime64b : UInt64 := 0xC2B2AE3D27D4EB4F
def prime64c : UInt64 := 0x165667B19E3779F9
def prime64d : UInt64 := 0x85EBCA77C2B2AE63
def prime64e : UInt64 := 0x27D4EB2F165667C5

def byteAt (data : ByteArray) (offset : Nat) : UInt64 :=
  if h : offset < data.size then data[offset].toUInt64 else 0

/-- Four bytes from `offset` on, least significant first. -/
def word32 (data : ByteArray) (offset : Nat) : UInt64 :=
  byteAt data offset ||| (byteAt data (offset + 1) <<< 8) |||
    (byteAt data (offset + 2) <<< 16) ||| (byteAt data (offset + 3) <<< 24)

/-- Eight bytes from `offset` on, least significant first. -/
def word64 (data : ByteArray) (offset : Nat) : UInt64 :=
  word32 data offset ||| (word32 data (offset + 4) <<< 32)

def low32 (word : UInt64) : UInt64 := word &&& (0xFFFFFFFF : UInt64)

/-- The four low bytes of a word in reverse order. -/
def reverseBytes32 (word : UInt64) : UInt64 :=
  let inner : UInt64 := 0xFF00
  let outer : UInt64 := 0xFF
  ((word &&& outer) <<< 24) ||| ((word &&& inner) <<< 8) |||
    ((word >>> 8) &&& inner) ||| ((word >>> 24) &&& outer)

def reverseBytes64 (word : UInt64) : UInt64 :=
  (reverseBytes32 (low32 word) <<< 32) ||| reverseBytes32 (word >>> 32)

def rotateLeft32 (word count : UInt64) : UInt64 :=
  low32 ((word <<< count) ||| (low32 word >>> (32 - count)))

/-- The full product of two words, as its low and high word. -/
def wideMultiply (left right : UInt64) : UInt64 × UInt64 :=
  let product := left.toNat * right.toNat
  (UInt64.ofNat product, UInt64.ofNat (product >>> 64))

def foldedMultiply (left right : UInt64) : UInt64 :=
  let (low, high) := wideMultiply left right
  low ^^^ high

def avalanche (word : UInt64) : UInt64 :=
  let word := (word ^^^ (word >>> 37)) * 0x165667919E3779F9
  word ^^^ (word >>> 32)

def shortAvalanche (word : UInt64) : UInt64 :=
  let word := (word ^^^ (word >>> 33)) * prime64b
  let word := (word ^^^ (word >>> 29)) * prime64c
  word ^^^ (word >>> 32)

/-! ### Short inputs -/

def ofEmpty : UInt64 × UInt64 :=
  (shortAvalanche (word64 secret 64 ^^^ word64 secret 72),
    shortAvalanche (word64 secret 80 ^^^ word64 secret 88))

def ofUpTo3 (data : ByteArray) : UInt64 × UInt64 :=
  let length := data.size
  let combined := (byteAt data 0 <<< 16) ||| (byteAt data (length / 2) <<< 24) |||
    byteAt data (length - 1) ||| (length.toUInt64 <<< 8)
  let turned := rotateLeft32 (reverseBytes32 combined) 13
  (shortAvalanche (combined ^^^ (word32 secret 0 ^^^ word32 secret 4)),
    shortAvalanche (turned ^^^ (word32 secret 8 ^^^ word32 secret 12)))

def ofUpTo8 (data : ByteArray) : UInt64 × UInt64 :=
  let length := data.size
  let input := word32 data 0 + (word32 data (length - 4) <<< 32)
  let keyed := input ^^^ (word64 secret 16 ^^^ word64 secret 24)
  let (low, high) := wideMultiply keyed (prime64a + (length.toUInt64 <<< 2))
  let high := high + (low <<< 1)
  let low := low ^^^ (high >>> 3)
  let low := (low ^^^ (low >>> 35)) * 0x9FB21C651E98DF25
  (low ^^^ (low >>> 28), avalanche high)

def ofUpTo16 (data : ByteArray) : UInt64 × UInt64 :=
  let length := data.size
  let first := word64 data 0
  let last := word64 data (length - 8)
  let (low, high) :=
    wideMultiply (first ^^^ last ^^^ (word64 secret 32 ^^^ word64 secret 40)) prime64a
  let low := low + ((length - 1).toUInt64 <<< 54)
  let last := last ^^^ (word64 secret 48 ^^^ word64 secret 56)
  let high := high + last + low32 last * (prime32b - 1)
  let low := low ^^^ reverseBytes64 high
  let (mixedLow, mixedHigh) := wideMultiply low prime64b
  (avalanche mixedLow, avalanche (mixedHigh + high * prime64b))

/-! ### Inputs folded from both ends -/

def mixLane (data : ByteArray) (offset key : Nat) : UInt64 :=
  foldedMultiply (word64 data offset ^^^ word64 secret key)
    (word64 data (offset + 8) ^^^ word64 secret (key + 8))

/-- Folds one lane into each half of the pair, each half also taking the sum of
the lane the other one mixed. -/
def mixPair (pair : UInt64 × UInt64) (data : ByteArray) (left right key : Nat) :
    UInt64 × UInt64 :=
  let low := (pair.1 + mixLane data left key) ^^^
    (word64 data right + word64 data (right + 8))
  let high := (pair.2 + mixLane data right (key + 16)) ^^^
    (word64 data left + word64 data (left + 8))
  (low, high)

def finishPair (pair : UInt64 × UInt64) (length : Nat) : UInt64 × UInt64 :=
  (avalanche (pair.1 + pair.2),
    0 - avalanche (pair.1 * prime64a + pair.2 * prime64d + length.toUInt64 * prime64b))

def ofUpTo128 (data : ByteArray) : UInt64 × UInt64 :=
  let length := data.size
  let rounds := (length - 1) / 32
  let step (pair : UInt64 × UInt64) (round : Nat) : UInt64 × UInt64 :=
    mixPair pair data (16 * round) (length - 16 * (round + 1)) (32 * round)
  let start : UInt64 × UInt64 := (length.toUInt64 * prime64a, 0)
  finishPair ((List.range (rounds + 1)).reverse.foldl step start) length

def ofUpTo240 (data : ByteArray) : UInt64 × UInt64 :=
  let length := data.size
  let front (pair : UInt64 × UInt64) (round : Nat) : UInt64 × UInt64 :=
    mixPair pair data (32 * round) (32 * round + 16) (32 * round)
  let back (pair : UInt64 × UInt64) (round : Nat) : UInt64 × UInt64 :=
    mixPair pair data (128 + 32 * round) (128 + 32 * round + 16) (3 + 32 * round)
  let start : UInt64 × UInt64 := (length.toUInt64 * prime64a, 0)
  let pair := (List.range 4).foldl front start
  let pair := (avalanche pair.1, avalanche pair.2)
  let pair := (List.range (length / 32 - 4)).foldl back pair
  finishPair (mixPair pair data (length - 16) (length - 32) 103) length

/-! ### Long inputs -/

def startLanes : Array UInt64 :=
  #[prime32c, prime64a, prime64b, prime64c, prime64d, prime32b, prime64e, prime32a]

def lane (lanes : Array UInt64) (index : Nat) : UInt64 := lanes.getD index 0

/-- Each lane takes its neighbour's word and the product of the two halves of
its own keyed word. -/
def absorbStripe (data : ByteArray) (offset key : Nat) (lanes : Array UInt64) : Array UInt64 :=
  (Array.range 8).map fun index =>
    let keyed := word64 data (offset + 8 * index) ^^^ word64 secret (key + 8 * index)
    lane lanes index + word64 data (offset + 8 * (index ^^^ 1)) + low32 keyed * (keyed >>> 32)

def scramble (lanes : Array UInt64) : Array UInt64 :=
  (Array.range 8).map fun index =>
    let word := lane lanes index
    ((word ^^^ (word >>> 47)) ^^^ word64 secret (128 + 8 * index)) * prime32a

def mergeLanes (lanes : Array UInt64) (key : Nat) (start : UInt64) : UInt64 :=
  avalanche ((List.range 4).foldl (fun total index =>
    total + foldedMultiply (lane lanes (2 * index) ^^^ word64 secret (key + 16 * index))
      (lane lanes (2 * index + 1) ^^^ word64 secret (key + 16 * index + 8))) start)

/-- Stripes are taken sixteen to a block; a finished block is scrambled. The
last 64 bytes are always absorbed once more as the closing stripe. -/
def ofLong (data : ByteArray) : UInt64 × UInt64 :=
  let length := data.size
  let blocks := (length - 1) / 1024
  let stripes (base count : Nat) (lanes : Array UInt64) : Array UInt64 :=
    (List.range count).foldl
      (fun lanes index => absorbStripe data (base + 64 * index) (8 * index) lanes) lanes
  let lanes := (List.range blocks).foldl
    (fun lanes block => scramble (stripes (1024 * block) 16 lanes)) startLanes
  let lanes := stripes (1024 * blocks) ((length - 1 - 1024 * blocks) / 64) lanes
  let lanes := absorbStripe data (length - 64) 121 lanes
  (mergeLanes lanes 11 (length.toUInt64 * prime64a),
    mergeLanes lanes 117 (~~~(length.toUInt64 * prime64b)))

def halves (data : ByteArray) : UInt64 × UInt64 :=
  let length := data.size
  if length = 0 then ofEmpty
  else if length ≤ 3 then ofUpTo3 data
  else if length ≤ 8 then ofUpTo8 data
  else if length ≤ 16 then ofUpTo16 data
  else if length ≤ 128 then ofUpTo128 data
  else if length ≤ 240 then ofUpTo240 data
  else ofLong data

end Xxh3

namespace Digest

/-- The digest of a sequence of bytes. -/
def ofBytes (bytes : List UInt8) : Digest :=
  let (low, high) := Xxh3.halves ⟨bytes.toArray⟩
  BitVec.ofNat 128 (low.toNat + high.toNat * UInt64.size)

end Digest

end Shading
