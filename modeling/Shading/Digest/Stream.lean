/-
The byte streams that digests are taken of. Every encoder below produces bytes
that can be told apart from what may follow: numbers have a fixed width, and
texts and byte strings carry their length in front.
-/

import Shading.Digest.Xxh3
import Shading.Number.Binary32
import Shading.Text.Utf8

namespace Shading.Stream

/-- The low bytes of a number, least significant first. -/
def littleEndian (width value : Nat) : List UInt8 :=
  match width with
  | 0 => []
  | width + 1 => UInt8.ofNat value :: littleEndian width (value / 256)

theorem length_littleEndian (width value : Nat) : (littleEndian width value).length = width := by
  induction width generalizing value with
  | zero => rfl
  | succ width inductionHypothesis => rw [littleEndian, List.length_cons, inductionHypothesis]

def byte (value : Nat) : List UInt8 := littleEndian 1 value

def bool (value : Bool) : List UInt8 := byte value.toNat

def word (value : Nat) : List UInt8 := littleEndian 4 value

def longWord (value : Nat) : List UInt8 := littleEndian 8 value

def digest (value : Digest) : List UInt8 := littleEndian 16 value.toNat

def single (value : Binary32) : List UInt8 := word value.bits.toNat

/-- Bytes after their number. -/
def bytes (content : List UInt8) : List UInt8 := longWord content.length ++ content

def text (content : String) : List UInt8 := bytes (Utf8.encode content)

/-- A list after its length, each entry encoded in turn. -/
def list {α : Type} (encode : α → List UInt8) (entries : List α) : List UInt8 :=
  longWord entries.length ++ entries.flatMap encode

end Shading.Stream
