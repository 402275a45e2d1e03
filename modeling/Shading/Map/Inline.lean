/-
Inline archives: a shader map carried inside another asset. Two flags come
first, one byte each -- whether the asset was packaged, and whether a map
follows -- and then, if there is a map, the length of its archive and the
archive itself.
-/

import Shading.Map.ShaderMap

namespace Shading

structure InlineMap where
  packaged : Bool
  map : Option ShaderMap
deriving DecidableEq, Inhabited

namespace InlineMap

def write (packaged : Bool) (map : Option ShaderMap) : Except Failure (List UInt8) :=
  match map.filter ShaderMap.isCompiled with
  | none => .ok (Stream.bool packaged ++ Stream.bool false)
  | some map => do
    let archive ← map.archive
    .ok (Stream.bool packaged ++ Stream.bool true ++ Stream.bytes archive)

def flag (fault : Nat → ArchiveFault) (byte : UInt8) : Except Failure Bool :=
  if byte = 0 then .ok false
  else if byte = 1 then .ok true
  else .error (.invalidArchive (fault byte.toNat))

/-- A number written least significant byte first. -/
def ofLittleEndian (bytes : List UInt8) : Nat :=
  bytes.foldr (fun byte total => byte.toNat + 256 * total) 0

def readPayload (rest : List UInt8) : Except Failure ShaderMap :=
  if rest.length < 8 then .error (.invalidArchive .missingLength)
  else
    let stated := ofLittleEndian (rest.take 8)
    let payload := rest.drop 8
    if payload.length ≠ stated then
      .error (.invalidArchive (.payloadLength payload.length stated))
    else ShaderMap.ofArchive payload

/-- Reads an inline archive. Without a map nothing after the flags is looked at. -/
def read (bytes : List UInt8) : Except Failure InlineMap :=
  match bytes with
  | packagedByte :: validByte :: rest => do
    let packaged ← flag .packagedFlag packagedByte
    let valid ← flag .validFlag validByte
    if valid then
      let map ← readPayload rest
      .ok ⟨packaged, some map⟩
    else .ok ⟨packaged, none⟩
  | _ => .error (.invalidArchive (.shortHeader bytes.length))

end InlineMap

end Shading
