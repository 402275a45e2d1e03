/-
Maps inside other assets. A resource writes its compiled map into an inline
archive behind two flags, and reading the archive finds the flags and whatever
the archive of the map is read as. So whether a map comes back is the same
question for a map kept on its own and for one kept inside another asset: it
does if all numbers in its uniform expressions are finite.
-/

import Shading.Map.Inline
import Shading.Material.Compilation
import Shading.Proofs.Map.Archiving

namespace Shading

/-! ### Inline archives -/

namespace InlineMap

theorem ofLittleEndian_littleEndian (width value : Nat) :
    ofLittleEndian (Stream.littleEndian width value) = value % 256 ^ width := by
  induction width generalizing value with
  | zero => rw [Nat.pow_zero, Nat.mod_one]; rfl
  | succ width inductionHypothesis =>
    show (UInt8.ofNat value).toNat + 256 * ofLittleEndian (Stream.littleEndian width (value / 256)) =
      _
    have byte : (UInt8.ofNat value).toNat = value % 256 := UInt8.toNat_ofNat'
    rw [inductionHypothesis, byte, Nat.pow_succ', ← Nat.mod_mul]

/-- The payload is the archive, if its length can be told. -/
theorem readPayload_bytes {archive : List UInt8} (short : archive.length < 2 ^ 64) :
    readPayload (Stream.bytes archive) = ShaderMap.ofArchive archive := by
  have length : (Stream.longWord archive.length).length = 8 := Stream.length_littleEndian 8 _
  have stated : ofLittleEndian (Stream.longWord archive.length) = archive.length := by
    rw [Stream.longWord, ofLittleEndian_littleEndian]
    exact Nat.mod_eq_of_lt short
  have enough : ¬ (Stream.bytes archive).length < 8 := by
    rw [Stream.bytes, List.length_append, length]
    omega
  rw [readPayload, if_neg enough, Stream.bytes, List.take_left' length, List.drop_left' length]
  dsimp only
  rw [stated, if_neg (by simp)]

theorem read_without (packaged : Bool) :
    read (Stream.bool packaged ++ Stream.bool false) = .ok ⟨packaged, none⟩ := by
  cases packaged <;> rfl

theorem read_with (packaged : Bool) {archive : List UInt8} (short : archive.length < 2 ^ 64) :
    read (Stream.bool packaged ++ Stream.bool true ++ Stream.bytes archive) =
      (ShaderMap.ofArchive archive).map fun map => ⟨packaged, some map⟩ := by
  rw [← readPayload_bytes short]
  cases packaged
  · show ((readPayload (Stream.bytes archive)).bind fun map => .ok (InlineMap.mk false (some map))) = _
    cases readPayload (Stream.bytes archive) <;> rfl
  · show ((readPayload (Stream.bytes archive)).bind fun map => .ok (InlineMap.mk true (some map))) = _
    cases readPayload (Stream.bytes archive) <;> rfl

end InlineMap

/-! ### Maps of resources -/

namespace System

/-- The map that a resource has, compiled or not. -/
def mapAt? (system : System) (id : ResourceId) : Option ShaderMap :=
  ((system.resources.get? id).bind Resource.map).map SharedMap.map

/-- A resource without a compiled map leaves none in its archive. -/
theorem saveInline_without {system : System} {id : ResourceId}
    (uncompiled : ∀ map ∈ system.mapAt? id, map.isCompiled = false) (packaged : Bool) :
    system.saveInline id packaged = .ok (Stream.bool packaged ++ Stream.bool false) := by
  have none' : (system.mapAt? id).filter ShaderMap.isCompiled = none := by
    refine Option.filter_eq_none_iff.mpr fun map found => ?_
    rw [uncompiled map found]
    exact Bool.false_ne_true
  show InlineMap.write packaged (system.mapAt? id) = _
  rw [InlineMap.write, none']

theorem saveInline_with {system : System} {id : ResourceId} {map : ShaderMap}
    {archive : List UInt8} (found : system.mapAt? id = some map)
    (archived : map.archive = .ok archive) (packaged : Bool) :
    system.saveInline id packaged =
      .ok (Stream.bool packaged ++ Stream.bool true ++ Stream.bytes archive) := by
  have compiled : map.isCompiled := by
    unfold ShaderMap.archive at archived
    split at archived
    · rename_i content
      exact Option.isSome_iff_exists.mpr ⟨_, content⟩
    · cases archived
  show InlineMap.write packaged (system.mapAt? id) = _
  rw [found, InlineMap.write, Option.filter_some_pos compiled]
  dsimp only
  rw [archived]
  rfl

/-- The archive of a compiled map is read as the map itself if all numbers in its uniform
expressions are finite, and cannot be read if one of them is not. An inline archive tells whether
its asset was packaged, and holds the same map or fails the same way; it holds no map if its
resource has no compiled one. The numbers have to be such that the text of each finite one gives it
back, the archive may nest as deep as a reader goes, and its length fits a 64-bit word. -/
theorem archives_return {map : ShaderMap} {codes : List (Permutation × List UInt8)}
    {profile : Profile} (compiled : map.content = some (.ofCodes codes profile))
    (nested : (map.encode (.ofCodes codes profile)).nesting ≤ 127)
    (returns : ∀ number ∈ profile.expressions.numbers, number.isFinite → number.Returns)
    (short : ∀ archive, map.archive = .ok archive → archive.length < 2 ^ 64) :
    (∃ archive, map.archive = .ok archive ∧
      ShaderMap.ofArchive archive = map.reread profile.expressions) ∧
    (∀ (system : System) (id : ResourceId) (packaged : Bool), system.mapAt? id = some map →
      ∃ archive, system.saveInline id packaged = .ok archive ∧
        InlineMap.read archive =
          (map.reread profile.expressions).map fun map => ⟨packaged, some map⟩) ∧
    ∀ (system : System) (id : ResourceId) (packaged : Bool),
      (∀ other ∈ system.mapAt? id, other.isCompiled = false) →
        ∃ archive, system.saveInline id packaged = .ok archive ∧
          InlineMap.read archive = .ok ⟨packaged, none⟩ := by
  have archived : map.archive =
      .ok (Utf8.encode (map.encode (.ofCodes codes profile)).render) := by
    rw [ShaderMap.archive, compiled]
  have reread := ShaderMap.ofArchive_encode compiled nested returns
  refine ⟨⟨_, archived, reread⟩, fun system id packaged found => ?_,
    fun system id packaged uncompiled => ?_⟩
  · refine ⟨_, saveInline_with found archived packaged, ?_⟩
    rw [InlineMap.read_with packaged (short _ archived), reread]
  · exact ⟨_, saveInline_without uncompiled packaged, InlineMap.read_without packaged⟩

/-- Expressions over a constant and two parameters. -/
def tintExpressions (gloss : Binary32) : ExpressionSet where
  vectors := [.add (.constant ⟨.one, ⟨0x3DCCCCCD⟩, ⟨0x80000000⟩, ⟨0x7F7FFFFF⟩⟩)
    (.vectorParameter "Tint" ⟨.one, .one, .zero, .one⟩)]
  scalars := [.saturate (.scalarParameter "Gloss" gloss)]

/-- What lowering found out, two bits without a name among it. -/
def tintProfile (gloss : Binary32) : Profile where
  expressions := tintExpressions gloss
  flags := ⟨0xC0000000⟩
  textureSamples := 2

def tintCodes : List (Permutation × List UInt8) :=
  [({ shaderType := "Base", factory := some "Mesh" }, [7, 8])]

def tintMap (gloss : Binary32) : ShaderMap where
  identity := ⟨1, .high, .desktop, [], [], 2⟩
  name := "Tint \"01\""
  content := some (.ofCodes tintCodes (tintProfile gloss))

theorem tintMap_returns :
    (∃ archive, (tintMap .one).archive = .ok archive ∧
      ShaderMap.ofArchive archive = .ok (tintMap .one)) ∧
    ∃ archive, (tintMap .notANumber).archive = .ok archive ∧
      ShaderMap.ofArchive archive = .error .malformed := by
  have short (gloss : Binary32) (small : (Utf8.encodeChars ((tintMap gloss).encode
      (.ofCodes tintCodes (tintProfile gloss))).print).length < 2 ^ 64) (archive : List UInt8)
      (archived : (tintMap gloss).archive = .ok archive) : archive.length < 2 ^ 64 := by
    obtain rfl := Except.ok.inj archived
    rwa [Json.encode_render]
  have finite : (tintMap .one).reread (tintExpressions .one) = .ok (tintMap .one) :=
    if_pos (by decide +kernel)
  have infinite : (tintMap .notANumber).reread (tintExpressions .notANumber) =
      .error .malformed := if_neg (by decide +kernel)
  obtain ⟨whole, -, -⟩ := @archives_return (tintMap .one) tintCodes (tintProfile .one) rfl
    (by decide +kernel) (by decide +kernel) (short _ (by decide +kernel))
  obtain ⟨lost, -, -⟩ := @archives_return (tintMap .notANumber) tintCodes
    (tintProfile .notANumber) rfl (by decide +kernel) (by decide +kernel)
    (short _ (by decide +kernel))
  exact ⟨finite ▸ whole, infinite ▸ lost⟩

end System

end Shading
