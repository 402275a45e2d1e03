/-
What a shader map is named by. The digest of an identity is taken of its stream,
and the key under which a store keeps the map of it is made of its JSON text.
Both tell the identity: every part of the stream says where it ends, and the text
can be read back. Hence two identities share a digest or a key only where the
hash function takes different bytes to one value; nothing else can make the map
of one answer for the other.
-/

import Mathlib
import Shading.Proofs.Map.Archiving
import Shading.Proofs.Digest.Legible

namespace Shading

/-- Different bytes that have one digest. -/
def Digest.Collide (left right : List UInt8) : Prop :=
  left ≠ right ∧ ofBytes left = ofBytes right

/-- Digests of what tells values apart are the same for one value, or they collide. -/
theorem Digest.ofBytes_eq_iff {α : Type} (bytes : α → List UInt8) {left right : α}
    (told : bytes left = bytes right ↔ left = right) :
    ofBytes (bytes left) = ofBytes (bytes right) ↔
      left = right ∨ Collide (bytes left) (bytes right) := by
  by_cases same : left = right
  · exact iff_of_true (congrArg _ (told.mpr same)) (.inl same)
  · rw [or_iff_right same]
    exact ⟨fun shared => ⟨fun equal => same (told.mp equal), shared⟩, And.right⟩

theorem Digest.toHex_injective : Function.Injective Digest.toHex := by
  intro left right same
  have read := congrArg Digest.ofHex? same
  rw [Digest.ofHex?_toHex, Digest.ofHex?_toHex] at read
  exact Option.some.inj read

/-! ### Names of tiers and qualities -/

namespace Tier

theorem name_injective : Function.Injective name := by
  intro left right same
  cases left <;> cases right <;> first | rfl | exact absurd same (by decide)

theorem short (tier : Tier) : (Utf8.encode tier.name).length < 2 ^ 64 := by
  cases tier <;> decide

theorem unscored (tier : Tier) : '_' ∉ tier.name.toList := by
  cases tier <;> decide

end Tier

namespace Quality

theorem name_injective : Function.Injective name := by
  intro left right same
  cases left <;> cases right <;> first | rfl | exact absurd same (by decide)

theorem short (quality : Quality) : (Utf8.encode quality.name).length < 2 ^ 64 := by
  cases quality <;> decide

theorem unscored (quality : Quality) : '_' ∉ quality.name.toList := by
  cases quality <;> decide

end Quality

/-! ### The stream -/

namespace Dependency

variable {left right : List Dependency} {first second : Dependency} {after after' : List UInt8}

/-- The lengths of a list and of the names in it fit the eight bytes they are written in. -/
def Fit (dependencies : List Dependency) : Prop :=
  dependencies.length < 2 ^ 64 ∧
    ∀ dependency ∈ dependencies, (Utf8.encode dependency.name).length < 2 ^ 64

theorem digest_append_inj {digest other : Digest}
    (same : Stream.digest digest ++ after = Stream.digest other ++ after') :
    digest = other ∧ after = after' :=
  (Stream.littleEndian_append_inj digest.isLt other.isLt same).imp_left BitVec.eq_of_toNat_eq

theorem stream_append_inj (fits : (Utf8.encode first.name).length < 2 ^ 64)
    (fits' : (Utf8.encode second.name).length < 2 ^ 64)
    (same : first.stream ++ after = second.stream ++ after') :
    first = second ∧ after = after' := by
  obtain ⟨name, source⟩ := first
  obtain ⟨name', source'⟩ := second
  unfold stream at same
  rw [List.append_assoc, List.append_assoc] at same
  obtain ⟨rfl, later⟩ := Stream.text_append_inj fits fits' same
  obtain ⟨rfl, rest⟩ := digest_append_inj later
  exact ⟨rfl, rest⟩

theorem list_append_inj (fits : Fit left) (fits' : Fit right)
    (same : Stream.list stream left ++ after = Stream.list stream right ++ after') :
    left = right ∧ after = after' := by
  unfold Stream.list at same
  rw [List.append_assoc, List.append_assoc] at same
  obtain ⟨sizes, same⟩ := Stream.littleEndian_append_inj fits.1 fits'.1 same
  have told : left.map id = right.map id ∧ after = after' :=
    Stream.flatMap_append_inj (fun _ _ _ _ => stream_append_inj) sizes fits.2 fits'.2 same
  rwa [List.map_id, List.map_id] at told

end Dependency

namespace MapIdentity

variable {left right : MapIdentity}

/-- All lengths in the stream of the identity are such as eight bytes can say. -/
structure Storable (identity : MapIdentity) : Prop where
  shaderTypes : Dependency.Fit identity.shaderTypes
  factories : Dependency.Fit identity.factories

/-- A stream tells the identity that it is of. -/
theorem stream_injective (fits : left.Storable) (fits' : right.Storable)
    (same : left.stream = right.stream) : left = right := by
  obtain ⟨content, quality, tier, shaderTypes, factories, textures⟩ := left
  obtain ⟨content', quality', tier', shaderTypes', factories', textures'⟩ := right
  replace same := congrArg (· ++ []) same
  simp only [stream, List.append_assoc] at same
  obtain ⟨sameContent, same⟩ := Dependency.digest_append_inj same
  obtain ⟨sameQuality, same⟩ := Stream.text_append_inj quality.short quality'.short same
  obtain ⟨sameTier, same⟩ := Stream.text_append_inj tier.short tier'.short same
  obtain ⟨sameTextures, same⟩ := Dependency.digest_append_inj same
  obtain ⟨sameTypes, same⟩ := Dependency.list_append_inj fits.shaderTypes fits'.shaderTypes same
  obtain ⟨sameFactories, -⟩ := Dependency.list_append_inj fits.factories fits'.factories same
  subst sameContent sameTextures
  cases Quality.name_injective sameQuality
  cases Tier.name_injective sameTier
  cases sameTypes
  cases sameFactories
  rfl

/-! ### The text -/

/-- An identity is a record with lists of records in it. -/
theorem nesting_encode (identity : MapIdentity) : identity.encode.nesting ≤ 3 := by
  have inside (dependencies : List Dependency) :
      (Json.array (dependencies.map Dependency.encode)).nesting ≤ 2 :=
    Nat.succ_le_succ (Json.nestingOfItems_le (List.forall_mem_map.mpr fun _ _ => Nat.le_refl 1))
  have shaderTypes := inside identity.shaderTypes
  have factories := inside identity.factories
  refine Nat.succ_le_succ ?_
  simp only [List.map_cons, List.map_nil, Json.nestingOfMembers]
  exact Nat.max_le.mpr ⟨Nat.zero_le _, Nat.max_le.mpr ⟨Nat.zero_le _, Nat.max_le.mpr
    ⟨Nat.zero_le _, Nat.max_le.mpr ⟨shaderTypes, Nat.max_le.mpr ⟨factories, Nat.zero_le _⟩⟩⟩⟩⟩

/-- The text of an identity reads as that identity. -/
theorem ofText?_jsonText (identity : MapIdentity) : ofText? identity.jsonText = some identity :=
  identity.carries.decode?_render (identity.nesting_encode.trans (by decide)) trivial

theorem jsonText_injective : Function.Injective jsonText := by
  intro left right same
  have read := congrArg ofText? same
  rw [ofText?_jsonText, ofText?_jsonText] at read
  exact Option.some.inj read

/-! ### The key -/

/-- Texts without the mark are told apart by what is in front of the first mark. -/
theorem append_mark_inj {mark : Char} {front front' after after' : List Char}
    (clean : mark ∉ front) (clean' : mark ∉ front')
    (same : front ++ mark :: after = front' ++ mark :: after') :
    front = front' ∧ after = after' := by
  rcases List.append_eq_append_iff.mp same with ⟨gap, rfl, equal⟩ | ⟨gap, rfl, equal⟩ <;>
    cases gap with
  | nil => simp_all
  | cons first rest =>
    obtain ⟨rfl, -⟩ := List.cons.inj equal
    simp at clean clean'

theorem key_parts {tier tier' : Tier} {quality quality' : Quality} {text text' : String}
    (same : "SIGIL_SM_V1_" ++ tier.name ++ "_" ++ quality.name ++ "_" ++ text =
      "SIGIL_SM_V1_" ++ tier'.name ++ "_" ++ quality'.name ++ "_" ++ text') :
    tier = tier' ∧ quality = quality' ∧ text = text' := by
  have mark : "_".toList = ['_'] := rfl
  replace same := congrArg String.toList same
  simp only [String.toList_append, List.append_assoc, mark, List.singleton_append] at same
  have later := List.append_cancel_left same
  obtain ⟨sameTier, later⟩ := append_mark_inj tier.unscored tier'.unscored later
  obtain ⟨sameQuality, rest⟩ := append_mark_inj quality.unscored quality'.unscored later
  exact ⟨Tier.name_injective (String.toList_injective sameTier),
    Quality.name_injective (String.toList_injective sameQuality), String.toList_injective rest⟩

theorem storeKey_eq_iff : left.storeKey = right.storeKey ↔
    left.tier = right.tier ∧ left.quality = right.quality ∧
      Digest.ofBytes (Utf8.encode left.jsonText) =
        Digest.ofBytes (Utf8.encode right.jsonText) := by
  unfold storeKey
  constructor
  · intro same
    obtain ⟨tier, quality, digest⟩ := key_parts same
    exact ⟨tier, quality, Digest.toHex_injective digest⟩
  · rintro ⟨tier, quality, digest⟩
    rw [tier, quality, digest]

/-- The stream of an identity and its text tell it, and the text reads as it. Its digest and its
key are those of another identity just where the hash function takes the streams, or the bytes
of the texts, to one value although they differ. -/
theorem names_tell (fits : left.Storable) (fits' : right.Storable) :
    (left.stream = right.stream ↔ left = right) ∧
    (left.jsonText = right.jsonText ↔ left = right) ∧
    ofText? left.jsonText = some left ∧
    (left.digest = right.digest ↔ left = right ∨ Digest.Collide left.stream right.stream) ∧
    (left.storeKey = right.storeKey ↔ left = right ∨
      left.tier = right.tier ∧ left.quality = right.quality ∧
        Digest.Collide (Utf8.encode left.jsonText) (Utf8.encode right.jsonText)) := by
  have stream : left.stream = right.stream ↔ left = right :=
    ⟨stream_injective fits fits', congrArg _⟩
  have text : Utf8.encode left.jsonText = Utf8.encode right.jsonText ↔ left = right :=
    ⟨fun same => jsonText_injective (Utf8.encode_injective same), fun same => same ▸ rfl⟩
  refine ⟨stream, jsonText_injective.eq_iff, ofText?_jsonText left,
    Digest.ofBytes_eq_iff MapIdentity.stream stream, ?_⟩
  have digest := Digest.ofBytes_eq_iff (fun identity => Utf8.encode (jsonText identity)) text
  rw [storeKey_eq_iff, digest]
  constructor
  · rintro ⟨tier, quality, same | collide⟩
    · exact .inl same
    · exact .inr ⟨tier, quality, collide⟩
  · rintro (rfl | ⟨tier, quality, collide⟩)
    · exact ⟨rfl, rfl, .inl rfl⟩
    · exact ⟨tier, quality, .inr collide⟩

/-- A map of two shader types, one without a name and one whose name has to be escaped. -/
def escaped : MapIdentity where
  content := 1
  quality := .low
  tier := .mobile
  shaderTypes := [⟨"", 2⟩, ⟨"\"\\\x01é", 3⟩]
  factories := []
  textures := 4

/-- The same two as vertex factories. -/
def moved : MapIdentity :=
  { escaped with shaderTypes := escaped.factories, factories := escaped.shaderTypes }

theorem moved_told : escaped.Storable ∧ moved.Storable ∧
    escaped.stream ≠ moved.stream ∧ escaped.jsonText ≠ moved.jsonText ∧
    ofText? escaped.jsonText = some escaped ∧
    (escaped.storeKey = moved.storeKey ↔
      Digest.Collide (Utf8.encode escaped.jsonText) (Utf8.encode moved.jsonText)) := by
  have fits : escaped.Storable :=
    ⟨by unfold Dependency.Fit; decide, by unfold Dependency.Fit; decide⟩
  have fits' : moved.Storable := ⟨fits.factories, fits.shaderTypes⟩
  have different : escaped ≠ moved := by decide
  obtain ⟨stream, text, read, -, key⟩ := names_tell fits fits'
  refine ⟨fits, fits', mt stream.mp different, mt text.mp different, read, key.trans ?_⟩
  exact ⟨fun either => (either.resolve_left different).2.2, fun collide => .inr ⟨rfl, rfl, collide⟩⟩

end MapIdentity

end Shading
