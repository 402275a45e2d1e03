/-
The JSON form of a shader map. Every part of a map carries its value, and only
the numbers in its uniform expressions may be lost. A map keeps its binaries in
the order of their permutations, so it does not matter in which order they have
come: binaries of different permutations can be filed in either order, and
looking one up finds the one that was filed last for its permutation. And
putting them in order once more, as reading an archive does, leaves them as they
are.
-/

import Mathlib.Data.List.Perm.Basic
import Shading.Map.ShaderMap
import Shading.Proofs.Lowering.Flags
import Shading.Proofs.Uniform.Survival

namespace Shading

open Json (Carries)

/-! ### The parts of a map -/

theorem Tier.carries (tier : Tier) : Carries decode tier.encode tier True :=
  .named (by cases tier <;> rfl)

theorem Quality.carries (quality : Quality) : Carries decode quality.encode quality True :=
  .named (by cases quality <;> rfl)

theorem Dependency.carries_digest (digest : Digest) :
    Carries decodeDigest (encodeDigest digest) digest True :=
  (Carries.text _).bind digest.ofHex?_toHex

theorem Dependency.carries (dependency : Dependency) :
    Carries decode dependency.encode dependency True := by
  have name := Carries.text dependency.name
  have source := carries_digest dependency.source
  refine .record rfl (by decide) ?_ (fun _ levels fits => ?_) fun dead => absurd trivial dead
  · simp only [List.forall_mem_cons]
    exact ⟨name.readable, source.readable, fun _ member => absurd member List.not_mem_nil⟩
  · rw [name.required trivial fits rfl, source.required trivial fits rfl]
    rfl

theorem MapIdentity.carries (identity : MapIdentity) :
    Carries decode identity.encode identity True := by
  have content := Dependency.carries_digest identity.content
  have quality := identity.quality.carries
  have tier := identity.tier.carries
  have shaderTypes := Carries.all identity.shaderTypes Dependency.carries
  have factories := Carries.all identity.factories Dependency.carries
  have textures := Dependency.carries_digest identity.textures
  refine .record rfl (by decide) ?_ (fun _ levels fits => ?_) fun dead => absurd trivial dead
  · simp only [List.forall_mem_cons]
    exact ⟨content.readable, quality.readable, tier.readable, shaderTypes.readable,
      factories.readable, textures.readable, fun _ member => absurd member List.not_mem_nil⟩
  · rw [content.required trivial fits rfl, quality.required trivial fits rfl,
      tier.required trivial fits rfl, shaderTypes.required trivial fits rfl,
      factories.required trivial fits rfl, textures.required trivial fits rfl]
    rfl

theorem Permutation.carries (permutation : Permutation) :
    Carries decode permutation.encode permutation True := by
  have shaderType := Carries.text permutation.shaderType
  have factory : Carries (Json.asOption Json.asText)
      (.option (permutation.factory.map .text)) permutation.factory True :=
    .option (fun name _ => .text name) fun _ => Json.noConfusion
  refine .record rfl (by decide) ?_ (fun _ levels fits => ?_) fun dead => absurd trivial dead
  · simp only [List.forall_mem_cons]
    exact ⟨shaderType.readable, factory.readable, fun _ member => absurd member List.not_mem_nil⟩
  · rw [shaderType.required trivial fits rfl, factory.optional fits rfl]
    rfl

theorem Binary.carries (binary : Binary) : Carries decode binary.encode binary True := by
  have code := Carries.text (Base64.encode binary.code)
  have digest := Dependency.carries_digest binary.digest
  refine .record rfl (by decide) ?_ (fun _ levels fits => ?_) fun dead => absurd trivial dead
  · simp only [List.forall_mem_cons]
    exact ⟨code.readable, digest.readable, fun _ member => absurd member List.not_mem_nil⟩
  · rw [code.required trivial fits rfl, digest.required trivial fits rfl]
    show ((Base64.decode? (Base64.encode binary.code)).bind fun code =>
      some (Binary.mk code binary.digest)) = _
    rw [Base64.decode?_encode]
    rfl

theorem Profile.carries {profile : Profile}
    (returns : ∀ number ∈ profile.expressions.numbers, number.isFinite → number.Returns) :
    Carries decode profile.encode profile
      (∀ number ∈ profile.expressions.numbers, number.isFinite) := by
  have expressions := ExpressionSet.carries returns
  have flags := profile.flags.carries
  have samples := Carries.word profile.textureSamples
  refine .record rfl (by decide) ?_ (fun alive levels fits => ?_) fun dead depth => ?_
  · simp only [List.forall_mem_cons]
    exact ⟨expressions.readable, flags.readable, samples.readable,
      fun _ member => absurd member List.not_mem_nil⟩
  · rw [expressions.required alive fits rfl, flags.required trivial fits rfl,
      samples.required trivial fits rfl]
    rfl
  · rw [expressions.required_none dead depth rfl]
    rfl

namespace ShaderMap

/-- The archive of a map carries all of it if the numbers in its expressions are finite. -/
theorem carries (map : ShaderMap) {content : MapContent}
    (returns : ∀ number ∈ content.profile.expressions.numbers, number.isFinite →
      number.Returns) :
    Carries decode (map.encode content)
      ⟨map.identity, map.name, content.binaries, content.profile⟩
      (∀ number ∈ content.profile.expressions.numbers, number.isFinite) := by
  have identity := map.identity.carries
  have name := Carries.text map.name
  have binaries := Carries.all content.binaries fun entry =>
    Carries.pair entry.1.carries entry.2.carries
  have profile := Profile.carries returns
  refine .record rfl (by decide) ?_ (fun alive levels fits => ?_) fun dead depth => ?_
  · simp only [List.forall_mem_cons]
    exact ⟨identity.readable, name.readable, binaries.readable, profile.readable,
      fun _ member => absurd member List.not_mem_nil⟩
  · rw [identity.required trivial fits rfl, name.required trivial fits rfl,
      binaries.required trivial fits rfl, profile.required alive fits rfl]
    rfl
  · rw [profile.required_none dead depth rfl]
    iterate 3 refine Option.bind_eq_none_iff.mpr fun _ _ => ?_
    rfl

end ShaderMap

/-! ### The order of the binaries -/

namespace Permutation

/-- Names in lexicographic order, and no factory before the factories. -/
def key (permutation : Permutation) : String ×ₗ WithBot String :=
  toLex (permutation.shaderType, permutation.factory)

theorem key_injective {left right : Permutation} (same : left.key = right.key) : left = right := by
  obtain ⟨shaderType, factory⟩ := left
  obtain ⟨otherType, otherFactory⟩ := right
  obtain ⟨rfl, rfl⟩ := Prod.mk.inj (toLex.injective same)
  rfl

theorem before_iff {left right : Permutation} : left.before right ↔ left.key < right.key := by
  obtain ⟨shaderType, factory⟩ := left
  obtain ⟨otherType, otherFactory⟩ := right
  refine Iff.trans ?_ Prod.Lex.toLex_lt_toLex.symm
  unfold before
  dsimp only
  split
  · rename_i same
    subst same
    rw [eq_self_iff_true, true_and, or_iff_right (lt_irrefl _)]
    cases factory with
    | none =>
      cases otherFactory with
      | none => exact iff_of_false Bool.false_ne_true (lt_irrefl (⊥ : WithBot String))
      | some other => exact iff_of_true rfl (WithBot.bot_lt_coe other)
    | some factory =>
      cases otherFactory with
      | none => exact iff_of_false Bool.false_ne_true not_lt_bot
      | some other => exact decide_eq_true_iff.trans WithBot.coe_lt_coe.symm
  · rename_i different
    rw [decide_eq_true_iff]
    exact ⟨.inl, fun either => either.resolve_right fun both => different both.1⟩

theorem before_trans {first second third : Permutation} (earlier : first.before second)
    (later : second.before third) : first.before third :=
  before_iff.mpr (lt_trans (before_iff.mp earlier) (before_iff.mp later))

theorem before_of_ne {left right : Permutation} (different : left ≠ right)
    (notEarlier : ¬ left.before right) : right.before left := by
  rw [before_iff] at notEarlier ⊢
  exact lt_of_le_of_ne (not_lt.mp notEarlier) fun same => different (key_injective same).symm

end Permutation

namespace MapContent

/-- Every permutation comes before the later ones. -/
def Ordered (binaries : List (Permutation × Binary)) : Prop :=
  binaries.Pairwise fun left right => left.1.before right.1

theorem mem_of_insertBinary {permutation : Permutation} {binary : Binary}
    {binaries : List (Permutation × Binary)} {entry : Permutation × Binary}
    (member : entry ∈ insertBinary permutation binary binaries) :
    entry = (permutation, binary) ∨ entry ∈ binaries := by
  induction binaries with
  | nil => exact .inl (List.mem_singleton.mp member)
  | cons first rest inductionHypothesis =>
    unfold insertBinary at member
    split at member
    · rcases List.mem_cons.mp member with rfl | member
      · exact .inr List.mem_cons_self
      · exact (inductionHypothesis member).imp_right (List.mem_cons_of_mem _)
    split at member
    · exact (List.mem_cons.mp member).imp_right (List.mem_cons_of_mem _)
    · exact List.mem_cons.mp member

theorem ordered_insertBinary {permutation : Permutation} {binary : Binary}
    {binaries : List (Permutation × Binary)} (ordered : Ordered binaries) :
    Ordered (insertBinary permutation binary binaries) := by
  induction binaries with
  | nil => exact List.pairwise_singleton _ _
  | cons first rest inductionHypothesis =>
    obtain ⟨leads, others⟩ := List.pairwise_cons.mp ordered
    unfold insertBinary
    split
    · rename_i earlier
      refine List.pairwise_cons.mpr ⟨fun entry member => ?_, inductionHypothesis others⟩
      rcases mem_of_insertBinary member with rfl | member
      · exact earlier
      · exact leads entry member
    rename_i notEarlier
    split
    · rename_i same
      exact List.pairwise_cons.mpr ⟨fun entry member => same ▸ leads entry member, others⟩
    · rename_i different
      have later := Permutation.before_of_ne different notEarlier
      refine List.pairwise_cons.mpr ⟨fun entry member => ?_, ordered⟩
      rcases List.mem_cons.mp member with rfl | member
      · exact later
      · exact Permutation.before_trans later (leads entry member)

theorem ordered_ofBinaries (binaries : List (Permutation × Binary)) (profile : Profile) :
    Ordered (ofBinaries binaries profile).binaries :=
  List.foldlRecOn binaries _ List.Pairwise.nil fun _ ordered _ _ => ordered_insertBinary ordered

theorem insertBinary_last {permutation : Permutation} {binary : Binary}
    {binaries : List (Permutation × Binary)}
    (earlier : ∀ entry ∈ binaries, entry.1.before permutation) :
    insertBinary permutation binary binaries = binaries ++ [(permutation, binary)] := by
  induction binaries with
  | nil => rfl
  | cons first rest inductionHypothesis =>
    obtain ⟨here, there⟩ := List.forall_mem_cons.mp earlier
    rw [insertBinary, if_pos here, inductionHypothesis there]
    rfl

theorem foldl_insertBinary {sorted binaries : List (Permutation × Binary)}
    (ordered : Ordered (sorted ++ binaries)) :
    binaries.foldl (fun sorted entry => insertBinary entry.1 entry.2 sorted) sorted =
      sorted ++ binaries := by
  induction binaries generalizing sorted with
  | nil => exact (List.append_nil _).symm
  | cons entry rest inductionHypothesis =>
    have earlier : ∀ other ∈ sorted, other.1.before entry.1 := fun other member =>
      (List.pairwise_append.mp ordered).2.2 other member entry List.mem_cons_self
    rw [List.foldl_cons, insertBinary_last earlier, inductionHypothesis] <;>
      rw [List.append_assoc, List.singleton_append]
    exact ordered

/-- Binaries that are in order stay as they are when they are put in order. -/
theorem ofBinaries_of_ordered {content : MapContent} (ordered : Ordered content.binaries) :
    ofBinaries content.binaries content.profile = content :=
  congrArg (MapContent.mk · content.profile)
    (foldl_insertBinary (show Ordered ([] ++ content.binaries) from ordered))

/-- What compiling puts into a map: the binary of each code, in order. -/
def ofCodes (codes : List (Permutation × List UInt8)) (profile : Profile) : MapContent :=
  .ofBinaries (codes.map fun entry => (entry.1, .ofCode entry.2)) profile

theorem isIntact_ofCodes {codes : List (Permutation × List UInt8)} {profile : Profile} :
    ∀ entry ∈ (ofCodes codes profile).binaries, entry.2.isIntact := by
  refine List.foldlRecOn (motive := fun (sorted : List (Permutation × Binary)) =>
      ∀ entry ∈ sorted, entry.2.isIntact)
    (codes.map fun entry => (entry.1, Binary.ofCode entry.2)) _ ?_ ?_
  · exact fun _ member => absurd member List.not_mem_nil
  intro sorted intact entry member other inside
  obtain ⟨⟨permutation, code⟩, -, rfl⟩ := List.mem_map.mp member
  rcases mem_of_insertBinary inside with rfl | inside
  · exact decide_eq_true rfl
  · exact intact other inside

end MapContent

/-! ### Archives -/

namespace ShaderMap

/-- What is read from an archive is compiled. -/
theorem isCompiled_of_archive {bytes : List UInt8} {map : ShaderMap}
    (read : ofArchive bytes = .ok map) : map.isCompiled := by
  unfold ofArchive at read
  split at read
  · cases read
  · split at read
    · cases read
    · cases read
      rfl

/-- What the archive of a map with these expressions is read as. -/
def reread (map : ShaderMap) (expressions : ExpressionSet) : Except Failure ShaderMap :=
  if ∀ number ∈ expressions.numbers, number.isFinite then .ok map else .error .malformed

/-- A map comes back from its archive as it was, or the archive cannot be read. -/
theorem ofArchive_encode {map : ShaderMap} {codes : List (Permutation × List UInt8)}
    {profile : Profile} (compiled : map.content = some (.ofCodes codes profile))
    (nested : (map.encode (.ofCodes codes profile)).nesting ≤ 127)
    (returns : ∀ number ∈ profile.expressions.numbers, number.isFinite → number.Returns) :
    ofArchive (Utf8.encode (map.encode (.ofCodes codes profile)).render) =
      map.reread profile.expressions := by
  have carried : Carries decode (map.encode (.ofCodes codes profile)) _
      (∀ number ∈ profile.expressions.numbers, number.isFinite) := map.carries returns
  unfold reread
  by_cases finite : ∀ number ∈ profile.expressions.numbers, number.isFinite
  · rw [if_pos finite, ofArchive, carried.decode?_render nested finite]
    have intact : (MapContent.ofCodes codes profile).binaries.find?
        (fun entry => !entry.2.isIntact) = none := by
      refine List.find?_eq_none.mpr fun entry member => ?_
      rw [MapContent.isIntact_ofCodes entry member]
      exact Bool.false_ne_true
    have ordered := MapContent.ofBinaries_of_ordered
      (MapContent.ordered_ofBinaries (codes.map fun entry => (entry.1, .ofCode entry.2)) profile)
    dsimp only
    rw [intact]
    dsimp only
    rw [show MapContent.ofBinaries (MapContent.ofCodes codes profile).binaries
      (MapContent.ofCodes codes profile).profile = .ofCodes codes profile from ordered, ← compiled]
  · rw [if_neg finite, ofArchive, carried.decode?_render_none finite]

end ShaderMap

/-! ### Binaries in any order -/

theorem Permutation.before_asymm {left right : Permutation} (earlier : left.before right) :
    ¬ right.before left := fun later =>
  lt_asymm (before_iff.mp earlier) (before_iff.mp later)

theorem Permutation.ne_of_before {left right : Permutation} (earlier : left.before right) :
    left ≠ right := fun same =>
  before_asymm earlier (same ▸ earlier)

namespace MapContent

variable {permutation other : Permutation} {binary : Binary} {entry : Permutation × Binary}
  {binaries rest : List (Permutation × Binary)}

theorem insertBinary_past (earlier : entry.1.before permutation) :
    insertBinary permutation binary (entry :: rest) =
      entry :: insertBinary permutation binary rest := by
  rw [insertBinary, if_pos earlier]

theorem insertBinary_same (same : entry.1 = permutation) :
    insertBinary permutation binary (entry :: rest) = (permutation, binary) :: rest := by
  have notEarlier : ¬ entry.1.before permutation := fun earlier =>
    Permutation.ne_of_before earlier same
  rw [insertBinary, if_neg notEarlier, if_pos same]

theorem insertBinary_ahead (earlier : permutation.before entry.1) :
    insertBinary permutation binary (entry :: rest) = (permutation, binary) :: entry :: rest := by
  rw [insertBinary, if_neg (Permutation.before_asymm earlier),
    if_neg (Permutation.ne_of_before earlier).symm]

/-- Two binaries of different permutations are filed in either order. -/
theorem insertBinary_comm {first second : Permutation} (earlier : first.before second)
    (one other : Binary) (binaries : List (Permutation × Binary)) :
    insertBinary second other (insertBinary first one binaries) =
      insertBinary first one (insertBinary second other binaries) := by
  induction binaries with
  | nil => exact (insertBinary_past earlier).trans (insertBinary_ahead earlier).symm
  | cons entry rest inductionHypothesis =>
    by_cases past : entry.1.before first
    · have further := Permutation.before_trans past earlier
      rw [insertBinary_past past, insertBinary_past further, insertBinary_past further,
        insertBinary_past past, inductionHypothesis]
    by_cases same : entry.1 = first
    · have further : entry.1.before second := same ▸ earlier
      rw [insertBinary_same same, insertBinary_past further, insertBinary_same same,
        insertBinary_past earlier]
    · have ahead := Permutation.before_of_ne same past
      rw [insertBinary_ahead ahead, insertBinary_past earlier]
      -- Whatever comes first once the later one has been filed, the earlier one goes before it.
      by_cases later : entry.1.before second
      · rw [insertBinary_past later, insertBinary_ahead ahead]
      by_cases equal : entry.1 = second
      · rw [insertBinary_same equal, insertBinary_ahead earlier]
      · rw [insertBinary_ahead (Permutation.before_of_ne equal later), insertBinary_ahead earlier]

/-- Binaries of different permutations make the same content in any order. -/
theorem ofBinaries_perm {others : List (Permutation × Binary)} (same : binaries.Perm others)
    (distinct : (binaries.map Prod.fst).Nodup) (profile : Profile) :
    ofBinaries binaries profile = ofBinaries others profile := by
  refine congrArg (MapContent.mk · profile) (same.foldl_eq' ?_ [])
  rintro ⟨first, one⟩ here ⟨second, other⟩ there sorted
  by_cases equal : first = second
  · have entries := List.inj_on_of_nodup_map distinct here there equal
    cases entries
    rfl
  · by_cases earlier : first.before second
    · exact insertBinary_comm earlier one other sorted
    · exact (insertBinary_comm (Permutation.before_of_ne equal earlier) other one sorted).symm

theorem binary?_cons (other : Permutation) (entry : Permutation × Binary)
    (rest : List (Permutation × Binary)) (profile : Profile) :
    (MapContent.mk (entry :: rest) profile).binary? other =
      if entry.1 = other then some entry.2 else (MapContent.mk rest profile).binary? other := by
  by_cases here : entry.1 = other <;> simp [binary?, here]

/-- Filing a binary replaces that of its permutation and no other. -/
theorem binary?_insertBinary (permutation other : Permutation) (binary : Binary)
    (binaries : List (Permutation × Binary)) (profile : Profile) :
    (MapContent.mk (insertBinary permutation binary binaries) profile).binary? other =
      if permutation = other then some binary
      else (MapContent.mk binaries profile).binary? other := by
  induction binaries with
  | nil => exact binary?_cons other (permutation, binary) [] profile
  | cons entry rest inductionHypothesis =>
    by_cases past : entry.1.before permutation
    · rw [insertBinary_past past, binary?_cons, inductionHypothesis, binary?_cons]
      by_cases here : entry.1 = other
      · rw [if_pos here, if_pos here, if_neg fun same =>
          Permutation.ne_of_before past (here.trans same.symm)]
      · rw [if_neg here, if_neg here]
    by_cases same : entry.1 = permutation
    · rw [insertBinary_same same, binary?_cons, binary?_cons, same]
      split <;> rfl
    · rw [insertBinary_ahead (Permutation.before_of_ne same past), binary?_cons]

/-- Content made of answers has the answer of every permutation that has one. -/
theorem binary?_ofBinaries (answer : Permutation → Option Binary)
    (answered : ∀ entry ∈ binaries, answer entry.1 = some entry.2) (profile : Profile)
    (other : Permutation) :
    (ofBinaries binaries profile).binary? other =
      if other ∈ binaries.map Prod.fst then answer other else none := by
  suffices filed : ∀ sorted : List (Permutation × Binary),
      (MapContent.mk (binaries.foldl (fun sorted entry => insertBinary entry.1 entry.2 sorted)
        sorted) profile).binary? other =
      if other ∈ binaries.map Prod.fst then answer other
      else (MapContent.mk sorted profile).binary? other from filed []
  induction binaries with
  | nil => exact fun sorted => (if_neg List.not_mem_nil).symm
  | cons entry rest inductionHypothesis =>
    intro sorted
    obtain ⟨here, there⟩ := List.forall_mem_cons.mp answered
    rw [List.foldl_cons, inductionHypothesis there, binary?_insertBinary, List.map_cons]
    by_cases later : other ∈ rest.map Prod.fst
    · rw [if_pos later, if_pos (List.mem_cons_of_mem _ later)]
    · rw [if_neg later]
      by_cases same : entry.1 = other
      · rw [if_pos same, if_pos (List.mem_cons.mpr (.inl same.symm)), ← same, here]
      · rw [if_neg same, if_neg fun member =>
          (List.mem_cons.mp member).elim (same ·.symm) later]

end MapContent

end Shading
