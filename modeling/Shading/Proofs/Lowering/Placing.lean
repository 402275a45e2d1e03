/-
The uniform expressions of a material. There are as many of them as the
attributes need and no more: each attribute whose input folds is given the place
of an expression that is equal to the tree of that input, each place is given to
some attribute, and no two expressions of one list are equal.
-/

import Mathlib
import Shading.Proofs.Lowering.Writing

namespace Shading

namespace Lowering

variable {context : Context} {fuel : Nat} {inProgress : List NodeId} {input : NodeId}
  {output : Attribute × NodeId} {outputs : List (Attribute × NodeId)} {codes : List String}
  {progress middle after : Progress} {emitted : Emitted}

/-- What is in the buffer after one output was there before, or is what that output was given. -/
theorem lt_of_lt_place {single : Bool} {position : Nat}
    (inside : position < ((place output.1 emitted progress).2.uniforms single).length) :
    position < (progress.uniforms single).length ∨
      (place output.1 emitted progress).1 = placeName single position ∧
        output.1.isScalar = single := by
  cases uniform : emitted.uniform with
  | none =>
    rw [place_code uniform] at inside
    exact .inl inside
  | some tree =>
    rw [uniforms_place single uniform] at inside
    split at inside
    · rename_i same
      subst same
      refine (ExpressionSet.lt_of_lt_intern inside).imp_right fun last => ⟨?_, rfl⟩
      rw [place_name uniform, last]
    · exact .inl inside

/-- An output whose input does not fold leaves the buffer as it is. -/
theorem uniforms_place_of_unfolded (reflects : Reflects context output.2 emitted)
    (unfolded : ¬context.Folds output.2) :
    (place output.1 emitted progress).2.uniforms = progress.uniforms := by
  cases uniform : emitted.uniform with
  | none => rw [place_code uniform]
  | some tree => exact absurd (reflects.folds.mp (uniform ▸ rfl)) unfolded

theorem distinct_place {single : Bool}
    (distinct : (progress.uniforms single).Pairwise fun left right => left.equal right = false) :
    ((place output.1 emitted progress).2.uniforms single).Pairwise
      fun left right => left.equal right = false := by
  cases uniform : emitted.uniform with
  | none =>
    rw [place_code uniform]
    exact distinct
  | some tree =>
    rw [uniforms_place single uniform]
    split
    · exact ExpressionSet.pairwise_intern distinct
    · exact distinct

namespace Emits

/-- Whatever is in the buffer in the end was there before, or has been given to an output. -/
theorem named (emits : Emits context outputs progress codes after) {single : Bool}
    {position : Nat} (inside : position < (after.uniforms single).length) :
    position < (progress.uniforms single).length ∨
      ∃ output, (output, placeName single position) ∈ outputs.zip codes ∧
        output.1.isScalar = single := by
  induction emits with
  | nil => exact .inl inside
  | @cons output outputs codes progress middle after emitted here _ inductionHypothesis =>
    rcases inductionHypothesis inside with before | ⟨output, member, same⟩
    · rcases lt_of_lt_place before with before | ⟨name, same⟩
      · rw [uniforms_emit here] at before
        exact .inl before
      · refine .inr ⟨output, ?_, same⟩
        rw [name]
        exact List.mem_cons_self
    · exact .inr ⟨output, List.mem_cons_of_mem _ member, same⟩

theorem distinct (emits : Emits context outputs progress codes after) {single : Bool}
    (distinct : (progress.uniforms single).Pairwise fun left right => left.equal right = false) :
    (after.uniforms single).Pairwise fun left right => left.equal right = false := by
  induction emits with
  | nil => exact distinct
  | cons here _ inductionHypothesis =>
    refine inductionHypothesis (distinct_place ?_)
    rw [uniforms_emit here]
    exact distinct

theorem append {before rest : List (Attribute × NodeId)} {first second : List String}
    (emits : Emits context before progress first middle)
    (more : Emits context rest middle second after) :
    Emits context (before ++ rest) progress (first ++ second) after := by
  induction emits with
  | nil => exact more
  | cons here _ inductionHypothesis => exact .cons here (inductionHypothesis more)

end Emits

end Lowering

namespace LoweredMaterial

/-- Each attribute is given what it is to be given, be it a place in the buffer or code. Every
expression of the buffer is given to some attribute; one whose input does not fold adds none, and
no two expressions are equal. -/
structure Folded (material : LoweredMaterial) (description : Description)
    (parameters : StaticParameters) (quality : Quality) (tier : Tier) : Prop where
  provided : ∃ gathered codes, gathered.entries = material.profile.expressions ∧
    material.source = Lowering.header description quality tier ++
      Lowering.lines description.graph.outputs codes ∧
    List.Forall₂ (Lowering.Provided ⟨description, parameters⟩ gathered)
      description.graph.outputs codes ∧
    ∀ single position, position < (material.profile.expressions.uniforms single).length →
      ∃ output, (output, Lowering.placeName single position) ∈
        description.graph.outputs.zip codes ∧ output.1.isScalar = single
  unfolded : ∀ before output rest, description.graph.outputs = before ++ output :: rest →
    ¬Lowering.Context.Folds ⟨description, parameters⟩ output.2 →
    ∃ lines middle lines' after,
      Lowering.emitOutputs ⟨description, parameters⟩ before {} = .ok (lines, middle) ∧
      Lowering.emitOutputs ⟨description, parameters⟩ (before ++ [output]) {} = .ok (lines', after) ∧
      after.profile.expressions.vectors = middle.profile.expressions.vectors ∧
      after.profile.expressions.scalars = middle.profile.expressions.scalars
  distinct : ∀ single, (material.profile.expressions.uniforms single).Pairwise
    fun left right => left.equal right = false

end LoweredMaterial

namespace Description

variable {description : Description} {parameters : StaticParameters} {quality : Quality}
  {tier : Tier} {material : LoweredMaterial}

theorem folded_of_lower (lowered : description.lower parameters quality tier = .ok material) :
    material.Folded description parameters quality tier := by
  obtain ⟨⟨text, progress⟩, ran, ended⟩ := bind_eq_ok.mp lowered
  cases ended
  obtain ⟨codes, emits, rfl⟩ := Lowering.emitOutputs_eq_ok.mp ran
  refine ⟨?_, fun before output rest split unfolded => ?_, fun single => ?_⟩
  · obtain ⟨places, _, _, provided⟩ := emits.gathers (fun _ _ _ _ => trivial) []
      (Lowering.tidy_empty description.graph fun _ => True)
    refine ⟨progress.gatheredAt places, codes, rfl, rfl, provided _ (.refl _), ?_⟩
    intro single position inside
    refine (emits.named inside).resolve_left ?_
    cases single <;> exact Nat.not_lt_zero position
  · rw [split] at emits
    obtain ⟨first, middle, second, emits, more, _⟩ := emits.split
    obtain _ | ⟨here, _⟩ := more
    have whole := emits.append (.cons here .nil)
    have same := (Lowering.uniforms_place_of_unfolded (Lowering.emit_reflects here) unfolded).trans
      (Lowering.uniforms_emit here)
    exact ⟨_, middle, _, _, Lowering.emitOutputs_eq_ok.mpr ⟨first, emits, rfl⟩,
      Lowering.emitOutputs_eq_ok.mpr ⟨_, whole, rfl⟩, congrFun same false, congrFun same true⟩
  · refine emits.distinct ?_
    cases single <;> exact .nil

/-- A material with a colour that is computed from parameters behind a reroute and a switch, two
numbers that differ in the sign of zero, and light from a texture. -/
def tinted : Description where
  name := "Tinted"
  graph := {
    nodes := [.vectorParameter "Tint" (.splat .one), .reroute (some ⟨0⟩),
      .vectorParameter "Base" (.splat .one), .staticSwitch "Plain" false ⟨6⟩ ⟨1⟩,
      .math .multiply [⟨3⟩, ⟨2⟩], .scalarParameter "Shine" .zero,
      .textureSample none ⟨7⟩ .flat none, .scalarParameter "Shine" ⟨0x80000000⟩]
    output := fun property =>
      match property with
      | .baseColor => some ⟨4⟩
      | .metallic => some ⟨5⟩
      | .roughness => some ⟨7⟩
      | .emissive => some ⟨6⟩
      | _ => none }

/-- Both zeros share one place, and the texture takes none. -/
theorem tinted_folded : ∃ material, tinted.lower .empty .high .desktop = .ok material ∧
    material.profile.expressions.vectors =
      [.multiply (.vectorParameter "Tint" (.splat .one)) (.vectorParameter "Base" (.splat .one))] ∧
    material.profile.expressions.scalars = [.scalarParameter "Shine" .zero] ∧
    material.Folded tinted .empty .high .desktop := by
  have profile : (tinted.lower .empty .high .desktop).map (fun material =>
      (material.profile.expressions.vectors, material.profile.expressions.scalars)) =
        .ok ([.multiply (.vectorParameter "Tint" (.splat .one))
          (.vectorParameter "Base" (.splat .one))], [.scalarParameter "Shine" .zero]) := by
    cbv
  obtain ⟨material, lowered, entries⟩ := map_eq_ok.mp profile
  exact ⟨material, lowered, congrArg Prod.fst entries, congrArg Prod.snd entries,
    folded_of_lower lowered⟩

end Description

end Shading
