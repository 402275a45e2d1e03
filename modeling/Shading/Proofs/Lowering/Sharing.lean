/-
Materials that share a map. Whoever has the same content stream as another
material is given the map that was compiled for it. That is right where the two
are lowered alike. The stream tells all of a node but whether something is left
out of it: it writes a texture that no parameter replaces like one that is
replaced by the parameter with the empty name. So the two are lowered alike if
they leave out the same wherever lowering looks.
-/

import Mathlib
import Shading.Proofs.Graph.Content
import Shading.Proofs.Lowering.Reading

namespace Shading

namespace Description

/-- Two materials are lowered to the same, apart from the name that stands in the first line of
the source, or neither of them can be lowered. -/
def LowersAlike (left right : Description) (parameters parameters' : StaticParameters)
    (quality : Quality) (tier : Tier) : Prop :=
  match left.lower parameters quality tier, right.lower parameters' quality tier with
  | .ok material, .ok material' => material.profile = material'.profile ∧
    ∃ rest, material.source = "// " ++ left.name ++ rest ∧
      material'.source = "// " ++ right.name ++ rest
  | .error _, .error _ => True
  | _, _ => False

variable {left right : Description} {parameters parameters' : StaticParameters}

/-! ### Streams and contexts -/

/-- What is told about the fixed-function state is told by the stream. -/
theorem Blurs.usageText (blurs : left.Blurs right parameters parameters') :
    left.usageText = right.usageText := by
  unfold Description.usageText
  rw [blurs.domain, blurs.blend, blurs.usage, blurs.twoSided]

theorem Blurs.alike (blurs : left.Blurs right parameters parameters')
    (small : left.graph.size < 2 ^ 32) :
    Lowering.Context.Alike ⟨left, parameters⟩ ⟨right, parameters'⟩ where
  graph := ⟨blurs.nodes, small⟩
  switches name := by
    rw [← StaticParameters.switch?_blurred, blurs.parameters, StaticParameters.switch?_blurred]

/-- The first lines of a source after the name. -/
def subtitle (description : Description) (quality : Quality) (tier : Tier) : String :=
  " [" ++ tier.name ++ " / " ++ quality.name ++ "]\n// " ++ description.usageText ++ "\n"

theorem lower_eq_ok {description : Description} {quality : Quality} {tier : Tier}
    {material : LoweredMaterial} :
    description.lower parameters quality tier = .ok material ↔ ∃ lines progress,
      Lowering.emitOutputs ⟨description, parameters⟩ description.graph.outputs {} =
        .ok (lines, progress) ∧
      material = ⟨"// " ++ description.name ++ (description.subtitle quality tier ++ lines),
        progress.profile⟩ := by
  have header : Lowering.header description quality tier =
      "// " ++ description.name ++ description.subtitle quality tier := by
    simp only [Lowering.header, subtitle, String.append_assoc]
  unfold Description.lower
  constructor
  · intro ran
    obtain ⟨⟨lines, progress⟩, emitted, ran⟩ := bind_eq_ok.mp ran
    cases ran
    exact ⟨lines, progress, emitted, by rw [header, String.append_assoc]⟩
  · rintro ⟨lines, progress, emitted, rfl⟩
    refine bind_eq_ok.mpr ⟨(lines, progress), emitted, ?_⟩
    simp only [header, String.append_assoc]

/-- Where two materials with the same stream leave out the same, they have the same nodes. -/
theorem Blurs.agrees (blurs : left.Blurs right parameters parameters') {input : NodeId}
    (omits : ∀ id, Lowering.Context.Reads ⟨left, parameters⟩ input id →
      (left.graph.node? id).map Node.omits = (right.graph.node? id).map Node.omits) :
    Lowering.Context.Agrees ⟨left, parameters⟩ ⟨right, parameters'⟩ input := by
  intro id reads
  have same : (left.graph.node? id).map Node.blurred = (right.graph.node? id).map Node.blurred := by
    unfold Graph.node?
    rw [← List.getElem?_map, ← List.getElem?_map, blurs.nodes]
  have omits := omits id reads
  show left.graph.node? id = right.graph.node? id
  cases here : left.graph.node? id with
  | none =>
    rw [here] at same
    exact (Option.map_eq_none_iff.mp same.symm).symm
  | some node =>
    rw [here] at same omits
    obtain ⟨other, there, blurred⟩ := Option.map_eq_some_iff.mp same.symm
    rw [there] at omits ⊢
    exact congrArg some (Node.eq_of_blurred blurred.symm (Option.some.inj omits))

/-! ### Lowering alike -/

/-- Where one material can be lowered, another with the same stream and the same nodes is lowered
to the same. -/
theorem Blurs.lower (blurs : left.Blurs right parameters parameters')
    (small : left.graph.size < 2 ^ 32)
    (agrees : ∀ output ∈ left.graph.outputs,
      Lowering.Context.Agrees ⟨left, parameters⟩ ⟨right, parameters'⟩ output.2)
    {quality : Quality} {tier : Tier} {material : LoweredMaterial}
    (lowered : left.lower parameters quality tier = .ok material) :
    ∃ rest, material.source = "// " ++ left.name ++ rest ∧
      right.lower parameters' quality tier = .ok
        ⟨"// " ++ right.name ++ rest, material.profile⟩ := by
  obtain ⟨lines, progress, emitted, rfl⟩ := lower_eq_ok.mp lowered
  refine ⟨_, rfl, lower_eq_ok.mpr ⟨lines, progress, ?_, ?_⟩⟩
  · rw [← blurs.outputs]
    exact Lowering.emitOutputs_congr (blurs.alike small) agrees emitted
  · unfold subtitle
    rw [blurs.usageText]

theorem Blurs.symm (blurs : left.Blurs right parameters parameters') :
    right.Blurs left parameters' parameters where
  domain := blurs.domain.symm
  blend := blurs.blend.symm
  usage := blurs.usage.symm
  twoSided := blurs.twoSided.symm
  isDefault := blurs.isDefault.symm
  nodes := blurs.nodes.symm
  outputs := blurs.outputs.symm
  parameters := blurs.parameters.symm

/-- Materials with the same content stream are lowered alike, if they leave out the same parameters
and inputs of nodes wherever lowering looks: a graph of them has fewer nodes than there are numbers
for nodes. -/
theorem lowersAlike_of_omits (short : (left.contentStream parameters).length < 2 ^ 64)
    (same : left.contentStream parameters = right.contentStream parameters')
    (small : left.graph.size < 2 ^ 32)
    (omits : ∀ output ∈ left.graph.outputs, ∀ id,
      Lowering.Context.Reads ⟨left, parameters⟩ output.2 id →
        (left.graph.node? id).map Node.omits = (right.graph.node? id).map Node.omits)
    (quality : Quality) (tier : Tier) :
    left.LowersAlike right parameters parameters' quality tier := by
  have blurs := (contentStream_eq_iff short).mp same
  have alike := blurs.alike small
  have agrees (output : Attribute × NodeId) (member : output ∈ left.graph.outputs) :=
    blurs.agrees (omits output member)
  unfold LowersAlike
  cases lowered : left.lower parameters quality tier with
  | ok material =>
    obtain ⟨rest, source, other⟩ := blurs.lower small agrees lowered
    rw [other]
    exact ⟨rfl, rest, source, rfl⟩
  | error error =>
    cases lowered' : right.lower parameters' quality tier with
    | error error' => trivial
    | ok material =>
      have back : ∀ output ∈ right.graph.outputs,
          Lowering.Context.Agrees ⟨right, parameters'⟩ ⟨left, parameters⟩ output.2 :=
        fun output member => (agrees output (blurs.outputs ▸ member)).symm alike
      obtain ⟨rest, _, other⟩ := blurs.symm.lower (alike.graph.size_eq ▸ small) back lowered'
      rw [lowered] at other
      cases other

/-- A material that draws plainly unless a switch is turned off; the texture it would be drawn
with then may have a parameter. -/
def switched (parameter : Option String) : Description where
  name := "Switched"
  graph := {
    nodes := [.textureSample parameter ⟨7⟩ .flat none, .constant (.splat .one),
      .staticSwitch "Plain" true ⟨1⟩ ⟨0⟩]
    output := fun property => if property = .baseColor then some ⟨2⟩ else none }

/-- Where the texture is not looked at, it does not matter that the stream does not tell it. -/
theorem switched_lowersAlike :
    (switched none).contentStream .empty = (switched (some "")).contentStream .empty ∧
      (switched none).LowersAlike (switched (some "")) .empty .empty .high .desktop := by
  have short : ((switched none).contentStream .empty).length < 2 ^ 64 := by decide +kernel
  have small : (switched none).graph.size < 2 ^ 32 := by decide
  refine ⟨rfl, lowersAlike_of_omits short rfl small ?_ .high .desktop⟩
  intro output member id reads
  obtain rfl : output = (.baseColor, ⟨2⟩) := List.mem_singleton.mp member
  have outer : (switched none).graph.trace ⟨2⟩ = .found ⟨2⟩ := by decide
  have inner : (switched none).graph.trace ⟨1⟩ = .found ⟨1⟩ := by decide
  -- The switch and the constant are all that lowering looks at.
  cases reads with
  | here found =>
    cases outer.symm.trans found
    rfl
  | operand found there member reads =>
    cases outer.symm.trans found
    cases there
    obtain rfl := List.mem_singleton.mp member
    cases reads with
    | here found =>
      cases inner.symm.trans found
      rfl
    | operand found there member =>
      cases inner.symm.trans found
      cases there
      cases member

/-- A material that samples a texture, with a parameter or without one. -/
def sampled (parameter : Option String) : Description where
  name := "Sampled"
  graph := {
    nodes := [.textureSample parameter ⟨7⟩ .flat none]
    output := fun property => if property = .baseColor then some ⟨0⟩ else none }

/-- A texture without a parameter and one with the parameter that has no name have the same
stream, and a setting of that parameter changes the one and not the other. -/
theorem sampled_not_lowersAlike : ∃ (left right : Description) (parameters : StaticParameters),
    left.contentStream parameters = right.contentStream parameters ∧
      ¬ left.LowersAlike right parameters parameters .high .desktop := by
  refine ⟨sampled none, sampled (some ""), .empty, rfl, fun alike => ?_⟩
  have profile (parameter : Option String) :
      ((sampled parameter).lower .empty .high .desktop).map LoweredMaterial.profile =
        .ok { expressions := { flatTextures := [⟨parameter, ⟨7⟩, .flat⟩] },
              textureSamples := 1 } := by
    cbv
  obtain ⟨left, lowered, first⟩ := map_eq_ok.mp (profile none)
  obtain ⟨right, lowered', second⟩ := map_eq_ok.mp (profile (some ""))
  unfold LowersAlike at alike
  rw [lowered, lowered'] at alike
  have equal := alike.1
  rw [first, second] at equal
  cases equal

end Description

end Shading
