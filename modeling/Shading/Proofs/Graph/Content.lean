/-
What the digest of a material covers. The byte stream it is taken of tells all
that lowering reads, but for two things: a texture without a parameter looks
like one whose parameter has no name, and a node that is not there looks like
the last one that a number can name. Of masks it tells four bits.
-/

import Mathlib.Tactic.Cases
import Shading.Graph.Description
import Shading.Proofs.Digest.Legible

namespace Shading

/-! ### Names -/

theorem Attribute.ofName?_name (property : Attribute) :
    Attribute.ofName? property.name = some property := by
  cases property <;> decide

theorem Attribute.name_injective {left right : Attribute} (same : left.name = right.name) :
    left = right := by
  have found := Attribute.ofName?_name left
  rw [same, Attribute.ofName?_name] at found
  exact (Option.some.inj found).symm

/-! ### Nodes -/

namespace Node

/-- Stands for a node that is not there. -/
def absent : NodeId := ⟨0xFFFFFFFF⟩

/-- What the stream of a node tells. -/
def blurred : Node → Node
  | .textureSample parameter texture kind coordinates =>
    .textureSample (some (parameter.getD "")) texture kind (some (coordinates.getD absent))
  | .runtimeTexture parameter texture => .runtimeTexture (some (parameter.getD "")) texture
  | .reroute input => .reroute (some (input.getD absent))
  | node => node

theorem optionalNodeStream_eq (node : Option NodeId) :
    optionalNodeStream node = nodeStream (node.getD absent) := by
  cases node <;> rfl

theorem stream_blurred (node : Node) : node.blurred.stream = node.stream := by
  cases node with
  | textureSample parameter texture kind coordinates => cases coordinates <;> rfl
  | reroute input => cases input <;> rfl
  | _ => rfl

/-- What a node leaves out of what it might have: a parameter, and an input. -/
def omits : Node → Bool × Bool
  | .textureSample parameter _ _ coordinates => (parameter.isNone, coordinates.isNone)
  | .runtimeTexture parameter _ => (parameter.isNone, false)
  | .reroute input => (false, input.isNone)
  | _ => (false, false)

theorem eq_of_getD {α : Type} {first second : Option α} {default : α}
    (same : first.getD default = second.getD default) (none : first.isNone = second.isNone) :
    first = second := by
  cases first with
  | none => exact (Option.isNone_iff_eq_none.mp none.symm).symm
  | some value =>
    cases second with
    | none => cases none
    | some other => exact congrArg some same

/-- A node is known by what its stream tells and by what it leaves out. -/
theorem eq_of_blurred {left right : Node} (same : left.blurred = right.blurred)
    (omits : left.omits = right.omits) : left = right := by
  cases left with
  | textureSample parameter texture kind coordinates =>
    cases right with
    | textureSample parameter' texture' kind' coordinates' =>
      obtain ⟨parameters, rfl, rfl, inputs⟩ := Node.textureSample.inj same
      obtain ⟨noParameter, noInput⟩ := Prod.mk.inj omits
      rw [eq_of_getD (Option.some.inj parameters) noParameter,
        eq_of_getD (Option.some.inj inputs) noInput]
    | _ => cases same
  | runtimeTexture parameter texture =>
    cases right with
    | runtimeTexture parameter' texture' =>
      obtain ⟨parameters, rfl⟩ := Node.runtimeTexture.inj same
      rw [eq_of_getD (Option.some.inj parameters) (Prod.mk.inj omits).1]
    | _ => cases same
  | reroute input =>
    cases right with
    | reroute input' =>
      rw [eq_of_getD (Option.some.inj (Node.reroute.inj same)) (Prod.mk.inj omits).2]
    | _ => cases same
  | _ =>
    cases right <;> cases same
    rfl

/-- The byte in front. -/
def tag : Node → Nat
  | .constant _ => 0
  | .scalarParameter _ _ => 1
  | .vectorParameter _ _ => 2
  | .textureSample _ _ _ _ => 3
  | .externalTexture _ => 4
  | .staticSwitch _ _ _ _ => 5
  | .reroute _ => 6
  | .math _ _ => 7
  | .collectionParameter _ _ => 8
  | .textureCoordinates _ => 9
  | .sceneDepth => 10
  | .eyeAdaptation => 11
  | .distanceCullFade => 12
  | .runtimeTexture _ _ => 13

theorem head?_stream (node : Node) (after : List UInt8) :
    (node.stream ++ after).head? = some (UInt8.ofNat node.tag) := by
  cases node <;> rfl

theorem tag_lt (node : Node) : node.tag < 256 := by
  cases node <;> exact of_decide_eq_true rfl

theorem tag_of_stream {left right : Node} {after after' : List UInt8}
    (same : left.stream ++ after = right.stream ++ after') : left.tag = right.tag :=
  Stream.tag_eq_of_head? same (head?_stream left after) left.tag_lt (head?_stream right after')
    right.tag_lt

theorem legible_nodeStream : Stream.Legible nodeStream id :=
  (Stream.legible_word.on NodeId.number).faithful fun ⟨_⟩ ⟨_⟩ same => congrArg NodeId.mk same

theorem legible_optionalNodeStream :
    Stream.Legible optionalNodeStream fun node => node.getD absent := by
  rw [funext optionalNodeStream_eq]
  exact legible_nodeStream.on fun node : Option NodeId => node.getD absent

theorem legible_texture :
    Stream.Legible (fun texture : TextureId => Stream.word texture.number.toNat) id :=
  (Stream.legible_word.on TextureId.number).faithful fun ⟨_⟩ ⟨_⟩ same => congrArg TextureId.mk same

theorem legible_kind : Stream.Legible (fun kind : TextureKind => Stream.byte kind.code) id := by
  refine Stream.legible_byte (fun kind => ?_) fun left right same => ?_
  · cases kind <;> exact of_decide_eq_true rfl
  · cases left <;> cases right <;> first | rfl | cases same

theorem legible_operation :
    Stream.Legible (fun operation : MathOperation => Stream.byte operation.code) id := by
  refine Stream.legible_byte (fun operation => ?_) fun left right same => ?_
  · cases operation <;> exact of_decide_eq_true rfl
  · cases left <;> cases right <;> first | rfl | cases same

theorem legible_vectorStream : Stream.Legible vectorStream id := by
  intro left right after after' short same
  have sizes : left.toList.length = right.toList.length := rfl
  refine (Stream.map_eq_of_flatMap Stream.legible_single sizes short same).imp_left fun same => ?_
  rw [List.map_id, List.map_id] at same
  cases left
  cases right
  cases same
  rfl

theorem stream_ne_nil (node : Node) : node.stream ≠ [] := by
  intro empty
  have head := head?_stream node []
  rw [empty] at head
  cases head

theorem legible : Stream.Legible stream blurred := by
  intro left right after after' short same
  have tags := tag_of_stream same
  cases left <;> cases right <;> cases tags <;> simp only [stream, List.append_assoc] at short same
  all_goals obtain ⟨short, same⟩ := Stream.drop_front short same
  case constant.constant.refl =>
    obtain ⟨rfl, -, rest⟩ := legible_vectorStream.read short same
    exact ⟨rfl, rest⟩
  case scalarParameter.scalarParameter.refl =>
    obtain ⟨rfl, short, same⟩ := Stream.legible_text.read short same
    obtain ⟨rfl, -, rest⟩ := Stream.legible_single.read short same
    exact ⟨rfl, rest⟩
  case vectorParameter.vectorParameter.refl =>
    obtain ⟨rfl, short, same⟩ := Stream.legible_text.read short same
    obtain ⟨rfl, -, rest⟩ := legible_vectorStream.read short same
    exact ⟨rfl, rest⟩
  case textureSample.textureSample.refl =>
    obtain ⟨parameters, short, same⟩ := Stream.legible_text.read short same
    obtain ⟨rfl, short, same⟩ := legible_texture.read short same
    obtain ⟨rfl, short, same⟩ := legible_kind.read short same
    obtain ⟨nodes, -, rest⟩ := legible_optionalNodeStream.next short same
    refine ⟨?_, rest⟩
    simp only [blurred, parameters, nodes]
  case runtimeTexture.runtimeTexture.refl =>
    obtain ⟨parameters, short, same⟩ := Stream.legible_text.read short same
    obtain ⟨rfl, -, rest⟩ := legible_texture.read short same
    refine ⟨?_, rest⟩
    simp only [blurred, parameters]
  case externalTexture.externalTexture.refl =>
    obtain ⟨rfl, -, rest⟩ := Stream.legible_longWord.read short same
    exact ⟨rfl, rest⟩
  case staticSwitch.staticSwitch.refl =>
    obtain ⟨rfl, short, same⟩ := Stream.legible_text.read short same
    obtain ⟨rfl, short, same⟩ := Stream.legible_bool.read short same
    obtain ⟨rfl, short, same⟩ := legible_nodeStream.read short same
    obtain ⟨rfl, -, rest⟩ := legible_nodeStream.read short same
    exact ⟨rfl, rest⟩
  case reroute.reroute.refl =>
    obtain ⟨nodes, -, rest⟩ := legible_optionalNodeStream.next short same
    refine ⟨?_, rest⟩
    simp only [blurred, nodes]
  case math.math.refl =>
    obtain ⟨rfl, short, same⟩ := legible_operation.read short same
    obtain ⟨inputs, -, rest⟩ :=
      (legible_nodeStream.list fun _ => List.cons_ne_nil _ _).next short same
    rw [List.map_id, List.map_id] at inputs
    exact ⟨inputs ▸ rfl, rest⟩
  case collectionParameter.collectionParameter.refl =>
    obtain ⟨rfl, short, same⟩ := Stream.legible_longWord.read short same
    obtain ⟨rfl, -, rest⟩ := Stream.legible_text.read short same
    exact ⟨rfl, rest⟩
  case textureCoordinates.textureCoordinates.refl =>
    obtain ⟨rfl, -, rest⟩ := Stream.legible_word.read short same
    exact ⟨rfl, rest⟩
  all_goals exact ⟨rfl, same⟩

end Node

/-! ### Static parameters -/

namespace StaticValue

/-- What the stream of a value tells. -/
def blurred : StaticValue → StaticValue
  | .mask components => .mask (components % 16)
  | value => value

def tag : StaticValue → Nat
  | .switch _ => 0
  | .choice _ => 1
  | .mask _ => 2

theorem tag_lt (value : StaticValue) : value.tag < 256 := by
  cases value <;> exact of_decide_eq_true rfl

end StaticValue

namespace StaticParameters

theorem head?_valueStream (value : StaticValue) (after : List UInt8) :
    (valueStream value ++ after).head? = some (UInt8.ofNat value.tag) := by
  cases value <;> rfl

theorem legible_valueStream : Stream.Legible valueStream StaticValue.blurred := by
  intro left right after after' short same
  have tags : left.tag = right.tag :=
    Stream.tag_eq_of_head? same (head?_valueStream left after) left.tag_lt
      (head?_valueStream right after') right.tag_lt
  cases left <;> cases right <;> cases tags <;>
    simp only [valueStream, List.append_assoc] at short same
  all_goals obtain ⟨short, same⟩ := Stream.drop_front short same
  case switch.switch.refl =>
    obtain ⟨rfl, -, rest⟩ := Stream.legible_bool.read short same
    exact ⟨rfl, rest⟩
  case choice.choice.refl =>
    obtain ⟨rfl, -, rest⟩ := Stream.legible_text.read short same
    exact ⟨rfl, rest⟩
  case mask.mask.refl left right _ _ =>
    have fits (components : UInt8) : components.toNat % 16 < 256 ^ 1 :=
      Nat.lt_of_lt_of_le (Nat.mod_lt _ (by decide)) (by decide)
    obtain ⟨bits, -, rest⟩ := (Stream.legible_number fits).next short same
    have bits : left % 16 = right % 16 := by
      rw [← UInt8.toNat_inj, UInt8.toNat_mod, UInt8.toNat_mod]
      exact bits
    refine ⟨?_, rest⟩
    simp only [StaticValue.blurred, bits]

theorem stream_value_blurred (value : StaticValue) :
    valueStream value.blurred = valueStream value := by
  cases value with
  | mask components =>
    show Stream.byte 2 ++ Stream.byte ((components % 16).toNat % 16) = _
    rw [UInt8.toNat_mod]
    exact congrArg (fun bits => Stream.byte 2 ++ Stream.byte bits) (Nat.mod_mod _ _)
  | _ => rfl

/-- What the stream of static parameters tells. -/
def blurred (parameters : StaticParameters) : StaticParameters :=
  ⟨parameters.entries.map fun entry => (entry.1, entry.2.blurred)⟩

theorem legible_stream : Stream.Legible stream blurred := by
  intro left right after after' short same
  have entries : Stream.Legible
      (fun entry : String × StaticValue => Stream.text entry.1 ++ valueStream entry.2)
      fun entry => (entry.1, entry.2.blurred) :=
    (Stream.legible_text.on Prod.fst).append (legible_valueStream.on Prod.snd)
  have filled (entry : String × StaticValue) :
      Stream.text entry.1 ++ valueStream entry.2 ≠ [] := List.cons_ne_nil _ _
  exact (entries.list filled short same).imp_left (congrArg mk)

theorem stream_eq_of_blurred {left right : StaticParameters}
    (same : left.blurred = right.blurred) : left.stream = right.stream := by
  refine Stream.list_eq_of_map (fun entry => ?_) (congrArg entries same)
  exact congrArg (Stream.text entry.1 ++ ·) (stream_value_blurred entry.2)

theorem get?_blurred (parameters : StaticParameters) (name : String) :
    parameters.blurred.get? name = (parameters.get? name).map StaticValue.blurred := by
  unfold get? blurred
  rw [List.find?_map, Option.map_map, Option.map_map]
  rfl

/-- Switches are told in full. -/
theorem switch?_blurred (parameters : StaticParameters) (name : String) :
    parameters.blurred.switch? name = parameters.switch? name := by
  unfold switch?
  rw [get?_blurred]
  cases parameters.get? name with
  | none => rfl
  | some value => cases value <;> rfl

end StaticParameters

/-! ### Graphs and descriptions -/

namespace Graph

theorem legible_output : Stream.Legible
    (fun entry : Attribute × NodeId => Stream.text entry.1.name ++ Node.nodeStream entry.2) id :=
  ((Stream.legible_text.on fun entry : Attribute × NodeId => entry.1.name).append
    (Node.legible_nodeStream.on Prod.snd)).faithful fun ⟨_, _⟩ ⟨_, _⟩ same =>
      Prod.ext (Attribute.name_injective (Prod.mk.inj same).1) (Prod.mk.inj same).2

theorem legible_stream : Stream.Legible stream fun graph =>
    (graph.nodes.map Node.blurred, graph.outputs) := by
  intro left right after after' short same
  unfold stream at short same
  rw [List.append_assoc] at short
  rw [List.append_assoc, List.append_assoc] at same
  obtain ⟨nodes, short, same⟩ := (Node.legible.list Node.stream_ne_nil).next short same
  obtain ⟨outputs, -, rest⟩ :=
    (legible_output.list fun _ => List.cons_ne_nil _ _).next short same
  rw [List.map_id, List.map_id] at outputs
  exact ⟨Prod.ext nodes outputs, rest⟩

end Graph

namespace Description

/-- What two descriptions with their parameters have in common if their content streams are the
same. -/
structure Blurs (left right : Description) (parameters parameters' : StaticParameters) :
    Prop where
  domain : left.domain = right.domain
  blend : left.blend = right.blend
  usage : left.usage = right.usage
  twoSided : left.twoSided = right.twoSided
  isDefault : left.isDefault = right.isDefault
  nodes : left.graph.nodes.map Node.blurred = right.graph.nodes.map Node.blurred
  outputs : left.graph.outputs = right.graph.outputs
  parameters : parameters.blurred = parameters'.blurred

theorem legible_domain : Stream.Legible (fun domain : Domain => Stream.byte domain.code) id := by
  refine Stream.legible_byte (fun domain => ?_) fun left right same => ?_
  · cases domain <;> exact of_decide_eq_true rfl
  · cases left <;> cases right <;> first | rfl | cases same

theorem legible_blend : Stream.Legible (fun blend : Blend => Stream.byte blend.code) id := by
  refine Stream.legible_byte (fun blend => ?_) fun left right same => ?_
  · cases blend <;> exact of_decide_eq_true rfl
  · cases left <;> cases right <;> first | rfl | cases same

theorem legible_usage :
    Stream.Legible (fun usage : Usage => Stream.word usage.bits.toNat) id :=
  (Stream.legible_word.on Usage.bits).faithful fun ⟨_⟩ ⟨_⟩ same => congrArg Usage.mk same

variable {left right : Description} {parameters parameters' : StaticParameters}

/-- What a content stream tells, and all it tells. -/
theorem contentStream_eq_iff (short : (left.contentStream parameters).length < 2 ^ 64) :
    left.contentStream parameters = right.contentStream parameters' ↔
      left.Blurs right parameters parameters' := by
  constructor
  · intro same
    unfold contentStream at short same
    simp only [List.append_assoc] at short same
    obtain ⟨domain, short, same⟩ := legible_domain.read short same
    obtain ⟨blend, short, same⟩ := legible_blend.read short same
    obtain ⟨usage, short, same⟩ := legible_usage.read short same
    obtain ⟨twoSided, short, same⟩ := Stream.legible_bool.read short same
    obtain ⟨isDefault, short, same⟩ := Stream.legible_bool.read short same
    obtain ⟨graph, short, same⟩ := Graph.legible_stream.next short same
    obtain ⟨nodes, outputs⟩ := Prod.mk.inj graph
    have blurred := StaticParameters.legible_stream.eq_of_eq short same
    exact ⟨domain, blend, usage, twoSided, isDefault, nodes, outputs, blurred⟩
  · intro blurs
    have graphs : left.graph.stream = right.graph.stream := by
      unfold Graph.stream
      rw [Stream.list_eq_of_map Node.stream_blurred blurs.nodes, blurs.outputs]
    have lists := StaticParameters.stream_eq_of_blurred blurs.parameters
    unfold contentStream
    rw [blurs.domain, blurs.blend, blurs.usage, blurs.twoSided, blurs.isDefault, graphs, lists]

end Description

end Shading
