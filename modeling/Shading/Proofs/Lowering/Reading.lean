/-
What lowering looks at. From an input it follows reroutes to a node, and from
there it goes on to the operands the code of that node is made from. A run that
succeeds on one graph succeeds just so on another, if both have the same nodes
wherever it looks.
-/

import Shading.Lowering.Emission
import Shading.Proofs.Graph.Walking
import Shading.Proofs.Sequence

namespace Shading

namespace Lowering

variable {context left right : Context} {fuel : Nat} {inProgress : List NodeId}
  {input id : NodeId} {node : Node} {progress after : Progress} {emitted : Emitted}

namespace Context

/-- The inputs that the code of a node is made from. -/
def operands (context : Context) : Node → List NodeId
  | .math _ inputs => inputs
  | .staticSwitch name default onTrue onFalse =>
    [if (context.parameters.switch? name).getD default then onTrue else onFalse]
  | .textureSample _ _ _ coordinates => coordinates.toList
  | _ => []

/-- The nodes that are looked at for an input. -/
inductive Reads (context : Context) : NodeId → NodeId → Prop where
  | here {input id : NodeId} :
    context.description.graph.trace input = .found id → Reads context input id
  | operand {input id operand other : NodeId} {node : Node} :
    context.description.graph.trace input = .found id →
    context.description.graph.node? id = some node → operand ∈ context.operands node →
    Reads context operand other → Reads context input other

/-- Two graphs have the same nodes wherever lowering looks for an input. -/
def Agrees (left right : Context) (input : NodeId) : Prop :=
  ∀ id, left.Reads input id → left.description.graph.node? id = right.description.graph.node? id

/-- Two materials whose content streams tell the same. -/
structure Alike (left right : Context) : Prop where
  graph : left.description.graph.Alike right.description.graph
  switches : ∀ name, left.parameters.switch? name = right.parameters.switch? name

namespace Alike

theorem symm (alike : Alike left right) : Alike right left :=
  ⟨alike.graph.symm, fun name => (alike.switches name).symm⟩

theorem operands (alike : Alike left right) (node : Node) :
    left.operands node = right.operands node := by
  cases node with
  | staticSwitch name default onTrue onFalse =>
    exact congrArg (fun switch => [if Option.getD switch default then onTrue else onFalse])
      (alike.switches name)
  | _ => rfl

end Alike

namespace Agrees

theorem here (agrees : Agrees left right input)
    (found : left.description.graph.trace input = .found id) :
    left.description.graph.node? id = right.description.graph.node? id :=
  agrees id (.here found)

theorem below {operand : NodeId} (agrees : Agrees left right input)
    (found : left.description.graph.trace input = .found id)
    (there : left.description.graph.node? id = some node)
    (member : operand ∈ left.operands node) : Agrees left right operand :=
  fun other reads => agrees other (.operand found there member reads)

/-- Where two graphs agree, lowering looks at the same nodes of both. -/
theorem symm (alike : Alike left right) (agrees : Agrees left right input) :
    Agrees right left input := by
  intro id reads
  refine (agrees id ?_).symm
  induction reads with
  | here found => exact .here (alike.symm.graph.trace found)
  | operand found there member _ inductionHypothesis =>
    have found' := alike.symm.graph.trace found
    have there' := (agrees.here found').trans there
    rw [← alike.operands] at member
    exact .operand found' there' member (inductionHypothesis (agrees.below found' there' member))

end Agrees

end Context

/-! ### One node -/

/-- A node is emitted just if its input leads to it and it is not in progress. -/
theorem emit_eq_ok : emit context (fuel + 1) inProgress input progress = .ok (emitted, after) ↔
    ∃ id node, context.description.graph.trace input = .found id ∧ id ∉ inProgress ∧
      context.description.graph.node? id = some node ∧
      emitNode context (emit context fuel (id :: inProgress)) id node progress =
        .ok (emitted, after) := by
  rw [emit]
  constructor
  · intro ran
    obtain ⟨id, source, ran⟩ := bind_eq_ok.mp ran
    split at ran
    · cases ran
    · rename_i fresh
      split at ran
      · rename_i node there
        exact ⟨id, node, Graph.source_eq_ok.mp source, fresh, there, ran⟩
      · cases ran
  · rintro ⟨id, node, found, fresh, there, ran⟩
    refine bind_eq_ok.mpr ⟨id, Graph.source_eq_ok.mpr found, ?_⟩
    rw [if_neg fresh, there]
    exact ran

/-- An operation is emitted just if it has all of its inputs and they are. -/
theorem emitNode_math {emit : NodeId → Progress → Result} {operation : MathOperation}
    {inputs : List NodeId} :
    emitNode context emit id (.math operation inputs) progress = .ok (emitted, after) ↔
      inputs.length = arity operation ∧ ∃ operands,
        emitAll emit inputs progress = .ok (operands, after) ∧
          combine operation operands = emitted := by
  unfold emitNode
  dsimp only
  split
  · rename_i incomplete
    exact ⟨fun ran => (by cases ran), fun ⟨complete, _⟩ => absurd complete incomplete⟩
  · rename_i complete
    constructor
    · intro ran
      obtain ⟨⟨operands, last⟩, all, same⟩ := bind_eq_ok.mp ran
      cases same
      exact ⟨not_not.mp complete, operands, all, rfl⟩
    · rintro ⟨_, operands, all, rfl⟩
      exact bind_eq_ok.mpr ⟨_, all, rfl⟩

/-- What holds of a node, once it holds of its operands, holds of all that is emitted. -/
theorem emit_induction {motive : NodeId → Progress → Emitted → Progress → Prop}
    (step : ∀ input id node, context.description.graph.trace input = .found id →
      context.description.graph.node? id = some node →
      ∀ (emit : NodeId → Progress → Result) progress emitted after,
        (∀ operand ∈ context.operands node, ∀ progress emitted after,
          emit operand progress = .ok (emitted, after) → motive operand progress emitted after) →
        emitNode context emit id node progress = .ok (emitted, after) →
          motive input progress emitted after)
    (ran : emit context fuel inProgress input progress = .ok (emitted, after)) :
    motive input progress emitted after := by
  induction fuel generalizing inProgress input progress emitted after with
  | zero => cases ran
  | succ fuel inductionHypothesis =>
    obtain ⟨id, node, found, _, there, ran⟩ := emit_eq_ok.mp ran
    exact step input id node found there _ progress emitted after
      (fun _ _ _ _ _ ran => inductionHypothesis ran) ran

/-- The operands of one node are emitted alike, and then so is the node. -/
theorem emitAll_congr {emit emit' : NodeId → Progress → Result} {inputs : List NodeId}
    {operands : List Emitted}
    (same : ∀ operand ∈ inputs, ∀ {progress result}, emit operand progress = .ok result →
      emit' operand progress = .ok result)
    (ran : emitAll emit inputs progress = .ok (operands, after)) :
    emitAll emit' inputs progress = .ok (operands, after) := by
  induction inputs generalizing progress operands after with
  | nil => exact ran
  | cons first rest inductionHypothesis =>
    rw [emitAll] at ran ⊢
    obtain ⟨⟨emitted, middle⟩, here, ran⟩ := bind_eq_ok.mp ran
    obtain ⟨⟨others, last⟩, there, ran⟩ := bind_eq_ok.mp ran
    refine bind_eq_ok.mpr ⟨_, same first List.mem_cons_self here,
      bind_eq_ok.mpr ⟨(others, last), ?_, ran⟩⟩
    exact inductionHypothesis (fun operand member => same operand (List.mem_cons_of_mem _ member))
      there

theorem emitNode_congr (alike : left.Alike right) {emit emit' : NodeId → Progress → Result}
    (same : ∀ operand ∈ left.operands node, ∀ {progress result},
      emit operand progress = .ok result → emit' operand progress = .ok result)
    (ran : emitNode left emit id node progress = .ok (emitted, after)) :
    emitNode right emit' id node progress = .ok (emitted, after) := by
  cases node with
  | math operation inputs =>
    obtain ⟨complete, operands, all, combined⟩ := emitNode_math.mp ran
    exact emitNode_math.mpr ⟨complete, operands, emitAll_congr same all, combined⟩
  | staticSwitch name default onTrue onFalse =>
    change emit (if (left.parameters.switch? name).getD default then onTrue else onFalse) _ = _
      at ran
    show emit' (if (right.parameters.switch? name).getD default then onTrue else onFalse) _ = _
    rw [← alike.switches name]
    exact same _ List.mem_cons_self ran
  | textureSample parameter texture kind coordinates =>
    cases coordinates with
    | none => exact ran
    | some operand =>
      unfold emitNode at ran ⊢
      obtain ⟨_, placed, ran⟩ := bind_eq_ok.mp ran
      exact bind_eq_ok.mpr ⟨_, same operand List.mem_cons_self placed, ran⟩
  | reroute next => cases ran
  | _ => exact ran

/-! ### Whole materials -/

theorem emit_congr (alike : left.Alike right) (agrees : left.Agrees right input)
    (ran : emit left fuel inProgress input progress = .ok (emitted, after)) :
    emit right fuel inProgress input progress = .ok (emitted, after) := by
  induction fuel generalizing inProgress input progress emitted after with
  | zero => cases ran
  | succ fuel inductionHypothesis =>
    obtain ⟨id, node, found, fresh, there, ran⟩ := emit_eq_ok.mp ran
    have there' := (agrees.here found).symm.trans there
    refine emit_eq_ok.mpr ⟨id, node, alike.graph.trace found, fresh, there', ?_⟩
    exact emitNode_congr alike (fun operand member {_ _} ran =>
      inductionHypothesis (agrees.below found there member) ran) ran

theorem emitOutputs_congr (alike : left.Alike right) {outputs : List (Attribute × NodeId)}
    {lines : String} (agrees : ∀ output ∈ outputs, left.Agrees right output.2)
    (ran : emitOutputs left outputs progress = .ok (lines, after)) :
    emitOutputs right outputs progress = .ok (lines, after) := by
  induction outputs generalizing progress lines after with
  | nil => exact ran
  | cons output rest inductionHypothesis =>
    unfold emitOutputs at ran ⊢
    rw [← alike.graph.size_eq]
    obtain ⟨⟨emitted, middle⟩, here, ran⟩ := bind_eq_ok.mp ran
    obtain ⟨⟨others, last⟩, there, ran⟩ := bind_eq_ok.mp ran
    refine bind_eq_ok.mpr ⟨_, emit_congr alike (agrees output List.mem_cons_self) here,
      bind_eq_ok.mpr ⟨(others, last), ?_, ran⟩⟩
    exact inductionHypothesis (fun other member => agrees other (List.mem_cons_of_mem _ member))
      there

end Lowering

end Shading
