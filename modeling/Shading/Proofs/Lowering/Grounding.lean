/-
Which graphs can be lowered. What a node needs is its inputs, a reroute being a
node with one input and a switch needing no more than the branch it selects.
Lowering succeeds just if everything that the attributes need in the end is
there, complete, and does not need itself. Nothing depends on the fuel.
-/

import Mathlib
import Shading.Proofs.Graph.Walking
import Shading.Proofs.Lowering.Reading

namespace Shading

instance : Finite NodeId :=
  Finite.of_injective (fun id => id.number.toFin) fun left right same => by
    cases left
    cases right
    exact congrArg NodeId.mk (UInt32.toFin_inj.mp same)

/-- A node that has all the inputs it must have. -/
def Node.Complete : Node → Prop
  | .reroute input => input.isSome
  | .math operation inputs => inputs.length = Lowering.arity operation
  | _ => True

namespace Lowering

variable {context : Context} {fuel : Nat} {inProgress : List NodeId} {id input : NodeId}
  {node : Node} {progress after : Progress} {emitted : Emitted}

namespace Context

/-- The inputs of a node, a reroute's among them. -/
def inputs (context : Context) : Node → List NodeId
  | .reroute input => input.toList
  | node => context.operands node

/-- A node needs the nodes that are its inputs. -/
def Needs (context : Context) (id input : NodeId) : Prop :=
  ∃ node, context.description.graph.node? id = some node ∧ input ∈ context.inputs node

/-- What a provided attribute needs in the end. -/
def Reached (context : Context) (id : NodeId) : Prop :=
  ∃ output ∈ context.description.graph.outputs,
    Relation.ReflTransGen context.Needs output.2 id

/-- Whatever the attributes need is a node of the graph; no reroute among them
is left open, operations have as many inputs as they take, and no node, be it a
reroute or not, needs itself. -/
structure WellFormed (context : Context) : Prop where
  there : ∀ {id}, context.Reached id → ∃ node, context.description.graph.node? id = some node
  connected : ∀ {id}, context.Reached id →
    context.description.graph.node? id ≠ some (.reroute none)
  supplied : ∀ {id operation inputs}, context.Reached id →
    context.description.graph.node? id = some (.math operation inputs) →
    inputs.length = arity operation
  acyclic : ∀ {id}, context.Reached id → ¬Relation.TransGen context.Needs id id

/-- A node that is complete, and so are all that it needs in the end. -/
inductive Grounded (context : Context) : NodeId → Prop where
  | intro {id : NodeId} {node : Node} (there : context.description.graph.node? id = some node)
      (complete : node.Complete) (inputs : ∀ input ∈ context.inputs node, Grounded context input) :
      Grounded context id

theorem Needs.of_passesOn (passes : context.description.graph.PassesOn id input) :
    context.Needs id input :=
  ⟨_, passes, List.mem_singleton_self input⟩

theorem needs_of_leads (leads : Relation.ReflTransGen context.description.graph.PassesOn id input) :
    Relation.ReflTransGen context.Needs id input :=
  Relation.ReflTransGen.mono (fun _ _ => Needs.of_passesOn) _ _ leads

theorem inputs_of_plain (plain : ∀ input, node ≠ .reroute input) :
    context.inputs node = context.operands node := by
  cases node with
  | reroute input => exact absurd rfl (plain input)
  | _ => rfl

/-! ### Grounded nodes -/

namespace Grounded

theorem there (grounded : context.Grounded id) :
    ∃ node, context.description.graph.node? id = some node ∧ node.Complete := by
  obtain ⟨there, complete, _⟩ := grounded
  exact ⟨_, there, complete⟩

theorem needed (grounded : context.Grounded id) (needs : context.Needs id input) :
    context.Grounded input := by
  obtain ⟨there, _, inputs⟩ := grounded
  obtain ⟨node, there', member⟩ := needs
  cases there.symm.trans there'
  exact inputs input member

theorem reached (grounded : context.Grounded input)
    (reach : Relation.ReflTransGen context.Needs input id) : context.Grounded id := by
  induction reach with
  | refl => exact grounded
  | tail _ needs inductionHypothesis => exact inductionHypothesis.needed needs

theorem acc (grounded : context.Grounded id) : Acc (Function.swap context.Needs) id := by
  induction grounded with
  | intro there _ _ inductionHypothesis =>
    refine ⟨_, fun input ⟨node, there', member⟩ => ?_⟩
    cases there.symm.trans there'
    exact inductionHypothesis input member

/-- A grounded node leads to a node that is no reroute. -/
theorem leads (grounded : context.Grounded input) :
    ∃ id, Relation.ReflTransGen context.description.graph.PassesOn input id ∧
      context.description.graph.Plain id := by
  induction grounded with
  | @intro id node there complete _ inductionHypothesis =>
    by_cases reroute : ∃ next, node = .reroute next
    · obtain ⟨next, rfl⟩ := reroute
      obtain ⟨next, rfl⟩ := Option.isSome_iff_exists.mp complete
      obtain ⟨last, leads, plain⟩ := inductionHypothesis next (List.mem_singleton_self next)
      exact ⟨last, .head there leads, plain⟩
    · exact ⟨id, .refl, node, there, fun next same => reroute ⟨next, same⟩⟩

/-- What passes on to a grounded node is grounded. -/
theorem of_leads (leads : Relation.ReflTransGen context.description.graph.PassesOn input id)
    (grounded : context.Grounded id) : context.Grounded input := by
  induction leads using Relation.ReflTransGen.head_induction_on with
  | refl => exact grounded
  | head passes _ inductionHypothesis =>
    refine ⟨passes, rfl, fun next member => ?_⟩
    cases List.mem_singleton.mp member
    exact inductionHypothesis

end Grounded

/-- Going from one node to what it needs ends in a well-formed graph, because there are only
finitely many nodes to go to and none is met twice. -/
theorem WellFormed.grounded (wellFormed : context.WellFormed) (reached : context.Reached id) :
    context.Grounded id := by
  let Below (later earlier : NodeId) : Prop :=
    context.Reached earlier ∧ Relation.TransGen context.Needs earlier later
  have : IsTrans NodeId Below :=
    ⟨fun _ _ _ ⟨_, second⟩ ⟨reached, first⟩ => ⟨reached, first.trans second⟩⟩
  have : Std.Irrefl Below := ⟨fun _ ⟨reached, cycle⟩ => wellFormed.acyclic reached cycle⟩
  induction id using (Finite.wellFounded_of_trans_of_irrefl Below).induction with
  | h id inductionHypothesis =>
    obtain ⟨node, there⟩ := wellFormed.there reached
    refine ⟨there, ?_, fun input member => ?_⟩
    · cases node with
      | reroute input =>
        cases input with
        | none => exact absurd there (wellFormed.connected reached)
        | some next => rfl
      | math operation inputs => exact wellFormed.supplied reached there
      | _ => trivial
    · have needs : context.Needs id input := ⟨node, there, member⟩
      obtain ⟨output, provided, path⟩ := reached
      exact inductionHypothesis input ⟨⟨output, provided, path⟩, .single needs⟩
        ⟨output, provided, path.tail needs⟩

/-- A graph is well formed just if every node that an attribute is connected to is grounded. -/
theorem wellFormed_iff : context.WellFormed ↔
    ∀ output ∈ context.description.graph.outputs, context.Grounded output.2 := by
  constructor
  · exact fun wellFormed output provided => wellFormed.grounded ⟨output, provided, .refl⟩
  · intro grounded
    have reached : ∀ {id}, context.Reached id → context.Grounded id :=
      fun ⟨output, provided, path⟩ => (grounded output provided).reached path
    refine ⟨fun reach => ?_, fun reach open_ => ?_, fun reach there => ?_, fun reach => ?_⟩
    · obtain ⟨node, there, _⟩ := (reached reach).there
      exact ⟨node, there⟩
    · obtain ⟨node, there, complete⟩ := (reached reach).there
      cases open_.symm.trans there
      cases complete
    · obtain ⟨node, there', complete⟩ := (reached reach).there
      cases there.symm.trans there'
      exact complete
    · exact not_transGen_self_of_acc (reached reach).acc

end Context

/-! ### What is emitted -/

theorem emitted_of_emitAll {emit : NodeId → Progress → Result} {inputs : List NodeId}
    {operands : List Emitted} (ran : emitAll emit inputs progress = .ok (operands, after))
    (member : input ∈ inputs) : ∃ progress result, emit input progress = .ok result := by
  induction inputs generalizing progress operands with
  | nil => cases member
  | cons first rest inductionHypothesis =>
    obtain ⟨⟨emitted, middle⟩, here, ran⟩ := bind_eq_ok.mp ran
    obtain ⟨⟨others, last⟩, there, ended⟩ := bind_eq_ok.mp ran
    cases ended
    rcases List.mem_cons.mp member with rfl | member
    · exact ⟨progress, _, here⟩
    · exact inductionHypothesis there member

/-- A node is emitted only if it is complete and its operands are emitted. -/
theorem emitted_of_emitNode {emit : NodeId → Progress → Result}
    (ran : emitNode context emit id node progress = .ok (emitted, after)) :
    node.Complete ∧ (∀ input, node ≠ .reroute input) ∧
      ∀ input ∈ context.operands node, ∃ progress result, emit input progress = .ok result := by
  cases node with
  | math operation inputs =>
    obtain ⟨complete, operands, all, _⟩ := emitNode_math.mp ran
    exact ⟨complete, fun _ => Node.noConfusion, fun input member => emitted_of_emitAll all member⟩
  | staticSwitch name default onTrue onFalse =>
    refine ⟨trivial, fun _ => Node.noConfusion, fun input member => ?_⟩
    cases List.mem_singleton.mp member
    exact ⟨progress, _, ran⟩
  | textureSample parameter texture kind coordinates =>
    refine ⟨trivial, fun _ => Node.noConfusion, fun input member => ?_⟩
    cases coordinates with
    | none => cases member
    | some operand =>
      cases List.mem_singleton.mp member
      obtain ⟨_, placed, _⟩ := bind_eq_ok.mp ran
      exact ⟨progress, _, placed⟩
  | reroute next => cases ran
  | _ => exact ⟨trivial, fun _ => Node.noConfusion, fun _ member => absurd member List.not_mem_nil⟩

theorem emitAll_succeeds {emit : NodeId → Progress → Result} {inputs : List NodeId}
    (progress : Progress)
    (each : ∀ input ∈ inputs, ∀ progress, ∃ result, emit input progress = .ok result) :
    ∃ result, emitAll emit inputs progress = .ok result := by
  induction inputs generalizing progress with
  | nil => exact ⟨_, rfl⟩
  | cons first rest inductionHypothesis =>
    obtain ⟨⟨emitted, middle⟩, here⟩ := each first List.mem_cons_self progress
    obtain ⟨⟨others, last⟩, there⟩ := inductionHypothesis middle
      fun input member => each input (List.mem_cons_of_mem first member)
    exact ⟨(emitted :: others, last), bind_eq_ok.mpr ⟨_, here, bind_eq_ok.mpr ⟨_, there, rfl⟩⟩⟩

/-- A complete node is emitted if its operands are. -/
theorem emitNode_succeeds {emit : NodeId → Progress → Result} (complete : node.Complete)
    (plain : ∀ input, node ≠ .reroute input)
    (each : ∀ input ∈ context.operands node, ∀ progress,
      ∃ result, emit input progress = .ok result) :
    ∃ result, emitNode context emit id node progress = .ok result := by
  cases node with
  | math operation inputs =>
    obtain ⟨⟨operands, after⟩, all⟩ := emitAll_succeeds progress each
    exact ⟨_, emitNode_math.mpr ⟨complete, operands, all, rfl⟩⟩
  | staticSwitch name default onTrue onFalse => exact each _ (List.mem_singleton_self _) progress
  | textureSample parameter texture kind coordinates =>
    cases coordinates with
    | none => exact ⟨_, rfl⟩
    | some operand =>
      obtain ⟨_, placed⟩ := each operand (List.mem_singleton_self operand) progress
      exact ⟨_, bind_eq_ok.mpr ⟨_, placed, rfl⟩⟩
  | reroute input => exact absurd rfl (plain input)
  | _ => exact ⟨_, rfl⟩

/-- Only what is grounded is emitted. -/
theorem grounded_of_emit
    (ran : emit context fuel inProgress input progress = .ok (emitted, after)) :
    context.Grounded input := by
  refine emit_induction (motive := fun input _ _ _ => context.Grounded input) ?_ ran
  intro input id node found there emit progress emitted after operands ran
  obtain ⟨complete, plain, each⟩ := emitted_of_emitNode ran
  refine .of_leads (Graph.trace_eq_found.mp found).1 ⟨there, complete, fun operand member => ?_⟩
  rw [Context.inputs_of_plain plain] at member
  obtain ⟨progress, ⟨emitted, after⟩, ran⟩ := each operand member
  exact operands operand member progress emitted after ran

/-- A grounded input is emitted, as long as it does not need what is in progress. There is
always fuel left, because what is in progress is nodes of the graph, each once. -/
theorem emit_of_grounded (progress : Progress) (grounded : context.Grounded input)
    (before : context.description.graph.Passed inProgress)
    (enough : context.description.graph.size < fuel + inProgress.length)
    (onwards : ∀ other ∈ inProgress, ¬Relation.ReflTransGen context.Needs input other) :
    ∃ result, emit context fuel inProgress input progress = .ok result := by
  induction fuel generalizing inProgress input progress with
  | zero => exact absurd rfl (before.fuel_ne_zero enough)
  | succ fuel inductionHypothesis =>
    obtain ⟨id, leads, plain⟩ := grounded.leads
    have path := Context.needs_of_leads leads
    have new : id ∉ inProgress := fun member => onwards id member path
    have grounded := grounded.reached path
    obtain ⟨node, there, complete⟩ := grounded.there
    have other : ∀ next, node ≠ .reroute next := by
      obtain ⟨_, there', other⟩ := plain
      cases there.symm.trans there'
      exact other
    have ran : ∃ result, emitNode context (emit context fuel (id :: inProgress)) id node progress =
        .ok result := by
      refine emitNode_succeeds complete other fun operand member progress => ?_
      have needs : context.Needs id operand := by
        refine ⟨node, there, ?_⟩
        rwa [Context.inputs_of_plain other]
      refine inductionHypothesis progress (grounded.needed needs) (before.cons new there) ?_
        fun passed member back => ?_
      · rw [List.length_cons]
        omega
      · rcases List.mem_cons.mp member with rfl | member
        · exact not_transGen_self_of_acc grounded.acc (.head' needs back)
        · exact onwards passed member (path.trans (.head needs back))
    obtain ⟨⟨emitted, after⟩, ran⟩ := ran
    exact ⟨_, emit_eq_ok.mpr
      ⟨id, node, Graph.trace_eq_found.mpr ⟨leads, plain⟩, new, there, ran⟩⟩

/-! ### The fuel -/

/-- More fuel changes nothing, whether emission succeeds or fails. -/
theorem emit_succ (before : context.description.graph.Passed inProgress)
    (enough : context.description.graph.size < fuel + inProgress.length) :
    emit context (fuel + 1) inProgress = emit context fuel inProgress := by
  induction fuel generalizing inProgress with
  | zero => exact absurd rfl (before.fuel_ne_zero enough)
  | succ fuel inductionHypothesis =>
    funext input progress
    rw [emit, emit]
    refine congrArg _ (funext fun id => ?_)
    split
    · rfl
    · rename_i new
      split
      · rename_i node there
        rw [inductionHypothesis (before.cons new there) (by rw [List.length_cons]; omega)]
      · rfl

theorem emit_add (more : Nat) :
    emit context (context.description.graph.size + 1 + more) [] =
      emit context (context.description.graph.size + 1) [] := by
  induction more with
  | zero => rfl
  | succ more inductionHypothesis =>
    have bound : context.description.graph.size < context.description.graph.size + 1 + more := by
      omega
    exact (emit_succ context.description.graph.passed_nil bound).trans inductionHypothesis

/-! ### Whole materials -/

/-- The attributes are written just if all they are connected to can be emitted. -/
theorem emitOutputs_succeeds {outputs : List (Attribute × NodeId)} (progress : Progress) :
    (∃ result, emitOutputs context outputs progress = .ok result) ↔
      ∀ output ∈ outputs, context.Grounded output.2 := by
  induction outputs generalizing progress with
  | nil => exact ⟨fun _ _ member => absurd member List.not_mem_nil, fun _ => ⟨_, rfl⟩⟩
  | cons output rest inductionHypothesis =>
    rw [List.forall_mem_cons]
    constructor
    · rintro ⟨result, ran⟩
      obtain ⟨⟨emitted, middle⟩, here, ran⟩ := bind_eq_ok.mp ran
      obtain ⟨⟨lines, last⟩, others, _⟩ := bind_eq_ok.mp ran
      exact ⟨grounded_of_emit here, (inductionHypothesis _).mp ⟨_, others⟩⟩
    · rintro ⟨grounded, others⟩
      obtain ⟨⟨emitted, middle⟩, here⟩ := emit_of_grounded progress grounded
        context.description.graph.passed_nil (Nat.lt_succ_self _)
        fun _ member => absurd member List.not_mem_nil
      obtain ⟨⟨lines, last⟩, ran⟩ := (inductionHypothesis
        ((place output.1 emitted middle).2.withFlags (attributeFlags output.1))).mpr others
      exact ⟨_, bind_eq_ok.mpr ⟨_, here, bind_eq_ok.mpr ⟨_, ran, rfl⟩⟩⟩

end Lowering

/-- Lowering always ends, since neither following reroutes nor emitting depends on the fuel once
there is more of it than nodes. It succeeds just if the graph is well formed as far as the
attributes need it. -/
theorem Description.lower_succeeds_iff (description : Description)
    (parameters : StaticParameters) (quality : Quality) (tier : Tier) :
    (∀ more id, description.graph.follow (description.graph.size + 1 + more) [] id =
      description.graph.trace id) ∧
    (∀ more, Lowering.emit ⟨description, parameters⟩ (description.graph.size + 1 + more) [] =
      Lowering.emit ⟨description, parameters⟩ (description.graph.size + 1) []) ∧
    ((∃ material, description.lower parameters quality tier = .ok material) ↔
      Lowering.Context.WellFormed ⟨description, parameters⟩) := by
  refine ⟨Graph.follow_add, Lowering.emit_add, ?_⟩
  rw [Lowering.Context.wellFormed_iff, ← Lowering.emitOutputs_succeeds {}]
  constructor
  · rintro ⟨material, lowered⟩
    obtain ⟨result, ran, _⟩ := bind_eq_ok.mp lowered
    exact ⟨result, ran⟩
  · rintro ⟨result, ran⟩
    exact ⟨_, bind_eq_ok.mpr ⟨result, ran, rfl⟩⟩

end Shading
