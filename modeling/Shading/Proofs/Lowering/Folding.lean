/-
Which inputs are folded to one uniform expression. It is those below which there
is nothing but constants, parameters and arithmetic, once reroutes have been
followed and switches have been set; and the expression is the tree that one
reads off the nodes. The vectors and scalars that have been placed in the buffer
are none of the business of emission.
-/

import Mathlib
import Shading.Proofs.Lowering.Gathering
import Shading.Proofs.Lowering.Reading

namespace Shading

/-- A node that may stand in a uniform expression. A switch is not part of one, but neither does
it prevent it: the branch that it selects decides. -/
def Node.Foldable : Node → Prop
  | .constant _ | .scalarParameter _ _ | .vectorParameter _ _ | .math _ _ => True
  | .staticSwitch _ _ _ _ => True
  | _ => False

namespace Lowering

variable {context : Context} {fuel : Nat} {inProgress : List NodeId} {input id other : NodeId}
  {node : Node} {progress after : Progress} {emitted : Emitted} {tree : UniformExpression}

namespace Context

/-- Following reroutes from an input leads to the given node. -/
def Means (context : Context) (input : NodeId) (node : Node) : Prop :=
  ∃ id, context.description.graph.trace input = .found id ∧
    context.description.graph.node? id = some node

/-- Everything that is looked at for an input may stand in a uniform expression. -/
def Folds (context : Context) (input : NodeId) : Prop :=
  ∀ id node, context.Reads input id → context.description.graph.node? id = some node →
    node.Foldable

/-- The tree that is read off the nodes below an input. -/
inductive Denotes (context : Context) : NodeId → UniformExpression → Prop where
  | constant {input : NodeId} {value : Vector4} (means : context.Means input (.constant value)) :
      Denotes context input (.constant value)
  | scalarParameter {input : NodeId} {name : String} {default : Binary32}
      (means : context.Means input (.scalarParameter name default)) :
      Denotes context input (.scalarParameter name default)
  | vectorParameter {input : NodeId} {name : String} {default : Vector4}
      (means : context.Means input (.vectorParameter name default)) :
      Denotes context input (.vectorParameter name default)
  | add {input left right : NodeId} {first second : UniformExpression}
      (means : context.Means input (.math .add [left, right]))
      (denotesLeft : Denotes context left first) (denotesRight : Denotes context right second) :
      Denotes context input (.add first second)
  | multiply {input left right : NodeId} {first second : UniformExpression}
      (means : context.Means input (.math .multiply [left, right]))
      (denotesLeft : Denotes context left first) (denotesRight : Denotes context right second) :
      Denotes context input (.multiply first second)
  | saturate {input operand : NodeId} {tree : UniformExpression}
      (means : context.Means input (.math .saturate [operand]))
      (denotes : Denotes context operand tree) : Denotes context input (.saturate tree)
  | staticSwitch {input onTrue onFalse : NodeId} {name : String} {default : Bool}
      {tree : UniformExpression}
      (means : context.Means input (.staticSwitch name default onTrue onFalse))
      (denotes : Denotes context
        (if (context.parameters.switch? name).getD default then onTrue else onFalse) tree) :
      Denotes context input tree

/-- A check of the specification: it names one node at most. -/
theorem Means.unique {another : Node} (means : context.Means input node)
    (also : context.Means input another) : node = another := by
  obtain ⟨id, found, there⟩ := means
  obtain ⟨id', found', there'⟩ := also
  cases found.symm.trans found'
  exact Option.some.inj (there.symm.trans there')

/-- A check of the specification: it leaves no choice of a tree. -/
theorem Denotes.unique {another : UniformExpression} (denotes : context.Denotes input tree)
    (also : context.Denotes input another) : tree = another := by
  induction denotes generalizing another with
  | constant means | scalarParameter means | vectorParameter means =>
    cases also with
    | staticSwitch means' => cases means.unique means'
    | _ means' => cases means.unique means' <;> rfl
  | add means _ _ inductionLeft inductionRight | multiply means _ _ inductionLeft inductionRight =>
    cases also with
    | add means' left right | multiply means' left right =>
      cases means.unique means'
      all_goals rw [inductionLeft left, inductionRight right]
    | _ means' => cases means.unique means'
  | saturate means _ inductionHypothesis =>
    cases also with
    | saturate means' denotes =>
      cases means.unique means'
      rw [inductionHypothesis denotes]
    | _ means' => cases means.unique means'
  | staticSwitch means _ inductionHypothesis =>
    cases also with
    | staticSwitch means' denotes =>
      cases means.unique means'
      exact inductionHypothesis denotes
    | _ means' => cases means.unique means'

theorem reads_iff (found : context.description.graph.trace input = .found id)
    (there : context.description.graph.node? id = some node) : context.Reads input other ↔
      other = id ∨ ∃ operand ∈ context.operands node, context.Reads operand other := by
  constructor
  · rintro (found' | ⟨found', there', member, reads⟩)
    · cases found.symm.trans found'
      exact .inl rfl
    · cases found.symm.trans found'
      cases there.symm.trans there'
      exact .inr ⟨_, member, reads⟩
  · rintro (rfl | ⟨operand, member, reads⟩)
    · exact .here found
    · exact .operand found there member reads

theorem folds_iff (means : context.Means input node) :
    context.Folds input ↔ node.Foldable ∧ ∀ operand ∈ context.operands node,
      context.Folds operand := by
  obtain ⟨id, found, there⟩ := means
  constructor
  · intro folds
    exact ⟨folds id node (.here found) there, fun operand member other another reads =>
      folds other another (.operand found there member reads)⟩
  · rintro ⟨foldable, operands⟩ other another reads there'
    rcases (reads_iff found there).mp reads with rfl | ⟨operand, member, reads⟩
    · cases there.symm.trans there'
      exact foldable
    · exact operands operand member other another reads there'

end Context

/-! ### What emission folds -/

/-- What was emitted carries an expression just if the input folds, and then the right one. -/
structure Reflects (context : Context) (input : NodeId) (emitted : Emitted) : Prop where
  denotes : ∀ {tree}, emitted.uniform = some tree → context.Denotes input tree
  folds : emitted.uniform.isSome ↔ context.Folds input

theorem reflects_leaf (means : context.Means input node) (foldable : node.Foldable)
    (leaf : context.operands node = []) (uniform : emitted.uniform = some tree)
    (denotes : context.Denotes input tree) : Reflects context input emitted where
  denotes other := by
    cases uniform.symm.trans other
    exact denotes
  folds := by
    rw [uniform, Context.folds_iff means, leaf]
    exact iff_of_true rfl ⟨foldable, fun _ member => absurd member List.not_mem_nil⟩

theorem reflects_code (means : context.Means input node) (other : ¬node.Foldable)
    (code : emitted.uniform = none) : Reflects context input emitted where
  denotes uniform := by
    rw [code] at uniform
    cases uniform
  folds := by
    rw [code, Context.folds_iff means]
    exact iff_of_false Bool.false_ne_true fun ⟨foldable, _⟩ => other foldable

theorem forall₂_of_emitAll {motive : NodeId → Emitted → Prop}
    {emit : NodeId → Progress → Result} {inputs : List NodeId} {operands : List Emitted}
    (each : ∀ operand ∈ inputs, ∀ progress emitted after,
      emit operand progress = .ok (emitted, after) → motive operand emitted)
    (ran : emitAll emit inputs progress = .ok (operands, after)) :
    List.Forall₂ motive inputs operands := by
  induction inputs generalizing progress operands with
  | nil =>
    cases ran
    exact .nil
  | cons first rest inductionHypothesis =>
    obtain ⟨⟨emitted, middle⟩, here, ran⟩ := bind_eq_ok.mp ran
    obtain ⟨⟨others, last⟩, there, ended⟩ := bind_eq_ok.mp ran
    cases ended
    exact .cons (each first List.mem_cons_self _ _ _ here)
      (inductionHypothesis (fun operand member => each operand (List.mem_cons_of_mem first member))
        there)

/-- An operation folds if its operands do. -/
theorem reflects_combine {operation : MathOperation} {inputs : List NodeId}
    {operands : List Emitted} (means : context.Means input (.math operation inputs))
    (complete : inputs.length = arity operation)
    (reflects : List.Forall₂ (Reflects context) inputs operands) :
    Reflects context input (combine operation operands) := by
  have folds := Context.folds_iff means
  cases operation with
  | add | multiply =>
    obtain ⟨left, right, rfl⟩ := List.length_eq_two.mp complete
    obtain _ | ⟨first, _ | ⟨second, _ | _⟩⟩ := reflects
    rename_i emittedLeft emittedRight
    have both : context.Folds input ↔ context.Folds left ∧ context.Folds right := by
      simpa [Node.Foldable, Context.operands] using folds
    rw [← first.folds, ← second.folds] at both
    refine ⟨fun uniform => ?_, ?_⟩
    · obtain ⟨a, uniformLeft, uniform⟩ := Option.bind_eq_some_iff.mp uniform
      obtain ⟨b, uniformRight, uniform⟩ := Option.bind_eq_some_iff.mp uniform
      cases uniform
      constructor
      · exact means
      · exact first.denotes uniformLeft
      · exact second.denotes uniformRight
    · rw [both]
      unfold combine
      dsimp only
      cases emittedLeft.uniform <;> cases emittedRight.uniform <;> simp
  | saturate =>
    obtain ⟨operand, rfl⟩ := List.length_eq_one_iff.mp complete
    obtain _ | ⟨only, _ | _⟩ := reflects
    have same : context.Folds input ↔ context.Folds operand := by
      simpa [Node.Foldable, Context.operands] using folds
    refine ⟨fun uniform => ?_, ?_⟩
    · obtain ⟨tree, uniform', equal⟩ := Option.map_eq_some_iff.mp uniform
      cases equal
      exact .saturate means (only.denotes uniform')
    · rw [same, ← only.folds]
      exact Bool.eq_iff_iff.mp Option.isSome_map

theorem uniform_emitSample (expression : TextureExpression) (coordinates : Option NodeId)
    (place : String) (progress : Progress) :
    (emitSample expression coordinates place progress).1.uniform = none := by
  unfold emitSample
  dsimp only
  split <;> rfl

theorem emit_reflects
    (ran : emit context fuel inProgress input progress = .ok (emitted, after)) :
    Reflects context input emitted := by
  refine emit_induction (motive := fun input _ emitted _ => Reflects context input emitted) ?_ ran
  intro input id node found there emit progress emitted after each ran
  have means : context.Means input node := ⟨id, found, there⟩
  cases node with
  | constant value =>
    cases ran
    exact reflects_leaf means trivial rfl rfl (.constant means)
  | scalarParameter name default =>
    cases ran
    exact reflects_leaf means trivial rfl rfl (.scalarParameter means)
  | vectorParameter name default =>
    cases ran
    exact reflects_leaf means trivial rfl rfl (.vectorParameter means)
  | math operation inputs =>
    obtain ⟨complete, operands, all, rfl⟩ := emitNode_math.mp ran
    exact reflects_combine means complete (forall₂_of_emitAll each all)
  | staticSwitch name default onTrue onFalse =>
    have selected := each _ (List.mem_singleton_self _) progress emitted after ran
    refine ⟨fun uniform => .staticSwitch means (selected.denotes uniform), ?_⟩
    rw [selected.folds, Context.folds_iff means]
    simp [Node.Foldable, Context.operands]
  | textureSample parameter texture kind coordinates =>
    refine reflects_code means not_false ?_
    cases coordinates with
    | none =>
      have sampled := uniform_emitSample ⟨parameter, texture, kind⟩ none "TexCoord0" progress
      rwa [Except.ok.inj ran] at sampled
    | some operand =>
      obtain ⟨⟨place, middle⟩, _, ran⟩ := bind_eq_ok.mp ran
      have sampled := uniform_emitSample ⟨parameter, texture, kind⟩ (some operand) place.code middle
      rwa [Except.ok.inj ran] at sampled
  | reroute next => cases ran
  | _ =>
    cases ran
    exact reflects_code means not_false rfl

/-! ### What emission leaves alone -/

namespace Progress

/-- The expressions that have been given a place in the buffer. -/
def uniforms (progress : Progress) : Bool → List UniformExpression :=
  progress.profile.expressions.uniforms

theorem uniforms_addTexture (progress : Progress) (expression : TextureExpression) :
    (progress.addTexture expression).2.uniforms = progress.uniforms := by
  obtain ⟨_, _, kind⟩ := expression
  cases kind <;> rfl

theorem uniforms_addStreamingLayer (progress : Progress) (coordinates : Option NodeId)
    (number : UInt32) :
    (progress.addStreamingLayer coordinates number).2.uniforms = progress.uniforms := by
  unfold addStreamingLayer
  repeat' split
  all_goals rfl

theorem uniforms_addPreallocated (progress : Progress) (number : UInt32) :
    (progress.addPreallocated number).2.uniforms = progress.uniforms := by
  unfold addPreallocated
  split <;> rfl

end Progress

theorem uniforms_emitSample (expression : TextureExpression) (coordinates : Option NodeId)
    (place : String) (progress : Progress) :
    (emitSample expression coordinates place progress).2.uniforms = progress.uniforms := by
  have added := progress.countSample.uniforms_addTexture expression
  unfold emitSample
  dsimp only
  split
  · exact (Progress.uniforms_addStreamingLayer _ _ _).trans added
  · exact added

theorem uniforms_emitAll {emit : NodeId → Progress → Result} {inputs : List NodeId}
    {operands : List Emitted}
    (each : ∀ operand ∈ inputs, ∀ progress emitted after,
      emit operand progress = .ok (emitted, after) → after.uniforms = progress.uniforms)
    (ran : emitAll emit inputs progress = .ok (operands, after)) :
    after.uniforms = progress.uniforms := by
  induction inputs generalizing progress operands with
  | nil =>
    cases ran
    rfl
  | cons first rest inductionHypothesis =>
    obtain ⟨⟨emitted, middle⟩, here, ran⟩ := bind_eq_ok.mp ran
    obtain ⟨⟨others, last⟩, there, ended⟩ := bind_eq_ok.mp ran
    cases ended
    exact (inductionHypothesis
      (fun operand member => each operand (List.mem_cons_of_mem first member)) there).trans
        (each first List.mem_cons_self _ _ _ here)

theorem uniforms_emit
    (ran : emit context fuel inProgress input progress = .ok (emitted, after)) :
    after.uniforms = progress.uniforms := by
  refine emit_induction (motive := fun _ progress _ after => after.uniforms = progress.uniforms)
    ?_ ran
  intro input id node _ _ emit progress emitted after each ran
  cases node with
  | math operation inputs =>
    obtain ⟨_, operands, all, _⟩ := emitNode_math.mp ran
    exact uniforms_emitAll each all
  | staticSwitch name default onTrue onFalse =>
    exact each _ (List.mem_singleton_self _) progress emitted after ran
  | textureSample parameter texture kind coordinates =>
    cases coordinates with
    | none =>
      have sampled := uniforms_emitSample ⟨parameter, texture, kind⟩ none "TexCoord0" progress
      rwa [Except.ok.inj ran] at sampled
    | some operand =>
      obtain ⟨⟨place, middle⟩, placed, ran⟩ := bind_eq_ok.mp ran
      have sampled := uniforms_emitSample ⟨parameter, texture, kind⟩ (some operand) place.code middle
      rw [Except.ok.inj ran] at sampled
      exact sampled.trans (each operand (List.mem_singleton_self operand) _ _ _ placed)
  | runtimeTexture parameter texture =>
    cases ran
    exact (Progress.uniforms_addPreallocated _ _).trans (progress.uniforms_addTexture _)
  | reroute next => cases ran
  | _ =>
    cases ran
    rfl

end Lowering

end Shading
