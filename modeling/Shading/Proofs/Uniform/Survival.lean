/-
Which uniform expressions survive their JSON form. A number that is not finite
has no form of its own, so an expression comes back exactly if all its numbers
are finite, and a set of expressions exactly if all of them come back. Nothing
else in a set is ever lost.
-/

import Shading.Proofs.Json.Carrying
import Shading.Uniform.ExpressionSet

namespace Shading

open Json (Carries)

/-! ### Records of the library -/

theorem TextureKind.carries (kind : TextureKind) : Carries decode kind.encode kind True :=
  .named (by cases kind <;> rfl)

theorem StreamingStack.carries (stack : StreamingStack) :
    Carries decode stack.encode stack True := by
  have layers : Carries (Json.asList Json.asWord)
      (.array (stack.layers.map fun layer => .natural layer.toNat)) stack.layers True :=
    (Carries.list fun layer _ => .word layer).congr ⟨fun _ => trivial, fun _ _ _ => trivial⟩
  have preallocated : Carries (Json.asOption Json.asWord)
      (.option (stack.preallocated.map fun layer => .natural layer.toNat)) stack.preallocated True :=
    .option (fun layer _ => .word layer) fun _ => Json.noConfusion
  refine .record rfl (by decide) ?_ (fun _ levels fits => ?_) fun dead => absurd trivial dead
  · simp only [List.forall_mem_cons]
    exact ⟨layers.readable, preallocated.readable, fun _ member => absurd member List.not_mem_nil⟩
  · rw [layers.required trivial fits rfl, preallocated.optional fits rfl]
    rfl

theorem TextureExpression.carries (expression : TextureExpression) :
    Carries decode expression.encode expression True := by
  have parameter : Carries (Json.asOption Json.asText)
      (.option (expression.parameter.map .text)) expression.parameter True :=
    .option (fun name _ => .text name) fun _ => Json.noConfusion
  have default := Carries.word expression.default.number
  have kind := expression.kind.carries
  refine .record rfl (by decide) ?_ (fun _ levels fits => ?_) fun dead => absurd trivial dead
  · simp only [List.forall_mem_cons]
    exact ⟨parameter.readable, default.readable, kind.readable,
      fun _ member => absurd member List.not_mem_nil⟩
  · rw [parameter.optional fits rfl, default.required trivial fits rfl,
      kind.required trivial fits rfl]
    rfl

/-! ### Vectors -/

theorem Vector4.carries {vector : Vector4}
    (returns : ∀ number ∈ vector.toList, number.isFinite → number.Returns) :
    Carries decode vector.encode vector (∀ number ∈ vector.toList, number.isFinite) := by
  have numbers : Carries (Json.asList Json.asSingle) vector.encode vector.toList _ :=
    .list fun number member => .single (returns number member)
  refine ⟨numbers.readable, fun alive levels fits => ?_, fun dead depth => ?_⟩
  · rw [decode, numbers.restores alive levels fits]
    rfl
  · rw [decode, numbers.refuses dead depth]
    rfl

/-! ### Expressions -/

namespace UniformExpression

/-- The numbers in an expression. -/
def numbers : UniformExpression → List Binary32
  | .constant value => value.toList
  | .scalarParameter _ default => [default]
  | .vectorParameter _ default => default.toList
  | .add left right | .multiply left right => left.numbers ++ right.numbers
  | .saturate operand => operand.numbers

theorem decode_leaf {name : String} (leaf : name ∉ ["Add", "Multiply", "Saturate"])
    (depth : Json.Depth) (content : Json) :
    decode depth (.record [(name, content)]) =
      depth.enter.bind fun depth => decodeLeaf name depth content := by
  show decode depth (.object [(some name, content)]) = _
  simp only [List.mem_cons, List.not_mem_nil, or_false, not_or] at leaf
  rw [decode]
  · rfl
  · exact fun _ _ _ same => leaf.1 same
  · exact fun _ _ _ same => leaf.2.1 same
  · exact leaf.2.2

theorem carries_leaf {name : String} {content : Json} {expression : UniformExpression}
    {survives : Prop} (leaf : name ∉ ["Add", "Multiply", "Saturate"])
    (carries : Carries (decodeLeaf name) content expression survives) :
    Carries decode (.record [(name, content)]) expression survives where
  readable := Json.readable_record (List.forall_mem_singleton.mpr carries.readable)
  restores alive levels fits := by
    obtain ⟨levels, rfl⟩ := Json.exists_levels fits (Nat.succ_pos _)
    rw [decode_leaf leaf]
    exact carries.restores alive levels
      (Json.nesting_le_of_member fits _ (List.mem_singleton.mpr rfl))
  refuses dead depth := by
    rw [decode_leaf leaf]
    cases depth.enter with
    | none => rfl
    | some depth => exact carries.refuses dead depth

theorem carries_parameter {α : Type} {decoder : Json.Decoder α} {default : Json} {value : α}
    {survives : Prop} (name : String) (make : String → α → UniformExpression)
    (carries : Carries decoder default value survives) :
    Carries (fun depth content => do
        let fields ← Json.asCaseFields parameterFields depth content
        some (make (← fields.required "name" Json.asText) (← fields.required "default" decoder)))
      (.record [("name", .text name), ("default", default)]) (make name value) survives := by
  have fields : Carries (fun depth content =>
      (Json.asFields parameterFields false depth content).bind fun fields => do
        some (make (← fields.required "name" Json.asText) (← fields.required "default" decoder)))
      (.record [("name", .text name), ("default", default)]) (make name value) survives := by
    refine .record rfl (by decide) ?_ (fun alive levels fits => ?_) fun dead depth => ?_
    · simp only [List.forall_mem_cons]
      exact ⟨rfl, carries.readable, fun _ member => absurd member List.not_mem_nil⟩
    · rw [(Carries.text name).required trivial fits rfl, carries.required alive fits rfl]
      rfl
    · rw [carries.required_none dead depth rfl]
      rfl
  refine fields.of_eq fun depth => ?_
  cases depth <;> rfl

/-- An operation opens a level for itself and one for its operands. -/
theorem carries_operation {name : String} {left right : UniformExpression}
    {make : UniformExpression → UniformExpression → UniformExpression}
    {survivesLeft survivesRight : Prop} (operation : ∀ depth left right,
      decode depth (.record [(name, .array [left, right])]) =
        depth.enter.bind fun depth => depth.enter.bind fun depth =>
          (decode depth left).bind fun left => (decode depth right).bind fun right => some (make left right))
    (carriesLeft : Carries decode left.encode left survivesLeft)
    (carriesRight : Carries decode right.encode right survivesRight) :
    Carries decode (.record [(name, .array [left.encode, right.encode])]) (make left right)
      (survivesLeft ∧ survivesRight) where
  readable := by
    refine Json.readable_record (List.forall_mem_singleton.mpr (Json.readable_array ?_))
    simp only [List.forall_mem_cons]
    exact ⟨carriesLeft.readable, carriesRight.readable,
      fun _ member => absurd member List.not_mem_nil⟩
  restores alive levels fits := by
    obtain ⟨levels, rfl⟩ := Json.exists_levels fits (Nat.succ_pos _)
    have operands := Json.nesting_le_of_member fits _ (List.mem_singleton.mpr rfl)
    obtain ⟨levels, rfl⟩ := Json.exists_levels operands (Nat.succ_pos _)
    have inside := Json.nesting_le_of_item operands
    simp only [List.forall_mem_cons] at inside
    rw [operation]
    show ((decode (some levels) left.encode).bind fun left =>
      (decode (some levels) right.encode).bind fun right => some (make left right)) = _
    rw [carriesLeft.restores alive.1 levels inside.1,
      carriesRight.restores alive.2 levels inside.2.1]
    rfl
  refuses dead depth := by
    rw [operation]
    cases depth.enter with
    | none => rfl
    | some depth =>
      show (depth.enter.bind fun depth => _) = none
      cases depth.enter with
      | none => rfl
      | some depth =>
        show ((decode depth left.encode).bind fun left =>
          (decode depth right.encode).bind fun right => some (make left right)) = none
        by_cases alive : survivesLeft
        · rw [carriesRight.refuses (fun other => dead ⟨alive, other⟩) depth]
          cases decode depth left.encode <;> rfl
        · rw [carriesLeft.refuses alive depth]
          rfl

theorem decode_add (depth : Json.Depth) (left right : Json) :
    decode depth (.record [("Add", .array [left, right])]) =
      depth.enter.bind fun depth => depth.enter.bind fun depth =>
        (decode depth left).bind fun left => (decode depth right).bind fun right =>
          some (.add left right) := by
  show decode depth (.object [(some "Add", .array [left, right])]) = _
  rw [decode]
  rfl

theorem decode_multiply (depth : Json.Depth) (left right : Json) :
    decode depth (.record [("Multiply", .array [left, right])]) =
      depth.enter.bind fun depth => depth.enter.bind fun depth =>
        (decode depth left).bind fun left => (decode depth right).bind fun right =>
          some (.multiply left right) := by
  show decode depth (.object [(some "Multiply", .array [left, right])]) = _
  rw [decode]
  rfl

theorem decode_saturate (depth : Json.Depth) (operand : Json) :
    decode depth (.record [("Saturate", operand)]) =
      depth.enter.bind fun depth => (decode depth operand).bind fun operand =>
        some (.saturate operand) := by
  show decode depth (.object [(some "Saturate", operand)]) = _
  rw [decode]
  rfl

/-- An expression comes back if all its numbers are finite, and only then. -/
theorem carries {expression : UniformExpression}
    (returns : ∀ number ∈ expression.numbers, number.isFinite → number.Returns) :
    Carries decode expression.encode expression
      (∀ number ∈ expression.numbers, number.isFinite) := by
  induction expression with
  | constant value =>
    have carried := (Vector4.carries returns).map UniformExpression.constant
    exact carries_leaf (by decide) (carried.of_eq fun depth => by rw [decodeLeaf])
  | scalarParameter name default =>
    have carried := carries_parameter name .scalarParameter
      (.single (List.forall_mem_singleton.mp returns))
    have alone : default.isFinite ↔ ∀ number ∈ [default], number.isFinite := by
      rw [List.forall_mem_singleton]
    exact (carries_leaf (by decide) (carried.of_eq fun depth => by rw [decodeLeaf])).congr alone
  | vectorParameter name default =>
    have carried := carries_parameter name .vectorParameter (Vector4.carries returns)
    exact carries_leaf (by decide) (carried.of_eq fun depth => by rw [decodeLeaf])
  | add left right inductionLeft inductionRight =>
    obtain ⟨returnsLeft, returnsRight⟩ := List.forall_mem_append.mp returns
    exact (carries_operation decode_add (inductionLeft returnsLeft)
      (inductionRight returnsRight)).congr List.forall_mem_append.symm
  | multiply left right inductionLeft inductionRight =>
    obtain ⟨returnsLeft, returnsRight⟩ := List.forall_mem_append.mp returns
    exact (carries_operation decode_multiply (inductionLeft returnsLeft)
      (inductionRight returnsRight)).congr List.forall_mem_append.symm
  | saturate operand inductionHypothesis =>
    have carried := inductionHypothesis returns
    refine ⟨Json.readable_record (List.forall_mem_singleton.mpr carried.readable),
      fun alive levels fits => ?_, fun dead depth => ?_⟩
    · obtain ⟨levels, rfl⟩ := Json.exists_levels fits (Nat.succ_pos _)
      have inside := Json.nesting_le_of_member fits _ (List.mem_singleton.mpr rfl)
      rw [encode, decode_saturate]
      show ((decode (some levels) operand.encode).bind fun operand => some (saturate operand)) = _
      rw [carried.restores alive levels inside]
      rfl
    · rw [encode, decode_saturate]
      cases depth.enter with
      | none => rfl
      | some depth =>
        show ((decode depth operand.encode).bind fun operand => some (saturate operand)) = _
        rw [carried.refuses dead depth]
        rfl

end UniformExpression

/-! ### Sets of expressions -/

namespace ExpressionSet

/-- The numbers in the expressions of a set. -/
def numbers (set : ExpressionSet) : List Binary32 :=
  (set.vectors ++ set.scalars).flatMap UniformExpression.numbers

theorem forall_mem_numbers {set : ExpressionSet} {holds : Binary32 → Prop} :
    (∀ number ∈ set.numbers, holds number) ↔
      (∀ expression ∈ set.vectors, ∀ number ∈ expression.numbers, holds number) ∧
        ∀ expression ∈ set.scalars, ∀ number ∈ expression.numbers, holds number := by
  rw [numbers, ← List.forall_mem_append]
  simp only [List.mem_flatMap, forall_exists_index, and_imp]
  exact ⟨fun all expression member number inside => all number expression member inside,
    fun all number expression member inside => all expression member number inside⟩

theorem carries_external (external : UInt64) :
    Carries decodeExternal (.record [("external_id", .natural external.toNat)]) external True := by
  have number := Carries.longWord external
  refine .record rfl (by decide) (List.forall_mem_singleton.mpr number.readable)
    (fun _ levels fits => ?_) fun dead => absurd trivial dead
  exact number.required trivial fits rfl

/-- A set comes back if all numbers in its expressions are finite, and only then. -/
theorem carries {set : ExpressionSet}
    (returns : ∀ number ∈ set.numbers, number.isFinite → number.Returns) :
    Carries decode set.encode set (∀ number ∈ set.numbers, number.isFinite) := by
  obtain ⟨returnsVectors, returnsScalars⟩ := forall_mem_numbers.mp returns
  have vectors : Carries (Json.asList UniformExpression.decode)
      (.array (set.vectors.map UniformExpression.encode)) set.vectors _ :=
    .list fun expression member => UniformExpression.carries (returnsVectors expression member)
  have scalars : Carries (Json.asList UniformExpression.decode)
      (.array (set.scalars.map UniformExpression.encode)) set.scalars _ :=
    .list fun expression member => UniformExpression.carries (returnsScalars expression member)
  have flat := Carries.all set.flatTextures TextureExpression.carries
  have cube := Carries.all set.cubeTextures TextureExpression.carries
  have volume := Carries.all set.volumeTextures TextureExpression.carries
  have streaming := Carries.all set.streamingTextures TextureExpression.carries
  have external := Carries.all set.externalTextures carries_external
  have stacked := Carries.all set.streamingStacks StreamingStack.carries
  have collections := Carries.all set.collections Carries.longWord
  refine Carries.congr ?_ forall_mem_numbers.symm
  refine .record rfl (by decide) ?_ (fun alive levels fits => ?_) fun dead depth => ?_
  · simp only [List.forall_mem_cons]
    exact ⟨vectors.readable, scalars.readable, flat.readable, cube.readable, volume.readable,
      streaming.readable, external.readable, stacked.readable, collections.readable,
      fun _ member => absurd member List.not_mem_nil⟩
  · dsimp only
    rw [vectors.required alive.1 fits rfl, scalars.required alive.2 fits rfl,
      flat.required trivial fits rfl, cube.required trivial fits rfl,
      volume.required trivial fits rfl, streaming.required trivial fits rfl,
      external.required trivial fits rfl, stacked.required trivial fits rfl,
      collections.required trivial fits rfl]
    rfl
  · dsimp only
    by_cases alive : ∀ expression ∈ set.vectors, ∀ number ∈ expression.numbers, number.isFinite
    · refine Option.bind_eq_none_iff.mpr fun found _ => ?_
      rw [scalars.required_none (fun other => dead ⟨alive, other⟩) depth rfl]
      rfl
    · rw [vectors.required_none alive depth rfl]
      rfl

end ExpressionSet

end Shading
