/-
What is written for a material, told from its end. While nodes are emitted, the
code refers to entries by their positions, and the lists of entries are still
growing. Here the code of each input is described by the graph and by the
entries that there are when all is done; so every reference in the source, those
to the layers of streaming stacks above all, names the right entry in the end.
-/

import Mathlib
import Shading.Proofs.Lowering.Folding
import Shading.Proofs.Lowering.Stacking

namespace Shading

namespace Lowering

variable {context : Context} {met : NodeId → Prop} {fuel : Nat} {inProgress : List NodeId}
  {input : NodeId} {node : Node} {progress after : Progress} {emitted : Emitted}
  {gathered final : Gathered}

/-! ### The code of an input -/

/-- The nodes that are looked at for some attribute. -/
def Context.ReadsAny (context : Context) (id : NodeId) : Prop :=
  ∃ output ∈ context.description.graph.outputs, context.Reads output.2 id

/-- The code that is written for an input, or where no input is connected, with the entries that
its references name. -/
inductive Written (context : Context) (gathered : Gathered) : Option NodeId → String → Prop where
  | standard : Written context gathered none "TexCoord0"
  | constant {input : NodeId} {value : Vector4} (means : context.Means input (.constant value)) :
      Written context gathered (some input) (vectorText value)
  | scalarParameter {input : NodeId} {name : String} {default : Binary32}
      (means : context.Means input (.scalarParameter name default)) :
      Written context gathered (some input) ("Param(" ++ name ++ ")")
  | vectorParameter {input : NodeId} {name : String} {default : Vector4}
      (means : context.Means input (.vectorParameter name default)) :
      Written context gathered (some input) ("Param(" ++ name ++ ")")
  | add {input left right : NodeId} {first second : String}
      (means : context.Means input (.math .add [left, right]))
      (writesLeft : Written context gathered (some left) first)
      (writesRight : Written context gathered (some right) second) :
      Written context gathered (some input) ("(" ++ first ++ " + " ++ second ++ ")")
  | multiply {input left right : NodeId} {first second : String}
      (means : context.Means input (.math .multiply [left, right]))
      (writesLeft : Written context gathered (some left) first)
      (writesRight : Written context gathered (some right) second) :
      Written context gathered (some input) ("(" ++ first ++ " * " ++ second ++ ")")
  | saturate {input operand : NodeId} {code : String}
      (means : context.Means input (.math .saturate [operand]))
      (writes : Written context gathered (some operand) code) :
      Written context gathered (some input) ("saturate(" ++ code ++ ")")
  | staticSwitch {input onTrue onFalse : NodeId} {name code : String} {default : Bool}
      (means : context.Means input (.staticSwitch name default onTrue onFalse))
      (writes : Written context gathered
        (some (if (context.parameters.switch? name).getD default then onTrue else onFalse)) code) :
      Written context gathered (some input) code
  | textureSample {input : NodeId} {parameter : Option String} {texture : TextureId}
      {kind : TextureKind} {coordinates : Option NodeId} {position : Nat} {place : String}
      (means : context.Means input (.textureSample parameter texture kind coordinates))
      (other : kind ≠ .streaming)
      (writes : Written context gathered coordinates place)
      (entry : (gathered.entries.textures kind)[position]? = some ⟨parameter, texture, kind⟩) :
      Written context gathered (some input)
        ("Sample" ++ kind.name ++ "(Textures[" ++ toString position ++ "], " ++ place ++ ")")
  | streamingSample {input : NodeId} {parameter : Option String} {texture : TextureId}
      {coordinates : Option NodeId} {stack layer : Nat} {place : String}
      (means : context.Means input (.textureSample parameter texture .streaming coordinates))
      (writes : Written context gathered coordinates place)
      (holds : gathered.Holds coordinates ⟨parameter, texture, .streaming⟩ stack layer) :
      Written context gathered (some input)
        ("SampleStack(Stack[" ++ toString stack ++ "], " ++ toString layer ++ ", " ++ place ++ ")")
  | runtimeTexture {input : NodeId} {parameter : Option String} {texture : TextureId} {stack : Nat}
      (means : context.Means input (.runtimeTexture parameter texture))
      (holds : gathered.HoldsAlone ⟨parameter, texture, .streaming⟩ stack) :
      Written context gathered (some input)
        ("SampleStack(Stack[" ++ toString stack ++ "], 0, WorldUV)")
  | externalTexture {input : NodeId} {external : UInt64} {position : Nat}
      (means : context.Means input (.externalTexture external))
      (entry : gathered.entries.externalTextures[position]? = some external) :
      Written context gathered (some input) ("SampleExternal(External[" ++ toString position ++ "])")
  | collectionParameter {input : NodeId} {collection : UInt64} {name : String} {position : Nat}
      (means : context.Means input (.collectionParameter collection name))
      (entry : gathered.entries.collections[position]? = some collection) :
      Written context gathered (some input)
        ("Collection[" ++ toString position ++ "]." ++ name)
  | textureCoordinates {input : NodeId} {index : UInt32}
      (means : context.Means input (.textureCoordinates index)) :
      Written context gathered (some input) ("TexCoord" ++ toString index.toNat)
  | sceneDepth {input : NodeId} (means : context.Means input .sceneDepth) :
      Written context gathered (some input) "SceneDepth()"
  | eyeAdaptation {input : NodeId} (means : context.Means input .eyeAdaptation) :
      Written context gathered (some input) "EyeAdaptation()"
  | distanceCullFade {input : NodeId} (means : context.Means input .distanceCullFade) :
      Written context gathered (some input) "DistanceCullFade()"

/-! ### Emission -/

/-- The operands of a node are emitted one after the other, and what was written for the first
ones stays right. -/
theorem emitAll_gathers {emit : NodeId → Progress → Result} {inputs : List NodeId}
    {operands : List Emitted}
    (each : ∀ operand ∈ inputs, ∀ progress emitted after,
      emit operand progress = .ok (emitted, after) →
        Gathers context.description.graph met progress after
          fun final => Written context final (some operand) emitted.code)
    (ran : emitAll emit inputs progress = .ok (operands, after)) :
    Gathers context.description.graph met progress after fun final =>
      List.Forall₂ (fun input operand => Written context final (some input) operand.code)
        inputs operands := by
  induction inputs generalizing progress operands with
  | nil =>
    cases ran
    exact (Gathers.refl after).imp fun _ _ => .nil
  | cons first rest inductionHypothesis =>
    obtain ⟨⟨emitted, middle⟩, here, ran⟩ := bind_eq_ok.mp ran
    obtain ⟨⟨others, last⟩, there, ended⟩ := bind_eq_ok.mp ran
    cases ended
    have others := inductionHypothesis
      (fun operand member => each operand (List.mem_cons_of_mem first member)) there
    refine ((each first List.mem_cons_self _ _ _ here).andThen fun _ => others).imp ?_
    exact fun final ⟨written, rest⟩ => .cons written rest

theorem combine_written {operation : MathOperation} {inputs : List NodeId}
    {operands : List Emitted} (means : context.Means input (.math operation inputs))
    (complete : inputs.length = arity operation)
    (written : List.Forall₂ (fun input operand => Written context final (some input) operand.code)
      inputs operands) :
    Written context final (some input) (combine operation operands).code := by
  cases operation with
  | add =>
    obtain ⟨left, right, rfl⟩ := List.length_eq_two.mp complete
    obtain _ | ⟨first, _ | ⟨second, _ | _⟩⟩ := written
    exact .add means first second
  | multiply =>
    obtain ⟨left, right, rfl⟩ := List.length_eq_two.mp complete
    obtain _ | ⟨first, _ | ⟨second, _ | _⟩⟩ := written
    exact .multiply means first second
  | saturate =>
    obtain ⟨operand, rfl⟩ := List.length_eq_one_iff.mp complete
    obtain _ | ⟨code, _ | _⟩ := written
    exact .saturate means code

theorem emitSample_other {parameter : Option String} {texture : TextureId} {kind : TextureKind}
    {coordinates : Option NodeId} {place : String} (other : kind ≠ .streaming) :
    emitSample ⟨parameter, texture, kind⟩ coordinates place progress =
      ({ code := "Sample" ++ kind.name ++ "(Textures[" ++
          toString (progress.countSample.addTexture ⟨parameter, texture, kind⟩).1 ++ "], " ++
          place ++ ")" },
        (progress.countSample.addTexture ⟨parameter, texture, kind⟩).2) :=
  if_neg other

/-- A sample is written once its coordinates are, and its texture then stands at the place that
is written. -/
theorem emitSample_gathers {parameter : Option String} {texture : TextureId} {kind : TextureKind}
    {coordinates : Option NodeId} {id : NodeId} (place : String) (progress : Progress)
    (found : context.description.graph.trace input = .found id)
    (there : context.description.graph.node? id =
      some (.textureSample parameter texture kind coordinates)) (known : met id) :
    Gathers context.description.graph met progress
      (emitSample ⟨parameter, texture, kind⟩ coordinates place progress).2 fun final =>
        Written context final coordinates place → Written context final (some input)
          (emitSample ⟨parameter, texture, kind⟩ coordinates place progress).1.code := by
  have origin : kind = .streaming → ∃ id node, context.description.graph.node? id = some node ∧
      node.streamed? = some ⟨parameter, texture, kind⟩ := by
    rintro rfl
    exact ⟨id, _, there, rfl⟩
  have added : Gathers context.description.graph met progress
      (progress.countSample.addTexture ⟨parameter, texture, kind⟩).2 _ :=
    (Gathers.countSample progress).andThen fun _ => Gathers.addTexture _ origin
  by_cases streaming : kind = .streaming
  · subst streaming
    refine (added.andThen fun ⟨_, _, _, entry⟩ => (Gathers.withFlags _ _).andThen fun _ =>
      Gathers.addStreamingLayer (entry rfl) ⟨id, parameter, texture, known, there, rfl⟩).imp ?_
    exact fun final ⟨_, _, holds⟩ writes => .streamingSample ⟨id, found, there⟩ writes holds
  · rw [emitSample_other streaming]
    refine added.imp fun final ⟨_, entry, _⟩ writes => ?_
    exact .textureSample ⟨id, found, there⟩ streaming writes entry

/-- One node is written, once its operands can be. -/
theorem emitNode_gathers {id : NodeId} {emit : NodeId → Progress → Result}
    (found : context.description.graph.trace input = .found id)
    (there : context.description.graph.node? id = some node) (known : met id)
    (each : ∀ operand ∈ context.operands node, ∀ progress emitted after,
      emit operand progress = .ok (emitted, after) →
        Gathers context.description.graph met progress after
          fun final => Written context final (some operand) emitted.code)
    (ran : emitNode context emit id node progress = .ok (emitted, after)) :
    Gathers context.description.graph met progress after
      fun final => Written context final (some input) emitted.code := by
  have means : context.Means input node := ⟨id, found, there⟩
  cases node with
  | constant value =>
    cases ran
    exact (Gathers.refl progress).imp fun _ _ => .constant means
  | scalarParameter name default =>
    cases ran
    exact (Gathers.refl progress).imp fun _ _ => .scalarParameter means
  | vectorParameter name default =>
    cases ran
    exact (Gathers.refl progress).imp fun _ _ => .vectorParameter means
  | math operation inputs =>
    obtain ⟨complete, operands, all, rfl⟩ := emitNode_math.mp ran
    exact (emitAll_gathers each all).imp fun final written =>
      combine_written means complete written
  | staticSwitch name default onTrue onFalse =>
    exact (each _ (List.mem_singleton_self _) progress emitted after ran).imp
      fun final writes => .staticSwitch means writes
  | textureSample parameter texture kind coordinates =>
    cases coordinates with
    | none =>
      have sampled := emitSample_gathers "TexCoord0" progress found there known
      rw [Except.ok.inj ran] at sampled
      exact sampled.imp fun final writes => writes .standard
    | some operand =>
      obtain ⟨⟨place, middle⟩, placed, ran⟩ := bind_eq_ok.mp ran
      have placed := each operand (List.mem_singleton_self operand) _ _ _ placed
      have sampled := emitSample_gathers place.code middle found there known
      rw [Except.ok.inj ran] at sampled
      exact (placed.andThen fun _ => sampled).imp fun final ⟨place, writes⟩ => writes place
  | runtimeTexture parameter texture =>
    cases ran
    refine ((Gathers.addTexture progress fun _ => ⟨id, _, there, rfl⟩).andThen
      fun ⟨_, _, entry⟩ => (Gathers.addPreallocated (entry rfl)).andThen
        fun _ => Gathers.withFlags _ _).imp ?_
    exact fun final ⟨_, holds, _⟩ => .runtimeTexture means holds
  | externalTexture external =>
    cases ran
    exact (Gathers.addExternal progress external).imp fun final entry =>
      .externalTexture means entry
  | collectionParameter collection name =>
    cases ran
    exact (Gathers.addCollection progress collection).imp fun final entry =>
      .collectionParameter means entry
  | textureCoordinates index =>
    cases ran
    exact (Gathers.refl progress).imp fun _ _ => .textureCoordinates means
  | sceneDepth =>
    cases ran
    exact (Gathers.withFlags progress _).imp fun _ _ => .sceneDepth means
  | eyeAdaptation =>
    cases ran
    exact (Gathers.withFlags progress _).imp fun _ _ => .eyeAdaptation means
  | distanceCullFade =>
    cases ran
    exact (Gathers.withFlags progress _).imp fun _ _ => .distanceCullFade means
  | reroute next => cases ran

theorem emit_gathers (reads : ∀ id, context.Reads input id → met id)
    (ran : emit context fuel inProgress input progress = .ok (emitted, after)) :
    Gathers context.description.graph met progress after
      fun final => Written context final (some input) emitted.code := by
  refine emit_induction (motive := fun input progress emitted after =>
    (∀ id, context.Reads input id → met id) →
      Gathers context.description.graph met progress after
        fun final => Written context final (some input) emitted.code) ?_ ran reads
  intro input id node found there emit progress emitted after operands ran reads
  refine emitNode_gathers found there (reads id (.here found))
    (fun operand member progress emitted after ran => ?_) ran
  exact operands operand member progress emitted after ran
    fun other below => reads other (.operand found there member below)

/-! ### The lines of a material -/

/-- One line for each output, that assigns its code to the attribute. -/
def lines : List (Attribute × NodeId) → List String → String
  | output :: outputs, code :: codes =>
    output.1.name ++ " = " ++ code ++ ";\n" ++ lines outputs codes
  | _, _ => ""

/-- Outputs are given their codes one after the other, and thus one progress leads to another. -/
inductive Emits (context : Context) :
    List (Attribute × NodeId) → Progress → List String → Progress → Prop where
  | nil {progress : Progress} : Emits context [] progress [] progress
  | cons {output : Attribute × NodeId} {outputs : List (Attribute × NodeId)} {codes : List String}
      {progress middle after : Progress} {emitted : Emitted}
      (emits : emit context (context.description.graph.size + 1) [] output.2 progress =
        .ok (emitted, middle))
      (others : Emits context outputs
        ((place output.1 emitted middle).2.withFlags (attributeFlags output.1)) codes after) :
      Emits context (output :: outputs) progress ((place output.1 emitted middle).1 :: codes) after

variable {outputs : List (Attribute × NodeId)} {codes : List String}

theorem emitOutputs_eq_ok {text : String} :
    emitOutputs context outputs progress = .ok (text, after) ↔
      ∃ codes, Emits context outputs progress codes after ∧ text = lines outputs codes := by
  constructor
  · intro ran
    induction outputs generalizing progress text with
    | nil =>
      cases ran
      exact ⟨[], .nil, rfl⟩
    | cons output outputs inductionHypothesis =>
      obtain ⟨⟨emitted, middle⟩, here, ran⟩ := bind_eq_ok.mp ran
      obtain ⟨⟨others, last⟩, there, ended⟩ := bind_eq_ok.mp ran
      cases ended
      obtain ⟨codes, emits, rfl⟩ := inductionHypothesis there
      exact ⟨_, .cons here emits, rfl⟩
  · rintro ⟨codes, emits, rfl⟩
    induction emits with
    | nil => rfl
    | cons here _ inductionHypothesis =>
      exact bind_eq_ok.mpr ⟨_, here, bind_eq_ok.mpr ⟨_, inductionHypothesis, rfl⟩⟩

/-- The first attributes are given their codes as if there were no others. -/
theorem Emits.split {before rest : List (Attribute × NodeId)}
    (emits : Emits context (before ++ rest) progress codes after) :
    ∃ first middle second, Emits context before progress first middle ∧
      Emits context rest middle second after ∧ codes = first ++ second := by
  induction before generalizing progress codes with
  | nil => exact ⟨[], progress, codes, .nil, emits, rfl⟩
  | cons output before inductionHypothesis =>
    obtain _ | ⟨here, others⟩ := emits
    obtain ⟨first, middle, second, emits, more, rfl⟩ := inductionHypothesis others
    exact ⟨_, middle, second, .cons here emits, more, rfl⟩

/-- The place of an expression in the buffer. -/
def placeName (single : Bool) (position : Nat) : String :=
  (bif single then "Material.Scalars[" else "Material.Vectors[") ++ toString position ++ "]"

/-- What an attribute is given. If its input folds, that is the place in the buffer of an
expression that is the tree of the input or is equal to it; otherwise it is the code that is
written for the input. -/
inductive Provided (context : Context) (gathered : Gathered) :
    Attribute × NodeId → String → Prop where
  | folded {output : Attribute × NodeId} {position : Nat} {tree entry : UniformExpression}
      (folds : context.Folds output.2) (denotes : context.Denotes output.2 tree)
      (there : (gathered.entries.uniforms output.1.isScalar)[position]? = some entry)
      (same : entry = tree ∨ entry.equal tree) :
      Provided context gathered output (placeName output.1.isScalar position)
  | code {output : Attribute × NodeId} {code : String} (unfolded : ¬context.Folds output.2)
      (writes : Written context gathered (some output.2) code) :
      Provided context gathered output code

section Placing

variable {property : Attribute} {tree : UniformExpression}

theorem place_code (code : emitted.uniform = none) :
    place property emitted progress = (emitted.code, progress) := by
  unfold place
  rw [code]

theorem place_name (uniform : emitted.uniform = some tree) :
    (place property emitted progress).1 = placeName property.isScalar
      (ExpressionSet.intern UniformExpression.equal (progress.uniforms property.isScalar) tree).1 := by
  unfold place
  rw [uniform]
  cases single : property.isScalar <;> rfl

theorem uniforms_place (single : Bool) (uniform : emitted.uniform = some tree) :
    (place property emitted progress).2.uniforms single =
      if single = property.isScalar then
        (ExpressionSet.intern UniformExpression.equal (progress.uniforms single) tree).2
      else progress.uniforms single := by
  unfold place
  rw [uniform]
  cases property.isScalar <;> cases single <;> rfl

theorem openStacks_place (property : Attribute) (emitted : Emitted) (progress : Progress) :
    (place property emitted progress).2.openStacks = progress.openStacks := by
  unfold place
  cases emitted.uniform <;> cases property.isScalar <;> rfl

theorem streamingStacks_place (property : Attribute) (emitted : Emitted) (progress : Progress) :
    (place property emitted progress).2.streamingStacks = progress.streamingStacks := by
  unfold place
  cases emitted.uniform <;> cases property.isScalar <;> rfl

theorem textures_place (property : Attribute) (emitted : Emitted) (progress : Progress)
    (kind : TextureKind) : (place property emitted progress).2.profile.expressions.textures kind =
      progress.profile.expressions.textures kind := by
  unfold place
  cases emitted.uniform <;> cases property.isScalar <;> cases kind <;> rfl

theorem grows_place (property : Attribute) (emitted : Emitted) (progress : Progress) :
    progress.profile.expressions.Grows (place property emitted progress).2.profile.expressions where
  uniforms single := by
    cases uniform : emitted.uniform with
    | none =>
      rw [place_code uniform]
    | some tree =>
      refine (?_ : _ <+: (place property emitted progress).2.uniforms single)
      rw [uniforms_place single uniform]
      split
      · exact ExpressionSet.prefix_intern _ _ _
      · exact List.prefix_rfl
  textures kind := by
    rw [textures_place]
  externalTextures := by
    unfold place
    cases emitted.uniform <;> cases property.isScalar <;> exact List.prefix_rfl
  collections := by
    unfold place
    cases emitted.uniform <;> cases property.isScalar <;> exact List.prefix_rfl
  streamingStacks position stack there :=
    ⟨stack, (congrArg (·[position]?) (streamingStacks_place property emitted progress)).trans there,
      .refl stack⟩

end Placing

theorem place_gathers {output : Attribute × NodeId} (progress : Progress)
    (reflects : Reflects context output.2 emitted) :
    Gathers context.description.graph met progress (place output.1 emitted progress).2
      fun final => Written context final (some output.2) emitted.code →
        Provided context final output (place output.1 emitted progress).1 := by
  have folds := reflects.folds
  have streaming : (place output.1 emitted progress).2.profile.expressions.streamingTextures =
      progress.profile.expressions.streamingTextures :=
    textures_place output.1 emitted progress .streaming
  refine .of_stacks (openStacks_place _ _ _) (streamingStacks_place _ _ _) (grows_place _ _ _)
    (streaming.symm ▸ id) (fun texture member => .inl (streaming ▸ member))
    fun places _ final more writes => ?_
  cases uniform : emitted.uniform with
  | none =>
    rw [uniform] at folds
    rw [place_code uniform]
    exact .code (fun folded => absurd (folds.mpr folded) Bool.false_ne_true) writes
  | some tree =>
    rw [uniform] at folds
    rw [place_name uniform]
    have grown : (place output.1 emitted progress).2.uniforms output.1.isScalar <+: _ :=
      more.entries.uniforms output.1.isScalar
    rw [uniforms_place _ uniform, if_pos rfl] at grown
    obtain ⟨entry, there, same⟩ := ExpressionSet.getElem?_intern UniformExpression.equal
      (progress.uniforms output.1.isScalar) tree
    exact .folded (folds.mp rfl) (reflects.denotes uniform) (getElem?_of_grown grown there) same

/-- All attributes are provided for, with references that are right in the end. -/
theorem Emits.gathers (emits : Emits context outputs progress codes after)
    (reads : ∀ output ∈ outputs, ∀ id, context.Reads output.2 id → met id) :
    Gathers context.description.graph met progress after
      fun final => List.Forall₂ (Provided context final) outputs codes := by
  induction emits with
  | nil => exact (Gathers.refl _).imp fun _ _ => .nil
  | @cons output outputs codes progress middle after emitted here _ inductionHypothesis =>
    have written := emit_gathers (reads output List.mem_cons_self) here
    have others := inductionHypothesis
      fun other member => reads other (List.mem_cons_of_mem output member)
    refine (written.andThen fun _ => (place_gathers middle (emit_reflects here)).andThen fun _ =>
      (Gathers.withFlags _ _).andThen fun _ => others).imp ?_
    exact fun final ⟨writes, provided, _, rest⟩ => .cons (provided writes) rest

theorem tidy_empty (graph : Graph) (met : NodeId → Prop) : Progress.Tidy graph met {} [] where
  aligned := rfl
  distinct := List.nodup_nil
  streamed _ member := absurd member List.not_mem_nil
  wellFormed _ _ there := nomatch there
  sampled _ _ _ there := nomatch there
  openStacks _ _ opened := nomatch opened

end Lowering

namespace LoweredMaterial

/-- The streaming stacks of a lowered material are well formed, each of them is read at
coordinates of its own, and the source refers to the stacks and layers that its textures are on.
A stack that there is after some of the attributes is still there after the others, with the same
layers first, and with no others if it stands for a texture laid out beforehand. -/
structure Stacked (material : LoweredMaterial) (description : Description)
    (parameters : StaticParameters) (quality : Quality) (tier : Tier) : Prop where
  wellFormed : ∀ stack ∈ material.profile.expressions.streamingStacks,
    stack.WellFormed material.profile.expressions.streamingTextures.length
  referenced : ∃ gathered : Lowering.Gathered,
    gathered.entries = material.profile.expressions ∧
    gathered.coordinates.length = gathered.entries.streamingStacks.length ∧
    (∀ (position : Nat) (stack : StreamingStack) (place : Option NodeId),
      gathered.entries.streamingStacks[position]? = some stack →
      gathered.coordinates[position]? = some place → stack.preallocated = none →
      ∀ number ∈ stack.layers, gathered.Sampled description.graph
        (Lowering.Context.ReadsAny ⟨description, parameters⟩) place number) ∧
    ∃ codes, material.source = Lowering.header description quality tier ++
        Lowering.lines description.graph.outputs codes ∧
      List.Forall₂ (Lowering.Provided ⟨description, parameters⟩ gathered)
        description.graph.outputs codes
  lasting : ∀ before rest, description.graph.outputs = before ++ rest → ∃ lines middle,
    Lowering.emitOutputs ⟨description, parameters⟩ before {} = .ok (lines, middle) ∧
      middle.profile.expressions.Grows material.profile.expressions

end LoweredMaterial

namespace Description

variable {description : Description} {parameters : StaticParameters} {quality : Quality}
  {tier : Tier} {material : LoweredMaterial}

theorem stacked_of_lower (lowered : description.lower parameters quality tier = .ok material) :
    material.Stacked description parameters quality tier := by
  obtain ⟨⟨text, progress⟩, ran, ended⟩ := bind_eq_ok.mp lowered
  cases ended
  obtain ⟨codes, emits, rfl⟩ := Lowering.emitOutputs_eq_ok.mp ran
  have reads {outputs} (provided : outputs ⊆ description.graph.outputs) : ∀ output ∈ outputs,
      ∀ id, Lowering.Context.Reads ⟨description, parameters⟩ output.2 id →
        Lowering.Context.ReadsAny ⟨description, parameters⟩ id :=
    fun output member _ reads => ⟨output, provided member, reads⟩
  have start := Lowering.tidy_empty description.graph
    (Lowering.Context.ReadsAny ⟨description, parameters⟩)
  obtain ⟨places, tidy, _, provided⟩ := emits.gathers (reads (List.Subset.refl _)) [] start
  refine ⟨fun stack member => ?_, ⟨progress.gatheredAt places, rfl, tidy.aligned, tidy.sampled,
    codes, rfl, provided _ (.refl _)⟩, fun before rest split => ?_⟩
  · obtain ⟨position, there⟩ := List.mem_iff_getElem?.mp member
    exact tidy.wellFormed position stack there
  · rw [split] at emits reads
    obtain ⟨first, middle, second, emits, more, _⟩ := emits.split
    obtain ⟨places, tidy, _, _⟩ :=
      emits.gathers (reads (List.subset_append_left before rest)) [] start
    obtain ⟨_, _, grows, _⟩ :=
      more.gathers (reads (List.subset_append_right before rest)) places tidy
    exact ⟨_, middle, Lowering.emitOutputs_eq_ok.mpr ⟨first, emits, rfl⟩, grows.entries⟩

/-- Nine textures that are read at the same coordinates, and one that is laid out beforehand. -/
def layered : Description where
  name := "Layered"
  graph := {
    nodes := (List.range 9).map (fun number =>
        .textureSample none ⟨UInt32.ofNat number⟩ .streaming none) ++
      [.runtimeTexture none ⟨3⟩] ++
      (List.range 9).map fun number =>
        .math .add [⟨UInt32.ofNat number⟩, ⟨UInt32.ofNat (number + 9)⟩]
    output := fun property => if property = .baseColor then some ⟨18⟩ else none }

/-- The ninth texture does not fit on the stack of the others. The one laid out beforehand is
among the nine, but has a stack of its own. -/
theorem layered_stacked : ∃ material, layered.lower .empty .high .desktop = .ok material ∧
    material.profile.expressions.streamingStacks.map StreamingStack.layers =
      [[0, 1, 2, 3, 4, 5, 6, 7], [8], [5]] ∧
    material.Stacked layered .empty .high .desktop := by
  have profile : (layered.lower .empty .high .desktop).map (fun material =>
      material.profile.expressions.streamingStacks.map StreamingStack.layers) =
        .ok [[0, 1, 2, 3, 4, 5, 6, 7], [8], [5]] := by
    cbv
  obtain ⟨material, lowered, layers⟩ := map_eq_ok.mp profile
  exact ⟨material, lowered, layers, stacked_of_lower lowered⟩

end Description

end Shading
