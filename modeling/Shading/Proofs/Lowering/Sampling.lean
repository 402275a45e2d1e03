/-
The samples of streaming textures in the code of a material. Emission is followed
once more, this time together with the samples that it writes, in the order in
which they are written. A texture has one slot for each source of coordinates,
unless it comes back after its stack has been left.
-/

import Mathlib
import Shading.Proofs.Lowering.Slotting
import Shading.Proofs.Lowering.Writing

namespace Shading

/-- A node whose code is made without that of others, and which is no texture sample. -/
def Node.IsLeaf : Node → Prop
  | .math _ _ | .staticSwitch _ _ _ _ | .textureSample _ _ _ _ | .reroute _ => False
  | _ => True

namespace Lowering

variable {context : Context} {graph : Graph} {fuel : Nat} {inProgress : List NodeId}
  {input id : NodeId} {node : Node} {progress middle after : Progress} {emitted : Emitted}
  {gathered final : Gathered} {samples more : List Sample} {code : String}

section Samples

variable {place : Option NodeId} {number : UInt32} {texture : TextureExpression}

/-! ### The samples in a code -/

/-- The code that is written for an input, or where no input is connected, with the samples of
streaming textures in it from left to right; the coordinates of a sample stand inside it, and what
is sampled for them comes first. -/
inductive Draws (context : Context) (gathered : Gathered) :
    Option NodeId → String → List Sample → Prop where
  | standard : Draws context gathered none "TexCoord0" []
  | leaf {input : NodeId} {node : Node} {code : String} (means : context.Means input node)
      (leaf : node.IsLeaf) (writes : Written context gathered (some input) code) :
      Draws context gathered (some input) code []
  | add {input left right : NodeId} {first second : String} {samples more : List Sample}
      (means : context.Means input (.math .add [left, right]))
      (drawsLeft : Draws context gathered (some left) first samples)
      (drawsRight : Draws context gathered (some right) second more) :
      Draws context gathered (some input) ("(" ++ first ++ " + " ++ second ++ ")")
        (samples ++ more)
  | multiply {input left right : NodeId} {first second : String} {samples more : List Sample}
      (means : context.Means input (.math .multiply [left, right]))
      (drawsLeft : Draws context gathered (some left) first samples)
      (drawsRight : Draws context gathered (some right) second more) :
      Draws context gathered (some input) ("(" ++ first ++ " * " ++ second ++ ")")
        (samples ++ more)
  | saturate {input operand : NodeId} {code : String} {samples : List Sample}
      (means : context.Means input (.math .saturate [operand]))
      (draws : Draws context gathered (some operand) code samples) :
      Draws context gathered (some input) ("saturate(" ++ code ++ ")") samples
  | staticSwitch {input onTrue onFalse : NodeId} {name code : String} {default : Bool}
      {samples : List Sample}
      (means : context.Means input (.staticSwitch name default onTrue onFalse))
      (draws : Draws context gathered
        (some (if (context.parameters.switch? name).getD default then onTrue else onFalse)) code
        samples) :
      Draws context gathered (some input) code samples
  | textureSample {input : NodeId} {parameter : Option String} {texture : TextureId}
      {kind : TextureKind} {coordinates : Option NodeId} {position : Nat} {place : String}
      {samples : List Sample}
      (means : context.Means input (.textureSample parameter texture kind coordinates))
      (other : kind ≠ .streaming) (draws : Draws context gathered coordinates place samples)
      (entry : (gathered.entries.textures kind)[position]? = some ⟨parameter, texture, kind⟩) :
      Draws context gathered (some input)
        ("Sample" ++ kind.name ++ "(Textures[" ++ toString position ++ "], " ++ place ++ ")")
        samples
  | streamingSample {input : NodeId} {parameter : Option String} {texture : TextureId}
      {coordinates : Option NodeId} {stack layer : Nat} {place : String} {samples : List Sample}
      (means : context.Means input (.textureSample parameter texture .streaming coordinates))
      (draws : Draws context gathered coordinates place samples)
      (holds : gathered.Holds coordinates ⟨parameter, texture, .streaming⟩ stack layer) :
      Draws context gathered (some input)
        ("SampleStack(Stack[" ++ toString stack ++ "], " ++ toString layer ++ ", " ++ place ++ ")")
        (samples ++ [⟨coordinates, ⟨parameter, texture, .streaming⟩, stack, layer⟩])

namespace Draws

theorem written (draws : Draws context gathered place code samples) :
    Written context gathered place code := by
  induction draws with
  | standard => exact .standard
  | leaf _ _ writes => exact writes
  | add means _ _ inductionLeft inductionRight => exact .add means inductionLeft inductionRight
  | multiply means _ _ inductionLeft inductionRight =>
    exact .multiply means inductionLeft inductionRight
  | saturate means _ inductionHypothesis => exact .saturate means inductionHypothesis
  | staticSwitch means _ inductionHypothesis => exact .staticSwitch means inductionHypothesis
  | textureSample means other _ entry inductionHypothesis =>
    exact .textureSample means other inductionHypothesis entry
  | streamingSample means _ holds inductionHypothesis =>
    exact .streamingSample means inductionHypothesis holds

/-- Each sample names a layer of a stack with its texture. -/
theorem holds (draws : Draws context gathered place code samples) : ∀ sample ∈ samples,
    gathered.Holds sample.place sample.texture sample.stack sample.layer := by
  induction draws with
  | standard | leaf _ _ _ => exact fun _ member => absurd member List.not_mem_nil
  | add _ _ _ inductionLeft inductionRight | multiply _ _ _ inductionLeft inductionRight =>
    exact List.forall_mem_append.mpr ⟨inductionLeft, inductionRight⟩
  | saturate _ _ inductionHypothesis | staticSwitch _ _ inductionHypothesis
  | textureSample _ _ _ _ inductionHypothesis => exact inductionHypothesis
  | streamingSample _ _ holds inductionHypothesis =>
    exact List.forall_mem_append.mpr ⟨inductionHypothesis, List.forall_mem_singleton.mpr holds⟩

/-- Each sample stands for a node of the graph. -/
theorem sampled (draws : Draws context gathered place code samples) : ∀ sample ∈ samples,
    ∃ input parameter texture, context.Means input
        (.textureSample parameter texture .streaming sample.place) ∧
      sample.texture = ⟨parameter, texture, .streaming⟩ := by
  induction draws with
  | standard | leaf _ _ _ => exact fun _ member => absurd member List.not_mem_nil
  | add _ _ _ inductionLeft inductionRight | multiply _ _ _ inductionLeft inductionRight =>
    exact List.forall_mem_append.mpr ⟨inductionLeft, inductionRight⟩
  | saturate _ _ inductionHypothesis | staticSwitch _ _ inductionHypothesis
  | textureSample _ _ _ _ inductionHypothesis => exact inductionHypothesis
  | streamingSample means _ _ inductionHypothesis =>
    exact List.forall_mem_append.mpr ⟨inductionHypothesis,
      List.forall_mem_singleton.mpr ⟨_, _, _, means, rfl⟩⟩

/-- There are no samples in what is folded. -/
theorem nil_of_folds (draws : Draws context gathered (some input) code samples)
    (folds : context.Folds input) : samples = [] := by
  generalize there : some input = place at draws
  induction draws generalizing input with
  | standard => cases there
  | leaf _ _ _ => rfl
  | add means _ _ inductionLeft inductionRight | multiply means _ _ inductionLeft inductionRight =>
    cases there
    have operands := ((Context.folds_iff means).mp folds).2
    rw [inductionLeft (operands _ List.mem_cons_self) rfl,
      inductionRight (operands _ (List.mem_cons_of_mem _ List.mem_cons_self)) rfl]
    rfl
  | saturate means _ inductionHypothesis | staticSwitch means _ inductionHypothesis =>
    cases there
    exact inductionHypothesis (((Context.folds_iff means).mp folds).2 _ List.mem_cons_self) rfl
  | textureSample means _ _ _ _ | streamingSample means _ _ _ =>
    cases there
    exact ((Context.folds_iff means).mp folds).1.elim

end Draws

/-- A layer of a stack has one texture. -/
theorem Gathered.Holds.unique {other : Option NodeId} {another : TextureExpression}
    {position layer : Nat} (holds : gathered.Holds place texture position layer)
    (also : gathered.Holds other another position layer) : (place, texture) = (other, another) := by
  obtain ⟨stack, number, there, _, located, layered, entry⟩ := holds
  obtain ⟨stack', number', there', _, located', layered', entry'⟩ := also
  cases there.symm.trans there'
  cases located.symm.trans located'
  cases layered.symm.trans layered'
  cases entry.symm.trans entry'
  rfl

/-! ### Emission -/

/-- Besides what is gathered, the given samples are written, each of which is allotted its slot. -/
structure Records (graph : Graph) (progress : Progress) (samples : List Sample) (after : Progress)
    (claim : Gathered → Prop) : Prop where
  gathers : Gathers graph (fun _ => True) progress after claim
  kept : ∀ places earlier, progress.Tidy graph (fun _ => True) places → progress.Kept earlier →
    after.Kept (earlier ++ samples)

namespace Records

variable {claim claim' : Gathered → Prop}

theorem imp (records : Records graph progress samples after claim)
    (weaker : ∀ final, claim final → claim' final) :
    Records graph progress samples after claim' :=
  ⟨records.gathers.imp weaker, records.kept⟩

theorem andThen (first : Records graph progress samples middle claim)
    (second : (∃ places, claim (middle.gatheredAt places)) →
      Records graph middle more after claim') :
    Records graph progress (samples ++ more) after fun final => claim final ∧ claim' final where
  gathers := first.gathers.andThen fun holds => (second holds).gathers
  kept places earlier tidy kept := by
    obtain ⟨places', tidy', _, holds⟩ := first.gathers places tidy
    rw [← List.append_assoc]
    exact (second ⟨places', holds _ (.refl _)⟩).kept places' _ tidy'
      (first.kept places earlier tidy kept)

/-- Steps that write no samples. -/
theorem of_still (gathers : Gathers graph (fun _ => True) progress after claim)
    (still : progress.Still after) : Records graph progress [] after claim where
  gathers := gathers
  kept places earlier tidy kept := by
    obtain ⟨places', _, grows, _⟩ := gathers places tidy
    rw [List.append_nil]
    exact kept.still still (grows.entries.textures .streaming)

theorem refl (progress : Progress) : Records graph progress [] progress fun _ => True :=
  of_still (.refl progress) (Progress.still_of_stacks rfl rfl)

theorem withFlags (progress : Progress) (flags : FeatureFlags) :
    Records graph progress [] (progress.withFlags flags) fun _ => True :=
  of_still (.withFlags progress flags) (Progress.still_of_stacks rfl rfl)

theorem addTexture (progress : Progress)
    (origin : texture.kind = .streaming → ∃ id node, graph.node? id = some node ∧
      node.streamed? = some texture) :
    Records graph progress [] (progress.countSample.addTexture texture).2 fun final =>
      (final.entries.textures texture.kind)[(progress.countSample.addTexture texture).1]? =
        some texture ∧
      (texture.kind = .streaming → final.entries.streamingTextures[
        (UInt32.ofNat (progress.countSample.addTexture texture).1).toNat]? = some texture) := by
  have counted : progress.Still progress.countSample := Progress.still_of_stacks rfl rfl
  refine of_still (((Gathers.countSample progress).andThen fun _ =>
    Gathers.addTexture _ origin).imp fun _ both => both.2) ?_
  exact counted.trans (progress.countSample.still_addTexture texture)

theorem addStreamingLayer
    (entry : progress.profile.expressions.streamingTextures[number.toNat]? = some texture)
    (samples : Gathers.Samples graph (fun _ => True) place texture) :
    Records graph progress
      [⟨place, texture, (progress.addStreamingLayer place number).1.1,
        (progress.addStreamingLayer place number).1.2⟩]
      (progress.addStreamingLayer place number).2 fun final =>
        final.Holds place texture (progress.addStreamingLayer place number).1.1
          (progress.addStreamingLayer place number).1.2 where
  gathers := .addStreamingLayer entry samples
  kept _ _ tidy kept := kept.addStreamingLayer tidy entry

end Records

/-- The operands of a node are emitted one after the other, and so are their samples. -/
theorem emitAll_records {emit : NodeId → Progress → Result} {inputs : List NodeId}
    {operands : List Emitted}
    (each : ∀ operand ∈ inputs, ∀ progress emitted after,
      emit operand progress = .ok (emitted, after) → ∃ samples,
        Records context.description.graph progress samples after
          fun final => Draws context final (some operand) emitted.code samples)
    (ran : emitAll emit inputs progress = .ok (operands, after)) :
    ∃ drawn : List (String × List Sample), operands.map Emitted.code = drawn.map Prod.fst ∧
      Records context.description.graph progress (drawn.flatMap Prod.snd) after fun final =>
        List.Forall₂ (fun input drawn => Draws context final (some input) drawn.1 drawn.2)
          inputs drawn := by
  induction inputs generalizing progress operands with
  | nil =>
    cases ran
    exact ⟨[], rfl, (Records.refl after).imp fun _ _ => .nil⟩
  | cons first rest inductionHypothesis =>
    obtain ⟨⟨emitted, middle⟩, here, ran⟩ := bind_eq_ok.mp ran
    obtain ⟨⟨others, last⟩, there, ended⟩ := bind_eq_ok.mp ran
    cases ended
    obtain ⟨samples, records⟩ := each first List.mem_cons_self _ _ _ here
    obtain ⟨drawn, codes, following⟩ := inductionHypothesis
      (fun operand member => each operand (List.mem_cons_of_mem first member)) there
    refine ⟨(emitted.code, samples) :: drawn, congrArg (emitted.code :: ·) codes,
      (records.andThen fun _ => following).imp ?_⟩
    exact fun final ⟨draws, rest⟩ => .cons draws rest

theorem combine_draws {operation : MathOperation} {inputs : List NodeId} {operands : List Emitted}
    {drawn : List (String × List Sample)} (means : context.Means input (.math operation inputs))
    (complete : inputs.length = arity operation)
    (codes : operands.map Emitted.code = drawn.map Prod.fst)
    (draws : List.Forall₂ (fun input drawn => Draws context final (some input) drawn.1 drawn.2)
      inputs drawn) :
    Draws context final (some input) (combine operation operands).code
      (drawn.flatMap Prod.snd) := by
  cases operation with
  | add | multiply =>
    obtain ⟨left, right, rfl⟩ := List.length_eq_two.mp complete
    obtain _ | ⟨first, _ | ⟨second, _ | _⟩⟩ := draws
    rename_i drawnLeft drawnRight
    obtain ⟨emittedLeft, emittedRight, rfl⟩ : ∃ a b, operands = [a, b] :=
      List.length_eq_two.mp (by simpa using congrArg List.length codes)
    obtain ⟨same, rest⟩ := List.cons.inj codes
    obtain ⟨same', _⟩ := List.cons.inj rest
    rw [← same] at first
    rw [← same'] at second
    rw [List.flatMap_cons, List.flatMap_cons, List.flatMap_nil, List.append_nil]
    constructor
    · exact means
    · exact first
    · exact second
  | saturate =>
    obtain ⟨operand, rfl⟩ := List.length_eq_one_iff.mp complete
    obtain _ | ⟨only, _ | _⟩ := draws
    obtain ⟨emitted, rfl⟩ : ∃ a, operands = [a] :=
      List.length_eq_one_iff.mp (by simpa using congrArg List.length codes)
    obtain ⟨same, _⟩ := List.cons.inj codes
    rw [← same] at only
    rw [List.flatMap_cons, List.flatMap_nil, List.append_nil]
    exact .saturate means only

/-- A sample comes after those that its coordinates are made with. -/
theorem emitSample_records {parameter : Option String} {texture : TextureId} {kind : TextureKind}
    {coordinates : Option NodeId} (place : String) (progress : Progress)
    (found : context.description.graph.trace input = .found id)
    (there : context.description.graph.node? id =
      some (.textureSample parameter texture kind coordinates)) :
    ∃ more, Records context.description.graph progress more
      (emitSample ⟨parameter, texture, kind⟩ coordinates place progress).2 fun final =>
        ∀ samples, Draws context final coordinates place samples →
          Draws context final (some input)
            (emitSample ⟨parameter, texture, kind⟩ coordinates place progress).1.code
            (samples ++ more) := by
  have means : context.Means input (.textureSample parameter texture kind coordinates) :=
    ⟨id, found, there⟩
  have origin : kind = .streaming → ∃ id node, context.description.graph.node? id = some node ∧
      node.streamed? = some ⟨parameter, texture, kind⟩ := by
    rintro rfl
    exact ⟨id, _, there, rfl⟩
  have added : Records context.description.graph progress []
      (progress.countSample.addTexture ⟨parameter, texture, kind⟩).2 _ :=
    Records.addTexture progress origin
  by_cases streaming : kind = .streaming
  · subst streaming
    refine ⟨_, (added.andThen fun ⟨_, _, entry⟩ => (Records.withFlags _ _).andThen fun _ =>
      Records.addStreamingLayer (entry rfl) ⟨id, parameter, texture, trivial, there, rfl⟩).imp ?_⟩
    exact fun final ⟨_, _, holds⟩ samples draws => .streamingSample means draws holds
  · rw [emitSample_other streaming]
    refine ⟨[], added.imp fun final ⟨entry, _⟩ samples draws => ?_⟩
    rw [List.append_nil]
    exact .textureSample means streaming draws entry

/-- A node whose code is made without that of others writes no samples. -/
theorem still_emitNode {emit : NodeId → Progress → Result} (leaf : node.IsLeaf)
    (ran : emitNode context emit id node progress = .ok (emitted, after)) :
    progress.Still after := by
  cases node with
  | math _ _ | staticSwitch _ _ _ _ | textureSample _ _ _ _ | reroute _ => exact leaf.elim
  | runtimeTexture parameter texture =>
    cases ran
    have added := progress.still_addTexture ⟨parameter, texture, .streaming⟩
    have laid := (progress.addTexture ⟨parameter, texture, .streaming⟩).2.still_addPreallocated
      (UInt32.ofNat (progress.addTexture ⟨parameter, texture, .streaming⟩).1)
    exact (added.trans laid).trans (Progress.still_of_stacks rfl rfl)
  | _ =>
    cases ran
    exact Progress.still_of_stacks rfl rfl

/-- One node is written with its samples, once its operands are. -/
theorem emitNode_records {emit : NodeId → Progress → Result}
    (found : context.description.graph.trace input = .found id)
    (there : context.description.graph.node? id = some node)
    (each : ∀ operand ∈ context.operands node, ∀ progress emitted after,
      emit operand progress = .ok (emitted, after) → ∃ samples,
        Records context.description.graph progress samples after
          fun final => Draws context final (some operand) emitted.code samples)
    (ran : emitNode context emit id node progress = .ok (emitted, after)) :
    ∃ samples, Records context.description.graph progress samples after
      fun final => Draws context final (some input) emitted.code samples := by
  have means : context.Means input node := ⟨id, found, there⟩
  have written : Gathers context.description.graph (fun _ => True) progress after
      fun final => Written context final (some input) emitted.code :=
    emitNode_gathers found there trivial (fun operand member progress emitted after ran => by
      obtain ⟨samples, records⟩ := each operand member progress emitted after ran
      exact records.gathers.imp fun _ => Draws.written) ran
  have leaf (leaf : node.IsLeaf) : ∃ samples,
      Records context.description.graph progress samples after
        fun final => Draws context final (some input) emitted.code samples :=
    ⟨[], .of_still (written.imp fun _ writes => .leaf means leaf writes)
      (still_emitNode leaf ran)⟩
  cases node with
  | math operation inputs =>
    obtain ⟨complete, operands, all, rfl⟩ := emitNode_math.mp ran
    obtain ⟨drawn, codes, records⟩ := emitAll_records each all
    exact ⟨_, records.imp fun final draws => combine_draws means complete codes draws⟩
  | staticSwitch name default onTrue onFalse =>
    obtain ⟨samples, records⟩ := each _ (List.mem_singleton_self _) progress emitted after ran
    exact ⟨samples, records.imp fun final draws => .staticSwitch means draws⟩
  | textureSample parameter texture kind coordinates =>
    cases coordinates with
    | none =>
      obtain ⟨more, sampled⟩ := emitSample_records "TexCoord0" progress found there
      rw [Except.ok.inj ran] at sampled
      exact ⟨more, sampled.imp fun final draws => draws [] .standard⟩
    | some operand =>
      obtain ⟨⟨place, middle⟩, placed, ran⟩ := bind_eq_ok.mp ran
      obtain ⟨samples, placed⟩ := each operand (List.mem_singleton_self operand) _ _ _ placed
      obtain ⟨more, sampled⟩ := emitSample_records place.code middle found there
      rw [Except.ok.inj ran] at sampled
      exact ⟨samples ++ more, (placed.andThen fun _ => sampled).imp
        fun final ⟨place, draws⟩ => draws samples place⟩
  | reroute next => cases ran
  | _ => exact leaf trivial

theorem emit_records (ran : emit context fuel inProgress input progress = .ok (emitted, after)) :
    ∃ samples, Records context.description.graph progress samples after
      fun final => Draws context final (some input) emitted.code samples := by
  refine emit_induction (motive := fun input progress emitted after =>
    ∃ samples, Records context.description.graph progress samples after
      fun final => Draws context final (some input) emitted.code samples) ?_ ran
  intro input id node found there emit progress emitted after each ran
  exact emitNode_records found there each ran

end Samples

/-! ### The lines of a material -/

/-- What an attribute is given, with the samples in it: none in the place of an expression. -/
inductive Renders (context : Context) (gathered : Gathered) :
    Attribute × NodeId → String → List Sample → Prop where
  | folded {output : Attribute × NodeId} {code : String} (folds : context.Folds output.2)
      (provided : Provided context gathered output code) :
      Renders context gathered output code []
  | code {output : Attribute × NodeId} {code : String} {samples : List Sample}
      (unfolded : ¬context.Folds output.2)
      (draws : Draws context gathered (some output.2) code samples) :
      Renders context gathered output code samples

theorem Renders.holds {output : Attribute × NodeId}
    (renders : Renders context gathered output code samples) : ∀ sample ∈ samples,
      gathered.Holds sample.place sample.texture sample.stack sample.layer := by
  cases renders with
  | folded => exact fun _ member => absurd member List.not_mem_nil
  | code _ draws => exact draws.holds

theorem Renders.sampled {output : Attribute × NodeId}
    (renders : Renders context gathered output code samples) : ∀ sample ∈ samples,
      ∃ input parameter texture, context.Means input
          (.textureSample parameter texture .streaming sample.place) ∧
        sample.texture = ⟨parameter, texture, .streaming⟩ := by
  cases renders with
  | folded => exact fun _ member => absurd member List.not_mem_nil
  | code _ draws => exact draws.sampled

/-- Each sample stands in the code of some attribute. -/
theorem exists_renders {outputs : List (Attribute × NodeId)}
    {drawn : List (String × List Sample)} {sample : Sample}
    (renders : List.Forall₂ (fun output drawn => Renders context gathered output drawn.1 drawn.2)
      outputs drawn) (member : sample ∈ drawn.flatMap Prod.snd) :
    ∃ output code samples, Renders context gathered output code samples ∧ sample ∈ samples := by
  induction renders with
  | nil => cases member
  | @cons output entry _ _ rendered _ inductionHypothesis =>
    rcases List.mem_append.mp member with inside | below
    · exact ⟨output, entry.1, entry.2, rendered, inside⟩
    · exact inductionHypothesis below

theorem still_place (property : Attribute) (emitted : Emitted) (progress : Progress) :
    progress.Still (place property emitted progress).2 :=
  Progress.still_of_stacks (openStacks_place property emitted progress)
    (streamingStacks_place property emitted progress)

/-- One attribute is given its code together with the samples in it. -/
theorem place_records {output : Attribute × NodeId}
    (ran : emit context fuel inProgress output.2 progress = .ok (emitted, middle)) :
    ∃ samples, Records context.description.graph progress samples
      (place output.1 emitted middle).2 fun final =>
        Renders context final output (place output.1 emitted middle).1 samples := by
  obtain ⟨samples, records⟩ := emit_records ran
  have reflects := emit_reflects ran
  have placed : Records context.description.graph middle [] (place output.1 emitted middle).2 _ :=
    .of_still (place_gathers middle reflects) (still_place output.1 emitted middle)
  refine ⟨samples ++ [], (records.andThen fun _ => placed).imp ?_⟩
  rintro final ⟨draws, provided⟩
  rw [List.append_nil]
  by_cases folds : context.Folds output.2
  · rw [draws.nil_of_folds folds]
    exact .folded folds (provided draws.written)
  · have code : emitted.uniform = none :=
      Option.not_isSome_iff_eq_none.mp fun uniform => folds (reflects.folds.mp uniform)
    rw [place_code code]
    exact .code folds draws

theorem Emits.records {outputs : List (Attribute × NodeId)} {codes : List String}
    (emits : Emits context outputs progress codes after) :
    ∃ drawn : List (String × List Sample), codes = drawn.map Prod.fst ∧
      Records context.description.graph progress (drawn.flatMap Prod.snd) after fun final =>
        List.Forall₂ (fun output drawn => Renders context final output drawn.1 drawn.2)
          outputs drawn := by
  induction emits with
  | @nil progress => exact ⟨[], rfl, (Records.refl progress).imp fun _ _ => .nil⟩
  | @cons output outputs codes progress middle after emitted here _ inductionHypothesis =>
    obtain ⟨samples, records⟩ := place_records here
    obtain ⟨drawn, rfl, others⟩ := inductionHypothesis
    refine ⟨((place output.1 emitted middle).1, samples) :: drawn, rfl,
      (records.andThen fun _ => (Records.withFlags _ _).andThen fun _ => others).imp ?_⟩
    exact fun final ⟨renders, _, rest⟩ => .cons renders rest

end Lowering

namespace LoweredMaterial

open Lowering (Sample)

/-- The samples of streaming textures in the source of a lowered material, in order. Each has been
allotted its slot, and the slots are the layers of the stacks. -/
structure Samples (material : LoweredMaterial) (description : Description)
    (parameters : StaticParameters) (quality : Quality) (tier : Tier) (samples : List Sample) :
    Prop where
  rendered : ∃ (gathered : Lowering.Gathered) (drawn : List (String × List Sample)),
    gathered.entries = material.profile.expressions ∧ samples = drawn.flatMap Prod.snd ∧
    material.source = Lowering.header description quality tier ++
      Lowering.lines description.graph.outputs (drawn.map Prod.fst) ∧
    List.Forall₂ (fun output drawn =>
        Lowering.Renders ⟨description, parameters⟩ gathered output drawn.1 drawn.2)
      description.graph.outputs drawn
  allotted : Lowering.Allotted samples
  slots : ∀ position layer,
    (position, layer) ∈ StreamingStack.slots material.profile.expressions.streamingStacks ↔
      ∃ sample ∈ samples, sample.slot = (position, layer)

/-- The layers of all stacks but those that stand for a texture laid out beforehand. -/
def filledLayers (material : LoweredMaterial) : Nat :=
  ((material.profile.expressions.streamingStacks.filter fun stack =>
    stack.preallocated = none).map StreamingStack.size).sum

namespace Samples

variable {material : LoweredMaterial} {description : Description} {parameters : StaticParameters}
  {quality : Quality} {tier : Tier} {samples : List Sample}

theorem sampled (written : material.Samples description parameters quality tier samples) :
    ∀ sample ∈ samples, ∃ input parameter texture,
      Lowering.Context.Means ⟨description, parameters⟩ input
        (.textureSample parameter texture .streaming sample.place) ∧
      sample.texture = ⟨parameter, texture, .streaming⟩ := by
  obtain ⟨gathered, drawn, _, rfl, _, renders⟩ := written.rendered
  intro sample member
  obtain ⟨_, _, _, rendered, inside⟩ := Lowering.exists_renders renders member
  exact rendered.sampled sample inside

/-- A slot is given to one texture at the same coordinates only. -/
theorem apart (written : material.Samples description parameters quality tier samples) :
    ∀ first ∈ samples, ∀ second ∈ samples,
      first.slot = second.slot → first.subject = second.subject := by
  obtain ⟨gathered, drawn, _, rfl, _, renders⟩ := written.rendered
  have holds {sample : Sample} (member : sample ∈ drawn.flatMap Prod.snd) :
      gathered.Holds sample.place sample.texture sample.stack sample.layer := by
    obtain ⟨_, _, _, rendered, inside⟩ := Lowering.exists_renders renders member
    exact rendered.holds sample inside
  intro first member second member' same
  obtain ⟨position, layer⟩ := Prod.mk.inj same
  have also := holds member'
  rw [← position, ← layer] at also
  exact (holds member).unique also

/-- All layers have been written for some sample. -/
theorem filledLayers_eq (written : material.Samples description parameters quality tier samples) :
    material.filledLayers = (samples.map Sample.slot).toFinset.card := by
  have distinct := StreamingStack.nodup_slots material.profile.expressions.streamingStacks
  have same : (StreamingStack.slots material.profile.expressions.streamingStacks).toFinset =
      (samples.map Sample.slot).toFinset := by
    ext ⟨position, layer⟩
    rw [List.mem_toFinset, List.mem_toFinset, List.mem_map]
    exact written.slots position layer
  rw [← same, List.toFinset_card_of_nodup distinct]
  exact (StreamingStack.length_slots _).symm

theorem filledLayers_eq_iff
    (written : material.Samples description parameters quality tier samples) :
    material.filledLayers = (samples.map Sample.subject).toFinset.card ↔
      Lowering.Agreeing samples := by
  rw [written.filledLayers_eq]
  exact Lowering.card_slots_eq_iff written.apart

end Samples

/-- A streaming texture has one slot for each source of coordinates, and there are as many layers
as there are textures at different coordinates, just if no texture comes back after its stack has
been left. None does as long as there are no more than eight textures at any coordinates. -/
structure Slotted (material : LoweredMaterial) (samples : List Sample) : Prop where
  agreeing : Lowering.Agreeing samples ↔ ¬Lowering.ComesBack samples
  counted : material.filledLayers = (samples.map Sample.subject).toFinset.card ↔
    ¬Lowering.ComesBack samples
  few : (∀ place, (Lowering.texturesAt place samples).toFinset.card ≤ StreamingStack.maxLayers) →
    ¬Lowering.ComesBack samples

end LoweredMaterial

namespace Description

variable {description : Description} {parameters : StaticParameters} {quality : Quality}
  {tier : Tier} {material : LoweredMaterial}

theorem samples_of_lower (lowered : description.lower parameters quality tier = .ok material) :
    ∃ samples, material.Samples description parameters quality tier samples := by
  obtain ⟨⟨text, progress⟩, ran, ended⟩ := bind_eq_ok.mp lowered
  cases ended
  obtain ⟨codes, emits, rfl⟩ := Lowering.emitOutputs_eq_ok.mp ran
  obtain ⟨drawn, rfl, records⟩ := emits.records
  have start := Lowering.tidy_empty description.graph fun _ => True
  obtain ⟨places, _, _, renders⟩ := records.gathers [] start
  have kept := records.kept [] [] start Lowering.Progress.kept_empty
  exact ⟨_, ⟨progress.gatheredAt places, drawn, rfl, rfl, rfl, renders _ (.refl _)⟩,
    kept.allotted, kept.slots⟩

theorem slotted_of_lower (lowered : description.lower parameters quality tier = .ok material) :
    ∃ samples, material.Samples description parameters quality tier samples ∧
      material.Slotted samples := by
  obtain ⟨samples, written⟩ := samples_of_lower lowered
  have agreeing := written.allotted.agreeing_iff
  exact ⟨samples, written, agreeing, written.filledLayers_eq_iff.trans agreeing,
    Lowering.not_comesBack_of_few⟩

/-- Nine textures that are read at the same coordinates, each of them once, have nine layers. -/
theorem layered_slotted : ∃ material, layered.lower .empty .high .desktop = .ok material ∧
    material.filledLayers = 9 ∧ ∃ samples,
      material.Samples layered .empty .high .desktop samples ∧ material.Slotted samples := by
  have layers : (layered.lower .empty .high .desktop).map LoweredMaterial.filledLayers = .ok 9 := by
    decide +kernel
  obtain ⟨material, lowered, layers⟩ := map_eq_ok.mp layers
  exact ⟨material, lowered, layers, slotted_of_lower lowered⟩

/-- The sum of nine textures that are read at the same coordinates, with the first one added once
more. -/
def recurring : Description where
  name := "Recurring"
  graph := {
    nodes := (List.range 9).map (fun number =>
        .textureSample none ⟨UInt32.ofNat number⟩ .streaming none) ++
      [(0, 1), (9, 2), (10, 3), (11, 4), (12, 5), (13, 6), (14, 7), (15, 8), (16, 0)].map
        fun (left, right) => .math .add [⟨left⟩, ⟨right⟩]
    output := fun property => if property = .baseColor then some ⟨17⟩ else none }

/-- What is written for it. -/
def recurringSource : String :=
  "// Recurring [Desktop / High]\n" ++
    "// domain=Surface blend=Opaque usage=[STATIC_MESH] two_sided=false\n" ++
    "BaseColor = (((((((((SampleStack(Stack[0], 0, TexCoord0) + " ++
    "SampleStack(Stack[0], 1, TexCoord0)) + SampleStack(Stack[0], 2, TexCoord0)) + " ++
    "SampleStack(Stack[0], 3, TexCoord0)) + SampleStack(Stack[0], 4, TexCoord0)) + " ++
    "SampleStack(Stack[0], 5, TexCoord0)) + SampleStack(Stack[0], 6, TexCoord0)) + " ++
    "SampleStack(Stack[0], 7, TexCoord0)) + SampleStack(Stack[1], 0, TexCoord0)) + " ++
    "SampleStack(Stack[1], 1, TexCoord0));\n"

/-- Only nine textures are there to be sampled. -/
theorem card_subjects_recurring {samples : List Lowering.Sample}
    (written : material.Samples recurring .empty .high .desktop samples) :
    (samples.map Lowering.Sample.subject).toFinset.card ≤ 9 := by
  have among : (samples.map Lowering.Sample.subject).toFinset ⊆
      (Finset.range 9).image fun number =>
        (none, ⟨none, ⟨UInt32.ofNat number⟩, .streaming⟩) := by
    intro subject member
    obtain ⟨sample, inside, rfl⟩ := List.mem_map.mp (List.mem_toFinset.mp member)
    obtain ⟨input, parameter, texture, ⟨id, _, there⟩, same⟩ := written.sampled sample inside
    rcases List.mem_append.mp (List.mem_of_getElem? there) with texture | sum
    · obtain ⟨number, below, node⟩ := List.mem_map.mp texture
      injection node with unnamed texture _ place
      refine Finset.mem_image.mpr ⟨number, Finset.mem_range.mpr (List.mem_range.mp below), ?_⟩
      rw [Lowering.Sample.subject, same, ← unnamed, ← texture, ← place]
    · obtain ⟨_, _, node⟩ := List.mem_map.mp sum
      cases node
  exact (Finset.card_le_card among).trans Finset.card_image_le

/-- The last sample does not find the texture any more that the first one has put on a stack. So
there are ten layers for nine textures. -/
theorem recurring_not_agreeing : ∃ material samples,
    recurring.lower .empty .high .desktop = .ok material ∧
      material.source = recurringSource ∧
      material.Samples recurring .empty .high .desktop samples ∧ ¬Lowering.Agreeing samples ∧
      material.filledLayers = 10 ∧ (samples.map Lowering.Sample.subject).toFinset.card ≤ 9 := by
  have lowers : (recurring.lower .empty .high .desktop).map (fun material =>
      (material.source, material.filledLayers)) = .ok (recurringSource, 10) := by
    decide +kernel
  obtain ⟨material, lowered, entries⟩ := map_eq_ok.mp lowers
  obtain ⟨source, layers⟩ := Prod.mk.inj entries
  obtain ⟨samples, written⟩ := samples_of_lower lowered
  have few := card_subjects_recurring written
  refine ⟨material, samples, lowered, source, written, fun agreeing => ?_, layers, few⟩
  rw [← written.filledLayers_eq_iff, layers] at agreeing
  omega

end Description

end Shading
