/-
How far up a chain of proxies answers come from. Parameters and materials are
both taken from the nearest proxy that has one. A material is looked for to the
end of the chain, wherever that is. A parameter is looked for among the first
proxies of the chain only, up to a fixed number of them: a longer chain is taken
for one that goes around in circles, and what lies beyond is not asked. So
whoever provides the material of a proxy is also asked for its parameters as
long as it is one of the first.
-/

import Shading.Proofs.Render.Runs

namespace Shading

namespace Proxies

variable {α : Type} {proxies : Proxies} {answer : RenderProxy → Option α} {id : ProxyId}
  {owner : RenderProxy} {steps links : Nat} {value : α}

/-! ### Ancestors -/

/-- The proxy a number of steps up a chain, unless the chain ends before. -/
def ancestor? (proxies : Proxies) : Nat → ProxyId → Option RenderProxy
  | 0, id => Table.get? proxies id
  | steps + 1, id =>
    ((Table.get? proxies id).bind fun owner => owner.kind.parent?).bind
      (ancestor? proxies steps)

/-- A proxy some steps up a chain has an answer, and none before it has. -/
structure Nearest (proxies : Proxies) (answer : RenderProxy → Option α) (id : ProxyId)
    (steps : Nat) (value : α) : Prop where
  answers : ∃ owner, proxies.ancestor? steps id = some owner ∧ answer owner = some value
  first : ∀ fewer < steps, ∀ owner, proxies.ancestor? fewer id = some owner → answer owner = none

/-- The result is the answer of the nearest one among the first proxies of a chain, and it is
missing only if none of these answers. -/
structure Answers (proxies : Proxies) (links : Nat) (id : ProxyId)
    (answer : RenderProxy → Option α) (result : Option α) : Prop where
  given : ∀ value, result = some value ↔ ∃ steps < links, proxies.Nearest answer id steps value
  missing : result = none ↔
    ∀ steps < links, ∀ owner, proxies.ancestor? steps id = some owner → answer owner = none

theorem ancestor?_succ (found : Table.get? proxies id = some owner) :
    proxies.ancestor? (steps + 1) id = owner.kind.parent?.bind (proxies.ancestor? steps) := by
  rw [ancestor?, found, Option.bind_some]

theorem ancestor?_eq_none (missing : Table.get? proxies id = none) :
    proxies.ancestor? steps id = none := by
  cases steps with
  | zero => exact missing
  | succ steps => rw [ancestor?, missing, Option.bind_none, Option.bind_none]

theorem nearest_zero (found : Table.get? proxies id = some owner) :
    proxies.Nearest answer id 0 value ↔ answer owner = some value := by
  constructor
  · rintro ⟨⟨other, there, answers⟩, _⟩
    cases found.symm.trans there
    exact answers
  · exact fun answers => ⟨⟨owner, found, answers⟩, fun _ less => absurd less (Nat.not_lt_zero _)⟩

/-- Further up a proxy is the nearest one if the first one does not answer and it is the nearest
one for the parent. -/
theorem nearest_succ (found : Table.get? proxies id = some owner) :
    proxies.Nearest answer id (steps + 1) value ↔ answer owner = none ∧
      ∃ parent, owner.kind.parent? = some parent ∧ proxies.Nearest answer parent steps value := by
  constructor
  · rintro ⟨⟨other, there, answers⟩, first⟩
    rw [ancestor?_succ found] at there
    obtain ⟨parent, hangs, there⟩ := Option.bind_eq_some_iff.mp there
    refine ⟨first 0 (Nat.succ_pos _) owner found, parent, hangs, ⟨other, there, answers⟩,
      fun fewer less nearer met => first (fewer + 1) (Nat.succ_lt_succ less) nearer ?_⟩
    rw [ancestor?_succ found, hangs]
    exact met
  · rintro ⟨silent, parent, hangs, ⟨other, there, answers⟩, first⟩
    refine ⟨⟨other, ?_, answers⟩, fun fewer less nearer met => ?_⟩
    · rw [ancestor?_succ found, hangs]
      exact there
    · cases fewer with
      | zero =>
        cases found.symm.trans met
        exact silent
      | succ fewer =>
        rw [ancestor?_succ found, hangs] at met
        exact first fewer (Nat.lt_of_succ_lt_succ less) nearer met

theorem Nearest.found (nearest : proxies.Nearest answer id steps value) :
    ∃ owner, Table.get? proxies id = some owner := by
  obtain ⟨⟨other, there, _⟩, _⟩ := nearest
  refine Option.ne_none_iff_exists'.mp fun missing => ?_
  rw [ancestor?_eq_none missing] at there
  cases there

/-- The nearest one can be found by asking one after the other. -/
theorem nearest_iff : proxies.Nearest answer id steps value ↔
    (proxies.ancestor? steps id).bind answer = some value ∧
      ∀ fewer < steps, (proxies.ancestor? fewer id).bind answer = none := by
  constructor
  · rintro ⟨answers, first⟩
    exact ⟨Option.bind_eq_some_iff.mpr answers,
      fun fewer less => Option.bind_eq_none_iff.mpr (first fewer less)⟩
  · rintro ⟨answers, first⟩
    exact ⟨Option.bind_eq_some_iff.mp answers,
      fun fewer less => Option.bind_eq_none_iff.mp (first fewer less)⟩

instance [DecidableEq α] : Decidable (proxies.Nearest answer id steps value) :=
  decidable_of_iff' _ nearest_iff

/-! ### Looking up a parameter -/

/-- What is looked at are the ancestors of a proxy up to a number of them. -/
theorem getElem?_chain (links steps : Nat) (id : ProxyId) :
    (proxies.chain links (some id))[steps]? =
      if steps < links then proxies.ancestor? steps id else none := by
  induction links generalizing steps id with
  | zero => rfl
  | succ links inductionHypothesis =>
    rw [chain]
    cases found : Table.get? proxies id with
    | none => simp [ancestor?_eq_none found]
    | some owner =>
      dsimp only
      cases steps with
      | zero => rw [List.getElem?_cons_zero, if_pos (Nat.succ_pos _), ancestor?, found]
      | succ steps =>
        rw [List.getElem?_cons_succ, ancestor?_succ found]
        cases owner.kind.parent? with
        | none => cases links <;> simp [chain]
        | some parent =>
          rw [inductionHypothesis, Option.bind_some]
          simp only [Nat.succ_lt_succ_iff]

theorem findSome?_chain (links : Nat) (id : ProxyId) :
    (proxies.chain links (some id)).findSome? answer = some value ↔
      ∃ steps < links, proxies.Nearest answer id steps value := by
  -- Up the chain: the nearest one is the proxy itself, or else it is the nearest for its parent.
  induction links generalizing id with
  | zero => simp [chain]
  | succ links inductionHypothesis =>
    rw [chain]
    cases found : Table.get? proxies id with
    | none =>
      constructor
      · intro nothing
        cases nothing
      · rintro ⟨steps, _, nearest⟩
        obtain ⟨owner, there⟩ := nearest.found
        cases found.symm.trans there
    | some owner =>
      dsimp only
      rw [List.findSome?_cons]
      cases here : answer owner with
      | some own =>
        constructor
        · exact fun same => ⟨0, Nat.succ_pos _, (nearest_zero found).mpr (here.trans same)⟩
        · rintro ⟨steps, _, nearest⟩
          cases steps with
          | zero => exact here.symm.trans ((nearest_zero found).mp nearest)
          | succ steps => cases here.symm.trans ((nearest_succ found).mp nearest).1
      | none =>
        dsimp only
        constructor
        · intro further
          cases hangs : owner.kind.parent? with
          | none =>
            rw [hangs] at further
            cases links <;> cases further
          | some parent =>
            rw [hangs] at further
            obtain ⟨steps, less, nearest⟩ := (inductionHypothesis parent).mp further
            exact ⟨steps + 1, Nat.succ_lt_succ less,
              (nearest_succ found).mpr ⟨here, parent, hangs, nearest⟩⟩
        · rintro ⟨steps, less, nearest⟩
          cases steps with
          | zero => cases here.symm.trans ((nearest_zero found).mp nearest)
          | succ steps =>
            obtain ⟨_, parent, hangs, nearest⟩ := (nearest_succ found).mp nearest
            rw [hangs]
            exact (inductionHypothesis parent).mpr ⟨steps, Nat.lt_of_succ_lt_succ less, nearest⟩

theorem answers_chain (links : Nat) (id : ProxyId) (answer : RenderProxy → Option α) :
    proxies.Answers links id answer ((proxies.chain links (some id)).findSome? answer) where
  given := fun _ => findSome?_chain links id
  missing := by
    rw [List.findSome?_eq_none_iff]
    constructor
    · intro silent steps less owner there
      refine silent owner (List.mem_iff_getElem?.mpr ⟨steps, ?_⟩)
      rw [getElem?_chain, if_pos less, there]
    · intro silent owner member
      obtain ⟨steps, there⟩ := List.mem_iff_getElem?.mp member
      rw [getElem?_chain] at there
      split at there
      · rename_i less
        exact silent steps less owner there
      · cases there

/-! ### Looking up a material -/

/-- A proxy draws with the resource of the nearest proxy that has one, however far up that is. -/
theorem draws_iff_nearest {tier : Tier} {resource : ResourceId} :
    proxies.kinds.Draws tier id resource ↔
      ∃ steps, proxies.Nearest (fun owner => owner.kind.own? tier) id steps resource := by
  constructor
  · intro draws
    induction draws with
    | own found owned =>
      obtain ⟨owner, there, rfl⟩ := kinds_eq_some.mp found
      exact ⟨0, (nearest_zero there).mpr owned⟩
    | inherited found silent hangs _ inductionHypothesis =>
      obtain ⟨owner, there, rfl⟩ := kinds_eq_some.mp found
      obtain ⟨steps, nearest⟩ := inductionHypothesis
      exact ⟨steps + 1, (nearest_succ there).mpr ⟨silent, _, hangs, nearest⟩⟩
  · rintro ⟨steps, nearest⟩
    induction steps generalizing id with
    | zero =>
      obtain ⟨owner, found⟩ := nearest.found
      exact .own (kinds_eq_some.mpr ⟨owner, found, rfl⟩) ((nearest_zero found).mp nearest)
    | succ steps inductionHypothesis =>
      obtain ⟨owner, found⟩ := nearest.found
      obtain ⟨silent, parent, hangs, nearest⟩ := (nearest_succ found).mp nearest
      exact .inherited (kinds_eq_some.mpr ⟨owner, found, rfl⟩) silent hangs
        (inductionHypothesis nearest)

end Proxies

namespace RenderProxy

/-! ### The answers of one proxy -/

theorem ownScalar_iff (owner : RenderProxy) (name : String) (value : Binary32) :
    owner.ownScalar name = some value ↔ owner.overrides.get? name = some (.scalar value) := by
  unfold ownScalar
  split <;> simp_all

/-- What the kind of a proxy fixes comes before what has been set on the proxy. -/
theorem ownVector_iff (owner : RenderProxy) (name : String) (value : Vector4) :
    owner.ownVector name = some value ↔ fixedVector owner.kind name = some value ∨
      (fixedVector owner.kind name = none ∧
        owner.overrides.get? name = some (.vector value)) := by
  unfold ownVector
  split <;> simp_all

theorem ownTexture_iff (owner : RenderProxy) (name : String) (value : TextureId) :
    owner.ownTexture name = some value ↔ fixedTexture owner.kind name = some value ∨
      (fixedTexture owner.kind name = none ∧
        owner.overrides.get? name = some (.texture value)) := by
  unfold ownTexture
  split <;> simp_all

end RenderProxy

namespace World

/-- A parameter is answered by the nearest one that answers it among the first proxies of a chain,
what is fixed before what has been set, and it is missing only if none of these answers. The
resource is that of the nearest proxy of the whole chain that has one for the tier. The proxy it is
taken from is one of those that are asked for parameters if and only if it is among the first. -/
theorem parameters_nearest {world : World} {rank : ProxyId → Nat}
    (ranked : world.proxies.kinds.Ranked rank) (proxy : ProxyId) :
    (∀ name,
      world.proxies.Answers Proxies.maxChain proxy (fun owner => owner.ownScalar name)
        ((world.proxies.parameters proxy).scalar name) ∧
      world.proxies.Answers Proxies.maxChain proxy (fun owner => owner.ownVector name)
        ((world.proxies.parameters proxy).vector name) ∧
      world.proxies.Answers Proxies.maxChain proxy (fun owner => owner.ownTexture name)
        ((world.proxies.parameters proxy).texture name)) ∧
    (∀ (owner : RenderProxy) name,
      (∀ value, owner.ownScalar name = some value ↔
        owner.overrides.get? name = some (.scalar value)) ∧
      (∀ value, owner.ownVector name = some value ↔
        RenderProxy.fixedVector owner.kind name = some value ∨
          (RenderProxy.fixedVector owner.kind name = none ∧
            owner.overrides.get? name = some (.vector value))) ∧
      ∀ value, owner.ownTexture name = some value ↔
        RenderProxy.fixedTexture owner.kind name = some value ∨
          (RenderProxy.fixedTexture owner.kind name = none ∧
            owner.overrides.get? name = some (.texture value))) ∧
    ∀ tier resource,
      (world.resolve proxy tier = some resource ↔ ∃ steps,
        world.proxies.Nearest (fun owner => owner.kind.own? tier) proxy steps resource) ∧
      ∀ steps, world.proxies.Nearest (fun owner => owner.kind.own? tier) proxy steps resource →
        ((world.proxies.chain Proxies.maxChain proxy)[steps]? =
          world.proxies.ancestor? steps proxy ↔ steps < Proxies.maxChain) := by
  refine ⟨fun name =>
      ⟨Proxies.answers_chain .., Proxies.answers_chain .., Proxies.answers_chain ..⟩,
    fun owner name => ⟨owner.ownScalar_iff name, owner.ownVector_iff name,
      owner.ownTexture_iff name⟩,
    fun tier resource => ⟨?_, fun steps nearest => ?_⟩⟩
  · exact (World.resolve_iff ranked proxy tier resource).trans Proxies.draws_iff_nearest
  · obtain ⟨⟨owner, there, _⟩, _⟩ := nearest
    rw [Proxies.getElem?_chain, there]
    split
    · rename_i few
      exact iff_of_true rfl few
    · rename_i many
      exact iff_of_false (Option.some_ne_none owner).symm many

end World

namespace Run

/-- A proxy with a material, one on it that fixes a color, and as many more as asked for, each on
the one before. -/
def lineage (length : Nat) : List Operation :=
  [.perform (.registerMaterial .first { name := "Plain", tier := .desktop, quality := .high }),
    .perform (.createProxy ⟨1⟩ (.material ((PerTier.fill none).set .desktop (some .first)))),
    .perform (.createProxy ⟨2⟩ (.colored ⟨1⟩ "Tint" (.splat .one)))] ++
  (List.range length).map fun number =>
    .perform (.createProxy ⟨number + 3⟩ (.derived ⟨number + 2⟩ (.fill none)))

/-- Where the chain is short enough the last proxy has the color. -/
theorem lineage_answered : ∃ world, Run true [.desktop] (lineage 2) world ∧
    (world.proxies.parameters ⟨4⟩).vector "Tint" = some (.splat .one) := by
  have built : ((Operation.carryOutAll {} (lineage 2)).toOption.map fun world => decide
      (world.proxies.Nearest (fun owner => owner.ownVector "Tint") ⟨4⟩ 2 (.splat .one))) =
      some true := by
    decide +kernel
  obtain ⟨world, ran, built⟩ := Option.map_eq_some_iff.mp built
  have run : Run true [.desktop] (lineage 2) world :=
    Run.start.continued (by decide) (toOption_eq_some.mp ran)
  have answers := ((World.parameters_nearest run.sound.arranged.ranked ⟨4⟩).1 "Tint").2.1
  exact ⟨world, run, (answers.given _).mpr ⟨2, by decide, of_decide_eq_true built⟩⟩

/-- Where it is longer the color is not found, though the search for a material goes on beyond it
up to the first proxy, which is not asked for parameters either. -/
theorem lineage_unanswered : ∃ world, Run true [.desktop] (lineage 64) world ∧
    world.proxies.Nearest (fun owner => owner.ownVector "Tint") ⟨66⟩ 64 (.splat .one) ∧
    (world.proxies.parameters ⟨66⟩).vector "Tint" = none ∧
    world.resolve ⟨66⟩ .desktop = some .first ∧
    world.proxies.Nearest (fun owner => owner.kind.own? .desktop) ⟨66⟩ 65 .first ∧
    (world.proxies.chain Proxies.maxChain (some ⟨66⟩))[65]? = none := by
  have built : ((Operation.carryOutAll {} (lineage 64)).toOption.map fun world => decide
      (world.proxies.Nearest (fun owner => owner.ownVector "Tint") ⟨66⟩ 64 (.splat .one) ∧
        (world.proxies.parameters ⟨66⟩).vector "Tint" = none ∧
        world.resolve ⟨66⟩ .desktop = some .first ∧
        world.proxies.Nearest (fun owner => owner.kind.own? .desktop) ⟨66⟩ 65 .first ∧
        (world.proxies.chain Proxies.maxChain (some ⟨66⟩))[65]? = none)) = some true := by
    decide +kernel
  obtain ⟨world, ran, built⟩ := Option.map_eq_some_iff.mp built
  have run : Run true [.desktop] (lineage 64) world :=
    Run.start.continued (by decide +kernel) (toOption_eq_some.mp ran)
  exact ⟨world, run, of_decide_eq_true built⟩

end Run

end Shading
