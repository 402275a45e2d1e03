/-
What the commands decide. Of the contents of a render world much depends on the
commands alone, and neither on upkeep nor on whether stale caches wait: which
proxies there are and what they are, and which resources are registered and what
maps they have. So it can be read off the commands of a run.

One thing that can be read off is for which tiers resources are used. A proxy
names a resource for each tier, and a resource is registered for one tier. Where
the commands of a run let every proxy name at a tier only resources of that
tier, every world of the run is like that: whatever a proxy names has been named
by a command, and whatever is registered has been registered by one.
-/

import Shading.Proofs.Render.Casting
import Shading.Proofs.Render.Runs

namespace Shading

/-- The resources that are registered. -/
abbrev Stock := ResourceId → Option RenderMaterial

namespace RenderCommand

/-- What a command makes of the stock. -/
def restock (stock : Stock) : RenderCommand → Stock
  | .registerMaterial resource info => Function.update stock resource (some { info })
  | .setMap resource map =>
    Function.update stock resource ((stock resource).map fun material => { material with map })
  | .releaseMaterial resource => Function.update stock resource none
  | _ => stock

end RenderCommand

namespace World

variable {world next : World}

def stock (world : World) : Stock := world.materials.get?

theorem mapOf_eq (world : World) (resource : ResourceId) :
    world.mapOf resource = (world.stock resource).bind RenderMaterial.map := rfl

theorem Rests.stock (rests : Rests world next) : next.stock = world.stock := by
  unfold World.stock
  rw [rests.materials]

theorem stock_set {resource : ResourceId} {material : Option RenderMaterial}
    (written : next.materials = world.materials.set resource material) :
    next.stock = Function.update world.stock resource material := by
  funext other
  unfold stock
  rw [written, Table.get?_set, Function.update_apply]

theorem stock_exchangeMap {resource : ResourceId} {material : RenderMaterial}
    {map : Option SharedMap} (found : world.materials.get? resource = some material)
    (ran : world.exchangeMap resource material map = .ok next) :
    next.stock = RenderCommand.restock world.stock (.setMap resource map) := by
  have placed : (world.placeMap resource material map).materials =
    world.materials.set resource (some { material with map }) := rfl
  have kept : Rests (world.placeMap resource material map) next :=
    Rests.invalidateDependents ⟨rfl, rfl⟩ ran
  have there : world.stock resource = some material := found
  rw [kept.stock, stock_set placed, RenderCommand.restock, there]
  rfl

theorem stock_setMap {resource : ResourceId} {map : Option SharedMap}
    (ran : world.setMap resource map = .ok next) :
    next.stock = RenderCommand.restock world.stock (.setMap resource map) := by
  obtain ⟨missing, rfl⟩ | ⟨material, found, -, ran⟩ := setMap_cases ran
  · have nothing : next.stock resource = none := missing
    refine (Function.update_eq_self_iff.mpr ?_).symm
    rw [nothing]
    rfl
  · exact stock_exchangeMap found ran

theorem stock_releaseMaterial {resource : ResourceId}
    (ran : world.releaseMaterial resource = .ok next) :
    next.stock = RenderCommand.restock world.stock (.releaseMaterial resource) := by
  obtain ⟨missing, rfl⟩ | ⟨material, left, -, invalidated, rfl⟩ := releaseMaterial_cases ran
  · exact (Function.update_eq_self_iff.mpr missing.symm).symm
  · have withdrawn : (world.withdraw resource).materials = world.materials.set resource none := rfl
    have kept : Rests (world.withdraw resource) left :=
      Rests.invalidateDependents ⟨rfl, rfl⟩ invalidated
    exact kept.stock.trans (stock_set withdrawn)

/-- What every command makes of the resources. -/
theorem stock_of_apply {command : RenderCommand} (ran : world.apply command = .ok next) :
    next.stock = command.restock world.stock := by
  unfold World.apply at ran
  generalize counted : world.count _ = before at ran
  have same : before.stock = world.stock := by rw [← counted]; rfl
  rw [← same]
  cases command with
  | registerMaterial resource info =>
    cases ran
    have written : (before.registerMaterial resource info).materials =
      before.materials.set resource (some { info }) := rfl
    exact stock_set written
  | setMap => exact stock_setMap ran
  | releaseMaterial => exact stock_releaseMaterial ran
  | createProxy proxy kind =>
    exact (Rests.lasting.markStale ⟨attach_materials .., attach_bindings ..⟩ ran).stock
  | setMaterials => exact (Rests.setMaterials ran).stock
  | setParameter => exact (Rests.setParameter ran).stock
  | clearParameter => exact (Rests.setParameter ran).stock
  | recache => exact (Rests.invalidate ⟨rfl, rfl⟩ ran).stock
  | removeProxy => exact (Rests.removeProxy ran).stock
  | destroyProducer => exact (Rests.destroyProducer ran).stock
  | setDefault | createProducer | materialsUpdated | fence =>
    cases ran
    rfl

end World

/-! ### Whole runs -/

namespace Operation

def command? : Operation → Option RenderCommand
  | .perform command => some command
  | _ => none

/-- The commands among the operations, in order. -/
def commandsOf (past : List Operation) : List RenderCommand := past.filterMap command?

theorem commandsOf_append (past later : List Operation) :
    commandsOf (past ++ later) = commandsOf past ++ commandsOf later :=
  List.filterMap_append

/-- What is no command leaves alone what upkeep leaves alone. -/
theorem carryOut_kept {holds : World → Prop} (lasting : World.Lasting holds) {operation : Operation}
    {world next : World} (announced : ∀ resource, holds world →
      holds (world.onBinding resource Binding.beginPublish))
    (invalidated : ∀ proxy recreate, holds world →
      world.invalidate recreate proxy = .ok next → holds next)
    (upkeep : operation.command? = none) (before : holds world)
    (ran : operation.carryOut world = .ok next) : holds next := by
  cases operation with
  | perform command => cases upkeep
  | announce resource =>
    cases ran
    exact announced resource before
  | updateDeferred =>
    obtain ⟨⟨count, world⟩, updated, rfl⟩ := map_eq_ok.mp ran
    exact lasting.updateDeferred before updated
  | updateIfNeeded => exact lasting.updateIfNeeded before ran
  | evaluate =>
    obtain ⟨⟨built, world⟩, evaluated, rfl⟩ := map_eq_ok.mp ran
    exact lasting.evaluate before evaluated
  | prepareDraw =>
    obtain ⟨⟨drawn, world⟩, prepared, rfl⟩ := map_eq_ok.mp ran
    exact lasting.prepareDraw before prepared
  | invalidate proxy recreate => exact invalidated proxy recreate before ran

end Operation

namespace Run

variable {deferring : Bool} {activeTiers : List Tier} {past : List Operation} {world : World}

/-- What the commands decide, and upkeep leaves alone, is decided by the commands of a run. -/
theorem decided (run : Run deferring activeTiers past world) {α : Type} {content : World → α}
    {change : α → RenderCommand → α} {initial : α}
    (started : content { deferring, activeTiers } = initial)
    (applied : ∀ world command next, World.apply world command = .ok next →
      content next = change (content world) command)
    (lasting : ∀ value, World.Lasting fun world => content world = value)
    (announced : ∀ world resource,
      content (world.onBinding resource Binding.beginPublish) = content world)
    (invalidated : ∀ world proxy recreate next, world.invalidate recreate proxy = .ok next →
      content next = content world) :
    content world = (Operation.commandsOf past).foldl change initial := by
  induction run with
  | start => exact started
  | @step past world operation next _ _ ran inductionHypothesis =>
    rw [Operation.commandsOf_append, List.foldl_append, ← inductionHypothesis]
    cases kind : operation.command? with
    | some command =>
      have same : operation = .perform command := by
        cases operation with
        | perform => exact congrArg Operation.perform (Option.some.inj kind)
        | _ => cases kind
      subst same
      exact applied world command next ran
    | none =>
      have nothing : Operation.commandsOf [operation] = [] := by
        unfold Operation.commandsOf
        rw [List.filterMap_cons_none kind, List.filterMap_nil]
      rw [nothing]
      exact Operation.carryOut_kept (lasting (content world))
        (fun resource _ => announced world resource)
        (fun proxy recreate _ ran => invalidated world proxy recreate next ran) kind rfl ran

theorem cast_eq (run : Run deferring activeTiers past world) :
    world.cast = (Operation.commandsOf past).foldl RenderCommand.recast (World.cast {}) :=
  run.decided rfl (fun _ _ _ => World.cast_of_apply) World.lasting_cast (fun _ _ => rfl)
    fun _ _ _ _ => World.cast_invalidate

theorem stock_eq (run : Run deferring activeTiers past world) :
    world.stock = (Operation.commandsOf past).foldl RenderCommand.restock (World.stock {}) := by
  refine run.decided rfl (fun _ _ _ => World.stock_of_apply) (fun value => ?_) (fun _ _ => rfl)
    fun _ _ _ _ ran => (World.Rests.invalidate ⟨rfl, rfl⟩ ran).stock
  refine ⟨⟨fun world _ _ _ _ _ same _ _ _ => ?_⟩, fun _ _ same => same⟩
  unfold World.stock
  rw [World.install_materials]
  exact same

end Run

/-! ### Resources for tiers -/

/-- What holds of what commands lead to has been brought about by one of them. -/
theorem foldl_brought {State Fact Step : Type} (holds : State → Fact → Prop)
    (initial : State) (step : State → Step → State) (brings : Step → List Fact)
    (nothing : ∀ fact, ¬ holds initial fact)
    (each : ∀ state command fact, holds (step state command) fact →
      fact ∈ brings command ∨ holds state fact)
    (commands : List Step) (fact : Fact) (after : holds (commands.foldl step initial) fact) :
    fact ∈ commands.flatMap brings := by
  induction commands using List.reverseRecOn with
  | nil => exact absurd after (nothing fact)
  | append_singleton before last inductionHypothesis =>
    rw [List.foldl_append] at after
    rw [List.flatMap_append, List.flatMap_singleton]
    rcases each _ last fact after with brought | earlier
    · exact List.mem_append_right _ brought
    · exact List.mem_append_left _ (inductionHypothesis earlier)

namespace RenderCommand

/-! ### What commands say of tiers -/

def listed (materials : Materials) : List (ResourceId × Tier) :=
  materials.entries.filterMap fun entry => entry.2.map fun resource => (resource, entry.1)

theorem mem_listed {materials : Materials} {tier : Tier} {resource : ResourceId}
    (named : materials.get tier = some resource) : (resource, tier) ∈ listed materials := by
  refine List.mem_filterMap.mpr ⟨(tier, some resource), ?_, rfl⟩
  rw [← named]
  cases tier <;> simp [PerTier.entries, PerTier.get]

/-- The resources that a proxy names from a command on, each with the tier it is named at. -/
def names : RenderCommand → List (ResourceId × Tier)
  | .createProxy _ kind => (kind.materials?.map listed).getD []
  | .setMaterials _ materials => listed materials
  | _ => []

/-- The resource that a command registers, with its tier. -/
def registers : RenderCommand → List (ResourceId × Tier)
  | .registerMaterial resource info => [(resource, info.tier)]
  | _ => []

/-- No proxy ever names at a tier a resource that is registered for another tier. -/
def Leveled (commands : List RenderCommand) : Prop :=
  ∀ named ∈ commands.flatMap names, ∀ registered ∈ commands.flatMap registers,
    named.1 = registered.1 → named.2 = registered.2

instance (commands : List RenderCommand) : Decidable (Leveled commands) :=
  inferInstanceAs (Decidable (∀ named ∈ _, ∀ registered ∈ _, _ → _))

theorem Leveled.before {commands later : List RenderCommand}
    (leveled : Leveled (commands ++ later)) : Leveled commands := by
  unfold Leveled at leveled
  rw [List.flatMap_append, List.flatMap_append] at leveled
  exact fun named member registered registration =>
    leveled named (List.mem_append_left _ member) registered (List.mem_append_left _ registration)

/-! ### Where it comes from -/

/-- After a change every proxy is as it was or changed. -/
theorem former_of_change {cast : Cast} {proxy its : ProxyId} {owner : RenderProxy}
    {change : RenderProxy → RenderProxy}
    (found : (cast.change its change).proxies proxy = some owner) :
    ∃ former, cast.proxies proxy = some former ∧ (owner = former ∨ owner = change former) := by
  unfold Cast.change at found
  rw [Cast.proxies_write] at found
  split at found
  · rename_i same
    obtain ⟨former, there, rfl⟩ := Option.map_eq_some_iff.mp found
    exact ⟨former, same ▸ there, .inr rfl⟩
  · exact ⟨owner, found, .inl rfl⟩

theorem recast_named {command : RenderCommand} {cast : Cast} {fact : ResourceId × Tier}
    (after : ∃ proxy owner, (command.recast cast).proxies proxy = some owner ∧
      owner.kind.own? fact.2 = some fact.1) :
    fact ∈ command.names ∨ ∃ proxy owner, cast.proxies proxy = some owner ∧
      owner.kind.own? fact.2 = some fact.1 := by
  obtain ⟨proxy, owner, found, named⟩ := after
  cases command with
  | createProxy its kind =>
    rw [recast, Cast.proxies_write] at found
    split at found
    · cases found
      obtain ⟨materials, own, named⟩ := Option.bind_eq_some_iff.mp named
      refine .inl ?_
      rw [names, own]
      exact mem_listed named
    · exact .inr ⟨proxy, owner, found, named⟩
  | setMaterials its materials =>
    obtain ⟨former, there, rfl | rfl⟩ := former_of_change found
    · exact .inr ⟨proxy, owner, there, named⟩
    · obtain ⟨own, same, named⟩ := Option.bind_eq_some_iff.mp named
      refine .inl (mem_listed ?_)
      have given : own = materials := by
        cases kind : former.kind with
        | material | derived =>
          rw [kind] at same
          exact (Option.some.inj same).symm
        | _ =>
          rw [kind] at same
          cases same
      exact given ▸ named
  | setParameter | clearParameter =>
    obtain ⟨former, there, same⟩ := former_of_change found
    have kind : owner.kind = former.kind := by rcases same with rfl | rfl <;> rfl
    exact .inr ⟨proxy, former, there, kind ▸ named⟩
  | removeProxy its =>
    have kept : (cast.write its none).proxies proxy = some owner := found
    rw [Cast.proxies_write] at kept
    split at kept
    · cases kept
    · exact .inr ⟨proxy, owner, kept, named⟩
  | _ => exact .inr ⟨proxy, owner, found, named⟩

theorem restock_registered {command : RenderCommand} {stock : Stock} {fact : ResourceId × Tier}
    (after : ∃ material, command.restock stock fact.1 = some material ∧
      material.info.tier = fact.2) :
    fact ∈ command.registers ∨ ∃ material, stock fact.1 = some material ∧
      material.info.tier = fact.2 := by
  obtain ⟨material, found, tier⟩ := after
  cases command with
  | registerMaterial resource info =>
    rw [restock, Function.update_apply] at found
    split at found
    · rename_i same
      cases found
      exact .inl (List.mem_singleton.mpr (Prod.ext same tier.symm))
    · exact .inr ⟨material, found, tier⟩
  | setMap resource map =>
    rw [restock, Function.update_apply] at found
    split at found
    · rename_i same
      obtain ⟨former, there, rfl⟩ := Option.map_eq_some_iff.mp found
      exact .inr ⟨former, same ▸ there, tier⟩
    · exact .inr ⟨material, found, tier⟩
  | releaseMaterial resource =>
    rw [restock, Function.update_apply] at found
    split at found
    · cases found
    · exact .inr ⟨material, found, tier⟩
  | _ => exact .inr ⟨material, found, tier⟩

end RenderCommand

/-! ### Worlds -/

/-- Every proxy names at a tier only resources of that tier, as far as they are registered. -/
def World.Leveled (world : World) : Prop :=
  ∀ proxy kind tier resource material, world.proxies.kinds proxy = some kind →
    kind.own? tier = some resource → world.materials.get? resource = some material →
    material.info.tier = tier

theorem Run.leveled {deferring : Bool} {activeTiers : List Tier} {past : List Operation}
    {world : World} (run : Run deferring activeTiers past world)
    (leveled : RenderCommand.Leveled (Operation.commandsOf past)) : world.Leveled := by
  intro proxy kind tier resource material found named registered
  obtain ⟨owner, live, rfl⟩ := Proxies.kinds_eq_some.mp found
  have cast : world.cast.proxies proxy = some owner.bare :=
    congrArg (Option.map RenderProxy.bare) live
  have stock : world.stock resource = some material := registered
  rw [run.cast_eq] at cast
  rw [run.stock_eq] at stock
  have naming := foldl_brought
    (fun (cast : Cast) (fact : ResourceId × Tier) => ∃ proxy owner,
      cast.proxies proxy = some owner ∧ owner.kind.own? fact.2 = some fact.1)
    (World.cast {}) RenderCommand.recast RenderCommand.names
    (fun _ ⟨_, owner, found, _⟩ => Option.some_ne_none owner found.symm)
    (fun _ _ _ => RenderCommand.recast_named) _ (resource, tier) ⟨proxy, owner.bare, cast, named⟩
  have registering := foldl_brought
    (fun (stock : Stock) (fact : ResourceId × Tier) => ∃ material,
      stock fact.1 = some material ∧ material.info.tier = fact.2)
    (World.stock {}) RenderCommand.restock RenderCommand.registers
    (fun _ ⟨material, found, _⟩ => Option.some_ne_none material found.symm)
    (fun _ _ _ => RenderCommand.restock_registered) _ (resource, material.info.tier) ⟨material, stock, rfl⟩
  exact (leveled _ naming _ registering rfl).symm

end Shading
