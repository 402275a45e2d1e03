/-
The account that a binding keeps of its resource. One side of it is written when
a map is sent, the other when a command is carried out, and in between the
command waits in the queue. A map that is queued for a resource is only counted
off if the resource is registered by the time the map's turn comes, so the
account is right as long as the queue never brings a map to a resource that is
not there. Then at any time as many maps are on their way as are counted, and
the binding says whether the renderer has a map.
-/

import Shading.Proofs.Render.Settling

namespace Shading

namespace RenderCommand

variable {resource : ResourceId} {command : RenderCommand}

/-- What a command makes of the binding of a resource, which is registered or not. -/
def rebind (resource : ResourceId) (registered : Bool) (binding : Binding) :
    RenderCommand → Binding
  | .registerMaterial other _ =>
    if other = resource then { binding with bound := false } else binding
  | .setMap other map =>
    if other = resource ∧ registered then
      { bound := map.isSome, pending := binding.pending - 1 }
    else binding
  | .releaseMaterial other =>
    if other = resource ∧ registered then { binding with bound := false } else binding
  | _ => binding

/-- Every map in a queue will find its resource registered. -/
def Expected (resource : ResourceId) : Standing → List RenderCommand → Prop
  | _, [] => True
  | standing, command :: rest =>
    (command.sendsTo resource → standing.isSome) ∧
      Expected resource (command.settle resource standing) rest

/-- A binding that says whether there is a map goes on saying so. -/
theorem bound_rebind (command : RenderCommand) {standing : Standing} {binding : Binding}
    (bound : binding.bound = standing.join.isSome) :
    (command.rebind resource standing.isSome binding).bound =
      (command.settle resource standing).join.isSome := by
  cases command with
  | registerMaterial other info =>
    rw [rebind, settle]
    split
    · rfl
    · exact bound
  | setMap other map =>
    rw [rebind, settle]
    cases standing with
    | none =>
      rw [Option.isSome_none, if_neg (mt And.right Bool.false_ne_true), bound]
      split <;> rfl
    | some had =>
      by_cases same : other = resource
      · rw [if_pos ⟨same, rfl⟩, if_pos same]
        cases map <;> rfl
      · rw [if_neg (mt And.left same), if_neg same]
        exact bound
  | releaseMaterial other =>
    rw [rebind, settle]
    cases standing with
    | none =>
      rw [Option.isSome_none, if_neg (mt And.right Bool.false_ne_true), bound]
      split <;> rfl
    | some had =>
      by_cases same : other = resource
      · rw [if_pos ⟨same, rfl⟩, if_pos same]
        rfl
      · rw [if_neg (mt And.left same), if_neg same]
        exact bound
  | _ => exact bound

/-- A map that finds its resource registered is counted off, and nothing else is. -/
theorem pending_rebind (command : RenderCommand) {registered : Bool} {binding : Binding}
    {count : Nat} (expected : command.sendsTo resource → registered)
    (pending : binding.pending = count + (command.sendsTo resource).toNat) :
    (command.rebind resource registered binding).pending = count := by
  cases command with
  | setMap other map =>
    rw [rebind]
    by_cases same : other = resource
    · have sends : RenderCommand.sendsTo resource (.setMap other map) = true :=
        decide_eq_true same
      rw [sends] at pending
      rw [if_pos ⟨same, expected sends⟩]
      exact Nat.sub_eq_of_eq_add pending
    · have silent : RenderCommand.sendsTo resource (.setMap other map) = false :=
        decide_eq_false same
      rw [silent] at pending
      rw [if_neg (mt And.left same)]
      exact pending
  | registerMaterial | releaseMaterial =>
    rw [rebind]
    split <;> exact pending
  | _ => exact pending

theorem expected_concat {standing : Standing} {queue : List RenderCommand} :
    Expected resource standing (queue ++ [command]) ↔
      Expected resource standing queue ∧ (command.sendsTo resource →
        (queue.foldl (fun standing command => command.settle resource standing)
          standing).isSome) := by
  induction queue generalizing standing with
  | nil => exact ⟨fun expected => ⟨trivial, expected.1⟩, fun expected => ⟨expected.2, trivial⟩⟩
  | cons first rest inductionHypothesis =>
    rw [List.cons_append, Expected, Expected, List.foldl_cons, inductionHypothesis, and_assoc]

end RenderCommand

namespace World

variable {world next : World} {resource : ResourceId}

theorem isSome_standing (world : World) (resource : ResourceId) :
    (world.standing resource).isSome = (world.materials.get? resource).isSome :=
  Option.isSome_map

/-! ### What commands do to bindings -/

theorem bindingOf_registerMaterial (world : World) (other resource : ResourceId)
    (info : MaterialInfo) : (world.registerMaterial other info).bindingOf resource =
      RenderCommand.rebind resource (world.standing resource).isSome (world.bindingOf resource)
        (.registerMaterial other info) := by
  refine (bindingOf_onBinding world other resource fun binding =>
    { binding with bound := false }).trans ?_
  rw [RenderCommand.rebind]
  by_cases same : resource = other
  · rw [if_pos same, if_pos same.symm, same]
  · rw [if_neg same, if_neg (Ne.symm same)]

theorem bindingOf_exchangeMap {other : ResourceId} {material : RenderMaterial}
    {map : Option SharedMap} (found : world.materials.get? other = some material)
    (ran : world.exchangeMap other material map = .ok next) (resource : ResourceId) :
    next.bindingOf resource =
      RenderCommand.rebind resource (world.standing resource).isSome (world.bindingOf resource)
        (.setMap other map) := by
  have kept : World.Rests (world.placeMap other material map) next :=
    Rests.invalidateDependents ⟨rfl, rfl⟩ ran
  rw [kept.bindingOf, bindingOf_placeMap, RenderCommand.rebind]
  by_cases same : resource = other
  · have registered : (world.standing resource).isSome := by
      rw [isSome_standing, same, found]
      rfl
    rw [if_pos same, if_pos ⟨same.symm, registered⟩, same]
  · rw [if_neg same, if_neg (mt (fun both => both.1.symm) same)]

theorem bindingOf_setMap {other : ResourceId} {map : Option SharedMap}
    (ran : world.setMap other map = .ok next) (resource : ResourceId) :
    next.bindingOf resource =
      RenderCommand.rebind resource (world.standing resource).isSome (world.bindingOf resource)
        (.setMap other map) := by
  obtain ⟨missing, rfl⟩ | ⟨material, found, -, ran⟩ := setMap_cases ran
  · rw [RenderCommand.rebind, if_neg]
    rintro ⟨rfl, registered⟩
    rw [isSome_standing, missing] at registered
    cases registered
  · exact bindingOf_exchangeMap found ran resource

theorem bindingOf_withdraw (world : World) (other resource : ResourceId) :
    (world.withdraw other).bindingOf resource =
      if resource = other then { world.bindingOf other with bound := false }
      else world.bindingOf resource :=
  bindingOf_onBinding { world with materials := world.materials.erase other } other resource
    fun binding => { binding with bound := false }

theorem bindingOf_releaseMaterial {other : ResourceId}
    (ran : world.releaseMaterial other = .ok next) (resource : ResourceId) :
    next.bindingOf resource =
      RenderCommand.rebind resource (world.standing resource).isSome (world.bindingOf resource)
        (.releaseMaterial other) := by
  obtain ⟨missing, rfl⟩ | ⟨material, left, found, invalidated, rfl⟩ := releaseMaterial_cases ran
  · rw [RenderCommand.rebind, if_neg]
    rintro ⟨rfl, registered⟩
    rw [isSome_standing, missing] at registered
    cases registered
  · have kept : World.Rests (world.withdraw other) left :=
      Rests.invalidateDependents ⟨rfl, rfl⟩ invalidated
    show left.bindingOf resource = _
    rw [kept.bindingOf, bindingOf_withdraw, RenderCommand.rebind]
    by_cases same : resource = other
    · have registered : (world.standing resource).isSome := by
        rw [isSome_standing, same, found]
        rfl
      rw [if_pos same, if_pos ⟨same.symm, registered⟩, same]
    · rw [if_neg same, if_neg (mt (fun both => both.1.symm) same)]

/-- What every command makes of a binding. -/
theorem bindingOf_of_apply {command : RenderCommand} (ran : world.apply command = .ok next)
    (resource : ResourceId) :
    next.bindingOf resource =
      command.rebind resource (world.standing resource).isSome (world.bindingOf resource) := by
  unfold World.apply at ran
  generalize counted : world.count _ = before at ran
  have bindings : before.bindingOf = world.bindingOf := by rw [← counted]; rfl
  have standing : before.standing = world.standing := by rw [← counted]; rfl
  have idle (rests : Rests before next) : next.bindingOf resource = before.bindingOf resource :=
    congrFun rests.bindingOf resource
  rw [← bindings, ← standing]
  cases command with
  | registerMaterial other info =>
    cases ran
    exact bindingOf_registerMaterial ..
  | setMap => exact bindingOf_setMap ran resource
  | releaseMaterial => exact bindingOf_releaseMaterial ran resource
  | createProxy proxy kind =>
    exact idle (Rests.lasting.markStale ⟨attach_materials .., attach_bindings ..⟩ ran)
  | setMaterials => exact idle (Rests.setMaterials ran)
  | setParameter => exact idle (Rests.setParameter ran)
  | clearParameter => exact idle (Rests.setParameter ran)
  | recache => exact idle (Rests.invalidate ⟨rfl, rfl⟩ ran)
  | removeProxy => exact idle (Rests.removeProxy ran)
  | destroyProducer => exact idle (Rests.destroyProducer ran)
  | setDefault | createProducer | materialsUpdated | fence =>
    cases ran
    rfl

end World

namespace Renderer

variable {renderer : Renderer} {resource : ResourceId}

/-- The binding of a resource counts just the maps that are queued and says whether there is a
map now, and it will go on doing so while the queue is carried out. -/
structure Balanced (renderer : Renderer) (resource : ResourceId) : Prop where
  pending : (renderer.world.bindingOf resource).pending = renderer.queuedFor resource
  bound : (renderer.world.bindingOf resource).bound =
    (renderer.world.standing resource).join.isSome
  expected : RenderCommand.Expected resource (renderer.world.standing resource) renderer.queue

namespace Balanced

theorem bound_eq_isSome_mapOf (balanced : renderer.Balanced resource) :
    (renderer.world.bindingOf resource).bound = (renderer.world.mapOf resource).isSome := by
  rw [balanced.bound, ← World.map_id_mapOf, Option.isSome_map]

theorem enqueue (balanced : renderer.Balanced resource) (here : renderer.isGone = false)
    {command : RenderCommand} (silent : command.sendsTo resource = false) :
    (renderer.enqueue command).Balanced resource := by
  rw [enqueue_eq renderer command here]
  refine ⟨?_, balanced.bound, RenderCommand.expected_concat.mpr ⟨balanced.expected, ?_⟩⟩
  · show _ = List.countP _ (renderer.queue ++ [command])
    rw [List.countP_append, List.countP_singleton, silent]
    exact balanced.pending
  · rw [silent]
    exact fun sends => nomatch sends

/-- A map is sent for a resource that is, or will be, registered. -/
theorem publish (balanced : renderer.Balanced resource) (here : renderer.isGone = false)
    {other : ResourceId} (map : Option SharedMap) (registered : (renderer.settled other).isSome) :
    (renderer.publish other map).Balanced resource := by
  have counted :
      (renderer.world.onBinding other Binding.beginPublish).bindingOf resource =
        if resource = other then (renderer.world.bindingOf other).beginPublish
        else renderer.world.bindingOf resource := World.bindingOf_onBinding ..
  unfold Renderer.publish
  rw [enqueue_eq { renderer with
    world := renderer.world.onBinding other Binding.beginPublish } _ here]
  refine ⟨?_, ?_, RenderCommand.expected_concat.mpr ⟨balanced.expected, fun sends => ?_⟩⟩
  · show ((renderer.world.onBinding other Binding.beginPublish).bindingOf resource).pending =
      List.countP _ (renderer.queue ++ [_])
    have before := balanced.pending
    rw [counted, List.countP_append, List.countP_singleton, RenderCommand.sendsTo]
    by_cases same : resource = other
    · rw [if_pos same, decide_eq_true same.symm, ← same]
      exact congrArg (· + 1) before
    · rw [if_neg same, decide_eq_false (Ne.symm same)]
      exact before
  · show ((renderer.world.onBinding other Binding.beginPublish).bindingOf resource).bound = _
    rw [counted]
    split
    · rename_i same
      exact same ▸ balanced.bound
    · exact balanced.bound
  · have same : other = resource := of_decide_eq_true sends
    exact same ▸ registered

/-- The first command of the queue is carried out. -/
theorem apply (balanced : renderer.Balanced resource) {command : RenderCommand}
    {rest : List RenderCommand} {world : World} (queued : renderer.queue = command :: rest)
    (ran : renderer.world.apply command = .ok world) :
    Balanced { renderer with world, queue := rest } resource := by
  have expected := balanced.expected
  have pending := balanced.pending
  rw [queued] at expected
  unfold queuedFor at pending
  rw [queued, List.countP_cons] at pending
  refine ⟨?_, ?_, ?_⟩
  · show (world.bindingOf resource).pending = rest.countP _
    rw [World.bindingOf_of_apply ran]
    refine RenderCommand.pending_rebind command expected.1 ?_
    rw [pending]
    cases command.sendsTo resource <;> rfl
  · show (world.bindingOf resource).bound = (world.standing resource).join.isSome
    rw [World.bindingOf_of_apply ran, (World.settles_of_apply ran).standing]
    exact RenderCommand.bound_rebind command balanced.bound
  · show RenderCommand.Expected resource (world.standing resource) rest
    rw [(World.settles_of_apply ran).standing]
    exact expected.2

theorem upkeep (balanced : renderer.Balanced resource) {world : World}
    (rests : World.Rests renderer.world world) : Balanced { renderer with world } resource := by
  refine ⟨?_, ?_, ?_⟩
  · show (world.bindingOf resource).pending = _
    rw [rests.bindingOf]
    exact balanced.pending
  · show (world.bindingOf resource).bound = (world.standing resource).join.isSome
    rw [rests.bindingOf, rests.standing]
    exact balanced.bound
  · show RenderCommand.Expected resource (world.standing resource) renderer.queue
    rw [rests.standing]
    exact balanced.expected

/-- Nothing is bound and nothing is on its way just where the renderer has no map and no map is
queued. -/
theorem isQuiescent_iff (balanced : renderer.Balanced resource) :
    (renderer.world.bindingOf resource).isQuiescent ↔
      renderer.world.mapOf resource = none ∧
        ∀ command ∈ renderer.queue, ¬ command.sendsTo resource := by
  unfold Binding.isQuiescent
  rw [Bool.and_eq_true_iff, decide_eq_true_iff, Bool.not_eq_true', balanced.pending,
    balanced.bound_eq_isSome_mapOf, Option.isSome_eq_false_iff, Option.isNone_iff_eq_none,
    Renderer.queuedFor, List.countP_eq_zero, and_comm]

end Balanced

end Renderer

end Shading
