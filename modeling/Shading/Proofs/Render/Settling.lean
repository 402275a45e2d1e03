/-
What the renderer will have. Commands wait in a queue before they are carried
out, so which map the renderer has for a resource once nothing waits any more is
decided by the map it has now and by the commands in the queue. Carrying out the
queue, in one go or a command at a time, leads to just that. And no map comes to
the renderer but by a command that sends it, so what the renderer holds was given
to it before.
-/

import Shading.Proofs.Map.Genuine
import Shading.Proofs.Render.Membership
import Shading.Render.Renderer

namespace Shading

/-- Nothing where a resource is not registered, and else the map it has, if it has one. -/
abbrev Standing := Option (Option MapId)

namespace RenderCommand

/-- What a command makes of the standing of a resource. -/
def settle (resource : ResourceId) (standing : Standing) : RenderCommand → Standing
  | .registerMaterial other _ => if other = resource then some none else standing
  | .setMap other map =>
    if other = resource then standing.map fun _ => map.map SharedMap.id else standing
  | .releaseMaterial other => if other = resource then none else standing
  | _ => standing

/-- Whether a command sends a map, or none, for a resource. -/
def sendsTo (resource : ResourceId) : RenderCommand → Bool
  | .setMap other _ => other = resource
  | _ => false

/-- The resource a command is about, if it is about one. -/
def resource? : RenderCommand → Option ResourceId
  | .registerMaterial resource _ | .setMap resource _ | .releaseMaterial resource => some resource
  | _ => none

theorem settle_other {command : RenderCommand} {resource : ResourceId} (standing : Standing)
    (other : command.resource? ≠ some resource) : command.settle resource standing = standing := by
  cases command with
  | registerMaterial | setMap | releaseMaterial =>
    exact if_neg fun same => other (congrArg some same)
  | _ => rfl

theorem sendsTo_other {command : RenderCommand} {resource : ResourceId}
    (other : command.resource? ≠ some resource) : command.sendsTo resource = false := by
  cases command with
  | setMap => exact decide_eq_false fun same => other (congrArg some same)
  | _ => rfl

/-- Without a map being sent there is none where there was none. -/
theorem settle_none {command : RenderCommand} {resource : ResourceId} {standing : Standing}
    (silent : ¬ command.sendsTo resource) (without : standing.join = none) :
    (command.settle resource standing).join = none := by
  unfold settle
  split
  · split
    · rfl
    · exact without
  · rename_i other map
    rw [if_neg fun same => silent (decide_eq_true same)]
    exact without
  · split
    · rfl
    · exact without
  · exact without

end RenderCommand

namespace World

variable {world next : World}

def standing (world : World) (resource : ResourceId) : Standing :=
  (world.materials.get? resource).map fun material => material.map.map SharedMap.id

/-- Whoever has a map says so in its binding. -/
def Bound (world : World) : Prop :=
  ∀ resource, (world.mapOf resource).isSome → (world.bindingOf resource).bound

theorem map_id_mapOf (world : World) (resource : ResourceId) :
    (world.mapOf resource).map SharedMap.id = (world.standing resource).join := by
  unfold standing mapOf
  cases world.materials.get? resource <;> rfl

theorem bindingOf_onBinding (world : World) (resource other : ResourceId)
    (change : Binding → Binding) :
    (world.onBinding resource change).bindingOf other =
      if other = resource then change (world.bindingOf resource) else world.bindingOf other := by
  show ((Table.insert world.bindings resource _).get? other).getD {} = _
  rw [Table.get?_insert]
  split <;> rfl

theorem bindingOf_placeMap (world : World) (resource other : ResourceId)
    (material : RenderMaterial) (map : Option SharedMap) :
    (world.placeMap resource material map).bindingOf other =
      if other = resource then
        { bound := map.isSome, pending := (world.bindingOf resource).pending - 1 }
      else world.bindingOf other := by
  have twice := bindingOf_onBinding
    ({ world with materials := world.materials.insert resource { material with map } }.setBound
      resource map.isSome) resource other Binding.acknowledge
  refine twice.trans ?_
  unfold setBound
  rw [bindingOf_onBinding, bindingOf_onBinding, if_pos rfl]
  split <;> rfl

/-! ### Commands about proxies -/

namespace Rests

theorem standing (rests : Rests world next) : next.standing = world.standing := by
  unfold World.standing
  rw [rests.materials]

theorem bindingOf (rests : Rests world next) : next.bindingOf = world.bindingOf := by
  unfold World.bindingOf
  rw [rests.bindings]

theorem bound (rests : Rests world next) (bound : world.Bound) : next.Bound := by
  unfold Bound mapOf
  rw [rests.materials, rests.bindingOf]
  exact bound

theorem setMaterials {proxy : ProxyId} {materials : Materials}
    (ran : world.setMaterials proxy materials = .ok next) : Rests world next := by
  obtain ⟨-, rfl⟩ | ⟨owner, previous, -, -, ran⟩ := setMaterials_cases ran
  · exact ⟨rfl, rfl⟩
  · have start : Rests world (world.reassign proxy owner previous materials) := ⟨rfl, rfl⟩
    exact start.invalidateFamily ran

theorem setParameter {proxy : ProxyId} {name : String} {value : Option ParameterValue}
    (ran : world.setParameter proxy name value = .ok next) : Rests world next := by
  obtain ⟨-, rfl⟩ | ⟨owner, -, ran⟩ := setParameter_cases ran
  · exact ⟨rfl, rfl⟩
  · have start : Rests world (world.override proxy owner name value) := ⟨rfl, rfl⟩
    exact start.invalidateFamily ran

theorem removeProxy {proxy : ProxyId} (ran : world.removeProxy proxy = .ok next) :
    Rests world next := by
  have start : Rests world { world.without proxy with
      children := Table.erase (world.without proxy).children proxy } :=
    ⟨without_materials .., without_bindings ..⟩
  exact foldlM_kept (fun _ _ _ rests stepped => rests.invalidateFamily stepped) _ _ next start ran

theorem destroyProducer {producer : ProducerId}
    (ran : world.destroyProducer producer = .ok next) : Rests world next := by
  have start : Rests world
      { world with streaming := (world.streaming.destroyProducer producer).2 } := ⟨rfl, rfl⟩
  exact foldlM_kept (fun _ _ _ rests stepped => rests.invalidate stepped) _ _ next start ran

end Rests

/-! ### One command -/

/-- What a command does to the resources: their standing is settled as the command says, and a
binding counts down only for a map that was sent. -/
structure Settles (command : RenderCommand) (world next : World) : Prop where
  standing : ∀ resource, next.standing resource = command.settle resource (world.standing resource)
  bound : world.Bound → next.Bound
  pending : ∀ resource, (world.bindingOf resource).pending ≤
    (next.bindingOf resource).pending + (command.sendsTo resource).toNat

namespace Settles

variable {command : RenderCommand}

theorem rests {before : World} (settles : Settles command world before)
    (rests : Rests before next) : Settles command world next := by
  refine ⟨?_, fun bound => rests.bound (settles.bound bound), ?_⟩
  · rw [rests.standing]
    exact settles.standing
  · rw [rests.bindingOf]
    exact settles.pending

/-- A command that is about no resource. -/
theorem idle (settled : ∀ resource standing, command.settle resource standing = standing)
    (rests : Rests world next) : Settles command world next := by
  have self : Settles command world world :=
    ⟨fun resource => (settled resource _).symm, id, fun _ => Nat.le_add_right _ _⟩
  exact self.rests rests

/-- A command that writes about one resource. -/
theorem written {resource : ResourceId} {material : Option RenderMaterial} {binding : Binding}
    (materials : ∀ other, next.materials.get? other =
      if other = resource then material else world.materials.get? other)
    (bindings : ∀ other, next.bindingOf other =
      if other = resource then binding else world.bindingOf other)
    (elsewhere : ∀ other standing, other ≠ resource → command.settle other standing = standing)
    (here : material.map (fun material => material.map.map SharedMap.id) =
      command.settle resource (world.standing resource))
    (bound : (material.bind RenderMaterial.map).isSome → binding.bound)
    (pending : (world.bindingOf resource).pending ≤
      binding.pending + (command.sendsTo resource).toNat) :
    Settles command world next := by
  refine ⟨fun other => ?_, fun before other has => ?_, fun other => ?_⟩
  · unfold World.standing
    rw [materials]
    by_cases same : other = resource
    · rw [if_pos same, here, same]
      rfl
    · rw [if_neg same, elsewhere other _ same]
  · unfold mapOf at has
    rw [materials] at has
    rw [bindings]
    by_cases same : other = resource
    · rw [if_pos same] at has ⊢
      exact bound has
    · rw [if_neg same] at has ⊢
      exact before other has
  · rw [bindings]
    by_cases same : other = resource
    · rw [if_pos same, same]
      exact pending
    · rw [if_neg same]
      exact Nat.le_add_right _ _

/-- A command about a resource that is not there. -/
theorem missed {resource : ResourceId}
    (elsewhere : ∀ other standing, other ≠ resource → command.settle other standing = standing)
    (nothing : command.settle resource none = none)
    (missing : world.materials.get? resource = none) : Settles command world world := by
  refine ⟨fun other => ?_, id, fun other => Nat.le_add_right _ _⟩
  by_cases same : other = resource
  · unfold World.standing
    rw [same, missing]
    exact nothing.symm
  · exact (elsewhere other _ same).symm

theorem registerMaterial (world : World) (resource : ResourceId) (info : MaterialInfo) :
    Settles (.registerMaterial resource info) world (world.registerMaterial resource info) := by
  refine written (fun other => Table.get?_insert ..)
    (fun other => bindingOf_onBinding world resource other fun binding =>
      { binding with bound := false })
    (fun other standing different => if_neg (Ne.symm different)) ?_ (fun has => nomatch has)
    (Nat.le_add_right _ _)
  rw [RenderCommand.settle, if_pos rfl]
  rfl

theorem placeMap {resource : ResourceId} {material : RenderMaterial} (map : Option SharedMap)
    (found : world.materials.get? resource = some material) :
    Settles (.setMap resource map) world (world.placeMap resource material map) := by
  refine written (fun other => Table.get?_insert ..)
    (fun other => bindingOf_placeMap world resource other material map)
    (fun other standing different => if_neg (Ne.symm different)) ?_ id ?_
  · rw [RenderCommand.settle, if_pos rfl]
    unfold World.standing
    rw [found]
    rfl
  · rw [RenderCommand.sendsTo, decide_eq_true rfl]
    exact Nat.le_add_of_sub_le (Nat.le_refl _)

theorem setMap {resource : ResourceId} {map : Option SharedMap}
    (ran : world.setMap resource map = .ok next) :
    Settles (.setMap resource map) world next := by
  obtain ⟨missing, rfl⟩ | ⟨material, found, -, ran⟩ := setMap_cases ran
  · exact missed (fun other standing different => if_neg (Ne.symm different)) (if_pos rfl) missing
  · exact (placeMap map found).rests (Rests.invalidateDependents ⟨rfl, rfl⟩ ran)

theorem withdraw (world : World) (resource : ResourceId) :
    Settles (.releaseMaterial resource) world (world.withdraw resource) := by
  refine written (fun other => Table.get?_erase ..)
    (fun other => bindingOf_onBinding { world with materials := world.materials.erase resource }
      resource other fun binding => { binding with bound := false })
    (fun other standing different => if_neg (Ne.symm different)) ?_ (fun has => nomatch has)
    (Nat.le_add_right _ _)
  rw [RenderCommand.settle, if_pos rfl]
  rfl

theorem releaseMaterial {resource : ResourceId} (ran : world.releaseMaterial resource = .ok next) :
    Settles (.releaseMaterial resource) world next := by
  obtain ⟨missing, rfl⟩ | ⟨material, left, -, invalidated, rfl⟩ := releaseMaterial_cases ran
  · exact missed (fun other standing different => if_neg (Ne.symm different)) (if_pos rfl) missing
  · have withdrawn := withdraw world resource
    exact (withdrawn.rests (Rests.invalidateDependents ⟨rfl, rfl⟩ invalidated)).rests ⟨rfl, rfl⟩

end Settles

/-- What every command does to the resources. -/
theorem settles_of_apply {command : RenderCommand} (ran : world.apply command = .ok next) :
    Settles command world next := by
  unfold World.apply at ran
  have counted : Rests world
      (world.count fun stats => { stats with commands := stats.commands + 1 }) := ⟨rfl, rfl⟩
  have begun {before : World} (settles : Settles command
      (world.count fun stats => { stats with commands := stats.commands + 1 }) before) :
      Settles command world before := ⟨settles.standing, settles.bound, settles.pending⟩
  cases command with
  | registerMaterial resource info =>
    cases ran
    exact begun (Settles.registerMaterial ..)
  | setMap resource map => exact begun (Settles.setMap ran)
  | releaseMaterial resource => exact begun (Settles.releaseMaterial ran)
  | createProxy proxy kind =>
    have attached := Rests.lasting.markStale ⟨attach_materials .., attach_bindings ..⟩ ran
    exact begun (.idle (fun _ _ => rfl) attached)
  | setMaterials => exact begun (.idle (fun _ _ => rfl) (Rests.setMaterials ran))
  | setParameter => exact begun (.idle (fun _ _ => rfl) (Rests.setParameter ran))
  | clearParameter => exact begun (.idle (fun _ _ => rfl) (Rests.setParameter ran))
  | recache => exact .idle (fun _ _ => rfl) (counted.invalidate ran)
  | removeProxy => exact begun (.idle (fun _ _ => rfl) (Rests.removeProxy ran))
  | destroyProducer => exact begun (.idle (fun _ _ => rfl) (Rests.destroyProducer ran))
  | setDefault | createProducer | materialsUpdated | fence =>
    cases ran
    exact .idle (fun _ _ => rfl) ⟨rfl, rfl⟩

end World

namespace Renderer

variable {renderer next : Renderer}

/-- The standing that a resource will have once all that is queued has been carried out. -/
def settled (renderer : Renderer) (resource : ResourceId) : Standing :=
  renderer.queue.foldl (fun standing command => command.settle resource standing)
    (renderer.world.standing resource)

/-- How many maps are queued for a resource. -/
def queuedFor (renderer : Renderer) (resource : ResourceId) : Nat :=
  renderer.queue.countP (RenderCommand.sendsTo resource)

/-- The renderer is there, and its bindings keep the account they should: nothing is queued that
was not counted, and whoever has a map says so. -/
structure Accounted (renderer : Renderer) : Prop where
  here : renderer.isGone = false
  queued : ∀ resource, renderer.queuedFor resource ≤ (renderer.world.bindingOf resource).pending
  bound : renderer.world.Bound

/-! ### Sending -/

theorem enqueue_eq (renderer : Renderer) (command : RenderCommand)
    (here : renderer.isGone = false) :
    renderer.enqueue command = { renderer with queue := renderer.queue ++ [command] } := by
  unfold enqueue
  rw [here, if_neg Bool.false_ne_true]

theorem settled_enqueue (renderer : Renderer) (command : RenderCommand) (resource : ResourceId)
    (here : renderer.isGone = false) :
    (renderer.enqueue command).settled resource =
      command.settle resource (renderer.settled resource) := by
  rw [enqueue_eq renderer command here]
  unfold settled
  rw [List.foldl_append]
  rfl

theorem settled_publish (renderer : Renderer) (resource other : ResourceId)
    (map : Option SharedMap) (here : renderer.isGone = false) :
    (renderer.publish resource map).settled other =
      if resource = other then (renderer.settled other).map fun _ => map.map SharedMap.id
      else renderer.settled other :=
  settled_enqueue { renderer with world := renderer.world.onBinding resource Binding.beginPublish }
    (.setMap resource map) other here

namespace Accounted

theorem enqueue (accounted : renderer.Accounted) {command : RenderCommand}
    (silent : ∀ resource, command.sendsTo resource = false) :
    (renderer.enqueue command).Accounted := by
  rw [enqueue_eq renderer command accounted.here]
  refine ⟨accounted.here, fun resource => ?_, accounted.bound⟩
  show List.countP _ (renderer.queue ++ [command]) ≤ _
  rw [List.countP_append, List.countP_singleton, silent resource]
  exact accounted.queued resource

theorem publish (accounted : renderer.Accounted) (resource : ResourceId)
    (map : Option SharedMap) : (renderer.publish resource map).Accounted := by
  have counted (other : ResourceId) :
      (renderer.world.onBinding resource Binding.beginPublish).bindingOf other =
        if other = resource then (renderer.world.bindingOf resource).beginPublish
        else renderer.world.bindingOf other := World.bindingOf_onBinding ..
  unfold Renderer.publish
  rw [enqueue_eq { renderer with
    world := renderer.world.onBinding resource Binding.beginPublish } _ accounted.here]
  refine ⟨accounted.here, fun other => ?_, fun other has => ?_⟩
  · show List.countP _ (renderer.queue ++ [_]) ≤ _
    rw [List.countP_append, List.countP_singleton]
    show _ ≤ ((renderer.world.onBinding resource Binding.beginPublish).bindingOf other).pending
    rw [counted, RenderCommand.sendsTo]
    have before := accounted.queued other
    by_cases same : other = resource
    · rw [if_pos same, ← same, decide_eq_true rfl]
      exact Nat.succ_le_succ before
    · rw [if_neg same, decide_eq_false (Ne.symm same)]
      exact before
  · show ((renderer.world.onBinding resource Binding.beginPublish).bindingOf other).bound
    rw [counted]
    have bound := accounted.bound other has
    split
    · rename_i same
      exact same ▸ bound
    · exact bound

/-- Carrying out the first command of the queue. -/
theorem apply (accounted : renderer.Accounted) {command : RenderCommand}
    {rest : List RenderCommand} {world : World} (queued : renderer.queue = command :: rest)
    (ran : renderer.world.apply command = .ok world) :
    Accounted { renderer with world, queue := rest } := by
  have settles := World.settles_of_apply ran
  refine ⟨accounted.here, fun resource => ?_, settles.bound accounted.bound⟩
  have before := accounted.queued resource
  have after := settles.pending resource
  unfold queuedFor at before
  rw [queued, List.countP_cons] at before
  show rest.countP _ ≤ _
  cases sends : command.sendsTo resource with
  | true =>
    rw [sends, if_pos rfl] at before
    rw [sends] at after
    exact Nat.le_of_succ_le_succ (Nat.le_trans before after)
  | false =>
    rw [sends, if_neg Bool.false_ne_true] at before
    rw [sends] at after
    exact Nat.le_trans before after

theorem upkeep {world : World} (accounted : renderer.Accounted)
    (rests : World.Rests renderer.world world) : Accounted { renderer with world } := by
  refine ⟨accounted.here, fun resource => ?_, rests.bound accounted.bound⟩
  show renderer.queuedFor resource ≤ _
  rw [rests.bindingOf]
  exact accounted.queued resource

/-- Where nothing is bound and nothing is on its way, there will be no map. -/
theorem quiescent (accounted : renderer.Accounted) {resource : ResourceId}
    (quiet : (renderer.world.bindingOf resource).isQuiescent) :
    (renderer.settled resource).join = none := by
  unfold Binding.isQuiescent at quiet
  obtain ⟨nothing, unbound⟩ := Bool.and_eq_true_iff.mp quiet
  have silent : ∀ command ∈ renderer.queue, ¬ command.sendsTo resource := by
    have none := accounted.queued resource
    rw [of_decide_eq_true nothing] at none
    exact List.countP_eq_zero.mp (Nat.le_zero.mp none)
  have start : (renderer.world.standing resource).join = none := by
    rw [← World.map_id_mapOf, Option.map_eq_none_iff]
    by_contra has
    have bound := accounted.bound resource (Option.isSome_iff_ne_none.mpr has)
    rw [bound] at unbound
    cases unbound
  unfold settled
  generalize renderer.world.standing resource = standing at start
  generalize renderer.queue = queue at silent
  induction queue generalizing standing with
  | nil => exact start
  | cons command rest inductionHypothesis =>
    exact inductionHypothesis (command.settle resource standing)
      (RenderCommand.settle_none (silent command List.mem_cons_self) start)
      fun other member => silent other (List.mem_cons_of_mem _ member)

end Accounted

/-! ### The queue -/

/-- Whatever is carried out of the queue changes nothing about where the queue leads. -/
theorem settled_of_apply {command : RenderCommand} {rest : List RenderCommand} {world : World}
    (queued : renderer.queue = command :: rest) (ran : renderer.world.apply command = .ok world)
    (resource : ResourceId) :
    Renderer.settled { renderer with world, queue := rest } resource =
      renderer.settled resource := by
  unfold settled
  rw [queued, List.foldl_cons, ← (World.settles_of_apply ran).standing]

theorem settled_of_rests {world : World} (rests : World.Rests renderer.world world)
    (resource : ResourceId) :
    Renderer.settled { renderer with world } resource = renderer.settled resource := by
  unfold settled
  rw [rests.standing]

/-- Once everything queued has been carried out, the world has what was settled. -/
theorem standing_processCommands {count : Nat}
    (ran : renderer.processCommands = .ok (count, next)) (resource : ResourceId) :
    next.world.standing resource = renderer.settled resource := by
  obtain ⟨world, carried, rest⟩ := bind_eq_ok.mp ran
  cases rest
  exact foldlM_invariant
    (motive := fun rest (world : World) =>
      rest.foldl (fun standing (command : RenderCommand) => command.settle resource standing)
        (world.standing resource) = renderer.settled resource)
    (fun first rest world next same stepped => by
      rw [(World.settles_of_apply stepped).standing]
      exact same)
    _ renderer.world world rfl carried

end Renderer

/-! ### The maps that are held -/

namespace World

variable {world next : World} {command : RenderCommand} {shared : SharedMap}

/-- A command leaves the resources alone, or it writes one with the map that it sends, if it sends
one, or it takes one out. -/
theorem materials_of_apply (ran : world.apply command = .ok next) :
    next.materials = world.materials ∨
      (∃ resource material, next.materials = world.materials.insert resource material ∧
        material.map = command.map?) ∨
      ∃ resource, next.materials = world.materials.erase resource := by
  unfold World.apply at ran
  cases command with
  | registerMaterial resource info =>
    cases ran
    exact .inr (.inl ⟨resource, { info }, rfl, rfl⟩)
  | setMap resource map =>
    change (world.count _).setMap resource map = _ at ran
    obtain ⟨-, rfl⟩ | ⟨material, -, -, ran⟩ := setMap_cases ran
    · exact .inl rfl
    · have rests := Rests.invalidateDependents ⟨rfl, rfl⟩ ran
      exact .inr (.inl ⟨resource, { material with map }, rests.materials, rfl⟩)
  | releaseMaterial resource =>
    change (world.count _).releaseMaterial resource = _ at ran
    obtain ⟨-, rfl⟩ | ⟨material, left, -, invalidated, rfl⟩ := releaseMaterial_cases ran
    · exact .inl rfl
    · have rests := Rests.invalidateDependents ⟨rfl, rfl⟩ invalidated
      exact .inr (.inr ⟨resource, rests.materials⟩)
  | createProxy proxy kind =>
    exact .inl (Rests.lasting.markStale ⟨attach_materials .., attach_bindings ..⟩ ran).materials
  | setMaterials => exact .inl (Rests.setMaterials ran).materials
  | setParameter | clearParameter => exact .inl (Rests.setParameter ran).materials
  | recache => exact .inl (Rests.invalidate ⟨rfl, rfl⟩ ran).materials
  | removeProxy => exact .inl (Rests.removeProxy ran).materials
  | destroyProducer => exact .inl (Rests.destroyProducer ran).materials
  | setDefault | createProducer | materialsUpdated | fence =>
    cases ran
    exact .inl rfl

/-- The maps the world holds. -/
def maps (world : World) : List SharedMap := world.materials.values.filterMap RenderMaterial.map

theorem Rests.maps (rests : Rests world next) : next.maps = world.maps := by
  unfold World.maps
  rw [rests.materials]

theorem mem_maps : shared ∈ world.maps ↔
    ∃ entry ∈ world.materials.entries, entry.2.map = some shared := by
  show shared ∈ (world.materials.entries.map Prod.snd).filterMap RenderMaterial.map ↔ _
  simp only [List.mem_map, List.mem_filterMap]
  constructor
  · rintro ⟨material, ⟨entry, member, rfl⟩, has⟩
    exact ⟨entry, member, has⟩
  · rintro ⟨entry, member, has⟩
    exact ⟨entry.2, ⟨entry, member, rfl⟩, has⟩

theorem mem_maps_of_apply (ran : world.apply command = .ok next) (member : shared ∈ next.maps) :
    shared ∈ world.maps ∨ command.map? = some shared := by
  obtain ⟨entry, inside, has⟩ := mem_maps.mp member
  rcases materials_of_apply ran with materials | ⟨resource, material, materials, sent⟩ |
    ⟨resource, materials⟩
  · exact .inl (mem_maps.mpr ⟨entry, materials ▸ inside, has⟩)
  · rw [materials] at inside
    rcases Table.mem_entries_of_insert inside with rfl | before
    · exact .inr (sent.symm.trans has)
    · exact .inl (mem_maps.mpr ⟨entry, before, has⟩)
  · rw [materials] at inside
    exact .inl (mem_maps.mpr ⟨entry, Table.mem_entries_of_erase inside, has⟩)

end World

namespace Renderer

variable {renderer : Renderer} {id : MapId} {shared : SharedMap}

/-- The maps that the world or a queued command holds. -/
def maps (renderer : Renderer) : List SharedMap :=
  renderer.world.maps ++ renderer.queue.filterMap RenderCommand.map?

theorem heldMaps_eq (renderer : Renderer) : renderer.heldMaps = renderer.maps.map SharedMap.id :=
  List.map_append.symm

theorem mem_maps : shared ∈ renderer.maps ↔ shared ∈ renderer.world.maps ∨
    ∃ command ∈ renderer.queue, command.map? = some shared := by
  unfold maps
  rw [List.mem_append, List.mem_filterMap]

theorem mem_maps_of_enqueue {command : RenderCommand}
    (member : shared ∈ (renderer.enqueue command).maps) :
    shared ∈ renderer.maps ∨ command.map? = some shared := by
  unfold enqueue at member
  split at member
  · exact .inl member
  · rcases mem_maps.mp member with there | ⟨queued, inside, sent⟩
    · exact .inl (mem_maps.mpr (.inl there))
    · rcases List.mem_append.mp inside with before | new
      · exact .inl (mem_maps.mpr (.inr ⟨queued, before, sent⟩))
      · exact .inr (List.mem_singleton.mp new ▸ sent)

theorem mem_maps_of_publish {resource : ResourceId} {map : Option SharedMap}
    (member : shared ∈ (renderer.publish resource map).maps) :
    shared ∈ renderer.maps ∨ map = some shared :=
  mem_maps_of_enqueue member

/-- Carrying out a command brings the renderer nothing that it did not hold in its queue. -/
theorem mem_maps_of_apply {command : RenderCommand} {rest : List RenderCommand}
    {world : World} (queued : renderer.queue = command :: rest)
    (ran : renderer.world.apply command = .ok world)
    (member : shared ∈ ({ renderer with world, queue := rest } : Renderer).maps) :
    shared ∈ renderer.maps := by
  refine mem_maps.mpr ?_
  rw [queued]
  rcases mem_maps.mp member with there | ⟨later, inside, sent⟩
  · rcases World.mem_maps_of_apply ran there with before | sent
    · exact .inl before
    · exact .inr ⟨command, List.mem_cons_self, sent⟩
  · exact .inr ⟨later, List.mem_cons_of_mem _ inside, sent⟩

theorem mem_heldMaps : id ∈ renderer.heldMaps ↔ ∃ shared ∈ renderer.maps, shared.id = id := by
  rw [heldMaps_eq, List.mem_map]

end Renderer

end Shading
