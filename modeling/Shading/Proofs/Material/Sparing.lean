/-
Sparing what stands in for the rest. The resources of the default material are
never without a map: they are compiled at once, and a failure is a fault. So no
piece of work on a system sends a command that takes from its proxy what it needs
to stand in for others, unless it is a piece that gives up one of its resources.
What else pieces of work tell the renderer is routine, or they are told it by name.
-/

import Shading.Proofs.Material.Prompt
import Shading.Proofs.Material.Serving
import Shading.Proofs.Material.Tending
import Shading.Proofs.Render.Backing

namespace Shading

/-- Whether a command is about a resource, its map or a new proxy, as pieces of work send it. -/
def RenderCommand.isRoutine : RenderCommand → Bool
  | .registerMaterial .. | .setMap .. | .releaseMaterial .. | .createProxy .. => true
  | _ => false

namespace System

variable {system middle next : System} {id : ResourceId} {resource : Resource} {proxy : ProxyId}
  {materials : Materials} {piece : Piece}

/-! ### Default materials have maps at once -/

theorem compile_default {identity : MapIdentity} {ready : Bool} (default : resource.isDefault)
    (ran : system.compile id resource identity true = .ok (ready, next)) : ready = true := by
  obtain ⟨answer, workshop, served, heeds⟩ := compile_heeds ran
  cases heeds with
  | given => rfl
  | refused _ failed => exact absurd default (Bool.eq_false_iff.mp (fail_eq_ok.mp failed).1)
  | waits answered =>
    rcases answered with rfl | rfl
    · cases Workshop.request_final rfl served
    · cases Workshop.request_final rfl served

/-- Caching the shaders of a default material never leaves it without a map. -/
theorem cacheShaders_default {ready : Bool} (found : system.resources.get? id = some resource)
    (default : resource.isDefault) (ran : system.cacheShaders id = .ok (ready, next)) :
    ready = true := by
  rcases cacheShaders_cases ran with ⟨absent, _⟩ | ⟨other, _, later, _, there, _, _, settles⟩
  · cases absent.symm.trans found
  · cases found.symm.trans there
    cases settles with
    | given => rfl
    | fallsBack _ fell => exact absurd default (Bool.eq_false_iff.mp (fallBack_eq_ok.mp fell).1)
    | obtains _ obtained =>
      have pressing : resource.isPressing later.settings = true := by
        unfold Resource.isPressing
        rw [default, Bool.true_or]
      rcases obtain_cases obtained with ⟨patient, _⟩ | ⟨_, compiled⟩
      · cases pressing.symm.trans patient
      · rw [pressing] at compiled
        exact compile_default default compiled

/-- Nor does a result. -/
theorem complete_default {job : JobId} {result : Except CompileFailure SharedMap} {applied : Bool}
    (default : ∀ resource, system.resources.get? id = some resource → resource.isDefault)
    (ran : system.complete id job result = .ok (applied, next)) :
    Quiet system next ∨ ∃ shared, Exchanges id (some shared) system next := by
  rcases complete_cases ran with ⟨_, _, rfl⟩ | ⟨resource, found, _, _, concluded⟩
  · exact .inl (.refl _)
  · have forgotten : Quiet system (system.onResource id fun resource =>
      { resource with jobs := resource.jobs.erase job }) := .onResource system id fun _ => rfl
    cases result with
    | ok shared =>
      cases concluded
      exact .inr ⟨shared, forgotten.exchanges (.succeed _ id shared)⟩
    | error failure =>
      exact absurd (default resource found) (Bool.eq_false_iff.mp (fail_eq_ok.mp concluded).1)

/-! ### Support -/

/-- The proxy has been numbered, and of its materials each resource is there, is that of a default
material and offers a map. -/
structure Supports (system : System) (proxy : ProxyId) (materials : Materials) : Prop where
  here : system.renderer.isGone = false
  numbered : proxy.number < system.nextProxy.number
  known : ∀ {tier id}, materials.get tier = some id → id.number < system.nextResource.number
  default : ∀ {tier id}, materials.get tier = some id →
    ∀ variant, system.variantOf id = some variant → variant.description.isDefault
  offering : ∀ {tier id}, materials.get tier = some id → ∃ map, system.offered id = some (some map)

/-- The support has been spared: it is there as before, and so is what the renderer will make of
it, whatever it has been told meanwhile. -/
structure Spared (proxy : ProxyId) (materials : Materials) (system next : System) : Prop where
  supports : next.Supports proxy materials
  said : ∃ said, next.renderer.queue = system.renderer.queue ++ said ∧
    ∀ command ∈ said, command.Spares proxy materials

namespace Spared

theorem refl (supports : system.Supports proxy materials) :
    Spared proxy materials system system :=
  ⟨supports, [], (List.append_nil _).symm, fun _ member => nomatch member⟩

theorem trans (first : Spared proxy materials system middle)
    (second : Spared proxy materials middle next) : Spared proxy materials system next := by
  obtain ⟨_, before, told, spares⟩ := first
  obtain ⟨supports, after, more, others⟩ := second
  refine ⟨supports, before ++ after, ?_, fun command member => ?_⟩
  · rw [more, told, List.append_assoc]
  · exact (List.mem_append.mp member).elim (spares command) (others command)

/-- The renderer is told nothing, and the resources are still those of a default material and offer
maps. -/
theorem still (supports : system.Supports proxy materials)
    (here : next.renderer.isGone = system.renderer.isGone)
    (queue : next.renderer.queue = system.renderer.queue)
    (nextProxy : system.nextProxy.number ≤ next.nextProxy.number)
    (nextResource : system.nextResource.number ≤ next.nextResource.number)
    (default : ∀ {tier id}, materials.get tier = some id →
      ∀ variant, next.variantOf id = some variant → variant.description.isDefault)
    (offering : ∀ {tier id}, materials.get tier = some id →
      ∃ map, next.offered id = some (some map)) : Spared proxy materials system next :=
  ⟨⟨here.trans supports.here, Nat.lt_of_lt_of_le supports.numbered nextProxy,
    fun has => Nat.lt_of_lt_of_le (supports.known has) nextResource, default, offering⟩,
    [], queue.trans (List.append_nil _).symm, fun _ member => nomatch member⟩

/-- The renderer is told one thing. -/
theorem tell (supports : system.Supports proxy materials) {command : RenderCommand}
    (spares : command.Spares proxy materials) :
    Spared proxy materials system (system.enqueue command) := by
  have told := Renderer.enqueue_eq system.renderer command supports.here
  refine ⟨⟨?_, supports.numbered, supports.known, supports.default, supports.offering⟩,
    [command], congrArg Renderer.queue told, fun other member => ?_⟩
  · exact (congrArg Renderer.isGone told).trans supports.here
  · exact List.mem_singleton.mp member ▸ spares

theorem quiet (supports : system.Supports proxy materials) (quiet : Quiet system next)
    (steady : Steady system next) : Spared proxy materials system next :=
  still supports (congrArg Renderer.isGone quiet.renderer) (congrArg Renderer.queue quiet.renderer)
    (Nat.le_of_eq (congrArg _ quiet.nextProxy.symm))
    (Nat.le_of_eq (congrArg _ steady.nextResource.symm))
    (fun has variant found => supports.default has variant (steady.variantOf ▸ found))
    fun has => quiet.offered ▸ supports.offering has

/-! ### Maps -/

/-- A map that is sent is not about the support, or gives it another map. -/
theorem publish (supports : system.Supports proxy materials) (id : ResourceId)
    (offers : (∃ tier, materials.get tier = some id) → ∃ map, system.offered id = some (some map)) :
    Spared proxy materials system (system.publish id) := by
  unfold System.publish
  split
  · exact refl supports
  · rename_i resource found
    let counted : System := { system with
      renderer := { system.renderer with
        world := system.renderer.world.onBinding id Binding.beginPublish } }
    have counting : Spared proxy materials system counted :=
      still supports rfl rfl (Nat.le_refl _) (Nat.le_refl _) supports.default supports.offering
    refine counting.trans (tell counting.supports ?_)
    cases held : resource.map with
    | some shared => trivial
    | none =>
      refine fun tier has => ?_
      obtain ⟨map, offering⟩ := offers ⟨tier, has⟩
      rw [offered_eq_some found, held] at offering
      cases offering

theorem setMap (supports : system.Supports proxy materials) (id : ResourceId)
    {map : Option SharedMap} (maps : (∃ tier, materials.get tier = some id) → map.isSome) :
    Spared proxy materials system (system.setMap id map) := by
  unfold System.setMap
  split
  · exact refl supports
  · rename_i resource found
    split
    · exact refl supports
    · let given := system.onResource id fun resource => { resource with map }
      have offered {other : ResourceId} {map' : MapId}
          (before : system.offered other = some (some map'))
          (maps : other = id → map.isSome) : ∃ map, given.offered other = some (some map) := by
        rw [offered_onResource, found]
        split
        · rename_i here
          obtain ⟨shared, rfl⟩ := Option.isSome_iff_exists.mp (maps here)
          exact ⟨shared.id, rfl⟩
        · exact ⟨map', before⟩
      have offering {tier : Tier} {other : ResourceId} (has : materials.get tier = some other) :
          ∃ map, given.offered other = some (some map) := by
        obtain ⟨map', before⟩ := supports.offering has
        exact offered before fun same => maps ⟨tier, same ▸ has⟩
      have steady : Steady system given := .onResource system id fun _ => rfl
      have gave : Spared proxy materials system given :=
        still supports rfl rfl (Nat.le_refl _) (Nat.le_refl _)
          (fun has variant found => supports.default has variant (steady.variantOf ▸ found))
          offering
      exact gave.trans (publish gave.supports id fun ⟨_, has⟩ => offering has)

theorem exchange (supports : system.Supports proxy materials) {map : Option SharedMap}
    (exchanges : Exchanges id map system next) (steady : Steady system next)
    (maps : (∃ tier, materials.get tier = some id) → map.isSome) :
    Spared proxy materials system next := by
  obtain ⟨middle, hush, rfl⟩ := exchanges
  have variantOf : middle.variantOf = system.variantOf :=
    (Steady.setMap middle id map).variantOf.symm.trans steady.variantOf
  have nextResource : middle.nextResource = system.nextResource :=
    (Steady.setMap middle id map).nextResource.symm.trans steady.nextResource
  have before : Spared proxy materials system middle :=
    still supports (congrArg Renderer.isGone hush.renderer) (congrArg Renderer.queue hush.renderer)
      (Nat.le_of_eq (congrArg _ hush.nextProxy.symm)) (Nat.le_of_eq (congrArg _ nextResource.symm))
      (fun has variant found => supports.default has variant (variantOf ▸ found))
      fun has => hush.offered ▸ supports.offering has
  exact before.trans (setMap before.supports id maps)

end Spared

/-- Each of the resources is that of a default material, if it is there. -/
theorem Supports.isDefault (supports : system.Supports proxy materials)
    (supported : ∃ tier, materials.get tier = some id)
    (found : system.resources.get? id = some resource) : resource.isDefault := by
  obtain ⟨tier, has⟩ := supported
  exact supports.default has resource.variant (congrArg (Option.map Resource.variant) found)

/-! ### Pieces of work -/

/-- A piece of work leaves the support alone. The renderer does not work meanwhile. -/
def Piece.Spares (proxy : ProxyId) (materials : Materials) : Piece → Prop
  | .addResource _ | .createProxy _ | .supply | .settle => True
  | .vary id change => (∃ tier, materials.get tier = some id) →
    ∀ variant, (change variant).description.isDefault
  | .releaseMap id | .dropResource id => ¬ ∃ tier, materials.get tier = some id
  | .tell command => command.Spares proxy materials
  | .draw => False

namespace Spared

theorem addResource (supports : system.Supports proxy materials) (variant : Variant) :
    Spared proxy materials system (system.addResource variant).2 := by
  have older {tier : Tier} {other : ResourceId} (has : materials.get tier = some other) :
      other ≠ system.nextResource := fun same =>
    Nat.lt_irrefl _ (same ▸ supports.known has)
  let entered : System := { system with
    resources := system.resources.insert system.nextResource { variant }
    nextResource := system.nextResource.next }
  have get? {tier : Tier} {other : ResourceId} (has : materials.get tier = some other) :
      entered.resources.get? other = system.resources.get? other :=
    (Table.get?_insert ..).trans (if_neg (older has))
  have entering : Spared proxy materials system entered := by
    refine still supports rfl rfl (Nat.le_refl _) (Nat.le_succ _) (fun has found there => ?_)
      fun has => ?_
    · refine supports.default has found ?_
      unfold variantOf at there ⊢
      rwa [get? has] at there
    · unfold offered
      rw [get? has]
      exact supports.offering has
  exact entering.trans (tell entering.supports fun tier has => older has rfl)

theorem dropResource (supports : system.Supports proxy materials)
    (spares : ¬ ∃ tier, materials.get tier = some id) :
    Spared proxy materials system (system.dropResource id) := by
  let without : System := { system with resources := system.resources.erase id }
  have get? {tier : Tier} {other : ResourceId} (has : materials.get tier = some other) :
      without.resources.get? other = system.resources.get? other :=
    (Table.get?_erase ..).trans (if_neg fun same : other = id => spares ⟨tier, same ▸ has⟩)
  have leaving : Spared proxy materials system without := by
    refine still supports rfl rfl (Nat.le_refl _) (Nat.le_refl _) (fun has found there => ?_)
      fun has => ?_
    · refine supports.default has found ?_
      unfold variantOf at there ⊢
      rwa [get? has] at there
    · unfold offered
      rw [get? has]
      exact supports.offering has
  exact leaving.trans (tell leaving.supports fun tier has => spares ⟨tier, has⟩)

/-- A resource that is not among the support is changed in any way. -/
theorem onResource (supports : system.Supports proxy materials)
    (spares : ¬ ∃ tier, materials.get tier = some id) (change : Resource → Resource) :
    Spared proxy materials system (system.onResource id change) := by
  have apart {tier : Tier} {other : ResourceId} (has : materials.get tier = some other) :
      other ≠ id := fun same => spares ⟨tier, same ▸ has⟩
  refine still supports rfl rfl (Nat.le_refl _) (Nat.le_refl _) (fun has found there =>
    supports.default has found ?_) fun has => ?_
  · rwa [variantOf_onResource, if_neg (apart has)] at there
  · rw [offered_onResource, if_neg (apart has)]
    exact supports.offering has

theorem vary (supports : system.Supports proxy materials) (id : ResourceId)
    {change : Variant → Variant} (spares : (∃ tier, materials.get tier = some id) →
      ∀ variant, (change variant).description.isDefault) :
    Spared proxy materials system (system.onResource id fun resource =>
      { resource with variant := change resource.variant }) := by
  have quiet : Quiet system (system.onResource id fun resource =>
    { resource with variant := change resource.variant }) := .onResource system id fun _ => rfl
  refine still supports rfl rfl (Nat.le_refl _) (Nat.le_refl _) (fun {tier other} has found there =>
    ?_) fun has => quiet.offered ▸ supports.offering has
  rw [variantOf_onResource] at there
  split at there
  · rename_i here
    obtain ⟨resource, _, rfl⟩ := Option.map_eq_some_iff.mp there
    exact spares ⟨tier, here ▸ has⟩ resource.variant
  · exact supports.default has found there

theorem releaseMap (supports : system.Supports proxy materials)
    (spares : ¬ ∃ tier, materials.get tier = some id) :
    Spared proxy materials system (system.releaseMap id) := by
  have cancelled : Spared proxy materials system (system.cancelCompilation id) :=
    quiet supports (.cancelCompilation system id) (.cancelCompilation system id)
  have emptied := cancelled.trans (onResource cancelled.supports spares fun resource =>
    { resource with map := none })
  exact emptied.trans (publish emptied.supports id fun supported => absurd supported spares)

theorem createProxy (supports : system.Supports proxy materials) (kind : ProxyKind) :
    Spared proxy materials system
      (system.freshProxy.2.enqueue (.createProxy system.freshProxy.1 kind)) := by
  have numbered : Spared proxy materials system system.freshProxy.2 :=
    still supports rfl rfl (Nat.le_succ _) (Nat.le_refl _) supports.default supports.offering
  refine numbered.trans (tell numbered.supports fun same => ?_)
  exact Nat.lt_irrefl _ (same ▸ supports.numbered)

theorem cacheShaders {ready : Bool} (supports : system.Supports proxy materials)
    (ran : system.cacheShaders id = .ok (ready, next)) : Spared proxy materials system next := by
  have steady := Steady.cacheShaders ran
  cases found : system.resources.get? id with
  | none =>
    rcases cacheShaders_cases ran with ⟨_, _, rfl⟩ | ⟨_, _, _, _, there, _⟩
    · exact refl supports
    · cases found.symm.trans there
  | some resource =>
    obtain ⟨map, mapped, exchanged⟩ := Exchanges.cacheShaders (by rw [found]; rfl) ran
    refine exchange supports exchanged steady fun supported => ?_
    rw [mapped]
    exact cacheShaders_default found (supports.isDefault supported found) ran

theorem complete {job : JobId} {result : Except CompileFailure SharedMap} {applied : Bool}
    (supports : system.Supports proxy materials)
    (ran : system.complete id job result = .ok (applied, next)) :
    Spared proxy materials system next := by
  have steady := Steady.complete ran
  by_cases supported : ∃ tier, materials.get tier = some id
  · rcases complete_default (fun _ => supports.isDefault supported) ran with hush | ⟨shared, made⟩
    · exact quiet supports hush steady
    · exact exchange supports made steady fun _ => rfl
  · rcases Exchanges.complete ran with hush | ⟨map, exchanged⟩
    · exact quiet supports hush steady
    · exact exchange supports exchanged steady fun is => absurd is supported

end Spared

/-- Every piece of work that leaves the support alone spares it. -/
theorem Tends.spared {due due' : List FinishedCompile} (supports : system.Supports proxy materials)
    (spares : piece.Spares proxy materials) (tends : Tends piece (due, system) (due', next)) :
    Spared proxy materials system next := by
  have workshop (workshop : Workshop) :
      Spared proxy materials system { system with workshop } :=
    .quiet supports (.of_resources rfl rfl rfl) (.onWorkshop system workshop)
  cases tends with
  | addResource variant => exact .addResource supports variant
  | vary id change => exact .vary supports id spares
  | releaseMap id => exact .releaseMap supports spares
  | dropResource id _ => exact .dropResource supports spares
  | createProxy kind => exact .createProxy supports kind
  | tell command _ => exact .tell supports spares
  | cacheShaders ran => exact .cacheShaders supports ran
  | finishAll => exact workshop _
  | processResults => exact workshop _
  | complete _ ran => exact .complete supports ran
  | conclude => exact .refl supports
  | carryOut | updateDeferred => exact spares.elim

/-- What many pieces of work spare one after the other, all of them together spare. -/
theorem Tended.spared {start : System} (supports : start.Supports proxy materials)
    {due : List FinishedCompile}
    (tended : Tended (Piece.Spares proxy materials) ([], start) due system) :
    Spared proxy materials start system :=
  tended.kept (motive := fun _ system => Spared proxy materials start system)
    (fun spares before tends => before.trans (tends.spared before.supports spares)) (.refl supports)

/-! ### Telling the renderer -/

/-- The renderer has been told some things of a certain kind. It has not worked, though maps may
have been counted as on their way, and the settings are as they were. -/
structure Speaks (about : RenderCommand → Prop) (system next : System) : Prop where
  settings : next.settings = system.settings
  world : ∃ bindings, next.renderer.world = { system.renderer.world with bindings }
  here : next.renderer.isGone = system.renderer.isGone
  said : ∃ said, next.renderer.queue = system.renderer.queue ++ said ∧
    ∀ command ∈ said, about command

namespace Speaks

variable {about : RenderCommand → Prop}

theorem still (settings : next.settings = system.settings)
    (renderer : next.renderer = system.renderer) : Speaks about system next := by
  refine ⟨settings, ⟨system.renderer.world.bindings, by rw [renderer]⟩, by rw [renderer], [], ?_,
    fun _ member => absurd member List.not_mem_nil⟩
  rw [renderer, List.append_nil]

theorem refl (system : System) : Speaks about system system := still rfl rfl

theorem trans (first : Speaks about system middle) (second : Speaks about middle next) :
    Speaks about system next := by
  obtain ⟨earlier, before⟩ := first.world
  obtain ⟨later, after⟩ := second.world
  obtain ⟨early, told, some⟩ := first.said
  obtain ⟨late, more, others⟩ := second.said
  refine ⟨second.settings.trans first.settings, ⟨later, by rw [after, before]⟩,
    second.here.trans first.here, early ++ late, ?_, List.forall_mem_append.mpr ⟨some, others⟩⟩
  rw [more, told, List.append_assoc]

/-- What is told is lost if the renderer is gone. -/
theorem tell (system : System) {command : RenderCommand} (allowed : about command) :
    Speaks about system (system.enqueue command) := by
  cases gone : system.renderer.isGone with
  | true =>
    refine still rfl ?_
    show system.renderer.enqueue command = _
    unfold Renderer.enqueue
    rw [gone, if_pos rfl]
  | false =>
    have told : (system.enqueue command).renderer =
        { system.renderer with queue := system.renderer.queue ++ [command] } :=
      Renderer.enqueue_eq system.renderer command gone
    exact ⟨rfl, ⟨system.renderer.world.bindings, by rw [told]⟩, by rw [told], [command],
      by rw [told], fun other member => List.mem_singleton.mp member ▸ allowed⟩

variable (routine : ∀ command : RenderCommand, command.isRoutine → about command)

include routine

theorem publish (system : System) (id : ResourceId) :
    Speaks about system (system.publish id) := by
  unfold System.publish
  split
  · exact refl system
  · let counting : System := { system with
      renderer := { system.renderer with
        world := system.renderer.world.onBinding id Binding.beginPublish } }
    have before : Speaks about system counting :=
      ⟨rfl, ⟨counting.renderer.world.bindings, rfl⟩, rfl, [], (List.append_nil _).symm,
        fun _ member => absurd member List.not_mem_nil⟩
    exact before.trans (tell counting (routine _ rfl))

theorem setMap (system : System) (id : ResourceId) (map : Option SharedMap) :
    Speaks about system (system.setMap id map) := by
  unfold System.setMap
  split
  · exact refl system
  · split
    · exact refl system
    · have given : Speaks about system (system.onResource id fun resource =>
          { resource with map }) := still rfl rfl
      exact given.trans (publish routine _ id)

theorem either (moves : Quiet system next ∨ ∃ map, Exchanges id map system next)
    (steady : Steady system next) : Speaks about system next := by
  rcases moves with quiet | ⟨map, middle, quiet, rfl⟩
  · exact still steady.settings quiet.renderer
  · have settings : middle.settings = system.settings :=
      (Steady.setMap middle id map).settings.symm.trans steady.settings
    exact (still settings quiet.renderer).trans (setMap routine middle id map)

theorem releaseMap (system : System) (id : ResourceId) :
    Speaks about system (system.releaseMap id) := by
  have cancelled : Speaks about system ((system.cancelCompilation id).onResource id fun resource =>
      { resource with map := none }) :=
    still (Steady.cancelCompilation system id).settings (Quiet.cancelCompilation system id).renderer
  exact cancelled.trans (publish routine _ id)

end Speaks

/-- A piece of work that is not the renderer's tells it what pieces of work tell it, and besides
what it is told by name. -/
theorem Tends.speaks {about : RenderCommand → Prop} {due due' : List FinishedCompile}
    (tends : Tends piece (due, system) (due', next))
    (routine : ∀ command : RenderCommand, command.isRoutine → about command)
    (told : ∀ command, piece = .tell command → about command) (idle : piece ≠ .draw) :
    Speaks about system next := by
  cases tends with
  | addResource variant =>
    let entered : System := { system with
      resources := system.resources.insert system.nextResource { variant }
      nextResource := system.nextResource.next }
    have entering : Speaks about system entered := .still rfl rfl
    exact entering.trans (.tell entered (routine _ rfl))
  | vary | finishAll | processResults | conclude => exact .still rfl rfl
  | releaseMap id => exact .releaseMap routine system id
  | dropResource id _ =>
    let without : System := { system with resources := system.resources.erase id }
    have leaving : Speaks about system without := .still rfl rfl
    exact leaving.trans (.tell without (routine _ rfl))
  | createProxy kind =>
    have numbered : Speaks about system system.freshProxy.2 := .still rfl rfl
    exact numbered.trans (.tell _ (routine _ rfl))
  | tell command _ => exact .tell system (told command rfl)
  | cacheShaders ran =>
    exact .either routine (Exchanges.cacheShaders_either ran) (.cacheShaders ran)
  | complete _ ran => exact .either routine (Exchanges.complete ran) (.complete ran)
  | carryOut | updateDeferred => exact absurd rfl idle

/-! ### Choosing nobody -/

/-- The renderer has been told some things, none of which chooses who steps in for the others. It
has not worked, and the settings are as they were. -/
structure Impartial (system next : System) : Prop where
  settings : next.settings = system.settings
  world : ∃ bindings, next.renderer.world = { system.renderer.world with bindings }
  said : system.renderer.isGone = false → next.renderer.isGone = false ∧
    ∃ said, next.renderer.queue = system.renderer.queue ++ said ∧
      ∀ command ∈ said, command.chooses? = none

/-- A piece of work neither chooses who steps in for the others nor is it the renderer's. -/
def Piece.isImpartial : Piece → Bool
  | .tell command => command.chooses?.isNone
  | .draw => false
  | _ => true

theorem Tended.impartial {start : System} {due : List FinishedCompile}
    (tended : Tended (fun piece => piece.isImpartial) ([], start) due system) :
    Impartial start system := by
  have routine : ∀ command : RenderCommand, command.isRoutine → command.chooses? = none := by
    intro command routine
    cases command <;> first | rfl | cases routine
  have speaks := tended.kept
    (motive := fun _ system => Speaks (fun command => command.chooses? = none) start system)
    (fun fair before tends => before.trans (tends.speaks routine
      (fun command same => Option.isNone_iff_eq_none.mp (by rw [same] at fair; exact fair))
      fun same => by rw [same] at fair; cases fair))
    (.refl start)
  exact ⟨speaks.settings, speaks.world, fun here => ⟨speaks.here.trans here, speaks.said⟩⟩

end System

end Shading
