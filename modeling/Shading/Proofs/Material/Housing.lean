/-
The house of a library. Its renderer lists nothing but what is there, what is
allocated has an owner, and no map is kept alive only to be written. All of this
rests on no number being given twice: the proxies and producers of a renderer,
those it has had and those that are still queued, all have different numbers,
and later ones get higher ones. Whatever a library does with its system keeps
the house in order.
-/

import Shading.Proofs.Compile.Stowing
import Shading.Proofs.Material.Readiness
import Shading.Proofs.Material.Tending
import Shading.Proofs.Render.Ownership
import Shading.Proofs.Render.Tidiness

namespace Shading

/-! ### Numbers -/

/-- Each number has been given once, and none that is still to come. -/
structure Issued {kind : Numbered} (given : List (Identifier kind)) (next : Identifier kind) :
    Prop where
  once : given.Nodup
  earlier : ∀ identifier ∈ given, identifier.number < next.number

namespace Issued

variable {kind : Numbered} {given : List (Identifier kind)} {next : Identifier kind}

theorem nothing (next : Identifier kind) : Issued [] next := ⟨.nil, fun _ none => nomatch none⟩

/-- A number has been passed over. -/
theorem skip (issued : Issued given next) : Issued given next.next :=
  ⟨issued.once, fun identifier member => Nat.lt_succ_of_lt (issued.earlier identifier member)⟩

theorem take (issued : Issued given next) : Issued (given ++ [next]) next.next := by
  have new : next ∉ given := fun member => Nat.lt_irrefl _ (issued.earlier next member)
  refine ⟨issued.once.append (List.nodup_singleton next) (List.disjoint_singleton.mpr new),
    fun identifier member => ?_⟩
  rcases List.mem_append.mp member with before | last
  · exact issued.skip.earlier identifier before
  · exact List.mem_singleton.mp last ▸ Nat.lt_succ_self _

end Issued

/-! ### What is queued -/

/-- Whether an operation only sees to the caches. -/
def Operation.IsUpkeep : Operation → Prop
  | .perform _ | .announce _ => False
  | _ => True

namespace RenderCommand

/-- The proxies that commands will create. -/
def created (commands : List RenderCommand) : List ProxyId :=
  Operation.createdBy (commands.map .perform)

/-- The producers that commands will create. -/
def produced (commands : List RenderCommand) : List ProducerId :=
  Operation.producedBy (commands.map .perform)

/-- Whether a command creates neither a proxy nor a producer. -/
def IntroducesNothing (command : RenderCommand) : Prop :=
  (Operation.perform command).creates? = none ∧ (Operation.perform command).produces? = none

theorem created_cons (command : RenderCommand) (rest : List RenderCommand) :
    created (command :: rest) = (Operation.perform command).creates?.toList ++ created rest := by
  unfold created Operation.createdBy
  rw [List.map_cons, List.flatMap_cons]

theorem produced_cons (command : RenderCommand) (rest : List RenderCommand) :
    produced (command :: rest) = (Operation.perform command).produces?.toList ++ produced rest := by
  unfold produced Operation.producedBy
  rw [List.map_cons, List.flatMap_cons]

theorem created_concat (commands : List RenderCommand) (command : RenderCommand) :
    created (commands ++ [command]) =
      created commands ++ (Operation.perform command).creates?.toList := by
  unfold created Operation.createdBy
  rw [List.map_append, List.flatMap_append, List.map_singleton, List.flatMap_singleton]

theorem produced_concat (commands : List RenderCommand) (command : RenderCommand) :
    produced (commands ++ [command]) =
      produced commands ++ (Operation.perform command).produces?.toList := by
  unfold produced Operation.producedBy
  rw [List.map_append, List.flatMap_append, List.map_singleton, List.flatMap_singleton]

end RenderCommand

namespace System

open RenderCommand (IntroducesNothing)

variable {created : List ProxyId} {produced : List ProducerId} {system next : System}
  {id : ResourceId} {resource : Resource} {identity : MapIdentity}

/-! ### Houses in order -/

/-- A system is in order, and so far its renderer has created these proxies and producers. -/
structure Housed (created : List ProxyId) (produced : List ProducerId) (system : System) :
    Prop where
  stowed : system.workshop.Stowed
  tidy : World.Tidy created system.renderer.world
  attended : World.Attended produced (fun _ _ => False) system.renderer.world
  proxies : Issued (created ++ RenderCommand.created system.renderer.queue) system.nextProxy
  producers : Issued (produced ++ RenderCommand.produced system.renderer.queue) system.nextProducer

namespace Housed

/-- Neither the renderer nor what is numbered has changed. -/
theorem aside (housed : Housed created produced system) (stowed : next.workshop.Stowed)
    (renderer : next.renderer = system.renderer) (nextProxy : next.nextProxy = system.nextProxy)
    (nextProducer : next.nextProducer = system.nextProducer) : Housed created produced next := by
  obtain ⟨_, tidy, attended, proxies, producers⟩ := housed
  refine ⟨stowed, ?_, ?_, ?_, ?_⟩
  · rw [renderer]
    exact tidy
  · rw [renderer]
    exact attended
  · rw [renderer, nextProxy]
    exact proxies
  · rw [renderer, nextProducer]
    exact producers

theorem onResource (housed : Housed created produced system) (id : ResourceId)
    (change : Resource → Resource) : Housed created produced (system.onResource id change) :=
  housed.aside housed.stowed rfl rfl rfl

/-- The renderer keeps its queue and numbers nothing. -/
theorem onWorld {world : World} (housed : Housed created produced system)
    (tidy : World.Tidy created world) (attended : World.Attended produced (fun _ _ => False) world) :
    Housed created produced { system with renderer := { system.renderer with world } } :=
  ⟨housed.stowed, tidy, attended, housed.proxies, housed.producers⟩

theorem enqueue {command : RenderCommand} (housed : Housed created produced system)
    (introduces : command.IntroducesNothing) :
    Housed created produced (system.enqueue command) := by
  unfold System.enqueue Renderer.enqueue
  split
  · exact housed
  · refine ⟨housed.stowed, housed.tidy, housed.attended, ?_, ?_⟩
    · rw [RenderCommand.created_concat, introduces.1, Option.toList_none, List.append_nil]
      exact housed.proxies
    · rw [RenderCommand.produced_concat, introduces.2, Option.toList_none, List.append_nil]
      exact housed.producers

theorem createProxy (housed : Housed created produced system) (kind : ProxyKind) :
    Housed created produced
      (system.freshProxy.2.enqueue (.createProxy system.freshProxy.1 kind)) := by
  unfold System.enqueue Renderer.enqueue
  split
  · exact ⟨housed.stowed, housed.tidy, housed.attended, housed.proxies.skip, housed.producers⟩
  · refine ⟨housed.stowed, housed.tidy, housed.attended, ?_, ?_⟩
    · rw [RenderCommand.created_concat, ← List.append_assoc]
      exact housed.proxies.take
    · rw [RenderCommand.produced_concat]
      show Issued (produced ++ (RenderCommand.produced system.renderer.queue ++ [])) _
      rw [List.append_nil]
      exact housed.producers

theorem createProducer (housed : Housed created produced system) (texture : TextureId)
    (tile border : UInt32) (preallocates : Bool) :
    Housed created produced (system.freshProducer.2.enqueue
      (.createProducer system.freshProducer.1 texture tile border preallocates)) := by
  unfold System.enqueue Renderer.enqueue
  split
  · exact ⟨housed.stowed, housed.tidy, housed.attended, housed.proxies, housed.producers.skip⟩
  · refine ⟨housed.stowed, housed.tidy, housed.attended, ?_, ?_⟩
    · rw [RenderCommand.created_concat]
      show Issued (created ++ (RenderCommand.created system.renderer.queue ++ [])) _
      rw [List.append_nil]
      exact housed.proxies
    · rw [RenderCommand.produced_concat, ← List.append_assoc]
      exact housed.producers.take

/-- The renderer carries out its first command, and what that creates has been created. -/
theorem carryOut {command : RenderCommand} {rest : List RenderCommand} {world : World}
    (housed : Housed created produced system) (queued : system.renderer.queue = command :: rest)
    (ran : system.renderer.world.apply command = .ok world) :
    Housed (created ++ (Operation.perform command).creates?.toList)
      (produced ++ (Operation.perform command).produces?.toList)
      { system with renderer := { system.renderer with world, queue := rest } } := by
  obtain ⟨stowed, tidy, attended, proxies, producers⟩ := housed
  rw [queued, RenderCommand.created_cons, ← List.append_assoc] at proxies
  rw [queued, RenderCommand.produced_cons, ← List.append_assoc] at producers
  have freshProxy (proxy : ProxyId) (creates : proxy ∈ (Operation.perform command).creates?) :
      proxy ∉ created := fun before =>
    (List.nodup_append.mp (List.nodup_append.mp proxies.once).1).2.2 proxy before proxy
      (Option.mem_toList.mpr creates) rfl
  have freshProducer (id : ProducerId) (produces : id ∈ (Operation.perform command).produces?) :
      id ∉ produced := fun before =>
    (List.nodup_append.mp (List.nodup_append.mp producers.once).1).2.2 id before id
      (Option.mem_toList.mpr produces) rfl
  have carried : (Operation.perform command).carryOut system.renderer.world = .ok world := ran
  refine ⟨stowed, tidy.apply freshProxy ran,
    attended.carryOut (fun proxy creates => ?_) freshProducer carried, proxies, producers⟩
  refine Option.eq_none_iff_forall_ne_some.mpr fun owner found => freshProxy proxy creates ?_
  exact tidy.known proxy owner.kind (Proxies.kinds_eq_some.mpr ⟨owner, found, rfl⟩)

theorem upkeep {operation : Operation} {world : World} (housed : Housed created produced system)
    (upkeep : operation.IsUpkeep) (ran : operation.carryOut system.renderer.world = .ok world) :
    Housed created produced { system with renderer := { system.renderer with world } } := by
  have introduces : operation.creates? = none ∧ operation.produces? = none := by
    cases operation with
    | perform | announce => exact upkeep.elim
    | _ => exact ⟨rfl, rfl⟩
  obtain ⟨creates, produces⟩ := introduces
  have tidy := housed.tidy.carryOut (fun _ some => nomatch creates ▸ some) ran
  have attended := housed.attended.carryOut (fun _ some => nomatch creates ▸ some)
    (fun _ some => nomatch produces ▸ some) ran
  rw [creates, Option.toList_none, List.append_nil] at tidy
  rw [produces, Option.toList_none, List.append_nil] at attended
  exact housed.onWorld tidy attended

/-! ### Maps -/

theorem publish (housed : Housed created produced system) (id : ResourceId) :
    Housed created produced (system.publish id) := by
  unfold System.publish
  split
  · exact housed
  · have announced : Housed created produced { system with renderer := { system.renderer with
        world := system.renderer.world.onBinding id Binding.beginPublish } } :=
      housed.onWorld (housed.tidy.congr rfl rfl rfl rfl rfl) (housed.attended.congr rfl rfl)
    exact announced.enqueue ⟨rfl, rfl⟩

theorem setMap (housed : Housed created produced system) (id : ResourceId)
    (map : Option SharedMap) : Housed created produced (system.setMap id map) := by
  unfold System.setMap
  split
  · exact housed
  · split
    · exact housed
    · exact (housed.onResource id _).publish id

theorem succeed (housed : Housed created produced system) (id : ResourceId) (shared : SharedMap) :
    Housed created produced (system.succeed id shared) := (housed.onResource id _).setMap id _

theorem fail {failure : CompileFailure} (housed : Housed created produced system)
    (ran : system.fail id resource failure = .ok next) : Housed created produced next := by
  obtain ⟨_, rfl⟩ := fail_eq_ok.mp ran
  exact (housed.onResource id _).setMap id none

theorem fallBack (housed : Housed created produced system)
    (ran : system.fallBack id resource = .ok next) : Housed created produced next := by
  obtain ⟨_, rfl⟩ := fallBack_eq_ok.mp ran
  exact (housed.onResource id _).setMap id none

theorem complete {job : JobId} {result : Except CompileFailure SharedMap} {applied : Bool}
    (housed : Housed created produced system)
    (ran : system.complete id job result = .ok (applied, next)) :
    Housed created produced next := by
  rcases complete_cases ran with ⟨_, _, rfl⟩ | ⟨_, _, _, _, concluded⟩
  · exact housed
  · have forgotten := housed.onResource id fun resource =>
      { resource with jobs := resource.jobs.erase job }
    cases result with
    | ok shared =>
      cases concluded
      exact forgotten.succeed id shared
    | error failure => exact forgotten.fail concluded

/-! ### Getting a map -/

theorem cancel (housed : Housed created produced system) (id : ResourceId) (jobs : List JobId) :
    Housed created produced (system.onManager fun manager => manager.cancel id jobs) :=
  housed.aside ((Manager.unwritten_cancel ..).trans housed.stowed) rfl rfl rfl

theorem cancelCompilation (housed : Housed created produced system) (id : ResourceId) :
    Housed created produced (system.cancelCompilation id) := by
  unfold System.cancelCompilation
  split
  · exact housed
  · split
    · exact housed
    · exact (housed.cancel id _).onResource id _

theorem keepOnlyJob (housed : Housed created produced system) (id : ResourceId) (job : JobId) :
    Housed created produced (system.keepOnlyJob id job) := by
  unfold System.keepOnlyJob
  split
  · exact housed
  · dsimp only
    split
    · exact housed.onResource id _
    · exact (housed.cancel id _).onResource id _

theorem attach (housed : Housed created produced system)
    (attached : system.attach id identity = some next) : Housed created produced next := by
  obtain ⟨job, _, rfl⟩ := attach_eq_some.mp attached
  have joined : Housed created produced (system.onManager fun manager => manager.join job id) :=
    housed.aside housed.stowed rfl rfl rfl
  exact (joined.keepOnlyJob id job).setMap id none

theorem compile {synchronous ready : Bool} (housed : Housed created produced system)
    (ran : system.compile id resource identity synchronous = .ok (ready, next)) :
    Housed created produced next := by
  have cancelled := housed.cancelCompilation id
  obtain ⟨answer, workshop, served, heeds⟩ := compile_heeds ran
  generalize system.cancelCompilation id = start at served heeds cancelled
  have asked (request : CompileRequest) :
      (start.workshop.request start.heldMaps request).2.Stowed := cancelled.stowed.request request
  have stowed : workshop.Stowed := by
    have left := asked (start.wanted id resource identity synchronous)
    rw [served] at left
    exact left
  have begun : Housed created produced { start with workshop } :=
    cancelled.aside stowed rfl rfl rfl
  cases heeds with
  | given => exact begun.succeed id _
  | refused _ failed => exact begun.fail failed
  | waits => exact (begun.onResource id _).setMap id none

theorem obtain {ready : Bool} (housed : Housed created produced system)
    (ran : system.obtain id resource identity = .ok (ready, next)) :
    Housed created produced next := by
  rcases obtain_cases ran with ⟨_, _, attached⟩ | ⟨_, compiled⟩
  · exact housed.attach attached
  · exact housed.compile compiled

theorem cacheShaders {ready : Bool} (housed : Housed created produced system)
    (ran : system.cacheShaders id = .ok (ready, next)) : Housed created produced next := by
  rcases cacheShaders_cases ran with ⟨_, _, rfl⟩ | ⟨_, _, later, _, _, looked, _, settles⟩
  · exact housed
  · have looks : Housed created produced later := by
      obtain ⟨registry, store, rfl⟩ := lookup_apart looked
      exact housed.aside housed.stowed rfl rfl rfl
    cases settles with
    | given => exact (looks.cancelCompilation id).succeed id _
    | fallsBack _ fell => exact looks.fallBack fell
    | obtains _ obtained => exact looks.obtain obtained

theorem releaseMap (housed : Housed created produced system) (id : ResourceId) :
    Housed created produced (system.releaseMap id) :=
  ((housed.cancelCompilation id).onResource id _).publish id

end Housed

/-! ### Pieces of work -/

/-- A system is in order, whatever its renderer has created so far. -/
def InOrder (system : System) : Prop := ∃ created produced, Housed created produced system

/-- Pieces of work other than to create something by telling the renderer so. -/
def Piece.Discreet : Piece → Prop
  | .tell command => command.IntroducesNothing
  | _ => True

theorem Tends.inOrder {piece : Piece} {due due' : List FinishedCompile}
    (tends : Tends piece (due, system) (due', next)) (discreet : piece.Discreet)
    (inOrder : system.InOrder) : next.InOrder := by
  obtain ⟨created, produced, housed⟩ := inOrder
  cases tends with
  | addResource variant =>
    have entered : Housed created produced { system with
        resources := system.resources.insert system.nextResource { variant }
        nextResource := system.nextResource.next } := housed.aside housed.stowed rfl rfl rfl
    exact ⟨_, _, entered.enqueue ⟨rfl, rfl⟩⟩
  | vary id change => exact ⟨_, _, housed.onResource id _⟩
  | releaseMap id => exact ⟨_, _, housed.releaseMap id⟩
  | dropResource id =>
    have dropped : Housed created produced
        { system with resources := system.resources.erase id } :=
      housed.aside housed.stowed rfl rfl rfl
    exact ⟨_, _, dropped.enqueue ⟨rfl, rfl⟩⟩
  | createProxy kind => exact ⟨_, _, housed.createProxy kind⟩
  | tell command => exact ⟨_, _, housed.enqueue discreet⟩
  | cacheShaders ran => exact ⟨_, _, housed.cacheShaders ran⟩
  | finishAll => exact ⟨_, _, housed.aside housed.stowed.finishAll rfl rfl rfl⟩
  | processResults => exact ⟨_, _, housed.aside housed.stowed.stowing.process rfl rfl rfl⟩
  | complete _ ran => exact ⟨_, _, housed.complete ran⟩
  | conclude => exact ⟨_, _, housed⟩
  | carryOut queued ran => exact ⟨_, _, housed.carryOut queued ran⟩
  | updateDeferred ran =>
    have carried : Operation.updateDeferred.carryOut system.renderer.world = .ok _ :=
      map_eq_ok.mpr ⟨_, ran, rfl⟩
    have eased : Operation.updateDeferred.IsUpkeep := trivial
    exact ⟨_, _, housed.upkeep eased carried⟩

theorem Tended.inOrder {start : List FinishedCompile × System} {due : List FinishedCompile}
    (tended : Tended Piece.Discreet start due system) (inOrder : start.2.InOrder) :
    system.InOrder :=
  tended.kept (motive := fun _ system => InOrder system)
    (fun discreet before tends => tends.inOrder discreet before) inOrder

end System

end Shading
