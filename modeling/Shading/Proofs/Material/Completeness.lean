/-
Only complete maps cross the queue. Maps that are not compiled are never held by
anybody: what ends in the queue of the renderer comes from the registry, a
finished compile, the store or an inline archive, and each of these lets only
compiled maps through. So the check that the renderer makes cannot fail. A number
is given to one map only, now and later, and therefore a map that has been
compiled stays what it is.
-/

import Shading.Proofs.Material.Using
import Shading.Proofs.Render.Refusal

namespace Shading

theorem World.mem_maps_of_mapOf {world : World} {resource : ResourceId} {shared : SharedMap}
    (has : world.mapOf resource = some shared) : shared ∈ world.maps := by
  obtain ⟨material, found, map⟩ := Option.bind_eq_some_iff.mp has
  exact World.mem_maps.mpr ⟨_, Table.mem_entries_of_get? found, map⟩

/-! ### One number, one map -/

namespace Workshop

variable {needs : MapIdentity → Permutation → Prop} {past : List SharedMap} {stage last : Stage}
  {told : List Occurrence}

/-- A map that is offered gets a number of its own, or gives way to one that is known. -/
theorem genuine_offered {registry : Registry} (genuine : registry.Genuine past [])
    (live : List MapId) (map : ShaderMap) :
    ((registry.adopt map).2.register live (registry.adopt map).1).2.Genuine past [] :=
  ((genuine.adopt map).register live (List.mem_append_left _ List.mem_cons_self)).1.fewer
    fun _ member => List.mem_append_left _ (List.mem_cons_of_mem _ (List.mem_cons_of_mem _ member))

/-- Whatever step is taken, maps that are known are not mistaken for others. -/
theorem Step.genuine (step : Step needs stage told last)
    (genuine : stage.2.registry.Genuine past []) : last.2.registry.Genuine past [] := by
  cases step with
  | calm calm => exact calm.registry ▸ genuine
  | find held identity _ => exact genuine.find _ identity
  | purge held _ => exact genuine.purge _
  | @offer _ workshop held map _ _ => exact genuine_offered genuine (workshop.heldMaps held) map
  | @make outside workshop job entry profile made next held _ _ _ _ _ ran =>
    have grown := genuine_offered genuine (workshop.heldMaps held) (entry.filled profile)
    have registry : (workshop.makeMap held entry profile).2.registry = next.registry :=
      congrArg (fun answer => answer.2.registry) ran
    exact registry ▸ grown
  | pass | revise | fail | abort | abandon => exact genuine

/-- What is known of maps at a time, and of those that were known before. -/
structure Recalls (past : List SharedMap) (stage : Stage) : Prop where
  kept : Kept nothing stage
  genuine : stage.2.registry.Genuine past []

theorem Recalls.evolves (recalls : Recalls past stage) (evolves : Evolves nothing stage told last) :
    Recalls past last := by
  refine ⟨recalls.kept.evolves evolves, ?_⟩
  have genuine := recalls.genuine
  clear recalls
  induction evolves with
  | refl => exact genuine
  | next step _ inductionHypothesis => exact inductionHypothesis (step.genuine genuine)

theorem recalls_lasting (past : List SharedMap) : Lasting (Recalls past) where
  kept := Recalls.kept
  evolves := Recalls.evolves
  begun := fun request recalls absent =>
    ⟨recalls.kept.begun absent, (Calm.begun _ request).registry ▸ recalls.genuine⟩
  shutdown := fun recalls => ⟨recalls.kept.shutdown, recalls.genuine⟩

theorem Recalls.proceeds {fresh : MapIdentity → Prop} (recalls : Recalls past stage)
    (proceeds : Proceeds nothing fresh stage told last) : Recalls past last := by
  cases proceeds with
  | quietly evolves => exact recalls.evolves evolves
  | starting request before _ absent _ rest =>
    exact ((recalls_lasting past).begun request (recalls.evolves before) absent).evolves rest

/-- The maps that are held are known from then on. -/
theorem Recalls.remember (recalls : Recalls past stage) : Recalls stage.held stage :=
  ⟨recalls.kept, recalls.genuine.fewer fun shared member =>
    Registry.mem_known_of_get? (recalls.kept.entered shared member) past⟩

end Workshop

namespace System

open Workshop (Kept Recalls nothing)

variable {hand hand' past : List SharedMap} {system next : System}

theorem Uses.recalls (uses : Uses (hand, system) (hand', next))
    (recalls : Recalls past (system.stage hand)) : Recalls past (next.stage hand') := by
  cases uses with
  | act acts =>
    exact recalls.proceeds (acts.proceeds recalls.kept (fun _ _ needed => needed.elim)
      fun _ _ compiled => ⟨compiled, fun _ needed => needed.elim⟩)
  | manage managed => exact (Workshop.recalls_lasting past).managed recalls managed
  | tune => exact recalls
  | vary id change =>
    exact recalls.evolves (Moves.evolves (.onResource id fun _ _ => .inl)
      (List.subset_append_left _ _))

theorem Used.recalls (used : Used hand system) : Recalls [] (system.stage hand) := by
  induction used with
  | start settings catalog compiler store usesStore =>
    exact ⟨Workshop.kept_start compiler store usesStore, fun _ member => (nomatch member),
      fun _ member => (nomatch member), fun _ member => (nomatch member),
      fun _ member => (nomatch member)⟩
  | act _ acts recalls => exact (Uses.act acts).recalls recalls
  | manage _ managed recalls => exact (Uses.manage managed).recalls recalls
  | tune settings _ recalls => exact (Uses.tune settings).recalls recalls
  | vary id change _ recalls => exact (Uses.vary id change).recalls recalls

/-- However the system is used from now on, a map that is held now and one that will be held then
are the same if they have the same number. -/
theorem Used.same_content (used : Used hand system) {later : List SharedMap × System}
    (uses : Relation.ReflTransGen Uses (hand, system) later) :
    ∀ shared ∈ (system.stage hand).held, ∀ other ∈ (later.2.stage later.1).held,
      other.id = shared.id → other = shared := by
  have recalls : Recalls (system.stage hand).held (later.2.stage later.1) := by
    induction uses with
    | refl => exact used.recalls.remember
    | tail _ uses recalls => exact uses.recalls recalls
  intro shared known other held same
  exact recalls.genuine.alike other
    (Registry.mem_known_of_get? (recalls.kept.entered other held) _) shared
    (List.mem_append_left _ known) same

/-! ### Maps that are held are compiled -/

theorem Used.compiled (used : Used hand system) {shared : SharedMap}
    (member : shared ∈ (system.stage hand).held) : shared.map.isCompiled :=
  (used.kept.meets member).1

theorem held_of_renderer {shared : SharedMap} (member : shared ∈ system.renderer.maps)
    (hand : List SharedMap) : shared ∈ (system.stage hand).held :=
  List.mem_append_left _ (List.mem_append_right _ (List.mem_append_right _ member))

/-- However a system has been used, what is on its way to the renderer as the map of a resource is
compiled, or is no map, so that no command is refused for an incomplete map; what a resource has
in the renderer is compiled; and a map that is held by anybody is compiled and stays the same
under its number, however the system is used afterwards. -/
theorem Used.only_complete_maps (used : Used hand system) :
    (∀ resource map, .setMap resource map ∈ system.renderer.queue →
      map = none ∨ ∃ shared, map = some shared ∧ shared.map.isCompiled) ∧
    (∀ command ∈ system.renderer.queue, ∀ (world : World) material identity,
      world.apply command ≠ .error (.incompleteMap material identity)) ∧
    (∀ resource, system.renderer.world.mapOf resource = none ∨
      ∃ shared, system.renderer.world.mapOf resource = some shared ∧ shared.map.isCompiled) ∧
    ∀ shared ∈ (system.stage hand).held, shared.map.isCompiled ∧
      ∀ hand' later, Relation.ReflTransGen Uses (hand, system) (hand', later) →
        ∀ other ∈ (later.stage hand').held, other.id = shared.id → other = shared := by
  have sent {command : RenderCommand} (queued : command ∈ system.renderer.queue)
      (shared : SharedMap) (carries : command.map? = some shared) : shared.map.isCompiled :=
    used.compiled (held_of_renderer (Renderer.mem_maps.mpr (.inr ⟨command, queued, carries⟩)) hand)
  refine ⟨fun resource map queued => ?_, fun command queued world material identity refused => ?_,
    fun resource => ?_, fun shared member => ⟨used.compiled member, fun hand' later uses =>
      used.same_content uses shared member⟩⟩
  · cases map with
    | none => exact .inl rfl
    | some shared => exact .inr ⟨shared, rfl, sent queued shared rfl⟩
  · exact (world.admits_apply (sent queued)).other _ refused rfl
  · cases has : system.renderer.world.mapOf resource with
    | none => exact .inl rfl
    | some shared =>
      have member := Renderer.mem_maps.mpr (.inl (World.mem_maps_of_mapOf has))
      exact .inr ⟨shared, rfl, used.compiled (held_of_renderer member hand)⟩

/-- The map that is compiled for a material is complete on its way to the renderer, which does not
refuse it, and still has it when a frame has been drawn. -/
theorem painted_takes_map : ∃ system renderer command sent taken, Used [] system ∧
    command ∈ system.renderer.queue ∧ command.map? = some sent ∧ sent.map.isCompiled ∧
    (∀ (world : World) material identity,
      world.apply command ≠ .error (.incompleteMap material identity)) ∧
    system.renderer.runFrame = .ok renderer ∧ renderer.world.mapOf .first = some taken ∧
    taken = sent := by
  have ran : (painted.cacheShaders .first).toOption.bind (fun cached =>
      cached.2.renderer.queue[1]?.bind fun command => command.map?.bind fun sent =>
        cached.2.renderer.runFrame.toOption.bind fun renderer =>
          (renderer.world.mapOf .first).map fun taken => decide (taken.id = sent.id)) =
      some true := by
    cbv
  obtain ⟨⟨_, system⟩, cached, ran⟩ := Option.bind_eq_some_iff.mp ran
  obtain ⟨command, second, ran⟩ := Option.bind_eq_some_iff.mp ran
  obtain ⟨sent, carries, ran⟩ := Option.bind_eq_some_iff.mp ran
  obtain ⟨renderer, drawn, ran⟩ := Option.bind_eq_some_iff.mp ran
  obtain ⟨taken, has, same⟩ := Option.map_eq_some_iff.mp ran
  have used : Used [] system := .act (.act (.start { allowsAsyncCompilation := false } pixelCatalog
    { compile := fun _ => .ok ⟨[], 0⟩ } {} false) (.addResource _))
    (.cacheShaders (fun _ _ _ _ => trivial) (toOption_eq_some.mp cached))
  have queued : command ∈ system.renderer.queue := List.mem_of_getElem? second
  have framed := (Tended.rest anything [] system).runFrame trivial (toOption_eq_some.mp drawn)
  obtain ⟨_, admitted, _, lasting⟩ := used.only_complete_maps
  obtain ⟨compiled, same_content⟩ := lasting sent
    (held_of_renderer (Renderer.mem_maps.mpr (.inr ⟨command, queued, carries⟩)) [])
  have taken_held : taken ∈ (stage [] { system with renderer }).held :=
    held_of_renderer (Renderer.mem_maps.mpr (.inl (World.mem_maps_of_mapOf has))) []
  exact ⟨system, renderer, command, sent, taken, used, queued, carries, compiled,
    admitted command queued, toOption_eq_some.mp drawn, has,
    same_content [] _ framed.uses taken taken_held (of_decide_eq_true same)⟩

end System

end Shading
