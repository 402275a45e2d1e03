/-
Whatever is done with a library keeps the renderer its mirror: parameters are set
and cleared, results are handed out, and batches are brought up to date. The
renderer may carry out its commands at any time meanwhile, and what others do to
the workshop does not matter.
-/

import Shading.Proofs.Material.Mirroring
import Shading.Proofs.Material.Using

namespace Shading.Library

variable {library next : Library} {target : Target} {role : Role} {name : String}

/-! ### Parameters -/

/-- The same role, with other parameters. -/
theorem plays_onParameters (found : library.role? target = some role)
    (change : Table String ParameterValue → Table String ParameterValue) :
    Plays library (library.onParameters target change) target
      (some { role with parameters := change role.parameters }) := by
  cases target with
  | material key =>
    obtain ⟨material, there, rfl⟩ := Option.map_eq_some_iff.mp found
    have same := Slots.SameKeys.modify library.materials key fun material =>
      { material with parameters := change material.parameters }
    have entries (other : SlotKey) :
        (library.onParameters (.material key) change).materials.get? other =
          if other = key then some { material with parameters := change material.parameters }
          else library.materials.get? other := by
      refine (Slots.get?_modify ..).trans ?_
      rw [there]
      rfl
    have derived : (library.onParameters (.material key) change).derived = library.derived := rfl
    exact .of_materials derived same.orderly (fun _ => same.given) entries
  | derived key =>
    obtain ⟨entry, there, rfl⟩ := Option.map_eq_some_iff.mp found
    have same := Slots.SameKeys.modify library.derived key fun found =>
      { found with parameters := change found.parameters }
    have entries (other : SlotKey) :
        (library.onParameters (.derived key) change).derived.get? other =
          if other = key then some { entry with parameters := change entry.parameters }
          else library.derived.get? other := by
      refine (Slots.get?_modify ..).trans ?_
      rw [there]
      rfl
    have materials : (library.onParameters (.derived key) change).materials = library.materials :=
      rfl
    exact .of_derived materials same.orderly (fun _ => same.given) entries

theorem onParameters_system (library : Library) (target : Target)
    (change : Table String ParameterValue → Table String ParameterValue) :
    (library.onParameters target change).system = library.system ∧
      (library.onParameters target change).defaultMaterial = library.defaultMaterial := by
  cases target <;> exact ⟨rfl, rfl⟩

theorem role?_of_proxy? {proxy : ProxyId} (live : library.proxy? target = some proxy) :
    ∃ role, library.role? target = some role ∧ role.proxy = proxy := by
  rw [proxy?_eq] at live
  exact Option.map_eq_some_iff.mp live

namespace Mirrored

/-- Parameters are changed on both sides alike. -/
theorem onParameters {command : RenderCommand} {alter : RenderProxy → RenderProxy}
    {change : Table String ParameterValue → Table String ParameterValue}
    (mirrored : library.Mirrored) (found : library.role? target = some role)
    (elsewhere : command.resource? = none)
    (recasts : ∀ cast, command.recast cast = cast.change role.proxy alter)
    (alters : ∀ kind, alter { kind, overrides := role.parameters } =
      { kind, overrides := change role.parameters }) :
    ((library.onParameters target change).enqueue command).Mirrored := by
  obtain ⟨system, default⟩ := onParameters_system library target change
  have plays := plays_onParameters found change
  exact mirrored.reparameter found ⟨plays.keys.trans (.of_slots rfl rfl), plays.roles⟩ elsewhere
    recasts alters (congrArg (System.enqueue · command) system) default

theorem setParameter {value : ParameterValue} (mirrored : library.Mirrored)
    (ran : library.setParameter target name value = .ok next) : next.Mirrored := by
  obtain ⟨proxy, live, rfl⟩ := setParameter_cases ran
  obtain ⟨role, found, rfl⟩ := role?_of_proxy? live
  exact mirrored.onParameters found rfl (fun _ => rfl) fun _ => rfl

theorem clearParameter (mirrored : library.Mirrored)
    (ran : library.clearParameter target name = .ok next) : next.Mirrored := by
  obtain ⟨proxy, live, rfl⟩ | rfl := clearParameter_cases ran
  · obtain ⟨role, found, rfl⟩ := role?_of_proxy? live
    exact mirrored.onParameters found rfl (fun _ => rfl) fun _ => rfl
  · exact mirrored

/-! ### Results -/

theorem completeAll {finished : FinishedCompile} {count : Nat} (mirrored : library.Mirrored)
    (ran : library.completeAll finished = .ok (count, next)) : next.Mirrored := by
  obtain ⟨system, ⟨serves, steady⟩, rfl⟩ := completeAll_kept
    (motive := fun next =>
      System.Serves library.system next ∧ System.Steady library.system next)
    (fun before completed => ⟨before.1.trans (.either (System.Exchanges.complete completed)),
      before.2.trans (.complete completed)⟩)
    ⟨.refl _, .refl _⟩ ran
  exact mirrored.steadily serves steady

/-- What happens in the workshop does not matter. -/
theorem onWorkshop (mirrored : library.Mirrored) (workshop : Workshop) :
    Mirrored { library with system := { library.system with workshop } } :=
  mirrored.steadily (.of_quiet (.of_resources rfl rfl rfl)) (.onWorkshop _ _)

theorem processResults {count : Nat} (mirrored : library.Mirrored)
    (ran : library.processResults = .ok (count, next)) : next.Mirrored :=
  processResults_kept (fun _ before completed => before.completeAll completed)
    (mirrored.onWorkshop _) ran

theorem finishAll {count : Nat} (mirrored : library.Mirrored)
    (ran : library.finishAll = .ok (count, next)) : next.Mirrored :=
  (mirrored.onWorkshop _).processResults ran

/-! ### The renderer at work -/

/-- Another state of the renderer that leads to the same in the end. -/
theorem onRenderer {renderer : Renderer} (mirrored : library.Mirrored)
    (here : renderer.isGone = library.system.renderer.isGone)
    (settled : ∀ id, renderer.settled id = library.system.renderer.settled id)
    (cast : renderer.cast = library.system.renderer.cast) :
    Mirrored { library with system := { library.system with renderer } } :=
  ⟨mirrored.faithful.onRenderer here settled,
    mirrored.staged.congr (.of_slots rfl rfl) rfl cast rfl rfl,
    mirrored.stocked.congr rfl (fun _ => rfl) rfl⟩

theorem carryOut {command : RenderCommand} {rest : List RenderCommand} {world : World}
    (mirrored : library.Mirrored) (queued : library.system.renderer.queue = command :: rest)
    (ran : library.system.renderer.world.apply command = .ok world) :
    Mirrored { library with system := { library.system with
      renderer := { library.system.renderer with world, queue := rest } } } :=
  mirrored.onRenderer rfl (Renderer.settled_of_apply queued ran)
    (Renderer.cast_of_apply queued ran)

/-- Whatever the world does by itself. -/
theorem upkeep {world : World} (mirrored : library.Mirrored)
    (rests : World.Rests library.system.renderer.world world)
    (cast : world.cast = library.system.renderer.world.cast) :
    Mirrored { library with system := { library.system with
      renderer := { library.system.renderer with world } } } :=
  mirrored.onRenderer rfl (Renderer.settled_of_rests rests) (Renderer.cast_onWorld cast)

theorem runFrame {renderer : Renderer} (mirrored : library.Mirrored)
    (ran : library.system.renderer.runFrame = .ok renderer) :
    Mirrored { library with system := { library.system with renderer } } := by
  refine Renderer.runFrame_kept (motive := fun renderer =>
      Mirrored { library with system := { library.system with renderer } })
    (fun _ _ _ _ before queued applied => carryOut before queued applied)
    (fun _ _ _ before deferred => ?_) mirrored ran
  exact upkeep before (World.Rests.lasting.updateDeferred ⟨rfl, rfl⟩ deferred)
    ((World.lasting_cast _).updateDeferred rfl deferred)

theorem flush (mirrored : library.Mirrored) (ran : library.flush = .ok next) : next.Mirrored := by
  obtain rfl | ⟨renderer, flushed, rfl⟩ := flush_cases ran
  · exact mirrored
  · have fenced : (library.enqueue .fence).Mirrored := mirrored.enqueue rfl fun _ => rfl
    exact fenced.runFrame flushed

theorem lasting : Lasting Mirrored where
  synced := syncPermutation
  cached := cacheShaders
  recached := fun _ before => before.enqueue rfl fun _ => rfl
  reported := fun _ _ before => before.enqueue rfl fun _ => rfl
  flushed := flush

/-- Whatever a library does. -/
theorem does (mirrored : library.Mirrored) (does : library.Does next) : next.Mirrored := by
  cases does with
  | addMaterial ran => exact (mirrored.addMaterial ran).1
  | setDefaultMaterial ran => exact mirrored.setDefaultMaterial ran
  | replaceDescription ran => exact mirrored.replaceDescription ran
  | removeMaterial key => exact mirrored.removeMaterial key
  | addInstance ran => exact mirrored.addInstance ran
  | removeInstance key => exact mirrored.removeInstance key
  | setParameter ran => exact mirrored.setParameter ran
  | clearParameter ran => exact mirrored.clearParameter ran
  | cacheShaders ran => exact mirrored.cacheShaders ran
  | processResults ran => exact mirrored.processResults ran
  | finishAll ran => exact mirrored.finishAll ran
  | flush ran => exact mirrored.flush ran
  | commit ran => exact lasting.commit mirrored ran
  | clear =>
    exact clear_kept (fun key before => before.removeInstance key)
      (fun key before => before.removeMaterial key) mirrored

end Mirrored

end Shading.Library
