/-
Updates in batches. Targets are collected first and brought up to date together
at the end: each target, then every instance made of one, parents before
children. An update can wait for the renderer before and after.
-/

import Shading.Material.Library

namespace Shading

structure UpdateOptions where
  /-- Whether to wait for the renderer. -/
  synchronous : Bool := false
  /-- Whether the renderer is told to recreate its state. -/
  recreates : Bool := true
deriving DecidableEq, Inhabited

namespace Library

/-- Waits until the renderer has carried out everything. -/
def flush (library : Library) : Except Fault Library := do
  if library.system.renderer.isGone then .ok library
  else
    let renderer ← (library.system.renderer.enqueue .fence).runFrame
    .ok { library with system := { library.system with renderer } }

def flushIf (library : Library) (wanted : Bool) : Except Fault Library :=
  if wanted then library.flush else .ok library

/-- The resources of a target for the active tiers. -/
def activeResources (library : Library) (target : Target) : List ResourceId :=
  library.system.settings.activeTiers.filterMap (library.ownResources target).get

/-- The resources updated so far. -/
abbrev Updated := List ResourceId

/-- Brings a target of the batch up to date. -/
def updateTarget (library : Library) (target : Target) : Except Fault (Updated × Library) := do
  let library ← match target with
    | .material _ => .ok library
    | .derived key => (library.syncPermutation key).map Prod.snd
  let (_, library) ← library.cacheShaders target
  .ok (library.activeResources target, library)

/-- Brings an instance of a target up to date. -/
def updateDependent (library : Library) (key : SlotKey) : Except Fault (Updated × Library) := do
  let (needed, library) ← library.syncPermutation key
  let (_, library) ←
    if needed then library.cacheShaders (.derived key) else .ok (true, library)
  let updated := if needed then library.activeResources (.derived key) else []
  .ok (updated, match library.proxy? (.derived key) with
    | some proxy => library.enqueue (.recache proxy false)
    | none => library)

/-- Does the same for many, one after another. -/
def updateEach {α : Type} (update : Library → α → Except Fault (Updated × Library))
    (library : Library) (subjects : List α) : Except Fault (Updated × Library) :=
  subjects.foldlM (fun (updated, library) subject => do
    let (more, library) ← update library subject
    .ok (updated ++ more, library)) ([], library)

/-- The instances that depend on targets without being targets themselves,
parents first. -/
def dependentsOfAll (library : Library) (targets : List Target) : List SlotKey :=
  let all := (targets.flatMap library.dependents).eraseDups
  library.sortByDepth (all.filter fun key => .derived key ∉ targets)

/-- Brings a batch of targets up to date. An empty batch changes nothing. -/
def commit (library : Library) (options : UpdateOptions) (targets : List Target) :
    Except Fault Library :=
  if targets = [] then .ok library
  else do
    let (first, library) ← library.updateEach updateTarget targets
    let (second, library) ← library.updateEach updateDependent (library.dependentsOfAll targets)
    let library := library.enqueue (.materialsUpdated (first ++ second) options.recreates)
    library.flushIf options.synchronous

end Library

end Shading
