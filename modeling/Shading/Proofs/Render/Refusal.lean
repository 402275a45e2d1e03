/-
What is refused for an incomplete map. Many things can keep the world from
going on, but only a command that sends an uncompiled map meets the check that
maps are complete: bringing caches up to date looks at maps that were let in.
-/

import Shading.Proofs.Sequence
import Shading.Render.Execution

namespace Shading

/-- Whether the work ended because of an incomplete map. -/
def Fault.isIncompleteMap : Fault → Bool
  | .incompleteMap _ _ => true
  | _ => false

variable {α β : Type}

/-- Nothing was refused for an incomplete map; something else may have gone wrong. -/
structure Admits (result : Except Fault α) : Prop where
  other : ∀ fault, result = .error fault → ¬ fault.isIncompleteMap

namespace Admits

theorem ok (value : α) : Admits (.ok value) := ⟨fun _ failed => nomatch failed⟩

theorem error {fault : Fault} (other : fault.isIncompleteMap = false) :
    Admits (.error fault : Except Fault α) :=
  ⟨fun _ same => Except.error.inj same ▸ Bool.not_eq_true _ ▸ other⟩

theorem bind {first : Except Fault α} {then_ : α → Except Fault β} (admits : Admits first)
    (rest : ∀ value, Admits (then_ value)) : Admits (first >>= then_) := by
  cases first with
  | error fault => exact ⟨fun _ failed => admits.other _ (Except.error.inj failed ▸ rfl)⟩
  | ok value => exact rest value

theorem map {result : Except Fault α} {change : α → β} (admits : Admits result) :
    Admits (result.map change) := by
  cases result with
  | error fault => exact ⟨fun _ failed => admits.other _ (Except.error.inj failed ▸ rfl)⟩
  | ok value => exact ok _

theorem foldlM {step : β → α → Except Fault β} (each : ∀ state subject, Admits (step state subject))
    (subjects : List α) (state : β) : Admits (subjects.foldlM step state) := by
  induction subjects generalizing state with
  | nil => exact ok state
  | cons first rest inductionHypothesis =>
    rw [List.foldlM_cons]
    exact (each state first).bind inductionHypothesis

end Admits

/-! ### Rebuilding caches -/

namespace Streaming

theorem admits_agree (streaming : Streaming) (index : Nat) (agreed : Agreed)
    (layers : List (Option ProducerId)) : Admits (streaming.agree index agreed layers) := by
  fun_induction streaming.agree index agreed layers with
  | case1 => exact .ok _
  | case2 _ _ _ inductionHypothesis | case4 _ _ _ _ _ inductionHypothesis => assumption
  | case3 | case6 => exact .error rfl
  | case5 => assumption

theorem admits_allocate (streaming : Streaming) (layers : List (Option ProducerId)) :
    Admits (streaming.allocate layers) := by
  unfold allocate
  split
  · exact .error rfl
  · exact (admits_agree streaming 0 none layers).bind fun _ => .ok _

end Streaming

theorem ExpressionSet.admits_fill (set : ExpressionSet) (source : ParameterSource)
    (blocks : List StackBlock) (buffer : List UInt8) : Admits (set.fill source blocks buffer) := by
  unfold fill
  dsimp only
  split
  · exact .error rfl
  · split
    · exact .error rfl
    · exact .ok _

theorem ExpressionSet.admits_fillInWords (set : ExpressionSet) (source : ParameterSource)
    (blocks : List StackBlock) (buffer : List UInt8) :
    Admits (set.fillInWords source blocks buffer) := by
  unfold fillInWords
  split
  · exact .error rfl
  · exact set.admits_fill ..

namespace UniformCache

theorem admits_rebuild (cache : UniformCache) (proxy : ProxyId) (resource : ResourceId)
    (map : SharedMap) (source : ParameterSource) (streaming : Streaming) (nextBuffer : BufferId) :
    Admits (cache.rebuild proxy resource map source streaming nextBuffer) := by
  refine (Admits.foldlM (fun composition stack => ?_) _ _).bind fun composition =>
    (ExpressionSet.admits_fillInWords ..).bind fun content => .ok _
  unfold composeStack
  split
  · exact .ok _
  · exact (Streaming.admits_allocate ..).bind fun _ => .ok _

end UniformCache

namespace World

theorem admits_evaluate (world : World) (proxy : ProxyId) (tier : Tier) :
    Admits (world.evaluate proxy tier) := by
  unfold evaluate
  split
  · exact (UniformCache.admits_rebuild ..).bind fun _ => .ok _
  · exact .ok _

theorem admits_updateIfNeeded (world : World) (proxy : ProxyId) (tier : Tier) :
    Admits (world.updateIfNeeded proxy tier) := by
  unfold updateIfNeeded
  split
  · split
    · exact .ok _
    · exact (admits_evaluate world proxy tier).map
  · exact .ok _

/-! ### Commands -/

theorem admits_markStale (world : World) (proxy : ProxyId) : Admits (world.markStale proxy) := by
  unfold markStale
  split
  · exact .ok _
  · exact .foldlM (fun world tier => admits_updateIfNeeded world proxy tier) _ world

theorem admits_invalidate (recreate : Bool) (world : World) (proxy : ProxyId) :
    Admits (world.invalidate recreate proxy) := by
  unfold invalidate
  split
  · exact .ok _
  · exact admits_markStale _ proxy

theorem admits_invalidateFamily (world : World) (proxy : ProxyId) :
    Admits (world.invalidateFamily proxy) :=
  .foldlM (admits_invalidate false) _ world

theorem admits_invalidateDependents (world : World) (resource : ResourceId) (tier : Tier)
    (recreate : Bool) : Admits (world.invalidateDependents resource tier recreate) := by
  refine .foldlM (fun world (proxy, tier) => ?_) _ world
  show Admits (world.invalidateTier recreate proxy tier)
  unfold invalidateTier
  split
  · exact .ok _
  · exact admits_markStale _ proxy

/-- A command is not refused for an incomplete map unless it sends an uncompiled one. -/
theorem admits_apply (world : World) {command : RenderCommand}
    (complete : ∀ shared, command.map? = some shared → shared.map.isCompiled) :
    Admits (world.apply command) := by
  unfold apply
  generalize world.count _ = world
  cases command with
  | setMap resource map =>
    show Admits (world.setMap resource map)
    unfold setMap
    split
    · exact .ok _
    · exact admits_invalidateDependents ..
    · rw [if_pos (complete _ rfl)]
      exact admits_invalidateDependents ..
  | releaseMaterial resource =>
    show Admits (world.releaseMaterial resource)
    unfold releaseMaterial
    split
    · exact .ok _
    · exact (admits_invalidateDependents ..).bind fun _ => .ok _
  | createProxy proxy kind => exact admits_markStale _ proxy
  | setMaterials proxy materials =>
    show Admits (world.setMaterials proxy materials)
    unfold setMaterials
    split
    · exact .ok _
    · split
      · exact .ok _
      · exact admits_invalidateFamily _ proxy
  | setParameter proxy name _ | clearParameter proxy name =>
    show Admits (world.setParameter proxy name _)
    unfold setParameter
    split
    · exact .ok _
    · exact admits_invalidateFamily _ proxy
  | recache proxy recreate => exact admits_invalidate recreate world proxy
  | removeProxy proxy => exact .foldlM admits_invalidateFamily _ _
  | destroyProducer producer => exact .foldlM (admits_invalidate false) _ _
  | registerMaterial | setDefault | createProducer | materialsUpdated | fence => exact .ok _

end World

end Shading
