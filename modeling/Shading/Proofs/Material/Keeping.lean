/-
What is kept by work that is done piece by piece: a frame of the renderer, the
shaders and results of many resources, and batches. A batch brings its targets up
to date and then those that depend on them, one after another, and in the end it
may wait for the renderer. What each piece keeps, all of them together keep.
-/

import Shading.Material.Update
import Shading.Proofs.Sequence

namespace Shading

namespace Renderer

variable {motive : Renderer → Prop} {renderer next : Renderer}

/-- What is kept by each command that is carried out is kept when all are, and then none is left. -/
theorem processCommands_kept {count : Nat}
    (carryOut : ∀ (renderer : Renderer) command rest world, motive renderer →
      renderer.queue = command :: rest → renderer.world.apply command = .ok world →
      motive { renderer with world, queue := rest })
    (start : motive renderer) (ran : renderer.processCommands = .ok (count, next)) :
    motive next ∧ next.queue = [] := by
  obtain ⟨world, carried, same⟩ := bind_eq_ok.mp ran
  cases same
  refine ⟨?_, rfl⟩
  exact foldlM_invariant (motive := fun queue world => motive { renderer with world, queue })
    (fun command rest world next before applied =>
      carryOut { renderer with world, queue := command :: rest } command rest next before rfl
        applied)
    _ _ world start carried

/-- If catching up with what has been put off keeps it too, so does a whole frame. -/
theorem runFrame_kept
    (carryOut : ∀ (renderer : Renderer) command rest world, motive renderer →
      renderer.queue = command :: rest → renderer.world.apply command = .ok world →
      motive { renderer with world, queue := rest })
    (updateDeferred : ∀ (renderer : Renderer) count world, motive renderer →
      renderer.world.updateDeferred = .ok (count, world) → motive { renderer with world })
    (start : motive renderer) (ran : renderer.runFrame = .ok next) : motive next := by
  obtain ⟨⟨count, processed⟩, processing, ran⟩ := bind_eq_ok.mp ran
  obtain ⟨⟨more, updated⟩, updating, same⟩ := bind_eq_ok.mp ran
  cases same
  obtain ⟨⟨caught, later⟩, deferred, same⟩ := bind_eq_ok.mp updating
  cases same
  exact updateDeferred processed _ later (processCommands_kept carryOut start processing).1 deferred

end Renderer

namespace Library

variable {motive : Library → Prop} {library next : Library}

/-! ### Shaders and results -/

/-- The shaders of a target are cached one resource after another, and nothing but the system is
worked on. -/
theorem cacheShaders_kept {motive : System → Prop} {target : Target} {ready : Bool}
    (each : ∀ {system next : System} {id ready}, motive system →
      system.cacheShaders id = .ok (ready, next) → motive next)
    (start : motive library.system) (ran : library.cacheShaders target = .ok (ready, next)) :
    ∃ system, motive system ∧ next = { library with system } := by
  unfold Library.cacheShaders at ran
  split at ran
  · cases ran
    exact ⟨library.system, start, rfl⟩
  · obtain ⟨⟨done, system⟩, folded, ran⟩ := bind_eq_ok.mp ran
    cases ran
    refine ⟨system, ?_, rfl⟩
    refine foldlM_kept (motive := fun state => motive state.2)
      (fun id state after before stepped => ?_) _ _ _ start folded
    obtain ⟨⟨ready, system⟩, cached, stepped⟩ := bind_eq_ok.mp stepped
    cases stepped
    exact each before cached

/-- So it is with a finished compile that is handed to its resources. -/
theorem completeAll_kept {motive : System → Prop} {finished : FinishedCompile} {count : Nat}
    (each : ∀ {system next : System} {id applied}, motive system →
      system.complete id finished.job finished.result = .ok (applied, next) → motive next)
    (start : motive library.system) (ran : library.completeAll finished = .ok (count, next)) :
    ∃ system, motive system ∧ next = { library with system } := by
  obtain ⟨⟨applied, system⟩, folded, ran⟩ := bind_eq_ok.mp ran
  cases ran
  refine ⟨system, ?_, rfl⟩
  refine foldlM_kept (motive := fun state => motive state.2)
    (fun id state after before stepped => ?_) _ _ _ start folded
  obtain ⟨⟨one, system⟩, completed, stepped⟩ := bind_eq_ok.mp stepped
  cases stepped
  exact each before completed

theorem processResults_kept {start : Library} {count : Nat}
    (each : ∀ {library next : Library} {finished count},
      finished ∈ start.system.processResults.1 → motive library →
      library.completeAll finished = .ok (count, next) → motive next)
    (before : motive { start with system := start.system.processResults.2 })
    (ran : start.processResults = .ok (count, next)) : motive next := by
  have all := foldlM_invariant (motive := fun (left : List FinishedCompile) state =>
      left ⊆ start.system.processResults.1 ∧ motive state.2)
    (fun finished rest state after ⟨among, before⟩ stepped => by
      obtain ⟨⟨more, next⟩, completed, same⟩ := bind_eq_ok.mp stepped
      cases same
      exact ⟨fun _ member => among (List.mem_cons_of_mem _ member),
        each (among List.mem_cons_self) before completed⟩)
    _ _ _ ⟨List.Subset.refl _, before⟩ ran
  exact all.2

/-! ### Parts of a batch -/

/-- Waiting for a renderer that is there is a frame that is run up to a fence. -/
theorem flush_cases (ran : library.flush = .ok next) : next = library ∨
    ∃ renderer, (library.system.renderer.enqueue .fence).runFrame = .ok renderer ∧
      next = { library with system := { library.system with renderer } } := by
  unfold flush at ran
  split at ran
  · cases ran
    exact .inl rfl
  · obtain ⟨renderer, flushed, same⟩ := bind_eq_ok.mp ran
    exact .inr ⟨renderer, flushed, (Except.ok.inj same).symm⟩

/-- Waiting for the renderer is about the renderer only. -/
theorem flushIf_eq_ok {wanted : Bool} (ran : library.flushIf wanted = .ok next) :
    ∃ renderer, next = { library with system := { library.system with renderer } } := by
  unfold flushIf at ran
  split at ran
  · obtain rfl | ⟨renderer, _, same⟩ := flush_cases ran
    · exact ⟨_, rfl⟩
    · exact ⟨renderer, same⟩
  · cases ran
    exact ⟨_, rfl⟩

/-- A target that is an instance is first brought in line, and then the shaders are cached. -/
theorem updateTarget_cases {target : Target} {updated : Updated}
    (ran : library.updateTarget target = .ok (updated, next)) :
    ∃ middle ready, middle.cacheShaders target = .ok (ready, next) ∧
      updated = next.activeResources target ∧
      ((∃ key, target = .material key) ∧ middle = library ∨
        ∃ key needed, target = .derived key ∧
          library.syncPermutation key = .ok (needed, middle)) := by
  unfold updateTarget at ran
  cases target with
  | material key =>
    obtain ⟨middle, same, ran⟩ := bind_eq_ok.mp ran
    cases same
    obtain ⟨⟨ready, last⟩, caching, same⟩ := bind_eq_ok.mp ran
    cases same
    exact ⟨library, ready, caching, rfl, .inl ⟨⟨key, rfl⟩, rfl⟩⟩
  | derived key =>
    obtain ⟨middle, syncs, ran⟩ := bind_eq_ok.mp ran
    obtain ⟨⟨needed, synced⟩, syncing, same⟩ := map_eq_ok.mp syncs
    cases same
    obtain ⟨⟨ready, last⟩, caching, same⟩ := bind_eq_ok.mp ran
    cases same
    exact ⟨synced, ready, caching, rfl, .inr ⟨key, needed, rfl, syncing⟩⟩

/-- An instance that needs resources of its own has their shaders cached, and in the end the
renderer is told. -/
theorem updateDependent_cases {key : SlotKey} {updated : Updated}
    (ran : library.updateDependent key = .ok (updated, next)) :
    ∃ needed synced middle, library.syncPermutation key = .ok (needed, synced) ∧
      (needed = true ∧ (∃ ready, synced.cacheShaders (.derived key) = .ok (ready, middle)) ∧
          updated = middle.activeResources (.derived key) ∨
        needed = false ∧ middle = synced ∧ updated = []) ∧
      (next = middle ∨ ∃ proxy, next = middle.enqueue (.recache proxy false)) := by
  obtain ⟨⟨needed, synced⟩, syncing, ran⟩ := bind_eq_ok.mp ran
  cases needed with
  | true =>
    obtain ⟨⟨ready, middle⟩, caching, same⟩ := bind_eq_ok.mp ran
    cases same
    refine ⟨true, synced, middle, syncing, .inl ⟨rfl, ⟨ready, caching⟩, rfl⟩, ?_⟩
    split
    · exact .inr ⟨_, rfl⟩
    · exact .inl rfl
  | false =>
    cases ran
    refine ⟨false, synced, synced, syncing, .inr ⟨rfl, rfl, rfl⟩, ?_⟩
    split
    · exact .inr ⟨_, rfl⟩
    · exact .inl rfl

/-! ### Batches -/

/-- Something that each part of a batch keeps, apart from waiting for the renderer. -/
structure Batching (motive : Library → Prop) : Prop where
  synced : ∀ {library key needed next}, motive library →
    library.syncPermutation key = .ok (needed, next) → motive next
  cached : ∀ {library target ready next}, motive library →
    library.cacheShaders target = .ok (ready, next) → motive next
  recached : ∀ {library} proxy, motive library → motive (library.enqueue (.recache proxy false))
  reported : ∀ {library} updated recreates, motive library →
    motive (library.enqueue (.materialsUpdated updated recreates))

/-- Something that each part of a batch keeps, and waiting for the renderer too. -/
structure Lasting (motive : Library → Prop) : Prop extends Batching motive where
  flushed : ∀ {library next}, motive library → library.flush = .ok next → motive next

namespace Batching

theorem updateTarget {target : Target} {updated : Updated} (batching : Batching motive)
    (start : motive library) (ran : library.updateTarget target = .ok (updated, next)) :
    motive next := by
  obtain ⟨middle, ready, caching, _, ⟨_, rfl⟩ | ⟨key, needed, rfl, syncing⟩⟩ :=
    updateTarget_cases ran
  · exact batching.cached start caching
  · exact batching.cached (batching.synced start syncing) caching

theorem updateDependent {key : SlotKey} {updated : Updated} (batching : Batching motive)
    (start : motive library) (ran : library.updateDependent key = .ok (updated, next)) :
    motive next := by
  obtain ⟨needed, synced, middle, syncing, cached, told⟩ := updateDependent_cases ran
  have before := batching.synced start syncing
  have after : motive middle := by
    obtain ⟨_, ⟨ready, caching⟩, _⟩ | ⟨_, rfl, _⟩ := cached
    · exact batching.cached before caching
    · exact before
  obtain rfl | ⟨proxy, rfl⟩ := told
  · exact after
  · exact batching.recached proxy after

theorem updateEach {α : Type} {update : Library → α → Except Fault (Updated × Library)}
    {subjects : List α} {updated : Updated}
    (each : ∀ {subject library updated next}, motive library →
      update library subject = .ok (updated, next) → motive next)
    (start : motive library) (ran : library.updateEach update subjects = .ok (updated, next)) :
    motive next := by
  refine foldlM_kept (motive := fun state => motive state.2)
    (fun subject state after before stepped => ?_) _ _ _ start ran
  obtain ⟨⟨more, later⟩, ran, same⟩ := bind_eq_ok.mp stepped
  cases same
  exact each before ran

/-- Bringing everything up to date, and telling the renderer what was. -/
theorem commit {options : UpdateOptions} {targets : List Target} (batching : Batching motive)
    (start : motive library) (ran : library.commit options targets = .ok next) :
    library = next ∨ ∃ told, motive told ∧ told.flushIf options.synchronous = .ok next := by
  unfold Library.commit at ran
  split at ran
  · cases ran
    exact .inl rfl
  · obtain ⟨⟨first, middle⟩, targeted, ran⟩ := bind_eq_ok.mp ran
    obtain ⟨⟨second, last⟩, followed, ran⟩ := bind_eq_ok.mp ran
    have updated := updateEach batching.updateTarget start targeted
    have caught := updateEach batching.updateDependent updated followed
    exact .inr ⟨_, batching.reported (first ++ second) options.recreates caught, ran⟩

end Batching

theorem Lasting.commit {options : UpdateOptions} {targets : List Target}
    (lasting : Lasting motive) (start : motive library)
    (ran : library.commit options targets = .ok next) : motive next := by
  rcases lasting.toBatching.commit start ran with rfl | ⟨told, after, ran⟩
  · exact start
  · unfold Library.flushIf at ran
    split at ran
    · exact lasting.flushed after ran
    · cases ran
      exact after

/-- What is kept when one target goes is kept when all go. -/
theorem clear_kept
    (removeInstance : ∀ {library} key, motive library → motive (removeInstance library key))
    (removeMaterial : ∀ {library} key, motive library → motive (removeMaterial library key))
    (start : motive library) : motive library.clear := by
  have instances : motive (library.derived.keys.foldl Library.removeInstance library) :=
    List.foldlRecOn (motive := motive) _ _ start fun _ before key _ => removeInstance key before
  exact List.foldlRecOn (motive := motive) _ _ instances
    fun _ before key _ => removeMaterial key before

end Library

end Shading
