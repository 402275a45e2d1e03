/-
What a batch tells the renderer. While it brings its targets and their dependents
up to date it sends all sorts of commands, but it reports what was updated only
when all of them are done: once, and just what they own by then. A batch ends in
no other way unless an instance is left whose base material is gone, the default
material cannot be had, or the renderer does not get through its commands.
-/

import Mathlib
import Shading.Proofs.Material.Offering
import Shading.Proofs.Material.Owning
import Shading.Proofs.Material.Sparing

namespace Shading

/-- The resources that a command reports as updated. -/
def RenderCommand.report? : RenderCommand → Option (List ResourceId × Bool)
  | .materialsUpdated resources recreate => some (resources, recreate)
  | _ => none

namespace System

variable {system middle next : System} {id : ResourceId} {piece : Piece}
  {about : RenderCommand → Prop}

/-! ### Telling the renderer -/

/-- The renderer has been told some things of a certain kind, and has not carried out any. -/
structure Tells (about : RenderCommand → Prop) (system next : System) : Prop where
  here : next.renderer.isGone = system.renderer.isGone
  said : ∃ said, next.renderer.queue = system.renderer.queue ++ said ∧
    ∀ command ∈ said, about command

namespace Tells

theorem refl (system : System) : Tells about system system :=
  ⟨rfl, [], (List.append_nil _).symm, fun _ member => absurd member List.not_mem_nil⟩

theorem of_speaks (speaks : Speaks about system next) : Tells about system next :=
  ⟨speaks.here, speaks.said⟩

theorem trans (first : Tells about system middle) (second : Tells about middle next) :
    Tells about system next := by
  obtain ⟨here, early, told, some⟩ := first
  obtain ⟨still, late, more, others⟩ := second
  refine ⟨still.trans here, early ++ late, ?_, List.forall_mem_append.mpr ⟨some, others⟩⟩
  rw [more, told, List.append_assoc]

end Tells

/-- A piece of work that neither is the renderer's nor reports anything. -/
def Piece.IsDiscreet (piece : Piece) : Prop :=
  piece ≠ .draw ∧ ∀ command, piece = .tell command → command.report? = none

theorem Tended.discreet {start : System} {due : List FinishedCompile}
    (tended : Tended Piece.IsDiscreet ([], start) due system) :
    Tells (fun command => command.report? = none) start system := by
  have routine : ∀ command : RenderCommand, command.isRoutine → command.report? = none := by
    intro command routine
    cases command <;> first | rfl | cases routine
  have speaks := tended.kept
    (motive := fun _ system => Speaks (fun command => command.report? = none) start system)
    (fun discreet before tends =>
      before.trans (tends.speaks routine discreet.2 discreet.1)) (.refl start)
  exact .of_speaks speaks

/-! ### Faults of maps -/

/-- Caching the shaders of a resource can only go wrong for want of the default material. -/
theorem cacheShaders_error {fault : Fault} (ran : system.cacheShaders id = .error fault) :
    ∃ name, fault = .defaultUncompiled name ∨ fault = .defaultUncooked name := by
  have failed {start : System} {resource : Resource} {failure : CompileFailure}
      (ran : start.fail id resource failure = .error fault) :
      ∃ name, fault = .defaultUncompiled name ∨ fault = .defaultUncooked name := by
    unfold System.fail at ran
    split at ran
    · cases ran
      exact ⟨_, .inl rfl⟩
    · cases ran
  have compiled {start : System} {resource : Resource} {identity : MapIdentity} {now : Bool}
      (ran : start.compile id resource identity now = .error fault) :
      ∃ name, fault = .defaultUncompiled name ∨ fault = .defaultUncooked name := by
    unfold System.compile at ran
    dsimp only at ran
    split at ran
    · cases ran
    · exact failed (map_eq_error.mp ran)
    · cases ran
    · cases ran
    · exact failed (map_eq_error.mp ran)
  unfold System.cacheShaders at ran
  split at ran
  · cases ran
  · dsimp only at ran
    split at ran
    · cases ran
    · split at ran
      · have fell := map_eq_error.mp ran
        unfold System.fallBack at fell
        split at fell
        · cases fell
          exact ⟨_, .inr rfl⟩
        · cases fell
      · unfold System.obtain at ran
        split at ran
        · exact compiled ran
        · split at ran
          · cases ran
          · exact compiled ran

end System

namespace Library

variable {library middle next : Library} {target : Target} {key : SlotKey}
  {targets : List Target} {updated : Updated} {pending : SlotKey → Prop} {fault : Fault}
  {who : Target → Prop}

/-! ### Steps of a batch -/

/-- Nobody else owns anything new, and nothing has been reported. -/
structure Alters (who : Target → Prop) (library next : Library) : Prop where
  settings : next.system.settings = library.system.settings
  others : ∀ other, ¬ who other → next.ownResources other = library.ownResources other
  tells : System.Tells (fun command => command.report? = none) library.system next.system

namespace Alters

theorem refl (library : Library) : Alters who library library := ⟨rfl, fun _ _ => rfl, .refl _⟩

theorem trans (first : Alters who library middle) (second : Alters who middle next) :
    Alters who library next where
  settings := second.settings.trans first.settings
  others := fun other away => (second.others other away).trans (first.others other away)
  tells := first.tells.trans second.tells

theorem mono {more : Target → Prop} (alters : Alters who library next)
    (within : ∀ target, who target → more target) : Alters more library next :=
  ⟨alters.settings, fun other away => alters.others other (mt (within other) away), alters.tells⟩

theorem activeResources (alters : Alters who library next) (away : ¬ who target) :
    next.activeResources target = library.activeResources target := by
  unfold Library.activeResources
  rw [alters.settings, alters.others target away]

theorem cacheShaders {ready : Bool} (ran : library.cacheShaders target = .ok (ready, next)) :
    Alters who library next := by
  have tended := System.Tended.cacheTarget
    (.rest System.Piece.IsDiscreet [] library.system) ⟨nofun, nofun⟩ ran
  obtain ⟨system, steady, rfl⟩ := cacheShaders_kept (motive := System.Steady library.system)
    (fun before cached => before.trans (.cacheShaders cached)) (.refl _) ran
  exact ⟨steady.settings, fun other _ => congrFun (ownResources_of_slots rfl rfl) other,
    tended.discreet⟩

theorem enqueue (library : Library) {command : RenderCommand} (discreet : command.report? = none) :
    Alters who library (library.enqueue command) :=
  ⟨rfl, fun other _ => congrFun (ownResources_of_slots rfl rfl) other,
    .of_speaks (.tell _ discreet)⟩

end Alters

theorem Sound.alters_syncPermutation {needed : Bool} (sound : Sound pending library)
    (ran : library.syncPermutation key = .ok (needed, next)) :
    Alters (· = .derived key) library next := by
  have touches := (sound.updates_syncPermutation ran).touches
  have tended := System.Tended.syncPermutation
    (.rest System.Piece.IsDiscreet [] library.system) (fun _ => ⟨nofun, nofun⟩)
    (fun _ _ => ⟨nofun, nofun⟩) (fun piece concerns => by
      cases concerns with
      | vary | releaseMap | dropResource => exact ⟨nofun, nofun⟩
      | setMaterials | removeProxy =>
        exact ⟨nofun, fun command same => by cases same; rfl⟩) ran
  exact ⟨touches.settings, touches.others, tended.discreet⟩

theorem Sound.alters_updateTarget (sound : Sound pending library)
    (ran : library.updateTarget target = .ok (updated, next)) :
    Alters (· = target) library next ∧ updated = next.activeResources target := by
  obtain ⟨middle, ready, caching, same, ⟨_, rfl⟩ | ⟨key, needed, rfl, syncing⟩⟩ :=
    updateTarget_cases ran
  · exact ⟨.cacheShaders caching, same⟩
  · exact ⟨(sound.alters_syncPermutation syncing).trans (.cacheShaders caching), same⟩

theorem Sound.alters_updateDependent (sound : Sound pending library)
    (ran : library.updateDependent key = .ok (updated, next)) :
    Alters (· = .derived key) library next ∧ updated = next.activeResources (.derived key) := by
  obtain ⟨needed, synced, middle, syncing, cached, told⟩ := updateDependent_cases ran
  have brought := sound.alters_syncPermutation syncing
  have after : Alters (· = .derived key) library middle ∧
      updated = middle.activeResources (.derived key) := by
    obtain ⟨_, ⟨ready, caching⟩, same⟩ | ⟨rfl, rfl, rfl⟩ := cached
    · exact ⟨brought.trans (.cacheShaders caching), same⟩
    · refine ⟨brought, Eq.symm ?_⟩
      unfold activeResources
      rw [ownResources_of_unneeded syncing]
      exact List.filterMap_eq_nil_iff.mpr fun tier _ => PerTier.get_fill none tier
  obtain rfl | ⟨proxy, rfl⟩ := told
  · exact after
  · exact ⟨after.1.trans (.enqueue middle rfl), after.2⟩

/-- Many are brought up to date, each once. What they own in the end is what was collected, since
what one owns does not change any more when others are looked at. -/
theorem Sound.alters_updateEach {α : Type} {update : Library → α → Except Fault (Updated × Library)}
    {subjects : List α} (about : α → Target)
    (each : ∀ pending subject library updated next, Sound pending library →
      update library subject = .ok (updated, next) → (∃ left, Sound left next) ∧
        Alters (· = about subject) library next ∧ updated = next.activeResources (about subject))
    (distinct : (subjects.map about).Nodup) (sound : Sound pending library)
    (ran : library.updateEach update subjects = .ok (updated, next)) :
    (∃ left, Sound left next) ∧ Alters (· ∈ subjects.map about) library next ∧
      updated = (subjects.map about).flatMap next.activeResources := by
  have all := foldlM_invariant
    (motive := fun left state => (∃ waiting, Sound waiting state.2) ∧ ∃ past,
      subjects.map about = past ++ left.map about ∧ Alters (· ∈ past) library state.2 ∧
      state.1 = past.flatMap state.2.activeResources)
    (fun subject rest state after ⟨⟨waiting, holds⟩, past, same, alters, collected⟩ stepped => by
      obtain ⟨⟨more, later⟩, ran, stepped⟩ := bind_eq_ok.mp stepped
      cases stepped
      obtain ⟨holds, here, rfl⟩ := each waiting subject state.2 more later holds ran
      have new : about subject ∉ past := fun member =>
        List.disjoint_of_nodup_append (same ▸ distinct) member List.mem_cons_self
      refine ⟨holds, past ++ [about subject], ?_, ?_, ?_⟩
      · rw [same, List.map_cons, List.append_cons]
      · exact (alters.mono fun _ => List.mem_append_left _).trans
          (here.mono fun _ same => List.mem_append_right _ (List.mem_singleton.mpr same))
      · have kept : past.flatMap later.activeResources = past.flatMap state.2.activeResources :=
          List.flatMap_congr fun target member =>
            here.activeResources fun same => new (same ▸ member)
        rw [List.flatMap_append, kept, ← collected, List.flatMap_singleton])
    subjects ([], library) (updated, next) ⟨⟨pending, sound⟩, [], rfl, .refl library, rfl⟩ ran
  obtain ⟨holds, past, same, alters, collected⟩ := all
  rw [List.map_nil, List.append_nil] at same
  exact ⟨holds, same ▸ alters, same ▸ collected⟩

/-! ### The report -/

/-- Whoever owns anything owns a resource for each active tier. -/
theorem Sound.supplies_of_owns {id : ResourceId} (sound : Sound pending library)
    (owns : library.Owns target id) :
    library.Supplies (library.ownResources target) fun _ => True := by
  have bare (nothing : library.ownResources target = .fill none) : False := by
    obtain ⟨tier, has⟩ := owns
    rw [nothing, PerTier.get_fill] at has
    cases has
  cases target with
  | material key =>
    cases there : library.materials.get? key with
    | none => exact (bare (by simp [ownResources, there])).elim
    | some material =>
      have supplies := sound.supplied key material.description
        (descriptionOf_eq_some.mpr ⟨material, there, rfl⟩)
      intro tier active
      obtain ⟨id, variant, has, is, level, _⟩ := supplies tier active
      exact ⟨id, variant, has, is, level, trivial⟩
  | derived key =>
    cases live : library.lineage key with
    | none => exact (bare (ownResources_of_missing live)).elim
    | some entry =>
      exact (sound.stocked key (by rw [live]; rfl)).resolve_left fun nothing => bare nothing

theorem Sound.tier_unique {tier other : Tier} {id : ResourceId} (sound : Sound pending library)
    (active : tier ∈ library.system.settings.activeTiers)
    (also : other ∈ library.system.settings.activeTiers)
    (one : (library.ownResources target).get tier = some id)
    (two : (library.ownResources target).get other = some id) : tier = other := by
  have supplies := sound.supplies_of_owns ⟨tier, one⟩
  obtain ⟨_, variant, has, is, level, _⟩ := supplies tier active
  obtain ⟨_, variant', has', is', level', _⟩ := supplies other also
  cases one.symm.trans has
  cases two.symm.trans has'
  cases is.symm.trans is'
  exact level.symm.trans level'

theorem mem_activeResources {id : ResourceId} : id ∈ library.activeResources target ↔
    ∃ tier ∈ library.system.settings.activeTiers,
      (library.ownResources target).get tier = some id :=
  List.mem_filterMap

/-- No resource is listed twice among those of different targets. -/
theorem Sound.nodup_activeResources (sound : Sound pending library) (distinct : targets.Nodup)
    (tiers : library.system.settings.activeTiers.Nodup) :
    (targets.flatMap library.activeResources).Nodup := by
  refine List.nodup_flatMap.mpr ⟨fun target _ => ?_, distinct.imp fun {target other} apart => ?_⟩
  · refine List.pairwise_filterMap.mpr (tiers.imp_of_mem ?_)
    rintro tier other active also apart id one _ two rfl
    exact apart (sound.tier_unique active also one two)
  · intro id one two
    obtain ⟨tier, _, has⟩ := mem_activeResources.mp one
    obtain ⟨level, _, had⟩ := mem_activeResources.mp two
    exact apart (sound.allotted.single target other id ⟨tier, has⟩ ⟨level, had⟩)

/-- What a batch has come to when it reports: nothing has been reported before, and the report
lists each resource once that a target or an instance below one owns for an active tier. -/
structure Notifies (batch : Library) (targets : List Target) (last : Library) (updated : Updated) :
    Prop where
  settings : last.system.settings = batch.system.settings
  tells : System.Tells (fun command => command.report? = none) batch.system last.system
  listed : ∀ id, id ∈ updated ↔ ∃ target, Concerned batch.lineage targets target ∧
    ∃ tier ∈ last.system.settings.activeTiers, (last.ownResources target).get tier = some id
  once : last.system.settings.activeTiers.Nodup → updated.Nodup

/-- The keys are those that are meant, each once, and none comes before one that its chain passes
through. -/
structure InOrder (lineage : Lineage) (keys : List SlotKey) (meant : SlotKey → Prop) : Prop where
  mem : ∀ key, key ∈ keys ↔ meant key
  once : keys.Nodup
  ordered : keys.Pairwise fun earlier later => ¬ Below lineage (.derived later) earlier

theorem Forest.inOrder_dependents (forest : Forest library.derived) (target : Target) :
    InOrder library.lineage (library.dependents target) (Below library.lineage target) :=
  ⟨fun _ => mem_dependents, forest.nodup_dependents target, forest.pairwise_sortByDepth _⟩

theorem Forest.inOrder_dependentsOfAll (forest : Forest library.derived) (targets : List Target) :
    InOrder library.lineage (library.dependentsOfAll targets) fun key =>
      (∃ target ∈ targets, Below library.lineage target key) ∧ .derived key ∉ targets :=
  ⟨fun _ => mem_dependentsOfAll, nodup_dependentsOfAll library targets,
    forest.pairwise_sortByDepth _⟩

/-- How far a batch comes before it reports. -/
theorem Sound.notifies_updateEach {batch : Library} {first second : Updated}
    (sound : Sound pending batch) (distinct : targets.Nodup)
    (targeted : batch.updateEach Library.updateTarget targets = .ok (first, middle))
    (followed : middle.updateEach Library.updateDependent (middle.dependentsOfAll targets) =
      .ok (second, next)) : Notifies batch targets next (first ++ second) := by
  have order := nodup_order middle distinct
  obtain ⟨apart, following, disjoint⟩ := List.nodup_append'.mp order
  obtain ⟨⟨waiting, holds⟩, early, collected⟩ := sound.alters_updateEach id
    (fun _ _ _ _ _ before ran =>
      ⟨⟨_, (before.updateTarget ran).1⟩, before.alters_updateTarget ran⟩)
    (by rwa [List.map_id]) targeted
  obtain ⟨⟨left, fine⟩, late, more⟩ := holds.alters_updateEach Target.derived
    (fun _ _ _ _ _ before ran =>
      ⟨⟨_, (before.updateDependent ran).1⟩, before.alters_updateDependent ran⟩) following followed
  rw [List.map_id] at early collected
  have shape := (sound.updateEach (fun target other => target = .derived other)
    (fun _ _ _ _ _ before => before.updateTarget) targeted).2
  have kept : targets.flatMap middle.activeResources = targets.flatMap next.activeResources :=
    List.flatMap_congr fun target member =>
      (late.activeResources (List.disjoint_left.mp disjoint member)).symm
  have all : first ++ second = (targets ++
      (middle.dependentsOfAll targets).map Target.derived).flatMap next.activeResources := by
    rw [List.flatMap_append, collected, more, kept]
  refine ⟨late.settings.trans early.settings, early.tells.trans late.tells, fun id => ?_,
    fun tiers => all ▸ fine.nodup_activeResources order tiers⟩
  rw [all, List.mem_flatMap, ← shape.lineage]
  simp only [mem_order, mem_activeResources]

/-! ### Batches that end in a fault -/

/-- The base material of an instance is gone. -/
def Orphaned (library : Library) (key : SlotKey) : Prop :=
  ∃ base, library.baseMaterial (.derived key) = some base ∧ library.materials.get? base = none

theorem orphaned_iff : library.Orphaned key ↔ ∃ stack base,
    library.lineage.Derives (.derived key) stack base ∧ library.descriptionOf base = none := by
  unfold Orphaned
  simp only [baseMaterial_eq_some, descriptionOf, Option.map_eq_none_iff]
  exact ⟨fun ⟨base, ⟨stack, derives⟩, gone⟩ => ⟨stack, base, derives, gone⟩,
    fun ⟨stack, base, derives, gone⟩ => ⟨base, ⟨stack, derives⟩, gone⟩⟩

theorem SameShape.orphaned (shape : SameShape library next) :
    next.Orphaned key ↔ library.Orphaned key := by
  rw [orphaned_iff, orphaned_iff, shape.lineage, shape.descriptions]

theorem baseDescription_error (ran : library.baseDescription target = .error fault) :
    fault = .vacantSlot ∧ ∃ base, library.baseMaterial target = some base ∧
      library.materials.get? base = none := by
  unfold baseDescription at ran
  split at ran
  · cases ran
  · rename_i base rooted
    split at ran
    · cases ran
    · rename_i gone
      cases ran
      exact ⟨rfl, base, rooted, gone⟩

/-- Only an instance whose base material is gone cannot be brought up to date. -/
theorem syncPermutation_error (ran : library.syncPermutation key = .error fault) :
    fault = .vacantSlot ∧ library.Orphaned key := by
  unfold syncPermutation at ran
  split at ran
  · cases ran
  · rename_i found there
    rcases bind_eq_error.mp ran with asked | ⟨needed, asked, ran⟩
    · rcases bind_eq_error.mp asked with based | ⟨description?, _, answered⟩
      · obtain ⟨rfl, base, rooted, gone⟩ := baseDescription_error based
        obtain ⟨stack, derives⟩ := baseMaterial_eq_some.mp rooted
        have way := Lineage.Derives.derived (lineage_of_get? there) derives
        exact ⟨rfl, base, baseMaterial_eq_some.mpr ⟨_, way⟩, gone⟩
      · cases description? <;> cases answered
    · dsimp only at ran
      split at ran
      · obtain ⟨description, described⟩ := baseDescription_of_needed there asked
        unfold refreshInstance at ran
        rw [described] at ran
        cases ran
      · obtain ⟨description, described⟩ := baseDescription_of_needed there asked
        unfold addPermutation at ran
        rw [described] at ran
        cases ran
      · cases ran
      · cases ran

theorem cacheShaders_error (ran : library.cacheShaders target = .error fault) :
    ∃ name, fault = .defaultUncompiled name ∨ fault = .defaultUncooked name := by
  unfold Library.cacheShaders at ran
  split at ran
  · cases ran
  · rcases bind_eq_error.mp ran with folded | ⟨_, _, same⟩
    · obtain ⟨id, _, state, _, stepped⟩ :=
        foldlM_error (motive := fun _ => True) (fun _ _ _ _ _ => trivial) _ _ trivial folded
      rcases bind_eq_error.mp stepped with cached | ⟨_, _, same⟩
      · exact System.cacheShaders_error cached
      · cases same
    · cases same

/-- What can go wrong while some instances are brought up to date. -/
def Stops (library : Library) (who : Target → Prop) (fault : Fault) : Prop :=
  (fault = .vacantSlot ∧ ∃ key, who (.derived key) ∧ library.Orphaned key) ∨
    ∃ name, fault = .defaultUncompiled name ∨ fault = .defaultUncooked name

theorem updateTarget_error (ran : library.updateTarget target = .error fault) :
    library.Stops (· = target) fault := by
  unfold Library.updateTarget at ran
  have cached {start : Library} (ran : (start.cacheShaders target >>= fun done =>
      Except.ok (done.2.activeResources target, done.2)) = .error fault) :
      library.Stops (· = target) fault := by
    rcases bind_eq_error.mp ran with failed | ⟨_, _, same⟩
    · exact .inr (cacheShaders_error failed)
    · cases same
  cases target with
  | material key => exact cached ran
  | derived key =>
    rcases bind_eq_error.mp ran with synced | ⟨middle, _, ran⟩
    · obtain ⟨rfl, orphaned⟩ := syncPermutation_error (map_eq_error.mp synced)
      exact .inl ⟨rfl, key, rfl, orphaned⟩
    · exact cached ran

theorem updateDependent_error (ran : library.updateDependent key = .error fault) :
    library.Stops (· = .derived key) fault := by
  rcases bind_eq_error.mp ran with synced | ⟨⟨needed, middle⟩, _, ran⟩
  · obtain ⟨rfl, orphaned⟩ := syncPermutation_error synced
    exact .inl ⟨rfl, key, rfl, orphaned⟩
  · cases needed with
    | true =>
      rcases bind_eq_error.mp ran with cached | ⟨_, _, same⟩
      · exact .inr (cacheShaders_error cached)
      · cases same
    | false => cases ran

theorem updateEach_error {α : Type} {update : Library → α → Except Fault (Updated × Library)}
    {subjects : List α} {motive : Library → Prop}
    (kept : ∀ {library subject updated next}, motive library →
      update library subject = .ok (updated, next) → motive next) (start : motive library)
    (ran : library.updateEach update subjects = .error fault) :
    ∃ subject ∈ subjects, ∃ middle, motive middle ∧ update middle subject = .error fault := by
  obtain ⟨subject, member, state, holds, stepped⟩ :=
    foldlM_error (motive := fun state : Updated × Library => motive state.2)
      (fun subject state after before stepped => by
        obtain ⟨⟨more, later⟩, ran, same⟩ := bind_eq_ok.mp stepped
        cases same
        exact kept before ran) subjects ([], library) start ran
  rcases bind_eq_error.mp stepped with failed | ⟨_, _, same⟩
  · exact ⟨subject, member, state.2, holds, failed⟩
  · cases same

theorem Stops.mono {more : Target → Prop} (stops : middle.Stops who fault)
    (shape : SameShape library middle) (within : ∀ target, who target → more target) :
    library.Stops more fault := by
  rcases stops with ⟨rfl, key, about, orphaned⟩ | named
  · exact .inl ⟨rfl, key, within _ about, shape.orphaned.mp orphaned⟩
  · exact .inr named

/-- A batch comes to its report, or it stops on the way to it. -/
theorem Sound.commit_cases {batch : Library} (sound : Sound pending batch)
    (distinct : targets.Nodup) (some : targets ≠ []) (options : UpdateOptions) :
    (∃ last updated, Notifies batch targets last updated ∧ batch.commit options targets =
      (last.enqueue (.materialsUpdated updated options.recreates)).flushIf options.synchronous) ∨
    ∃ fault, batch.commit options targets = .error fault ∧
      batch.Stops (Concerned batch.lineage targets) fault := by
  unfold Library.commit
  rw [if_neg some]
  cases targeted : batch.updateEach Library.updateTarget targets with
  | error fault =>
    obtain ⟨target, member, middle, ⟨_, shape⟩, ran⟩ := updateEach_error
      (motive := fun middle => (∃ waiting, Sound waiting middle) ∧ SameShape batch middle)
      (fun ⟨⟨_, before⟩, shape⟩ ran =>
        ⟨⟨_, (before.updateTarget ran).1⟩, shape.trans (before.updateTarget ran).2⟩)
      ⟨⟨pending, sound⟩, .of_slots rfl rfl⟩ targeted
    refine .inr ⟨fault, rfl, (updateTarget_error ran).mono shape ?_⟩
    rintro _ rfl
    exact .target member
  | ok early =>
    obtain ⟨first, middle⟩ := early
    obtain ⟨holds, shape⟩ := sound.updateEach (fun target other => target = .derived other)
      (fun _ _ _ _ _ before => before.updateTarget) targeted
    cases followed : middle.updateEach Library.updateDependent
      (middle.dependentsOfAll targets) with
    | error fault =>
      obtain ⟨key, member, last, ⟨_, same⟩, ran⟩ := updateEach_error
        (motive := fun last => (∃ waiting, Sound waiting last) ∧ SameShape batch last)
        (fun ⟨⟨_, before⟩, shape⟩ ran =>
          ⟨⟨_, (before.updateDependent ran).1⟩, shape.trans (before.updateDependent ran).2⟩)
        ⟨⟨_, holds⟩, shape⟩ followed
      obtain ⟨⟨above, within, below⟩, _⟩ := mem_dependentsOfAll.mp member
      refine .inr ⟨fault, ?_, (updateDependent_error ran).mono same ?_⟩
      · show (middle.updateEach _ _ >>= _) = _
        rw [followed]
        rfl
      · rintro _ rfl
        exact .below within (shape.lineage ▸ below)
    | ok late =>
      obtain ⟨second, last⟩ := late
      refine .inl ⟨last, first ++ second, sound.notifies_updateEach distinct targeted followed, ?_⟩
      show (middle.updateEach _ _ >>= _) = _
      rw [followed]
      rfl

/-! ### Batches -/

/-- A batch that ends well was not about anybody who had lost its base material. -/
theorem Sound.rooted_of_commit {batch : Library} {options : UpdateOptions}
    (sound : Sound pending batch) (forest : Forest batch.derived)
    (ran : batch.commit options targets = .ok next) (key : SlotKey)
    (concerned : Concerned batch.lineage targets (.derived key)) : ¬ batch.Orphaned key := by
  obtain ⟨middle, same, _, visits⟩ := sound.visits_commit forest ran
  intro orphaned
  obtain ⟨stack, base, derives, gone⟩ := orphaned_iff.mp (visits.shape.orphaned.mpr orphaned)
  cases derives with
  | derived step derives =>
    rw [← same.lineage] at concerned
    obtain ⟨needed, asked⟩ := visits.answered (mem_order.mpr concerned) step
    rcases needsPermutation_eq_ok.mp asked with ⟨_, nowhere⟩ |
      ⟨_, base', _, derives', described, _⟩
    · exact nowhere _ _ derives
    · obtain ⟨_, rfl⟩ := derives.unique derives'
      cases gone.symm.trans described

/-- What a batch visits and reports. The instances that depend on a target are those below it; the
batch looks at its targets and, parents first, at the others below them. When it ends well nobody
it looked at has lost its base material, and it has reported once, at the end, what they own. When
it does not, it has stopped on the way or while it waited for the renderer. -/
theorem Reached.batch_notifies {first batch : Library} {options : UpdateOptions}
    (reached : Reached library) (flushed : library.flushIf options.synchronous = .ok first)
    (gathers : Gathers first targets batch) (some : targets ≠ []) :
    (∀ target, InOrder batch.lineage (batch.dependents target) (Below batch.lineage target)) ∧
    (∀ updated middle, batch.updateEach Library.updateTarget targets = .ok (updated, middle) →
      InOrder batch.lineage (middle.dependentsOfAll targets) fun key =>
        (∃ target ∈ targets, Below batch.lineage target key) ∧ .derived key ∉ targets) ∧
    (∀ next, batch.commit options targets = .ok next →
      (∃ last updated, Notifies batch targets last updated ∧
        (last.enqueue (.materialsUpdated updated options.recreates)).flushIf options.synchronous =
          .ok next) ∧
      ∀ key, Concerned batch.lineage targets (.derived key) → ¬ batch.Orphaned key) ∧
    ∀ fault, batch.commit options targets = .error fault →
      batch.Stops (Concerned batch.lineage targets) fault ∨
      ∃ last updated, Notifies batch targets last updated ∧
        (last.enqueue (.materialsUpdated updated options.recreates)).flushIf options.synchronous =
          .error fault := by
  have sound := gathers.sound (reached.sound.flushIf flushed)
  have forest := (reached.forest.flushIf flushed).gathers gathers
  refine ⟨forest.inOrder_dependents, fun updated middle targeted => ?_, fun next ran => ⟨?_, ?_⟩,
    fun fault ran => ?_⟩
  · have shape := (sound.updateEach (fun target other => target = .derived other)
      (fun _ _ _ _ _ before => before.updateTarget) targeted).2
    rw [← shape.lineage]
    exact (Batching.updateEach Forest.batching.updateTarget forest
      targeted).inOrder_dependentsOfAll targets
  · rcases sound.commit_cases gathers.nodup some options with
      ⟨last, updated, notifies, same⟩ | ⟨fault, failed, _⟩
    · exact ⟨last, updated, notifies, same.symm.trans ran⟩
    · cases failed.symm.trans ran
  · exact sound.rooted_of_commit forest ran
  · rcases sound.commit_cases gathers.nodup some options with
      ⟨last, updated, notifies, same⟩ | ⟨_, failed, stops⟩
    · exact .inr ⟨last, updated, notifies, same.symm.trans ran⟩
    · cases failed.symm.trans ran
      exact .inl stops

/-- A material is edited, and brought up to date together with both instances below it. -/
theorem nested_notified : ∃ library batch next last updated, Reached library ∧
    Gathers library [.material ⟨1, 1⟩] batch ∧
    batch.dependents (.material ⟨1, 1⟩) = [⟨1, 1⟩, ⟨2, 1⟩] ∧
    InOrder batch.lineage [⟨1, 1⟩, ⟨2, 1⟩] (Below batch.lineage (.material ⟨1, 1⟩)) ∧
    Notifies batch [.material ⟨1, 1⟩] last updated ∧
    (last.enqueue (.materialsUpdated updated true)).flushIf false = .ok next := by
  have run : nested.bind (fun made =>
      (made.2.commit {} [.material ⟨1, 1⟩]).toOption.map fun next =>
        made.2.dependents (.material ⟨1, 1⟩)) = some [⟨1, 1⟩, ⟨2, 1⟩] := by
    cbv
  obtain ⟨⟨library, batch⟩, made, run⟩ := Option.bind_eq_some_iff.mp run
  obtain ⟨next, committed, below⟩ := Option.map_eq_some_iff.mp run
  obtain ⟨reached, gathers⟩ := gathers_nested made
  have waited : library.flushIf ({} : UpdateOptions).synchronous = .ok library := rfl
  obtain ⟨inOrder, _, reports, _⟩ :=
    reached.batch_notifies waited gathers (List.cons_ne_nil _ _)
  obtain ⟨⟨last, updated, notifies, ran⟩, _⟩ := reports next (toOption_eq_some.mp committed)
  exact ⟨library, batch, next, last, updated, reached, gathers, below, below ▸ inOrder _, notifies,
    ran⟩

/-- The batch that is about an instance whose base material was removed never reports. -/
theorem orphan_unreported : ∃ library targets, Reached library ∧ targets ≠ [] ∧
    Gathers library targets library ∧ library.commit {} targets = .error .vacantSlot := by
  have run : (bare.addMaterial default).toOption.bind (fun added =>
      (added.2.addInstance (.material added.1) .empty).toOption.bind fun made =>
        made.1.toOption.map fun key => match
          (made.2.removeMaterial added.1).commit {} [.derived key] with
          | .ok _ => none
          | .error fault => some fault) = some (some .vacantSlot) := by
    cbv
  obtain ⟨added, adding, run⟩ := Option.bind_eq_some_iff.mp run
  obtain ⟨⟨result, made⟩, making, run⟩ := Option.bind_eq_some_iff.mp run
  obtain ⟨key, _, failed⟩ := Option.map_eq_some_iff.mp run
  have reached := ((Reached.start bare.system).addMaterial (toOption_eq_some.mp adding)).addInstance
    (by decide) (toOption_eq_some.mp making)
  refine ⟨_, [.derived key], reached.removeMaterial added.1, List.cons_ne_nil _ _,
    .add (.derived key) .begin, ?_⟩
  dsimp only at failed ⊢
  split at failed
  · cases failed
  · rename_i fault stopped
    cases failed
    exact stopped

end Library

end Shading
