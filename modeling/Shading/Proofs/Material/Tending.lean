/-
What a library does with its system. All of it comes down to a few kinds of
work, one piece after another: resources are added, varied, released and dropped,
proxies are created, maps are got and results applied, and the renderer is told
things and carries them out. Which pieces an operation consists of is said here
once, so that whoever wants to know what an operation keeps has only to ask what
each piece keeps. A target lets go of nothing but what it owns.
-/

import Shading.Proofs.Material.Editing
import Shading.Proofs.Material.Keeping
import Shading.Proofs.Material.Permuting

namespace Shading

namespace System

/-! ### The jobs that resources wait for -/

/-- The compiles whose results a resource awaits; none if there is no such resource. -/
def jobsOf (system : System) (id : ResourceId) : List JobId :=
  ((system.resources.get? id).map Resource.jobs).getD []

theorem jobsOf_eq {system : System} {id : ResourceId} {resource : Resource}
    (found : system.resources.get? id = some resource) : system.jobsOf id = resource.jobs :=
  congrArg (fun found => (found.map Resource.jobs).getD []) found

theorem jobsOf_onResource (system : System) (id other : ResourceId) {change : Resource → Resource}
    (changeJobs : List JobId → List JobId) (empty : changeJobs [] = [])
    (same : ∀ resource, (change resource).jobs = changeJobs resource.jobs) :
    (system.onResource id change).jobsOf other =
      if other = id then changeJobs (system.jobsOf id) else system.jobsOf other := by
  show (((system.resources.modify id change).get? other).map _).getD [] = _
  rw [Table.get?_modify]
  split
  · unfold jobsOf
    cases system.resources.get? id with
    | none => exact empty.symm
    | some resource => exact same resource
  · rfl

/-- A change of a resource that is not about its jobs. -/
theorem jobsOf_onResource_of_same (system : System) (id other : ResourceId)
    {change : Resource → Resource} (same : ∀ resource, (change resource).jobs = resource.jobs) :
    (system.onResource id change).jobsOf other = system.jobsOf other := by
  rw [jobsOf_onResource system id other (fun jobs => jobs) rfl same]
  split
  · rename_i here
    rw [here]
  · rfl

theorem jobsOf_cancelCompilation (system : System) (id other : ResourceId) :
    (system.cancelCompilation id).jobsOf other =
      if other = id then [] else system.jobsOf other := by
  unfold cancelCompilation
  split
  · rename_i absent
    split
    · rename_i here
      rw [here]
      exact congrArg (fun found => (Option.map Resource.jobs found).getD []) absent
    · rfl
  · rename_i resource found
    split
    · rename_i idle
      split
      · rename_i here
        rw [here, jobsOf_eq found, idle]
      · rfl
    · rw [jobsOf_onResource _ id other (fun _ => []) rfl fun _ => rfl]
      rfl

theorem jobsOf_publish (system : System) (id other : ResourceId) :
    (system.publish id).jobsOf other = system.jobsOf other := by
  unfold publish
  split <;> rfl

theorem jobsOf_releaseMap (system : System) (id other : ResourceId) :
    (system.releaseMap id).jobsOf other = if other = id then [] else system.jobsOf other := by
  unfold releaseMap
  rw [jobsOf_publish, jobsOf_onResource_of_same]
  · exact jobsOf_cancelCompilation system id other
  · exact fun _ => rfl

theorem jobsOf_addResource (system : System) (variant : Variant) (other : ResourceId) :
    (system.addResource variant).2.jobsOf other =
      if other = system.nextResource then [] else system.jobsOf other := by
  show (((system.resources.insert system.nextResource { variant }).get? other).map _).getD [] = _
  rw [Table.get?_insert]
  split <;> rfl

theorem jobsOf_dropResource (system : System) (id other : ResourceId) :
    (system.dropResource id).jobsOf other = if other = id then [] else system.jobsOf other := by
  show (((system.resources.erase id).get? other).map _).getD [] = _
  rw [Table.get?_erase]
  split <;> rfl

/-! ### Pieces of work -/

/-- What a piece of work is. -/
inductive Piece where
  | addResource (variant : Variant)
  | vary (id : ResourceId) (change : Variant → Variant)
  | releaseMap (id : ResourceId)
  | dropResource (id : ResourceId)
  /-- A new proxy is created. -/
  | createProxy (kind : ProxyKind)
  | tell (command : RenderCommand)
  /-- Maps are looked for and compiled. -/
  | supply
  /-- Results are waited for, handed out and applied. -/
  | settle
  /-- The renderer works. -/
  | draw

/-- How a piece of work is done, while some finished compiles have been handed out and are being
applied. Nobody asks for maps meanwhile, and a resource is dropped only when it waits for none. -/
inductive Tends : Piece → List FinishedCompile × System → List FinishedCompile × System → Prop where
  | addResource {due system} (variant : Variant) :
    Tends (.addResource variant) (due, system) (due, (system.addResource variant).2)
  | vary {due system} (id : ResourceId) (change : Variant → Variant) :
    Tends (.vary id change) (due, system) (due, system.onResource id fun resource =>
      { resource with variant := change resource.variant })
  | releaseMap {due system} (id : ResourceId) :
    Tends (.releaseMap id) (due, system) (due, system.releaseMap id)
  | dropResource {due system} (id : ResourceId) : system.jobsOf id = [] →
    Tends (.dropResource id) (due, system) (due, system.dropResource id)
  | createProxy {due system} (kind : ProxyKind) :
    Tends (.createProxy kind) (due, system)
      (due, system.freshProxy.2.enqueue (.createProxy system.freshProxy.1 kind))
  | tell {due system} (command : RenderCommand) : command.map? = none →
    Tends (.tell command) (due, system) (due, system.enqueue command)
  | cacheShaders {system id ready next} : system.cacheShaders id = .ok (ready, next) →
    Tends .supply ([], system) ([], next)
  | finishAll {system} : Tends .settle ([], system)
      ([], { system with workshop := system.workshop.finishAll system.heldMaps })
  | processResults {system} : Tends .settle ([], system) system.processResults
  | complete {due system id finished applied next} : finished ∈ due →
    system.complete id finished.job finished.result = .ok (applied, next) →
    Tends .settle (due, system) (due, next)
  /-- All results have been applied to whom they concern. -/
  | conclude {due system} : Tends .settle (due, system) ([], system)
  /-- The renderer carries out the first command of its queue. -/
  | carryOut {due system command rest world} : system.renderer.queue = command :: rest →
    system.renderer.world.apply command = .ok world →
    Tends .draw (due, system)
      (due, { system with renderer := { system.renderer with world, queue := rest } })
  | updateDeferred {due system count world} :
    system.renderer.world.updateDeferred = .ok (count, world) →
    Tends .draw (due, system) (due, { system with renderer := { system.renderer with world } })

/-- What a system has become since some time by pieces of work of which all are allowed. -/
def Tended (allows : Piece → Prop) (start : List FinishedCompile × System)
    (due : List FinishedCompile) (system : System) : Prop :=
  Relation.ReflTransGen (fun before after => ∃ piece, allows piece ∧ Tends piece before after)
    start (due, system)

namespace Tended

variable {allows : Piece → Prop} {start : List FinishedCompile × System}
  {due due' : List FinishedCompile} {system next : System} {piece : Piece}

theorem rest (allows : Piece → Prop) (due : List FinishedCompile) (system : System) :
    Tended allows (due, system) due system := .refl

theorem work (tended : Tended allows start due system) (allowed : allows piece)
    (tends : Tends piece (due, system) (due', next)) : Tended allows start due' next :=
  tended.tail ⟨piece, allowed, tends⟩

/-- What each piece of work that is allowed keeps, all of them together keep. -/
theorem kept {motive : List FinishedCompile → System → Prop}
    (each : ∀ {piece due system due' next}, allows piece → motive due system →
      Tends piece (due, system) (due', next) → motive due' next)
    (tended : Tended allows start due system) (before : motive start.1 start.2) :
    motive due system := by
  have all {state : List FinishedCompile × System}
      (tended : Relation.ReflTransGen
        (fun before after => ∃ piece, allows piece ∧ Tends piece before after) start state) :
      motive state.1 state.2 := by
    induction tended with
    | refl => exact before
    | tail _ tends already =>
      obtain ⟨piece, allowed, tends⟩ := tends
      exact each allowed already tends
  exact all tended

/-! ### Systems -/

/-- Many resources are varied. -/
theorem varyAll {ids : List ResourceId} (tended : Tended allows start due system)
    (change : Variant → Variant)
    (allowed : ∀ id ∈ ids, allows (.vary id change)) :
    Tended allows start due (system.varyAll ids change) :=
  List.foldlRecOn (motive := Tended allows start due) ids _ tended
    fun _ before id member => before.work (allowed id member) (.vary id change)

/-- The commands in the queue are carried out, and what has been put off is caught up with. -/
theorem runFrame {renderer : Renderer} (tended : Tended allows start due system)
    (draws : allows .draw) (ran : system.renderer.runFrame = .ok renderer) :
    Tended allows start due { system with renderer } :=
  Renderer.runFrame_kept
    (motive := fun renderer => Tended allows start due { system with renderer })
    (fun _ _ _ _ before queued applied => before.work draws (.carryOut queued applied))
    (fun _ _ _ before deferred => before.work draws (.updateDeferred deferred)) tended ran

end Tended

end System

/-! ### What operations consist of -/

namespace RenderCommand

/-- Whether a command changes neither the resources nor which proxies there are. -/
def isPlain : RenderCommand → Bool
  | .setParameter .. | .clearParameter .. | .recache .. | .materialsUpdated .. | .fence => true
  | _ => false

theorem map?_of_isPlain {command : RenderCommand} (plain : command.isPlain) :
    command.map? = none := by
  cases command <;> first | rfl | cases plain

end RenderCommand

namespace Library

/-- What any work of a library may consist of: a resource that is dropped without more ado is one
that has just been made, and a proxy is created below that of a target. -/
inductive Common (library : Library) : System.Piece → Prop where
  | addResource (variant : Variant) : Common library (.addResource variant)
  | dropResource {id : ResourceId} : library.system.nextResource.number ≤ id.number →
    Common library (.dropResource id)
  | createMaterial (resources : Materials) : Common library (.createProxy (.material resources))
  | createDerived {target : Target} {above : ProxyId} (resources : Materials) :
    library.proxy? target = some above →
    Common library (.createProxy (.derived above resources))
  | tell {command : RenderCommand} : command.isPlain → Common library (.tell command)
  | supply : Common library .supply

/-- What work on a target may consist of besides. -/
inductive Concerns (library : Library) (target : Target) : System.Piece → Prop where
  | vary {id : ResourceId} (change : Variant → Variant) : library.Owns target id →
    Concerns library target (.vary id change)
  | releaseMap {id : ResourceId} : library.Owns target id →
    Concerns library target (.releaseMap id)
  | dropResource {id : ResourceId} : library.Owns target id →
    Concerns library target (.dropResource id)
  | setMaterials {proxy : ProxyId} (resources : Materials) : library.proxy? target = some proxy →
    Concerns library target (.tell (.setMaterials proxy resources))
  | removeProxy {proxy : ProxyId} : library.proxy? target = some proxy →
    Concerns library target (.tell (.removeProxy proxy))

theorem owns_of_mem {library : Library} {target : Target} {resources : Materials}
    (own : library.ownResources target = resources) :
    ∀ resource ∈ resources.toList.filterMap id, library.Owns target resource := by
  intro resource member
  obtain ⟨tier, has⟩ := mem_resources.mp member
  exact ⟨tier, own ▸ has⟩

/-- Resources are made without a look at the numbers of proxies. -/
theorem addResources_freshProxy (library : Library) (owner : Target) (description : Description)
    (overrides : Option StaticParameters) :
    ({ library with system := library.system.freshProxy.2 } : Library).addResources owner
        description overrides =
      ((library.addResources owner description overrides).1,
        { (library.addResources owner description overrides).2 with
          system := (library.addResources owner description
            overrides).2.system.freshProxy.2 }) := by
  let numbered (made : Materials × Library) : Materials × Library :=
    (made.1, { made.2 with system := made.2.system.freshProxy.2 })
  show List.foldl _ (numbered (.fill none, library)) _ = numbered (List.foldl _ _ _)
  refine List.foldl_hom numbered fun made tier => ?_
  unfold makeOne
  dsimp only [numbered]
  cases made.1.get tier <;> rfl

theorem nextProxy_addResources (library : Library) (owner : Target) (description : Description)
    (overrides : Option StaticParameters) :
    (library.addResources owner description overrides).2.system.nextProxy =
      library.system.nextProxy :=
  List.foldlRecOn (motive := fun made : Materials × Library =>
      made.2.system.nextProxy = library.system.nextProxy) _ _ rfl fun made before tier _ => by
    unfold makeOne
    dsimp only
    split <;> exact before

theorem ancestry_onSystem (library : Library) (system : System) (links : Nat) (target : Target) :
    ancestry { library with system } links target = library.ancestry links target := by
  induction links generalizing target with
  | zero => cases target <;> rfl
  | succ links inductionHypothesis =>
    cases target with
    | material key => rfl
    | derived key =>
      unfold ancestry
      cases library.derived.get? key with
      | none => rfl
      | some found => simp only [inductionHypothesis]

theorem chain_onSystem (library : Library) (system : System) (target : Target) :
    chain { library with system } target = library.chain target :=
  library.ancestry_onSystem system (library.derived.size + 1) target

/-- Nor are those of an instance. -/
theorem of_addPermutation_freshProxy {library : Library} {key : SlotKey}
    {numbered : Materials × Library}
    (ran : ({ library with system := library.system.freshProxy.2 } : Library).addPermutation key =
      .ok numbered) :
    ∃ made : Materials × Library, library.addPermutation key = .ok made ∧
      made.2.system.nextProxy = library.system.nextProxy ∧
      numbered = (made.1, { made.2 with system := made.2.system.freshProxy.2 }) := by
  have chain := library.chain_onSystem library.system.freshProxy.2 (.derived key)
  unfold addPermutation baseDescription baseMaterial effectiveOverrides at ran ⊢
  rw [chain] at ran
  obtain ⟨described, describes, ran⟩ := bind_eq_ok.mp ran
  dsimp only at describes
  rw [describes]
  cases described with
  | none =>
    cases ran
    exact ⟨_, rfl, rfl, rfl⟩
  | some description =>
    cases ran
    exact ⟨_, rfl, nextProxy_addResources .., addResources_freshProxy ..⟩

end Library

namespace System.Tended

variable {allows : Piece → Prop} {start : List FinishedCompile × System}
  {due : List FinishedCompile} {library later : Library}

/-! ### Resources of a library -/

theorem addResources (tended : Tended allows start [] library.system)
    (adds : ∀ variant, allows (.addResource variant))
    (redoes : ∀ id : ResourceId, library.system.nextResource.number ≤ id.number →
      allows (.dropResource id))
    (owner : Target) (description : Description) (overrides : Option StaticParameters) :
    Tended allows start [] (library.addResources owner description overrides).2.system := by
  -- Whatever has just been made waits for nothing, so it may be dropped again.
  have made : Tended allows start []
        (library.addResources owner description overrides).2.system ∧
      library.system.nextResource.number ≤
        (library.addResources owner description overrides).2.system.nextResource.number ∧
      ∀ tier id, (library.addResources owner description overrides).1.get tier = some id →
        library.system.nextResource.number ≤ id.number ∧
        (library.addResources owner description overrides).2.system.jobsOf id = [] := by
    refine List.foldlRecOn (motive := fun made : Materials × Library =>
      Tended allows start [] made.2.system ∧
        library.system.nextResource.number ≤ made.2.system.nextResource.number ∧
        ∀ tier id, made.1.get tier = some id →
          library.system.nextResource.number ≤ id.number ∧ made.2.system.jobsOf id = []) _ _
      ⟨tended, Nat.le_refl _, fun tier id none => ?_⟩ fun made ⟨before, numbers, idle⟩ tier _ => ?_
    · rw [PerTier.get_fill] at none
      cases none
    · let added := made.2.system.addResource
        ⟨description, overrides, library.system.settings.activeQuality, tier⟩
      have grown : Tended allows start [] added.2 :=
        before.work (adds _) (.addResource _)
      have fresh : added.2.jobsOf added.1 = [] := by
        rw [jobsOf_addResource]
        exact if_pos rfl
      have given (system : System) (same : ∀ id, added.2.jobsOf id = [] → system.jobsOf id = [])
          (other : Tier) (id : ResourceId)
          (has : (made.1.set tier (some added.1)).get other = some id) :
          library.system.nextResource.number ≤ id.number ∧ system.jobsOf id = [] := by
        rw [PerTier.get_set] at has
        split at has
        · cases has
          exact ⟨numbers, same _ fresh⟩
        · obtain ⟨newer, free⟩ := idle other id has
          refine ⟨newer, same _ ?_⟩
          rw [jobsOf_addResource, free, ite_self]
      unfold Library.makeOne
      dsimp only
      split
      · rename_i replaced had
        obtain ⟨newer, free⟩ := idle tier replaced had
        refine ⟨grown.work (redoes _ newer) (.dropResource replaced ?_),
          Nat.le_succ_of_le numbers, given _ fun id free => ?_⟩
        · rw [jobsOf_addResource, free, ite_self]
        · rw [jobsOf_dropResource, free, ite_self]
      · exact ⟨grown, Nat.le_succ_of_le numbers, given _ fun _ free => free⟩
  exact made.1

theorem releaseResources {resources : Materials} (tended : Tended allows start [] library.system)
    (allowed : ∀ resource ∈ resources.toList.filterMap id,
      allows (.releaseMap resource) ∧ allows (.dropResource resource)) :
    Tended allows start [] (library.releaseResources resources).system :=
  List.foldlRecOn (motive := fun library : Library => Tended allows start [] library.system) _ _
    tended fun library before id member =>
      (before.work (allowed id member).1 (.releaseMap id)).work (allowed id member).2
        (.dropResource id ((jobsOf_releaseMap library.system id id).trans (if_pos rfl)))

theorem cacheTarget {target : Target} {ready : Bool}
    (tended : Tended allows start [] library.system) (supplies : allows .supply)
    (ran : library.cacheShaders target = .ok (ready, later)) :
    Tended allows start [] later.system := by
  obtain ⟨system, after, rfl⟩ := Library.cacheShaders_kept (motive := Tended allows start [])
    (fun before cached => before.work supplies (.cacheShaders cached)) tended ran
  exact after

/-- A proxy is created by a library that has taken a number for it before it made resources. -/
theorem createProxy {made : Materials × Library}
    (tended : Tended allows start [] made.2.system) {kind : ProxyKind}
    (allowed : allows (.createProxy kind)) {proxy : ProxyId}
    (numbered : made.2.system.nextProxy = proxy)
    (told : later.system = made.2.system.freshProxy.2.enqueue (.createProxy proxy kind)) :
    Tended allows start [] later.system := by
  rw [told, ← numbered]
  exact tended.work allowed (.createProxy kind)

/-! ### Materials and instances -/

theorem addMaterial {description : Description} {key : SlotKey}
    (tended : Tended allows start [] library.system)
    (common : ∀ piece, library.Common piece → allows piece)
    (ran : library.addMaterial description = .ok (key, later)) :
    Tended allows start [] later.system := by
  obtain ⟨⟨ready, cached⟩, caching, same⟩ := bind_eq_ok.mp ran
  cases same
  let entered : Library :=
    { library with
      materials := (library.materials.insert
        { description, proxy := library.system.freshProxy.1 }).2 }
  let made := entered.addResources (.material library.materials.nextKey) description none
  have supplied : Tended allows start [] made.2.system :=
    addResources (show Tended allows start [] entered.system from tended)
      (fun variant => common _ (.addResource variant))
      (fun _ newer => common _ (.dropResource newer)) _ _ _
  refine cacheTarget (createProxy supplied (common _ (.createMaterial made.1))
    (Library.nextProxy_addResources ..) ?_) (common _ .supply) caching
  exact congrArg (fun numbered : Materials × Library => numbered.2.system.enqueue
    (.createProxy library.system.nextProxy (.material numbered.1)))
    (Library.addResources_freshProxy entered _ _ _)

theorem setDefaultMaterial {description : Description} {key : SlotKey}
    (tended : Tended allows start [] library.system)
    (common : ∀ piece, library.Common piece → allows piece)
    (stands : ∀ proxy, allows (.tell (.setDefault proxy)))
    (ran : library.setDefaultMaterial description = .ok (key, later)) :
    Tended allows start [] later.system := by
  obtain ⟨⟨added, after⟩, adding, same⟩ := bind_eq_ok.mp ran
  cases same
  have before := tended.addMaterial common adding
  split
  · exact before.work (stands _) (.tell _ rfl)
  · exact before

/-- A description is replaced by one that leaves a default material the default. -/
theorem replaceDescription {key : SlotKey} {description : Description}
    (tended : Tended allows start [] library.system)
    (redescribes : ∀ material resource, library.materials.get? key = some material →
      library.Owns (.material key) resource → allows (.vary resource fun variant =>
        { variant with description :=
          { description with isDefault := material.description.isDefault } }))
    (ran : library.replaceDescription key description = .ok later) :
    Tended allows start [] later.system := by
  obtain ⟨material, found, rfl⟩ := Library.replaceDescription_cases ran
  exact tended.varyAll _ fun resource member => redescribes material resource found
    (Library.owns_of_mem (Library.ownResources_material found) resource member)

theorem removeMaterial {key : SlotKey} (tended : Tended allows start [] library.system)
    (concerns : ∀ piece, library.Concerns (.material key) piece → allows piece) :
    Tended allows start [] (library.removeMaterial key).system := by
  cases found : library.materials.get? key with
  | none =>
    rw [Library.removeMaterial_of_missing found]
    exact tended
  | some material =>
    rw [Library.removeMaterial_of_found found]
    have owns := Library.owns_of_mem (Library.ownResources_material found)
    have live : library.proxy? (.material key) = some material.proxy :=
      congrArg (Option.map Material.proxy) found
    let without : Library := { library.relieved key with
      materials := library.materials.erase key }
    have released := releaseResources (show Tended allows start [] without.system from tended)
      fun resource member => ⟨concerns _ (.releaseMap (owns resource member)),
        concerns _ (.dropResource (owns resource member))⟩
    exact released.work (concerns _ (.removeProxy live)) (.tell _ rfl)

theorem addPermutation {key : SlotKey} {resources : Materials}
    (tended : Tended allows start [] library.system)
    (adds : ∀ variant, allows (.addResource variant))
    (redoes : ∀ id : ResourceId, library.system.nextResource.number ≤ id.number →
      allows (.dropResource id))
    (ran : library.addPermutation key = .ok (resources, later)) :
    Tended allows start [] later.system := by
  obtain ⟨described, _, ran⟩ := bind_eq_ok.mp ran
  cases described with
  | none =>
    cases ran
    exact tended
  | some description =>
    obtain rfl := congrArg Prod.snd (Except.ok.inj ran)
    exact addResources tended adds redoes ..

theorem addInstance {parent : Target} {overrides : StaticParameters}
    {result : Except Failure SlotKey} (tended : Tended allows start [] library.system)
    (common : ∀ piece, library.Common piece → allows piece)
    (ran : library.addInstance parent overrides = .ok (result, later)) :
    Tended allows start [] later.system := by
  cases Library.enrolls ran with
  | orphan => exact tended
  | @equipped _ made _ _ live _ permuted caching =>
    let entered : Library := { library with
      derived := (library.derived.insert
        { parent, overrides, proxy := library.system.freshProxy.1 }).2 }
    have creates := common _ (.createDerived made.1 live)
    obtain ⟨made, permuted, numbered, same⟩ :=
      Library.of_addPermutation_freshProxy
        (show Library.addPermutation { entered with system := entered.system.freshProxy.2 } _ = _
          from permuted)
    have supplied : Tended allows start [] made.2.system :=
      addPermutation (show Tended allows start [] entered.system from tended)
        (fun variant => common _ (.addResource variant))
        (fun _ newer => common _ (.dropResource newer)) permuted
    subst same
    exact cacheTarget (createProxy supplied creates numbered rfl) (common _ .supply) caching
  | bare live => exact tended.work (common _ (.createDerived _ live)) (.createProxy _)

theorem removeInstance {key : SlotKey} (tended : Tended allows start [] library.system)
    (concerns : ∀ piece, library.Concerns (.derived key) piece → allows piece) :
    Tended allows start [] (library.removeInstance key).system := by
  unfold Library.removeInstance
  split
  · exact tended
  · rename_i entry found
    have owns := Library.owns_of_mem (Library.ownResources_derived found)
    have live : library.proxy? (.derived key) = some entry.proxy :=
      congrArg (Option.map MaterialInstance.proxy) found
    let without : Library := { library with derived := library.derived.erase key }
    have released := releaseResources (show Tended allows start [] without.system from tended)
      fun resource member => ⟨concerns _ (.releaseMap (owns resource member)),
        concerns _ (.dropResource (owns resource member))⟩
    exact released.work (concerns _ (.removeProxy live)) (.tell _ rfl)

theorem syncPermutation {key : SlotKey} {needed : Bool}
    (tended : Tended allows start [] library.system)
    (adds : ∀ variant, allows (.addResource variant))
    (redoes : ∀ id : ResourceId, library.system.nextResource.number ≤ id.number →
      allows (.dropResource id))
    (concerns : ∀ piece, library.Concerns (.derived key) piece → allows piece)
    (ran : library.syncPermutation key = .ok (needed, later)) :
    Tended allows start [] later.system := by
  have exchanges {entry : MaterialInstance} (found : library.derived.get? key = some entry)
      (resources : Materials) : allows (.tell (.setMaterials entry.proxy resources)) :=
    concerns _ (.setMaterials resources (congrArg (Option.map MaterialInstance.proxy) found))
  cases Library.synced ran with
  | missing | spared => exact tended
  | @refreshed _ description _ _ _ _ =>
    refine tended.varyAll (fun variant =>
      { variant with description, overrides := some _ }) fun resource member => ?_
    exact concerns _ (.vary _ (Library.owns_of_mem rfl resource member))
  | equipped found _ _ permuted =>
    have supplied := tended.addPermutation adds redoes permuted
    exact supplied.work (exchanges found _) (.tell _ rfl)
  | @bereft entry found _ _ =>
    have owns := Library.owns_of_mem (Library.ownResources_derived found)
    let bare := library.setResources key (.fill none)
    have released := releaseResources (show Tended allows start [] bare.system from tended)
      fun resource member => ⟨concerns _ (.releaseMap (owns resource member)),
        concerns _ (.dropResource (owns resource member))⟩
    exact released.work (exchanges found _) (.tell _ rfl)

/-! ### Parameters and results -/

theorem plainly {command : RenderCommand} (tended : Tended allows start due library.system)
    (common : ∀ piece, library.Common piece → allows piece) (plain : command.isPlain) :
    Tended allows start due (library.enqueue command).system :=
  tended.work (common _ (.tell plain)) (.tell _ (RenderCommand.map?_of_isPlain plain))

theorem onParameters (tended : Tended allows start [] library.system) (target : Target)
    (change : Table String ParameterValue → Table String ParameterValue) :
    Tended allows start [] (library.onParameters target change).system := by
  cases target <;> exact tended

theorem setParameter {target : Target} {name : String} {value : ParameterValue}
    (tended : Tended allows start [] library.system)
    (common : ∀ piece, library.Common piece → allows piece)
    (ran : library.setParameter target name value = .ok later) :
    Tended allows start [] later.system := by
  obtain ⟨proxy, _, rfl⟩ := Library.setParameter_cases ran
  exact (tended.onParameters target _).work (common _ (.tell rfl)) (.tell _ rfl)

theorem clearParameter {target : Target} {name : String}
    (tended : Tended allows start [] library.system)
    (common : ∀ piece, library.Common piece → allows piece)
    (ran : library.clearParameter target name = .ok later) :
    Tended allows start [] later.system := by
  obtain ⟨proxy, _, rfl⟩ | rfl := Library.clearParameter_cases ran
  · exact (tended.onParameters target _).work (common _ (.tell rfl)) (.tell _ rfl)
  · exact tended

theorem completeAll {finished : FinishedCompile} {count : Nat}
    (tended : Tended allows start due library.system) (settles : allows .settle)
    (handed : finished ∈ due) (ran : library.completeAll finished = .ok (count, later)) :
    Tended allows start due later.system := by
  obtain ⟨system, after, rfl⟩ := Library.completeAll_kept (motive := Tended allows start due)
    (fun before completed => before.work settles (.complete handed completed)) tended ran
  exact after

theorem processResults {count : Nat} (tended : Tended allows start [] library.system)
    (settles : allows .settle) (ran : library.processResults = .ok (count, later)) :
    Tended allows start [] later.system := by
  have handed : Tended allows start library.system.processResults.1
      library.system.processResults.2 := tended.work settles .processResults
  have applied := Library.processResults_kept
    (motive := fun next => Tended allows start library.system.processResults.1 next.system)
    (fun member before completed => before.completeAll settles member completed) handed ran
  exact applied.work settles .conclude

theorem finishAll {count : Nat} (tended : Tended allows start [] library.system)
    (settles : allows .settle) (ran : library.finishAll = .ok (count, later)) :
    Tended allows start [] later.system :=
  processResults (tended.work settles .finishAll) settles ran

theorem flush (tended : Tended allows start [] library.system)
    (common : ∀ piece, library.Common piece → allows piece) (draws : allows .draw)
    (ran : library.flush = .ok later) : Tended allows start [] later.system := by
  obtain rfl | ⟨renderer, flushed, rfl⟩ := Library.flush_cases ran
  · exact tended
  · have fenced : Tended allows start [] (library.system.enqueue .fence) :=
      tended.plainly common rfl
    exact fenced.runFrame draws flushed

end System.Tended

end Shading
