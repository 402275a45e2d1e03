/-
What is outstanding. A library and the manager of its compiles each know which
resource waits for which job, and whatever is done with the library, and in
whatever order the compiler answers, they know the same. A library also notes for
each resource whose it is, and results are applied only to resources that are
noted; but none is left out, since it is entered when it is made and taken off the
list only when it is dropped. So nobody waits in vain: once all compiles have been
waited for, every resource that waited for one has what came of it.
-/

import Shading.Proofs.Material.Applying
import Shading.Proofs.Material.Drawing
import Shading.Proofs.Material.Mirroring
import Shading.Proofs.Material.Using

namespace Shading.Library

open FinishedCompile (Serve)

variable {library next : Library} {key : SlotKey} {target : Target} {count : Nat}

/-! ### The list of owners -/

/-- Every resource that is there has an owner noted. -/
def Listed (library : Library) : Prop :=
  ∀ id, (library.system.variantOf id).isSome → library.owners.contains id

namespace Listed

theorem known {system : System} (listed : library.Listed)
    (known : ∀ id, (system.variantOf id).isSome → (library.system.variantOf id).isSome) :
    Listed { library with system } := fun id there => listed id (known id there)

theorem steadily {system : System} (listed : library.Listed)
    (steady : System.Steady library.system system) : Listed { library with system } :=
  listed.known fun _ there => steady.variantOf ▸ there

theorem varyAll (listed : library.Listed) (ids : List ResourceId) (change : Variant → Variant) :
    Listed { library with system := library.system.varyAll ids change } :=
  listed.known fun id there => System.isSome_variantOf_varyAll library.system ids change id ▸ there

theorem cacheShaders {ready : Bool} (listed : library.Listed)
    (ran : library.cacheShaders target = .ok (ready, next)) : next.Listed := by
  obtain ⟨system, steady, rfl⟩ := cacheShaders_kept (motive := System.Steady library.system)
    (fun before cached => before.trans (.cacheShaders cached)) (.refl _) ran
  exact listed.steadily steady

theorem addResources (listed : library.Listed) (owner : Target) (description : Description)
    (overrides : Option StaticParameters) :
    (library.addResources owner description overrides).2.Listed :=
  List.foldlRecOn (motive := fun made : Materials × Library => made.2.Listed) _ _ listed
    fun made before tier _ => by
      let variant : Variant :=
        { description, overrides, quality := library.system.settings.activeQuality, tier }
      have entered : Listed { made.2 with
          system := (made.2.system.addResource variant).2
          owners := made.2.owners.insert made.2.system.nextResource owner } := fun id there => by
        rw [variantOf_addResource] at there
        show ((made.2.owners.insert _ owner).get? id).isSome
        rw [Table.get?_insert]
        split
        · rfl
        · rename_i different
          rw [if_neg different] at there
          exact before id there
      unfold makeOne
      dsimp only
      split
      · refine fun id there => entered id ?_
        rw [variantOf_dropResource] at there
        split at there
        · cases there
        · exact there
      · exact entered

theorem addPermutation {made : Materials × Library} (listed : library.Listed)
    (ran : library.addPermutation key = .ok made) : made.2.Listed := by
  obtain ⟨described, _, ran⟩ := bind_eq_ok.mp ran
  cases described with
  | none =>
    cases ran
    exact listed
  | some description =>
    cases ran
    exact listed.addResources _ _ _

theorem releaseResources (listed : library.Listed) (resources : Materials) :
    (library.releaseResources resources).Listed :=
  List.foldlRecOn (motive := Listed) _ _ listed fun library before id _ other there => by
    rw [variantOf_dropResource] at there
    show ((library.owners.erase id).get? other).isSome
    rw [Table.get?_erase]
    split
    · rename_i here
      rw [if_pos here] at there
      cases there
    · rename_i different
      rw [if_neg different] at there
      exact before other ((System.Steady.releaseMap library.system id).variantOf ▸ there)

/-! ### Operations -/

theorem addMaterial {description : Description} (listed : library.Listed)
    (ran : library.addMaterial description = .ok (key, next)) : next.Listed := by
  obtain ⟨⟨ready, cached⟩, caching, same⟩ := bind_eq_ok.mp ran
  cases same
  have numbered : Listed { library with
      system := library.system.freshProxy.2
      materials := (library.materials.insert
        { description, proxy := library.system.freshProxy.1 }).2 } := listed
  refine cacheShaders ?_ caching
  exact numbered.addResources (.material library.materials.nextKey) description none

theorem addInstance {parent : Target} {overrides : StaticParameters}
    {result : Except Failure SlotKey} (listed : library.Listed)
    (ran : library.addInstance parent overrides = .ok (result, next)) : next.Listed := by
  cases enrolls ran with
  | orphan | bare => exact listed
  | equipped _ _ permuted caching =>
    have numbered : (library.enrolled
      { parent, overrides, proxy := library.system.nextProxy }).Listed := listed
    refine cacheShaders ?_ caching
    exact numbered.addPermutation permuted

theorem removeMaterial (listed : library.Listed) (key : SlotKey) :
    (library.removeMaterial key).Listed := by
  cases found : library.materials.get? key with
  | none =>
    rw [removeMaterial_of_missing found]
    exact listed
  | some material =>
    rw [removeMaterial_of_found found]
    have without : Listed { library.relieved key with
      materials := library.materials.erase key } := listed
    exact without.releaseResources material.resources

theorem removeInstance (listed : library.Listed) (key : SlotKey) :
    (library.removeInstance key).Listed := by
  unfold Library.removeInstance
  split
  · exact listed
  · rename_i found there
    have without : Listed { library with derived := library.derived.erase key } := listed
    exact without.releaseResources found.resources

theorem syncPermutation {needed : Bool} (listed : library.Listed)
    (ran : library.syncPermutation key = .ok (needed, next)) : next.Listed := by
  cases synced ran with
  | missing | spared => exact listed
  | @refreshed _ description _ _ _ _ =>
    exact listed.varyAll _ fun variant => { variant with description, overrides := some _ }
  | equipped _ _ _ permuted => exact listed.addPermutation permuted
  | @bereft found _ _ _ =>
    have bare : (library.setResources key (.fill none)).Listed := listed
    exact bare.releaseResources found.resources

theorem completeAll {finished : FinishedCompile} {count : Nat} (listed : library.Listed)
    (ran : library.completeAll finished = .ok (count, next)) : next.Listed := by
  obtain ⟨system, steady, rfl⟩ := completeAll_kept (motive := System.Steady library.system)
    (fun before completed => before.trans (.complete completed)) (.refl _) ran
  exact listed.steadily steady

theorem processResults {count : Nat} (listed : library.Listed)
    (ran : library.processResults = .ok (count, next)) : next.Listed :=
  processResults_kept (motive := Listed) (fun _ before completed => before.completeAll completed)
    (show Listed { library with system := library.system.processResults.2 } from listed) ran

theorem batching : Batching Listed where
  synced := fun before => before.syncPermutation
  cached := fun before => before.cacheShaders
  recached := fun _ before => before
  reported := fun _ _ before => before

theorem onParameters (listed : library.Listed) (target : Target)
    (change : Table String ParameterValue → Table String ParameterValue) :
    (library.onParameters target change).Listed := by
  cases target <;> exact listed

theorem orders {removing : Option ProxyId} (listed : library.Listed)
    (orders : library.Orders removing next) : next.Listed := by
  cases orders with
  | addMaterial ran => exact listed.addMaterial ran
  | replaceDescription ran =>
    obtain ⟨material, _, rfl⟩ := replaceDescription_cases ran
    exact listed.varyAll _ fun variant => { variant with description := _ }
  | removeMaterial key => exact listed.removeMaterial key
  | addInstance ran => exact listed.addInstance ran
  | removeInstance key => exact listed.removeInstance key
  | setParameter ran =>
    obtain ⟨proxy, _, rfl⟩ := setParameter_cases ran
    exact listed.onParameters _ _
  | clearParameter ran =>
    obtain ⟨proxy, _, rfl⟩ | rfl := clearParameter_cases ran
    · exact listed.onParameters _ _
    · exact listed
  | cacheShaders ran => exact listed.cacheShaders ran
  | processResults ran => exact listed.processResults ran
  | finishAll ran =>
    have finished : Listed { library with system := { library.system with
      workshop := library.system.workshop.finishAll library.system.heldMaps } } := listed
    exact finished.processResults ran
  | commit ran =>
    rcases batching.commit listed ran with rfl | ⟨told, after, same⟩
    · exact listed
    · cases same
      exact after

/-- Whatever a library does, no owner is forgotten. -/
theorem does (listed : library.Listed) (does : library.Does next) : next.Listed :=
  does.kept (fun before orders => before.orders orders)
    (fun before chosen => by
      obtain ⟨⟨added, after⟩, adding, same⟩ := bind_eq_ok.mp chosen
      cases same
      have entered := before.addMaterial adding
      split <;> exact entered)
    (fun before ran => by
      obtain rfl | ⟨renderer, _, rfl⟩ := flush_cases ran <;> exact before)
    listed

end Listed

/-! ### Results for a library -/

/-- All that is handed out to a library is applied, since all that wait are listed. -/
theorem processed (agrees : System.Agrees System.settled library.system) (listed : library.Listed)
    (ran : library.processResults = .ok (count, next)) :
    System.Agrees System.settled next.system ∧
      System.Agrees.Advances library.system.processResults.1 library.system next.system := by
  obtain ⟨handed, distinct, single⟩ := agrees.processResults
  have folded := foldlM_invariant (motive := fun (left : List FinishedCompile)
      (state : Nat × Library) =>
      (left.map FinishedCompile.job).Nodup ∧ left ⊆ library.system.processResults.1 ∧
        state.2.Listed ∧ System.Agrees (Serve left) state.2.system ∧
          System.Agrees.Advances library.system.processResults.1 library.system state.2.system)
    (fun finished rest state after ⟨distinct, among, listed, agrees, advances⟩ stepped => by
      obtain ⟨⟨more, next⟩, completed, same⟩ := bind_eq_ok.mp stepped
      cases same
      have later := listed.completeAll completed
      obtain ⟨⟨total, system⟩, folded, same⟩ := bind_eq_ok.mp completed
      cases same
      have all : finished.resources.filter state.2.owners.contains = finished.resources :=
        List.filter_eq_self.mpr fun id member => listed id (by
          obtain ⟨resource, found, _⟩ := agrees.known
            (agrees.awaited finished.job id ⟨finished, List.mem_cons_self, rfl, member⟩)
          unfold System.variantOf
          rw [found]
          rfl)
      rw [all] at folded
      obtain ⟨fresh, distinct⟩ := List.nodup_cons.mp distinct
      obtain ⟨agrees, advances⟩ := agrees.completes advances (among List.mem_cons_self)
        (single finished (among List.mem_cons_self)) fresh folded
      exact ⟨distinct, fun _ there => among (List.mem_cons_of_mem _ there), later, agrees,
        advances⟩)
    _ _ _ ⟨distinct, List.Subset.refl _, listed, handed, fun _ _ waits => .inl waits⟩ ran
  obtain ⟨_, _, _, agrees, advances⟩ := folded
  refine ⟨agrees.congr fun job id => iff_of_false ?_ not_false, advances⟩
  rintro ⟨_, member, _⟩
  cases member

/-- Applying results is nothing to the workshop that has handed them out. -/
theorem aside_processResults (ran : library.processResults = .ok (count, next)) :
    library.system.processResults.2.workshop.Aside next.system.workshop := by
  refine processResults_kept (motive := fun next =>
    library.system.processResults.2.workshop.Aside next.system.workshop)
    (fun _ before completed => ?_) (.refl _) ran
  obtain ⟨system, after, rfl⟩ := completeAll_kept (motive := fun system =>
    library.system.processResults.2.workshop.Aside system.workshop)
    (fun before completed => before.trans (System.aside_complete completed)) before completed
  exact after

/-- The system of a library once all its compiles have been waited for. -/
def landed (library : Library) : System :=
  { library.system with
    workshop := library.system.workshop.finishAll library.system.heldMaps }

/-- All that waited have been served, and nobody waits any more. -/
theorem finished (agrees : System.Agrees System.settled library.system) (listed : library.Listed)
    (ran : library.finishAll = .ok (count, next)) :
    System.Agrees System.settled next.system ∧ (∀ id, next.system.jobsOf id = []) ∧
      ∀ job id, job ∈ library.system.jobsOf id →
        ∃ finished ∈ library.landed.processResults.1, finished.job = job ∧
          id ∈ finished.resources ∧ ∃ resource, next.system.resources.get? id = some resource ∧
            resource.Took finished.result := by
  have waited : System.Agrees System.settled library.landed := agrees.finishAll
  have known : Listed { library with system := library.landed } := listed
  obtain ⟨after, advances⟩ := processed waited known ran
  have idle (id : ResourceId) : next.system.jobsOf id = [] := by
    refine List.eq_nil_iff_forall_not_mem.mpr fun job waits => ?_
    have aside := aside_processResults ran
    have still := (after.waits job id).mpr waits
    unfold Manager.Waits Manager.Flies Manager.Landed at still
    rw [aside.jobs, aside.finished] at still
    obtain ⟨before, unserved⟩ := (waited.processResults.1.waits_iff job id).mp still
    exact unserved (waited.engages_settled.process_all library.landed.heldMaps
      (agrees.engages_settled.finishAll_landed library.system.heldMaps) before)
  refine ⟨after, idle, fun job id waits => ?_⟩
  rcases advances job id waits with still | ⟨_, served⟩
  · rw [idle] at still
    cases still
  · exact served

/-! ### Runs -/

/-- What can have happened to a library whose compiles nobody else asks for. The compiler answers
in whatever order, and it may be exchanged for another one; the registry and the store are used,
the settings change, and the renderer becomes whatever it may. -/
inductive Works : Library → Prop where
  | start (system : System) : system.resources = .empty →
    Traffic.Fresh ⟨system.workshop, [], [], []⟩ → Works { system }
  | does {library next : Library} : Works library → Does library next → Works next
  | release {library : Library} (position : Option Nat) : Works library →
    Works { library with system := { library.system with
      workshop := (library.system.workshop.release position).2 } }
  | aside {library : Library} {workshop : Workshop} : Works library →
    library.system.workshop.Aside workshop →
    Works { library with system := { library.system with workshop } }
  | renderer {library : Library} (renderer : Renderer) : Works library →
    Works { library with system := { library.system with renderer } }
  | tune {library : Library} (settings : Settings) (catalog : Catalog) : Works library →
    Works { library with system := { library.system with settings, catalog } }

theorem agrees_orders {removing : Option ProxyId}
    (agrees : System.Agrees System.settled library.system) (listed : library.Listed)
    (orders : library.Orders removing next) : System.Agrees System.settled next.system := by
  have start := System.Tended.rest (· ≠ .settle) [] library.system
  rcases start.unsettled (fun _ common => by cases common <;> nofun)
    (fun _ concerns => by cases concerns <;> nofun) orders with tended | ⟨count, ran | ran⟩
  · exact tended.agrees agrees
  · exact (processed agrees listed ran).1
  · exact (finished agrees listed ran).1

theorem agrees_does (agrees : System.Agrees System.settled library.system)
    (listed : library.Listed) (does : library.Does next) :
    System.Agrees System.settled next.system ∧ next.Listed := by
  refine ⟨?_, listed.does does⟩
  refine (does.kept (motive := fun library =>
    System.Agrees System.settled library.system ∧ library.Listed) (fun before orders => ?_)
    (fun before chosen => ?_) (fun before flushed => ?_) ⟨agrees, listed⟩).1
  · exact ⟨agrees_orders before.1 before.2 orders, before.2.orders orders⟩
  · refine ⟨?_, before.2.does (.setDefaultMaterial chosen)⟩
    have tended := (System.Tended.rest (· ≠ .settle) [] _).setDefaultMaterial
      (fun _ common => by cases common <;> nofun) (fun _ => nofun) chosen
    exact tended.agrees before.1
  · refine ⟨?_, before.2.does (.flush flushed)⟩
    have tended := (System.Tended.rest (· ≠ .settle) [] _).flush
      (fun _ common => by cases common <;> nofun) nofun flushed
    exact tended.agrees before.1

namespace Works

theorem agrees (works : Works library) :
    System.Agrees System.settled library.system ∧ library.Listed := by
  induction works with
  | start system none fresh =>
    have idle (id : ResourceId) : system.jobsOf id = [] := by
      unfold System.jobsOf
      rw [none]
      rfl
    have unknown (id : ResourceId) : (system.variantOf id).isSome = false := by
      unfold System.variantOf
      rw [none]
      rfl
    refine ⟨⟨fresh.engages.congr fun job id => ?_, fun _ _ owed => owed.elim, fun id => ?_,
      fun id there => ?_⟩, fun id there => ?_⟩
    · rw [idle]
      exact iff_of_false False.elim fun both => nomatch both.1
    · rw [idle]
      exact Nat.zero_le 1
    · rw [unknown] at there
      cases there
    · rw [unknown] at there
      cases there
  | does _ does before => exact agrees_does before.1 before.2 does
  | release position _ before =>
    exact ⟨before.1.onWorkshop (before.1.engages_settled.release position), before.2⟩
  | aside _ aside before =>
    exact ⟨before.1.onWorkshop (before.1.engages_settled.aside aside), before.2⟩
  | renderer _ _ before | tune _ _ _ before => exact ⟨before.1.aloof (.of_same rfl rfl rfl), before.2⟩

/-- The library and the manager agree on who waits: whatever has been done with a library and
however the compiler has answered, no resource has more than one job outstanding, and it has a job
outstanding just when the manager lists it for that job, be the compile in flight or its result
not handed out yet. So after all compiles have been waited for nobody has a job outstanding, and
each resource that had one has the map that came of that very job, or no map and the messages of
its failure. -/
theorem agrees_on_waiting (works : Works library) :
    (∀ id, (library.system.jobsOf id).length ≤ 1) ∧
    (∀ job id, job ∈ library.system.jobsOf id ↔ library.system.workshop.manager.Waits job id) ∧
    ∀ count next, library.finishAll = .ok (count, next) →
      (∀ id, next.system.jobsOf id = []) ∧
      (∀ job id, ¬next.system.workshop.manager.Waits job id) ∧
      ∀ job id, job ∈ library.system.jobsOf id →
        ∃ finished ∈ library.landed.processResults.1, finished.job = job ∧
          id ∈ finished.resources ∧ ∃ resource, next.system.resources.get? id = some resource ∧
            resource.Took finished.result := by
  obtain ⟨agrees, listed⟩ := works.agrees
  refine ⟨agrees.single, fun job id => (agrees.waits job id).symm, fun count next ran => ?_⟩
  obtain ⟨after, idle, served⟩ := finished agrees listed ran
  refine ⟨idle, fun job id waits => ?_, served⟩
  have waits := (after.waits job id).mp waits
  rw [idle] at waits
  cases waits

end Works

/-- An empty library whose materials all have the one shader of the catalog, and whose compiler
keeps jobs waiting. -/
def press : Library where
  system := {
    catalog := System.pixelCatalog
    workshop := { compiler := { compile := fun _ => .ok ⟨[], 0⟩, keeps := fun _ => true } } }

/-- A material waits for its map until all compiles have been waited for. -/
theorem press_serves : ∃ library count next resource, Works library ∧
    (.first : JobId) ∈ library.system.jobsOf .first ∧
    library.system.workshop.manager.Waits .first .first ∧
    library.finishAll = .ok (count, next) ∧ next.system.jobsOf .first = [] ∧
    next.system.resources.get? .first = some resource ∧ resource.map.isSome := by
  have run : (press.addMaterial (switched false)).toOption.bind (fun added =>
      added.2.finishAll.toOption.map fun finished => (added.2.system.jobsOf .first,
        (finished.2.system.resources.get? .first).map fun resource => resource.map.isSome)) =
      some ([.first], some true) := by
    cbv
  obtain ⟨added, adding, run⟩ := Option.bind_eq_some_iff.mp run
  obtain ⟨⟨count, next⟩, finishing, same⟩ := Option.map_eq_some_iff.mp run
  obtain ⟨jobs, there⟩ := by simpa only [Prod.mk.injEq] using same
  obtain ⟨resource, found, mapped⟩ := Option.map_eq_some_iff.mp there
  have works : Works added.2 := (Works.start press.system rfl ⟨rfl, rfl, rfl, rfl, rfl⟩).does
    (.addMaterial (toOption_eq_some.mp adding))
  have waits : (.first : JobId) ∈ added.2.system.jobsOf .first := jobs ▸ List.mem_singleton_self _
  obtain ⟨_, listed, lands⟩ := works.agrees_on_waiting
  exact ⟨added.2, count, next, resource, works, waits, (listed _ _).mp waits,
    toOption_eq_some.mp finishing, (lands _ _ (toOption_eq_some.mp finishing)).1 _, found, mapped⟩

end Shading.Library
