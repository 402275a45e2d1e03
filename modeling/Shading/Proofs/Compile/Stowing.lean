/-
Maps on their way to the store. A map that has been made is noted as yet to be
written only where there is a store, and whoever takes in results writes what has
been noted before anybody else has a say. So between two operations no map is
kept alive just because it has yet to be written. What is written for a map is its
archive, under the key of its identity.
-/

import Shading.Compile.Bench
import Shading.Proofs.Compile.Managing

namespace Shading

/-! ### What is put into the store -/

namespace MemoryStore

variable (store : MemoryStore)

/-- The store as if nobody had ever looked into it. -/
def unasked : MemoryStore := { store with gets := 0, hits := 0 }

def putAll (puts : List (String × List UInt8)) : MemoryStore :=
  puts.foldl (fun store put => store.put put.1 put.2) store

theorem putAll_append (puts more : List (String × List UInt8)) :
    store.putAll (puts ++ more) = (store.putAll puts).putAll more :=
  List.foldl_append

theorem unasked_putAll (puts : List (String × List UInt8)) :
    (store.putAll puts).unasked = store.unasked.putAll puts := by
  induction puts generalizing store with
  | nil => rfl
  | cons first rest inductionHypothesis => exact inductionHypothesis _

end MemoryStore

/-- What is put into the store for a map: its archive, under the key of its identity. -/
def SharedMap.record? (shared : SharedMap) : Option (String × List UInt8) :=
  shared.map.archive.toOption.map fun archive => (shared.map.identity.storeKey, archive)

theorem SharedMap.record?_isSome {shared : SharedMap} (compiled : shared.map.isCompiled) :
    shared.record?.isSome := by
  obtain ⟨content, has⟩ := Option.isSome_iff_exists.mp compiled
  unfold SharedMap.record? ShaderMap.archive
  rw [has]
  rfl

/-- Every map that has been compiled can be put. -/
theorem SharedMap.map_some_record {maps : List SharedMap}
    (compiled : ∀ shared ∈ maps, shared.map.isCompiled) :
    (maps.filterMap SharedMap.record?).map some = maps.map SharedMap.record? := by
  induction maps with
  | nil => rfl
  | cons first rest inductionHypothesis =>
    obtain ⟨put, made⟩ :=
      Option.isSome_iff_exists.mp (SharedMap.record?_isSome (compiled first List.mem_cons_self))
    rw [List.filterMap_cons, List.map_cons, made,
      ← inductionHypothesis fun shared member => compiled shared (List.mem_cons_of_mem _ member)]
    rfl

theorem SharedMap.record?_eq_some {shared : SharedMap} {put : String × List UInt8} :
    shared.record? = some put ↔
      put.1 = shared.map.identity.storeKey ∧ shared.map.archive = .ok put.2 := by
  unfold SharedMap.record?
  rw [Option.map_eq_some_iff]
  constructor
  · rintro ⟨archive, made, rfl⟩
    exact ⟨rfl, toOption_eq_some.mp made⟩
  · rintro ⟨key, made⟩
    exact ⟨put.2, toOption_eq_some.mpr made, by rw [← key]⟩

/-! ### Whatever changes the manager -/

namespace Manager

variable {manager : Manager}

theorem unwritten_take (manager : Manager) (job : JobId) (resource : ResourceId) :
    (manager.take job resource).2.unwritten = manager.unwritten := by
  unfold take
  split
  · rfl
  · split
    · rfl
    · dsimp only
      split <;> rfl

theorem unwritten_cancel (manager : Manager) (resource : ResourceId) (jobs : List JobId) :
    (manager.cancel resource jobs).unwritten = manager.unwritten :=
  List.foldlRecOn (motive := fun later : Manager => later.unwritten = manager.unwritten) jobs _ rfl
    fun later before job _ => by
      unfold leave
      split
      · exact before
      · dsimp only
        split <;> exact before

end Manager

namespace Workshop

variable {held : List MapId} {workshop next : Workshop} {entry : InFlight}

theorem foldl_write (maps : List SharedMap) (store : MemoryStore) :
    maps.foldl write store = store.putAll (maps.filterMap SharedMap.record?) := by
  induction maps generalizing store with
  | nil => rfl
  | cons first rest inductionHypothesis =>
    rw [List.foldl_cons, inductionHypothesis, List.filterMap_cons]
    unfold write SharedMap.record?
    cases first.map.archive <;> rfl

/-- Nothing is left to be written. -/
def Stowed (workshop : Workshop) : Prop := workshop.manager.unwritten = []

/-- Only what can be written is left to be written. -/
def Stowing (workshop : Workshop) : Prop := workshop.usesStore = false → workshop.Stowed

/-! ### Results that arrive -/

theorem unwritten_release (workshop : Workshop) (position : Option Nat) :
    (workshop.release position).2.manager.unwritten = workshop.manager.unwritten := by
  unfold release
  split
  · rfl
  · split <;> rfl

theorem Stowed.stowing (stowed : workshop.Stowed) : workshop.Stowing := fun _ => stowed

theorem Stowing.flush (stowing : workshop.Stowing) : workshop.flush.Stowed := by
  unfold Workshop.flush
  split
  · exact rfl
  · rename_i storeless
    exact stowing ((Bool.not_eq_true _).mp storeless)

theorem Stowing.makeMap {profile : Profile} {made : SharedMap} (stowing : workshop.Stowing)
    (ran : workshop.makeMap held entry profile = (made, next)) : next.Stowing := by
  intro storeless
  cases ran
  have without : workshop.usesStore = false := storeless
  show (if workshop.usesStore && _ then _ else _) = []
  rw [without, Bool.false_and, if_neg Bool.false_ne_true]
  exact stowing without

theorem Stowing.finalize (stowing : workshop.Stowing) (job : JobId) (entry : InFlight) :
    (workshop.finalize held job entry).Stowing := by
  rcases finalize_cases workshop held job entry with ⟨failure, ended⟩ |
    ⟨profile, made, next, _, ran, ended⟩
  · rw [ended]
    exact stowing
  · rw [ended]
    have made : next.Stowing := stowing.makeMap ran
    exact made

theorem Stowing.receive (stowing : workshop.Stowing) (result : PermutationResult) :
    (receive held workshop result).Stowing := by
  unfold Workshop.receive
  split
  · exact stowing
  · rename_i entry found
    have recorded : (workshop.withEntry result.group (record entry result)).Stowing := stowing
    dsimp only
    split
    · exact recorded.finalize _ _
    · exact recorded

theorem Stowing.drain (stowing : workshop.Stowing) : (workshop.drain held).Stowing :=
  List.foldlRecOn (motive := Stowing) workshop.manager.inbox _ stowing
    fun _ before result _ => before.receive result

/-- Whoever waits for jobs writes what comes. -/
theorem Stowing.finish (stowing : workshop.Stowing) (jobs : List JobId) :
    (workshop.finish held jobs).Stowed := by
  unfold Workshop.finish
  dsimp only
  split
  · have released : (workshop.drain held).releaseAll.Stowing := stowing.drain
    exact released.drain.flush
  · exact stowing.drain.flush

theorem Stowed.finishAll (stowed : workshop.Stowed) : (workshop.finishAll held).Stowed := by
  unfold Workshop.finishAll
  dsimp only
  split
  · exact stowed
  · exact stowed.stowing.finish _

theorem Stowing.process (stowing : workshop.Stowing) : (workshop.process held).2.Stowed :=
  stowing.drain.flush

/-! ### Requests -/

theorem Stowing.await (stowing : workshop.Stowing) (job : JobId) (resource : ResourceId) :
    (workshop.await held job resource).2.Stowed := by
  have finished := Manager.unwritten_take (workshop.finish held [job]).manager job resource
  unfold Workshop.await
  dsimp only
  split <;> exact finished.trans (stowing.finish [job])

theorem Stowed.joinRequest (stowed : workshop.Stowed) (request : CompileRequest) (job : JobId) :
    (workshop.joinRequest held request job).2.Stowed := by
  unfold Workshop.joinRequest
  dsimp only
  split
  · have joined : (workshop.joined request job).Stowing := stowed.stowing
    exact joined.await _ _
  · exact stowed

section

/-! Whatever happens besides while a request is served leaves nothing to be written either. -/

variable {α : Type} {request : CompileRequest} {whileLowering afterFirst : Meanwhile α}

theorem Stowed.submitAll (stowed : workshop.Stowed)
    (meanwhile : ∀ workshop, Stowed workshop → (afterFirst workshop).2.Stowed)
    (jobs : List PermutationJob) : (workshop.submitAll afterFirst jobs).2.Stowed := by
  cases jobs with
  | nil => exact stowed
  | cons first rest =>
    exact List.foldlRecOn (motive := Stowed) rest _ (meanwhile _ stowed) fun _ before _ _ => before

theorem Stowed.compileLowered {material : LoweredMaterial} (stowed : workshop.Stowed)
    (meanwhile : ∀ workshop, Stowed workshop → (afterFirst workshop).2.Stowed) (job : JobId) :
    (workshop.compileLowered held request job material afterFirst).2.Stowed := by
  unfold Workshop.compileLowered
  split
  · exact stowed
  · rename_i lowered lowers
    have entered : lowered.Stowing := by
      obtain ⟨entry, found, rfl⟩ := Option.map_eq_some_iff.mp lowers
      have expected : (workshop.withEntry job
          (expecting entry request.permutations material.profile)).Stowing := stowed.stowing
      dsimp only
      split
      · exact expected.finalize _ _
      · exact expected
    have counted : Stowed { lowered.flush with manager := { lowered.flush.manager with
        submissions := lowered.flush.manager.submissions + 1 } } := entered.flush
    have submitted := counted.submitAll meanwhile (permutationJobs request job material.source)
    dsimp only
    split
    · exact submitted.stowing.await _ _
    · exact submitted

theorem Stowed.begun (stowed : workshop.Stowed) (request : CompileRequest) :
    (workshop.begun request).Stowed := by
  unfold Workshop.begun Stowed
  dsimp only
  split <;> exact stowed

theorem Stowed.abort (stowed : workshop.Stowed) (job : JobId) (requester : ResourceId)
    (error : LoweringError) :
    Stowed { workshop with manager := workshop.manager.abort job requester error } := by
  unfold Manager.abort Stowed
  dsimp only
  split
  · exact stowed
  · split <;> exact stowed

/-- Whatever comes of a request, it leaves nothing to be written. -/
theorem Stowed.begin (stowed : workshop.Stowed)
    (lowering : ∀ workshop, Stowed workshop → (whileLowering workshop).2.Stowed)
    (meanwhile : ∀ workshop, Stowed workshop → (afterFirst workshop).2.Stowed) :
    (workshop.begin held request whileLowering afterFirst).2.2.Stowed := by
  unfold Workshop.begin
  split
  · exact stowed.joinRequest request _
  · have before := lowering _ (stowed.begun request)
    dsimp only
    split
    · exact before.abort _ _ _
    · exact before.compileLowered meanwhile _

end

theorem Stowed.request (stowed : workshop.Stowed) (request : CompileRequest) :
    (workshop.request held request).2.Stowed := by
  have nothing : ∀ workshop, Stowed workshop → (undisturbed workshop).2.Stowed := fun _ => id
  have served : (workshop.begin held request undisturbed undisturbed).2.2.Stowed :=
    stowed.begin nothing nothing
  unfold Workshop.request
  generalize workshop.begin held request undisturbed undisturbed = answer at served ⊢
  exact served

/-- Whatever is done with a workshop leaves nothing to be written. -/
theorem Stowed.managed {stage last : Stage} (stowed : stage.2.Stowed)
    (managed : Managed stage last) : last.2.Stowed := by
  induction managed with
  | rest => exact stowed
  | andThen _ _ first second => exact second (first stowed)
  | hold => exact stowed
  | aside idle => exact idle.unwritten.trans stowed
  | @attach _ workshop identity resource =>
    show (workshop.manager.attach identity resource).2.unwritten = []
    unfold Manager.attach
    split <;> exact stowed
  | cancel resource jobs => exact (Manager.unwritten_cancel ..).trans stowed
  | @take _ workshop job resource result manager ran =>
    have rest := Manager.unwritten_take workshop.manager job resource
    rw [ran] at rest
    exact rest.trans stowed
  | process => exact stowed.stowing.process
  | finish => exact stowed.stowing.finish _
  | finishAll => exact stowed.finishAll
  | find | purge => exact stowed
  | shutdown => exact rfl
  | begin _ _ _ _ _ _ _ lowering meanwhile =>
    exact stowed.begin (fun _ => lowering _) fun _ => meanwhile _

end Workshop

end Shading
