/-
The books of a workshop that uses a store. A compile that ends is entered in them:
with its own map, if that is the one registered from then on, or as lost to the map
registered before it, or as failed. So is everything that is put into the store. At
any time what has been put and what is still due to be put are, in this order, the
maps whose compiles have entered them; and no compile ends twice. Every operation
takes in results of compiles and writes what is due in its own way, so for each of
them it is said what it enters, and that the books balance over it.
-/

import Shading.Proofs.Compile.Stowing

namespace Shading

/-! ### The books -/

/-- What is entered in the books. -/
inductive Deed where
  /-- A compile has ended with its own map, and that is the one registered from then on. -/
  | entered (job : JobId) (own : SharedMap)
  /-- A compile has ended with the map that was registered before it. -/
  | lost (job : JobId)
  | failed (job : JobId)
  | put (key : String) (archive : List UInt8)

namespace Deed

def own? : Deed → Option SharedMap
  | .entered _ own => some own
  | _ => none

def job? : Deed → Option JobId
  | .entered job _ | .lost job | .failed job => some job
  | .put _ _ => none

def put? : Deed → Option (String × List UInt8)
  | .put key archive => some (key, archive)
  | _ => none

/-- The maps that have been entered. -/
def maps (deeds : List Deed) : List SharedMap := deeds.filterMap own?

/-- The compiles that have ended. -/
def jobs (deeds : List Deed) : List JobId := deeds.filterMap job?

def puts (deeds : List Deed) : List (String × List UInt8) := deeds.filterMap put?

theorem maps_append (deeds more : List Deed) : maps (deeds ++ more) = maps deeds ++ maps more :=
  List.filterMap_append

theorem jobs_append (deeds more : List Deed) : jobs (deeds ++ more) = jobs deeds ++ jobs more :=
  List.filterMap_append

theorem puts_append (deeds more : List Deed) : puts (deeds ++ more) = puts deeds ++ puts more :=
  List.filterMap_append

end Deed

namespace Workshop

/-- How a compile ends whose permutations have all been compiled. -/
def deedByFinalize (workshop : Workshop) (held : List MapId) (job : JobId) (entry : InFlight) :
    Deed :=
  match entry.profile with
  | some profile =>
    if entry.errors = [] then
      let own := workshop.ownMap entry profile
      if (workshop.finalize held job entry).registry.entries.get? entry.identity = some own then
        .entered job own
      else .lost job
    else .failed job
  | none => .failed job

def deedsByReceive (held : List MapId) (workshop : Workshop) (result : PermutationResult) :
    List Deed :=
  match workshop.manager.jobs.get? result.group with
  | none => []
  | some entry =>
    let entry := record entry result
    if entry.remaining = [] && !entry.lowering then
      [(workshop.withEntry result.group entry).deedByFinalize held result.group entry]
    else []

def deedsByResults (held : List MapId) : Workshop → List PermutationResult → List Deed
  | _, [] => []
  | workshop, first :: rest =>
    deedsByReceive held workshop first ++ deedsByResults held (receive held workshop first) rest

def deedsByDrain (workshop : Workshop) (held : List MapId) : List Deed :=
  deedsByResults held workshop.emptied workshop.manager.inbox

def deedsByFlush (workshop : Workshop) : List Deed :=
  if workshop.usesStore then
    (workshop.manager.unwritten.filterMap SharedMap.record?).map fun put => .put put.1 put.2
  else []

def deedsByProcess (workshop : Workshop) (held : List MapId) : List Deed :=
  workshop.deedsByDrain held ++ (workshop.drain held).deedsByFlush

/-- Whether or not the compiler has to work off its jobs, what has come is written at the end. -/
def deedsByFinish (workshop : Workshop) (held : List MapId) (jobs : List JobId) : List Deed :=
  workshop.deedsByDrain held ++
    let workshop := workshop.drain held
    if jobs.any workshop.manager.isCompiling then
      workshop.releaseAll.deedsByDrain held ++ (workshop.releaseAll.drain held).deedsByFlush
    else workshop.deedsByFlush

def deedsByFinishAll (workshop : Workshop) (held : List MapId) : List Deed :=
  let jobs := workshop.manager.jobs.keys
  if jobs = [] then [] else workshop.deedsByFinish held jobs

def deedsByAbort (workshop : Workshop) (job : JobId) : List Deed :=
  match workshop.manager.jobs.get? job with
  | none => []
  | some _ => [.failed job]

def deedsByLowered (workshop : Workshop) (held : List MapId) (job : JobId)
    (permutations : List Permutation) (profile : Profile) : List Deed :=
  match workshop.manager.jobs.get? job with
  | none => []
  | some entry =>
    let entry := expecting entry permutations profile
    if entry.remaining = [] then [(workshop.withEntry job entry).deedByFinalize held job entry]
    else []

/-- What is entered while jobs are submitted is what happens after the first one. -/
def deedsBySubmitAll (deedsAfter : Workshop → List Deed) (workshop : Workshop) :
    List PermutationJob → List Deed
  | [] => []
  | first :: _ => deedsAfter (workshop.submit first)

/-- A submission has been counted. -/
def counted (workshop : Workshop) : Workshop :=
  { workshop with
    manager := { workshop.manager with submissions := workshop.manager.submissions + 1 } }

def deedsByCompileLowered {α : Type} (workshop : Workshop) (held : List MapId)
    (request : CompileRequest) (job : JobId) (material : LoweredMaterial)
    (afterFirst : Meanwhile α) (deedsAfter : Workshop → List Deed) : List Deed :=
  workshop.deedsByLowered held job request.permutations material.profile ++
    match workshop.lowered held job request.permutations material.profile with
    | none => []
    | some entered =>
      let jobs := permutationJobs request job material.source
      entered.deedsByFlush ++ (deedsBySubmitAll deedsAfter entered.flush.counted jobs ++
        if request.synchronous then
          (entered.flush.counted.submitAll afterFirst jobs).2.deedsByFinish held [job]
        else [])

/-- What a request enters, given what is entered besides at the two moments when other things can
happen. -/
def deedsByBegin {α : Type} (workshop : Workshop) (held : List MapId) (request : CompileRequest)
    (whileLowering afterFirst : Meanwhile α) (deedsBefore deedsAfter : Workshop → List Deed) :
    List Deed :=
  match workshop.manager.inFlight? request.identity with
  | some job =>
    if request.synchronous then (workshop.joined request job).deedsByFinish held [job] else []
  | none =>
    deedsBefore (workshop.begun request) ++
      let meanwhile := (whileLowering (workshop.begun request)).2
      match request.variant.lower with
      | .error _ => meanwhile.deedsByAbort workshop.manager.nextJob
      | .ok material =>
        meanwhile.deedsByCompileLowered held request workshop.manager.nextJob material afterFirst
          deedsAfter

/-- What a request enters that is served without anything else happening. -/
def deedsByRequest (workshop : Workshop) (held : List MapId) (request : CompileRequest) :
    List Deed :=
  workshop.deedsByBegin held request undisturbed undisturbed (fun _ => []) fun _ => []

/-! ### Balance -/

/-- The store is used, and all numbers that are in use have been given out. -/
structure Equipped (workshop : Workshop) : Prop where
  uses : workshop.usesStore = true
  counts : workshop.registry.Counts
  begun : ∀ job, workshop.manager.isCompiling job → job.number < workshop.manager.nextJob.number
  due : ∀ shared ∈ workshop.manager.unwritten, shared.map.isCompiled

/-- What becomes of compiles. One that has ended was in flight or has begun meanwhile, has ended
once and is in flight no more. -/
structure Tallies (workshop : Workshop) (deeds : List Deed) (next : Workshop) : Prop where
  later : workshop.manager.nextJob.number ≤ next.manager.nextJob.number
  known : ∀ job, next.manager.isCompiling job ∨ job ∈ Deed.jobs deeds →
    workshop.manager.isCompiling job ∨
      workshop.manager.nextJob.number ≤ job.number ∧ job.number < next.manager.nextJob.number
  landed : ∀ job ∈ Deed.jobs deeds, ¬next.manager.isCompiling job
  once : (Deed.jobs deeds).Nodup

/-- What is to be put into the store. -/
def due (workshop : Workshop) : List (Option (String × List UInt8)) :=
  workshop.manager.unwritten.map SharedMap.record?

/-- What has been put and what is due afterwards is what was due before and what has been
entered. -/
structure Balance (workshop : Workshop) (deeds : List Deed) (next : Workshop) : Prop where
  equipped : next.Equipped
  tallies : Tallies workshop deeds next
  posted : (Deed.puts deeds).map some ++ next.due =
    workshop.due ++ (Deed.maps deeds).map SharedMap.record?
  stored : next.store.unasked = workshop.store.unasked.putAll (Deed.puts deeds)

/-- An operation over which the books balance. -/
def Balanced (workshop : Workshop) (deeds : List Deed) (next : Workshop) : Prop :=
  workshop.Equipped → Balance workshop deeds next

variable {workshop middle next : Workshop} {deeds more : List Deed} {held : List MapId}
  {job : JobId} {entry : InFlight} {request : CompileRequest}

theorem Tallies.andThen (begun : ∀ job, workshop.manager.isCompiling job →
      job.number < workshop.manager.nextJob.number)
    (first : Tallies workshop deeds middle) (second : Tallies middle more next) :
    Tallies workshop (deeds ++ more) next := by
  have fewer (job : JobId) (flying : middle.manager.isCompiling job ∨ job ∈ Deed.jobs deeds) :
      workshop.manager.isCompiling job ∨
        workshop.manager.nextJob.number ≤ job.number ∧ job.number < next.manager.nextJob.number :=
    (first.known job flying).imp_right fun between =>
      ⟨between.1, Nat.lt_of_lt_of_le between.2 second.later⟩
  -- a compile that has ended first is numbered below what begins later
  have older (job : JobId) (ended : job ∈ Deed.jobs deeds) :
      job.number < middle.manager.nextJob.number := by
    rcases first.known job (.inr ended) with flying | between
    · exact Nat.lt_of_lt_of_le (begun job flying) first.later
    · exact between.2
  have gone (job : JobId) (ended : job ∈ Deed.jobs deeds) :
      ¬(next.manager.isCompiling job ∨ job ∈ Deed.jobs more) := fun again => by
    rcases second.known job again with flying | between
    · exact first.landed job ended flying
    · exact absurd (older job ended) (Nat.not_lt.mpr between.1)
  refine ⟨Nat.le_trans first.later second.later, fun job flying => ?_, fun job ended => ?_, ?_⟩
  · rw [Deed.jobs_append, List.mem_append] at flying
    by_cases ended : job ∈ Deed.jobs deeds
    · exact fewer job (.inr ended)
    · rcases second.known job (flying.imp_right fun either => either.resolve_left ended) with
        before | between
      · exact fewer job (.inl before)
      · exact .inr ⟨Nat.le_trans first.later between.1, between.2⟩
  · rw [Deed.jobs_append, List.mem_append] at ended
    exact ended.elim (fun ended flying => gone job ended (.inl flying)) (second.landed job)
  · rw [Deed.jobs_append]
    refine List.nodup_append.mpr ⟨first.once, second.once, ?_⟩
    rintro job ended _ again rfl
    exact gone job ended (.inr again)

namespace Balanced

theorem andThen (first : Balanced workshop deeds middle) (second : Balanced middle more next) :
    Balanced workshop (deeds ++ more) next := fun equipped => by
  have before := first equipped
  have after := second before.equipped
  refine ⟨after.equipped, before.tallies.andThen equipped.begun after.tallies, ?_, ?_⟩
  · rw [Deed.puts_append, Deed.maps_append, List.map_append, List.map_append, List.append_assoc,
      after.posted, ← List.append_assoc, before.posted, List.append_assoc]
  · rw [Deed.puts_append, MemoryStore.putAll_append, ← before.stored]
    exact after.stored

/-- Nothing is entered, and nothing has come to be in flight or due. -/
theorem quiet (uses : next.usesStore = workshop.usesStore)
    (counts : workshop.registry.Counts → next.registry.Counts)
    (unwritten : next.manager.unwritten = workshop.manager.unwritten)
    (store : next.store.unasked = workshop.store.unasked)
    (nextJob : next.manager.nextJob = workshop.manager.nextJob)
    (flying : ∀ job, next.manager.isCompiling job → workshop.manager.isCompiling job) :
    Balanced workshop [] next := fun equipped => by
  refine ⟨⟨uses.trans equipped.uses, counts equipped.counts, fun job compiling => ?_, ?_⟩,
    ⟨nextJob ▸ Nat.le_refl _, fun job compiling => ?_, fun _ none => (nomatch none), .nil⟩, ?_,
    store⟩
  · rw [nextJob]
    exact equipped.begun job (flying job compiling)
  · rw [unwritten]
    exact equipped.due
  · exact .inl (flying job (compiling.resolve_right List.not_mem_nil))
  · unfold Workshop.due
    rw [unwritten]
    exact (List.append_nil _).symm

theorem refl (workshop : Workshop) : Balanced workshop [] workshop :=
  quiet rfl id rfl rfl rfl fun _ => id

theorem onRegistry {registry : Registry} (counts : workshop.registry.Counts → registry.Counts) :
    Balanced workshop [] { workshop with registry } :=
  quiet rfl counts rfl rfl rfl fun _ => id

theorem onManager {manager : Manager} (unwritten : manager.unwritten = workshop.manager.unwritten)
    (nextJob : manager.nextJob = workshop.manager.nextJob)
    (flying : ∀ job, manager.isCompiling job → workshop.manager.isCompiling job) :
    Balanced workshop [] { workshop with manager } :=
  quiet rfl id unwritten rfl nextJob flying

theorem aside (idle : Idle workshop next) (store : next.store.unasked = workshop.store.unasked) :
    Balanced workshop [] next := by
  refine quiet idle.usesStore ?_ idle.unwritten store idle.nextJob fun job flying => ?_
  · rw [idle.registry]
    exact id
  · unfold Manager.isCompiling at flying ⊢
    rwa [idle.jobs] at flying

theorem thenQuiet (first : Balanced workshop deeds middle) (second : Balanced middle [] next) :
    Balanced workshop deeds next := by
  have both := first.andThen second
  rwa [List.append_nil] at both

end Balanced

/-! ### Ends of compiles -/

theorem isCompiling_of_get? {manager : Manager} (found : manager.jobs.get? job = some entry) :
    manager.isCompiling job :=
  Option.isSome_iff_exists.mpr ⟨entry, found⟩

/-- One compile has ended. -/
theorem Tallies.one {deed : Deed} (is : deed.job? = some job)
    (flying : workshop.manager.isCompiling job)
    (jobs : next.manager.jobs = workshop.manager.jobs.erase job)
    (nextJob : next.manager.nextJob = workshop.manager.nextJob) :
    Tallies workshop [deed] next := by
  have sole : Deed.jobs [deed] = [job] := by
    unfold Deed.jobs
    rw [List.filterMap_cons, is]
    rfl
  have left (other : JobId) (compiling : next.manager.isCompiling other) :
      other ≠ job ∧ workshop.manager.isCompiling other := by
    unfold Manager.isCompiling at compiling
    rw [jobs] at compiling
    exact Table.contains_of_erase compiling
  refine ⟨nextJob ▸ Nat.le_refl _, fun other either => .inl ?_, fun other ended compiling => ?_, ?_⟩
  · rw [sole, List.mem_singleton] at either
    exact either.elim (fun compiling => (left other compiling).2) fun same => same ▸ flying
  · rw [sole, List.mem_singleton] at ended
    exact (left other compiling).1 ended
  · rw [sole]
    exact List.nodup_cons.mpr ⟨List.not_mem_nil, List.nodup_nil⟩

/-- How a compile ends, and what is entered then. -/
theorem finalize_enters (counts : workshop.registry.Counts) (held : List MapId) (job : JobId)
    (entry : InFlight) :
    (∃ failure, workshop.finalize held job entry = workshop.conclude job entry (.error failure) ∧
        workshop.deedByFinalize held job entry = .failed job) ∨
      (∃ incumbent, workshop.finalize held job entry =
          { workshop with registry := workshop.numbering }.conclude job entry (.ok incumbent) ∧
        workshop.deedByFinalize held job entry = .lost job) ∨
      ∃ profile, workshop.finalize held job entry =
          { workshop with
            registry := { workshop.numbering with
              entries := workshop.registry.entries.insert entry.identity
                (workshop.ownMap entry profile) }
            manager := { workshop.manager with
              unwritten := if workshop.usesStore then
                  workshop.manager.unwritten ++ [workshop.ownMap entry profile]
                else workshop.manager.unwritten } }.conclude job entry
            (.ok (workshop.ownMap entry profile)) ∧
        workshop.deedByFinalize held job entry = .entered job (workshop.ownMap entry profile) := by
  unfold deedByFinalize
  cases profiled : entry.profile with
  | none =>
    refine .inl ⟨.compile entry.errors, ?_, rfl⟩
    unfold finalize
    rw [profiled]
    rfl
  | some profile =>
    dsimp only
    by_cases clean : entry.errors = []
    · have ends : workshop.finalize held job entry =
          (workshop.makeMap held entry profile).2.conclude job entry
            (.ok (workshop.makeMap held entry profile).1) := by
        unfold finalize
        rw [profiled]
        dsimp only
        rw [if_pos clean]
        rfl
      rw [if_pos clean]
      refine .inr ?_
      rcases makeMap_cases held profile fun _ => counts.unnumbered with
        ⟨incumbent, found, _, makes⟩ | ⟨_, makes⟩
      · rw [makes] at ends
        have registered : (workshop.finalize held job entry).registry.entries.get?
            entry.identity = some incumbent := ends ▸ found
        refine .inl ⟨incumbent, ends, ?_⟩
        rw [registered, if_neg]
        exact fun same => counts.unnumbered found (congrArg SharedMap.id (Option.some.inj same))
      · rw [makes] at ends
        have registered : (workshop.finalize held job entry).registry.entries.get?
            entry.identity = some (workshop.ownMap entry profile) :=
          ends ▸ (Table.get?_insert ..).trans (if_pos rfl)
        exact .inr ⟨profile, ends, if_pos registered⟩
    · refine .inl ⟨.compile entry.errors, ?_, if_neg clean⟩
      unfold finalize
      rw [profiled]
      dsimp only
      rw [if_neg clean]
      rfl

namespace Balanced

/-- The map of a compile that ends is due if its compile enters it. -/
theorem finalize (flying : workshop.manager.isCompiling job) (entry : InFlight) :
    Balanced workshop [workshop.deedByFinalize held job entry]
      (workshop.finalize held job entry) := fun equipped => by
  have ended {later : Workshop} {result : Except CompileFailure SharedMap}
      (jobs : later.manager.jobs = workshop.manager.jobs)
      (nextJob : later.manager.nextJob = workshop.manager.nextJob) (other : JobId)
      (compiling : (later.conclude job entry result).manager.isCompiling other) :
      other.number < (later.conclude job entry result).manager.nextJob.number := by
    have same : (later.conclude job entry result).manager.nextJob = workshop.manager.nextJob :=
      nextJob
    rw [same]
    change (later.manager.jobs.erase job).contains other at compiling
    rw [jobs] at compiling
    exact equipped.begun other (Table.contains_of_erase compiling).2
  have counts : workshop.numbering.Counts := equipped.counts.adopt
  rcases finalize_enters equipped.counts held job entry with
    ⟨failure, ends, deed⟩ | ⟨incumbent, ends, deed⟩ | ⟨profile, ends, deed⟩
  · rw [ends, deed]
    exact ⟨⟨equipped.uses, equipped.counts, ended rfl rfl, equipped.due⟩,
      .one rfl flying rfl rfl, (List.append_nil _).symm, rfl⟩
  · rw [ends, deed]
    exact ⟨⟨equipped.uses, counts, ended rfl rfl, equipped.due⟩, .one rfl flying rfl rfl,
      (List.append_nil _).symm, rfl⟩
  · rw [ends, deed]
    have noted : (if workshop.usesStore then
        workshop.manager.unwritten ++ [workshop.ownMap entry profile]
        else workshop.manager.unwritten) =
          workshop.manager.unwritten ++ [workshop.ownMap entry profile] :=
      if_pos equipped.uses
    rw [noted]
    refine ⟨⟨equipped.uses, counts.enter entry.identity (Nat.lt_succ_self _), ended rfl rfl,
      fun shared member => ?_⟩, .one rfl flying rfl rfl, ?_, rfl⟩
    · rcases List.mem_append.mp member with before | own
      · exact equipped.due shared before
      · rw [List.mem_singleton.mp own]
        rfl
    · show [] ++ (workshop.manager.unwritten ++ [_]).map SharedMap.record? = _
      rw [List.nil_append, List.map_append]
      rfl

/-- The entry of a compile in flight is written anew. -/
theorem withEntry (flying : workshop.manager.isCompiling job) (revised : InFlight) :
    Balanced workshop [] (workshop.withEntry job revised) :=
  onManager rfl rfl fun _ compiling =>
    (Table.contains_of_insert compiling).elim (fun same => same ▸ flying) id

/-- Perhaps its compile ends with that. -/
theorem settle (flying : workshop.manager.isCompiling job) (revised : InFlight) :
    Balanced workshop [(workshop.withEntry job revised).deedByFinalize held job revised]
      ((workshop.withEntry job revised).finalize held job revised) :=
  (withEntry flying revised).andThen
    (finalize (isCompiling_of_get? ((Table.get?_insert ..).trans (if_pos rfl))) revised)

/-! ### Results that arrive -/

theorem receive (workshop : Workshop) (result : PermutationResult) :
    Balanced workshop (deedsByReceive held workshop result)
      (Workshop.receive held workshop result) := by
  unfold deedsByReceive Workshop.receive
  cases found : workshop.manager.jobs.get? result.group with
  | none => exact refl workshop
  | some entry =>
    dsimp only
    split
    · exact settle (isCompiling_of_get? found) _
    · exact withEntry (isCompiling_of_get? found) _

theorem results (arrived : List PermutationResult) :
    Balanced workshop (deedsByResults held workshop arrived)
      (arrived.foldl (Workshop.receive held) workshop) := by
  induction arrived generalizing workshop with
  | nil => exact refl workshop
  | cons first rest inductionHypothesis =>
    exact (receive workshop first).andThen inductionHypothesis

theorem drain (workshop : Workshop) (held : List MapId) :
    Balanced workshop (workshop.deedsByDrain held) (workshop.drain held) := by
  have emptied : Balanced workshop [] workshop.emptied := onManager rfl rfl fun _ => id
  exact emptied.andThen (results workshop.manager.inbox)

/-- All that is due is put, and nothing else. -/
theorem flush (workshop : Workshop) : Balanced workshop workshop.deedsByFlush workshop.flush :=
    fun equipped => by
  have silent {β : Type} (pick : Deed → Option β)
      (unput : ∀ key archive, pick (.put key archive) = none) :
      workshop.deedsByFlush.filterMap pick = [] := by
    unfold deedsByFlush
    rw [if_pos equipped.uses, List.filterMap_map]
    exact List.filterMap_eq_nil_iff.mpr fun put _ => unput put.1 put.2
  have unended : Deed.jobs workshop.deedsByFlush = [] := silent _ fun _ _ => rfl
  have unentered : Deed.maps workshop.deedsByFlush = [] := silent _ fun _ _ => rfl
  have put : Deed.puts workshop.deedsByFlush =
      workshop.manager.unwritten.filterMap SharedMap.record? := by
    unfold Deed.puts deedsByFlush
    rw [if_pos equipped.uses, List.filterMap_map]
    exact List.filterMap_some
  have flushed : workshop.flush = { workshop with
      store := workshop.manager.unwritten.foldl Workshop.write workshop.store
      manager := { workshop.manager with unwritten := [] } } := if_pos equipped.uses
  rw [flushed]
  refine ⟨⟨equipped.uses, equipped.counts, equipped.begun, fun _ none => (nomatch none)⟩,
    ⟨Nat.le_refl _, fun job flying => .inl ?_, fun job ended => ?_, ?_⟩, ?_, ?_⟩
  · rw [unended] at flying
    exact flying.resolve_right List.not_mem_nil
  · rw [unended] at ended
    exact absurd ended List.not_mem_nil
  · rw [unended]
    exact .nil
  · rw [put, unentered, SharedMap.map_some_record equipped.due]
    rfl
  · rw [put, ← MemoryStore.unasked_putAll, ← foldl_write]

theorem releaseAll (workshop : Workshop) : Balanced workshop [] workshop.releaseAll :=
  aside (.releaseAll workshop) rfl

theorem process (workshop : Workshop) (held : List MapId) :
    Balanced workshop (workshop.deedsByProcess held) (workshop.process held).2 :=
  ((drain workshop held).andThen (flush _)).thenQuiet (onManager rfl rfl fun _ => id)

theorem finish (workshop : Workshop) (held : List MapId) (jobs : List JobId) :
    Balanced workshop (workshop.deedsByFinish held jobs) (workshop.finish held jobs) := by
  unfold deedsByFinish Workshop.finish
  refine (drain workshop held).andThen ?_
  dsimp only
  split
  · exact ((releaseAll _).andThen (drain _ held)).andThen (flush _)
  · exact flush _

theorem finishAll (workshop : Workshop) (held : List MapId) :
    Balanced workshop (workshop.deedsByFinishAll held) (workshop.finishAll held) := by
  unfold deedsByFinishAll Workshop.finishAll
  dsimp only
  split
  · exact refl workshop
  · exact finish workshop held _

/-! ### Joining and leaving -/

theorem join (job : JobId) (resource : ResourceId) :
    Balanced workshop [] { workshop with manager := workshop.manager.join job resource } := by
  unfold Manager.join Table.modify
  split
  · rename_i entry found
    exact withEntry (isCompiling_of_get? found) _
  · exact refl workshop

theorem attach (identity : MapIdentity) (resource : ResourceId) :
    Balanced workshop []
      { workshop with manager := (workshop.manager.attach identity resource).2 } := by
  unfold Manager.attach
  split
  · exact join _ resource
  · exact refl workshop

/-- A compile that is left by everybody never ends. -/
theorem leave (resource : ResourceId) (job : JobId) :
    Balanced workshop [] { workshop with manager := workshop.manager.leave resource job } := by
  unfold Manager.leave
  split
  · exact refl workshop
  · rename_i entry found
    dsimp only
    split
    · exact onManager rfl rfl fun other compiling => (Table.contains_of_erase compiling).2
    · exact withEntry (isCompiling_of_get? found) _

theorem cancel (resource : ResourceId) (jobs : List JobId) :
    Balanced workshop [] { workshop with manager := workshop.manager.cancel resource jobs } := by
  have left (workshop : Workshop) : Balanced workshop []
      { workshop with manager := jobs.foldl (Manager.leave resource) workshop.manager } := by
    induction jobs generalizing workshop with
    | nil => exact refl workshop
    | cons job rest inductionHypothesis =>
      exact (leave resource job).andThen (inductionHypothesis _)
  exact (left workshop).thenQuiet (onManager rfl rfl fun _ => id)

theorem take (job : JobId) (resource : ResourceId) :
    Balanced workshop [] { workshop with manager := (workshop.manager.take job resource).2 } := by
  unfold Manager.take
  split
  · exact refl workshop
  · split
    · exact refl workshop
    · dsimp only
      split
      · exact onManager rfl rfl fun _ => id
      · exact refl workshop

/-! ### Requests -/

theorem await (workshop : Workshop) (held : List MapId) (job : JobId) (resource : ResourceId) :
    Balanced workshop (workshop.deedsByFinish held [job])
      (workshop.await held job resource).2 := by
  have taken := (finish workshop held [job]).thenQuiet (take job resource)
  unfold Workshop.await
  dsimp only
  split <;> exact taken.thenQuiet (onManager rfl rfl fun _ => id)

theorem joinRequest (workshop : Workshop) (held : List MapId) (request : CompileRequest)
    (job : JobId) :
    Balanced workshop
      (if request.synchronous then (workshop.joined request job).deedsByFinish held [job] else [])
      (workshop.joinRequest held request job).2 := by
  unfold Workshop.joinRequest
  dsimp only
  split
  · have joined : Balanced workshop [] (workshop.joined request job) :=
      (join job request.resource).andThen (onManager rfl rfl fun _ => id)
    exact joined.andThen (await _ held job request.resource)
  · exact join job request.resource

theorem abort (job : JobId) (requester : ResourceId) (error : LoweringError) :
    Balanced workshop (workshop.deedsByAbort job)
      { workshop with manager := workshop.manager.abort job requester error } := by
  unfold deedsByAbort Manager.abort
  dsimp only
  have same : (workshop.manager.removeWaiter job requester).jobs = workshop.manager.jobs := rfl
  rw [same]
  cases found : workshop.manager.jobs.get? job with
  | none => exact onManager rfl rfl fun _ => id
  | some entry =>
    have removed : Balanced workshop [.failed job] { workshop with
        manager := (workshop.manager.removeWaiter job requester).remove job entry } :=
      fun equipped => ⟨⟨equipped.uses, equipped.counts, fun other compiling =>
        equipped.begun other (Table.contains_of_erase compiling).2, equipped.due⟩,
        .one rfl (isCompiling_of_get? found) rfl rfl, (List.append_nil _).symm, rfl⟩
    dsimp only
    split
    · exact removed
    · exact removed.thenQuiet (onManager rfl rfl fun _ => id)

/-- A compile that is entered has the next number. -/
theorem begun (workshop : Workshop) (request : CompileRequest) :
    Balanced workshop [] (workshop.begun request) := by
  have started : Balanced workshop []
      { workshop with manager := (workshop.manager.start request).2 } := fun equipped => by
    have either (other : JobId)
        (compiling : (workshop.manager.start request).2.isCompiling other) :
        other = workshop.manager.nextJob ∨ workshop.manager.isCompiling other :=
      Table.contains_of_insert compiling
    refine ⟨⟨equipped.uses, equipped.counts, fun other compiling => ?_, equipped.due⟩,
      ⟨Nat.le_succ _, fun other compiling => ?_, fun _ none => (nomatch none), .nil⟩,
      (List.append_nil _).symm, rfl⟩
    · rcases either other compiling with rfl | before
      · exact Nat.lt_succ_self _
      · exact Nat.lt_succ_of_lt (equipped.begun other before)
    · rcases either other (compiling.resolve_right List.not_mem_nil) with rfl | before
      · exact .inr ⟨Nat.le_refl _, Nat.lt_succ_self _⟩
      · exact .inl before
  unfold Workshop.begun
  dsimp only
  split
  · exact started.andThen (onManager rfl rfl fun _ => id)
  · exact started

theorem lowered {permutations : List Permutation} {profile : Profile}
    (ran : workshop.lowered held job permutations profile = some next) :
    Balanced workshop (workshop.deedsByLowered held job permutations profile) next := by
  obtain ⟨entry, found, is⟩ := Option.map_eq_some_iff.mp ran
  have same : next = if (expecting entry permutations profile).remaining = [] then
      (workshop.withEntry job (expecting entry permutations profile)).finalize held job
        (expecting entry permutations profile)
      else workshop.withEntry job (expecting entry permutations profile) := is.symm
  unfold deedsByLowered
  rw [found, same]
  dsimp only
  split
  · exact settle (isCompiling_of_get? found) _
  · exact withEntry (isCompiling_of_get? found) _

/-! What happens besides while a request is served may enter things of its own. It happens only
when nothing is due. -/

variable {α : Type} {whileLowering afterFirst : Meanwhile α}
  {deedsBefore deedsAfter : Workshop → List Deed}

theorem submitAll (stowed : workshop.Stowed)
    (meanwhile : ∀ workshop, Stowed workshop →
      Balanced workshop (deedsAfter workshop) (afterFirst workshop).2)
    (jobs : List PermutationJob) :
    Balanced workshop (deedsBySubmitAll deedsAfter workshop jobs)
      (workshop.submitAll afterFirst jobs).2 := by
  have submits (workshop : Workshop) (jobs : List PermutationJob) :
      Balanced workshop [] (jobs.foldl Workshop.submit workshop) := by
    induction jobs generalizing workshop with
    | nil => exact refl workshop
    | cons first rest inductionHypothesis =>
      exact (aside (.submit workshop first) rfl).andThen (inductionHypothesis _)
  cases jobs with
  | nil => exact refl workshop
  | cons first rest =>
    exact ((aside (.submit workshop first) rfl).andThen (meanwhile _ stowed)).thenQuiet
      (submits _ rest)

theorem compileLowered {material : LoweredMaterial}
    (meanwhile : ∀ workshop, Stowed workshop →
      Balanced workshop (deedsAfter workshop) (afterFirst workshop).2) (job : JobId) :
    Balanced workshop
      (workshop.deedsByCompileLowered held request job material afterFirst deedsAfter)
      (workshop.compileLowered held request job material afterFirst).2 := fun equipped => by
  unfold deedsByCompileLowered Workshop.compileLowered
  cases lowers : workshop.lowered held job request.permutations material.profile with
  | none =>
    have absent := Option.map_eq_none_iff.mp lowers
    unfold deedsByLowered
    rw [absent]
    exact refl workshop equipped
  | some entered =>
    have entering : Balanced workshop _ entered := lowered lowers
    have uses := (entering equipped).equipped.uses
    have flushed : entered.flush.counted.Stowed := by
      unfold Workshop.flush
      rw [if_pos uses]
      rfl
    have counts : Balanced entered.flush [] entered.flush.counted := onManager rfl rfl fun _ => id
    have handed := (flush entered).andThen
      (counts.andThen (submitAll flushed meanwhile (permutationJobs request job material.source)))
    dsimp only
    rw [← List.append_assoc (deedsByFlush entered)]
    refine entering.andThen ?_ equipped
    split
    · exact handed.andThen (await _ held job request.resource)
    · exact handed.andThen (refl _)

/-- Whatever comes of a request. -/
theorem begin (stowed : workshop.Stowed)
    (lowering : ∀ workshop, Stowed workshop →
      Balanced workshop (deedsBefore workshop) (whileLowering workshop).2)
    (meanwhile : ∀ workshop, Stowed workshop →
      Balanced workshop (deedsAfter workshop) (afterFirst workshop).2) :
    Balanced workshop
      (workshop.deedsByBegin held request whileLowering afterFirst deedsBefore deedsAfter)
      (workshop.begin held request whileLowering afterFirst).2.2 := by
  unfold deedsByBegin Workshop.begin
  cases workshop.manager.inFlight? request.identity with
  | some job => exact joinRequest workshop held request job
  | none =>
    have entering := (begun workshop request).andThen (lowering _ (stowed.begun request))
    dsimp only
    cases request.variant.lower with
    | error error => exact entering.andThen (abort _ request.resource error)
    | ok material => exact entering.andThen (compileLowered meanwhile _)

/-- Where nothing is due, everything may be dropped. -/
theorem shutdown (stowed : workshop.Stowed) :
    Balanced workshop [] { workshop with manager := workshop.manager.shutdown } :=
  onManager stowed.symm rfl fun _ flying => (nomatch flying)

end Balanced

/-! ### Whatever is done -/

/-- What is done with a workshop, and what is entered meanwhile. -/
inductive Handled : Workshop → List Deed → Workshop → Prop where
  | rest (workshop : Workshop) : Handled workshop [] workshop
  | andThen {first middle last : Workshop} {deeds more : List Deed} : Handled first deeds middle →
    Handled middle more last → Handled first (deeds ++ more) last
  /-- The compiler and the inbox change in whatever way, and the store is looked into. -/
  | aside {workshop next : Workshop} : Idle workshop next →
    next.store.unasked = workshop.store.unasked → Handled workshop [] next
  | attach {workshop : Workshop} (identity : MapIdentity) (resource : ResourceId) :
    Handled workshop []
      { workshop with manager := (workshop.manager.attach identity resource).2 }
  | cancel {workshop : Workshop} (resource : ResourceId) (jobs : List JobId) :
    Handled workshop [] { workshop with manager := workshop.manager.cancel resource jobs }
  | take {workshop : Workshop} (job : JobId) (resource : ResourceId) :
    Handled workshop [] { workshop with manager := (workshop.manager.take job resource).2 }
  | process {workshop : Workshop} (held : List MapId) :
    Handled workshop (workshop.deedsByProcess held) (workshop.process held).2
  | finish {workshop : Workshop} (held : List MapId) (jobs : List JobId) :
    Handled workshop (workshop.deedsByFinish held jobs) (workshop.finish held jobs)
  | finishAll {workshop : Workshop} (held : List MapId) :
    Handled workshop (workshop.deedsByFinishAll held) (workshop.finishAll held)
  | find {workshop : Workshop} (live : List MapId) (identity : MapIdentity) :
    Handled workshop []
      { workshop with registry := (workshop.registry.find live identity).2 }
  /-- A map from elsewhere is offered to the registry. -/
  | offer {workshop : Workshop} (live : List MapId) (map : ShaderMap) :
    Handled workshop [] { workshop with registry :=
      ((workshop.registry.adopt map).2.register live (workshop.registry.adopt map).1).2 }
  | purge {workshop : Workshop} (live : List MapId) :
    Handled workshop [] { workshop with registry := (workshop.registry.purge live).2 }
  | shutdown {workshop : Workshop} :
    Handled workshop [] { workshop with manager := workshop.manager.shutdown }
  /-- A request is made. Whatever can be done may be done besides while it is served. -/
  | begin {workshop : Workshop} {α : Type} (held : List MapId) (request : CompileRequest)
    (whileLowering afterFirst : Meanwhile α) (deedsBefore deedsAfter : Workshop → List Deed) :
    (∀ workshop, Handled workshop (deedsBefore workshop) (whileLowering workshop).2) →
    (∀ workshop, Handled workshop (deedsAfter workshop) (afterFirst workshop).2) →
    Handled workshop
      (workshop.deedsByBegin held request whileLowering afterFirst deedsBefore deedsAfter)
      (workshop.begin held request whileLowering afterFirst).2.2

theorem Handled.thenQuiet (first : Handled workshop deeds middle)
    (second : Handled middle [] next) : Handled workshop deeds next := by
  have both := first.andThen second
  rwa [List.append_nil] at both

/-- Whatever is done, the books balance over it and nothing is left due. -/
theorem Handled.balanced (handled : Handled workshop deeds next) (stowed : workshop.Stowed) :
    Balanced workshop deeds next ∧ next.Stowed := by
  induction handled with
  | rest workshop => exact ⟨.refl workshop, stowed⟩
  | andThen _ _ first second =>
    obtain ⟨before, still⟩ := first stowed
    obtain ⟨after, last⟩ := second still
    exact ⟨before.andThen after, last⟩
  | aside idle store => exact ⟨.aside idle store, idle.unwritten.trans stowed⟩
  | @attach workshop identity resource =>
    refine ⟨.attach identity resource, ?_⟩
    show (workshop.manager.attach identity resource).2.unwritten = []
    unfold Manager.attach
    split <;> exact stowed
  | cancel resource jobs =>
    exact ⟨.cancel resource jobs, (Manager.unwritten_cancel ..).trans stowed⟩
  | take job resource => exact ⟨.take job resource, (Manager.unwritten_take ..).trans stowed⟩
  | process held => exact ⟨.process _ held, stowed.stowing.process⟩
  | finish held jobs => exact ⟨.finish _ held jobs, stowed.stowing.finish jobs⟩
  | finishAll held => exact ⟨.finishAll _ held, stowed.finishAll⟩
  | find live identity => exact ⟨.onRegistry fun counts => counts.find live identity, stowed⟩
  | offer live map => exact ⟨.onRegistry fun counts => counts.offer live map, stowed⟩
  | purge live => exact ⟨.onRegistry fun counts => counts.purge live, stowed⟩
  | shutdown => exact ⟨.shutdown stowed, rfl⟩
  | begin held request whileLowering afterFirst deedsBefore deedsAfter _ _ lowering meanwhile =>
    exact ⟨.begin stowed (fun workshop still => (lowering workshop still).1)
        fun workshop still => (meanwhile workshop still).1,
      stowed.begin (fun workshop still => (lowering workshop still).2)
        fun workshop still => (meanwhile workshop still).2⟩

theorem Handled.stowed (handled : Handled workshop deeds next) (stowed : workshop.Stowed) :
    next.Stowed :=
  (handled.balanced stowed).2

/-- Between two operations everything that was entered has been put, and nothing else. -/
theorem Handled.posted (handled : Handled workshop deeds next) (equipped : workshop.Equipped)
    (stowed : workshop.Stowed) :
    (Deed.maps deeds).map SharedMap.record? = (Deed.puts deeds).map some := by
  obtain ⟨balanced, still⟩ := handled.balanced stowed
  have posted := (balanced equipped).posted
  unfold due at posted
  rw [stowed, still, List.map_nil, List.append_nil, List.nil_append] at posted
  exact posted.symm

/-- What enters no map leaves the store as it was. -/
theorem Handled.spared (handled : Handled workshop deeds next) (equipped : workshop.Equipped)
    (stowed : workshop.Stowed) (unentered : Deed.maps deeds = []) :
    next.store.unasked = workshop.store.unasked := by
  have posted := handled.posted equipped stowed
  rw [unentered] at posted
  have stored := ((handled.balanced stowed).1 equipped).stored
  rw [List.map_eq_nil_iff.mp posted.symm] at stored
  exact stored

end Workshop

end Shading
