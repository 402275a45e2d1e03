/-
How a manager keeps its compiles. A compile is in flight under its identity and
under no other, somebody waits for it, and nobody waits twice; it is never in
flight and finished at once; and a finished compile stays only as long as
somebody has yet to take its result. Every operation of a manager keeps this.
-/

import Mathlib.Data.List.Nodup
import Shading.Proofs.Compile.Traffic

namespace Shading

namespace Table

variable {κ β : Type} [DecidableEq κ]

theorem erase_insert (table : Table κ β) (key : κ) (value : β) :
    (table.insert key value).erase key = table.erase key := by
  simp [insert, erase, List.filter_filter]

theorem erase_of_get?_eq_none {table : Table κ β} {key : κ} (absent : table.get? key = none) :
    table.erase key = table := by
  have unlike := List.find?_eq_none.mp (Option.map_eq_none_iff.mp absent)
  refine congrArg Table.mk (List.filter_eq_self.mpr fun entry member => ?_)
  exact decide_eq_true fun same => unlike entry member (decide_eq_true same)

end Table

namespace FinishedCompile

/-- A finished compile for the resources that are left, if there are any. -/
def limit (compile : FinishedCompile) (left : List ResourceId) : Option FinishedCompile :=
  if left = [] then none else some { compile with resources := left }

theorem limit_eq_some {compile part : FinishedCompile} {left : List ResourceId} :
    compile.limit left = some part ↔ left ≠ [] ∧ part = { compile with resources := left } := by
  unfold limit
  split
  · rename_i none
    exact ⟨fun same => (nomatch same), fun given => absurd none given.1⟩
  · rename_i some
    exact ⟨fun same => ⟨some, (Option.some.inj same).symm⟩, fun given => given.2 ▸ rfl⟩

theorem limit_self {compile : FinishedCompile} (some : compile.resources ≠ []) :
    compile.limit compile.resources = .some compile := if_neg some

end FinishedCompile

namespace Manager

variable {manager later : Manager} {job : JobId} {entry : InFlight}

theorem nodup_addOnce {α : Type} [DecidableEq α] {entries : List α} (nodup : entries.Nodup)
    (entry : α) : (addOnce entries entry).Nodup := by
  unfold addOnce
  split
  · exact nodup
  · rename_i new
    exact nodup.append (List.nodup_singleton entry) (List.disjoint_singleton.mpr new)

theorem filter_ne_self {α : Type} [DecidableEq α] {entries : List α} {entry : α}
    (new : entry ∉ entries) : entries.filter (· ≠ entry) = entries :=
  List.filter_eq_self.mpr fun _ member => decide_eq_true fun same => new (same ▸ member)

theorem filter_addOnce {α : Type} [DecidableEq α] {entries : List α} {entry : α}
    (new : entry ∉ entries) : (addOnce entries entry).filter (· ≠ entry) = entries := by
  unfold addOnce
  rw [if_neg new, List.filter_append, filter_ne_self new,
    List.filter_cons_of_neg (by simp), List.filter_nil, List.append_nil]

/-- Finished compiles keep only some of their resources. -/
def limited (manager : Manager) (left : FinishedCompile → List ResourceId) : Manager :=
  { manager with
    finished := manager.finished.filterMap fun compile => compile.limit (left compile) }

theorem mem_limited {left : FinishedCompile → List ResourceId} {part : FinishedCompile} :
    part ∈ (manager.limited left).finished ↔
      ∃ compile ∈ manager.finished, left compile ≠ [] ∧
        part = { compile with resources := left compile } := by
  unfold limited
  rw [List.mem_filterMap]
  exact exists_congr fun compile => and_congr_right fun _ => FinishedCompile.limit_eq_some

/-! ### What every operation keeps -/

structure Regular (manager : Manager) : Prop where
  indexed : ∀ identity job, manager.byIdentity.get? identity = some job ↔
    ∃ entry, manager.jobs.get? job = some entry ∧ entry.identity = identity
  underway : ∀ job entry, manager.jobs.get? job = some entry →
    entry.resources ≠ [] ∧ entry.resources.Nodup ∧ job.number < manager.nextJob.number
  ended : ∀ compile ∈ manager.finished, compile.resources ≠ [] ∧ compile.resources.Nodup ∧
    compile.job.number < manager.nextJob.number ∧ manager.jobs.get? compile.job = none
  single : (manager.finished.map FinishedCompile.job).Nodup
  numbered : ∀ waiter ∈ manager.waiters, waiter.1.number < manager.nextJob.number

theorem regular_empty : Regular {} where
  indexed _ _ := ⟨fun found => (nomatch found), fun ⟨_, found, _⟩ => (nomatch found)⟩
  underway _ _ found := nomatch found
  ended _ member := nomatch member
  single := List.nodup_nil
  numbered _ member := nomatch member

namespace Regular

/-- Compiles are as they were, and so are those who wait, or fewer. -/
theorem congr (regular : manager.Regular) (jobs : later.jobs = manager.jobs)
    (byIdentity : later.byIdentity = manager.byIdentity) (nextJob : later.nextJob = manager.nextJob)
    (finished : later.finished = manager.finished)
    (waiters : ∀ waiter ∈ later.waiters, waiter.1.number < manager.nextJob.number) :
    later.Regular := by
  refine ⟨?_, ?_, ?_, ?_, ?_⟩
  · rw [byIdentity, jobs]
    exact regular.indexed
  · rw [jobs, nextJob]
    exact regular.underway
  · rw [finished, jobs, nextJob]
    exact regular.ended
  · rw [finished]
    exact regular.single
  · rw [nextJob]
    exact waiters

theorem addWaiter (regular : manager.Regular) (resource : ResourceId)
    (begun : job.number < manager.nextJob.number) : (manager.addWaiter job resource).Regular := by
  refine regular.congr rfl rfl rfl rfl fun waiter member => ?_
  rcases mem_addOnce.mp member with before | rfl
  · exact regular.numbered waiter before
  · exact begun

theorem removeWaiter (regular : manager.Regular) (job : JobId) (resource : ResourceId) :
    (manager.removeWaiter job resource).Regular :=
  regular.congr rfl rfl rfl rfl fun waiter member =>
    regular.numbered waiter (List.mem_filter.mp member).1

theorem older (regular : manager.Regular) {job : JobId} {entry : InFlight}
    (found : manager.jobs.get? job = some entry) : job ≠ manager.nextJob := fun same =>
  absurd (regular.underway job entry found).2.2 (same ▸ Nat.lt_irrefl _)

theorem start (regular : manager.Regular) (request : CompileRequest)
    (absent : manager.inFlight? request.identity = none) : (manager.start request).2.Regular := by
  have jobs (other : JobId) := Table.get?_insert manager.jobs manager.nextJob other request.entry
  refine ⟨fun identity job => ?_, fun job entry found => ?_, fun compile member => ?_,
    regular.single, fun waiter member => Nat.lt_succ_of_lt (regular.numbered waiter member)⟩
  · show (Table.insert manager.byIdentity request.identity manager.nextJob).get? identity = _ ↔
      ∃ entry, (manager.jobs.insert manager.nextJob request.entry).get? job = some entry ∧ _
    rw [Table.get?_insert, jobs]
    by_cases same : identity = request.identity
    · rw [if_pos same]
      constructor
      · intro found
        cases found
        exact ⟨_, if_pos rfl, same.symm⟩
      · rintro ⟨entry, found, belongs⟩
        split at found
        · rename_i new
          exact congrArg some new.symm
        · have tracked := (regular.indexed identity job).mpr ⟨entry, found, belongs⟩
          rw [same] at tracked
          cases absent.symm.trans tracked
    · rw [if_neg same, regular.indexed]
      refine exists_congr fun entry => and_congr_left fun belongs => ?_
      by_cases new : job = manager.nextJob
      · rw [if_pos new]
        constructor
        · exact fun found => absurd new (regular.older found)
        · intro found
          cases found
          exact absurd belongs.symm same
      · rw [if_neg new]
  · have found := (jobs job).symm.trans found
    split at found
    · rename_i new
      cases found
      exact ⟨List.cons_ne_nil _ _, List.nodup_singleton _, new ▸ Nat.lt_succ_self _⟩
    · obtain ⟨some, nodup, older⟩ := regular.underway job entry found
      exact ⟨some, nodup, Nat.lt_succ_of_lt older⟩
  · obtain ⟨some, nodup, older, gone⟩ := regular.ended compile member
    have different : compile.job ≠ manager.nextJob := fun same =>
      absurd older (same ▸ Nat.lt_irrefl _)
    exact ⟨some, nodup, Nat.lt_succ_of_lt older, (jobs compile.job).trans
      ((if_neg different).trans gone)⟩

/-- The entry of a compile in flight is written anew. -/
theorem revise {revised : InFlight} (regular : manager.Regular)
    (found : manager.jobs.get? job = some entry) (same : revised.identity = entry.identity)
    (some : revised.resources ≠ []) (nodup : revised.resources.Nodup) :
    Regular { manager with jobs := manager.jobs.insert job revised } := by
  have jobs (other : JobId) := Table.get?_insert manager.jobs job other revised
  refine ⟨fun identity other => ?_, fun other old there => ?_, fun compile member => ?_,
    regular.single, regular.numbered⟩
  · refine (regular.indexed identity other).trans ?_
    show _ ↔ ∃ entry, (manager.jobs.insert job revised).get? other = .some entry ∧ _
    rw [jobs]
    by_cases here : other = job
    · rw [if_pos here, here, found]
      constructor
      · rintro ⟨old, there, belongs⟩
        cases there
        exact ⟨revised, rfl, same.trans belongs⟩
      · rintro ⟨new, there, belongs⟩
        cases there
        exact ⟨entry, rfl, same.symm.trans belongs⟩
    · rw [if_neg here]
  · have there := (jobs other).symm.trans there
    split at there
    · rename_i here
      cases there
      exact ⟨some, nodup, here ▸ (regular.underway job entry found).2.2⟩
    · exact regular.underway other old there
  · obtain ⟨some, nodup, older, gone⟩ := regular.ended compile member
    have different : compile.job ≠ job := fun here => by
      rw [here, found] at gone
      cases gone
    exact ⟨some, nodup, older, (jobs compile.job).trans ((if_neg different).trans gone)⟩

theorem remove {removed : InFlight} (regular : manager.Regular)
    (found : manager.jobs.get? job = some entry) (same : removed.identity = entry.identity) :
    (manager.remove job removed).Regular := by
  have jobs (other : JobId) := Table.get?_erase manager.jobs job other
  refine ⟨fun identity other => ?_, fun other old there => ?_, fun compile member => ?_,
    regular.single, regular.numbered⟩
  · show (manager.byIdentity.erase removed.identity).get? identity = _ ↔
      ∃ entry, (manager.jobs.erase job).get? other = some entry ∧ _
    rw [Table.get?_erase, jobs]
    have own := (regular.indexed entry.identity job).mpr ⟨entry, found, rfl⟩
    constructor
    · intro tracked
      split at tracked
      · cases tracked
      · rename_i different
        obtain ⟨old, there, belongs⟩ := (regular.indexed identity other).mp tracked
        refine ⟨old, (if_neg fun here => ?_).trans there, belongs⟩
        rw [here, found] at there
        cases there
        exact different (belongs.symm.trans same.symm)
    · rintro ⟨old, there, belongs⟩
      split at there
      · cases there
      · rename_i elsewhere
        have tracked := (regular.indexed identity other).mpr ⟨old, there, belongs⟩
        refine (if_neg fun here => elsewhere ?_).trans tracked
        rw [here, same, own] at tracked
        exact (Option.some.inj tracked).symm
  · have there := (jobs other).symm.trans there
    split at there
    · cases there
    · exact regular.underway other old there
  · obtain ⟨some, nodup, older, gone⟩ := regular.ended compile member
    exact ⟨some, nodup, older, (jobs compile.job).trans (by rw [gone, ite_self])⟩

/-- A compile is taken out of flight, and its result is left to some who have waited for it. -/
theorem file {removed : InFlight} {resources : List ResourceId} (regular : manager.Regular)
    (found : manager.jobs.get? job = some entry) (same : removed.identity = entry.identity)
    (some : resources ≠ []) (nodup : resources.Nodup)
    (result : Except CompileFailure SharedMap) :
    Regular { manager.remove job removed with
      finished := manager.finished ++ [⟨job, removed.identity, result, resources⟩] } := by
  have left := regular.remove found same
  refine ⟨left.indexed, left.underway, fun compile member => ?_, ?_, left.numbered⟩
  · rcases List.mem_append.mp member with before | new
    · exact left.ended compile before
    · rw [List.mem_singleton.mp new]
      exact ⟨some, nodup, (regular.underway job entry found).2.2,
        (Table.get?_erase ..).trans (if_pos rfl)⟩
  · rw [List.map_append, List.map_singleton]
    refine List.Nodup.append regular.single (List.nodup_singleton _) ?_
    refine List.disjoint_singleton.mpr fun member => ?_
    obtain ⟨compile, before, here⟩ := List.mem_map.mp member
    exact nomatch (here ▸ (regular.ended compile before).2.2.2).symm.trans found

theorem join (regular : manager.Regular) (job : JobId) (resource : ResourceId) :
    (manager.join job resource).Regular := by
  unfold Manager.join Table.modify
  split
  · rename_i entry found
    obtain ⟨some, nodup, _⟩ := regular.underway job entry found
    refine regular.revise found rfl (fun none => ?_) (nodup_addOnce nodup resource)
    obtain ⟨first, member⟩ := List.exists_mem_of_ne_nil _ some
    have still : first ∈ addOnce entry.resources resource := mem_addOnce.mpr (.inl member)
    rw [show addOnce entry.resources resource = [] from none] at still
    cases still
  · exact regular

theorem leave (regular : manager.Regular) (resource : ResourceId) (job : JobId) :
    (Manager.leave resource manager job).Regular := by
  unfold Manager.leave
  split
  · exact regular
  · rename_i entry found
    dsimp only
    split
    · exact regular.remove found rfl
    · rename_i some
      exact regular.revise found rfl some ((regular.underway job entry found).2.1.filter _)

theorem limited (regular : manager.Regular) (left : FinishedCompile → List ResourceId)
    (fewer : ∀ compile ∈ manager.finished, (left compile).Sublist compile.resources) :
    (manager.limited left).Regular := by
  refine ⟨regular.indexed, regular.underway, fun part member => ?_, ?_, regular.numbered⟩
  · obtain ⟨compile, before, some, rfl⟩ := mem_limited.mp member
    obtain ⟨_, nodup, rest⟩ := regular.ended compile before
    exact ⟨some, nodup.sublist (fewer compile before), rest⟩
  · refine regular.single.sublist ?_
    unfold Manager.limited
    dsimp only
    induction manager.finished with
    | nil => exact .slnil
    | cons compile rest inductionHypothesis =>
      rw [List.filterMap_cons, List.map_cons]
      unfold FinishedCompile.limit
      split
      · exact inductionHypothesis.cons _
      · rename_i part kept
        rw [(FinishedCompile.limit_eq_some.mp kept).2]
        exact inductionHypothesis.cons_cons _

/-! ### The operations on finished compiles -/

end Regular

/-- What a resource that withdraws from jobs leaves of a finished compile. -/
def withdrawn (resource : ResourceId) (jobs : List JobId) (compile : FinishedCompile) :
    List ResourceId :=
  if compile.job ∈ jobs then compile.resources.filter (· ≠ resource) else compile.resources

theorem withdrawn_sublist (resource : ResourceId) (jobs : List JobId) (compile : FinishedCompile) :
    (withdrawn resource jobs compile).Sublist compile.resources := by
  unfold withdrawn
  split
  · exact List.filter_sublist
  · exact List.Sublist.refl _

theorem cancel_eq (manager : Manager) (resource : ResourceId) (jobs : List JobId) :
    manager.cancel resource jobs =
      (jobs.foldl (leave resource) manager).limited (withdrawn resource jobs) := by
  unfold cancel limited
  refine congrArg (fun finished => { jobs.foldl (leave resource) manager with finished }) ?_
  induction (jobs.foldl (leave resource) manager).finished with
  | nil => rfl
  | cons compile rest inductionHypothesis =>
    rw [List.map_cons, List.filter_cons, List.filterMap_cons, inductionHypothesis]
    unfold FinishedCompile.limit withdrawn
    by_cases cancelled : compile.job ∈ jobs
    · rw [if_pos cancelled, if_pos cancelled]
      by_cases none : compile.resources.filter (· ≠ resource) = []
      · rw [if_pos none, if_neg fun some => absurd none (of_decide_eq_true some)]
      · rw [if_neg none, if_pos (decide_eq_true none)]
    · rw [if_neg cancelled, if_neg cancelled]
      by_cases none : compile.resources = []
      · rw [if_pos none, if_neg fun some => absurd none (of_decide_eq_true some)]
      · rw [if_neg none, if_pos (decide_eq_true none)]

theorem deliver_eq (manager : Manager) :
    manager.deliver =
      (manager.finished.filterMap fun compile =>
          compile.limit (compile.resources.filter fun resource =>
            (compile.job, resource) ∉ manager.waiters),
        manager.limited fun compile => compile.resources.filter fun resource =>
          (compile.job, resource) ∈ manager.waiters) := by
  unfold deliver limited
  dsimp only
  rw [List.filterMap_map, List.filterMap_map]
  rfl

/-- Where all other finished compiles keep their resources. -/
theorem limited_eq_of_split {left : FinishedCompile → List ResourceId}
    {before after : List FinishedCompile} {compile : FinishedCompile}
    (split : manager.finished = before ++ compile :: after)
    (others : ∀ other ∈ before ++ after, other.limit (left other) = some other) :
    manager.limited left =
      { manager with finished := before ++ ((compile.limit (left compile)).toList ++ after) } := by
  have kept (part : List FinishedCompile) (fewer : part ⊆ before ++ after) :
      (part.filterMap fun other => other.limit (left other)) = part := by
    rw [List.filterMap_congr fun other there => others other (fewer there), List.filterMap_some]
  refine congrArg (fun finished => { manager with finished }) ?_
  rw [split, List.filterMap_append, kept before (List.subset_append_left _ _),
    List.filterMap_cons]
  cases compile.limit (left compile) with
  | none => rw [kept after (List.subset_append_right _ _)]; rfl
  | some part => rw [kept after (List.subset_append_right _ _)]; rfl

/-- A job has one result at most: what stands before and after it is of other jobs. -/
theorem Regular.split_at (regular : manager.Regular) {position : Nat}
    (inside : position < manager.finished.length) :
    manager.finished = manager.finished.take position ++
        manager.finished[position] :: manager.finished.drop (position + 1) ∧
      ∀ compile ∈ manager.finished.take position ++ manager.finished.drop (position + 1),
        compile ∈ manager.finished ∧ compile.job ≠ manager.finished[position].job := by
  have split : manager.finished = manager.finished.take position ++
      manager.finished[position] :: manager.finished.drop (position + 1) := by
    rw [List.getElem_cons_drop, List.take_append_drop]
  have single := regular.single
  rw [split, List.map_append, List.map_cons, List.nodup_middle, List.nodup_cons,
    ← List.map_append] at single
  refine ⟨split, fun compile other => ⟨?_, fun same =>
    single.1 (same ▸ List.mem_map_of_mem other)⟩⟩
  rw [split]
  exact (List.mem_append.mp other).elim (List.mem_append_left _)
    fun last => List.mem_append_right _ (List.mem_cons_of_mem _ last)

/-- To withdraw a resource from one job takes it from the result of that job, in its place. -/
theorem Regular.limited_at (regular : manager.Regular) {position : Nat}
    (inside : position < manager.finished.length) (resource : ResourceId) :
    manager.limited (withdrawn resource [manager.finished[position].job]) =
      { manager with finished := manager.finished.take position ++
          ((manager.finished[position].limit
              (manager.finished[position].resources.erase resource)).toList ++
            manager.finished.drop (position + 1)) } := by
  obtain ⟨split, elsewhere⟩ := regular.split_at inside
  have others (compile : FinishedCompile)
      (other : compile ∈ manager.finished.take position ++ manager.finished.drop (position + 1)) :
      compile.limit (withdrawn resource [manager.finished[position].job] compile) =
        some compile := by
    obtain ⟨there, different⟩ := elsewhere compile other
    unfold withdrawn
    rw [if_neg (List.mem_singleton.not.mpr different)]
    exact FinishedCompile.limit_self (regular.ended compile there).1
  have erased : withdrawn resource [manager.finished[position].job] manager.finished[position] =
      manager.finished[position].resources.erase resource := by
    unfold withdrawn
    rw [if_pos (List.mem_singleton_self _),
      (regular.ended _ (List.getElem_mem inside)).2.1.erase_eq_filter]
    exact List.filter_congr fun _ _ => decide_not
  rw [limited_eq_of_split split others, erased]

/-- Whoever takes a result takes the one of the finished compile of that job, and from then on is
not among those who wait for it. -/
theorem Regular.take_cases (regular : manager.Regular) (job : JobId) (resource : ResourceId) :
    (∃ compile ∈ manager.finished, compile.job = job ∧ resource ∈ compile.resources ∧
        manager.take job resource =
          (some compile.result, manager.limited (withdrawn resource [job]))) ∨
      (∀ compile ∈ manager.finished, compile.job = job → resource ∉ compile.resources) ∧
        manager.take job resource = (none, manager) := by
  unfold take
  cases first : manager.finished.findIdx? fun compile => compile.job = job with
  | none =>
    have unlike := List.findIdx?_eq_none_iff.mp first
    exact .inr ⟨fun compile member same => absurd same (of_decide_eq_false (unlike compile member)),
      rfl⟩
  | some position =>
    obtain ⟨inside, chosen, _⟩ := List.findIdx?_eq_some_iff_getElem.mp first
    have ofJob : manager.finished[position].job = job := of_decide_eq_true chosen
    dsimp only
    rw [List.getElem?_eq_getElem inside]
    dsimp only
    split
    · rename_i there
      refine .inl ⟨manager.finished[position], List.getElem_mem inside, ofJob, there, ?_⟩
      rw [← ofJob, regular.limited_at inside]
      unfold FinishedCompile.limit
      split
      · rename_i none
        rw [List.eraseIdx_eq_take_drop_succ]
        rfl
      · rename_i some
        rw [List.set_eq_take_append_cons_drop, if_pos inside]
        rfl
    · rename_i missing
      refine .inr ⟨fun compile there same => ?_, rfl⟩
      obtain ⟨split, elsewhere⟩ := regular.split_at inside
      rw [split] at there
      rcases List.mem_append.mp there with before | last
      · exact absurd (same.trans ofJob.symm) (elsewhere compile (List.mem_append_left _ before)).2
      · rcases List.mem_cons.mp last with rfl | after
        · exact missing
        · exact absurd (same.trans ofJob.symm) (elsewhere compile (List.mem_append_right _ after)).2

/-- What an aborted compile leaves: its failure, for those who have joined it besides the
requester. -/
def aborted (job : JobId) (requester : ResourceId) (error : LoweringError) (entry : InFlight) :
    Option FinishedCompile :=
  FinishedCompile.limit ⟨job, entry.identity, .error (.lowering error), entry.resources⟩
    (entry.resources.filter (· ≠ requester))

theorem abort_eq_none (requester : ResourceId) (error : LoweringError)
    (absent : manager.jobs.get? job = none) :
    manager.abort job requester error = manager.removeWaiter job requester := by
  unfold abort removeWaiter
  dsimp only
  rw [absent]

theorem abort_eq_some (requester : ResourceId) (error : LoweringError)
    (found : manager.jobs.get? job = some entry) :
    manager.abort job requester error = { (manager.removeWaiter job requester).remove job entry with
      finished := manager.finished ++ (aborted job requester error entry).toList } := by
  unfold abort removeWaiter aborted FinishedCompile.limit
  dsimp only
  rw [found]
  dsimp only
  split
  · rw [Option.toList_none, List.append_nil]
    rfl
  · rfl

/-! ### Operations after which nobody new waits -/

namespace Regular

theorem cancel (regular : manager.Regular) (resource : ResourceId) (jobs : List JobId) :
    (manager.cancel resource jobs).Regular := by
  rw [cancel_eq]
  refine Regular.limited ?_ _ fun compile _ => withdrawn_sublist resource jobs compile
  induction jobs generalizing manager with
  | nil => exact regular
  | cons job rest inductionHypothesis => exact inductionHypothesis (regular.leave resource job)

theorem deliver (regular : manager.Regular) : manager.deliver.2.Regular := by
  rw [deliver_eq]
  exact regular.limited _ fun _ _ => List.filter_sublist

theorem take (regular : manager.Regular) (job : JobId) (resource : ResourceId) :
    (manager.take job resource).2.Regular := by
  rcases regular.take_cases job resource with ⟨_, _, _, _, same⟩ | ⟨_, same⟩
  · rw [same]
    exact regular.limited _ fun compile _ => withdrawn_sublist resource [job] compile
  · rw [same]
    exact regular

theorem shutdown (manager : Manager) : manager.shutdown.Regular where
  indexed _ _ := ⟨fun found => (nomatch found), fun ⟨_, found, _⟩ => (nomatch found)⟩
  underway _ _ found := nomatch found
  ended _ member := nomatch member
  single := List.nodup_nil
  numbered _ member := nomatch member

/-- A compile that cannot be lowered is left to those who have joined it meanwhile. -/
theorem abort (regular : manager.Regular) (job : JobId) (requester : ResourceId)
    (error : LoweringError) : (manager.abort job requester error).Regular := by
  have rested := regular.removeWaiter job requester
  cases found : manager.jobs.get? job with
  | none => exact abort_eq_none requester error found ▸ rested
  | some entry =>
    rw [abort_eq_some requester error found]
    cases left : aborted job requester error entry with
    | none =>
      rw [Option.toList_none, List.append_nil]
      exact rested.remove found rfl
    | some heirs =>
      obtain ⟨some, rfl⟩ := FinishedCompile.limit_eq_some.mp left
      exact rested.file found rfl some ((rested.underway job entry found).2.1.filter _) _

end Regular

/-! ### Those who wait, and the inbox -/

theorem mail_cancel (manager : Manager) (resource : ResourceId) (jobs : List JobId) :
    (manager.cancel resource jobs).waiters = manager.waiters ∧
      (manager.cancel resource jobs).inbox = manager.inbox := by
  unfold cancel
  dsimp only
  induction jobs generalizing manager with
  | nil => exact ⟨rfl, rfl⟩
  | cons job rest inductionHypothesis =>
    obtain ⟨waiters, inbox⟩ := inductionHypothesis (leave resource manager job)
    have left : (leave resource manager job).waiters = manager.waiters ∧
        (leave resource manager job).inbox = manager.inbox := by
      unfold leave
      split
      · exact ⟨rfl, rfl⟩
      · dsimp only
        split <;> exact ⟨rfl, rfl⟩
    exact ⟨waiters.trans left.1, inbox.trans left.2⟩

theorem mail_take (manager : Manager) (job : JobId) (resource : ResourceId) :
    (manager.take job resource).2.waiters = manager.waiters ∧
      (manager.take job resource).2.inbox = manager.inbox := by
  unfold take
  split
  · exact ⟨rfl, rfl⟩
  · split
    · exact ⟨rfl, rfl⟩
    · split <;> exact ⟨rfl, rfl⟩

/-- Compiles have lost resources or have gone, and nothing else has become of them; no compile has
been begun. -/
structure Recedes (manager later : Manager) : Prop where
  jobs : ∀ job entry, later.jobs.get? job = some entry → ∃ resources,
    manager.jobs.get? job = some { entry with resources }
  finished : ∀ part ∈ later.finished, ∃ whole ∈ manager.finished, part.job = whole.job ∧
    part.result = whole.result
  nextJob : later.nextJob = manager.nextJob

namespace Recedes

theorem congr (jobs : later.jobs = manager.jobs) (finished : later.finished = manager.finished)
    (nextJob : later.nextJob = manager.nextJob) : Recedes manager later :=
  ⟨fun _ entry found => ⟨entry.resources, jobs ▸ found⟩,
    fun part member => ⟨part, finished ▸ member, rfl, rfl⟩, nextJob⟩

theorem refl (manager : Manager) : Recedes manager manager := .congr rfl rfl rfl

theorem trans {last : Manager} (first : Recedes manager later) (second : Recedes later last) :
    Recedes manager last := by
  refine ⟨fun job entry found => ?_, fun part member => ?_, second.nextJob.trans first.nextJob⟩
  · obtain ⟨some, there⟩ := second.jobs job entry found
    exact first.jobs job { entry with resources := some } there
  · obtain ⟨middle, there, sameJob, sameResult⟩ := second.finished part member
    obtain ⟨whole, before, job, result⟩ := first.finished middle there
    exact ⟨whole, before, sameJob.trans job, sameResult.trans result⟩

theorem limited (manager : Manager) (left : FinishedCompile → List ResourceId) :
    Recedes manager (manager.limited left) := by
  refine ⟨fun _ entry found => ⟨entry.resources, found⟩, fun part member => ?_, rfl⟩
  obtain ⟨compile, before, _, rfl⟩ := mem_limited.mp member
  exact ⟨compile, before, rfl, rfl⟩

theorem remove (manager : Manager) (job : JobId) (entry : InFlight) :
    Recedes manager (manager.remove job entry) := by
  refine ⟨fun other found there => ?_, fun part member => ⟨part, member, rfl, rfl⟩, rfl⟩
  have there := (Table.get?_erase manager.jobs job other).symm.trans there
  split at there
  · cases there
  · exact ⟨found.resources, there⟩

theorem revise {resources : List ResourceId} (found : manager.jobs.get? job = some entry) :
    Recedes manager
      { manager with jobs := manager.jobs.insert job { entry with resources } } := by
  refine ⟨fun other revised there => ?_, fun part member => ⟨part, member, rfl, rfl⟩, rfl⟩
  have there := (Table.get?_insert manager.jobs job other _).symm.trans there
  split at there
  · rename_i here
    cases there
    exact ⟨entry.resources, here ▸ found⟩
  · exact ⟨revised.resources, there⟩

theorem join (manager : Manager) (job : JobId) (resource : ResourceId) :
    Recedes manager (manager.join job resource) := by
  unfold Manager.join Table.modify
  split
  · rename_i entry found
    exact .revise found
  · exact .refl manager

theorem leave (manager : Manager) (resource : ResourceId) (job : JobId) :
    Recedes manager (Manager.leave resource manager job) := by
  unfold Manager.leave
  split
  · exact .refl manager
  · rename_i entry found
    dsimp only
    split
    · exact .remove manager job entry
    · exact .revise found

theorem cancel (manager : Manager) (resource : ResourceId) (jobs : List JobId) :
    Recedes manager (manager.cancel resource jobs) := by
  have left : Recedes manager (jobs.foldl (Manager.leave resource) manager) := by
    induction jobs generalizing manager with
    | nil => exact .refl manager
    | cons job rest inductionHypothesis =>
      exact (leave manager resource job).trans (inductionHypothesis _)
  rw [cancel_eq]
  exact left.trans (.limited _ _)

theorem deliver (manager : Manager) : Recedes manager manager.deliver.2 := by
  rw [deliver_eq]
  exact .limited manager _

theorem take (regular : manager.Regular) (job : JobId) (resource : ResourceId) :
    Recedes manager (manager.take job resource).2 := by
  rcases regular.take_cases job resource with ⟨_, _, _, _, same⟩ | ⟨_, same⟩
  · rw [same]
    exact .limited manager _
  · rw [same]
    exact .refl manager

theorem shutdown (manager : Manager) : Recedes manager manager.shutdown :=
  ⟨fun _ _ found => (nomatch found), fun _ member => (nomatch member), rfl⟩

end Recedes

end Manager

end Shading
