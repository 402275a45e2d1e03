/-
Every result is delivered once. Whoever takes part in a job has either received
its result, once, or still waits for it, and whoever waits can have it as soon
as the compiler has answered. Withdrawing takes nothing from anybody else, and
results that come too late for their job change nothing.
-/

import Shading.Proofs.Compile.Receipts

namespace Shading

namespace Notice

variable {job : JobId} {resource : ResourceId} {past after before : List Notice}
  {result different : Except CompileFailure SharedMap}

/-- What a resource has received for a job. -/
def receipts (job : JobId) (resource : ResourceId) (past : List Notice) :
    List (Except CompileFailure SharedMap) :=
  past.filterMap fun
    | received other its result => if other = job ∧ its = resource then some result else none
    | _ => none

theorem mem_receipts : result ∈ receipts job resource past ↔
    received job resource result ∈ past := by
  unfold receipts
  rw [List.mem_filterMap]
  constructor
  · rintro ⟨notice, member, same⟩
    split at same
    · split at same
      · rename_i here
        cases same
        exact here.1 ▸ here.2 ▸ member
      · cases same
    · cases same
  · exact fun member => ⟨_, member, if_pos ⟨rfl, rfl⟩⟩

theorem receipts_eq_nil : receipts job resource past = [] ↔ Unreceived job resource past :=
  List.eq_nil_iff_forall_not_mem.trans (forall_congr' fun _ => not_congr mem_receipts)

theorem Proper.receipts_length (proper : Proper past) :
    (receipts job resource past).length ≤ 1 := by
  induction past with
  | nil => exact Nat.zero_le 1
  | cons first rest inductionHypothesis =>
    unfold receipts
    rw [List.filterMap_cons]
    cases first with
    | received other its result =>
      dsimp only
      split
      · exact inductionHypothesis proper.2
      · rename_i same
        split at same
        · rename_i here
          obtain ⟨rfl, rfl⟩ := here
          have none := receipts_eq_nil.mpr proper.1.2.1
          unfold receipts at none
          rw [none]
          exact Nat.le_refl 1
        · cases same
    | joined | cancelled | closed | expected | reported => exact inductionHypothesis proper

theorem Proper.alike {other : ResourceId} (proper : Proper past)
    (here : received job resource result ∈ past) (there : received job other different ∈ past) :
    result = different := by
  induction past with
  | nil => cases here
  | cons first rest inductionHypothesis =>
    rcases List.mem_cons.mp here with rfl | hereBefore
    · rcases List.mem_cons.mp there with same | thereBefore
      · exact (received.inj same).2.2.symm
      · exact (proper.1.2.2.2 other different thereBefore).symm
    · rcases List.mem_cons.mp there with rfl | thereBefore
      · exact proper.1.2.2.2 resource result hereBefore
      · refine inductionHypothesis ?_ hereBefore thereBefore
        cases first with
        | received => exact proper.2
        | joined | cancelled | closed | expected | reported => exact proper

/-- Whoever has withdrawn takes part again only by joining again. -/
theorem not_takesPart_of_cancelled (apart : joined job resource ∉ after) :
    ¬TakesPart job resource (after ++ cancelled job resource :: before) := by
  induction after with
  | nil => exact fun part => part.1 ⟨rfl, rfl⟩
  | cons first rest inductionHypothesis =>
    have still := inductionHypothesis fun member => apart (List.mem_cons_of_mem _ member)
    cases first with
    | joined other its =>
      rintro (⟨rfl, rfl⟩ | part)
      · exact apart (List.mem_cons_self ..)
      · exact still part
    | cancelled => exact fun part => still part.2
    | closed => exact id
    | expected | reported | received => exact still

theorem Proper.nothing_of_cancelled
    (proper : Proper (after ++ cancelled job resource :: before))
    (apart : joined job resource ∉ after) : receipts job resource after = [] := by
  refine receipts_eq_nil.mpr fun result member => ?_
  obtain ⟨later, earlier, rfl⟩ := List.append_of_mem member
  rw [List.append_assoc] at proper
  refine not_takesPart_of_cancelled (fun joins => apart ?_) (proper.at rfl).1
  exact List.mem_append_right _ (List.mem_cons_of_mem _ joins)

end Notice

namespace Manager

variable {manager later : Manager} {job : JobId} {resource : ResourceId}

/-- What a resource can look forward to in a job: how far the compile is, whoever else waits for
it, or the result that is there. -/
def prospect (manager : Manager) (job : JobId) (resource : ResourceId) :
    Option (InFlight ⊕ Except CompileFailure SharedMap) :=
  match manager.jobs.get? job with
  | some entry =>
    if resource ∈ entry.resources then some (.inl { entry with resources := [] }) else none
  | none =>
    (manager.finished.find? fun compile => compile.job = job ∧ resource ∈ compile.resources).map
      fun compile => .inr compile.result

theorem prospect_of_found {entry : InFlight} (found : manager.jobs.get? job = some entry)
    (waits : resource ∈ entry.resources) :
    manager.prospect job resource = some (.inl { entry with resources := [] }) := by
  unfold prospect
  rw [found]
  exact if_pos waits

theorem prospect_of_finished {compile : FinishedCompile} (regular : manager.Regular)
    (member : compile ∈ manager.finished) (waits : resource ∈ compile.resources) :
    manager.prospect compile.job resource = some (.inr compile.result) := by
  have there : (manager.finished.find? fun other =>
      other.job = compile.job ∧ resource ∈ other.resources).isSome :=
    List.find?_isSome.mpr ⟨compile, member, decide_eq_true ⟨rfl, waits⟩⟩
  obtain ⟨other, first⟩ := Option.isSome_iff_exists.mp there
  have chosen : other.job = compile.job ∧ resource ∈ other.resources := by
    simpa using List.find?_some first
  have same := List.inj_on_of_nodup_map regular.single (List.mem_of_find?_eq_some first) member
    chosen.1
  unfold prospect
  rw [(regular.ended compile member).2.2.2]
  dsimp only
  rw [first, same]
  rfl

theorem prospect_eq_none (apart : ¬manager.Waits job resource) :
    manager.prospect job resource = none := by
  unfold prospect
  split
  · rename_i entry found
    exact if_neg fun waits => apart (.inl ⟨entry, found, waits⟩)
  · rw [Option.map_eq_none_iff, List.find?_eq_none]
    intro compile member here
    obtain ⟨same, waits⟩ := of_decide_eq_true here
    exact apart (.inr ⟨compile, member, same, waits⟩)

/-- Withdrawing takes their prospects from the withdrawn, and from nobody else. -/
theorem prospect_cancel (regular : manager.Regular) (leaving : ResourceId) (jobs : List JobId) :
    (manager.cancel leaving jobs).prospect job resource =
      if job ∈ jobs ∧ resource = leaving then none else manager.prospect job resource := by
  have recedes := Recedes.cancel manager leaving jobs
  have waits : (manager.cancel leaving jobs).Waits job resource ↔ _ := waits_cancel leaving jobs
  split
  · rename_i withdrawn
    exact prospect_eq_none fun still => (waits.mp still).2 withdrawn
  · rename_i apart
    by_cases still : (manager.cancel leaving jobs).Waits job resource
    · rcases still with ⟨entry, found, member⟩ | ⟨part, member, rfl, there⟩
      · obtain ⟨resources, before⟩ := recedes.jobs job entry found
        have waited := (waits_of_found regular before resource).mp
          (waits.mp (.inl ⟨entry, found, member⟩)).1
        rw [prospect_of_found found member, prospect_of_found before waited]
      · obtain ⟨whole, before, same, result⟩ := recedes.finished part member
        have waited := (waits.mp (.inr ⟨part, member, rfl, there⟩)).1
        rw [prospect_of_finished (regular.cancel leaving jobs) member there, result, same]
        rcases waited with ⟨entry, found, _⟩ | ⟨compile, also, here, waited⟩
        · exact nomatch (same ▸ (regular.ended whole before).2.2.2).symm.trans found
        · have whole := List.inj_on_of_nodup_map regular.single also before (here.trans same)
          subst whole
          exact (prospect_of_finished regular before waited).symm
    · rw [prospect_eq_none still, prospect_eq_none fun before => still (waits.mpr ⟨before, apart⟩)]

end Manager

namespace Workshop

variable {held : List MapId} {workshop : Workshop} {job : JobId}

/-- No result puts a compile in flight. -/
theorem receive_absent (workshop : Workshop) (held : List MapId) (result : PermutationResult)
    (absent : workshop.manager.jobs.get? job = none) :
    (receive held workshop result).manager.jobs.get? job = none := by
  rcases receive_cases workshop held result with same | ⟨entry, found, cases⟩
  · rw [same]
    exact absent
  · have different : job ≠ result.group := fun here => nomatch (here ▸ absent).symm.trans found
    have filed : (workshop.withEntry result.group (record entry result)).manager.jobs.get? job =
        none := (Table.get?_insert ..).trans ((if_neg different).trans absent)
    rcases cases with same | ⟨_, _, same⟩
    · rw [same]
      exact filed
    · rw [same, finalize_jobs, Table.get?_erase, if_neg different]
      exact filed

/-- The results of jobs that are no longer in flight might as well not have arrived. -/
theorem drain_late (workshop : Workshop) (held : List MapId) (arrived : List PermutationResult) :
    (workshop.withInbox arrived).drain held = (workshop.withInbox
      (arrived.filter fun result => workshop.manager.isCompiling result.group)).drain held := by
  have skip : ∀ (arrived : List PermutationResult) (after : Workshop),
      (∀ job, workshop.manager.jobs.get? job = none → after.manager.jobs.get? job = none) →
      arrived.foldl (receive held) after =
        (arrived.filter fun result => workshop.manager.isCompiling result.group).foldl
          (receive held) after := by
    intro arrived
    induction arrived with
    | nil => exact fun _ _ => rfl
    | cons result rest inductionHypothesis =>
      intro after gone
      have still := inductionHypothesis (receive held after result) fun job absent =>
        receive_absent after held result (gone job absent)
      rw [List.filter_cons, List.foldl_cons, still]
      split
      · rfl
      · rename_i late
        have absent : after.manager.jobs.get? result.group = none :=
          gone result.group (Option.not_isSome_iff_eq_none.mp late)
        have discarded : receive held after result = after := by
          unfold receive
          rw [absent]
        rw [discarded]
  exact skip arrived (workshop.withInbox []) fun _ => id

theorem finalize_compiler (workshop : Workshop) (held : List MapId) (job : JobId)
    (entry : InFlight) : (workshop.finalize held job entry).compiler = workshop.compiler := by
  rcases finalize_cases workshop held job entry with ⟨failure, ended⟩ |
    ⟨profile, made, next, _, ran, ended⟩
  · rw [ended]
    rfl
  · rw [ended]
    cases ran
    rfl

theorem receive_compiler (held : List MapId) (workshop : Workshop) (result : PermutationResult) :
    (receive held workshop result).compiler = workshop.compiler := by
  rcases receive_cases workshop held result with same | ⟨entry, _, same | ⟨_, _, same⟩⟩
  · rw [same]
  · rw [same]
    rfl
  · rw [same, finalize_compiler]
    rfl

/-- Nothing is left in the inbox, and the compiler knows nothing of it. -/
theorem drained (workshop : Workshop) (held : List MapId) :
    (workshop.drain held).manager.inbox = [] ∧
      (workshop.drain held).compiler = workshop.compiler := by
  refine ⟨?_, ?_⟩
  · have empty := Carries.results_withInbox held workshop workshop.manager.inbox
    exact (congrArg (fun after => after.manager.inbox) empty).symm
  · have kept : ∀ (arrived : List PermutationResult) (after : Workshop),
        (arrived.foldl (receive held) after).compiler = after.compiler := by
      intro arrived
      induction arrived with
      | nil => exact fun _ => rfl
      | cons result rest inductionHypothesis =>
        exact fun after => (inductionHypothesis _).trans (receive_compiler held after result)
    exact kept workshop.manager.inbox (workshop.withInbox [])

end Workshop

namespace Traffic

open Notice

variable {past : List Notice} {workshop : Workshop} {lowering : List (JobId × CompileRequest)}
  {due : List PermutationJob} {awaiting : List (JobId × ResourceId)} {job : JobId}
  {resource : ResourceId}

/-- A job that has been lowered and has nothing on its way is not in flight. -/
theorem Ordered.landed {traffic : Traffic} (ordered : traffic.Ordered)
    (lowered : job ∉ traffic.lowerings)
    (quiet : ∀ permutation, ¬traffic.Outstanding job permutation)
    (waits : traffic.workshop.manager.Waits job resource) :
    traffic.workshop.manager.Landed job resource := by
  refine waits.resolve_left fun ⟨entry, found, _⟩ => ?_
  have underway := ordered.underway job entry found
  cases still : entry.lowering with
  | true => exact lowered (underway.lowering still)
  | false =>
    obtain ⟨_, some, _, asked⟩ := underway.lowered still
    obtain ⟨permutation, member⟩ := List.exists_mem_of_ne_nil _ some
    exact quiet permutation (asked permutation member)

/-- While results arrive, everybody goes on waiting. -/
theorem Accounts.reported {told : List Notice} {traffic later : Traffic}
    (accounts : Accounts past traffic) (reports : Workshop.Carries.Reports told)
    (moves : Moves traffic told later) (waits : traffic.workshop.manager.Waits job resource) :
    Accounts (told ++ past) later ∧ later.workshop.manager.Waits job resource := by
  have after := accounts.moves moves
  obtain ⟨part, unreceived⟩ := (accounts.parts job resource).mp waits
  refine ⟨after, (after.parts job resource).mpr
    ⟨(takesPart_append fun notice member past => ?_).mpr part,
    unreceived_append.mpr ⟨fun result member => ?_, unreceived⟩⟩⟩
  · obtain ⟨_, _, rfl⟩ := reports notice member
    exact Iff.rfl
  · obtain ⟨_, _, same⟩ := reports _ member
    cases same

/-- A job that waits for the compiler only has its result once the compiler has answered. -/
theorem Accounts.landed (accounts : Accounts past ⟨workshop, lowering, due, awaiting⟩)
    (held : List MapId) (lowered : job ∉ lowering.map Prod.fst)
    (submitted : ∀ asked ∈ due, asked.group ≠ job)
    (answered : ∀ asked ∈ workshop.compiler.waiting, asked.group ≠ job)
    (waits : workshop.manager.Waits job resource) :
    ∃ after, Accounts after ⟨workshop.drain held, lowering, due, awaiting⟩ ∧
      (workshop.drain held).manager.Landed job resource := by
  obtain ⟨told, reports, carries⟩ := Workshop.Carries.drain held workshop
  obtain ⟨inbox, compiler⟩ := workshop.drained held
  obtain ⟨after, still⟩ := accounts.reported reports (carries lowering due awaiting) waits
  refine ⟨_, after, after.ordered.landed lowered (fun permutation outstanding => ?_) still⟩
  rcases outstanding with ⟨asked, member, here, _⟩ | ⟨result, member, _⟩
  · rcases List.mem_append.mp member with yet | waiting
    · exact submitted asked yet here
    · exact answered asked (compiler ▸ waiting) here
  · dsimp only at member
    rw [inbox] at member
    cases member

theorem mem_deliver {manager : Manager} (landed : manager.Landed job resource)
    (apart : (job, resource) ∉ manager.waiters) :
    ∃ compile ∈ manager.deliver.1, compile.job = job ∧ resource ∈ compile.resources := by
  obtain ⟨compile, member, rfl, waits⟩ := landed
  rw [Manager.deliver_eq]
  have there : resource ∈ compile.resources.filter fun resource =>
      (compile.job, resource) ∉ manager.waiters :=
    List.mem_filter.mpr ⟨waits, decide_eq_true apart⟩
  have part : compile.limit _ = some _ :=
    FinishedCompile.limit_eq_some.mpr ⟨List.ne_nil_of_mem there, rfl⟩
  exact ⟨_, List.mem_filterMap.mpr ⟨compile, member, part⟩, rfl, there⟩

/-- Whoever waits for the compiler only receives the result once the compiler has answered and the
results are handed over, unless a call of its own is going to take it. -/
theorem Accounts.delivered (accounts : Accounts past ⟨workshop, lowering, due, awaiting⟩)
    (held : List MapId) (lowered : job ∉ lowering.map Prod.fst)
    (submitted : ∀ asked ∈ due, asked.group ≠ job)
    (waits : workshop.manager.Waits job resource) (apart : (job, resource) ∉ awaiting) :
    ∃ compile ∈ (workshop.releaseAll.process held).1,
      compile.job = job ∧ resource ∈ compile.resources := by
  have released := accounts.moves (.next (.rest _) (.release none))
  obtain ⟨_, after, landed⟩ := released.landed held lowered submitted
    (fun _ member => nomatch member)
    waits
  have flushed := Workshop.Aside.flush (workshop.releaseAll.drain held)
  have open_ : (job, resource) ∉ (workshop.releaseAll.drain held).manager.waiters := by
    intro waiting
    rcases after.ordered.withheld _ waiting with calls | gone
    · exact apart calls
    · obtain ⟨compile, member, here, _⟩ := landed
      exact gone.2 compile member here
  have here : (workshop.releaseAll.drain held).flush.manager.Landed job resource := by
    unfold Manager.Landed
    rw [flushed.finished]
    exact landed
  exact mem_deliver here (flushed.waiters ▸ open_)

/-- Waiting for a job makes the compiler answer if that is needed. -/
theorem Accounts.finished (accounts : Accounts past ⟨workshop, lowering, due, awaiting⟩)
    (held : List MapId) (lowered : job ∉ lowering.map Prod.fst)
    (submitted : ∀ asked ∈ due, asked.group ≠ job)
    (waits : workshop.manager.Waits job resource) :
    ∃ after, Accounts after ⟨workshop.finish held [job], lowering, due, awaiting⟩ ∧
      (workshop.finish held [job]).manager.Landed job resource := by
  obtain ⟨told, reports, carries⟩ := Workshop.Carries.drain held workshop
  obtain ⟨drained, still⟩ := accounts.reported reports (carries lowering due awaiting) waits
  have flush {after : List Notice} {workshop : Workshop}
      (accounts : Accounts after ⟨workshop, lowering, due, awaiting⟩)
      (landed : workshop.manager.Landed job resource) :
      Accounts after ⟨workshop.flush, lowering, due, awaiting⟩ ∧
        workshop.flush.manager.Landed job resource := by
    have aside := Workshop.Aside.flush workshop
    refine ⟨accounts.still (accounts.ordered.aside aside) aside.jobs aside.finished
      aside.nextJob, ?_⟩
    unfold Manager.Landed
    rw [aside.finished]
    exact landed
  unfold Workshop.finish
  dsimp only
  split
  · have released := drained.moves (.next (.rest _) (.release none))
    obtain ⟨_, answered, landed⟩ := released.landed held lowered submitted
      (fun _ member => nomatch member) still
    exact ⟨_, flush answered landed⟩
  · rename_i ended
    refine ⟨_, flush drained (still.resolve_left fun ⟨entry, found, _⟩ => ended ?_)⟩
    refine List.any_eq_true.mpr ⟨job, List.mem_singleton_self _, ?_⟩
    exact Option.isSome_iff_exists.mpr ⟨entry, found⟩

/-- Whoever waits and asks for the result at once is given it. -/
theorem Accounts.awaited (accounts : Accounts past ⟨workshop, lowering, due, awaiting⟩)
    (held : List MapId) (lowered : job ∉ lowering.map Prod.fst)
    (submitted : ∀ asked ∈ due, asked.group ≠ job)
    (waits : workshop.manager.Waits job resource) :
    (∃ map, (workshop.await held job resource).1 = .compiled map) ∨
      ∃ failure, failure ≠ .compile [] ∧
        (workshop.await held job resource).1 = .failed failure := by
  obtain ⟨_, after, compile, member, rfl, there⟩ :=
    accounts.finished held lowered submitted waits
  have genuine := (after.ordered.ended compile member).2
  have taken : ((workshop.finish held [compile.job]).manager.take compile.job resource).1 =
      some compile.result := by
    rcases after.ordered.regular.take_cases compile.job resource with
      ⟨other, also, here, _, same⟩ | ⟨nobody, _⟩
    · rw [same, List.inj_on_of_nodup_map after.ordered.regular.single also member here]
    · exact absurd there (nobody compile member rfl)
  unfold Workshop.await
  dsimp only
  rw [taken]
  cases result : compile.result with
  | ok map => exact .inl ⟨map, rfl⟩
  | error failure => exact .inr ⟨failure, fun same => genuine (same ▸ result), rfl⟩

/-- Results are delivered once. Whatever calls are in progress and however their moves and the
results of the compiler follow each other: whoever takes part in a job has received one result or
still waits for one, and nobody receives more. A result is received only by those who take part and
only when all permutations of the job have reported, and it is the same for all of them. Whoever
has withdrawn and not joined again receives nothing, and takes nothing from others by withdrawing.
Results that come too late for their job change nothing. Whoever waits for the compiler only gets
the result once it has answered. And serving a request, with whatever happens meanwhile, goes on
in the same way: if it is answered with a map or with errors, these have been received. -/
theorem each_receives_once {start traffic : Traffic} (fresh : start.Fresh)
    (moves : Moves start past traffic) :
    let manager := traffic.workshop.manager
    (∀ job resource, (receipts job resource past).length ≤ 1) ∧
    (∀ job resource, TakesPart job resource past →
      (manager.Waits job resource ∧ receipts job resource past = []) ∨
        (¬manager.Waits job resource ∧ ∃ result, receipts job resource past = [result])) ∧
    (∀ after job resource result before, past = after ++ received job resource result :: before →
      TakesPart job resource before ∧ Settled job result before) ∧
    (∀ job resource other result different, received job resource result ∈ past →
      received job other different ∈ past → result = different) ∧
    (∀ after job resource before, past = after ++ cancelled job resource :: before →
      joined job resource ∉ after →
      receipts job resource after = [] ∧ ¬manager.Waits job resource) ∧
    (∀ leaving jobs job resource, (manager.cancel leaving jobs).prospect job resource =
      if job ∈ jobs ∧ resource = leaving then none else manager.prospect job resource) ∧
    (∀ held arrived, (traffic.workshop.withInbox arrived).drain held =
      (traffic.workshop.withInbox
        (arrived.filter fun result => manager.isCompiling result.group)).drain held) ∧
    (∀ held job resource, manager.Waits job resource → job ∉ traffic.lowerings →
      (∀ asked ∈ traffic.due, asked.group ≠ job) →
      ((job, resource) ∉ traffic.awaiting →
        ∃ compile ∈ (traffic.workshop.releaseAll.process held).1,
          compile.job = job ∧ resource ∈ compile.resources) ∧
      ((∃ map, (traffic.workshop.await held job resource).1 = .compiled map) ∨
        ∃ failure, failure ≠ .compile [] ∧
          (traffic.workshop.await held job resource).1 = .failed failure)) ∧
    ∀ {α : Type} (held : List MapId) (request : CompileRequest)
      (whileLowering afterFirst : Workshop.Meanwhile α),
      (∀ workshop, ∃ told, Workshop.Carries workshop told (whileLowering workshop).2) →
      (∀ workshop, ∃ told, Workshop.Carries workshop told (afterFirst workshop).2) →
      ∃ told,
        Moves start (told ++ past) { traffic with
          workshop :=
            (traffic.workshop.begin held request whileLowering afterFirst).2.2 } ∧
        ∀ outcome,
          (traffic.workshop.begin held request whileLowering afterFirst).1 = .ok outcome →
          Workshop.Answered told request.resource outcome := by
  have accounts := fresh.accounts.moves moves
  rw [List.append_nil] at accounts
  have proper := accounts.proper
  refine ⟨fun job resource => proper.receipts_length, fun job resource part => ?_,
    fun after job resource result before split => ?_,
    fun job resource other result different => proper.alike,
    fun after job resource before split apart => ?_,
    fun leaving jobs _ _ => Manager.prospect_cancel accounts.ordered.regular leaving jobs,
    fun held arrived => traffic.workshop.drain_late held arrived,
    fun held job resource waits lowered submitted => ⟨?_, ?_⟩,
    fun held request whileLowering afterFirst lowering meanwhile => ?_⟩
  · by_cases waits : traffic.workshop.manager.Waits job resource
    · exact .inl ⟨waits, receipts_eq_nil.mpr ((accounts.parts job resource).mp waits).2⟩
    · refine .inr ⟨waits, List.length_eq_one_iff.mp (Nat.le_antisymm proper.receipts_length ?_)⟩
      refine List.length_pos_iff.mpr fun none => waits ((accounts.parts job resource).mpr ?_)
      exact ⟨part, receipts_eq_nil.mp none⟩
  · obtain ⟨part, _, settled, _⟩ := proper.at split
    exact ⟨part, settled⟩
  · subst split
    exact ⟨proper.nothing_of_cancelled apart, fun waits =>
      not_takesPart_of_cancelled apart ((accounts.parts job resource).mp waits).1⟩
  · exact accounts.delivered held lowered submitted waits
  · exact accounts.awaited held lowered submitted waits
  · obtain ⟨told, carries, answered⟩ := traffic.workshop.begin_moves whileLowering afterFirst held
      request lowering meanwhile
    exact ⟨told, moves.trans (carries traffic.lowering traffic.due traffic.awaiting), answered⟩

/-- Both resources that share a compile receive the same, once. -/
theorem sharedCompile_delivered : ∃ past traffic result, Moves { workshop := {} } past traffic ∧
    receipts .first .first past = [result] ∧ receipts .first (.next .first) past = [result] := by
  have lowers : (bareRequest.variant.lower).toOption.isSome := by decide
  obtain ⟨material, lowers⟩ := Option.isSome_iff_exists.mp lowers
  have lowered := sharedCompile_moves.next
    (.lowered [] [] (toOption_eq_some.mp lowers) rfl)
  have received := (lowered.next (.submit _ [])).next (.receive [] rfl)
  have delivered := received.next .deliver
  obtain ⟨_, once, _, alike, _⟩ :=
    each_receives_once ⟨rfl, rfl, rfl, rfl, rfl⟩ delivered
  have nobody {manager : Manager} {resource : ResourceId} (gone : manager.jobs.get? .first = none)
      (taken : manager.finished = []) : ¬manager.Waits .first resource := by
    rintro (⟨_, found, _⟩ | ⟨_, member, _⟩)
    · cases gone.symm.trans found
    · rw [taken] at member
      cases member
  obtain ⟨first, one⟩ := ((once .first .first (.inr (.inl ⟨rfl, rfl⟩))).resolve_left
    fun waits => nobody rfl rfl waits.1).2
  obtain ⟨second, two⟩ := ((once .first (.next .first) (.inl ⟨rfl, rfl⟩)).resolve_left
    fun waits => nobody rfl rfl waits.1).2
  have same := alike .first .first (.next .first) first second
    (mem_receipts.mp (one ▸ List.mem_singleton_self _))
    (mem_receipts.mp (two ▸ List.mem_singleton_self _))
  exact ⟨_, _, first, delivered, one, same ▸ two⟩

end Traffic

end Shading
