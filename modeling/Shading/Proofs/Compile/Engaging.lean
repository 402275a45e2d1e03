/-
Who waits for what, between calls. As long as no call is in progress, a workshop
is described by the pairs of a job and a resource that waits for it, and each
operation is told by what it does to these pairs: a request that is not answered
at once adds one, withdrawing takes some away, and handing out results takes away
just those that are handed out. Nothing else makes a difference.
-/

import Shading.Proofs.Compile.Delivery

namespace Shading

/-- What a request that is not answered yet waits for. -/
def CompileOutcome.job? : CompileOutcome → Option JobId
  | .pending job | .attached job => some job
  | .compiled _ | .failed _ => none

/-- The results that have been handed out have one for the resource. -/
def FinishedCompile.Serve (finished : List FinishedCompile) (job : JobId)
    (resource : ResourceId) : Prop :=
  ∃ compile ∈ finished, compile.job = job ∧ resource ∈ compile.resources

open FinishedCompile (Serve)

theorem FinishedCompile.mem_flatMap_receipts {finished : List FinishedCompile} {job : JobId}
    {resource : ResourceId} :
    (∃ result, Notice.received job resource result ∈ finished.flatMap receipts) ↔
      Serve finished job resource := by
  unfold receipts Serve
  simp only [List.mem_flatMap, List.mem_map, Notice.received.injEq]
  constructor
  · rintro ⟨_, compile, member, _, there, same, rfl, _⟩
    exact ⟨compile, member, same, there⟩
  · rintro ⟨compile, member, same, there⟩
    exact ⟨_, compile, member, resource, there, same, rfl, rfl⟩

namespace Workshop

variable {workshop : Workshop} {held : List MapId} {job : JobId}

theorem Aside.refl (workshop : Workshop) : Aside workshop workshop :=
  ⟨rfl, rfl, rfl, rfl, rfl, rfl, rfl⟩

theorem Aside.trans {middle next : Workshop} (first : Aside workshop middle)
    (second : Aside middle next) : Aside workshop next :=
  ⟨second.jobs.trans first.jobs, second.byIdentity.trans first.byIdentity,
    second.nextJob.trans first.nextJob, second.finished.trans first.finished,
    second.waiters.trans first.waiters, second.inbox.trans first.inbox,
    second.waiting.trans first.waiting⟩

/-- Taking in what has arrived puts no compile in flight. -/
theorem drain_absent (workshop : Workshop) (held : List MapId)
    (absent : workshop.manager.jobs.get? job = none) :
    (workshop.drain held).manager.jobs.get? job = none :=
  List.foldlRecOn (motive := fun workshop : Workshop => workshop.manager.jobs.get? job = none) _ _
    absent fun workshop before result _ => receive_absent workshop held result before

/-- Where nothing happens meanwhile, jobs are just handed over one after another. -/
theorem submitAll_undisturbed (workshop : Workshop) (jobs : List PermutationJob) :
    (workshop.submitAll undisturbed jobs).2 = jobs.foldl submit workshop := by
  cases jobs <;> rfl

end Workshop

namespace Traffic

open Notice

/-- The traffic agrees with what has been noticed of it, and these wait. -/
def Engages (traffic : Traffic) (waits : JobId → ResourceId → Prop) : Prop :=
  ∃ past, Accounts past traffic ∧
    ∀ job resource, traffic.workshop.manager.Waits job resource ↔ waits job resource

theorem Fresh.engages {traffic : Traffic} (fresh : traffic.Fresh) :
    traffic.Engages fun _ _ => False := by
  refine ⟨[], fresh.accounts, fun job resource => iff_of_false ?_ id⟩
  rw [fresh.manager]
  rintro (⟨_, found, _⟩ | ⟨_, member, _⟩)
  · cases found
  · cases member

namespace Engages

variable {traffic later : Traffic} {waits : JobId → ResourceId → Prop} {told : List Notice}
  {job : JobId} {resource : ResourceId}

theorem congr {others : JobId → ResourceId → Prop} (engages : traffic.Engages waits)
    (same : ∀ job resource, waits job resource ↔ others job resource) : traffic.Engages others := by
  obtain ⟨past, accounts, parts⟩ := engages
  exact ⟨past, accounts, fun job resource => (parts job resource).trans (same job resource)⟩

/-! ### Moves -/

/-- Nobody comes or goes. -/
theorem mildly (engages : traffic.Engages waits) (moves : Moves traffic told later)
    (mild : ∀ notice ∈ told, Accounts.Mild notice) : later.Engages waits := by
  obtain ⟨past, accounts, parts⟩ := engages
  have after := accounts.moves moves
  refine ⟨_, after, fun job resource => ?_⟩
  rw [← parts, after.parts, accounts.parts,
    takesPart_append fun notice member past => (mild notice member).takesPart job resource past,
    unreceived_append, and_iff_right fun result member =>
      (mild _ member).notReceived job resource result rfl]

theorem silently (engages : traffic.Engages waits) (move : Move traffic [] later) :
    later.Engages waits :=
  have moves : Moves traffic [] later := .next (.rest _) move
  engages.mildly moves nofun

/-- Somebody joins a job that nothing has been received for. -/
theorem join (engages : traffic.Engages waits) (move : Move traffic [joined job resource] later)
    (unanswered : ∀ past, Accounts past traffic → Unreceived job resource past) :
    later.Engages fun other its => waits other its ∨ (other = job ∧ its = resource) := by
  obtain ⟨past, accounts, parts⟩ := engages
  have after := accounts.move move
  refine ⟨_, after, fun other its => ?_⟩
  have unchanged : Unreceived other its ([joined job resource] ++ past) ↔
      Unreceived other its past :=
    unreceived_append.trans (and_iff_right fun result => by simp)
  have fresh := unanswered past accounts
  dsimp only
  rw [← parts, after.parts, accounts.parts, unchanged]
  show ((job = other ∧ resource = its) ∨ TakesPart other its past) ∧ _ ↔ _
  constructor
  · rintro ⟨⟨rfl, rfl⟩ | part, unreceived⟩
    · exact .inr ⟨rfl, rfl⟩
    · exact .inl ⟨part, unreceived⟩
  · rintro (⟨part, unreceived⟩ | ⟨rfl, rfl⟩)
    · exact ⟨.inr part, unreceived⟩
    · exact ⟨.inl ⟨rfl, rfl⟩, fresh⟩

/-- Some receive a result, and wait no longer. -/
theorem receive (engages : traffic.Engages waits) (move : Move traffic told later)
    (only : ∀ notice ∈ told, ∃ job resource result, notice = received job resource result) :
    later.Engages fun job resource =>
      waits job resource ∧ ¬∃ result, received job resource result ∈ told := by
  obtain ⟨past, accounts, parts⟩ := engages
  have after := accounts.move move
  refine ⟨_, after, fun job resource => ?_⟩
  dsimp only
  rw [← parts, after.parts, accounts.parts, takesPart_receipts only, unreceived_append, not_exists,
    and_left_comm, and_comm]

/-! ### Between calls -/

variable {workshop next : Workshop} {held : List MapId}

theorem aside (engages : Engages ⟨workshop, [], [], []⟩ waits) (aside : workshop.Aside next) :
    Engages ⟨next, [], [], []⟩ waits := engages.silently (.aside aside)

theorem release (engages : Engages ⟨workshop, [], [], []⟩ waits) (position : Option Nat) :
    Engages ⟨(workshop.release position).2, [], [], []⟩ waits :=
  engages.silently (.release position)

theorem reports {awaiting : List (JobId × ResourceId)}
    (engages : Engages ⟨workshop, [], [], awaiting⟩ waits)
    (carries : ∃ told, Workshop.Carries.Reports told ∧ workshop.Carries told next) :
    Engages ⟨next, [], [], awaiting⟩ waits := by
  obtain ⟨told, reports, carries⟩ := carries
  refine engages.mildly (carries [] [] awaiting) fun notice member => ?_
  obtain ⟨job, permutation, rfl⟩ := reports notice member
  exact Accounts.mild_reported job permutation

theorem finishAll (engages : Engages ⟨workshop, [], [], []⟩ waits) (held : List MapId) :
    Engages ⟨workshop.finishAll held, [], [], []⟩ waits := engages.reports (Workshop.Carries.finishAll held workshop)

theorem cancel (engages : Engages ⟨workshop, [], [], []⟩ waits) (leaving : ResourceId)
    (jobs : List JobId) :
    Engages ⟨{ workshop with manager := workshop.manager.cancel leaving jobs }, [], [], []⟩
      fun job resource => waits job resource ∧ ¬(job ∈ jobs ∧ resource = leaving) := by
  obtain ⟨past, accounts, parts⟩ := engages
  refine ⟨_, accounts.move (.cancel leaving jobs), fun job resource => ?_⟩
  dsimp only
  rw [← parts]
  exact Manager.waits_cancel leaving jobs

/-- While a compile is in flight nobody has received anything for it. -/
theorem unanswered_of_inFlight {identity : MapIdentity}
    (found : workshop.manager.inFlight? identity = some job) (past : List Notice)
    (accounts : Accounts past ⟨workshop, [], [], []⟩) : Unreceived job resource past := by
  obtain ⟨entry, flying, _⟩ := (accounts.ordered.regular.indexed identity job).mp found
  intro result received
  cases (accounts.answered job resource result received).1.symm.trans flying

theorem attach {identity : MapIdentity} (engages : Engages ⟨workshop, [], [], []⟩ waits)
    (found : workshop.manager.inFlight? identity = some job) (resource : ResourceId) :
    Engages ⟨{ workshop with manager := workshop.manager.join job resource }, [], [], []⟩
      fun other its => waits other its ∨ (other = job ∧ its = resource) :=
  engages.join (.join resource found) (unanswered_of_inFlight found)

/-! ### Handing out -/

/-- Results that are handed out are those of distinct jobs, and go to distinct resources, all of
whom have waited for them; nobody else ceases to wait. -/
theorem process (engages : Engages ⟨workshop, [], [], []⟩ waits) (held : List MapId) :
    Engages ⟨(workshop.process held).2, [], [], []⟩ (fun job resource =>
        waits job resource ∧ ¬Serve (workshop.process held).1 job resource) ∧
      (∀ job resource, Serve (workshop.process held).1 job resource → waits job resource) ∧
      ((workshop.process held).1.map FinishedCompile.job).Nodup ∧
      ∀ compile ∈ (workshop.process held).1, compile.resources.Nodup := by
  have emptied : Engages ⟨(workshop.drain held).flush, [], [], []⟩ waits :=
    (engages.reports (Workshop.Carries.drain held workshop)).aside (.flush _)
  have handed := emptied.receive .deliver fun notice member => by
    obtain ⟨compile, _, there⟩ := List.mem_flatMap.mp member
    obtain ⟨resource, _, rfl⟩ := List.mem_map.mp there
    exact ⟨_, _, _, rfl⟩
  refine ⟨handed.congr fun job resource =>
    and_congr_right fun _ => not_congr FinishedCompile.mem_flatMap_receipts, ?_⟩
  obtain ⟨past, accounts, parts⟩ := emptied
  have limited := accounts.ordered.regular.limited (fun compile =>
    compile.resources.filter fun resource =>
      (compile.job, resource) ∉ (workshop.drain held).flush.manager.waiters)
    fun _ _ => List.filter_sublist
  have delivered : (workshop.process held).1 =
      ((workshop.drain held).flush.manager.limited fun compile =>
        compile.resources.filter fun resource =>
          (compile.job, resource) ∉ (workshop.drain held).flush.manager.waiters).finished :=
    congrArg Prod.fst (Manager.deliver_eq _)
  rw [delivered]
  refine ⟨fun job resource served => ?_, limited.single,
    fun compile member => (limited.ended compile member).2.1⟩
  obtain ⟨compile, before, same, there⟩ := Manager.landed_limited.mp served
  exact (parts job resource).mp (.inr ⟨compile, before, same, (List.mem_filter.mp there).1⟩)

/-- Where nothing is in flight, all that wait are served. -/
theorem process_all (engages : Engages ⟨workshop, [], [], []⟩ waits) (held : List MapId)
    (landed : ∀ job, workshop.manager.jobs.get? job = none) (waiting : waits job resource) :
    Serve (workshop.process held).1 job resource := by
  have emptied : Engages ⟨(workshop.drain held).flush, [], [], []⟩ waits :=
    (engages.reports (Workshop.Carries.drain held workshop)).aside (.flush _)
  obtain ⟨past, accounts, parts⟩ := emptied
  have aside := Workshop.Aside.flush (workshop.drain held)
  have there := ((parts job resource).mpr waiting).resolve_left fun ⟨entry, flies, _⟩ => by
    rw [aside.jobs, workshop.drain_absent held (landed job)] at flies
    cases flies
  refine mem_deliver there fun withheld => ?_
  obtain ⟨compile, member, same, _⟩ := there
  exact (accounts.ordered.withheld _ withheld).elim (fun call => nomatch call)
    fun gone => gone.2 compile member same

/-- What is in flight has been lowered between two orders, so something it needs is still to
come. -/
theorem idle (engages : Engages ⟨workshop, [], [], []⟩ waits)
    (inbox : workshop.manager.inbox = []) (waiting : workshop.compiler.waiting = []) (job : JobId) :
    workshop.manager.jobs.get? job = none := by
  obtain ⟨past, accounts, _⟩ := engages
  by_contra present
  obtain ⟨entry, found⟩ := Option.ne_none_iff_exists'.mp present
  have underway := accounts.ordered.underway job entry found
  have lowered : entry.lowering = false :=
    Bool.eq_false_iff.mpr fun still => absurd (underway.lowering still) List.not_mem_nil
  obtain ⟨_, some, _, asked⟩ := underway.lowered lowered
  obtain ⟨permutation, member⟩ := List.exists_mem_of_ne_nil _ some
  rcases asked permutation member with ⟨due, yet, _⟩ | ⟨result, arrived, _⟩
  · simp [waiting] at yet
  · simp [inbox] at arrived

/-- Once everything that was in flight has been waited for, nothing is in flight. -/
theorem finishAll_landed (engages : Engages ⟨workshop, [], [], []⟩ waits) (held : List MapId)
    (job : JobId) : (workshop.finishAll held).manager.jobs.get? job = none := by
  unfold Workshop.finishAll Workshop.finish
  dsimp only
  split
  · rename_i none
    cases found : workshop.manager.jobs.get? job with
    | none => rfl
    | some entry =>
      have listed := Table.mem_keys_of_get? found
      rw [none] at listed
      cases listed
  · split
    · have released := (engages.reports (Workshop.Carries.drain held workshop)).release none
      have drained := (workshop.drain held).releaseAll.drained held
      rw [(Workshop.Aside.flush _).jobs]
      have waiting : ((workshop.drain held).releaseAll.drain held).compiler.waiting = [] := by
        rw [drained.2]
        rfl
      exact (released.reports (Workshop.Carries.drain held _)).idle drained.1 waiting job
    · rename_i ended
      rw [(Workshop.Aside.flush _).jobs]
      cases found : (workshop.drain held).manager.jobs.get? job with
      | none => rfl
      | some entry =>
        refine absurd (List.any_eq_true.mpr ⟨job, ?_, Option.isSome_iff_exists.mpr ⟨entry, found⟩⟩)
          ended
        cases before : workshop.manager.jobs.get? job with
        | none => cases (workshop.drain_absent held before).symm.trans found
        | some entry => exact Table.mem_keys_of_get? before

/-! ### Requests -/

/-- Whoever waits for a job and asks for its result waits no longer. -/
theorem await (engages : Engages ⟨workshop, [], [], [(job, resource)]⟩ waits) (held : List MapId)
    (waiting : waits job resource) :
    Engages ⟨(workshop.await held job resource).2, [], [], []⟩ (fun other its =>
      waits other its ∧ ¬(other = job ∧ its = resource)) ∧
      (workshop.await held job resource).1.job? = none := by
  have finished := engages.reports (Workshop.Carries.finish held workshop [job])
  obtain ⟨past, accounts, parts⟩ := engages
  obtain ⟨_, after, compile, member, same, there⟩ := accounts.finished held (fun call => nomatch call)
    (fun _ call => nomatch call) ((parts job resource).mpr waiting)
  obtain ⟨_, _, _, _, taken⟩ :=
    (after.ordered.regular.take_cases job resource).resolve_right fun nobody =>
      nobody.1 compile member same there
  have took := finished.receive (.take job resource) fun notice member => by
    obtain ⟨result, _, rfl⟩ := List.mem_map.mp member
    exact ⟨job, resource, result, rfl⟩
  have ended : Engages ⟨_, [], [], []⟩ fun other its =>
      waits other its ∧ ¬(other = job ∧ its = resource) :=
    (took.silently (.unwait [])).congr fun other its => and_congr_right fun _ => not_congr (by
      rw [taken]
      simp [eq_comm])
  unfold Workshop.await
  dsimp only
  refine ⟨?_, ?_⟩
  · split <;> exact ended
  · split <;> rfl

/-- Handing over the jobs of a compile is no change for anybody. -/
theorem submit {jobs due : List PermutationJob} {awaiting : List (JobId × ResourceId)}
    (engages : Engages ⟨workshop, [], jobs ++ due, awaiting⟩ waits) :
    Engages ⟨jobs.foldl Workshop.submit workshop, [], due, awaiting⟩ waits := by
  induction jobs generalizing workshop with
  | nil => exact engages
  | cons first rest inductionHypothesis =>
    exact inductionHypothesis (engages.silently (.submit first []))

/-- Whoever is answered after all is as if it had never waited. -/
theorem answered_iff {request : CompileRequest} (apart : ∀ job, ¬waits job request.resource)
    (other : JobId) (its : ResourceId) :
    (waits other its ∨ other = job ∧ its = request.resource) ∧
      ¬(other = job ∧ its = request.resource) ↔ waits other its :=
  ⟨fun both => both.1.resolve_right both.2,
    fun before => ⟨.inl before, fun both => apart other (both.2 ▸ before)⟩⟩

/-- A request that joins a compile in flight is answered, or waits for it. -/
theorem joinRequest {request : CompileRequest} (engages : Engages ⟨workshop, [], [], []⟩ waits)
    (held : List MapId) (apart : ∀ job, ¬waits job request.resource)
    (found : workshop.manager.inFlight? request.identity = some job) :
    Engages ⟨(workshop.joinRequest held request job).2, [], [], []⟩ fun other its =>
      waits other its ∨
        ((workshop.joinRequest held request job).1.job? = some other ∧ its = request.resource) := by
  have joined := engages.attach found request.resource
  unfold Workshop.joinRequest
  dsimp only
  split
  · have waiting := joined.silently (.wait request.resource found)
    obtain ⟨awaited, outcome⟩ := waiting.await held (.inr ⟨rfl, rfl⟩)
    refine awaited.congr fun other its => (answered_iff apart other its).trans (or_iff_left ?_).symm
    exact fun both => nomatch outcome.symm.trans both.1
  · refine joined.congr fun other its => or_congr_right (and_congr_left fun _ => ?_)
    exact ⟨fun same => congrArg some same.symm, fun same => (Option.some.inj same).symm⟩

/-- So does a request that has begun a compile, once its material has been lowered. -/
theorem compileLowered {request : CompileRequest} {entry : InFlight} {material : LoweredMaterial}
    (engages : Engages ⟨workshop, [(job, request)], [], request.waits job⟩ fun other its =>
      waits other its ∨ (other = job ∧ its = request.resource))
    (held : List MapId) (apart : ∀ job, ¬waits job request.resource)
    (entered : workshop.manager.jobs.get? job = some entry)
    (lowers : request.variant.lower = .ok material) :
    Engages ⟨(workshop.compileLowered held request job material Workshop.undisturbed).2, [], [], []⟩
      fun other its => waits other its ∨
        ((workshop.compileLowered held request job material Workshop.undisturbed).1.1.job? =
          some other ∧ its = request.resource) := by
  unfold Workshop.compileLowered
  split
  · rename_i gone
    exact nomatch (Option.map_eq_none_iff.mp gone).symm.trans entered
  · rename_i next lowering
    have lowered := engages.mildly (.next (.rest _) (.lowered held [] lowers lowering))
      fun notice member => by
        rw [List.append_nil, List.mem_singleton] at member
        exact member ▸ Accounts.mild_expected ..
    have counted : next.Aside { next.flush with manager := { next.flush.manager with
        submissions := next.flush.manager.submissions + 1 } } := by
      have flushed := Workshop.Aside.flush next
      exact ⟨flushed.jobs, flushed.byIdentity, flushed.nextJob, flushed.finished, flushed.waiters,
        flushed.inbox, flushed.waiting⟩
    have submitted := (lowered.silently (.aside counted)).submit
    rw [← Workshop.submitAll_undisturbed] at submitted
    unfold CompileRequest.waits at submitted
    dsimp only
    split
    · rename_i synchronous
      rw [if_pos synchronous] at submitted
      obtain ⟨awaited, outcome⟩ := submitted.await held (.inr ⟨rfl, rfl⟩)
      refine awaited.congr fun other its =>
        (answered_iff apart other its).trans (or_iff_left ?_).symm
      exact fun both => nomatch outcome.symm.trans both.1
    · rename_i apart
      rw [if_neg apart] at submitted
      refine submitted.congr fun other its => or_congr_right (and_congr_left fun _ => ?_)
      exact ⟨fun same => congrArg some same.symm, fun same => (Option.some.inj same).symm⟩

/-- A request that nobody has waited for is answered, or waits for its job; nothing else changes
about who waits. -/
theorem request {request : CompileRequest} {answer : Except LoweringError CompileOutcome}
    (engages : Engages ⟨workshop, [], [], []⟩ waits) (apart : ∀ job, ¬waits job request.resource)
    (served : workshop.request held request = (answer, next)) :
    Engages ⟨next, [], [], []⟩ fun job resource => waits job resource ∨
      (answer.toOption.bind CompileOutcome.job? = some job ∧ resource = request.resource) := by
  obtain ⟨rfl, rfl⟩ : (workshop.request held request).1 = answer ∧
      (workshop.request held request).2 = next := by rw [served]; exact ⟨rfl, rfl⟩
  unfold Workshop.request Workshop.begin
  cases flying : workshop.manager.inFlight? request.identity with
  | some job => exact engages.joinRequest held apart flying
  | none =>
    have begun := engages.join (.begin request flying) fun past accounts result member =>
      Nat.lt_irrefl _ (accounts.older _ member _ rfl)
    have entered : (workshop.begun request).manager.jobs.get? workshop.manager.nextJob =
        some request.entry := by
      rw [Workshop.begun_jobs, Table.get?_insert, if_pos rfl]
    dsimp only
    cases lowers : request.variant.lower with
    | error error =>
      have told := Manager.mem_refusal request.resource error entered
      have aborted := begun.receive (.abort [] [] lowers) fun notice member =>
        ⟨_, _, _, ((told notice).mp member).2⟩
      refine aborted.congr fun other its => ?_
      refine (and_congr_right fun _ => not_congr ⟨?_, ?_⟩).trans
        ((answered_iff apart other its).trans (or_iff_left fun both => nomatch both.1).symm)
      · rintro ⟨result, member⟩
        cases ((told _).mp member).2
        exact ⟨rfl, rfl⟩
      · rintro ⟨rfl, rfl⟩
        exact ⟨_, (told _).mpr ⟨List.mem_singleton_self _, rfl⟩⟩
    | ok material =>
      rw [List.append_nil] at begun
      exact begun.compileLowered held apart entered lowers

end Engages

end Traffic

end Shading
