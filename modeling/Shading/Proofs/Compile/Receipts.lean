/-
The account of what has been noticed. A resource waits for a job just if it
takes part in it and has not received anything yet, and what is known of the
permutations of a job agrees with what its compile still waits for. Every move
keeps this account, and from it follows that results are received properly.
-/

import Shading.Proofs.Compile.Waiting

namespace Shading

namespace Traffic

variable {traffic later : Traffic} {told past : List Notice} {job : JobId}
  {resource : ResourceId} {entry : InFlight}

open Notice

/-- What is known of the permutations of a compile in flight. -/
def Expects (job : JobId) (entry : InFlight) (past : List Notice) : Prop :=
  (entry.lowering = true → ∀ permutations, expected job permutations ∉ past) ∧
    (entry.lowering = false → (∃ permutations, expected job permutations ∈ past) ∧
      ∀ permutations, expected job permutations ∈ past → ∀ permutation ∈ permutations,
        permutation ∈ entry.remaining ∨ reported job permutation ∈ past)

theorem expects_append (expects : Expects job entry past)
    (silent : ∀ permutations, expected job permutations ∉ told) :
    Expects job entry (told ++ past) := by
  refine ⟨fun lowering permutations asked => ?_, fun lowered => ?_⟩
  · exact (List.mem_append.mp asked).elim (silent permutations)
      (expects.1 lowering permutations)
  · obtain ⟨⟨permutations, asked⟩, covered⟩ := expects.2 lowered
    refine ⟨⟨permutations, List.mem_append_right _ asked⟩,
      fun others asked permutation member => ?_⟩
    have before := (List.mem_append.mp asked).resolve_left (silent others)
    exact (covered others before permutation member).imp_right (List.mem_append_right _)

theorem expects_cons {notice : Notice} (expects : Expects job entry past)
    (silent : ∀ permutations, expected job permutations ≠ notice) :
    Expects job entry (notice :: past) :=
  expects_append expects fun permutations same => silent permutations (List.mem_singleton.mp same)

/-- A permutation that has reported is not waited for any longer. -/
theorem expects_record {result : PermutationResult} (expects : Expects result.group entry past) :
    Expects result.group (Workshop.record entry result)
      (reported result.group result.permutation :: past) := by
  have told : Expects result.group entry (reported result.group result.permutation :: past) :=
    expects_cons expects nofun
  obtain ⟨expecting, expected⟩ := told
  unfold Expects
  rw [InFlight.record_lowering, InFlight.record_remaining]
  refine ⟨expecting, fun lowered => ?_⟩
  obtain ⟨asked, covered⟩ := expected lowered
  refine ⟨asked, fun permutations asks permutation member => ?_⟩
  rcases covered permutations asks permutation member with remains | reports
  · by_cases here : permutation = result.permutation
    · exact .inr (here ▸ List.mem_cons_self ..)
    · exact .inl (List.mem_filter.mpr ⟨remains, decide_eq_true here⟩)
  · exact .inr reports

/-- What is noticed agrees with what is in the workshop. -/
structure Accounts (past : List Notice) (traffic : Traffic) : Prop where
  ordered : traffic.Ordered
  parts : ∀ job resource, traffic.workshop.manager.Waits job resource ↔
    TakesPart job resource past ∧ Unreceived job resource past
  older : ∀ notice ∈ past, ∀ job, notice.bound? = some job →
    job.number < traffic.workshop.manager.nextJob.number
  answered : ∀ job resource result, received job resource result ∈ past →
    traffic.workshop.manager.jobs.get? job = none ∧
      ∀ compile ∈ traffic.workshop.manager.finished, compile.job = job → compile.result = result
  expects : ∀ job entry, traffic.workshop.manager.jobs.get? job = some entry →
    Expects job entry past
  settled : ∀ compile ∈ traffic.workshop.manager.finished,
    Settled compile.job compile.result past
  proper : Proper past

theorem Fresh.accounts (fresh : traffic.Fresh) : Accounts [] traffic := by
  have manager := fresh.manager
  refine ⟨fresh.ordered, fun job resource => ⟨fun waits => ?_, fun part => part.1.elim⟩,
    fun _ member => (nomatch member), fun _ _ _ member => (nomatch member), ?_, ?_, trivial⟩
  · rw [manager] at waits
    obtain ⟨_, found, _⟩ | ⟨_, member, _⟩ := waits
    · cases found
    · cases member
  · rw [manager]
    exact fun _ _ found => nomatch found
  · rw [manager]
    exact fun _ member => nomatch member

namespace Accounts

/-- Nobody joins anything, compiles do not go on, and whoever does not wait any more has withdrawn
or has received the result that was there. -/
theorem recede (accounts : Accounts past traffic) (told : List Notice) (ordered : later.Ordered)
    (recedes : traffic.workshop.manager.Recedes later.workshop.manager)
    (parts : ∀ job resource, later.workshop.manager.Waits job resource ↔
      TakesPart job resource (told ++ past) ∧ Unreceived job resource (told ++ past))
    (silent : ∀ job permutations, expected job permutations ∉ told)
    (receipts : ∀ job resource result, received job resource result ∈ told →
      ∃ compile ∈ traffic.workshop.manager.finished, compile.job = job ∧ compile.result = result)
    (proper : Proper (told ++ past)) : Accounts (told ++ past) later := by
  have regular := accounts.ordered.regular
  have stay (job : JobId) (gone : traffic.workshop.manager.jobs.get? job = none) :
      later.workshop.manager.jobs.get? job = none := by
    cases there : later.workshop.manager.jobs.get? job with
    | none => rfl
    | some entry =>
      obtain ⟨_, before⟩ := recedes.jobs job entry there
      exact nomatch gone.symm.trans before
  have single {compile other : FinishedCompile}
      (member : compile ∈ traffic.workshop.manager.finished)
      (there : other ∈ traffic.workshop.manager.finished) (same : other.job = compile.job) :
      other = compile := List.inj_on_of_nodup_map regular.single there member same
  refine ⟨ordered, parts, fun notice member job binds => ?_, fun job resource result member => ?_,
    fun job entry found => ?_, fun part member => ?_, proper⟩
  · rw [recedes.nextJob]
    rcases List.mem_append.mp member with new | before
    · cases notice with
      | expected other permutations => exact absurd new (silent other permutations)
      | received other resource result =>
        obtain ⟨compile, there, here, _⟩ := receipts other resource result new
        cases binds
        exact here ▸ (regular.ended compile there).2.2.1
      | joined | cancelled | closed | reported => cases binds
    · exact accounts.older notice before job binds
  · have told : traffic.workshop.manager.jobs.get? job = none ∧
        ∀ compile ∈ traffic.workshop.manager.finished, compile.job = job →
          compile.result = result := by
      rcases List.mem_append.mp member with new | before
      · obtain ⟨compile, there, here, same⟩ := receipts job resource result new
        refine ⟨here ▸ (regular.ended compile there).2.2.2, fun other member also => ?_⟩
        rw [single there member (also.trans here.symm), same]
      · exact accounts.answered job resource result before
    refine ⟨stay job told.1, fun part member here => ?_⟩
    obtain ⟨whole, before, sameJob, sameResult⟩ := recedes.finished part member
    exact sameResult.trans (told.2 whole before (sameJob.symm.trans here))
  · obtain ⟨_, before⟩ := recedes.jobs job entry found
    obtain ⟨expecting, expects⟩ := expects_append (accounts.expects job _ before) (silent job)
    exact ⟨expecting, expects⟩
  · obtain ⟨whole, before, sameJob, sameResult⟩ := recedes.finished part member
    rw [sameJob, sameResult]
    exact settled_append (accounts.settled whole before) (silent whole.job)

/-- Compiles have not changed. -/
theorem still (accounts : Accounts past traffic) (ordered : later.Ordered)
    (jobs : later.workshop.manager.jobs = traffic.workshop.manager.jobs)
    (finished : later.workshop.manager.finished = traffic.workshop.manager.finished)
    (nextJob : later.workshop.manager.nextJob = traffic.workshop.manager.nextJob) :
    Accounts past later := by
  refine accounts.recede [] ordered (.congr jobs finished nextJob) ?_ (fun _ _ => List.not_mem_nil)
    (fun _ _ _ member => (nomatch member)) accounts.proper
  unfold Manager.Waits Manager.Flies Manager.Landed
  rw [jobs, finished]
  exact accounts.parts

/-- A compile in flight is joined, perhaps one that is begun with it. -/
theorem join (accounts : Accounts past traffic) (ordered : later.Ordered)
    (flies : ∀ other its, later.workshop.manager.Flies other its ↔
      (job = other ∧ resource = its) ∨ traffic.workshop.manager.Flies other its)
    (finished : later.workshop.manager.finished = traffic.workshop.manager.finished)
    (nextJob : traffic.workshop.manager.nextJob.number ≤ later.workshop.manager.nextJob.number)
    (unreceived : ∀ its, Unreceived job its past)
    (absent : ∀ other, traffic.workshop.manager.jobs.get? other = none → other ≠ job →
      later.workshop.manager.jobs.get? other = none)
    (expects : ∀ other entry, later.workshop.manager.jobs.get? other = some entry →
      Expects other entry past) : Accounts (joined job resource :: past) later := by
  refine ⟨ordered, fun other its => ?_, fun notice member other same => ?_,
    fun other its result member => ?_, fun other entry found => ?_, ?_, accounts.proper⟩
  · have landed : later.workshop.manager.Landed other its ↔
        traffic.workshop.manager.Landed other its := by
      unfold Manager.Landed
      rw [finished]
    have unchanged : Unreceived other its (joined job resource :: past) ↔
        Unreceived other its past :=
      forall_congr' fun _ => not_congr (List.mem_cons.trans (or_iff_right (by nofun)))
    have before := accounts.parts other its
    unfold Manager.Waits at before ⊢
    rw [flies, landed, or_assoc, before, unchanged]
    refine (or_congr_left ?_).trans or_and_right.symm
    exact ⟨fun same => ⟨same, same.1 ▸ unreceived its⟩, And.left⟩
  · rcases List.mem_cons.mp member with rfl | before
    · cases same
    · exact Nat.lt_of_lt_of_le (accounts.older notice before other same) nextJob
  · have before := (List.mem_cons.mp member).resolve_left (by nofun)
    obtain ⟨gone, alike⟩ := accounts.answered other its result before
    refine ⟨absent other gone fun here => unreceived its result (here ▸ before), ?_⟩
    rw [finished]
    exact alike
  · exact expects_cons (expects other entry found) nofun
  · rw [finished]
    exact fun compile member => settled_cons (accounts.settled compile member) nofun

/-- Something is noticed that makes no difference to who takes part and who has received. -/
structure Mild (notice : Notice) : Prop where
  takesPart : ∀ job resource past, TakesPart job resource (notice :: past) ↔
    TakesPart job resource past
  notReceived : ∀ job resource result, notice ≠ received job resource result

theorem mild_reported (job : JobId) (permutation : Permutation) :
    Mild (reported job permutation) := ⟨fun _ _ _ => Iff.rfl, fun _ _ _ => nofun⟩

theorem mild_expected (job : JobId) (permutations : List Permutation) :
    Mild (expected job permutations) := ⟨fun _ _ _ => Iff.rfl, fun _ _ _ => nofun⟩

theorem Mild.unreceived {notice : Notice} (mild : Mild notice) :
    Unreceived job resource (notice :: past) ↔ Unreceived job resource past :=
  forall_congr' fun _ => not_congr
    (List.mem_cons.trans (or_iff_right fun same => mild.notReceived _ _ _ same.symm))

theorem Mild.proper {notice : Notice} (mild : Mild notice) (proper : Proper past) :
    Proper (notice :: past) := by
  cases notice with
  | received job resource result => exact absurd rfl (mild.notReceived job resource result)
  | joined | cancelled | closed | expected | reported => exact proper

/-- A compile in flight is rewritten, for the same resources as before. -/
theorem revise {notice : Notice} {revised : InFlight} (accounts : Accounts past traffic)
    (ordered : later.Ordered) (found : traffic.workshop.manager.jobs.get? job = some entry)
    (resources : revised.resources = entry.resources)
    (jobs : later.workshop.manager.jobs = traffic.workshop.manager.jobs.insert job revised)
    (finished : later.workshop.manager.finished = traffic.workshop.manager.finished)
    (nextJob : later.workshop.manager.nextJob = traffic.workshop.manager.nextJob)
    (mild : Mild notice) (bound : ∀ other, notice.bound? = some other → other = job)
    (expects : Expects job revised (notice :: past)) : Accounts (notice :: past) later := by
  have regular := accounts.ordered.regular
  have written (other : JobId) : later.workshop.manager.jobs.get? other =
      if other = job then some revised else traffic.workshop.manager.jobs.get? other := by
    rw [jobs, Table.get?_insert]
  have silent {other : JobId} (different : other ≠ job) (permutations : List Permutation) :
      expected other permutations ≠ notice := fun same => different (bound other (same ▸ rfl))
  refine ⟨ordered, fun other its => ?_, fun notice' member other binds => ?_,
    fun other its result member => ?_, fun other entry' there => ?_, fun compile member => ?_,
    mild.proper accounts.proper⟩
  · have landed : later.workshop.manager.Landed other its ↔
        traffic.workshop.manager.Landed other its := by
      unfold Manager.Landed
      rw [finished]
    rw [mild.takesPart, mild.unreceived, ← accounts.parts other its]
    exact or_congr (Manager.flies_revise found resources written other) landed
  · rw [nextJob]
    rcases List.mem_cons.mp member with rfl | before
    · exact bound other binds ▸ (regular.underway job entry found).2.2
    · exact accounts.older notice' before other binds
  · have before := (List.mem_cons.mp member).resolve_left fun same =>
      mild.notReceived _ _ _ same.symm
    obtain ⟨gone, alike⟩ := accounts.answered other its result before
    have different : other ≠ job := fun here => nomatch (here ▸ gone).symm.trans found
    exact ⟨(written other).trans ((if_neg different).trans gone), finished ▸ alike⟩
  · have there := (written other).symm.trans there
    split at there
    · rename_i here
      cases there
      exact here ▸ expects
    · rename_i different
      exact expects_cons (accounts.expects other entry' there) (silent different)
  · rw [finished] at member
    refine settled_cons (accounts.settled compile member) (silent fun here => ?_)
    exact nomatch (here ▸ (regular.ended compile member).2.2.2).symm.trans found

/-- A compile in flight ends. Its result is left to all those who take part in it but for those who
have received it right then. -/
theorem file {heir : Option FinishedCompile} (accounts : Accounts past traffic)
    (ordered : later.Ordered) (found : traffic.workshop.manager.jobs.get? job = some entry)
    (jobs : later.workshop.manager.jobs = traffic.workshop.manager.jobs.erase job)
    (finished : later.workshop.manager.finished =
      traffic.workshop.manager.finished ++ heir.toList)
    (nextJob : later.workshop.manager.nextJob = traffic.workshop.manager.nextJob)
    (inert : ∀ other its, TakesPart other its (told ++ past) ↔ TakesPart other its past)
    (bound : ∀ notice ∈ told, ∀ other, notice.bound? = some other → other = job)
    (heirs : ∀ its, (∃ compile ∈ heir, its ∈ compile.resources) ↔
      its ∈ entry.resources ∧ ∀ result, received job its result ∉ told)
    (results : ∀ compile ∈ heir, compile.job = job ∧ Settled job compile.result (told ++ past) ∧
      ∀ its result, received job its result ∈ told → compile.result = result)
    (proper : Proper (told ++ past)) : Accounts (told ++ past) later := by
  have regular := accounts.ordered.regular
  have gone (other : JobId) : later.workshop.manager.jobs.get? other =
      if other = job then none else traffic.workshop.manager.jobs.get? other := by
    rw [jobs, Table.get?_erase]
  have silent {other : JobId} (different : other ≠ job) (permutations : List Permutation) :
      expected other permutations ∉ told := fun member => different (bound _ member other rfl)
  have elsewhere (compile : FinishedCompile)
      (member : compile ∈ traffic.workshop.manager.finished) : compile.job ≠ job := fun here =>
    nomatch (here ▸ (regular.ended compile member).2.2.2).symm.trans found
  refine ⟨ordered, fun other its => ?_, fun notice member other binds => ?_,
    fun other its result member => ?_, fun other revised there => ?_, fun compile member => ?_,
    proper⟩
  · refine (Manager.waits_file heir regular found jobs finished other).trans ?_
    rw [inert, unreceived_append, and_left_comm, ← accounts.parts other its]
    by_cases here : other = job
    · subst here
      rw [Manager.waits_of_found regular found its]
      refine Iff.trans ?_ ((heirs its).trans and_comm)
      refine (or_iff_right fun both => both.1 rfl).trans (exists_congr fun compile => ?_)
      exact and_congr_right fun same => and_iff_right (results compile same).1
    · have untold : ∀ result, received other its result ∉ told := fun result member =>
        here (bound _ member other rfl)
      refine (or_iff_left ?_).trans ((and_iff_right here).trans (and_iff_right untold).symm)
      exact fun ⟨compile, same, there, _⟩ => here (there.symm.trans (results compile same).1)
  · rw [nextJob]
    rcases List.mem_append.mp member with new | before
    · exact bound notice new other binds ▸ (regular.underway job entry found).2.2
    · exact accounts.older notice before other binds
  · rw [finished]
    rcases List.mem_append.mp member with new | before
    · obtain rfl := bound _ new other rfl
      refine ⟨(gone other).trans (if_pos rfl), fun compile there here => ?_⟩
      rcases List.mem_append.mp there with old | last
      · exact absurd here (elsewhere compile old)
      · exact (results compile (Option.mem_toList.mp last)).2.2 its result new
    · obtain ⟨absent, alike⟩ := accounts.answered other its result before
      refine ⟨(gone other).trans (by rw [absent, ite_self]), fun compile there here => ?_⟩
      rcases List.mem_append.mp there with old | last
      · exact alike compile old here
      · have same := (results compile (Option.mem_toList.mp last)).1
        exact nomatch (here.symm.trans same ▸ absent).symm.trans found
  · have there := (gone other).symm.trans there
    split at there
    · cases there
    · rename_i different
      exact expects_append (accounts.expects other revised there) (silent different)
  · rw [finished] at member
    rcases List.mem_append.mp member with old | last
    · exact settled_append (accounts.settled compile old) (silent (elsewhere compile old))
    · obtain ⟨here, settled, _⟩ := results compile (Option.mem_toList.mp last)
      exact here ▸ settled

/-- One compile takes in what it has been told, and ends if it has nothing to wait for. -/
theorem settle {workshop after : Workshop} {lowering calls : List (JobId × CompileRequest)}
    {due asked : List PermutationJob} {awaiting : List (JobId × ResourceId)} {notice : Notice}
    (accounts : Accounts past ⟨workshop, lowering, due, awaiting⟩) (held : List MapId)
    (revised : InFlight) (inbox : List PermutationResult)
    (ordered : Ordered ⟨after, calls, asked, awaiting⟩)
    (found : workshop.manager.jobs.get? job = some entry)
    (resources : revised.resources = entry.resources)
    (settled : after = (workshop.withInbox inbox).withEntry job revised ∨
      after = ((workshop.withInbox inbox).withEntry job revised).finalize held job revised ∧
        revised.profile.isSome ∧ revised.remaining = [] ∧ revised.lowering = false)
    (mild : Mild notice) (bound : ∀ other, notice.bound? = some other → other = job)
    (expects : Expects job revised (notice :: past)) :
    Accounts (notice :: past) ⟨after, calls, asked, awaiting⟩ := by
  rcases settled with rfl | ⟨rfl, profiled, arrived, lowered⟩
  · exact accounts.revise ordered found resources rfl rfl rfl mild bound expects
  · obtain ⟨next, result, same, _, compiled, ended⟩ := Workshop.finalize_ends
      ((workshop.withInbox inbox).withEntry job revised) held job revised profiled
    rw [ended] at ordered ⊢
    have unreceived (its : ResourceId) (result : Except CompileFailure SharedMap) :
        received job its result ∉ [notice] := fun member =>
      mild.notReceived _ _ _ (List.mem_singleton.mp member).symm
    have files : next.manager.finished ++ [⟨job, revised.identity, result, revised.resources⟩] =
        workshop.manager.finished ++ (some
          ⟨job, revised.identity, result, revised.resources⟩ : Option FinishedCompile).toList :=
      congrArg (· ++ _) same.finished
    change Accounts ([notice] ++ past) _
    refine accounts.file ordered found
      ((congrArg (Table.erase · job) same.jobs).trans (Table.erase_insert ..)) files same.nextJob
      (fun other its => mild.takesPart other its past)
      (fun _ member other binds => bound other (List.mem_singleton.mp member ▸ binds))
      (fun its => ?_) (fun compile member => ?_) (mild.proper accounts.proper)
    · rw [and_iff_left (unreceived its), ← resources]
      constructor
      · rintro ⟨_, same, there⟩
        cases Option.some.inj same
        exact there
      · exact fun there => ⟨_, rfl, there⟩
    · cases Option.some.inj member
      refine ⟨rfl, ?_, fun its result there => absurd there (unreceived its result)⟩
      obtain ⟨asked, covered⟩ := expects.2 lowered
      refine ⟨fun permutations asked permutation member => ?_, .inr asked⟩
      refine (covered permutations asked permutation member).resolve_left fun remains => ?_
      rw [arrived] at remains
      cases remains

variable {workshop next : Workshop} {lowering : List (JobId × CompileRequest)}
  {due : List PermutationJob} {awaiting : List (JobId × ResourceId)}

/-- While a material is being lowered nothing is known of its permutations. -/
theorem unexpected {before after : List (JobId × CompileRequest)} {request : CompileRequest}
    (accounts : Accounts past ⟨workshop, before ++ (job, request) :: after, due, awaiting⟩)
    (found : workshop.manager.jobs.get? job = some entry) (permutations : List Permutation) :
    expected job permutations ∉ past := by
  cases still : entry.lowering with
  | true => exact (accounts.expects job entry found).1 still permutations
  | false =>
    exact absurd Ordered.mem_lowerings ((accounts.ordered.underway job entry found).lowered still).1

theorem receive {held : List MapId} {result : PermutationResult} {rest : List PermutationResult}
    (accounts : Accounts past ⟨workshop, lowering, due, awaiting⟩)
    (arrived : workshop.manager.inbox = result :: rest) :
    Accounts (reported result.group result.permutation :: past)
      ⟨Workshop.receive held (workshop.withInbox rest) result, lowering, due, awaiting⟩ := by
  have ordered := accounts.ordered.receive held arrived
  cases found : workshop.manager.jobs.get? result.group with
  | none =>
    have discarded : Workshop.receive held (workshop.withInbox rest) result =
        workshop.withInbox rest := by
      unfold Workshop.receive
      rw [show (workshop.withInbox rest).manager.jobs.get? result.group = none from found]
    have mild := mild_reported result.group result.permutation
    rw [discarded] at ordered ⊢
    refine accounts.recede [reported result.group result.permutation] ordered (.congr rfl rfl rfl)
      (fun job resource => ?_) (by simp) (by simp) accounts.proper
    exact (accounts.parts job resource).trans
      (and_congr (mild.takesPart job resource past).symm mild.unreceived.symm)
  | some entry =>
    have underway := accounts.ordered.underway result.group entry found
    refine accounts.settle held (Workshop.record entry result) rest ordered found
      (InFlight.record_resources entry result) ?_
      (mild_reported _ _) nofun (expects_record (accounts.expects result.group entry found))
    unfold Workshop.receive
    rw [show (workshop.withInbox rest).manager.jobs.get? result.group = some entry from found]
    dsimp only
    split
    · rename_i last
      obtain ⟨none, lowered⟩ := Bool.and_eq_true_iff.mp last
      rw [Bool.not_eq_true'] at lowered
      obtain ⟨_, _, profiled, _⟩ :=
        underway.lowered (InFlight.record_lowering entry result ▸ lowered)
      exact .inr ⟨rfl, InFlight.record_profile entry result ▸ profiled, of_decide_eq_true none,
        lowered⟩
    · exact .inl rfl

theorem lowered {held : List MapId} {before after : List (JobId × CompileRequest)}
    {request : CompileRequest} {material : LoweredMaterial}
    (accounts : Accounts past ⟨workshop, before ++ (job, request) :: after, due, awaiting⟩)
    (lowers : workshop.lowered held job request.permutations material.profile = some next) :
    Accounts (expected job request.permutations :: past)
      ⟨next, before ++ after, Workshop.permutationJobs request job material.source ++ due,
        awaiting⟩ := by
  have ordered := accounts.ordered.lowered lowers
  obtain ⟨entry, found, settled⟩ := Option.map_eq_some_iff.mp lowers
  let expecting := Workshop.expecting entry request.permutations material.profile
  have expects : Expects job expecting (expected job request.permutations :: past) := by
    refine ⟨fun lowers => (nomatch lowers), fun _ => ⟨⟨_, List.mem_cons_self ..⟩, ?_⟩⟩
    intro permutations asks permutation member
    rcases List.mem_cons.mp asks with same | before
    · cases same
      exact .inl (List.mem_eraseDups.mpr member)
    · exact absurd before (accounts.unexpected found permutations)
  refine accounts.settle held expecting workshop.manager.inbox ordered found rfl ?_
    (mild_expected _ _) (fun other binds => (Option.some.inj binds).symm) expects
  dsimp only at settled
  split at settled
  · rename_i none
    exact .inr ⟨settled.symm, rfl, none, rfl⟩
  · exact .inl settled.symm

theorem begin (accounts : Accounts past ⟨workshop, lowering, due, awaiting⟩)
    (request : CompileRequest) (absent : workshop.manager.inFlight? request.identity = none) :
    Accounts (joined workshop.manager.nextJob request.resource :: past)
      ⟨workshop.begun request, (workshop.manager.nextJob, request) :: lowering, due,
        request.waits workshop.manager.nextJob ++ awaiting⟩ := by
  have jobs (other : JobId) : (workshop.begun request).manager.jobs.get? other =
      if other = workshop.manager.nextJob then some request.entry
      else workshop.manager.jobs.get? other := by
    rw [Workshop.begun_jobs, Table.get?_insert]
  have new (notice : Notice) (bound : notice.bound? = some workshop.manager.nextJob) :
      notice ∉ past := fun member =>
    absurd (accounts.older notice member _ bound) (Nat.lt_irrefl _)
  refine accounts.join (accounts.ordered.begin request absent) (fun other its => ?_)
    (Workshop.begun_finished workshop request) ?_ (fun its result => new _ rfl)
    (fun other gone different => (jobs other).trans ((if_neg different).trans gone))
    fun other entry found => ?_
  · unfold Manager.Flies
    dsimp only
    rw [jobs]
    by_cases here : other = workshop.manager.nextJob
    · subst here
      rw [if_pos rfl]
      constructor
      · rintro ⟨_, same, member⟩
        cases same
        exact .inl ⟨rfl, (List.mem_singleton.mp member).symm⟩
      · rintro (⟨_, rfl⟩ | ⟨_, there, _⟩)
        · exact ⟨_, rfl, List.mem_singleton_self _⟩
        · exact absurd rfl (accounts.ordered.regular.older there)
    · rw [if_neg here]
      exact ⟨.inr, fun either => either.resolve_left fun same => here same.1.symm⟩
  · dsimp only
    rw [Workshop.begun_nextJob]
    exact Nat.le_succ _
  · have found := (jobs other).symm.trans found
    split at found
    · rename_i here
      cases found
      exact ⟨fun _ permutations => here ▸ new _ rfl, fun lowered => by cases lowered⟩
    · exact accounts.expects other entry found

theorem attach {identity : MapIdentity}
    (accounts : Accounts past ⟨workshop, lowering, due, awaiting⟩) (resource : ResourceId)
    (found : workshop.manager.inFlight? identity = some job)
    (ordered : Ordered ⟨{ workshop with manager := workshop.manager.join job resource }, lowering,
      due, awaiting⟩) :
    Accounts (joined job resource :: past)
      ⟨{ workshop with manager := workshop.manager.join job resource }, lowering, due,
        awaiting⟩ := by
  have regular := accounts.ordered.regular
  have recedes := Manager.Recedes.join workshop.manager job resource
  obtain ⟨entry, flying, _⟩ := (regular.indexed identity job).mp found
  refine accounts.join ordered (fun other its => ?_) rfl (Nat.le_refl _)
    (fun its result received => ?_) (fun other gone _ => ?_) fun other revised there => ?_
  · exact Manager.flies_join regular found resource other
  · exact nomatch (accounts.answered job its result received).1.symm.trans flying
  · cases there : (workshop.manager.join job resource).jobs.get? other with
    | none => rfl
    | some revised =>
      obtain ⟨_, before⟩ := recedes.jobs other revised there
      exact nomatch gone.symm.trans before
  · obtain ⟨_, before⟩ := recedes.jobs other revised there
    have expects := accounts.expects other _ before
    exact ⟨expects.1, expects.2⟩

theorem cancel (accounts : Accounts past ⟨workshop, lowering, due, awaiting⟩)
    (leaving : ResourceId) (jobs : List JobId)
    (ordered : Ordered ⟨{ workshop with manager := workshop.manager.cancel leaving jobs },
      lowering, due, awaiting⟩) :
    Accounts (jobs.map (cancelled · leaving) ++ past)
      ⟨{ workshop with manager := workshop.manager.cancel leaving jobs }, lowering, due,
        awaiting⟩ := by
  have mild (job : JobId) (resource : ResourceId) (result : Except CompileFailure SharedMap) :
      received job resource result ∉ jobs.map (cancelled · leaving) := by simp
  refine accounts.recede _ ordered (.cancel _ leaving jobs) (fun job resource => ?_) (by simp)
    (fun job resource result member => absurd member (mild job resource result)) ?_
  · have unchanged : Unreceived job resource (jobs.map (cancelled · leaving) ++ past) ↔
        Unreceived job resource past := unreceived_append.trans (and_iff_right (mild job resource))
    refine (Manager.waits_cancel leaving jobs).trans ?_
    rw [accounts.parts job resource, takesPart_cancelled, unchanged]
    tauto
  · exact proper_append mild accounts.proper

theorem shutdown (accounts : Accounts past ⟨workshop, lowering, due, awaiting⟩)
    (ordered : Ordered ⟨{ workshop with manager := workshop.manager.shutdown }, lowering, due,
      awaiting⟩) :
    Accounts (closed :: past)
      ⟨{ workshop with manager := workshop.manager.shutdown }, lowering, due, awaiting⟩ := by
  refine accounts.recede [closed] ordered (.shutdown _) (fun job resource => ?_) (by simp)
    (by simp) accounts.proper
  refine ⟨fun waits => ?_, fun part => part.1.elim⟩
  rcases waits with ⟨_, found, _⟩ | ⟨_, member, _⟩
  · cases found
  · cases member

/-- Results are handed over to some of those who wait for them. -/
theorem handOver {left : FinishedCompile → List ResourceId}
    (accounts : Accounts past ⟨workshop, lowering, due, awaiting⟩)
    (ordered : Ordered ⟨{ workshop with manager := workshop.manager.limited left }, lowering, due,
      awaiting⟩)
    (only : ∀ notice ∈ told, ∃ job resource result, notice = received job resource result)
    (receipts : ∀ job resource result, received job resource result ∈ told ↔
      ∃ compile ∈ workshop.manager.finished, compile.job = job ∧ compile.result = result ∧
        resource ∈ compile.resources ∧ resource ∉ left compile)
    (fewer : ∀ compile ∈ workshop.manager.finished, left compile ⊆ compile.resources)
    (nodup : told.Nodup) :
    Accounts (told ++ past) ⟨{ workshop with manager := workshop.manager.limited left }, lowering,
      due, awaiting⟩ := by
  have regular := accounts.ordered.regular
  have single {compile other : FinishedCompile} (member : compile ∈ workshop.manager.finished)
      (there : other ∈ workshop.manager.finished) (same : other.job = compile.job) :
      other = compile := List.inj_on_of_nodup_map regular.single there member same
  refine accounts.recede _ ordered (.limited _ left) (fun job resource => ?_)
    (fun job permutations member => ?_) (fun job resource result member => ?_) ?_
  · rw [takesPart_receipts only, unreceived_append, and_left_comm, ← accounts.parts job resource]
    refine (or_congr Iff.rfl Manager.landed_limited).trans ⟨fun waits => ?_, fun waits => ?_⟩
    · rcases waits with ⟨entry, found, member⟩ | ⟨compile, there, rfl, member⟩
      · refine ⟨fun result told => ?_, .inl ⟨entry, found, member⟩⟩
        obtain ⟨compile, there, rfl, _⟩ := (receipts _ _ _).mp told
        exact nomatch (regular.ended compile there).2.2.2.symm.trans found
      · refine ⟨fun result told => ?_, .inr ⟨compile, there, rfl, fewer compile there member⟩⟩
        obtain ⟨other, also, same, _, _, gone⟩ := (receipts _ _ _).mp told
        exact gone (single there also same ▸ member)
    · obtain ⟨untold, flies | ⟨compile, there, rfl, member⟩⟩ := waits
      · exact .inl flies
      · refine .inr ⟨compile, there, rfl, ?_⟩
        by_contra gone
        exact untold compile.result ((receipts _ _ _).mpr ⟨compile, there, rfl, rfl, member, gone⟩)
  · obtain ⟨_, _, _, same⟩ := only _ member
    cases same
  · obtain ⟨compile, there, here, same, _⟩ := (receipts job resource result).mp member
    exact ⟨compile, there, here, same⟩
  · refine proper_receipts accounts.proper nodup (fun notice member => ?_)
      fun job resource other result different here there => ?_
    · obtain ⟨job, resource, result, rfl⟩ := only notice member
      obtain ⟨compile, there, rfl, rfl, waits, _⟩ := (receipts job resource result).mp member
      obtain ⟨part, unreceived⟩ := (accounts.parts compile.job resource).mp
        (.inr ⟨compile, there, rfl, waits⟩)
      refine ⟨compile.job, resource, compile.result, rfl, part, unreceived,
        accounts.settled compile there, fun other different before => ?_⟩
      exact ((accounts.answered _ other different before).2 compile there rfl).symm
    · obtain ⟨first, member, rfl, rfl, _⟩ := (receipts job resource result).mp here
      obtain ⟨second, also, same, rfl, _⟩ := (receipts _ other different).mp there
      rw [single member also same]

theorem deliver (accounts : Accounts past ⟨workshop, lowering, due, awaiting⟩)
    (ordered : Ordered ⟨{ workshop with manager := workshop.manager.deliver.2 }, lowering, due,
      awaiting⟩) :
    Accounts (workshop.manager.deliver.1.flatMap FinishedCompile.receipts ++ past)
      ⟨{ workshop with manager := workshop.manager.deliver.2 }, lowering, due, awaiting⟩ := by
  rw [Manager.deliver_eq] at ordered ⊢
  have regular := accounts.ordered.regular
  have parts (part : FinishedCompile) : part ∈ (workshop.manager.finished.filterMap fun compile =>
      compile.limit (compile.resources.filter fun resource =>
        (compile.job, resource) ∉ workshop.manager.waiters)) ↔
      ∃ compile ∈ workshop.manager.finished,
        (compile.resources.filter fun resource =>
          (compile.job, resource) ∉ workshop.manager.waiters) ≠ [] ∧
        part = { compile with resources := compile.resources.filter fun resource =>
          (compile.job, resource) ∉ workshop.manager.waiters } :=
    @Manager.mem_limited workshop.manager _ part
  refine accounts.handOver ordered (fun notice member => ?_) (fun job resource result => ?_)
    (fun compile _ => List.filter_sublist.subset) ?_
  · obtain ⟨part, _, there⟩ := List.mem_flatMap.mp member
    obtain ⟨resource, _, rfl⟩ := List.mem_map.mp there
    exact ⟨_, _, _, rfl⟩
  · rw [List.mem_flatMap]
    unfold FinishedCompile.receipts
    simp only [List.mem_map, parts, List.mem_filter, decide_eq_true_iff]
    constructor
    · rintro ⟨_, ⟨compile, member, _, rfl⟩, its, there, same⟩
      cases same
      obtain ⟨waits, apart⟩ := List.mem_filter.mp there
      exact ⟨compile, member, rfl, rfl, waits, fun both => of_decide_eq_true apart both.2⟩
    · rintro ⟨compile, member, rfl, rfl, waits, apart⟩
      have there : resource ∈ compile.resources.filter fun resource =>
          (compile.job, resource) ∉ workshop.manager.waiters :=
        List.mem_filter.mpr ⟨waits, decide_eq_true fun waiting => apart ⟨waits, waiting⟩⟩
      exact ⟨_, ⟨compile, member, List.ne_nil_of_mem there, rfl⟩, resource, there, rfl⟩
  · have left := regular.limited (fun compile => compile.resources.filter fun resource =>
      (compile.job, resource) ∉ workshop.manager.waiters) fun _ _ => List.filter_sublist
    refine List.nodup_flatMap.mpr ⟨fun part member => ?_, ?_⟩
    · exact (left.ended part member).2.1.map fun first second same => (Notice.received.inj same).2.1
    · refine (List.pairwise_map.mp left.single).imp fun different notice here there => ?_
      obtain ⟨_, _, rfl⟩ := List.mem_map.mp here
      obtain ⟨_, _, same⟩ := List.mem_map.mp there
      exact different (Notice.received.inj same).1.symm

theorem take (accounts : Accounts past ⟨workshop, lowering, due, awaiting⟩) (job : JobId)
    (resource : ResourceId)
    (ordered : Ordered ⟨{ workshop with manager := (workshop.manager.take job resource).2 },
      lowering, due, awaiting⟩) :
    Accounts ((workshop.manager.take job resource).1.toList.map (received job resource) ++ past)
      ⟨{ workshop with manager := (workshop.manager.take job resource).2 }, lowering, due,
        awaiting⟩ := by
  have regular := accounts.ordered.regular
  rcases regular.take_cases job resource with ⟨compile, member, here, there, same⟩ | ⟨_, same⟩
  · rw [same] at ordered ⊢
    refine accounts.handOver ordered (fun notice told => ?_) (fun other its result => ?_)
      (fun compile _ => (Manager.withdrawn_sublist resource [job] compile).subset)
      (List.nodup_singleton _)
    · exact ⟨job, resource, compile.result, List.mem_singleton.mp told⟩
    · have only : received other its result ∈ [received job resource compile.result] ↔
          other = job ∧ its = resource ∧ result = compile.result := by simp
      refine only.trans ⟨?_, ?_⟩
      · rintro ⟨rfl, rfl, rfl⟩
        refine ⟨compile, member, here, rfl, there, fun left => ?_⟩
        exact (Manager.mem_withdrawn.mp left).2 ⟨List.mem_singleton.mpr here, rfl⟩
      · rintro ⟨chosen, also, rfl, rfl, waits, gone⟩
        have taken := not_not.mp fun other => gone (Manager.mem_withdrawn.mpr ⟨waits, other⟩)
        have ofJob := List.mem_singleton.mp taken.1
        have same := List.inj_on_of_nodup_map regular.single also member (ofJob.trans here.symm)
        exact ⟨ofJob, taken.2, congrArg FinishedCompile.result same⟩
  · rw [same]
    exact accounts

theorem abort {before after : List (JobId × CompileRequest)}
    {first last : List (JobId × ResourceId)} {request : CompileRequest}
    (accounts : Accounts past ⟨workshop, before ++ (job, request) :: after, due,
      first ++ (request.waits job ++ last)⟩) (error : LoweringError) :
    Accounts (workshop.manager.refusal job request.resource error ++ past)
      ⟨{ workshop with manager := workshop.manager.abort job request.resource error },
        before ++ after, due, first ++ last⟩ := by
  have ordered := accounts.ordered.abort error
  cases found : workshop.manager.jobs.get? job with
  | none =>
    unfold Manager.refusal
    rw [Manager.abort_eq_none _ _ found] at ordered ⊢
    rw [found]
    exact accounts.still ordered rfl rfl rfl
  | some entry =>
    have told (notice : Notice) := (Manager.mem_refusal request.resource error found notice).mp
    have settled (part : List Notice) (silent : ∀ permutations, expected job permutations ∉ part) :
        Settled job (.error (.lowering error)) (part ++ past) := by
      refine ⟨fun permutations asked => absurd asked fun member => ?_, .inl ⟨error, rfl⟩⟩
      exact (List.mem_append.mp member).elim (silent permutations)
        (accounts.unexpected found permutations)
    rw [Manager.abort_eq_some _ _ found] at ordered ⊢
    refine accounts.file ordered found rfl rfl rfl
      (fun _ _ => takesPart_receipts fun notice member => ⟨_, _, _, (told notice member).2⟩)
      (fun notice member other binds => ?_)
      (Manager.exists_aborted request.resource error found) (fun compile left => ?_) ?_
    · rw [(told notice member).2] at binds
      exact (Option.some.inj binds).symm
    · obtain ⟨_, rfl⟩ := FinishedCompile.limit_eq_some.mp left
      refine ⟨rfl, settled _ fun _ member => ?_, fun its result member => ?_⟩
      · cases (told _ member).2
      · cases (told _ member).2
        rfl
    · refine proper_receipts accounts.proper (Manager.nodup_refusal ..) (fun notice member => ?_) ?_
      · obtain ⟨waits, rfl⟩ := told notice member
        obtain ⟨part, unreceived⟩ := (accounts.parts job request.resource).mp
          (.inl ⟨entry, found, waits⟩)
        refine ⟨_, _, _, rfl, part, unreceived, settled [] fun _ => List.not_mem_nil,
          fun other different before => ?_⟩
        exact nomatch (accounts.answered job other different before).1.symm.trans found
      · intro _ _ _ _ _ here there
        cases (told _ here).2
        cases (told _ there).2
        rfl

/-- Every move keeps the account. -/
theorem move (accounts : Accounts past traffic) (move : Move traffic told later) :
    Accounts (told ++ past) later := by
  have ordered := accounts.ordered.move move
  cases move with
  | aside aside => exact accounts.still ordered aside.jobs aside.finished aside.nextJob
  | begin request absent => exact accounts.begin request absent
  | join resource found => exact accounts.attach resource found ordered
  | wait | vanished | submit | unwait => exact accounts.still ordered rfl rfl rfl
  | abort => exact accounts.abort _
  | lowered held _ _ entered => exact accounts.lowered entered
  | @release workshop _ _ _ position =>
    obtain ⟨compiler, inbox, same⟩ := workshop.release_eq position
    rw [same] at ordered ⊢
    exact accounts.still ordered rfl rfl rfl
  | receive held arrived => exact accounts.receive arrived
  | deliver => exact accounts.deliver ordered
  | take job resource => exact accounts.take job resource ordered
  | cancel resource jobs => exact accounts.cancel resource jobs ordered
  | shutdown => exact accounts.shutdown ordered

theorem moves (accounts : Accounts past traffic) (moves : Moves traffic told later) :
    Accounts (told ++ past) later := by
  induction moves with
  | rest => exact accounts
  | next _ move inductionHypothesis =>
    rw [List.append_assoc]
    exact inductionHypothesis.move move

end Accounts

end Traffic

end Shading
