/-
What is under way while calls are in progress. A compile whose material is still
being lowered belongs to a call that is going to say which permutations it
needs; any other compile in flight has a permutation to wait for, and every
permutation it waits for is on its way: it is yet to be handed to the compiler,
or the compiler has it, or its result has arrived.
-/

import Shading.Proofs.Compile.Regular

namespace Shading

namespace InFlight

theorem record_resources (entry : InFlight) (result : PermutationResult) :
    (Workshop.record entry result).resources = entry.resources := by
  unfold Workshop.record
  cases result.outcome <;> rfl

theorem record_profile (entry : InFlight) (result : PermutationResult) :
    (Workshop.record entry result).profile = entry.profile := by
  unfold Workshop.record
  cases result.outcome <;> rfl

theorem record_remaining (entry : InFlight) (result : PermutationResult) :
    (Workshop.record entry result).remaining =
      entry.remaining.filter (· ≠ result.permutation) := by
  unfold Workshop.record
  cases result.outcome <;> rfl

end InFlight

namespace Workshop

variable {workshop : Workshop}

/-- Who waits once a request has been entered. -/
theorem begun_manager (workshop : Workshop) (request : CompileRequest) :
    (workshop.begun request).manager = { (workshop.manager.start request).2 with
      waiters := (request.waits workshop.manager.nextJob).foldl Manager.addOnce
        workshop.manager.waiters } := by
  unfold begun CompileRequest.waits
  dsimp only
  split <;> rfl

theorem begun_jobs (workshop : Workshop) (request : CompileRequest) :
    (workshop.begun request).manager.jobs =
      workshop.manager.jobs.insert workshop.manager.nextJob request.entry :=
  congrArg Manager.jobs (begun_manager workshop request)

theorem begun_finished (workshop : Workshop) (request : CompileRequest) :
    (workshop.begun request).manager.finished = workshop.manager.finished := by
  rw [begun_manager]
  rfl

theorem begun_nextJob (workshop : Workshop) (request : CompileRequest) :
    (workshop.begun request).manager.nextJob = workshop.manager.nextJob.next :=
  congrArg Manager.nextJob (begun_manager workshop request)

/-- A compile that has been lowered ends with a map or with errors, and nothing else that matters
to compiles changes. -/
theorem finalize_ends (workshop : Workshop) (held : List MapId) (job : JobId) (entry : InFlight)
    (profiled : entry.profile.isSome) :
    ∃ next result, workshop.Aside next ∧ result ≠ .error (.compile []) ∧
      (∀ error, result ≠ .error (.lowering error)) ∧
      workshop.finalize held job entry = next.conclude job entry result := by
  unfold finalize
  obtain ⟨profile, same⟩ := Option.isSome_iff_exists.mp profiled
  rw [same]
  dsimp only
  by_cases clean : entry.errors = []
  · rw [if_pos clean]
    have made : workshop.Aside (workshop.makeMap held entry profile).2 :=
      ⟨rfl, rfl, rfl, rfl, rfl, rfl, rfl⟩
    exact ⟨_, .ok (workshop.makeMap held entry profile).1, made, nofun, fun _ => nofun, rfl⟩
  · rw [if_neg clean]
    refine ⟨workshop, .error (.compile entry.errors), ⟨rfl, rfl, rfl, rfl, rfl, rfl, rfl⟩,
      fun same => clean ?_, fun _ => nofun, rfl⟩
    exact CompileFailure.compile.inj (Except.error.inj same)

end Workshop

namespace Traffic

variable {traffic later : Traffic} {job : JobId} {permutation : Permutation}

/-- The calls that are lowering a material, by the jobs they have begun. -/
def lowerings (traffic : Traffic) : List JobId := traffic.lowering.map Prod.fst

/-- A permutation has been asked for, or its result has arrived. -/
def Outstanding (traffic : Traffic) (job : JobId) (permutation : Permutation) : Prop :=
  (∃ asked ∈ traffic.due ++ traffic.workshop.compiler.waiting,
      asked.group = job ∧ asked.permutation = permutation) ∨
    ∃ result ∈ traffic.workshop.manager.inbox,
      result.group = job ∧ result.permutation = permutation

/-- What holds of a compile in flight. -/
structure Underway (traffic : Traffic) (job : JobId) (entry : InFlight) : Prop where
  lowering : entry.lowering = true → job ∈ traffic.lowerings
  lowered : entry.lowering = false → job ∉ traffic.lowerings ∧ entry.remaining ≠ [] ∧
    entry.profile.isSome ∧ ∀ permutation ∈ entry.remaining, traffic.Outstanding job permutation

/-- A job is neither in flight nor finished. -/
def Gone (traffic : Traffic) (job : JobId) : Prop :=
  traffic.workshop.manager.jobs.get? job = none ∧
    ∀ compile ∈ traffic.workshop.manager.finished, compile.job ≠ job

/-- What holds between any two moves. -/
structure Ordered (traffic : Traffic) : Prop where
  regular : traffic.workshop.manager.Regular
  underway : ∀ job entry, traffic.workshop.manager.jobs.get? job = some entry →
    traffic.Underway job entry
  single : traffic.lowerings.Nodup
  begun : ∀ job ∈ traffic.lowerings, job.number < traffic.workshop.manager.nextJob.number
  ended : ∀ compile ∈ traffic.workshop.manager.finished,
    compile.job ∉ traffic.lowerings ∧ compile.result ≠ .error (.compile [])
  withheld : ∀ waiter ∈ traffic.workshop.manager.waiters,
    waiter ∈ traffic.awaiting ∨ traffic.Gone waiter.1

theorem Fresh.ordered (fresh : traffic.Fresh) : traffic.Ordered := by
  obtain ⟨workshop, lowering, due, awaiting⟩ := traffic
  obtain ⟨manager, _, lowered, _, _⟩ := fresh
  dsimp only at manager lowered
  subst lowered
  refine ⟨?_, ?_, List.nodup_nil, fun _ member => (nomatch member), ?_, ?_⟩
  all_goals rw [manager]
  · exact Manager.regular_empty
  · exact fun _ _ found => nomatch found
  · exact fun _ member => nomatch member
  · exact fun _ member => nomatch member

/-! ### Moves that begin nothing and end nothing -/

namespace Ordered

theorem recede (ordered : traffic.Ordered) (regular : later.workshop.manager.Regular)
    (recedes : traffic.workshop.manager.Recedes later.workshop.manager)
    (fewer : later.lowerings.Sublist traffic.lowerings)
    (lowerings : ∀ job, (later.workshop.manager.jobs.get? job).isSome → job ∈ traffic.lowerings →
      job ∈ later.lowerings)
    (outstanding : ∀ job permutation, traffic.Outstanding job permutation →
      later.Outstanding job permutation)
    (withheld : ∀ waiter ∈ later.workshop.manager.waiters,
      waiter ∈ later.awaiting ∨ traffic.Gone waiter.1) : later.Ordered := by
  refine ⟨regular, fun job entry found => ?_, ordered.single.sublist fewer, fun job member => ?_,
    fun part member => ?_, fun waiter member => (withheld waiter member).imp_right fun gone => ?_⟩
  · obtain ⟨resources, before⟩ := recedes.jobs job entry found
    have underway := ordered.underway job _ before
    refine ⟨fun lowering => lowerings job (found ▸ rfl) (underway.lowering lowering),
      fun lowered => ?_⟩
    obtain ⟨apart, some, profiled, asked⟩ := underway.lowered lowered
    exact ⟨fun member => apart (fewer.subset member), some, profiled,
      fun permutation member => outstanding job permutation (asked permutation member)⟩
  · rw [recedes.nextJob]
    exact ordered.begun job (fewer.subset member)
  · obtain ⟨whole, before, sameJob, sameResult⟩ := recedes.finished part member
    obtain ⟨apart, genuine⟩ := ordered.ended whole before
    exact ⟨fun there => apart (sameJob ▸ fewer.subset there), sameResult ▸ genuine⟩
  · refine ⟨?_, fun part member here => ?_⟩
    · cases found : later.workshop.manager.jobs.get? waiter.1 with
      | none => rfl
      | some entry =>
        obtain ⟨resources, before⟩ := recedes.jobs waiter.1 entry found
        exact nomatch gone.1.symm.trans before
    · obtain ⟨whole, before, same, _⟩ := recedes.finished part member
      exact gone.2 whole before (same.symm.trans here)

variable {workshop next : Workshop} {lowering : List (JobId × CompileRequest)}
  {due : List PermutationJob} {awaiting : List (JobId × ResourceId)} {resource : ResourceId}
  {manager : Manager}

/-- The calls in progress stay what they are. -/
theorem quiet (ordered : Ordered ⟨workshop, lowering, due, awaiting⟩)
    (regular : next.manager.Regular) (recedes : workshop.manager.Recedes next.manager)
    (waiters : next.manager.waiters ⊆ workshop.manager.waiters)
    (inbox : next.manager.inbox = workshop.manager.inbox)
    (waiting : next.compiler.waiting = workshop.compiler.waiting) :
    Ordered ⟨next, lowering, due, awaiting⟩ := by
  refine ordered.recede regular recedes (List.Sublist.refl _) (fun _ _ member => member) ?_
    fun waiter member => ordered.withheld waiter (waiters member)
  unfold Outstanding
  dsimp only
  rw [inbox, waiting]
  exact fun _ _ => id

theorem aside (ordered : Ordered ⟨workshop, lowering, due, awaiting⟩)
    (aside : workshop.Aside next) : Ordered ⟨next, lowering, due, awaiting⟩ :=
  ordered.quiet
    (ordered.regular.congr aside.jobs aside.byIdentity aside.nextJob aside.finished
      (aside.waiters ▸ ordered.regular.numbered))
    (.congr aside.jobs aside.finished aside.nextJob) (aside.waiters ▸ List.Subset.refl _)
    aside.inbox aside.waiting

theorem number_lt_of_inFlight {identity : MapIdentity} (regular : workshop.manager.Regular)
    (found : workshop.manager.inFlight? identity = some job) :
    job.number < workshop.manager.nextJob.number := by
  obtain ⟨entry, there, _⟩ := (regular.indexed identity job).mp found
  exact (regular.underway job entry there).2.2

theorem wait {identity : MapIdentity} (ordered : Ordered ⟨workshop, lowering, due, awaiting⟩)
    (resource : ResourceId) (found : workshop.manager.inFlight? identity = some job) :
    Ordered ⟨{ workshop with manager := workshop.manager.addWaiter job resource }, lowering, due,
      (job, resource) :: awaiting⟩ := by
  refine ordered.recede
    (ordered.regular.addWaiter resource (number_lt_of_inFlight ordered.regular found))
    (.congr rfl rfl rfl) (List.Sublist.refl _) (fun _ _ member => member) (fun _ _ => id)
    fun waiter member => ?_
  rcases Manager.mem_addOnce.mp member with before | rfl
  · exact (ordered.withheld waiter before).imp_left (List.mem_cons_of_mem _)
  · exact .inl (List.mem_cons_self ..)

/-- Whoever is not waited for any longer may leave the list of those that are. -/
theorem mem_without (gone : List (JobId × ResourceId)) {first last : List (JobId × ResourceId)}
    {waiter : JobId × ResourceId} (member : waiter ∈ first ++ (gone ++ last))
    (other : waiter ∉ gone) : waiter ∈ first ++ last := by
  rcases List.mem_append.mp member with before | rest
  · exact List.mem_append_left _ before
  · exact List.mem_append_right _ ((List.mem_append.mp rest).resolve_left other)

theorem unwait {first last : List (JobId × ResourceId)}
    (ordered : Ordered ⟨workshop, lowering, due, first ++ (job, resource) :: last⟩) :
    Ordered ⟨{ workshop with manager := workshop.manager.removeWaiter job resource }, lowering,
      due, first ++ last⟩ := by
  refine ordered.recede (ordered.regular.removeWaiter job resource) (.congr rfl rfl rfl)
    (List.Sublist.refl _) (fun _ _ member => member) (fun _ _ => id) fun waiter member => ?_
  obtain ⟨before, different⟩ := List.mem_filter.mp member
  refine (ordered.withheld waiter before).imp_left fun there => ?_
  exact mem_without [(job, resource)] there
    (List.mem_singleton.not.mpr (of_decide_eq_true different))

/-- What was to be handed to the compiler now waits there or has been answered. -/
theorem submit {before after : List PermutationJob} {asked : PermutationJob}
    (ordered : Ordered ⟨workshop, lowering, before ++ asked :: after, awaiting⟩) :
    Ordered ⟨workshop.submit asked, lowering, before ++ after, awaiting⟩ := by
  refine ordered.recede (ordered.regular.congr rfl rfl rfl rfl ordered.regular.numbered)
    (.congr rfl rfl rfl) (List.Sublist.refl _) (fun _ _ member => member) ?_ ordered.withheld
  intro job permutation outstanding
  unfold Outstanding Workshop.submit Compiler.submit Workshop.arrive
  dsimp only
  rcases outstanding with ⟨other, there, asks⟩ | ⟨result, there, asks⟩
  · have cases : other = asked ∨ other ∈ before ++ after ++ workshop.compiler.waiting := by
      simp only [List.mem_append, List.mem_cons] at there ⊢
      tauto
    rcases cases with rfl | left
    · split
      · exact .inl ⟨other, by simp, asks⟩
      · exact .inr ⟨workshop.compiler.run other, by simp, asks⟩
    · refine .inl ⟨other, ?_, asks⟩
      split
      · rcases List.mem_append.mp left with yet | waits
        · exact List.mem_append_left _ yet
        · exact List.mem_append_right _ (List.mem_append_left _ waits)
      · exact left
  · refine .inr ⟨result, List.mem_append_left _ there, asks⟩

theorem release (ordered : Ordered ⟨workshop, lowering, due, awaiting⟩) (position : Option Nat) :
    Ordered ⟨(workshop.release position).2, lowering, due, awaiting⟩ := by
  have answers {compiler : Compiler} (answered : List PermutationJob)
      (parts : ∀ asked ∈ workshop.compiler.waiting, asked ∈ compiler.waiting ∨ asked ∈ answered) :
      Ordered ⟨{ workshop with compiler }.arrive (answered.map workshop.compiler.run), lowering,
        due, awaiting⟩ := by
    refine ordered.recede (ordered.regular.congr rfl rfl rfl rfl ordered.regular.numbered)
      (.congr rfl rfl rfl) (List.Sublist.refl _) (fun _ _ member => member) ?_ ordered.withheld
    intro job permutation outstanding
    rcases outstanding with ⟨asked, there, asks⟩ | ⟨result, there, asks⟩
    · rcases List.mem_append.mp there with yet | waits
      · exact .inl ⟨asked, List.mem_append_left _ yet, asks⟩
      · rcases parts asked waits with still | answer
        · exact .inl ⟨asked, List.mem_append_right _ still, asks⟩
        · exact .inr ⟨workshop.compiler.run asked,
            List.mem_append_right _ (List.mem_map_of_mem answer), asks⟩
    · exact .inr ⟨result, List.mem_append_left _ there, asks⟩
  unfold Workshop.release
  cases position with
  | none => exact answers workshop.compiler.waiting fun _ => .inr
  | some position =>
    unfold Compiler.release?
    dsimp only
    cases chosen : workshop.compiler.waiting[position]? with
    | none => exact ordered
    | some job =>
      refine answers [job] fun asked waits => ?_
      obtain ⟨inside, rfl⟩ := List.getElem?_eq_some_iff.mp chosen
      refine or_iff_not_imp_right.mpr fun other => ?_
      dsimp only
      refine (List.mem_eraseIdx_iff_getElem).mpr ?_
      obtain ⟨index, there, rfl⟩ := List.getElem_of_mem waits
      exact ⟨index, there, fun same => other (by simp [same]), rfl⟩

/-! ### Moves that begin or end a compile -/

/-- Every compile but one stays under way. -/
theorem underway_elsewhere (ordered : traffic.Ordered) {entry : InFlight}
    (found : traffic.workshop.manager.jobs.get? job = some entry)
    (lowerings : job ∈ later.lowerings ↔ job ∈ traffic.lowerings)
    (outstanding : ∀ permutation, traffic.Outstanding job permutation →
      later.Outstanding job permutation) : later.Underway job entry := by
  have underway := ordered.underway job entry found
  refine ⟨fun lowering => lowerings.mpr (underway.lowering lowering), fun lowered => ?_⟩
  obtain ⟨apart, some, profiled, asked⟩ := underway.lowered lowered
  exact ⟨fun member => apart (lowerings.mp member), some, profiled,
    fun permutation member => outstanding permutation (asked permutation member)⟩

theorem begin (ordered : Ordered ⟨workshop, lowering, due, awaiting⟩) (request : CompileRequest)
    (absent : workshop.manager.inFlight? request.identity = none) :
    Ordered ⟨workshop.begun request, (workshop.manager.nextJob, request) :: lowering, due,
      request.waits workshop.manager.nextJob ++ awaiting⟩ := by
  have jobs (other : JobId) : (workshop.begun request).manager.jobs.get? other =
      if other = workshop.manager.nextJob then some request.entry
      else workshop.manager.jobs.get? other := by
    rw [Workshop.begun_jobs, Table.get?_insert]
  have waiters (waiter : JobId × ResourceId)
      (member : waiter ∈ (workshop.begun request).manager.waiters) :
      waiter ∈ request.waits workshop.manager.nextJob ∨ waiter ∈ workshop.manager.waiters := by
    rw [Workshop.begun_manager] at member
    unfold CompileRequest.waits at member ⊢
    dsimp only at member
    split at member
    · rename_i synchronous
      rw [if_pos synchronous]
      rcases Manager.mem_addOnce.mp member with before | rfl
      · exact .inr before
      · exact .inl (List.mem_singleton_self _)
    · exact .inr member
  have started := ordered.regular.start request absent
  have new {job : JobId} (older : job.number < workshop.manager.nextJob.number) :
      job ≠ workshop.manager.nextJob := fun same => absurd older (same ▸ Nat.lt_irrefl _)
  refine ⟨?_, fun job entry found => ?_, ?_, fun job member => ?_, ?_, fun waiter member => ?_⟩
  · unfold Workshop.begun
    dsimp only
    split
    · exact started.addWaiter request.resource (Nat.lt_succ_self _)
    · exact started
  · have found := (jobs job).symm.trans found
    split at found
    · rename_i here
      cases found
      exact ⟨fun _ => here ▸ List.mem_cons_self .., fun lowered => by cases lowered⟩
    · rename_i elsewhere
      refine ordered.underway_elsewhere found ⟨fun member => ?_, List.mem_cons_of_mem _⟩ ?_
      · exact (List.mem_cons.mp member).resolve_left elsewhere
      · intro permutation outstanding
        have inbox : (workshop.begun request).manager.inbox = workshop.manager.inbox := by
          rw [Workshop.begun_manager]
          rfl
        unfold Outstanding
        dsimp only
        rw [inbox]
        exact outstanding
  · exact List.nodup_cons.mpr ⟨fun member => new (ordered.begun _ member) rfl, ordered.single⟩
  · dsimp only
    rw [Workshop.begun_nextJob]
    rcases List.mem_cons.mp member with rfl | before
    · exact Nat.lt_succ_self _
    · exact Nat.lt_succ_of_lt (ordered.begun job before)
  · dsimp only
    rw [Workshop.begun_finished]
    refine fun compile member => ⟨fun there => ?_, (ordered.ended compile member).2⟩
    rcases List.mem_cons.mp there with same | before
    · exact new (ordered.regular.ended compile member).2.2.1 same
    · exact (ordered.ended compile member).1 before
  · rcases waiters waiter member with waits | before
    · exact .inl (List.mem_append_left _ waits)
    · refine (ordered.withheld waiter before).imp (List.mem_append_right _) fun gone => ?_
      refine ⟨(jobs waiter.1).trans ?_, Workshop.begun_finished workshop request ▸ gone.2⟩
      rw [if_neg (new (ordered.regular.numbered waiter before))]
      exact gone.1

theorem mem_lowerings {before after : List (JobId × CompileRequest)} {request : CompileRequest} :
    job ∈ lowerings ⟨workshop, before ++ (job, request) :: after, due, awaiting⟩ :=
  List.mem_map.mpr ⟨(job, request), List.mem_append_right _ (List.mem_cons_self ..), rfl⟩

theorem sublist_lowerings (before after : List (JobId × CompileRequest))
    (call : JobId × CompileRequest) :
    ((before ++ after).map Prod.fst).Sublist ((before ++ call :: after).map Prod.fst) :=
  ((List.sublist_cons_self ..).append_left before).map Prod.fst

theorem mem_lowerings_split {before after : List (JobId × CompileRequest)}
    {request : CompileRequest}
    (single : (lowerings ⟨workshop, before ++ (job, request) :: after, due, awaiting⟩).Nodup) :
    ((before ++ after).map Prod.fst).Nodup ∧ job ∉ (before ++ after).map Prod.fst ∧
      ∀ other, other ≠ job →
        (other ∈ (before ++ after).map Prod.fst ↔
          other ∈ (before ++ (job, request) :: after).map Prod.fst) := by
  unfold lowerings at single
  dsimp only at single
  rw [List.map_append, List.map_cons, List.nodup_middle, List.nodup_cons, ← List.map_append]
    at single
  refine ⟨single.2, single.1, fun other different => ?_⟩
  simp [different]

/-- One compile in flight goes on or ends. -/
theorem turn (ordered : traffic.Ordered) (regular : later.workshop.manager.Regular)
    (revised : Option InFlight) (flying : (traffic.workshop.manager.jobs.get? job).isSome)
    (jobs : ∀ other, later.workshop.manager.jobs.get? other =
      if other = job then revised else traffic.workshop.manager.jobs.get? other)
    (underway : ∀ entry, revised = some entry → later.Underway job entry)
    (nextJob : later.workshop.manager.nextJob = traffic.workshop.manager.nextJob)
    (finished : ∀ compile ∈ later.workshop.manager.finished,
      compile ∈ traffic.workshop.manager.finished ∨
        compile.job = job ∧ job ∉ later.lowerings ∧ compile.result ≠ .error (.compile []))
    (fewer : later.lowerings.Sublist traffic.lowerings)
    (lowerings : ∀ other, other ≠ job → (other ∈ later.lowerings ↔ other ∈ traffic.lowerings))
    (outstanding : ∀ other permutation, other ≠ job → traffic.Outstanding other permutation →
      later.Outstanding other permutation)
    (withheld : ∀ waiter ∈ later.workshop.manager.waiters,
      waiter ∈ later.awaiting ∨ traffic.Gone waiter.1) : later.Ordered := by
  refine ⟨regular, fun other entry found => ?_, ordered.single.sublist fewer,
    fun other member => ?_, fun compile member => ?_,
    fun waiter member => (withheld waiter member).imp_right fun gone => ?_⟩
  · rw [jobs] at found
    split at found
    · rename_i here
      exact here ▸ underway entry found
    · rename_i different
      exact ordered.underway_elsewhere found (lowerings other different)
        fun permutation => outstanding other permutation different
  · rw [nextJob]
    exact ordered.begun other (fewer.subset member)
  · rcases finished compile member with before | ⟨same, apart, genuine⟩
    · obtain ⟨elsewhere, genuine⟩ := ordered.ended compile before
      exact ⟨fun there => elsewhere (fewer.subset there), genuine⟩
    · exact ⟨same ▸ apart, genuine⟩
  · have elsewhere : waiter.1 ≠ job := fun here => by
      rw [← here, gone.1] at flying
      cases flying
    refine ⟨(jobs waiter.1).trans ((if_neg elsewhere).trans gone.1), fun compile member here => ?_⟩
    rcases finished compile member with before | ⟨same, _⟩
    · exact gone.2 compile before here
    · exact elsewhere (here.symm.trans same)

theorem eq_of_mem_waits {request : CompileRequest} {waiter : JobId × ResourceId}
    (member : waiter ∈ request.waits job) : waiter = (job, request.resource) := by
  unfold CompileRequest.waits at member
  split at member
  · exact List.mem_singleton.mp member
  · cases member

theorem vanished {before after : List (JobId × CompileRequest)}
    {first last : List (JobId × ResourceId)} {request : CompileRequest}
    (ordered : Ordered ⟨workshop, before ++ (job, request) :: after, due,
      first ++ (request.waits job ++ last)⟩)
    (absent : workshop.manager.jobs.get? job = none) :
    Ordered ⟨workshop, before ++ after, due, first ++ last⟩ := by
  obtain ⟨_, _, others⟩ := mem_lowerings_split ordered.single
  refine ordered.recede ordered.regular (.refl _) (sublist_lowerings before after _) ?_
    (fun _ _ => id) fun waiter member => ?_
  · refine fun other flying => (others other fun same => ?_).mpr
    rw [same, absent] at flying
    cases flying
  · rcases ordered.withheld waiter member with there | gone
    · by_cases waits : waiter ∈ request.waits job
      · have here := congrArg Prod.fst (eq_of_mem_waits waits)
        refine .inr ⟨here ▸ absent, fun compile ended same => ?_⟩
        exact (ordered.ended compile ended).1 (same ▸ here ▸ mem_lowerings)
      · exact .inl (mem_without _ there waits)
    · exact .inr gone

theorem abort {before after : List (JobId × CompileRequest)}
    {first last : List (JobId × ResourceId)} {request : CompileRequest}
    (ordered : Ordered ⟨workshop, before ++ (job, request) :: after, due,
      first ++ (request.waits job ++ last)⟩) (error : LoweringError) :
    Ordered ⟨{ workshop with manager := workshop.manager.abort job request.resource error },
      before ++ after, due, first ++ last⟩ := by
  have regular := ordered.regular.abort job request.resource error
  obtain ⟨_, apart, others⟩ := mem_lowerings_split ordered.single
  have fewer := sublist_lowerings before after (job, request)
  have withheld (waiter : JobId × ResourceId)
      (member : waiter ∈ (workshop.manager.removeWaiter job request.resource).waiters) :
      waiter ∈ first ++ last ∨
        Gone ⟨workshop, before ++ (job, request) :: after, due,
          first ++ (request.waits job ++ last)⟩ waiter.1 := by
    obtain ⟨there, different⟩ := List.mem_filter.mp member
    refine (ordered.withheld waiter there).imp_left fun awaiting => ?_
    exact mem_without _ awaiting fun waits =>
      absurd (eq_of_mem_waits waits) (of_decide_eq_true different)
  cases found : workshop.manager.jobs.get? job with
  | none =>
    rw [Manager.abort_eq_none _ _ found] at regular ⊢
    refine ordered.recede regular (.congr rfl rfl rfl) fewer ?_ (fun _ _ => id) withheld
    refine fun other flying => (others other fun same => ?_).mpr
    change (workshop.manager.jobs.get? other).isSome at flying
    rw [same, found] at flying
    cases flying
  | some entry =>
    rw [Manager.abort_eq_some _ _ found] at regular ⊢
    refine ordered.turn regular none (found ▸ rfl) (Table.get?_erase _ job) nofun rfl
      (fun compile member => ?_) fewer others (fun _ _ _ => id) withheld
    refine (List.mem_append.mp member).imp_right fun heirs => ?_
    obtain ⟨_, rfl⟩ := FinishedCompile.limit_eq_some.mp (Option.mem_toList.mp heirs)
    exact ⟨rfl, apart, nofun⟩

/-- One compile takes in what it has been told, and ends if it has nothing to wait for. -/
theorem settle {entry : InFlight} {after : Workshop} {calls : List (JobId × CompileRequest)}
    {asked : List PermutationJob} (ordered : Ordered ⟨workshop, lowering, due, awaiting⟩)
    (held : List MapId) (revised : InFlight) (inbox : List PermutationResult)
    (found : workshop.manager.jobs.get? job = some entry)
    (same : revised.identity = entry.identity) (resources : revised.resources = entry.resources)
    (settled : after = (workshop.withInbox inbox).withEntry job revised ∧
        Underway ⟨workshop.withInbox inbox, calls, asked, awaiting⟩ job revised ∨
      after = ((workshop.withInbox inbox).withEntry job revised).finalize held job revised ∧
        revised.profile.isSome ∧ job ∉ calls.map Prod.fst)
    (fewer : (calls.map Prod.fst).Sublist (lowering.map Prod.fst))
    (lowerings : ∀ other, other ≠ job →
      (other ∈ calls.map Prod.fst ↔ other ∈ lowering.map Prod.fst))
    (outstanding : ∀ other permutation, other ≠ job →
      Outstanding ⟨workshop, lowering, due, awaiting⟩ other permutation →
      Outstanding ⟨workshop.withInbox inbox, calls, asked, awaiting⟩ other permutation) :
    Ordered ⟨after, calls, asked, awaiting⟩ := by
  have jobs (other : JobId) := Table.get?_insert workshop.manager.jobs job other revised
  obtain ⟨some, nodup, _⟩ := ordered.regular.underway job entry found
  have written := ordered.regular.revise found same (resources ▸ some) (resources ▸ nodup)
  rcases settled with ⟨rfl, underway⟩ | ⟨rfl, profiled, apart⟩
  · refine ordered.turn (written.congr rfl rfl rfl rfl written.numbered) _ (found ▸ rfl) jobs ?_ rfl
      (fun _ => .inl) fewer lowerings outstanding ordered.withheld
    exact fun entry same => Option.some.inj same ▸ ⟨underway.lowering, underway.lowered⟩
  · obtain ⟨next, result, aside, genuine, _, ended⟩ := Workshop.finalize_ends
      ((workshop.withInbox inbox).withEntry job revised) held job revised profiled
    have kept := written.congr aside.jobs aside.byIdentity aside.nextJob aside.finished
      (aside.waiters ▸ written.numbered)
    have there : next.manager.jobs.get? job = .some revised := by
      rw [aside.jobs]
      exact (jobs job).trans (if_pos rfl)
    rw [ended]
    refine ordered.turn (kept.file there rfl (resources ▸ some)
      (resources ▸ nodup) result) none (found ▸ rfl) (fun other => ?_) nofun aside.nextJob
      (fun compile member => ?_) fewer lowerings (fun other permutation different left => ?_) ?_
    · refine (Table.get?_erase ..).trans ?_
      rw [aside.jobs]
      split
      · rfl
      · rename_i elsewhere
        exact (jobs other).trans (if_neg elsewhere)
    · rcases Workshop.mem_finished_conclude member with before | rfl
      · exact .inl (aside.finished ▸ before)
      · exact .inr ⟨rfl, apart, genuine⟩
    · have still := outstanding other permutation different left
      unfold Outstanding at still ⊢
      show (∃ asking ∈ asked ++ next.compiler.waiting, _) ∨ ∃ result ∈ next.manager.inbox, _
      rw [aside.waiting, aside.inbox]
      exact still
    · show ∀ waiter ∈ next.manager.waiters, _
      rw [aside.waiters]
      exact ordered.withheld

theorem receive {result : PermutationResult} {rest : List PermutationResult}
    (ordered : Ordered ⟨workshop, lowering, due, awaiting⟩) (held : List MapId)
    (arrived : workshop.manager.inbox = result :: rest) :
    Ordered ⟨Workshop.receive held (workshop.withInbox rest) result, lowering, due, awaiting⟩ := by
  have outstanding (job : JobId) (permutation : Permutation)
      (other : result.group = job → result.permutation ≠ permutation)
      (left : Outstanding ⟨workshop, lowering, due, awaiting⟩ job permutation) :
      Outstanding ⟨workshop.withInbox rest, lowering, due, awaiting⟩ job permutation := by
    refine left.imp_right fun ⟨answer, there, asks⟩ => ⟨answer, ?_, asks⟩
    dsimp only at there
    rw [arrived] at there
    refine (List.mem_cons.mp there).resolve_left fun same => ?_
    rw [same] at asks
    exact other asks.1 asks.2
  have discarded (job : JobId) (permutation : Permutation) (different : job ≠ result.group) :=
    outstanding job permutation fun same => absurd same.symm different
  unfold Workshop.receive
  cases found : workshop.manager.jobs.get? result.group with
  | none =>
    have absent : (workshop.withInbox rest).manager.jobs.get? result.group = none := found
    rw [absent]
    refine ⟨ordered.regular.congr rfl rfl rfl rfl ordered.regular.numbered,
      fun job entry there => ?_, ordered.single, ordered.begun, ordered.ended, ordered.withheld⟩
    have different : job ≠ result.group := fun same => nomatch (same ▸ found).symm.trans there
    exact ordered.underway_elsewhere there Iff.rfl fun permutation =>
      discarded job permutation different
  | some entry =>
    have there : (workshop.withInbox rest).manager.jobs.get? result.group = some entry := found
    rw [there]
    have underway := ordered.underway result.group entry found
    have lowering := InFlight.record_lowering entry result
    dsimp only
    refine ordered.settle held _ rest found (InFlight.record_identity entry result)
      (InFlight.record_resources entry result) ?_ (List.Sublist.refl _) (fun _ _ => Iff.rfl)
      fun job permutation different => discarded job permutation different
    split
    · rename_i last
      obtain ⟨_, lowered⟩ := Bool.and_eq_true_iff.mp last
      rw [Bool.not_eq_true', lowering] at lowered
      obtain ⟨apart, _, profiled, _⟩ := underway.lowered lowered
      exact .inr ⟨rfl, InFlight.record_profile entry result ▸ profiled, apart⟩
    · rename_i more
      refine .inl ⟨rfl, fun lowers => underway.lowering (lowering ▸ lowers), fun lowered => ?_⟩
      obtain ⟨apart, _, profiled, asked⟩ := underway.lowered (lowering ▸ lowered)
      refine ⟨apart, fun none => more ?_, InFlight.record_profile entry result ▸ profiled,
        fun permutation member => ?_⟩
      · rw [lowered, none]
        rfl
      · rw [InFlight.record_remaining] at member
        obtain ⟨before, other⟩ := List.mem_filter.mp member
        exact outstanding result.group permutation
          (fun _ same => of_decide_eq_true other same.symm) (asked permutation before)

theorem lowered {held : List MapId} {before after : List (JobId × CompileRequest)}
    {request : CompileRequest} {material : LoweredMaterial}
    (ordered : Ordered ⟨workshop, before ++ (job, request) :: after, due, awaiting⟩)
    (lowers : workshop.lowered held job request.permutations material.profile = some next) :
    Ordered ⟨next, before ++ after,
      Workshop.permutationJobs request job material.source ++ due, awaiting⟩ := by
  obtain ⟨entry, found, settled⟩ := Option.map_eq_some_iff.mp lowers
  obtain ⟨_, apart, others⟩ := mem_lowerings_split ordered.single
  let expected := Workshop.expecting entry request.permutations material.profile
  refine ordered.settle held expected workshop.manager.inbox
    found rfl rfl ?_ (sublist_lowerings before after _) others fun other permutation _ left => ?_
  · dsimp only at settled
    split at settled
    · exact .inr ⟨settled.symm, rfl, apart⟩
    · rename_i some
      have lowered : expected.lowering = false := rfl
      refine .inl ⟨settled.symm, fun lowers => absurd lowers (Bool.eq_false_iff.mp lowered),
        fun _ => ⟨apart, some, rfl, fun permutation member => ?_⟩⟩
      have asked := List.mem_eraseDups.mp member
      exact .inl ⟨_, List.mem_append_left _ (List.mem_append_left _ (List.mem_map_of_mem asked)),
        rfl, rfl⟩
  · refine left.imp_left ?_
    rintro ⟨asked, there, asks⟩
    refine ⟨asked, ?_, asks⟩
    rcases List.mem_append.mp there with yet | waits
    · exact List.mem_append_left _ (List.mem_append_right _ yet)
    · exact List.mem_append_right _ waits

/-- Every move keeps the order. -/
theorem move {told : List Notice} (ordered : traffic.Ordered) (move : Move traffic told later) :
    later.Ordered := by
  cases move with
  | aside aside => exact ordered.aside aside
  | begin request absent => exact ordered.begin request absent
  | join resource found =>
    exact ordered.quiet (ordered.regular.join _ resource) (.join _ _ resource)
      (List.Subset.refl _) rfl rfl
  | wait resource found => exact ordered.wait resource found
  | abort _ _ lowers => exact ordered.abort _
  | lowered held _ lowers entered => exact ordered.lowered entered
  | vanished _ _ lowers absent => exact ordered.vanished absent
  | submit job => exact ordered.submit
  | release position => exact ordered.release position
  | receive held arrived => exact ordered.receive held arrived
  | deliver => exact ordered.quiet ordered.regular.deliver (.deliver _) (List.Subset.refl _) rfl rfl
  | @take workshop _ _ _ job resource =>
    obtain ⟨waiters, inbox⟩ := workshop.manager.mail_take job resource
    exact ordered.quiet (ordered.regular.take job resource) (.take ordered.regular job resource)
      (waiters ▸ List.Subset.refl _) inbox rfl
  | unwait => exact ordered.unwait
  | @cancel workshop _ _ _ resource jobs =>
    obtain ⟨waiters, inbox⟩ := workshop.manager.mail_cancel resource jobs
    exact ordered.quiet (ordered.regular.cancel resource jobs) (.cancel _ resource jobs)
      (waiters ▸ List.Subset.refl _) inbox rfl
  | shutdown =>
    exact ordered.quiet (.shutdown _) (.shutdown _) (List.nil_subset _) rfl rfl

theorem moves {told : List Notice} (ordered : traffic.Ordered) (moves : Moves traffic told later) :
    later.Ordered := by
  induction moves with
  | rest => exact ordered
  | next _ move inductionHypothesis => exact inductionHypothesis.move move

end Ordered

/-! ### Requests that fail -/

/-- What a manager knows of compiles and of those who wait for them. -/
structure SameCompiles (manager later : Manager) : Prop where
  jobs : later.jobs = manager.jobs
  byIdentity : later.byIdentity = manager.byIdentity
  finished : later.finished = manager.finished
  waiters : later.waiters = manager.waiters

/-- A compile that has been begun and is aborted at once leaves no trace. -/
theorem sameCompiles_of_failure {α : Type} {workshop : Workshop} {held : List MapId}
    {request : CompileRequest} {whileLowering afterFirst : Workshop.Meanwhile α}
    {error : LoweringError} (regular : workshop.manager.Regular)
    (calm : ∀ workshop, SameCompiles workshop.manager (whileLowering workshop).2.manager)
    (failed : (workshop.begin held request whileLowering afterFirst).1 = .error error) :
    SameCompiles workshop.manager
      (workshop.begin held request whileLowering afterFirst).2.2.manager := by
  unfold Workshop.begin at failed ⊢
  cases absent : workshop.manager.inFlight? request.identity with
  | some job =>
    rw [absent] at failed
    cases failed
  | none =>
    rw [absent] at failed
    dsimp only at failed ⊢
    cases lowers : request.variant.lower with
    | ok material =>
      rw [lowers] at failed
      cases failed
    | error error =>
      have besides := calm (workshop.begun request)
      have entered := besides.jobs.trans (Workshop.begun_jobs workshop request)
      have found : (whileLowering (workshop.begun request)).2.manager.jobs.get?
          workshop.manager.nextJob = some request.entry := by
        rw [entered, Table.get?_insert, if_pos rfl]
      have unknown : (workshop.manager.nextJob, request.resource) ∉ workshop.manager.waiters :=
        fun member => absurd (regular.numbered _ member) (Nat.lt_irrefl _)
      have new : workshop.manager.jobs.get? workshop.manager.nextJob = none := by
        cases older : workshop.manager.jobs.get? workshop.manager.nextJob with
        | none => rfl
        | some entry => exact absurd rfl (regular.older older)
      have nobody : Manager.aborted workshop.manager.nextJob request.resource error request.entry =
          none := by
        unfold Manager.aborted FinishedCompile.limit
        exact if_pos (by simp [CompileRequest.entry])
      dsimp only
      show SameCompiles workshop.manager
        ((whileLowering (workshop.begun request)).2.manager.abort workshop.manager.nextJob
          request.resource error)
      rw [Manager.abort_eq_some request.resource error found, nobody]
      refine ⟨?_, ?_, ?_, ?_⟩
      · show (whileLowering (workshop.begun request)).2.manager.jobs.erase _ = _
        rw [entered, Table.erase_insert, Table.erase_of_get?_eq_none new]
      · show (whileLowering (workshop.begun request)).2.manager.byIdentity.erase _ = _
        rw [besides.byIdentity, Workshop.begun_manager]
        exact (Table.erase_insert ..).trans (Table.erase_of_get?_eq_none absent)
      · show (whileLowering (workshop.begun request)).2.manager.finished ++ [] = _
        rw [besides.finished, Workshop.begun_finished, List.append_nil]
      · show (whileLowering (workshop.begun request)).2.manager.waiters.filter
          (· ≠ (workshop.manager.nextJob, request.resource)) = _
        rw [besides.waiters, Workshop.begun_manager]
        unfold CompileRequest.waits
        dsimp only
        split
        · exact Manager.filter_addOnce unknown
        · exact Manager.filter_ne_self unknown

/-- Compiles in flight and their identities belong to each other, whatever calls are in progress:
somebody waits for each, nobody twice, and unless its material is still being lowered it has a
permutation to wait for. Whatever is finished is waited for and no longer in flight. And a request
that fails leaves no trace of it, unless others have done something meanwhile. -/
theorem compiles_intact {start traffic : Traffic} {told : List Notice} (fresh : start.Fresh)
    (moves : Moves start told traffic) :
    let manager := traffic.workshop.manager
    (∀ identity job, manager.inFlight? identity = some job ↔
      ∃ entry, manager.jobs.get? job = some entry ∧ entry.identity = identity) ∧
    (∀ job other entry found, manager.jobs.get? job = some entry →
      manager.jobs.get? other = some found → entry.identity = found.identity → job = other) ∧
    (∀ job entry, manager.jobs.get? job = some entry →
      entry.resources ≠ [] ∧ entry.resources.Nodup ∧
        (job ∉ traffic.lowerings → entry.remaining ≠ [])) ∧
    (∀ compile ∈ manager.finished,
      compile.resources ≠ [] ∧ manager.jobs.get? compile.job = none) ∧
    ∀ {α : Type} (held : List MapId) (request : CompileRequest)
      (whileLowering afterFirst : Workshop.Meanwhile α) (error : LoweringError),
      (∀ workshop, SameCompiles workshop.manager (whileLowering workshop).2.manager) →
      (traffic.workshop.begin held request whileLowering afterFirst).1 = .error error →
      SameCompiles manager
        (traffic.workshop.begin held request whileLowering afterFirst).2.2.manager := by
  have ordered := fresh.ordered.moves moves
  have regular := ordered.regular
  refine ⟨regular.indexed, fun job other entry found there here same => ?_,
    fun job entry there => ?_, fun compile member => ?_,
    fun held request whileLowering afterFirst error calm failed =>
      sameCompiles_of_failure regular calm failed⟩
  · have first := (regular.indexed entry.identity job).mpr ⟨entry, there, rfl⟩
    have second := (regular.indexed entry.identity other).mpr ⟨found, here, same.symm⟩
    exact Option.some.inj (first.symm.trans second)
  · obtain ⟨some, nodup, _⟩ := regular.underway job entry there
    refine ⟨some, nodup, fun lowered => ?_⟩
    have underway := ordered.underway job entry there
    cases lowering : entry.lowering with
    | true => exact absurd (underway.lowering lowering) lowered
    | false => exact (underway.lowered lowering).2.1
  · obtain ⟨some, _, _, gone⟩ := regular.ended compile member
    exact ⟨some, gone⟩

/-- A request for the material that says nothing. -/
def bareRequest : CompileRequest :=
  { identity := default, variant := default, permutations := [default], resource := .first }

/-- A compile that has been begun and joined. -/
def sharedCompile : Workshop :=
  let begun := ({} : Workshop).begun bareRequest
  { begun with manager := begun.manager.join .first (.next .first) }

theorem sharedCompile_moves : Moves { workshop := {} }
    [.joined .first (.next .first), .joined .first .first]
    { workshop := sharedCompile, lowering := [(.first, bareRequest)] } := by
  have begun : Moves { workshop := {} } [.joined .first .first] _ :=
    .next (.rest _) (.begin bareRequest rfl)
  have flying : (({} : Workshop).begun bareRequest).manager.inFlight? bareRequest.identity =
      some .first := rfl
  exact begun.next (.join (.next .first) flying)

/-- Once its material has been lowered, a compile that two resources share has a permutation to
wait for. -/
theorem sharedCompile_intact : ∃ told traffic entry, Moves { workshop := {} } told traffic ∧
    traffic.workshop.manager.jobs.get? .first = some entry ∧
    traffic.workshop.manager.inFlight? entry.identity = some .first ∧
    entry.resources = [.first, .next .first] ∧ entry.resources.Nodup ∧ entry.remaining ≠ [] := by
  have lowers : (bareRequest.variant.lower).toOption.isSome := by decide
  obtain ⟨material, lowers⟩ := Option.isSome_iff_exists.mp lowers
  have lowered := sharedCompile_moves.next
    (.lowered [] [] (toOption_eq_some.mp lowers) rfl)
  obtain ⟨indexed, _, underway, _⟩ := compiles_intact ⟨rfl, rfl, rfl, rfl, rfl⟩ lowered
  obtain ⟨_, nodup, waits⟩ := underway .first _ rfl
  exact ⟨_, _, _, lowered, rfl, (indexed _ _).mpr ⟨_, rfl, rfl⟩, rfl, nodup,
    waits List.not_mem_nil⟩

end Traffic

end Shading
