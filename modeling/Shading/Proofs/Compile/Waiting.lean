/-
What is noticed of compiles, and who waits for them. A resource takes part in a
job once it has joined it and until it withdraws; it waits for the job as long
as the job is in flight for it or has a result for it. The operations of a
manager are told here by what they do to those who wait.
-/

import Shading.Proofs.Compile.Underway

namespace Shading

/-! ### What is noticed -/

namespace Notice

/-- The job that something has been said about for good. -/
def bound? : Notice → Option JobId
  | expected job _ | received job _ _ => some job
  | joined _ _ | cancelled _ _ | closed | reported _ _ => none

variable (job : JobId) (resource : ResourceId)

/-- The resource has joined the job, and since then it has not withdrawn and not everything has
been dropped. The notices are given with the latest first. -/
def TakesPart : List Notice → Prop
  | [] => False
  | joined other its :: past => (other = job ∧ its = resource) ∨ TakesPart past
  | cancelled other its :: past => ¬(other = job ∧ its = resource) ∧ TakesPart past
  | closed :: _ => False
  | expected _ _ :: past | reported _ _ :: past | received _ _ _ :: past => TakesPart past

/-- All permutations that the job needs have reported, and they are known unless its material
could not be lowered. -/
def Settled (result : Except CompileFailure SharedMap) (past : List Notice) : Prop :=
  (∀ permutations, expected job permutations ∈ past →
    ∀ permutation ∈ permutations, reported job permutation ∈ past) ∧
    ((∃ error, result = .error (.lowering error)) ∨
      ∃ permutations, expected job permutations ∈ past)

def Unreceived (past : List Notice) : Prop := ∀ result, received job resource result ∉ past

/-- Nobody has received anything else for the job. -/
def Alike (result : Except CompileFailure SharedMap) (past : List Notice) : Prop :=
  ∀ other different, received job other different ∈ past → different = result

/-- Results are received only by those who take part, once, when everything has reported, and
they are the same for all. -/
def Proper : List Notice → Prop
  | [] => True
  | received job resource result :: past =>
    (TakesPart job resource past ∧ Unreceived job resource past ∧ Settled job result past ∧
      Alike job result past) ∧ Proper past
  | _ :: past => Proper past

variable {job resource} {told past : List Notice} {result : Except CompileFailure SharedMap}

theorem unreceived_append : Unreceived job resource (told ++ past) ↔
    (∀ result, received job resource result ∉ told) ∧ Unreceived job resource past := by
  unfold Unreceived
  simp only [List.mem_append, not_or, forall_and]

theorem settled_append (settled : Settled job result past)
    (silent : ∀ permutations, expected job permutations ∉ told) :
    Settled job result (told ++ past) := by
  refine ⟨fun permutations asked permutation member => ?_, settled.2.imp_right ?_⟩
  · have before := (List.mem_append.mp asked).resolve_left (silent permutations)
    exact List.mem_append_right _ (settled.1 permutations before permutation member)
  · exact fun ⟨permutations, asked⟩ => ⟨permutations, List.mem_append_right _ asked⟩

theorem settled_cons {notice : Notice} (settled : Settled job result past)
    (silent : ∀ permutations, expected job permutations ≠ notice) :
    Settled job result (notice :: past) :=
  settled_append settled fun permutations same =>
    silent permutations (List.mem_singleton.mp same)

theorem takesPart_append (inert : ∀ notice ∈ told, ∀ past,
    TakesPart job resource (notice :: past) ↔ TakesPart job resource past) :
    TakesPart job resource (told ++ past) ↔ TakesPart job resource past := by
  induction told with
  | nil => exact Iff.rfl
  | cons first rest inductionHypothesis =>
    exact (inert first (List.mem_cons_self ..) _).trans
      (inductionHypothesis fun notice member => inert notice (List.mem_cons_of_mem _ member))

/-- Results that are received make no difference to who takes part. -/
theorem takesPart_receipts (receipts : ∀ notice ∈ told, ∃ job resource result,
    notice = received job resource result) :
    TakesPart job resource (told ++ past) ↔ TakesPart job resource past := by
  refine takesPart_append fun notice member past => ?_
  obtain ⟨_, _, _, rfl⟩ := receipts notice member
  exact Iff.rfl

theorem takesPart_cancelled (jobs : List JobId) (leaving : ResourceId) :
    TakesPart job resource (jobs.map (cancelled · leaving) ++ past) ↔
      ¬(job ∈ jobs ∧ resource = leaving) ∧ TakesPart job resource past := by
  induction jobs with
  | nil => simp
  | cons first rest inductionHypothesis =>
    refine (and_congr_right fun _ => inductionHypothesis).trans ?_
    rw [List.mem_cons]
    tauto

theorem proper_append (mild : ∀ job resource result, received job resource result ∉ told)
    (proper : Proper past) : Proper (told ++ past) := by
  induction told with
  | nil => exact proper
  | cons first rest inductionHypothesis =>
    have rest := inductionHypothesis fun job resource result member =>
      mild job resource result (List.mem_cons_of_mem _ member)
    cases first with
    | received job resource result =>
      exact absurd (List.mem_cons_self ..) (mild job resource result)
    | joined | cancelled | closed | expected | reported => exact rest

/-- Several results are received at once. -/
theorem proper_receipts (proper : Proper past) (nodup : told.Nodup)
    (each : ∀ notice ∈ told, ∃ job resource result, notice = received job resource result ∧
      TakesPart job resource past ∧ Unreceived job resource past ∧ Settled job result past ∧
        Alike job result past)
    (alike : ∀ job resource other result different, received job resource result ∈ told →
      received job other different ∈ told → different = result) : Proper (told ++ past) := by
  induction told with
  | nil => exact proper
  | cons first rest inductionHypothesis =>
    obtain ⟨new, nodup⟩ := List.nodup_cons.mp nodup
    have earlier : ∀ notice ∈ rest, ∃ job resource result, notice = received job resource result :=
      fun notice member =>
        let ⟨job, resource, result, same, _⟩ := each notice (List.mem_cons_of_mem _ member)
        ⟨job, resource, result, same⟩
    have proper := inductionHypothesis nodup
      (fun notice member => each notice (List.mem_cons_of_mem _ member))
      fun job resource other result different here there =>
        alike job resource other result different (List.mem_cons_of_mem _ here)
          (List.mem_cons_of_mem _ there)
    obtain ⟨job, resource, result, rfl, part, unreceived, settled, others⟩ :=
      each first (List.mem_cons_self ..)
    refine ⟨⟨(takesPart_receipts earlier).mpr part, fun different member => ?_,
      settled_append settled fun permutations member => ?_,
      fun other different member => ?_⟩, proper⟩
    · rcases List.mem_append.mp member with there | before
      · have same := alike job resource resource result different (List.mem_cons_self ..)
          (List.mem_cons_of_mem _ there)
        exact new (same ▸ there)
      · exact unreceived different before
    · obtain ⟨_, _, _, same⟩ := earlier _ member
      cases same
    · rcases List.mem_append.mp member with there | before
      · exact alike job resource other result different (List.mem_cons_self ..)
          (List.mem_cons_of_mem _ there)
      · exact others other different before

/-- Whatever has been received was received properly then. -/
theorem Proper.at (proper : Proper past) {after before : List Notice}
    (split : past = after ++ received job resource result :: before) :
    TakesPart job resource before ∧ Unreceived job resource before ∧
      Settled job result before ∧ Alike job result before := by
  subst split
  induction after with
  | nil => exact proper.1
  | cons first rest inductionHypothesis =>
    cases first with
    | received => exact inductionHypothesis proper.2
    | joined | cancelled | closed | expected | reported => exact inductionHypothesis proper

end Notice

namespace Manager

variable {manager later : Manager} {job : JobId} {resource : ResourceId}

/-- The resource waits for a compile in flight. -/
def Flies (manager : Manager) (job : JobId) (resource : ResourceId) : Prop :=
  ∃ entry, manager.jobs.get? job = some entry ∧ resource ∈ entry.resources

/-- The resource has yet to take the result of a finished compile. -/
def Landed (manager : Manager) (job : JobId) (resource : ResourceId) : Prop :=
  ∃ compile ∈ manager.finished, compile.job = job ∧ resource ∈ compile.resources

def Waits (manager : Manager) (job : JobId) (resource : ResourceId) : Prop :=
  manager.Flies job resource ∨ manager.Landed job resource

theorem flies_join {identity : MapIdentity} (regular : manager.Regular)
    (found : manager.inFlight? identity = some job) (joining : ResourceId) (other : JobId) :
    (manager.join job joining).Flies other resource ↔
      (job = other ∧ joining = resource) ∨ manager.Flies other resource := by
  obtain ⟨entry, there, _⟩ := (regular.indexed identity job).mp found
  have jobs : (manager.join job joining).jobs.get? other = if other = job then
      some { entry with resources := addOnce entry.resources joining }
      else manager.jobs.get? other := by
    unfold join
    rw [Table.get?_modify, there]
    rfl
  unfold Flies
  rw [jobs]
  by_cases here : other = job
  · subst here
    rw [if_pos rfl, there]
    constructor
    · rintro ⟨_, same, member⟩
      cases same
      rcases mem_addOnce.mp member with before | rfl
      · exact .inr ⟨entry, rfl, before⟩
      · exact .inl ⟨rfl, rfl⟩
    · rintro (⟨_, rfl⟩ | ⟨_, same, member⟩)
      · exact ⟨_, rfl, mem_addOnce.mpr (.inr rfl)⟩
      · cases same
        exact ⟨_, rfl, mem_addOnce.mpr (.inl member)⟩
  · rw [if_neg here]
    exact ⟨.inr, fun either => either.resolve_left fun same => here same.1.symm⟩

theorem flies_leave (leaving : ResourceId) (from_ : JobId) :
    (manager.leave leaving from_).Flies job resource ↔
      manager.Flies job resource ∧ ¬(job = from_ ∧ resource = leaving) := by
  unfold leave Flies
  cases found : manager.jobs.get? from_ with
  | none =>
    dsimp only
    refine ⟨fun flies => ⟨flies, fun here => ?_⟩, And.left⟩
    obtain ⟨entry, there, _⟩ := flies
    rw [here.1, found] at there
    cases there
  | some entry =>
    dsimp only
    by_cases here : job = from_
    · subst here
      rw [found]
      split
      · rename_i none
        constructor
        · rintro ⟨_, gone, _⟩
          rw [show (manager.remove job entry).jobs = manager.jobs.erase job from rfl,
            Table.get?_erase, if_pos rfl] at gone
          cases gone
        · rintro ⟨⟨_, same, member⟩, other⟩
          cases same
          have left : resource ∈ entry.resources.filter (· ≠ leaving) :=
            List.mem_filter.mpr ⟨member, decide_eq_true fun same => other ⟨rfl, same⟩⟩
          rw [none] at left
          cases left
      · dsimp only
        rw [Table.get?_insert, if_pos rfl]
        constructor
        · rintro ⟨_, same, member⟩
          cases same
          obtain ⟨before, different⟩ := List.mem_filter.mp member
          exact ⟨⟨entry, rfl, before⟩, fun both => of_decide_eq_true different both.2⟩
        · rintro ⟨⟨_, same, member⟩, other⟩
          cases same
          exact ⟨_, rfl,
            List.mem_filter.mpr ⟨member, decide_eq_true fun same => other ⟨rfl, same⟩⟩⟩
    · have elsewhere : ∀ kept : Table JobId InFlight,
          kept.get? job = manager.jobs.get? job →
          ((∃ entry, kept.get? job = some entry ∧ resource ∈ entry.resources) ↔
            (∃ entry, manager.jobs.get? job = some entry ∧ resource ∈ entry.resources) ∧
              ¬(job = from_ ∧ resource = leaving)) := fun kept same => by
        rw [same]
        exact ⟨fun flies => ⟨flies, fun both => here both.1⟩, And.left⟩
      split
      · exact elsewhere (manager.jobs.erase from_) (by rw [Table.get?_erase, if_neg here])
      · exact elsewhere (manager.jobs.insert from_ _) (by rw [Table.get?_insert, if_neg here])

/-- While a compile is in flight, those who wait for it wait for nothing else. -/
theorem waits_of_found {entry : InFlight} (regular : manager.Regular)
    (found : manager.jobs.get? job = some entry) (resource : ResourceId) :
    manager.Waits job resource ↔ resource ∈ entry.resources := by
  constructor
  · rintro (⟨_, there, member⟩ | ⟨compile, member, rfl, _⟩)
    · cases there.symm.trans found
      exact member
    · exact nomatch (regular.ended compile member).2.2.2.symm.trans found
  · exact fun member => .inl ⟨entry, found, member⟩

/-- A compile in flight goes on for the same resources. -/
theorem flies_revise {entry revised : InFlight} (found : manager.jobs.get? job = some entry)
    (resources : revised.resources = entry.resources)
    (jobs : ∀ other, later.jobs.get? other =
      if other = job then some revised else manager.jobs.get? other) (other : JobId) :
    later.Flies other resource ↔ manager.Flies other resource := by
  unfold Flies
  rw [jobs]
  by_cases here : other = job
  · rw [if_pos here, here, found]
    constructor
    · rintro ⟨_, same, member⟩
      cases same
      exact ⟨entry, rfl, resources ▸ member⟩
    · rintro ⟨_, same, member⟩
      cases same
      exact ⟨revised, rfl, resources ▸ member⟩
  · rw [if_neg here]

/-- A compile in flight ends, and its result is left to some of its resources. -/
theorem waits_file {entry : InFlight} (ended : Option FinishedCompile) (regular : manager.Regular)
    (found : manager.jobs.get? job = some entry)
    (jobs : later.jobs = manager.jobs.erase job)
    (finished : later.finished = manager.finished ++ ended.toList) (other : JobId) :
    later.Waits other resource ↔
      (other ≠ job ∧ manager.Waits other resource) ∨
        ∃ compile, ended = some compile ∧ compile.job = other ∧ resource ∈ compile.resources := by
  have elsewhere (compile : FinishedCompile) (member : compile ∈ manager.finished) :
      compile.job ≠ job := fun here =>
    nomatch (here ▸ (regular.ended compile member).2.2.2).symm.trans found
  have flies : later.Flies other resource ↔ other ≠ job ∧ manager.Flies other resource := by
    unfold Flies
    rw [jobs, Table.get?_erase]
    by_cases here : other = job
    · rw [if_pos here]
      exact ⟨fun ⟨_, gone, _⟩ => (nomatch gone), fun both => absurd here both.1⟩
    · rw [if_neg here]
      exact (and_iff_right here).symm
  have landed : later.Landed other resource ↔ (other ≠ job ∧ manager.Landed other resource) ∨
      ∃ compile, ended = some compile ∧ compile.job = other ∧ resource ∈ compile.resources := by
    unfold Landed
    rw [finished]
    constructor
    · rintro ⟨compile, member, rfl, there⟩
      rcases List.mem_append.mp member with before | new
      · exact .inl ⟨elsewhere compile before, compile, before, rfl, there⟩
      · exact .inr ⟨compile, Option.mem_toList.mp new, rfl, there⟩
    · rintro (⟨_, compile, member, same, there⟩ | ⟨compile, new, same, there⟩)
      · exact ⟨compile, List.mem_append_left _ member, same, there⟩
      · exact ⟨compile, List.mem_append_right _ (Option.mem_toList.mpr new), same, there⟩
  unfold Waits
  rw [flies, landed]
  tauto

theorem landed_limited {left : FinishedCompile → List ResourceId} :
    (manager.limited left).Landed job resource ↔
      ∃ compile ∈ manager.finished, compile.job = job ∧ resource ∈ left compile := by
  unfold Landed
  constructor
  · rintro ⟨part, member, here, there⟩
    obtain ⟨compile, before, _, rfl⟩ := mem_limited.mp member
    exact ⟨compile, before, here, there⟩
  · rintro ⟨compile, member, here, there⟩
    exact ⟨_, mem_limited.mpr ⟨compile, member, List.ne_nil_of_mem there, rfl⟩, here, there⟩

theorem mem_withdrawn {leaving : ResourceId} {jobs : List JobId} {compile : FinishedCompile} :
    resource ∈ withdrawn leaving jobs compile ↔
      resource ∈ compile.resources ∧ ¬(compile.job ∈ jobs ∧ resource = leaving) := by
  unfold withdrawn
  split
  · rename_i cancelled
    rw [List.mem_filter, decide_eq_true_iff]
    exact and_congr_right fun _ =>
      ⟨fun other both => other both.2, fun other same => other ⟨cancelled, same⟩⟩
  · rename_i kept
    exact ⟨fun member => ⟨member, fun both => kept both.1⟩, And.left⟩

theorem finished_leaves (manager : Manager) (leaving : ResourceId) (jobs : List JobId) :
    (jobs.foldl (leave leaving) manager).finished = manager.finished := by
  induction jobs generalizing manager with
  | nil => rfl
  | cons first rest inductionHypothesis =>
    refine (inductionHypothesis _).trans ?_
    unfold leave
    split
    · rfl
    · dsimp only
      split <;> rfl

theorem waits_cancel (leaving : ResourceId) (jobs : List JobId) :
    (manager.cancel leaving jobs).Waits job resource ↔
      manager.Waits job resource ∧ ¬(job ∈ jobs ∧ resource = leaving) := by
  have flies : (jobs.foldl (leave leaving) manager).Flies job resource ↔
      manager.Flies job resource ∧ ¬(job ∈ jobs ∧ resource = leaving) := by
    induction jobs generalizing manager with
    | nil => simp
    | cons first rest inductionHypothesis =>
      rw [List.foldl_cons, inductionHypothesis, flies_leave, List.mem_cons]
      tauto
  rw [cancel_eq]
  unfold Waits
  rw [landed_limited, finished_leaves]
  refine (or_congr flies ?_).trans or_and_right.symm
  unfold Landed
  simp only [mem_withdrawn]
  constructor
  · rintro ⟨compile, member, rfl, there, other⟩
    exact ⟨⟨compile, member, rfl, there⟩, other⟩
  · rintro ⟨⟨compile, member, rfl, there⟩, other⟩
    exact ⟨compile, member, rfl, there, other⟩

end Manager

namespace Manager

variable {manager : Manager} {job : JobId} {entry : InFlight}

theorem mem_refusal (requester : ResourceId) (error : LoweringError)
    (found : manager.jobs.get? job = some entry) (notice : Notice) :
    notice ∈ manager.refusal job requester error ↔ requester ∈ entry.resources ∧
      notice = .received job requester (.error (.lowering error)) := by
  unfold refusal
  rw [found]
  dsimp only
  split
  · rename_i waits
    exact List.mem_singleton.trans (and_iff_right waits).symm
  · rename_i absent
    exact iff_of_false List.not_mem_nil fun both => absent both.1

/-- The failure of a compile that could not be lowered is left to those who were not told of it. -/
theorem exists_aborted (requester : ResourceId) (error : LoweringError)
    (found : manager.jobs.get? job = some entry) (its : ResourceId) :
    (∃ compile ∈ aborted job requester error entry, its ∈ compile.resources) ↔
      its ∈ entry.resources ∧
        ∀ result, .received job its result ∉ manager.refusal job requester error := by
  have told := mem_refusal requester error found
  constructor
  · rintro ⟨compile, left, member⟩
    obtain ⟨_, rfl⟩ := FinishedCompile.limit_eq_some.mp left
    obtain ⟨waits, different⟩ := List.mem_filter.mp member
    refine ⟨waits, fun result there => ?_⟩
    cases ((told _).mp there).2
    exact of_decide_eq_true different rfl
  · rintro ⟨waits, untold⟩
    have different : its ≠ requester := by
      rintro rfl
      exact untold _ ((told _).mpr ⟨waits, rfl⟩)
    have there : its ∈ entry.resources.filter (· ≠ requester) :=
      List.mem_filter.mpr ⟨waits, decide_eq_true different⟩
    exact ⟨_, FinishedCompile.limit_eq_some.mpr ⟨List.ne_nil_of_mem there, rfl⟩, there⟩

theorem nodup_refusal (job : JobId) (requester : ResourceId) (error : LoweringError) :
    (manager.refusal job requester error).Nodup := by
  unfold refusal
  split
  · exact List.nodup_nil
  · split
    · exact List.nodup_singleton _
    · exact List.nodup_nil

end Manager

/-- What the compiler has to say changes nothing but the inbox. -/
theorem Workshop.release_eq (workshop : Workshop) (position : Option Nat) :
    ∃ compiler inbox,
      (workshop.release position).2 = { workshop.withInbox inbox with compiler } := by
  unfold release
  cases position with
  | none => exact ⟨_, _, rfl⟩
  | some position =>
    dsimp only
    cases workshop.compiler.release? position with
    | none => exact ⟨_, _, rfl⟩
    | some answered => exact ⟨_, _, rfl⟩

end Shading
