/-
Results that arrive. A compile whose material has been lowered files its results
as they come, and until the last one has come it stays in flight. Results of
other jobs leave it alone, whether these are in flight or not. With the last of
its results it ends, once: with a map that is entered from then on, or with
errors and nothing entered.
-/

import Shading.Proofs.Compile.Underway
import Shading.Proofs.Map.Archiving

namespace Shading

/-! ### Filing results -/

namespace PermutationResult

/-- The binary of a result, with its permutation. -/
def binary? (result : PermutationResult) : Option (Permutation × Binary) :=
  result.outcome.toOption.map fun binary => (result.permutation, binary)

def error? (result : PermutationResult) : Option CompileError :=
  match result.outcome with
  | .ok _ => none
  | .error error => some error

end PermutationResult

/-- A compile after results have been filed. -/
def InFlight.filing (entry : InFlight) (results : List PermutationResult) : InFlight :=
  results.foldl Workshop.record entry

theorem InFlight.filing_eq (entry : InFlight) (results : List PermutationResult) :
    entry.filing results = { entry with
      remaining := entry.remaining.filter (· ∉ results.map PermutationResult.permutation)
      binaries := (results.filterMap PermutationResult.binary?).foldl
        (fun sorted entry => MapContent.insertBinary entry.1 entry.2 sorted) entry.binaries
      errors := entry.errors ++ results.filterMap PermutationResult.error? } := by
  induction results generalizing entry with
  | nil => simp [filing]
  | cons result rest inductionHypothesis =>
    have remaining : (entry.remaining.filter (· ≠ result.permutation)).filter
          (· ∉ rest.map PermutationResult.permutation) =
        entry.remaining.filter (· ∉ (result :: rest).map PermutationResult.permutation) := by
      rw [List.filter_filter]
      refine List.filter_congr fun permutation _ => ?_
      rw [← Bool.decide_and, decide_eq_decide, List.map_cons, List.mem_cons, not_or, and_comm]
    have stepped : entry.filing (result :: rest) = (Workshop.record entry result).filing rest := rfl
    rw [stepped, inductionHypothesis, ← remaining]
    obtain ⟨group, permutation, outcome⟩ := result
    cases outcome with
    | ok binary => rfl
    | error error =>
      have errors : entry.errors ++ [error] ++ rest.filterMap PermutationResult.error? =
          entry.errors ++ (⟨group, permutation, .error error⟩ :: rest).filterMap
            PermutationResult.error? := List.append_assoc ..
      rw [← errors]
      rfl

namespace Workshop

/-! ### Results of several jobs -/

/-- A result that is taken in, and the maps that others keep alive at that time. -/
structure Arrival where
  held : List MapId
  result : PermutationResult

/-- Takes in results, one after another, as `drain` does with those that are in the inbox. -/
def takeIn (workshop : Workshop) (arrivals : List Arrival) : Workshop :=
  arrivals.foldl (fun workshop arrival => receive arrival.held workshop arrival.result) workshop

/-- The results among them that are a job's own, in order. -/
def reports (job : JobId) (arrivals : List Arrival) : List PermutationResult :=
  (arrivals.map Arrival.result).filter (·.group = job)

/-- The ends of a job. -/
def endings (workshop : Workshop) (job : JobId) : List FinishedCompile :=
  workshop.manager.finished.filter (·.job = job)

/-- One result for each permutation that is required. -/
def answers (job : JobId) (required : List Permutation)
    (answer : Permutation → Except CompileError Binary) : List PermutationResult :=
  required.eraseDups.map fun permutation => ⟨job, permutation, answer permutation⟩

/-- No map of an identity that is registered is alive. -/
def Vacant (workshop : Workshop) (held : List MapId) (identity : MapIdentity) : Prop :=
  ∀ shared, workshop.registry.entries.get? identity = some shared →
    shared.id ∉ workshop.heldMaps held

variable {workshop : Workshop} {job : JobId} {entry : InFlight} {held : List MapId}
  {result : PermutationResult} {arrivals earlier later : List Arrival} {arrival : Arrival}

theorem takeIn_append (workshop : Workshop) (earlier later : List Arrival) :
    workshop.takeIn (earlier ++ later) = (workshop.takeIn earlier).takeIn later :=
  List.foldl_append

theorem reports_append (job : JobId) (earlier later : List Arrival) :
    reports job (earlier ++ later) = reports job earlier ++ reports job later := by
  unfold reports
  rw [List.map_append, List.filter_append]

theorem reports_own (own : arrival.result.group = job) (rest : List Arrival) :
    reports job (arrival :: rest) = arrival.result :: reports job rest :=
  List.filter_cons_of_pos (decide_eq_true own)

theorem reports_other (other : arrival.result.group ≠ job) (rest : List Arrival) :
    reports job (arrival :: rest) = reports job rest :=
  List.filter_cons_of_neg fun same => other (of_decide_eq_true same)

theorem reports_ne_nil (own : arrival.result.group = job) (before rest : List Arrival) :
    reports job (before ++ arrival :: rest) ≠ [] := by
  rw [reports_append, reports_own own]
  exact List.append_ne_nil_of_right_ne_nil _ (List.cons_ne_nil _ _)

/-- Among results of which some are a job's own there is a last one of them. -/
theorem exists_last (some : reports job arrivals ≠ []) : ∃ earlier last later,
    arrivals = earlier ++ last :: later ∧ last.result.group = job ∧ reports job later = [] := by
  induction arrivals with
  | nil => exact absurd rfl some
  | cons first rest inductionHypothesis =>
    by_cases none : reports job rest = []
    · by_cases own : first.result.group = job
      · exact ⟨[], first, rest, rfl, own, none⟩
      · exact absurd ((reports_other own rest).trans none) some
    · obtain ⟨earlier, last, later, rfl, own, nothing⟩ := inductionHypothesis none
      exact ⟨first :: earlier, last, later, rfl, own, nothing⟩

/-! ### The last result -/

/-- What a compile ends with. -/
def verdict (workshop : Workshop) (held : List MapId) (entry : InFlight) :
    Except CompileFailure SharedMap :=
  match entry.profile with
  | some profile =>
    if entry.errors = [] then .ok (workshop.makeMap held entry profile).1
    else .error (.compile entry.errors)
  | none => .error (.compile entry.errors)

theorem finalize_finished (workshop : Workshop) (held : List MapId) (job : JobId)
    (entry : InFlight) : (workshop.finalize held job entry).manager.finished =
      workshop.manager.finished ++
        [⟨job, entry.identity, workshop.verdict held entry, entry.resources⟩] := by
  unfold finalize verdict
  cases entry.profile with
  | none => rfl
  | some profile =>
    dsimp only
    split <;> rfl

/-- A compile with errors ends with them and leaves the registry as it is. -/
theorem finalize_failed (workshop : Workshop) (held : List MapId) (job : JobId)
    (failed : entry.errors ≠ []) :
    workshop.verdict held entry = .error (.compile entry.errors) ∧
      (workshop.finalize held job entry).registry = workshop.registry := by
  unfold finalize verdict
  cases entry.profile with
  | none => exact ⟨rfl, rfl⟩
  | some profile =>
    dsimp only
    rw [if_neg failed, if_neg failed]
    exact ⟨rfl, rfl⟩

/-- Where another map of the identity is alive, it comes back for the one that is made; otherwise
the one that is made is entered. -/
theorem makeMap_registry {profile : Profile} {made : SharedMap} {next : Workshop}
    (ran : workshop.makeMap held entry profile = (made, next)) :
    (¬ workshop.Vacant held entry.identity ∧ made.id ∈ workshop.heldMaps held ∧
        next.registry = workshop.numbering) ∨
      (workshop.Vacant held entry.identity ∧ made = workshop.ownMap entry profile ∧
        next.registry = { workshop.numbering with
          entries :=
            workshop.registry.entries.insert entry.identity (workshop.ownMap entry profile) }) := by
  have offered : workshop.numbering.register (workshop.heldMaps held)
      (workshop.ownMap entry profile) = (made, next.registry) := by
    rw [makeMap_eq] at ran
    cases ran
    rfl
  rcases workshop.numbering.register_cases (workshop.heldMaps held)
    (show (workshop.ownMap entry profile).map.isCompiled from rfl) with
    ⟨incumbent, there, alive, back⟩ | ⟨vacant, back⟩
  · obtain ⟨rfl, registry⟩ := Prod.mk.inj (back.symm.trans offered)
    exact .inl ⟨fun vacant => vacant _ there alive, alive, registry.symm⟩
  · obtain ⟨own, registry⟩ := Prod.mk.inj (back.symm.trans offered)
    exact .inr ⟨vacant, own.symm, registry.symm⟩

/-- A compile without errors makes a map of its own, unless one of its identity is alive. -/
theorem finalize_clean {profile : Profile} (job : JobId) (profiled : entry.profile = some profile)
    (clean : entry.errors = []) (vacant : workshop.Vacant held entry.identity) :
    workshop.verdict held entry = .ok (workshop.ownMap entry profile) ∧
      (workshop.finalize held job entry).registry.entries =
        workshop.registry.entries.insert entry.identity (workshop.ownMap entry profile) := by
  have ran : workshop.makeMap held entry profile =
      ((workshop.makeMap held entry profile).1, (workshop.makeMap held entry profile).2) := rfl
  obtain ⟨_, made, registry⟩ := (makeMap_registry ran).resolve_left fun taken => taken.1 vacant
  unfold finalize verdict
  rw [profiled]
  dsimp only
  rw [if_pos clean, if_pos clean]
  exact ⟨congrArg Except.ok made, congrArg Registry.entries registry⟩

/-! ### Results that leave a compile alone -/

/-- What a job can tell of what has happened: its entry, as long as it is in flight, and its
ends. -/
structure Unmoved (job : JobId) (workshop next : Workshop) : Prop where
  entry : next.manager.jobs.get? job = workshop.manager.jobs.get? job
  endings : next.endings job = workshop.endings job

theorem unmoved_receive (workshop : Workshop) (held : List MapId) (other : result.group ≠ job) :
    Unmoved job workshop (receive held workshop result) := by
  rcases receive_cases workshop held result with same | ⟨entry, _, same | ⟨_, _, same⟩⟩
  · rw [same]
    exact ⟨rfl, rfl⟩
  · rw [same]
    exact ⟨(Table.get?_insert ..).trans (if_neg other.symm), rfl⟩
  · rw [same]
    constructor
    · rw [finalize_jobs, Table.get?_erase, if_neg other.symm]
      exact (Table.get?_insert ..).trans (if_neg other.symm)
    · unfold endings
      rw [finalize_finished, List.filter_append, List.filter_cons_of_neg (by simpa using other),
        List.filter_nil, List.append_nil]
      rfl

theorem unmoved_takeIn (workshop : Workshop) (none : reports job arrivals = []) :
    Unmoved job workshop (workshop.takeIn arrivals) := by
  induction arrivals generalizing workshop with
  | nil => exact ⟨rfl, rfl⟩
  | cons first rest inductionHypothesis =>
    have other : first.result.group ≠ job := fun own => by
      rw [reports_own own] at none
      cases none
    have step := unmoved_receive workshop first.held other
    have after := inductionHypothesis (receive first.held workshop first.result)
      ((reports_other other rest).symm.trans none)
    exact ⟨after.entry.trans step.entry, after.endings.trans step.endings⟩

/-- A compile that has just been begun has received nothing, whatever has come for others. -/
theorem begun_takeIn (workshop : Workshop) (request : CompileRequest)
    (none : reports workshop.manager.nextJob arrivals = []) :
    ((workshop.begun request).takeIn arrivals).manager.jobs.get? workshop.manager.nextJob =
      some request.entry := by
  rw [(unmoved_takeIn _ none).entry, begun_jobs, Table.get?_insert, if_pos rfl]

/-! ### A compile that waits -/

/-- As long as permutations will be missing later on, a result is only filed. -/
theorem receive_own {rest : List PermutationResult} (held : List MapId)
    (found : workshop.manager.jobs.get? result.group = some entry)
    (more : (entry.filing (result :: rest)).remaining ≠ []) :
    receive held workshop result = workshop.withEntry result.group (record entry result) ∧
      (receive held workshop result).manager.jobs.get? result.group =
        some (record entry result) := by
  have waits : (record entry result).remaining ≠ [] := fun none => more (by
    show ((record entry result).filing rest).remaining = []
    rw [InFlight.filing_eq, none]
    rfl)
  have filed : receive held workshop result =
      workshop.withEntry result.group (record entry result) := by
    unfold receive
    rw [found]
    dsimp only
    rw [decide_eq_false waits, Bool.false_and, if_neg Bool.false_ne_true]
    rfl
  refine ⟨filed, ?_⟩
  rw [filed]
  exact (Table.get?_insert ..).trans (if_pos rfl)

theorem receive_last (found : workshop.manager.jobs.get? result.group = some entry)
    (lowered : entry.lowering = false) (last : (record entry result).remaining = []) :
    receive held workshop result =
      (workshop.withEntry result.group (record entry result)).finalize held result.group
        (record entry result) := by
  unfold receive
  rw [found]
  dsimp only
  rw [decide_eq_true last, InFlight.record_lowering, lowered]
  rfl

/-- While permutations are missing, the compile is in flight and files what comes for it. -/
theorem takeIn_waiting (found : workshop.manager.jobs.get? job = some entry)
    (more : (entry.filing (reports job arrivals)).remaining ≠ []) :
    (workshop.takeIn arrivals).manager.jobs.get? job = some (entry.filing (reports job arrivals)) ∧
      (workshop.takeIn arrivals).endings job = workshop.endings job := by
  induction arrivals generalizing workshop entry with
  | nil => exact ⟨found, rfl⟩
  | cons first rest inductionHypothesis =>
    by_cases own : first.result.group = job
    · subst own
      rw [reports_own rfl] at more ⊢
      obtain ⟨stepped, there⟩ := receive_own first.held found more
      obtain ⟨after, ended⟩ := inductionHypothesis there more
      refine ⟨after, ended.trans ?_⟩
      rw [stepped]
      rfl
    · rw [reports_other own] at more ⊢
      have step := unmoved_receive workshop first.held own
      obtain ⟨there, ended⟩ := inductionHypothesis (step.entry.trans found) more
      exact ⟨there, ended.trans step.endings⟩

/-! ### A map that stays -/

/-- A map is entered for an identity, and an end that has not been told yet keeps it alive. -/
def Enters (workshop : Workshop) (identity : MapIdentity) (shared : SharedMap) : Prop :=
  workshop.registry.entries.get? identity = some shared ∧
    ∃ compile ∈ workshop.manager.finished, compile.map? = some shared

namespace Enters

variable {identity : MapIdentity} {shared : SharedMap}

theorem finalize (enters : workshop.Enters identity shared) (held : List MapId) (job : JobId)
    (entry : InFlight) : (workshop.finalize held job entry).Enters identity shared := by
  obtain ⟨entered, compile, member, made⟩ := enters
  have alive : shared.id ∈ workshop.heldMaps held :=
    mem_heldMaps.mpr (.inr (.inl ⟨compile, member, shared, made, rfl⟩))
  rcases finalize_cases workshop held job entry with ⟨failure, ended⟩ |
    ⟨profile, own, next, _, ran, ended⟩
  · rw [ended]
    exact ⟨entered, compile, List.mem_append_left _ member, made⟩
  · rw [ended]
    rcases makeMap_registry ran with ⟨_, _, registry⟩ | ⟨vacant, _, registry⟩
    · cases ran
      exact ⟨(congrArg (·.entries.get? identity) registry).trans entered, compile,
        List.mem_append_left _ member, made⟩
    · have elsewhere : identity ≠ entry.identity := fun same => by
        subst same
        exact vacant shared entered alive
      have kept : next.registry.entries.get? identity = some shared := by
        rw [registry]
        exact (Table.get?_insert ..).trans ((if_neg elsewhere).trans entered)
      cases ran
      exact ⟨kept, compile, List.mem_append_left _ member, made⟩

theorem receive (enters : workshop.Enters identity shared) (held : List MapId)
    (result : PermutationResult) :
    (Workshop.receive held workshop result).Enters identity shared := by
  rcases receive_cases workshop held result with same | ⟨entry, _, same | ⟨_, _, same⟩⟩
  · rw [same]
    exact enters
  · rw [same]
    exact enters
  · rw [same]
    have filed : (workshop.withEntry result.group (record entry result)).Enters identity shared :=
      enters
    exact filed.finalize ..

theorem takeIn (enters : workshop.Enters identity shared) (arrivals : List Arrival) :
    (workshop.takeIn arrivals).Enters identity shared := by
  induction arrivals generalizing workshop with
  | nil => exact enters
  | cons first rest inductionHypothesis => exact inductionHypothesis (enters.receive ..)

end Enters

/-! ### Any order -/

/-- A job is in flight as long as a result of its own is still to come, and with the last one it
ends, once. -/
structure EndsAtLast (start : Workshop) (arrivals : List Arrival) (ending : FinishedCompile) :
    Prop where
  before : ∀ earlier later, arrivals = earlier ++ later → reports ending.job later ≠ [] →
    (start.takeIn earlier).manager.isCompiling ending.job ∧
      (start.takeIn earlier).endings ending.job = start.endings ending.job
  after : ∀ earlier later, arrivals = earlier ++ later → reports ending.job later = [] →
    ¬ (start.takeIn earlier).manager.isCompiling ending.job ∧
      (start.takeIn earlier).endings ending.job = start.endings ending.job ++ [ending]

/-- When the last result of a job arrives, no map of an identity that is registered is alive. -/
def VacantAtLast (start : Workshop) (arrivals : List Arrival) (job : JobId)
    (identity : MapIdentity) : Prop :=
  ∀ earlier last later, arrivals = earlier ++ last :: later → last.result.group = job →
    reports job later = [] → (start.takeIn earlier).Vacant last.held identity

/-- Where a list is parted twice, the last of the first part has been passed by the second, or it
is still to come. -/
theorem passed_or_coming {earlier later before after : List Arrival} {last : Arrival}
    (parted : before ++ last :: after = earlier ++ later) :
    (∃ more, earlier = before ++ [last] ++ more ∧ after = more ++ later) ∨
      ∃ some, later = some ++ last :: after := by
  rcases List.append_eq_append_iff.mp parted with ⟨passed, rfl, rest⟩ | ⟨some, _, rest⟩
  · cases passed with
    | nil => exact .inr ⟨[], rest.symm⟩
    | cons next more =>
      obtain ⟨rfl, rfl⟩ := List.cons.inj rest
      exact .inl ⟨more, by rw [List.append_assoc, List.singleton_append], rfl⟩
  · exact .inr ⟨some, rest⟩

section Waiting

variable {waiting filed : InFlight} {last : Arrival}

/-- What a compile has filed says how many of its results are still to come. -/
def Counts (waiting : InFlight) (job : JobId) (arrivals : List Arrival) : Prop :=
  ∀ earlier later, arrivals = earlier ++ later →
    ((waiting.filing (reports job earlier)).remaining = [] ↔ reports job later = [])

/-- The last of a compile's results ends it with everything that has come. -/
theorem takeIn_last (found : workshop.manager.jobs.get? job = some waiting)
    (lowered : waiting.lowering = false)
    (counts : Counts waiting job (earlier ++ last :: later))
    (all : waiting.filing (reports job (earlier ++ last :: later)) = filed)
    (own : last.result.group = job) (nothing : reports job later = []) :
    workshop.takeIn (earlier ++ [last]) =
      ((workshop.takeIn earlier).withEntry job filed).finalize last.held job filed := by
  have recorded : record (waiting.filing (reports job earlier)) last.result = filed := by
    unfold InFlight.filing at all ⊢
    rw [← all, reports_append, reports_own own, nothing, List.foldl_append]
    rfl
  have done : filed.remaining = [] :=
    all ▸ (counts _ [] (List.append_nil _).symm).mpr rfl
  have more := (counts earlier (last :: later) rfl).not.mpr (reports_ne_nil own [] later)
  have there := (takeIn_waiting found more).1
  rw [← recorded] at done ⊢
  subst own
  rw [takeIn_append]
  exact receive_last there (by rw [InFlight.filing_eq]; exact lowered) done

/-- A compile that counts its results ends with the last of them. -/
theorem endsAtLast (found : workshop.manager.jobs.get? job = some waiting)
    (lowered : waiting.lowering = false)
    (counts : Counts waiting job (earlier ++ last :: later))
    (all : waiting.filing (reports job (earlier ++ last :: later)) = filed)
    (own : last.result.group = job) (nothing : reports job later = []) :
    EndsAtLast workshop (earlier ++ last :: later) ⟨job, filed.identity,
      ((workshop.takeIn earlier).withEntry job filed).verdict last.held filed,
      filed.resources⟩ := by
  have ends := takeIn_last found lowered counts all own nothing
  have before := (takeIn_waiting found
    ((counts earlier (last :: later) rfl).not.mpr (reports_ne_nil own [] later))).2
  have gone : (workshop.takeIn (earlier ++ [last])).manager.jobs.get? job = none := by
    rw [ends, finalize_jobs, Table.get?_erase, if_pos rfl]
  have ended : (workshop.takeIn (earlier ++ [last])).endings job = workshop.endings job ++
      [⟨job, filed.identity,
        ((workshop.takeIn earlier).withEntry job filed).verdict last.held filed,
        filed.resources⟩] := by
    rw [← before, ends]
    unfold endings
    rw [finalize_finished, List.filter_append]
    refine congrArg _ (List.filter_eq_self.mpr fun other member => ?_)
    rw [List.mem_singleton.mp member]
    exact decide_eq_true rfl
  refine ⟨fun first rest parted coming => ?_, fun first rest parted none => ?_⟩
  · obtain ⟨there, same⟩ := takeIn_waiting found ((counts first rest parted).not.mpr coming)
    exact ⟨congrArg Option.isSome there, same⟩
  · rcases passed_or_coming parted with ⟨more, rfl, rfl⟩ | ⟨some, rfl⟩
    · have besides := (List.append_eq_nil_iff.mp ((reports_append ..).symm.trans nothing)).1
      have left := unmoved_takeIn (workshop.takeIn (earlier ++ [last])) besides
      rw [← takeIn_append] at left
      have absent := congrArg Option.isSome (left.entry.trans gone)
      exact ⟨fun flying => Bool.false_ne_true (absent.symm.trans flying), left.endings.trans ended⟩
    · exact absurd none (reports_ne_nil own some later)

/-- Without errors, and without another map of its identity in the way, the compile ends with a
map of its own, which is entered from then on. -/
theorem entered_from_last {profile : Profile}
    (found : workshop.manager.jobs.get? job = some waiting) (lowered : waiting.lowering = false)
    (counts : Counts waiting job (earlier ++ last :: later))
    (all : waiting.filing (reports job (earlier ++ last :: later)) = filed)
    (own : last.result.group = job) (nothing : reports job later = [])
    (profiled : filed.profile = some profile) (clean : filed.errors = [])
    (vacant : (workshop.takeIn earlier).Vacant last.held filed.identity) :
    ∃ shared,
      ((workshop.takeIn earlier).withEntry job filed).verdict last.held filed = .ok shared ∧
      shared.map = ⟨filed.identity, filed.name, some ⟨filed.binaries, profile⟩⟩ ∧
      ∀ first rest, earlier ++ last :: later = first ++ rest → reports job rest = [] →
        (workshop.takeIn first).registry.entries.get? filed.identity = some shared := by
  have free : ((workshop.takeIn earlier).withEntry job filed).Vacant last.held filed.identity :=
    vacant
  obtain ⟨verdict, entries⟩ := finalize_clean job profiled clean free
  have enters : (workshop.takeIn (earlier ++ [last])).Enters filed.identity
      (((workshop.takeIn earlier).withEntry job filed).ownMap filed profile) := by
    rw [takeIn_last found lowered counts all own nothing]
    constructor
    · rw [entries, Table.get?_insert, if_pos rfl]
    · rw [finalize_finished, verdict]
      exact ⟨_, List.mem_append_right _ List.mem_cons_self, rfl⟩
  refine ⟨_, verdict, rfl, fun first rest parted none => ?_⟩
  rcases passed_or_coming parted with ⟨more, rfl, _⟩ | ⟨some, rfl⟩
  · rw [takeIn_append]
    exact (enters.takeIn more).1
  · exact absurd none (reports_ne_nil own some later)

/-- With errors among its results, a compile never touches the registry. -/
theorem registry_own (found : workshop.manager.jobs.get? job = some waiting)
    (lowered : waiting.lowering = false)
    (counts : Counts waiting job (earlier ++ last :: later))
    (failed : (waiting.filing (reports job (earlier ++ last :: later))).errors ≠ [])
    (own : last.result.group = job) :
    (workshop.takeIn (earlier ++ [last])).registry = (workshop.takeIn earlier).registry := by
  by_cases nothing : reports job later = []
  · rw [takeIn_last found lowered counts rfl own nothing]
    exact (finalize_failed _ _ _ failed).2
  · have before := (counts earlier (last :: later) rfl).not.mpr (reports_ne_nil own [] later)
    have after := (counts (earlier ++ [last]) later (by simp)).not.mpr nothing
    rw [reports_append, reports_own own] at after
    unfold InFlight.filing at after
    rw [List.foldl_append] at after
    have there := (takeIn_waiting found before).1
    subst own
    rw [takeIn_append]
    show (receive last.held (workshop.takeIn earlier) last.result).registry = _
    rw [(receive_own last.held there after).1]
    rfl

end Waiting

end Workshop

end Shading
