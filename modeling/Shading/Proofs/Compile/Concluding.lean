/-
The outcome of a compile in whatever order its results come. One result for each
permutation that is needed makes the compile end with the last of them, and what
it ends with is made of the results alone: the same content or the same errors
in any order, whatever comes for other jobs in between. Nobody gets in its way
who was not there when its material was lowered.
-/

import Shading.Proofs.Compile.Arriving

namespace Shading.Workshop

variable {workshop : Workshop} {job : JobId} {entry : InFlight} {held : List MapId}
  {result : PermutationResult} {arrivals : List Arrival}

/-! ### Nobody in the way -/

/-- No other compile of an identity is in flight, and the manager keeps no map alive that is
registered for it. -/
structure Unrivalled (workshop : Workshop) (job : JobId) (identity : MapIdentity) : Prop where
  alone : ∀ other found, workshop.manager.jobs.get? other = some found →
    found.identity = identity → other = job
  dead : ∀ shared, workshop.registry.entries.get? identity = some shared →
    shared.id.number < workshop.registry.next.number ∧ shared.id ∉ workshop.heldMaps []

/-- Whatever comes back for a map that is made, it has the next number or is alive, and entries of
other identities stay. -/
theorem makeMap_elsewhere {profile : Profile} {made : SharedMap} {next : Workshop}
    (ran : workshop.makeMap held entry profile = (made, next)) :
    (made.id = workshop.registry.next ∨ made.id ∈ workshop.heldMaps held) ∧
      next.registry.next = workshop.registry.next.next ∧
      ∀ identity, identity ≠ entry.identity → next.registry.entries.get? identity =
        workshop.registry.entries.get? identity := by
  rcases makeMap_registry ran with ⟨_, alive, registry⟩ | ⟨_, rfl, registry⟩
  · rw [registry]
    exact ⟨.inr alive, rfl, fun _ _ => rfl⟩
  · rw [registry]
    exact ⟨.inl rfl, rfl, fun _ different => (Table.get?_insert ..).trans (if_neg different)⟩

/-- Making a map keeps no map alive but one with the next number. -/
theorem mem_heldMaps_of_makeMap {profile : Profile} {made : SharedMap} {next : Workshop}
    {id : MapId} (ran : workshop.makeMap held entry profile = (made, next))
    (alive : id ∈ next.heldMaps []) :
    id ∈ workshop.heldMaps [] ∨ id = workshop.registry.next := by
  rw [makeMap_eq] at ran
  have finished : next.manager.finished = workshop.manager.finished := by
    cases ran
    rfl
  have unwritten : next.manager.unwritten =
      if workshop.usesStore && made.id = workshop.registry.next then
        workshop.manager.unwritten ++ [workshop.ownMap entry profile]
      else workshop.manager.unwritten := by
    cases ran
    rfl
  rcases mem_heldMaps.mp alive with outer | ended | ⟨shared, member, rfl⟩
  · cases outer
  · exact .inl (mem_heldMaps.mpr (.inr (.inl (finished ▸ ended))))
  · rw [unwritten] at member
    split at member
    · rcases List.mem_append.mp member with before | own
      · exact .inl (mem_heldMaps.mpr (.inr (.inr ⟨shared, before, rfl⟩)))
      · rw [List.mem_singleton.mp own]
        exact .inr rfl
    · exact .inl (mem_heldMaps.mpr (.inr (.inr ⟨shared, member, rfl⟩)))

namespace Unrivalled

variable {identity : MapIdentity}

theorem withEntry {other : JobId} {found revised : InFlight}
    (unrivalled : workshop.Unrivalled job identity)
    (there : workshop.manager.jobs.get? other = some found)
    (same : revised.identity = found.identity) :
    (workshop.withEntry other revised).Unrivalled job identity := by
  refine ⟨fun another its entered is => ?_, unrivalled.dead⟩
  change (workshop.manager.jobs.insert other revised).get? another = _ at entered
  rw [Table.get?_insert] at entered
  split at entered
  · rename_i here
    cases entered
    exact here ▸ unrivalled.alone other found there (same.symm.trans is)
  · exact unrivalled.alone another its entered is

/-- A compile of another identity ends. -/
theorem finalize (unrivalled : workshop.Unrivalled job identity) {other : JobId}
    (elsewhere : entry.identity ≠ identity)
    (apart : ∀ shared, workshop.registry.entries.get? identity = some shared → shared.id ∉ held) :
    (workshop.finalize held other entry).Unrivalled job identity ∧
      (workshop.finalize held other entry).registry.entries.get? identity =
        workshop.registry.entries.get? identity := by
  have alone : ∀ another found,
      (workshop.finalize held other entry).manager.jobs.get? another = some found →
      found.identity = identity → another = job := by
    intro another found there
    rw [finalize_jobs, Table.get?_erase] at there
    split at there
    · cases there
    · exact unrivalled.alone another found there
  rcases finalize_cases workshop held other entry with ⟨failure, ended⟩ |
    ⟨profile, made, next, _, ran, ended⟩
  · rw [ended] at alone ⊢
    refine ⟨⟨alone, fun shared there => ?_⟩, rfl⟩
    obtain ⟨older, unheld⟩ := unrivalled.dead shared there
    refine ⟨older, fun alive => unheld ?_⟩
    rcases mem_heldMaps_conclude.mp alive with before | ⟨_, failed, _⟩
    · exact before
    · cases failed
  · obtain ⟨given, numbers, entries⟩ := makeMap_elsewhere ran
    have kept := entries identity (Ne.symm elsewhere)
    rw [ended] at alone ⊢
    refine ⟨⟨alone, fun shared there => ?_⟩, kept⟩
    have before := kept.symm.trans there
    obtain ⟨older, unheld⟩ := unrivalled.dead shared before
    have notNew : shared.id ≠ workshop.registry.next := fun same =>
      absurd older (same ▸ Nat.lt_irrefl _)
    refine ⟨?_, fun alive => ?_⟩
    · show _ < next.registry.next.number
      rw [numbers]
      exact Nat.lt_succ_of_lt older
    · rcases mem_heldMaps_conclude.mp alive with already | ⟨its, is, same⟩
      · exact (mem_heldMaps_of_makeMap ran already).elim unheld notNew
      · cases is
        rw [same] at given
        refine given.elim notNew fun live => ?_
        exact (List.mem_append.mp live).elim (apart shared before) unheld

theorem receive (unrivalled : workshop.Unrivalled job identity) (held : List MapId)
    (other : result.group ≠ job)
    (apart : ∀ shared, workshop.registry.entries.get? identity = some shared → shared.id ∉ held) :
    (Workshop.receive held workshop result).Unrivalled job identity ∧
      (Workshop.receive held workshop result).registry.entries.get? identity =
        workshop.registry.entries.get? identity := by
  rcases receive_cases workshop held result with same | ⟨entry, there, same | ⟨_, _, same⟩⟩
  · rw [same]
    exact ⟨unrivalled, rfl⟩
  · rw [same]
    exact ⟨unrivalled.withEntry there (InFlight.record_identity entry result), rfl⟩
  · rw [same]
    have filed := unrivalled.withEntry there (InFlight.record_identity entry result)
    refine filed.finalize (fun is => other (unrivalled.alone _ entry there ?_)) apart
    exact (InFlight.record_identity entry result).symm.trans is

theorem takeIn (unrivalled : workshop.Unrivalled job identity)
    (found : workshop.manager.jobs.get? job = some entry)
    (more : (entry.filing (reports job arrivals)).remaining ≠ [])
    (apart : ∀ shared, workshop.registry.entries.get? identity = some shared →
      ∀ arrival ∈ arrivals, shared.id ∉ arrival.held) :
    (workshop.takeIn arrivals).Unrivalled job identity ∧
      (workshop.takeIn arrivals).registry.entries.get? identity =
        workshop.registry.entries.get? identity := by
  induction arrivals generalizing workshop entry with
  | nil => exact ⟨unrivalled, rfl⟩
  | cons first rest inductionHypothesis =>
    by_cases own : first.result.group = job
    · subst own
      rw [reports_own rfl] at more
      obtain ⟨stepped, there⟩ := receive_own first.held found more
      have filed := unrivalled.withEntry found (InFlight.record_identity entry first.result)
      rw [← stepped] at filed
      have same : (Workshop.receive first.held workshop first.result).registry =
          workshop.registry := by
        rw [stepped]
        rfl
      rw [← same] at apart ⊢
      exact inductionHypothesis filed there more fun shared entered arrival member =>
        apart shared entered arrival (List.mem_cons_of_mem _ member)
    · rw [reports_other own] at more
      obtain ⟨after, same⟩ := unrivalled.receive first.held own fun shared entered =>
        apart shared entered first List.mem_cons_self
      rw [← same] at apart ⊢
      exact inductionHypothesis after
        ((unmoved_receive workshop first.held own).entry.trans found) more
        fun shared entered arrival member =>
          apart shared entered arrival (List.mem_cons_of_mem _ member)

end Unrivalled

/-- If no other compile of the identity is in flight and no map that is registered for it is kept
alive, whatever comes for others meanwhile, no such map is alive when the last result arrives. -/
theorem Unrivalled.vacantAtLast {identity : MapIdentity} {waiting : InFlight}
    (unrivalled : workshop.Unrivalled job identity)
    (found : workshop.manager.jobs.get? job = some waiting)
    (counts : Counts waiting job arrivals)
    (apart : ∀ shared, workshop.registry.entries.get? identity = some shared →
      ∀ arrival ∈ arrivals, shared.id ∉ arrival.held) :
    VacantAtLast workshop arrivals job identity := by
  rintro earlier last later rfl own nothing shared there alive
  have more := (counts earlier (last :: later) rfl).not.mpr (reports_ne_nil own [] later)
  obtain ⟨still, same⟩ := unrivalled.takeIn found more fun shared entered arrival member =>
    apart shared entered arrival (List.mem_append_left _ member)
  rcases List.mem_append.mp alive with outer | kept
  · exact apart shared (same ▸ there) last (List.mem_append_right _ List.mem_cons_self) outer
  · exact (still.dead shared there).2 kept

/-! ### The same in any order -/

variable {required : List Permutation} {answer : Permutation → Except CompileError Binary}

theorem permutations_answers :
    (answers job required answer).map PermutationResult.permutation = required.eraseDups := by
  unfold answers
  rw [List.map_map]
  exact List.map_id _

/-- Where there is one result for each permutation, a permutation is missing as long as a result
is still to come. -/
theorem counts_answers (entry : InFlight) (profile : Profile)
    (own : (reports job arrivals).Perm (answers job required answer)) :
    Counts (expecting entry required profile) job arrivals := by
  intro earlier later parted
  have keys := own.map PermutationResult.permutation
  rw [parted, reports_append, List.map_append, permutations_answers] at keys
  rw [InFlight.filing_eq]
  show required.eraseDups.filter _ = [] ↔ _
  rw [List.filter_eq_nil_iff]
  constructor
  · intro missing
    by_contra coming
    obtain ⟨result, member⟩ := List.exists_mem_of_ne_nil _ coming
    have due : result.permutation ∈ (reports job later).map PermutationResult.permutation :=
      List.mem_map_of_mem member
    have come := missing result.permutation (keys.mem_iff.mp (List.mem_append_right _ due))
    have distinct := keys.nodup_iff.mpr (nodup_eraseDups required)
    exact List.disjoint_of_nodup_append distinct (by simpa using come) due
  · intro nothing permutation asked
    rw [nothing, List.map_nil, List.append_nil] at keys
    simpa using keys.mem_iff.mpr asked

/-- What has been filed for a compile that had received nothing before. -/
theorem filing_expecting (bare : entry.binaries = [] ∧ entry.errors = [])
    (required : List Permutation) (profile : Profile) (results : List PermutationResult) :
    let filed := (expecting entry required profile).filing results
    filed.identity = entry.identity ∧ filed.name = entry.name ∧
      filed.resources = entry.resources ∧ filed.profile = some profile ∧
      MapContent.mk filed.binaries profile =
        .ofBinaries (results.filterMap PermutationResult.binary?) profile ∧
      filed.errors = results.filterMap PermutationResult.error? := by
  rw [InFlight.filing_eq]
  unfold expecting
  dsimp only
  rw [bare.1, bare.2]
  exact ⟨rfl, rfl, rfl, rfl, rfl, rfl⟩

theorem mem_answers {result : PermutationResult} :
    result ∈ answers job required answer ↔
      ∃ permutation ∈ required, ⟨job, permutation, answer permutation⟩ = result := by
  unfold answers
  simp only [List.mem_map, List.mem_eraseDups]

theorem errors_answers_eq_nil (job : JobId) :
    (answers job required answer).filterMap PermutationResult.error? = [] ↔
      ∀ permutation ∈ required, (answer permutation).isOk := by
  rw [List.filterMap_eq_nil_iff]
  constructor
  · intro clean permutation asked
    have none := clean _ (mem_answers.mpr ⟨permutation, asked, rfl⟩)
    unfold PermutationResult.error? at none
    dsimp only at none
    split at none
    · rename_i binary same
      rw [same]
      rfl
    · cases none
  · intro clean result member
    obtain ⟨permutation, asked, rfl⟩ := mem_answers.mp member
    have fine := clean permutation asked
    unfold PermutationResult.error?
    dsimp only
    split
    · rfl
    · rename_i error same
      rw [same] at fine
      cases fine

theorem sublist_permutations (results : List PermutationResult) :
    ((results.filterMap PermutationResult.binary?).map Prod.fst).Sublist
      (results.map PermutationResult.permutation) := by
  induction results with
  | nil => exact .slnil
  | cons first rest inductionHypothesis =>
    obtain ⟨group, permutation, outcome⟩ := first
    cases outcome with
    | ok binary => exact inductionHypothesis.cons_cons permutation
    | error error => exact inductionHypothesis.cons permutation

/-- Whatever the order of the answers, the content is the same. -/
theorem content_answers (profile : Profile) {results : List PermutationResult}
    (own : results.Perm (answers job required answer)) :
    MapContent.ofBinaries (results.filterMap PermutationResult.binary?) profile =
      .ofBinaries ((answers job required answer).filterMap PermutationResult.binary?) profile := by
  have distinct : (results.map PermutationResult.permutation).Nodup := by
    rw [(own.map _).nodup_iff, permutations_answers]
    exact nodup_eraseDups required
  exact MapContent.ofBinaries_perm (own.filterMap _)
    (distinct.sublist (sublist_permutations results)) profile

/-- The content that is made of answers has exactly the binaries among them. -/
theorem binary?_answers (profile : Profile) (permutation : Permutation) :
    (MapContent.ofBinaries ((answers job required answer).filterMap PermutationResult.binary?)
      profile).binary? permutation =
    if permutation ∈ required then (answer permutation).toOption else none := by
  have answered : ∀ entry ∈ (answers job required answer).filterMap PermutationResult.binary?,
      entry.1 ∈ required ∧ (answer entry.1).toOption = some entry.2 := by
    intro entry member
    obtain ⟨result, there, same⟩ := List.mem_filterMap.mp member
    obtain ⟨asked, isAsked, rfl⟩ := mem_answers.mp there
    obtain ⟨binary, compiled, rfl⟩ := Option.map_eq_some_iff.mp same
    exact ⟨isAsked, compiled⟩
  rw [MapContent.binary?_ofBinaries (fun permutation => (answer permutation).toOption)
    fun entry member => (answered entry member).2]
  by_cases present : permutation ∈
      ((answers job required answer).filterMap PermutationResult.binary?).map Prod.fst
  · obtain ⟨entry, member, rfl⟩ := List.mem_map.mp present
    rw [if_pos present, if_pos (answered entry member).1]
  · rw [if_neg present]
    split
    · rename_i asked
      cases compiled : (answer permutation).toOption with
      | none => rfl
      | some binary =>
        refine absurd (List.mem_map.mpr ⟨(permutation, binary), List.mem_filterMap.mpr
          ⟨_, mem_answers.mpr ⟨permutation, asked, rfl⟩, ?_⟩, rfl⟩) present
        unfold PermutationResult.binary?
        rw [compiled]
        rfl
    · rfl

/-- The outcome of a compile does not depend on the order in which its results arrive, nor on what
arrives between them. It ends with the last of its results. If all of them are binaries and no
map that is registered for its identity is alive then, it yields a map that is entered, with
exactly these binaries and what lowering has told of the material. That none is alive then is
certain, in any order, if it had no rival when its material was lowered. If there are errors among
the results, it fails with exactly these and enters nothing. -/
theorem outcome_of_arrivals (found : workshop.manager.jobs.get? job = some entry)
    (bare : entry.binaries = [] ∧ entry.errors = []) (needed : required ≠ [])
    (held : List MapId) (profile : Profile)
    (answer : Permutation → Except CompileError Binary) :
    ∃ armed, workshop.lowered held job required profile = some armed ∧
      ∀ arrivals, (reports job arrivals).Perm (answers job required answer) →
        ∃ result,
          EndsAtLast armed arrivals ⟨job, entry.identity, result, entry.resources⟩ ∧
          ((∀ permutation ∈ required, (answer permutation).isOk) →
            VacantAtLast armed arrivals job entry.identity →
            ∃ shared, result = .ok shared ∧
              shared.map = {
                identity := entry.identity
                name := entry.name
                content := some (.ofBinaries
                  ((answers job required answer).filterMap PermutationResult.binary?) profile) } ∧
              (∀ permutation, shared.map.binary? permutation =
                if permutation ∈ required then (answer permutation).toOption else none) ∧
              ∀ earlier later, arrivals = earlier ++ later → reports job later = [] →
                (armed.takeIn earlier).registry.entries.get? entry.identity = some shared) ∧
          (workshop.Unrivalled job entry.identity →
            (∀ shared, workshop.registry.entries.get? entry.identity = some shared →
              ∀ arrival ∈ arrivals, shared.id ∉ arrival.held) →
            VacantAtLast armed arrivals job entry.identity) ∧
          (¬ (∀ permutation ∈ required, (answer permutation).isOk) →
            (∃ errors, result = .error (.compile errors) ∧
              errors.Perm ((answers job required answer).filterMap PermutationResult.error?)) ∧
            ∀ earlier own later, arrivals = earlier ++ own :: later → own.result.group = job →
              (armed.takeIn (earlier ++ [own])).registry = (armed.takeIn earlier).registry) := by
  let waiting := expecting entry required profile
  have due : waiting.remaining ≠ [] := by
    obtain ⟨first, member⟩ := List.exists_mem_of_ne_nil _ needed
    exact List.ne_nil_of_mem (List.mem_eraseDups.mpr member)
  have lowers : workshop.lowered held job required profile =
      some (workshop.withEntry job waiting) :=
    (lowered_cases workshop held required profile found).resolve_right fun none => due none.1
  have there : (workshop.withEntry job waiting).manager.jobs.get? job = some waiting :=
    (Table.get?_insert ..).trans (if_pos rfl)
  refine ⟨_, lowers, fun arrivals own => ?_⟩
  have counts : Counts waiting job arrivals := counts_answers entry profile own
  have comes : reports job arrivals ≠ [] := by
    obtain ⟨first, member⟩ := List.exists_mem_of_ne_nil _ needed
    exact List.ne_nil_of_mem (own.mem_iff.mpr (mem_answers.mpr ⟨first, member, rfl⟩))
  obtain ⟨earlier, last, later, rfl, mine, nothing⟩ := exists_last comes
  obtain ⟨identity, name, resources, profiled, content, errors⟩ :=
    filing_expecting bare required profile (reports job (earlier ++ last :: later))
  generalize all : waiting.filing (reports job (earlier ++ last :: later)) = filed
    at identity name resources profiled content errors
  have ends := endsAtLast there rfl counts all mine nothing
  rw [identity, resources] at ends
  have reported : filed.errors.Perm
      ((answers job required answer).filterMap PermutationResult.error?) :=
    errors ▸ own.filterMap _
  have clean_iff : filed.errors = [] ↔ ∀ permutation ∈ required, (answer permutation).isOk := by
    rw [← errors_answers_eq_nil job]
    exact ⟨fun clean => List.nil_perm.mp (clean ▸ reported),
      fun clean => List.perm_nil.mp (clean ▸ reported)⟩
  refine ⟨_, ends, fun compiled vacant => ?_, fun unrivalled apart => ?_,
    fun faulty => ⟨?_, fun first again rest parted isOwn => ?_⟩⟩
  · obtain ⟨shared, verdict, map, enters⟩ := entered_from_last there rfl counts all mine nothing
      profiled (clean_iff.mpr compiled) (identity ▸ vacant earlier last later rfl mine nothing)
    rw [identity, name, content, content_answers profile own] at map
    refine ⟨shared, verdict, map, fun permutation => ?_, identity ▸ enters⟩
    rw [map]
    exact binary?_answers profile permutation
  · have begun : (workshop.withEntry job waiting).Unrivalled job entry.identity :=
      unrivalled.withEntry found rfl
    exact begun.vacantAtLast there counts apart
  · exact ⟨_, (finalize_failed _ _ job (clean_iff.not.mpr faulty)).1, reported⟩
  · rw [parted] at counts all
    refine registry_own there rfl counts ?_ isOwn
    rw [all]
    exact clean_iff.not.mpr faulty

def twoPermutations : List Permutation := [{ shaderType := "base" }, { shaderType := "depth" }]

/-- The results of the first compile in the wrong order, and between them one of a compile that
nobody knows. -/
def crossing (answer : Permutation → Except CompileError Binary) : List Arrival :=
  [⟨[], .first, { shaderType := "depth" }, answer { shaderType := "depth" }⟩,
    ⟨[], .next .first, default, .error default⟩,
    ⟨[], .first, { shaderType := "base" }, answer { shaderType := "base" }⟩]

theorem crossing_concluded :
    let begun := ({} : Workshop).begun Traffic.bareRequest
    let coded : Permutation → Except CompileError Binary := fun permutation =>
      .ok ⟨if permutation.shaderType = "base" then [1] else [2], default⟩
    let refused : Permutation → Except CompileError Binary := fun permutation =>
      .error ⟨permutation.shaderType, "refused"⟩
    ∃ armed, begun.lowered [] .first twoPermutations default = some armed ∧
      (∃ shared, (armed.takeIn (crossing coded)).endings .first =
          [⟨.first, default, .ok shared, [.first]⟩] ∧
        shared.map.binary? { shaderType := "base" } = some ⟨[1], default⟩ ∧
        shared.map.binary? { shaderType := "depth" } = some ⟨[2], default⟩ ∧
        (armed.takeIn (crossing coded)).registry.entries.get? default = some shared) ∧
      ∃ errors, (armed.takeIn (crossing refused)).endings .first =
          [⟨.first, default, .error (.compile errors), [.first]⟩] ∧
        errors.Perm [⟨"base", "refused"⟩, ⟨"depth", "refused"⟩] := by
  intro begun coded refused
  have found : begun.manager.jobs.get? .first = some Traffic.bareRequest.entry :=
    begun_takeIn {} Traffic.bareRequest (show reports _ [] = [] from rfl)
  have empty (shared : SharedMap) : begun.registry.entries.get? default ≠ some shared :=
    (Option.some_ne_none shared).symm
  have unrivalled : begun.Unrivalled .first default := by
    refine ⟨fun other its there _ => ?_, fun shared there => absurd there (empty shared)⟩
    rw [begun_jobs, Table.get?_insert] at there
    split at there
    · assumption
    · cases there
  obtain ⟨armed, lowers, settles⟩ := outcome_of_arrivals found ⟨rfl, rfl⟩
    (show twoPermutations ≠ [] from List.cons_ne_nil _ _) [] default coded
  obtain ⟨again, alike, fails⟩ := outcome_of_arrivals found ⟨rfl, rfl⟩
    (show twoPermutations ≠ [] from List.cons_ne_nil _ _) [] default refused
  cases lowers.symm.trans alike
  have before : armed.endings .first = [] := by
    have waits : begun.lowered [] .first twoPermutations default = some (begun.withEntry .first
      (expecting Traffic.bareRequest.entry twoPermutations default)) := rfl
    obtain rfl := Option.some.inj (lowers.symm.trans waits)
    rfl
  refine ⟨armed, lowers, ?_, ?_⟩
  · obtain ⟨result, ends, yields, free, _⟩ := settles (crossing coded) (.swap ..)
    obtain ⟨shared, rfl, _, binaries, entered⟩ := yields (fun _ _ => rfl)
      (free unrivalled fun shared there => absurd there (empty shared))
    refine ⟨shared, ?_, binaries _, binaries _, entered _ [] (List.append_nil _).symm rfl⟩
    rw [(ends.after _ [] (List.append_nil _).symm rfl).2, before]
    rfl
  · obtain ⟨result, ends, _, _, refuses⟩ := fails (crossing refused) (.swap ..)
    have base : ({ shaderType := "base" } : Permutation) ∈ twoPermutations := List.mem_cons_self
    obtain ⟨⟨errors, rfl, reported⟩, _⟩ := refuses fun fine =>
      Bool.false_ne_true (fine _ base)
    refine ⟨errors, ?_, reported⟩
    rw [(ends.after _ [] (List.append_nil _).symm rfl).2, before]
    rfl

end Shading.Workshop
