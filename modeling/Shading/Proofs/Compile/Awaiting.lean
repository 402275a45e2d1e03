/-
Requests and what comes of them. Results may arrive in any order and for any
compile; a request that is served at once still ends with the map that its
identity yields when it is made, and leaves the workshop in good order.
-/

import Shading.Proofs.Compile.Finishing

namespace Shading.Workshop

variable {needs : MapIdentity → Permutation → Prop} {outside : List SharedMap}
  {held : List MapId} {workshop : Workshop} {favours : SharedMap → Prop}
  {identity : MapIdentity} {job other : JobId} {entry : InFlight}

/-- A compile is waited for: it belongs to an identity, has ended with a map that is favoured if
it has ended with a map, and yields such a map as long as it is in flight. -/
structure Awaits (needs : MapIdentity → Permutation → Prop) (favours : SharedMap → Prop)
    (identity : MapIdentity) (job : JobId) (held : List MapId) (workshop : Workshop) : Prop where
  underway : ∀ entry, workshop.manager.jobs.get? job = some entry → entry.identity = identity
  outcome : ∀ compile ∈ workshop.manager.finished, compile.job = job →
    compile.identity = identity ∧ ∀ shared, compile.map? = some shared → favours shared
  yields : (workshop.manager.jobs.get? job).isSome →
    workshop.Yields needs favours identity held

/-- Neither compiles nor maps have changed. -/
structure Idle (workshop next : Workshop) : Prop where
  registry : next.registry = workshop.registry
  usesStore : next.usesStore = workshop.usesStore
  jobs : next.manager.jobs = workshop.manager.jobs
  byIdentity : next.manager.byIdentity = workshop.manager.byIdentity
  nextJob : next.manager.nextJob = workshop.manager.nextJob
  finished : next.manager.finished = workshop.manager.finished
  unwritten : next.manager.unwritten = workshop.manager.unwritten

namespace Idle

variable {next : Workshop}

theorem trans {last : Workshop} (first : Idle workshop next) (second : Idle next last) :
    Idle workshop last :=
  ⟨second.registry.trans first.registry, second.usesStore.trans first.usesStore,
    second.jobs.trans first.jobs, second.byIdentity.trans first.byIdentity,
    second.nextJob.trans first.nextJob, second.finished.trans first.finished,
    second.unwritten.trans first.unwritten⟩

theorem trimmed (idle : Idle workshop next) : workshop.manager.Trimmed next.manager :=
  .of_finished idle.finished (idle.unwritten ▸ List.Subset.refl _)

theorem heldMaps (idle : Idle workshop next) (held : List MapId) :
    next.heldMaps held = workshop.heldMaps held := by
  show held ++ (next.manager.finished.filterMap _ ++ next.manager.unwritten).map _ = _
  rw [idle.finished, idle.unwritten]
  rfl

theorem yields (idle : Idle workshop next)
    (yields : workshop.Yields needs favours identity held) :
    next.Yields needs favours identity held := by
  unfold Yields
  rw [idle.registry, idle.heldMaps]
  exact yields

theorem sound (idle : Idle workshop next) (sound : Sound needs outside held workshop) :
    Sound needs outside held next := by
  refine ⟨sound.orderly.trim idle.trimmed idle.jobs idle.byIdentity idle.nextJob, ?_, ?_⟩
  · rw [idle.registry]
    refine sound.genuine.fewer fun shared member => List.mem_append_left _ ?_
    exact (List.mem_append.mp member).elim (List.mem_append_left _)
      fun made => List.mem_append_right _ (idle.trimmed.maps made)
  · rw [idle.usesStore, idle.unwritten]
    exact sound.tidy

theorem awaits (idle : Idle workshop next)
    (awaits : Awaits needs favours identity job held workshop) :
    Awaits needs favours identity job held next := by
  refine ⟨?_, ?_, ?_⟩
  · rw [idle.jobs]
    exact awaits.underway
  · rw [idle.finished]
    exact awaits.outcome
  · rw [idle.jobs]
    exact fun flying => idle.yields (awaits.yields flying)

theorem releaseAll (workshop : Workshop) : Idle workshop workshop.releaseAll :=
  ⟨rfl, rfl, rfl, rfl, rfl, rfl, rfl⟩

theorem submit (workshop : Workshop) (job : PermutationJob) : Idle workshop (workshop.submit job) :=
  ⟨rfl, rfl, rfl, rfl, rfl, rfl, rfl⟩

end Idle

/-! ### Results that arrive -/

/-- A workshop where the entry of one compile in flight has been written anew. -/
def withEntry (workshop : Workshop) (job : JobId) (entry : InFlight) : Workshop :=
  { workshop with manager :=
      { workshop.manager with jobs := workshop.manager.jobs.insert job entry } }

theorem Sound.revise {revised : InFlight} (sound : Sound needs outside held workshop)
    (found : workshop.manager.jobs.get? other = some entry)
    (same : revised.identity = entry.identity)
    (covers : revised.lowering = false → revised.Covers (needs entry.identity)) :
    Sound needs outside held (workshop.withEntry other revised) :=
  sound.onManager (sound.orderly.revise found same covers)
    (.of_finished rfl (List.Subset.refl _))

theorem Awaits.revise {revised : InFlight}
    (awaits : Awaits needs favours identity job held workshop)
    (found : workshop.manager.jobs.get? other = some entry)
    (same : revised.identity = entry.identity) :
    Awaits needs favours identity job held (workshop.withEntry other revised) := by
  refine ⟨fun written there => ?_, awaits.outcome, fun there => awaits.yields ?_⟩
  · change (workshop.manager.jobs.insert other revised).get? job = _ at there
    rw [Table.get?_insert] at there
    split at there
    · rename_i here
      cases there
      exact same.trans (awaits.underway entry (here ▸ found))
    · exact awaits.underway written there
  · change ((workshop.manager.jobs.insert other revised).get? job).isSome at there
    rw [Table.get?_insert] at there
    split at there
    · rename_i here
      rw [here, found]
      rfl
    · exact there

theorem Awaits.finalize {recorded : InFlight}
    (awaits : Awaits needs favours identity job held workshop)
    (sound : Sound needs outside held workshop)
    (found : workshop.manager.jobs.get? other = some recorded)
    (same : entry.identity = recorded.identity) (covers : entry.Covers (needs entry.identity))
    (arrived : entry.remaining = []) :
    Awaits needs favours identity job held (workshop.finalize held other entry) := by
  have jobs : (workshop.finalize held other entry).manager.jobs.get? job =
      if job = other then none else workshop.manager.jobs.get? job := by
    rw [finalize_jobs, Table.get?_erase]
  refine ⟨fun written there => ?_, fun compile member ofJob => ?_, fun there => ?_⟩
  · rw [jobs] at there
    split at there
    · cases there
    · exact awaits.underway written there
  · by_cases here : job = other
    · have flying : (workshop.manager.jobs.get? job).isSome := by
        rw [here, found]
        rfl
      have belongs := same.trans (awaits.underway recorded (here ▸ found))
      rcases (finalize_yields sound covers arrived (awaits.yields flying)).2 compile member with
        before | ⟨_, is, favoured⟩
      · exact awaits.outcome compile before ofJob
      · exact ⟨is.trans belongs, favoured belongs⟩
    · rcases (finalize_yields sound covers arrived (yields_any workshop needs identity held)).2
        compile member with before | ⟨isOther, _⟩
      · exact awaits.outcome compile before ofJob
      · exact absurd (ofJob.symm.trans isOther) here
  · rw [jobs] at there
    split at there
    · cases there
    · exact (finalize_yields sound covers arrived (awaits.yields there)).1

/-- A result counts if its compile is in flight: it is filed, and the compile ends if it was the
last one. -/
theorem receive_cases (workshop : Workshop) (held : List MapId) (result : PermutationResult) :
    receive held workshop result = workshop ∨
      ∃ entry, workshop.manager.jobs.get? result.group = some entry ∧
        let recorded := record entry result
        let filed := workshop.withEntry result.group recorded
        receive held workshop result = filed ∨ recorded.remaining = [] ∧
          recorded.lowering = false ∧
          receive held workshop result = filed.finalize held result.group recorded := by
  unfold receive
  cases found : workshop.manager.jobs.get? result.group with
  | none => exact .inl rfl
  | some entry =>
    refine .inr ⟨entry, rfl, ?_⟩
    dsimp only
    split
    · rename_i last
      obtain ⟨arrived, lowered⟩ := Bool.and_eq_true_iff.mp last
      exact .inr ⟨of_decide_eq_true arrived, (Bool.not_eq_true' _).mp lowered, rfl⟩
    · exact .inl rfl

/-- Results arrive, whatever they are. -/
theorem Sound.receive (sound : Sound needs outside held workshop) (result : PermutationResult) :
    Sound needs outside held (Workshop.receive held workshop result) ∧
      ∀ {favours identity job}, Awaits needs favours identity job held workshop →
        Awaits needs favours identity job held (Workshop.receive held workshop result) := by
  rcases receive_cases workshop held result with same | ⟨entry, found, cases⟩
  · rw [same]
    exact ⟨sound, id⟩
  · have belongs := InFlight.record_identity entry result
    have covers (lowered : (record entry result).lowering = false) :
        (record entry result).Covers (needs entry.identity) :=
      ((sound.orderly.begun _ entry found).2
        ((InFlight.record_lowering entry result).symm.trans lowered)).record result
    have filed := sound.revise found belongs covers
    have there := (Table.get?_insert workshop.manager.jobs result.group result.group
      (record entry result)).trans (if_pos rfl)
    rcases cases with same | ⟨arrived, lowered, same⟩
    · rw [same]
      exact ⟨filed, fun awaits => awaits.revise found belongs⟩
    · rw [same]
      exact ⟨filed.finalize there rfl, fun awaits => (awaits.revise found belongs).finalize filed
        there rfl (belongs ▸ covers lowered) arrived⟩

theorem Sound.drain (sound : Sound needs outside held workshop) :
    Sound needs outside held (workshop.drain held) ∧
      ∀ {favours identity job}, Awaits needs favours identity job held workshop →
        Awaits needs favours identity job held (workshop.drain held) := by
  unfold Workshop.drain
  have emptied : Idle workshop { workshop with manager := { workshop.manager with inbox := [] } } :=
    ⟨rfl, rfl, rfl, rfl, rfl, rfl, rfl⟩
  suffices received : ∀ (arrived : List PermutationResult) (start : Workshop),
      Sound needs outside held start →
      Sound needs outside held (arrived.foldl (Workshop.receive held) start) ∧
        ∀ {favours identity job}, Awaits needs favours identity job held start →
          Awaits needs favours identity job held (arrived.foldl (Workshop.receive held) start) by
    obtain ⟨soundAfter, awaitsAfter⟩ := received workshop.manager.inbox _ (emptied.sound sound)
    exact ⟨soundAfter, fun awaits => awaitsAfter (emptied.awaits awaits)⟩
  intro arrived
  induction arrived with
  | nil => exact fun start sound => ⟨sound, id⟩
  | cons result rest inductionHypothesis =>
    intro start sound
    obtain ⟨soundNext, awaitsNext⟩ := sound.receive result
    obtain ⟨soundAfter, awaitsAfter⟩ := inductionHypothesis _ soundNext
    exact ⟨soundAfter, fun awaits => awaitsAfter (awaitsNext awaits)⟩

theorem flush_finished (workshop : Workshop) :
    workshop.flush.manager.finished = workshop.manager.finished := by
  unfold flush
  split <;> rfl

/-- Waiting for jobs, for whichever they are. What has come of a compile that was waited for is
favoured; whether it yields such a map still does not matter any more. -/
theorem Sound.finish (sound : Sound needs outside held workshop) (jobs : List JobId) :
    Sound needs outside held (workshop.finish held jobs) ∧
      (workshop.finish held jobs).manager.unwritten = [] ∧
      ∀ {favours identity job}, Awaits needs favours identity job held workshop →
        ∀ compile ∈ (workshop.finish held jobs).manager.finished, compile.job = job →
          compile.identity = identity ∧ ∀ shared, compile.map? = some shared → favours shared := by
  unfold Workshop.finish
  obtain ⟨drained, awaitsDrained⟩ := sound.drain
  dsimp only
  split
  · have released := Idle.releaseAll (workshop.drain held)
    obtain ⟨again, awaitsAgain⟩ := (released.sound drained).drain
    refine ⟨again.flush.1, again.flush.2, fun awaits => ?_⟩
    rw [flush_finished]
    exact (awaitsAgain (released.awaits (awaitsDrained awaits))).outcome
  · refine ⟨drained.flush.1, drained.flush.2, fun awaits => ?_⟩
    rw [flush_finished]
    exact (awaitsDrained awaits).outcome

theorem Sound.process (sound : Sound needs outside held workshop) :
    Sound needs outside held (workshop.process held).2 ∧
      (workshop.process held).2.manager.unwritten = [] := by
  obtain ⟨flushed, written⟩ := sound.drain.1.flush
  have trimmed := ((workshop.drain held).flush).manager.trimmed_deliver
  exact ⟨flushed.onManager (flushed.orderly.trim trimmed rfl rfl rfl) trimmed, written⟩

/-! ### Requests -/

end Workshop

/-- The map a request is answered with at once. -/
def CompileOutcome.map? : CompileOutcome → Option SharedMap
  | .compiled map => some map
  | _ => none

namespace Workshop

variable {next : Workshop} {outcome : CompileOutcome} {request : CompileRequest}

/-- What a request leaves behind: good order with the answer known, nothing to be written, and a
map that is favoured and of the right identity if there is one at once. -/
structure Answers (needs : MapIdentity → Permutation → Prop) (outside : List SharedMap)
    (held : List MapId) (favours : SharedMap → Prop) (identity : MapIdentity)
    (answer : Option SharedMap) (next : Workshop) : Prop where
  sound : Sound needs (answer.toList ++ outside) held next
  written : next.manager.unwritten = []
  favoured : ∀ shared, answer = some shared →
    favours shared ∧ shared.map.identity = identity ∧ shared.map.isCompiled

theorem Answers.silent (sound : Sound needs outside held next)
    (written : next.manager.unwritten = []) :
    Answers needs outside held favours identity none next :=
  ⟨sound, written, fun _ none => nomatch none⟩

theorem Sound.await (sound : Sound needs outside held workshop)
    (awaits : Awaits needs favours identity job held workshop) (resource : ResourceId)
    (ran : workshop.await held job resource = (outcome, next)) :
    Answers needs outside held favours identity outcome.map? next := by
  obtain ⟨finished, written, outcomes⟩ := sound.finish [job]
  have ended := outcomes awaits
  unfold Workshop.await at ran
  dsimp only at ran
  generalize workshop.finish held [job] = finish at ran finished written ended
  obtain ⟨orderly, trimmed, comes⟩ := Manager.taken finished.orderly job resource
  generalize finish.manager.take job resource = taken at ran orderly trimmed comes
  have unwaiting : Idle { finish with manager := taken.2 }
      { finish with manager := taken.2.removeWaiter job resource } :=
    ⟨rfl, rfl, rfl, rfl, rfl, rfl, rfl⟩
  have due : taken.2.unwritten = [] := List.subset_nil.mp (written ▸ trimmed.unwritten)
  split at ran
  · rename_i shared result
    cases ran
    obtain ⟨compile, member, ofJob, result⟩ := comes _ result
    obtain ⟨is, favoured⟩ := ended compile member ofJob
    have made : compile.map? = some shared := toOption_eq_some.mpr result
    have known : shared ∈ finish.manager.maps :=
      List.mem_append_left _ (List.mem_filterMap.mpr ⟨compile, member, made⟩)
    refine ⟨?_, due, fun other same => ?_⟩
    · exact unwaiting.sound
        ((finished.also (mem_known_of_maps known outside)).onManager orderly trimmed)
    · cases same
      have keyed := (finished.orderly.finished compile member).2.2 shared made
      exact ⟨favoured shared made, keyed.1.trans is, keyed.2⟩
  · cases ran
    exact .silent (unwaiting.sound (finished.onManager orderly trimmed)) due
  · cases ran
    exact .silent (unwaiting.sound (finished.onManager orderly trimmed)) due

/-- The compile in flight for an identity can be waited for. -/
theorem Sound.awaits_of_inFlight (sound : Sound needs outside held workshop)
    (tracked : workshop.manager.inFlight? identity = some job)
    (yields : workshop.Yields needs favours identity held) :
    Awaits needs favours identity job held workshop := by
  obtain ⟨entry, found, belongs⟩ := sound.orderly.tracked identity job tracked
  refine ⟨fun other there => ?_, fun compile member ofJob => ?_, fun _ => yields⟩
  · rw [found] at there
    cases there
    exact belongs
  · have gone := (sound.orderly.finished compile member).2.1
    rw [ofJob, found] at gone
    cases gone

theorem Awaits.join (awaits : Awaits needs favours identity job held workshop)
    (resource : ResourceId) :
    Awaits needs favours identity job held
      { workshop with manager := workshop.manager.join job resource } := by
  unfold Manager.join Table.modify
  split
  · rename_i entry found
    exact awaits.revise found rfl
  · exact awaits

theorem Sound.joinRequest (sound : Sound needs outside held workshop)
    (written : workshop.manager.unwritten = [])
    (tracked : workshop.manager.inFlight? request.identity = some job)
    (yields : workshop.Yields needs favours request.identity held)
    (ran : workshop.joinRequest held request job = (outcome, next)) :
    Answers needs outside held favours request.identity outcome.map? next := by
  have joined := sound.onManager (sound.orderly.join job request.resource)
    (.of_finished rfl (List.Subset.refl _))
  unfold Workshop.joinRequest at ran
  dsimp only at ran
  split at ran
  · have waiting : Idle { workshop with manager := workshop.manager.join job request.resource }
        { workshop with manager :=
            (workshop.manager.join job request.resource).addWaiter job request.resource } :=
      ⟨rfl, rfl, rfl, rfl, rfl, rfl, rfl⟩
    exact (waiting.sound joined).await
      (waiting.awaits ((sound.awaits_of_inFlight tracked yields).join request.resource)) _ ran
  · cases ran
    exact .silent joined written

/-! ### New compiles -/

theorem Sound.start (sound : Sound needs outside held workshop) (request : CompileRequest) :
    Sound needs outside held { workshop with manager := (workshop.manager.start request).2 } :=
  sound.onManager (sound.orderly.start request) (.of_finished rfl (List.Subset.refl _))

theorem Sound.awaits_start (sound : Sound needs outside held workshop)
    (yields : workshop.Yields needs favours request.identity held) :
    Awaits needs favours request.identity workshop.manager.nextJob held
      { workshop with manager := (workshop.manager.start request).2 } := by
  refine ⟨fun entry found => ?_, fun compile member ofJob => ?_, fun _ => yields⟩
  · change (Table.insert workshop.manager.jobs workshop.manager.nextJob _).get?
      workshop.manager.nextJob = _ at found
    rw [Table.get?_insert, if_pos rfl] at found
    cases found
    rfl
  · have older := (sound.orderly.finished compile member).1
    exact absurd older (ofJob ▸ Nat.lt_irrefl _)

theorem Sound.abort (sound : Sound needs outside held workshop) (job : JobId)
    (requester : ResourceId) (error : LoweringError) :
    Sound needs outside held
        { workshop with manager := workshop.manager.abort job requester error } ∧
      (workshop.manager.abort job requester error).unwritten = workshop.manager.unwritten := by
  have unwaiting : Idle workshop
      { workshop with manager := workshop.manager.removeWaiter job requester } :=
    ⟨rfl, rfl, rfl, rfl, rfl, rfl, rfl⟩
  unfold Manager.abort
  dsimp only
  split
  · exact ⟨unwaiting.sound sound, rfl⟩
  · rename_i entry found
    have rested := unwaiting.sound sound
    split
    · exact ⟨rested.onManager (rested.orderly.remove found rfl)
        (.of_finished rfl (List.Subset.refl _)), rfl⟩
    · have failed := rested.conclude_error
        { entry with resources := entry.resources.filter (· ≠ requester) } (.lowering error)
        found rfl
      exact ⟨failed, rfl⟩

/-- A compile whose material has been lowered. -/
def expecting (entry : InFlight) (permutations : List Permutation) (profile : Profile) : InFlight :=
  { entry with lowering := false, remaining := permutations.eraseDups, profile := some profile }

/-- A compile ends at once if its material needs no permutations. -/
theorem lowered_cases (workshop : Workshop) (held : List MapId) (permutations : List Permutation)
    (profile : Profile) (found : workshop.manager.jobs.get? job = some entry) :
    let expecting := expecting entry permutations profile
    let entered := workshop.withEntry job expecting
    workshop.lowered held job permutations profile = some entered ∨
      expecting.remaining = [] ∧ workshop.lowered held job permutations profile =
        some (entered.finalize held job expecting) := by
  unfold lowered
  rw [found, Option.map_some]
  dsimp only
  split
  · rename_i none
    exact .inr ⟨none, rfl⟩
  · exact .inl rfl

theorem Idle.flush (written : workshop.manager.unwritten = []) :
    Idle workshop workshop.flush := by
  unfold Workshop.flush
  split
  · exact ⟨rfl, rfl, rfl, rfl, rfl, rfl, written.symm⟩
  · exact ⟨rfl, rfl, rfl, rfl, rfl, rfl, rfl⟩

/-- Of a compile that has ended only the result matters. -/
theorem Awaits.flush (awaits : Awaits needs favours identity job held workshop)
    (ended : workshop.manager.jobs.get? job = none) :
    Awaits needs favours identity job held workshop.flush := by
  have gone : workshop.flush.manager.jobs.get? job = none := by
    unfold Workshop.flush
    split <;> exact ended
  refine ⟨fun entry found => ?_, ?_, fun flying => ?_⟩
  · rw [gone] at found
    cases found
  · rw [flush_finished]
    exact awaits.outcome
  · rw [gone] at flying
    cases flying

/-- The compile of a request goes on with its material. -/
theorem Sound.lowered {profile : Profile} {permutations : List Permutation} {next : Workshop}
    (sound : Sound needs outside held workshop) (written : workshop.manager.unwritten = [])
    (awaits : Awaits needs favours identity job held workshop)
    (full : ∀ permutation, needs identity permutation → permutation ∈ permutations)
    (ran : workshop.lowered held job permutations profile = some next) :
    Sound needs outside held next.flush ∧ next.flush.manager.unwritten = [] ∧
      Awaits needs favours identity job held next.flush := by
  obtain ⟨entry, found, _⟩ := Option.map_eq_some_iff.mp ran
  have belongs := awaits.underway entry found
  have covers : (expecting entry permutations profile).Covers (needs entry.identity) :=
    fun permutation needed => .inl (List.mem_eraseDups.mpr (full permutation (belongs ▸ needed)))
  have entered := sound.revise found (by rfl) fun _ => covers
  have waiting : Awaits needs favours identity job held
      (workshop.withEntry job (expecting entry permutations profile)) := awaits.revise found rfl
  rcases lowered_cases workshop held permutations profile found with same | ⟨arrived, same⟩
  · rw [same] at ran
    cases ran
    have idle : Idle (workshop.withEntry job (expecting entry permutations profile)) _ :=
      Idle.flush written
    exact ⟨idle.sound entered, idle.unwritten.trans written, idle.awaits waiting⟩
  · rw [same] at ran
    cases ran
    have there := (Table.get?_insert workshop.manager.jobs job job
      (expecting entry permutations profile)).trans (if_pos rfl)
    have ended := entered.finalize there rfl
    refine ⟨ended.flush.1, ended.flush.2, Awaits.flush ?_ ?_⟩
    · exact waiting.finalize entered there rfl covers arrived
    · rw [finalize_jobs, Table.get?_erase, if_pos rfl]

theorem Idle.submitAll (workshop : Workshop) (jobs : List PermutationJob) :
    Idle workshop (workshop.submitAll undisturbed jobs).2 := by
  have submitted (start : Workshop) (jobs : List PermutationJob) :
      Idle start (jobs.foldl Workshop.submit start) := by
    induction jobs generalizing start with
    | nil => exact ⟨rfl, rfl, rfl, rfl, rfl, rfl, rfl⟩
    | cons first rest inductionHypothesis =>
      exact (Idle.submit start first).trans (inductionHypothesis _)
  cases jobs with
  | nil => exact ⟨rfl, rfl, rfl, rfl, rfl, rfl, rfl⟩
  | cons first rest => exact (Idle.submit workshop first).trans (submitted _ rest)

theorem Sound.compileLowered {material : LoweredMaterial} {told : List Unit}
    (sound : Sound needs outside held workshop) (written : workshop.manager.unwritten = [])
    (awaits : Awaits needs favours identity job held workshop)
    (full : ∀ permutation, needs identity permutation → permutation ∈ request.permutations)
    (ran : workshop.compileLowered held request job material undisturbed =
      ((outcome, told), next)) :
    Answers needs outside held favours identity outcome.map? next := by
  unfold Workshop.compileLowered at ran
  split at ran
  · cases ran
    exact .silent sound written
  · rename_i lowered begun
    obtain ⟨flushed, clear, waiting⟩ := sound.lowered written awaits full begun
    have counted : Idle lowered.flush { lowered.flush with manager := { lowered.flush.manager with
        submissions := lowered.flush.manager.submissions + 1 } } :=
      ⟨rfl, rfl, rfl, rfl, rfl, rfl, rfl⟩
    have submitted := counted.trans
      (Idle.submitAll _ (permutationJobs request job material.source))
    dsimp only at ran
    generalize Workshop.submitAll undisturbed _ _ = submission at ran submitted
    split at ran
    · generalize awaited : submission.2.await held job request.resource = answer at ran
      cases ran
      exact (submitted.sound flushed).await (submitted.awaits waiting) _ awaited
    · cases ran
      exact .silent (submitted.sound flushed) (submitted.unwritten.trans clear)

/-- Serving a request keeps a workshop in good order. If it asks for all that is needed, the map
it is answered with is one that its identity yielded before. -/
theorem Sound.answers {answer : Except LoweringError CompileOutcome}
    (sound : Sound needs outside held workshop) (written : workshop.manager.unwritten = [])
    (full : ∀ permutation, needs request.identity permutation →
      permutation ∈ request.permutations)
    (yields : workshop.Yields needs favours request.identity held)
    (ran : workshop.request held request = (answer, next)) :
    Answers needs outside held favours request.identity
      (answer.toOption.bind CompileOutcome.map?) next := by
  unfold Workshop.request Workshop.begin at ran
  cases tracked : workshop.manager.inFlight? request.identity with
  | some job =>
    rw [tracked] at ran
    cases ran
    exact sound.joinRequest written tracked yields rfl
  | none =>
    rw [tracked] at ran
    have waiting : Idle { workshop with manager := (workshop.manager.start request).2 }
        { workshop with
          manager :=
            if request.synchronous then
              (workshop.manager.start request).2.addWaiter workshop.manager.nextJob
                request.resource
            else (workshop.manager.start request).2 } := by
      split <;> exact ⟨rfl, rfl, rfl, rfl, rfl, rfl, rfl⟩
    have started := waiting.sound (sound.start request)
    have awaits := waiting.awaits (sound.awaits_start yields)
    have clear := waiting.unwritten.trans written
    dsimp only [undisturbed] at ran
    cases lowered : request.variant.lower with
    | error error =>
      rw [lowered] at ran
      cases ran
      obtain ⟨aborted, same⟩ := started.abort workshop.manager.nextJob request.resource error
      exact .silent aborted (same.trans clear)
    | ok material =>
      rw [lowered] at ran
      cases ran
      exact started.compileLowered clear awaits full rfl

end Shading.Workshop
