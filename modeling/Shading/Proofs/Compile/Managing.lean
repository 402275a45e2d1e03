/-
Whatever anybody does with a workshop. Requests are made, and while one is
served anything may happen besides, further requests included; compiles are
joined, left and waited for; results arrive, are taken and handed over; the
registry is asked and cleaned up; and everything may be shut down. Through all
of it, a map that anybody holds is the one that is entered under its identity.
-/

import Shading.Proofs.Compile.Telling

namespace Shading.Workshop

/-- What is done with a workshop, with the maps that are held outside before and afterwards. Who
looks at what is held has to know of everybody who holds a map. -/
inductive Managed : Stage → Stage → Prop where
  | rest (stage : Stage) : Managed stage stage
  | andThen {first middle last} : Managed first middle → Managed middle last → Managed first last
  /-- Maps are dropped outside, or more hold the maps that somebody holds. -/
  | hold {outside outside' workshop} : outside' ⊆ outside ++ workshop.manager.maps →
    Managed (outside, workshop) (outside', workshop)
  /-- The compiler, the store and the inbox change in whatever way. -/
  | aside {outside workshop next} : Idle workshop next →
    next.manager.lowerings = workshop.manager.lowerings →
    Managed (outside, workshop) (outside, next)
  | attach {outside workshop} (identity : MapIdentity) (resource : ResourceId) :
    Managed (outside, workshop)
      (outside, { workshop with manager := (workshop.manager.attach identity resource).2 })
  | cancel {outside workshop} (resource : ResourceId) (jobs : List JobId) :
    Managed (outside, workshop)
      (outside, { workshop with manager := workshop.manager.cancel resource jobs })
  | take {outside workshop job resource result manager} :
    workshop.manager.take job resource = (result, manager) →
    Managed (outside, workshop)
      ((result.bind Except.toOption).toList ++ outside, { workshop with manager })
  | process {outside workshop} (held : List MapId) : (∀ shared ∈ outside, shared.id ∈ held) →
    Managed (outside, workshop)
      ((workshop.process held).1.filterMap FinishedCompile.map? ++ outside,
        (workshop.process held).2)
  | finish {outside workshop} (held : List MapId) (jobs : List JobId) :
    (∀ shared ∈ outside, shared.id ∈ held) →
    Managed (outside, workshop) (outside, workshop.finish held jobs)
  | finishAll {outside workshop} (held : List MapId) : (∀ shared ∈ outside, shared.id ∈ held) →
    Managed (outside, workshop) (outside, workshop.finishAll held)
  | find {outside workshop} (held : List MapId) (identity : MapIdentity) :
    (∀ shared ∈ outside, shared.id ∈ held) → Managed (outside, workshop)
      ((workshop.registry.find (workshop.heldMaps held) identity).1.toList ++ outside,
        { workshop with
          registry := (workshop.registry.find (workshop.heldMaps held) identity).2 })
  | purge {outside workshop} (held : List MapId) : (∀ shared ∈ outside, shared.id ∈ held) →
    Managed (outside, workshop)
      (outside, { workshop with registry := (workshop.registry.purge (workshop.heldMaps held)).2 })
  | shutdown {outside workshop} :
    Managed (outside, workshop) (outside, { workshop with manager := workshop.manager.shutdown })
  /-- A request is made. What happens besides while it is served leaves nobody with a map that the
  request does not know to be held. -/
  | begin {outside workshop} {α : Type} (held : List MapId) (request : CompileRequest)
    (whileLowering afterFirst : Meanwhile α) : (∀ shared ∈ outside, shared.id ∈ held) →
    (∀ workshop, Managed (outside, workshop) (outside, (whileLowering workshop).2)) →
    (∀ workshop, Managed (outside, workshop) (outside, (afterFirst workshop).2)) →
    Managed (outside, workshop)
      (((workshop.begin held request whileLowering afterFirst).1.toOption.bind
          CompileOutcome.map?).toList ++ outside,
        (workshop.begin held request whileLowering afterFirst).2.2)

/-- Nothing is needed of the map of any identity. -/
def nothing : MapIdentity → Permutation → Prop := fun _ _ => False

/-- Something that can be said of stages, and that can still be said whatever is done. -/
structure Lasting (fact : Stage → Prop) : Prop where
  kept : ∀ {stage}, fact stage → Kept nothing stage
  evolves : ∀ {stage told last}, fact stage → Evolves nothing stage told last → fact last
  begun : ∀ {outside workshop} (request : CompileRequest), fact (outside, workshop) →
    workshop.manager.inFlight? request.identity = none → fact (outside, workshop.begun request)
  shutdown : ∀ {outside workshop}, fact (outside, workshop) →
    fact (outside, { workshop with manager := workshop.manager.shutdown })

namespace Lasting

variable {fact : Stage → Prop} {outside : List SharedMap} {held : List MapId}
  {workshop next : Workshop} {job : JobId} {request : CompileRequest} {α : Type}
  {afterFirst : Meanwhile α}

theorem calm (lasting : Lasting fact) (before : fact (outside, workshop))
    (calm : Calm workshop next) : fact (outside, next) :=
  lasting.evolves before (.calm calm)

theorem submitAll (lasting : Lasting fact) (before : fact (outside, workshop))
    (meanwhile : ∀ workshop, fact (outside, workshop) → fact (outside, (afterFirst workshop).2))
    (jobs : List PermutationJob) : fact (outside, (workshop.submitAll afterFirst jobs).2) := by
  have submits (workshop : Workshop) (jobs : List PermutationJob)
      (before : fact (outside, workshop)) :
      fact (outside, jobs.foldl Workshop.submit workshop) := by
    induction jobs generalizing workshop with
    | nil => exact before
    | cons first rest inductionHypothesis =>
      exact inductionHypothesis _ (lasting.calm before (.of_idle (.submit workshop first) rfl))
  cases jobs with
  | nil => exact before
  | cons first rest =>
    exact submits _ rest
      (meanwhile _ (lasting.calm before (.of_idle (.submit workshop first) rfl)))

theorem compileLowered {outcome : CompileOutcome} {told : List α} {material : LoweredMaterial}
    (lasting : Lasting fact) (before : fact (outside, workshop))
    (holds : ∀ shared ∈ outside, shared.id ∈ held)
    (meanwhile : ∀ workshop, fact (outside, workshop) → fact (outside, (afterFirst workshop).2))
    (ran : workshop.compileLowered held request job material afterFirst =
      ((outcome, told), next)) :
    fact (outcome.map?.toList ++ outside, next) := by
  unfold Workshop.compileLowered at ran
  split at ran
  · cases ran
    exact before
  · rename_i entered lowers
    have lowered : Evolves nothing (outside, workshop) _ (outside, entered) :=
      .lowered (fun _ _ _ needed => needed.elim) holds lowers
    have flushed := lasting.calm (lasting.evolves before lowered) (.flush entered)
    have counted : fact (outside, { entered.flush with
        manager := { entered.flush.manager with
          submissions := entered.flush.manager.submissions + 1 } }) :=
      lasting.calm flushed (.of_idle ⟨rfl, rfl, rfl, rfl, rfl, rfl, rfl⟩ rfl)
    have submitted :=
      lasting.submitAll counted meanwhile (permutationJobs request job material.source)
    dsimp only at ran
    generalize Workshop.submitAll afterFirst _ _ = submission at ran submitted
    split at ran
    · generalize awaited : submission.2.await held job request.resource = answer at ran
      cases ran
      exact lasting.evolves submitted
        (.await (lasting.kept submitted) holds request.resource awaited)
    · cases ran
      exact submitted

theorem begin {whileLowering : Meanwhile α} {answer : Except LoweringError CompileOutcome}
    {told : List α} (lasting : Lasting fact) (before : fact (outside, workshop))
    (holds : ∀ shared ∈ outside, shared.id ∈ held)
    (lowering : ∀ workshop, fact (outside, workshop) → fact (outside, (whileLowering workshop).2))
    (meanwhile : ∀ workshop, fact (outside, workshop) → fact (outside, (afterFirst workshop).2))
    (ran : workshop.begin held request whileLowering afterFirst = (answer, told, next)) :
    fact ((answer.toOption.bind CompileOutcome.map?).toList ++ outside, next) := by
  unfold Workshop.begin at ran
  cases flying : workshop.manager.inFlight? request.identity with
  | some job =>
    rw [flying] at ran
    cases ran
    exact lasting.evolves before (.joinRequest (lasting.kept before) holds rfl)
  | none =>
    rw [flying] at ran
    have begun := lowering _ (lasting.begun request before flying)
    dsimp only at ran
    cases lowers : request.variant.lower with
    | error error =>
      rw [lowers] at ran
      cases ran
      exact lasting.evolves begun (.abort _ request.resource error)
    | ok material =>
      rw [lowers] at ran
      cases ran
      exact lasting.compileLowered begun holds meanwhile rfl

/-- Whatever is done, what lasts can still be said. -/
theorem managed {stage last : Stage} (lasting : Lasting fact) (before : fact stage)
    (managed : Managed stage last) : fact last := by
  induction managed with
  | rest => exact before
  | andThen _ _ first second => exact second (first before)
  | hold fewer => exact lasting.evolves before (.pass fewer)
  | aside idle lowerings => exact lasting.calm before (.of_idle idle lowerings)
  | attach identity resource =>
    unfold Manager.attach
    split
    · exact lasting.evolves before (.join _ resource)
    · exact before
  | cancel resource jobs => exact lasting.evolves before (.cancel resource jobs)
  | take ran => exact lasting.evolves before (.take (lasting.kept before).orderly ran)
  | process held holds => exact lasting.evolves before (.process holds)
  | finish held jobs holds => exact lasting.evolves before (.finish holds jobs)
  | finishAll held holds => exact lasting.evolves before (.finishAll holds)
  | find held identity holds => exact lasting.evolves before (.single (.find held identity holds))
  | purge held holds => exact lasting.evolves before (.single (.purge held holds))
  | shutdown => exact lasting.shutdown before
  | begin held request whileLowering afterFirst holds _ _ lowering meanwhile =>
    exact lasting.begin before holds (fun _ => lowering _) (fun _ => meanwhile _) rfl

theorem proceeds {fresh : MapIdentity → Prop} {stage last : Stage} {told : List Occurrence}
    (lasting : Lasting fact) (before : fact stage)
    (proceeds : Proceeds nothing fresh stage told last) : fact last := by
  cases proceeds with
  | quietly evolves => exact lasting.evolves before evolves
  | starting request first _ absent _ rest =>
    exact lasting.evolves (lasting.begun request (lasting.evolves before first) absent) rest

end Lasting

namespace Kept

variable {needs : MapIdentity → Permutation → Prop} {outside : List SharedMap}
  {workshop : Workshop}

theorem shutdown (kept : Kept needs (outside, workshop)) :
    Kept needs (outside, { workshop with manager := workshop.manager.shutdown }) := by
  refine ⟨⟨fun _ _ there => (nomatch there), fun _ _ there => (nomatch there),
    fun _ there => (nomatch there)⟩, fun _ _ there => (nomatch there), kept.keyed,
    fun shared member => kept.entered shared ?_⟩
  exact (List.mem_append.mp member).elim (List.mem_append_left _) fun made => (nomatch made)

theorem lasting : Lasting (Kept nothing) where
  kept := id
  evolves := evolves
  begun := fun _ kept absent => kept.begun absent
  shutdown := shutdown

end Kept

/-- Besides, no two maps that are entered have the same number. -/
structure Distinct (stage : Stage) : Prop where
  kept : Kept nothing stage
  apart : ∀ left ∈ stage.2.registry.entries.entries,
    ∀ right ∈ stage.2.registry.entries.entries, left.2.id = right.2.id → left.2 = right.2

namespace Distinct

variable {outside : List SharedMap} {held : List MapId} {workshop next : Workshop}
  {stage last : Stage}

theorem start (compiler : Compiler) (store : MemoryStore) (usesStore : Bool) :
    Distinct ([], { compiler, store, usesStore }) :=
  ⟨kept_start compiler store usesStore, fun _ member => (nomatch member)⟩

/-- No entry has come. -/
theorem fewer (distinct : Distinct (outside, workshop)) (kept : Kept nothing last)
    (entries : ∀ entry ∈ last.2.registry.entries.entries,
      entry ∈ workshop.registry.entries.entries) : Distinct last :=
  ⟨kept, fun left first right second =>
    distinct.apart left (entries left first) right (entries right second)⟩

/-- A map that is numbered anew has been entered. -/
theorem enter (distinct : Distinct (outside, workshop)) (kept : Kept nothing last)
    (identity : MapIdentity) (own : SharedMap) (number : own.id = workshop.registry.next)
    (entries : last.2.registry.entries = workshop.registry.entries.insert identity own) :
    Distinct last := by
  have cases {entry : MapIdentity × SharedMap} (member : entry ∈ last.2.registry.entries.entries) :
      entry = (identity, own) ∨ entry ∈ workshop.registry.entries.entries := by
    rw [entries] at member
    exact Table.mem_entries_of_insert member
  have older {entry : MapIdentity × SharedMap}
      (before : entry ∈ workshop.registry.entries.entries) : entry.2.id ≠ own.id := fun new =>
    absurd (distinct.kept.keyed entry before).2.2 (by rw [new, number]; exact Nat.lt_irrefl _)
  refine ⟨kept, fun left first right second same => ?_⟩
  rcases cases first with rfl | before
  · rcases cases second with rfl | after
    · rfl
    · exact absurd same.symm (older after)
  · rcases cases second with rfl | after
    · exact absurd same (older before)
    · exact distinct.apart left before right after same

theorem step {told : List Occurrence} (distinct : Distinct stage)
    (step : Step nothing stage told last) : Distinct last := by
  have kept := distinct.kept.step step
  cases step with
  | calm calm => exact distinct.fewer kept fun _ member => calm.registry ▸ member
  | pass | revise | fail | abort | abandon => exact distinct.fewer kept fun _ member => member
  | @find outside workshop held identity =>
    refine distinct.fewer kept fun entry member => ?_
    unfold Registry.find at member
    split at member
    · exact member
    · split at member
      · exact member
      · exact Table.mem_entries_of_erase member
  | purge held => exact distinct.fewer kept fun _ member => (List.mem_filter.mp member).1
  | @offer outside workshop held map meets =>
    have compiled : (SharedMap.mk workshop.registry.next map).map.isCompiled := meets.1
    have unfolded : (workshop.offer held map).2.registry =
      (workshop.numbering.register (workshop.heldMaps held) ⟨workshop.registry.next, map⟩).2 := rfl
    rcases workshop.numbering.register_cases (workshop.heldMaps held) compiled with
      ⟨incumbent, _, _, same⟩ | ⟨_, same⟩
    · refine distinct.fewer kept fun entry member => ?_
      rw [unfolded, same] at member
      exact member
    · refine distinct.enter kept map.identity ⟨workshop.registry.next, map⟩ rfl ?_
      rw [unfolded, same]
      rfl
  | @make outside workshop job entry profile made next held found lowered arrived clean holds ran =>
    rcases makeMap_cases held profile (distinct.kept.unnumbered entry.identity) with
      ⟨incumbent, _, _, same⟩ | ⟨_, same⟩
    · rw [same] at ran
      cases ran
      exact distinct.fewer kept fun _ member => member
    · rw [same] at ran
      cases ran
      exact distinct.enter kept entry.identity (workshop.ownMap entry profile) rfl rfl

theorem lasting : Lasting Distinct where
  kept := kept
  evolves := fun distinct evolves => by
    induction evolves with
    | refl => exact distinct
    | next step _ inductionHypothesis => exact inductionHypothesis (distinct.step step)
  begun := fun request distinct absent =>
    distinct.fewer (distinct.kept.begun absent) fun _ member =>
      (Calm.begun _ request).registry ▸ member
  shutdown := fun distinct => distinct.fewer distinct.kept.shutdown fun _ member => member

/-- Of two maps that are held, a different number tells one from the other. -/
theorem alike (distinct : Distinct (outside, workshop)) {left right : SharedMap}
    (first : left ∈ outside ++ workshop.manager.maps)
    (second : right ∈ outside ++ workshop.manager.maps) (same : left.id = right.id) :
    left = right :=
  distinct.apart _ (Table.mem_entries_of_get? (distinct.kept.entered left first)) _
    (Table.mem_entries_of_get? (distinct.kept.entered right second)) same

end Distinct

end Shading.Workshop
