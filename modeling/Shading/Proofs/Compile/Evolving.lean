/-
What becomes of compiles, step by step. Whatever is done with a workshop comes
down to a few kinds of steps. A compile that is in flight leaves in one of three
ways only, and each of them is told: it fails, everybody leaves it, or it ends
with a map. And every map that anybody holds is the one that is entered under
its identity: an entry is replaced only when nobody holds its map.
-/

import Shading.Proofs.Compile.Awaiting

namespace Shading

/-- What is told of compiles, and of the maps that are held when nothing is being done. -/
inductive Occurrence where
  | started (job : JobId) (identity : MapIdentity)
  | failed (job : JobId)
  | left (job : JobId)
  | made (job : JobId) (shared : SharedMap)
  | moment (held : List SharedMap)

namespace Workshop

/-- The maps that are held outside of a workshop, and the workshop. -/
abbrev Stage := List SharedMap × Workshop

/-- All maps that anybody holds. -/
def Stage.held (stage : Stage) : List SharedMap := stage.1 ++ stage.2.manager.maps

/-- Neither the entries of maps nor the compiles in flight have changed, and at most results have
been taken or maps written. -/
structure Calm (workshop next : Workshop) : Prop where
  registry : next.registry = workshop.registry
  jobs : next.manager.jobs = workshop.manager.jobs
  byIdentity : next.manager.byIdentity = workshop.manager.byIdentity
  nextJob : next.manager.nextJob = workshop.manager.nextJob
  lowerings : next.manager.lowerings = workshop.manager.lowerings
  trimmed : workshop.manager.Trimmed next.manager

/-- Gives a map a number and offers it to the registry. -/
def offer (workshop : Workshop) (held : List MapId) (map : ShaderMap) : SharedMap × Workshop :=
  let (own, registry) := workshop.registry.adopt map
  let (canonical, registry) := registry.register (workshop.heldMaps held) own
  (canonical, { workshop with registry })

/-- One step, and what is told of it. Looking at who holds a map is no step to be taken while a map
is held outside that is not among those said to be held. -/
inductive Step (needs : MapIdentity → Permutation → Prop) : Stage → List Occurrence → Stage → Prop
  where
  | calm {outside workshop next} : Calm workshop next →
    Step needs (outside, workshop) [] (outside, next)
  /-- Maps are dropped outside, or more hold the maps that somebody holds. -/
  | pass {outside outside' workshop} : outside' ⊆ outside ++ workshop.manager.maps →
    Step needs (outside, workshop) [] (outside', workshop)
  | find {outside workshop} (held : List MapId) (identity : MapIdentity) :
    (∀ shared ∈ outside, shared.id ∈ held) → Step needs (outside, workshop) []
      ((workshop.registry.find (workshop.heldMaps held) identity).1.toList ++ outside,
        { workshop with registry := (workshop.registry.find (workshop.heldMaps held) identity).2 })
  | purge {outside workshop} (held : List MapId) : (∀ shared ∈ outside, shared.id ∈ held) →
    Step needs (outside, workshop) []
      (outside, { workshop with registry := (workshop.registry.purge (workshop.heldMaps held)).2 })
  /-- A map from elsewhere is offered. -/
  | offer {outside workshop} (held : List MapId) (map : ShaderMap) :
    map.Meets (needs map.identity) → (∀ shared ∈ outside, shared.id ∈ held) →
    Step needs (outside, workshop) []
      ((workshop.offer held map).1 :: outside, (workshop.offer held map).2)
  | revise {outside workshop job entry revised} : workshop.manager.jobs.get? job = some entry →
    revised.identity = entry.identity →
    (revised.lowering = false → (entry.lowering = false → entry.Covers (needs entry.identity)) →
      revised.Covers (needs entry.identity)) →
    Step needs (outside, workshop) [] (outside, workshop.withEntry job revised)
  | fail {outside workshop job recorded} (entry : InFlight) (failure : CompileFailure) :
    workshop.manager.jobs.get? job = some recorded → entry.identity = recorded.identity →
    Step needs (outside, workshop) [.failed job]
      (outside, workshop.conclude job entry (.error failure))
  /-- A compile fails that only its requester waits for. -/
  | abort {outside workshop job entry} : workshop.manager.jobs.get? job = some entry →
    Step needs (outside, workshop) [.failed job]
      (outside, { workshop with manager := workshop.manager.remove job entry })
  /-- The last resource that waits for a compile leaves it. -/
  | abandon {outside workshop job entry} (resource : ResourceId) :
    workshop.manager.jobs.get? job = some entry → entry.resources.filter (· ≠ resource) = [] →
    Step needs (outside, workshop) [.left job]
      (outside, { workshop with manager := workshop.manager.remove job entry })
  | make {outside workshop job entry profile made next} (held : List MapId) :
    workshop.manager.jobs.get? job = some entry → entry.lowering = false →
    entry.remaining = [] → entry.errors = [] → (∀ shared ∈ outside, shared.id ∈ held) →
    workshop.makeMap held entry profile = (made, next) →
    Step needs (outside, workshop) [.made job made] (outside, next.conclude job entry (.ok made))

/-- Steps one after another, and all that is told of them. -/
inductive Evolves (needs : MapIdentity → Permutation → Prop) :
    Stage → List Occurrence → Stage → Prop where
  | refl (stage : Stage) : Evolves needs stage [] stage
  | next {stage told middle more last} : Step needs stage told middle →
    Evolves needs middle more last → Evolves needs stage (told ++ more) last

variable {needs : MapIdentity → Permutation → Prop} {outside : List SharedMap}
  {held : List MapId} {workshop next : Workshop} {job : JobId} {entry : InFlight}

namespace Evolves

variable {stage middle last : Stage} {told more : List Occurrence}

theorem single (step : Step needs stage told last) : Evolves needs stage told last := by
  have steps := next step (refl last)
  rwa [List.append_nil] at steps

theorem trans (first : Evolves needs stage told middle) (second : Evolves needs middle more last) :
    Evolves needs stage (told ++ more) last := by
  induction first with
  | refl => exact second
  | next step _ inductionHypothesis =>
    rw [List.append_assoc]
    exact .next step (inductionHypothesis second)

theorem calm (calm : Calm workshop next) : Evolves needs (outside, workshop) [] (outside, next) :=
  single (.calm calm)

theorem thenCalm (steps : Evolves needs stage told (outside, workshop))
    (calm : Calm workshop next) : Evolves needs stage told (outside, next) := by
  have longer := steps.trans (single (.calm calm))
  rwa [List.append_nil] at longer

theorem pass {outside' : List SharedMap} (kept : outside' ⊆ outside ++ workshop.manager.maps) :
    Evolves needs (outside, workshop) [] (outside', workshop) := single (.pass kept)

end Evolves

/-! ### Whatever is held is entered -/

/-- What holds between any two steps. -/
structure Kept (needs : MapIdentity → Permutation → Prop) (stage : Stage) : Prop where
  orderly : stage.2.manager.Orderly needs
  indexed : ∀ job entry, stage.2.manager.jobs.get? job = some entry →
    stage.2.manager.inFlight? entry.identity = some job
  keyed : ∀ entry ∈ stage.2.registry.entries.entries, entry.2.map.identity = entry.1 ∧
    entry.2.map.Meets (needs entry.1) ∧ entry.2.id.number < stage.2.registry.next.number
  entered : ∀ shared ∈ stage.1 ++ stage.2.manager.maps,
    stage.2.registry.entries.get? shared.map.identity = some shared

theorem kept_start (compiler : Compiler) (store : MemoryStore) (usesStore : Bool) :
    Kept needs ([], { compiler, store, usesStore }) where
  orderly := ⟨fun _ _ found => (nomatch found), fun _ _ found => (nomatch found),
    fun _ member => (nomatch member)⟩
  indexed := fun _ _ found => (nomatch found)
  keyed := fun _ member => (nomatch member)
  entered := fun _ member => (nomatch member)

namespace Kept

variable {stage : Stage}

theorem keyed_of_get? (kept : Kept needs stage) {identity : MapIdentity} {shared : SharedMap}
    (found : stage.2.registry.entries.get? identity = some shared) :
    shared.map.identity = identity ∧ shared.map.Meets (needs identity) ∧
      shared.id.number < stage.2.registry.next.number :=
  kept.keyed _ (Table.mem_entries_of_get? found)

/-- A map that is held is compiled, and has whatever is needed. -/
theorem meets (kept : Kept needs stage) {shared : SharedMap}
    (member : shared ∈ stage.1 ++ stage.2.manager.maps) :
    shared.map.Meets (needs shared.map.identity) :=
  (kept.keyed_of_get? (kept.entered shared member)).2.1

/-- What is held by anybody is among the maps that are said to be held. -/
theorem alive {shared : SharedMap} (holds : ∀ shared ∈ outside, shared.id ∈ held)
    (member : shared ∈ outside ++ workshop.manager.maps) : shared.id ∈ workshop.heldMaps held := by
  rcases List.mem_append.mp member with outer | made
  · exact List.mem_append_left _ (holds shared outer)
  · exact List.mem_append_right _ (List.mem_map_of_mem made)

theorem pass {outside' : List SharedMap} (kept : Kept needs (outside, workshop))
    (fewer : outside' ⊆ outside ++ workshop.manager.maps) : Kept needs (outside', workshop) := by
  refine ⟨kept.orderly, kept.indexed, kept.keyed, fun shared member => kept.entered shared ?_⟩
  exact (List.mem_append.mp member).elim (fun outer => fewer outer) (List.mem_append_right _)

theorem calm (kept : Kept needs (outside, workshop)) (calm : Calm workshop next) :
    Kept needs (outside, next) := by
  refine ⟨kept.orderly.trim calm.trimmed calm.jobs calm.byIdentity calm.nextJob, ?_, ?_,
    fun shared member => ?_⟩
  · unfold Manager.inFlight?
    rw [calm.jobs, calm.byIdentity]
    exact kept.indexed
  · rw [calm.registry]
    exact kept.keyed
  · rw [calm.registry]
    refine kept.entered shared ?_
    exact (List.mem_append.mp member).elim (List.mem_append_left _)
      fun made => List.mem_append_right _ (calm.trimmed.maps made)

/-! ### The registry -/

/-- The registry may lose entries, as long as those of the maps that are held stay. -/
theorem lose {entries : Table MapIdentity SharedMap} (kept : Kept needs (outside, workshop))
    (fewer : ∀ entry ∈ entries.entries, entry ∈ workshop.registry.entries.entries)
    (entered : ∀ identity shared, workshop.registry.entries.get? identity = some shared →
      shared ∈ outside ++ workshop.manager.maps → entries.get? identity = some shared) :
    Kept needs (outside, { workshop with registry := { workshop.registry with entries } }) :=
  ⟨kept.orderly, kept.indexed, fun entry member => kept.keyed entry (fewer entry member),
    fun shared member => entered _ shared (kept.entered shared member) member⟩

/-- Looking for a map does not take an entry away whose map is held. -/
theorem find (kept : Kept needs (outside, workshop)) (identity : MapIdentity)
    (holds : ∀ shared ∈ outside, shared.id ∈ held) :
    Kept needs ((workshop.registry.find (workshop.heldMaps held) identity).1.toList ++ outside,
      { workshop with
        registry := (workshop.registry.find (workshop.heldMaps held) identity).2 }) := by
  unfold Registry.find
  cases found : workshop.registry.entries.get? identity with
  | none => exact kept
  | some shared =>
    dsimp only
    split
    · refine ⟨kept.orderly, kept.indexed, kept.keyed, fun other member => ?_⟩
      rcases List.mem_cons.mp member with rfl | before
      · show workshop.registry.entries.get? _ = _
        rw [(kept.keyed_of_get? found).1]
        exact found
      · exact kept.entered other before
    · rename_i dead
      refine kept.lose (fun _ => Table.mem_entries_of_erase) fun other shared there member => ?_
      rw [Table.get?_erase, if_neg fun here => ?_]
      · exact there
      · rw [here, found] at there
        cases there
        exact dead (alive holds member)

/-- The first entry for a key is still the first one when others have been taken out. -/
theorem get?_filter {entries : List (MapIdentity × SharedMap)} {identity : MapIdentity}
    {shared : SharedMap} (left : MapIdentity × SharedMap → Bool)
    (survives : left (identity, shared)) (found : (Table.mk entries).get? identity = some shared) :
    (Table.mk (entries.filter left)).get? identity = some shared := by
  obtain ⟨entry, first, rfl⟩ := Option.map_eq_some_iff.mp found
  obtain ⟨here, before, after, rfl, unlike⟩ := List.find?_eq_some_iff_append.mp first
  have keyed : entry.1 = identity := of_decide_eq_true here
  subst keyed
  refine Option.map_eq_some_iff.mpr ⟨entry, List.find?_eq_some_iff_append.mpr
    ⟨here, before.filter left, after.filter left, ?_, fun other member => ?_⟩, rfl⟩
  · show (before ++ entry :: after).filter left = _
    rw [List.filter_append, List.filter_cons_of_pos survives]
  · exact unlike other (List.mem_filter.mp member).1

theorem purge (kept : Kept needs (outside, workshop))
    (holds : ∀ shared ∈ outside, shared.id ∈ held) :
    Kept needs (outside,
      { workshop with registry := (workshop.registry.purge (workshop.heldMaps held)).2 }) :=
  kept.lose (fun _ member => (List.mem_filter.mp member).1) fun _ _ there member =>
    get?_filter _ (decide_eq_true (alive holds member)) there

/-- A map with a new number is entered under its identity, unless one that is held is in its way;
what is entered then is known outside. -/
theorem enter {outside' : List SharedMap} {later : Workshop}
    (kept : Kept needs (outside, workshop)) (own : SharedMap)
    (holds : ∀ shared ∈ outside, shared.id ∈ held)
    (dead : ∀ incumbent, workshop.registry.entries.get? own.map.identity = some incumbent →
      incumbent.id ∉ workshop.heldMaps held)
    (number : own.id = workshop.registry.next) (meets : own.map.Meets (needs own.map.identity))
    (manager : later.manager.Orderly needs ∧ ∀ job entry, later.manager.jobs.get? job = some entry →
      later.manager.inFlight? entry.identity = some job)
    (known : ∀ shared ∈ outside' ++ later.manager.maps,
      shared = own ∨ shared ∈ outside ++ workshop.manager.maps)
    (registry : later.registry = {
      entries := workshop.registry.entries.insert own.map.identity own
      next := workshop.registry.next.next }) : Kept needs (outside', later) := by
  refine ⟨manager.1, manager.2, fun entry member => ?_, fun shared member => ?_⟩
  · rw [registry] at member ⊢
    rcases Table.mem_entries_of_insert member with rfl | before
    · exact ⟨rfl, meets, number ▸ Nat.lt_succ_self _⟩
    · obtain ⟨same, has, older⟩ := kept.keyed entry before
      exact ⟨same, has, Nat.lt_succ_of_lt older⟩
  · rw [registry]
    show (workshop.registry.entries.insert own.map.identity own).get? _ = _
    rw [Table.get?_insert]
    rcases known shared member with rfl | before
    · rw [if_pos rfl]
    · rw [if_neg fun here => ?_]
      · exact kept.entered shared before
      · have there := kept.entered shared before
        rw [here] at there
        exact dead shared there (alive holds before)

/-- A number may be given to a map that nobody will hear of. -/
theorem numbering (kept : Kept needs (outside, workshop)) :
    Kept needs (outside, { workshop with registry := workshop.numbering }) :=
  ⟨kept.orderly, kept.indexed, fun entry member =>
    have keyed := kept.keyed entry member
    ⟨keyed.1, keyed.2.1, Nat.lt_succ_of_lt keyed.2.2⟩, kept.entered⟩

/-- The map that is entered for an identity may be spoken of. -/
theorem also {shared : SharedMap} (kept : Kept needs (outside, workshop))
    (found : workshop.registry.entries.get? shared.map.identity = some shared) :
    Kept needs (shared :: outside, workshop) := by
  refine ⟨kept.orderly, kept.indexed, kept.keyed, fun other member => ?_⟩
  rcases List.mem_cons.mp member with rfl | before
  · exact found
  · exact kept.entered other before

theorem offer {map : ShaderMap} (kept : Kept needs (outside, workshop))
    (meets : map.Meets (needs map.identity)) (holds : ∀ shared ∈ outside, shared.id ∈ held) :
    Kept needs ((workshop.offer held map).1 :: outside, (workshop.offer held map).2) := by
  have unfolded : workshop.offer held map =
      ((workshop.numbering.register (workshop.heldMaps held) ⟨workshop.registry.next, map⟩).1,
        { workshop with registry := (workshop.numbering.register (workshop.heldMaps held)
          ⟨workshop.registry.next, map⟩).2 }) :=
    rfl
  rw [unfolded]
  have compiled : (SharedMap.mk workshop.registry.next map).map.isCompiled := meets.1
  rcases workshop.numbering.register_cases (workshop.heldMaps held) compiled with
    ⟨incumbent, found, _, same⟩ | ⟨dead, same⟩
  · rw [same]
    refine kept.numbering.also ?_
    rw [(kept.keyed_of_get? found).1]
    exact found
  · rw [same]
    exact kept.enter ⟨workshop.registry.next, map⟩ holds dead rfl meets ⟨kept.orderly, kept.indexed⟩
      (fun _ => List.mem_cons.mp) rfl

/-! ### Compiles in flight -/

theorem revise {revised : InFlight} (kept : Kept needs (outside, workshop))
    (found : workshop.manager.jobs.get? job = some entry)
    (same : revised.identity = entry.identity)
    (covers : revised.lowering = false →
      (entry.lowering = false → entry.Covers (needs entry.identity)) →
      revised.Covers (needs entry.identity)) :
    Kept needs (outside, workshop.withEntry job revised) := by
  refine ⟨kept.orderly.revise found same fun lowered =>
    covers lowered (kept.orderly.begun job entry found).2, fun other some there => ?_, kept.keyed,
    kept.entered⟩
  change (workshop.manager.jobs.insert job revised).get? other = _ at there
  rw [Table.get?_insert] at there
  split at there
  · rename_i here
    cases there
    rw [same, here]
    exact kept.indexed job entry found
  · exact kept.indexed other some there

/-- The other compiles in flight are still found when one has been taken out. -/
theorem indexed_remove {removed : InFlight} (kept : Kept needs (outside, workshop))
    (found : workshop.manager.jobs.get? job = some entry)
    (same : removed.identity = entry.identity) (other : JobId) (some : InFlight)
    (there : (workshop.manager.remove job removed).jobs.get? other = .some some) :
    (workshop.manager.remove job removed).inFlight? some.identity = .some other := by
  change (workshop.manager.jobs.erase job).get? other = _ at there
  rw [Table.get?_erase] at there
  split at there
  · cases there
  · rename_i different
    have indexed := kept.indexed other some there
    show (workshop.manager.byIdentity.erase removed.identity).get? some.identity = _
    rw [Table.get?_erase, if_neg fun here => different ?_]
    · exact indexed
    · rw [here, same, kept.indexed job entry found] at indexed
      exact (Option.some.inj indexed).symm

theorem remove (kept : Kept needs (outside, workshop))
    (found : workshop.manager.jobs.get? job = some entry) :
    Kept needs (outside, { workshop with manager := workshop.manager.remove job entry }) :=
  ⟨kept.orderly.remove found rfl, kept.indexed_remove found rfl, kept.keyed, kept.entered⟩

theorem fail {recorded : InFlight} (kept : Kept needs (outside, workshop))
    (failure : CompileFailure) (found : workshop.manager.jobs.get? job = some recorded)
    (same : entry.identity = recorded.identity) :
    Kept needs (outside, workshop.conclude job entry (.error failure)) := by
  refine ⟨orderly_conclude kept.orderly found same fun _ failed => (nomatch failed),
    kept.indexed_remove found same, kept.keyed, fun shared member => ?_⟩
  refine kept.entered shared ?_
  rcases List.mem_append.mp member with outer | made
  · exact List.mem_append_left _ outer
  · exact List.mem_append_right _ ((mem_maps_conclude made).resolve_right fun is => nomatch is)

/-- The next number is that of no map that is entered. -/
theorem unnumbered (kept : Kept needs (outside, workshop)) (identity : MapIdentity)
    (incumbent : SharedMap) (found : workshop.registry.entries.get? identity = some incumbent) :
    incumbent.id ≠ workshop.registry.next := fun same =>
  absurd (kept.keyed_of_get? found).2.2 (by rw [same]; exact Nat.lt_irrefl _)

/-- A compile ends with a map of its identity. -/
theorem of_makeMap {profile : Profile} {made : SharedMap} (kept : Kept needs (outside, workshop))
    (ran : workshop.makeMap held entry profile = (made, next)) :
    made.map.identity = entry.identity ∧ next.manager.jobs = workshop.manager.jobs ∧
      next.manager.lowerings = workshop.manager.lowerings := by
  rcases makeMap_cases held profile (kept.unnumbered entry.identity) with
    ⟨incumbent, there, _, same⟩ | ⟨_, same⟩
  · rw [same] at ran
    cases ran
    exact ⟨(kept.keyed_of_get? there).1, rfl, rfl⟩
  · rw [same] at ran
    cases ran
    exact ⟨rfl, rfl, rfl⟩

/-- A compile that has all it needs ends with a map that is entered. -/
theorem make {profile : Profile} {made : SharedMap} (kept : Kept needs (outside, workshop))
    (found : workshop.manager.jobs.get? job = some entry) (lowered : entry.lowering = false)
    (arrived : entry.remaining = []) (clean : entry.errors = [])
    (holds : ∀ shared ∈ outside, shared.id ∈ held)
    (ran : workshop.makeMap held entry profile = (made, next)) :
    Kept needs (outside, next.conclude job entry (.ok made)) := by
  rcases makeMap_cases held profile (kept.unnumbered entry.identity) with
    ⟨incumbent, there, _, same⟩ | ⟨dead, same⟩
  · rw [same] at ran
    cases ran
    have keyed := kept.keyed_of_get? there
    refine ⟨orderly_conclude kept.orderly found rfl fun shared is => ?_,
      kept.indexed_remove found rfl, kept.numbering.keyed, fun shared member => ?_⟩
    · cases is
      exact ⟨keyed.1, keyed.2.1.1⟩
    · rcases List.mem_append.mp member with outer | ended
      · exact kept.entered shared (List.mem_append_left _ outer)
      · rcases mem_maps_conclude ended with before | is
        · exact kept.entered shared (List.mem_append_right _ before)
        · cases is
          show workshop.registry.entries.get? _ = _
          rw [keyed.1]
          exact there
  · rw [same] at ran
    cases ran
    have covers := (kept.orderly.begun job entry found).2 lowered
    have orderly : Manager.Orderly needs { workshop.manager with
        unwritten := if workshop.usesStore then
            workshop.manager.unwritten ++ [workshop.ownMap entry profile]
          else workshop.manager.unwritten } :=
      ⟨kept.orderly.tracked, kept.orderly.begun, kept.orderly.finished⟩
    have ended : (conclude { workshop with manager := { workshop.manager with
        unwritten := if workshop.usesStore then
            workshop.manager.unwritten ++ [workshop.ownMap entry profile]
          else workshop.manager.unwritten } } job entry
        (.ok (workshop.ownMap entry profile))).manager.Orderly needs :=
      orderly_conclude orderly found rfl fun shared is => by
        cases is
        exact ⟨rfl, rfl⟩
    refine kept.enter (workshop.ownMap entry profile) holds dead rfl
      (covers.meets arrived clean entry.name profile) ⟨ended, kept.indexed_remove found rfl⟩
      (fun shared member => ?_) rfl
    · rcases List.mem_append.mp member with outer | ended
      · exact .inr (List.mem_append_left _ outer)
      · rcases mem_maps_conclude ended with before | is
        · rcases List.mem_append.mp before with finished | unwritten
          · exact .inr (List.mem_append_right _ (List.mem_append_left _ finished))
          · dsimp only at unwritten
            split at unwritten
            · rcases List.mem_append.mp unwritten with due | own
              · exact .inr (List.mem_append_right _ (List.mem_append_right _ due))
              · exact .inl (List.mem_singleton.mp own)
            · exact .inr (List.mem_append_right _ (List.mem_append_right _ unwritten))
        · cases is
          exact .inl rfl

/-- A compile may be entered if none of its identity is in flight. -/
theorem start (kept : Kept needs (outside, workshop)) (request : CompileRequest)
    (absent : workshop.manager.inFlight? request.identity = none) :
    Kept needs (outside, { workshop with manager := (workshop.manager.start request).2 }) := by
  refine ⟨kept.orderly.start request, fun other some there => ?_, kept.keyed, kept.entered⟩
  change (workshop.manager.jobs.insert workshop.manager.nextJob _).get? other = _ at there
  show (workshop.manager.byIdentity.insert request.identity workshop.manager.nextJob).get? _ = _
  rw [Table.get?_insert] at there ⊢
  split at there
  · rename_i here
    cases there
    rw [if_pos (show request.entry.identity = request.identity from rfl), here]
  · have indexed := kept.indexed other some there
    rw [if_neg fun here => ?_]
    · exact indexed
    · rw [here, absent] at indexed
      cases indexed

/-! ### Steps -/

/-- No step harms what is kept. -/
theorem step {stage last : Stage} {told : List Occurrence} (kept : Kept needs stage)
    (step : Step needs stage told last) : Kept needs last := by
  cases step with
  | calm calm => exact kept.calm calm
  | pass fewer => exact kept.pass fewer
  | find held identity holds => exact kept.find identity holds
  | purge held holds => exact kept.purge holds
  | offer held map meets holds => exact kept.offer meets holds
  | revise found same covers => exact kept.revise found same covers
  | fail entry failure found same => exact kept.fail failure found same
  | abort found => exact kept.remove found
  | abandon resource found alone => exact kept.remove found
  | make held found lowered arrived clean holds ran =>
    exact kept.make found lowered arrived clean holds ran

theorem evolves {stage last : Stage} {told : List Occurrence} (kept : Kept needs stage)
    (evolves : Evolves needs stage told last) : Kept needs last := by
  induction evolves with
  | refl => exact kept
  | next step _ inductionHypothesis => exact inductionHypothesis (kept.step step)

end Kept

end Workshop

end Shading
