/-
How compiles end. When the last permutation has come, the map that is made is
offered to the registry, and the compile ends with whatever the registry hands
back: a map of the same identity that somebody still holds, even one that lacks
permutations, or else the map that was made. Whoever waits for a compile gets
that map and no other.
-/

import Shading.Proofs.Compile.Orderly
import Shading.Proofs.Sequence

namespace Shading.Workshop

variable {needs : MapIdentity → Permutation → Prop} {outside : List SharedMap}
  {held : List MapId} {workshop : Workshop} {job : JobId} {entry : InFlight}

/-- What holds of a workshop and of maps known outside. Without a store nothing waits to be
written. -/
structure Sound (needs : MapIdentity → Permutation → Prop) (outside : List SharedMap)
    (held : List MapId) (workshop : Workshop) : Prop where
  orderly : workshop.manager.Orderly needs
  genuine : workshop.registry.Genuine (outside ++ workshop.manager.maps) held
  tidy : workshop.usesStore = false → workshop.manager.unwritten = []

theorem mem_known_of_maps {shared : SharedMap} (member : shared ∈ workshop.manager.maps)
    (outside : List SharedMap) :
    shared ∈ workshop.registry.known (outside ++ workshop.manager.maps) :=
  List.mem_append_left _ (List.mem_append_right _ member)

namespace Sound

/-- Results have been taken, or compiles in flight have changed. -/
theorem onManager {manager : Manager} (sound : Sound needs outside held workshop)
    (orderly : manager.Orderly needs) (trimmed : workshop.manager.Trimmed manager) :
    Sound needs outside held { workshop with manager } := by
  refine ⟨orderly, sound.genuine.fewer fun shared member => ?_, fun storeless => ?_⟩
  · rcases List.mem_append.mp member with known | made
    · exact List.mem_append_left _ (List.mem_append_left _ known)
    · exact mem_known_of_maps (trimmed.maps made) outside
  · exact List.subset_nil.mp (sound.tidy storeless ▸ trimmed.unwritten)

/-- Another map that is known may be spoken of. -/
theorem also {shared : SharedMap} (sound : Sound needs outside held workshop)
    (known : shared ∈ workshop.registry.known (outside ++ workshop.manager.maps)) :
    Sound needs (shared :: outside) held workshop := by
  refine ⟨sound.orderly, sound.genuine.fewer fun other member => ?_, sound.tidy⟩
  rcases List.mem_cons.mp member with rfl | before
  · exact known
  · exact List.mem_append_left _ before

/-- Afterwards nothing is left to be written. -/
theorem flush (sound : Sound needs outside held workshop) :
    Sound needs outside held workshop.flush ∧ workshop.flush.manager.unwritten = [] := by
  unfold Workshop.flush
  split
  · have trimmed : workshop.manager.Trimmed { workshop.manager with unwritten := [] } :=
      .of_finished rfl (List.nil_subset _)
    have written := sound.onManager (sound.orderly.trim trimmed rfl rfl rfl) trimmed
    exact ⟨⟨written.orderly, written.genuine, written.tidy⟩, rfl⟩
  · rename_i storeless
    exact ⟨sound, sound.tidy (Bool.not_eq_true _ |>.mp storeless)⟩

end Sound

/-! ### The end of a compile -/

/-- Takes a compile out of flight, with its result. -/
def conclude (workshop : Workshop) (job : JobId) (entry : InFlight)
    (result : Except CompileFailure SharedMap) : Workshop :=
  { workshop with manager := { workshop.manager.remove job entry with
      finished := workshop.manager.finished ++ [⟨job, entry.identity, result, entry.resources⟩] } }

theorem mem_finished_conclude {result : Except CompileFailure SharedMap} {compile : FinishedCompile}
    (member : compile ∈ (workshop.conclude job entry result).manager.finished) :
    compile ∈ workshop.manager.finished ∨
      compile = ⟨job, entry.identity, result, entry.resources⟩ :=
  (List.mem_append.mp member).imp_right List.mem_singleton.mp

theorem mem_maps_conclude {result : Except CompileFailure SharedMap} {shared : SharedMap}
    (member : shared ∈ (workshop.conclude job entry result).manager.maps) :
    shared ∈ workshop.manager.maps ∨ result = .ok shared := by
  rcases List.mem_append.mp member with ended | unwritten
  · obtain ⟨compile, there, is⟩ := List.mem_filterMap.mp ended
    rcases mem_finished_conclude there with before | rfl
    · exact .inl (List.mem_append_left _ (List.mem_filterMap.mpr ⟨compile, before, is⟩))
    · exact .inr (toOption_eq_some.mp is)
  · exact .inl (List.mem_append_right _ unwritten)

theorem orderly_conclude {recorded : InFlight} {result : Except CompileFailure SharedMap}
    (orderly : workshop.manager.Orderly needs)
    (found : workshop.manager.jobs.get? job = some recorded)
    (same : entry.identity = recorded.identity)
    (made : ∀ shared, result = .ok shared →
      shared.map.identity = entry.identity ∧ shared.map.isCompiled) :
    (workshop.conclude job entry result).manager.Orderly needs := by
  have removed := orderly.remove found same
  refine ⟨removed.tracked, removed.begun, fun compile member => ?_⟩
  rcases mem_finished_conclude member with before | rfl
  · exact removed.finished compile before
  · refine ⟨(orderly.begun job recorded found).1, ?_, fun shared ended => ?_⟩
    · exact (Table.get?_erase ..).trans (if_pos rfl)
    · exact made shared (toOption_eq_some.mp ended)

theorem Sound.conclude {recorded : InFlight} {result : Except CompileFailure SharedMap}
    (sound : Sound needs outside held workshop)
    (found : workshop.manager.jobs.get? job = some recorded)
    (same : entry.identity = recorded.identity)
    (made : ∀ shared, result = .ok shared →
      shared ∈ workshop.registry.known (outside ++ workshop.manager.maps) ∧
        shared.map.identity = entry.identity ∧ shared.map.isCompiled) :
    Sound needs outside held (workshop.conclude job entry result) := by
  refine ⟨orderly_conclude sound.orderly found same fun shared is => (made shared is).2,
    sound.genuine.fewer fun shared member => ?_, sound.tidy⟩
  rcases List.mem_append.mp member with known | known
  · exact List.mem_append_left _ (List.mem_append_left _ known)
  · rcases mem_maps_conclude known with before | ended
    · exact mem_known_of_maps before outside
    · exact (made shared ended).1

theorem Sound.conclude_error {recorded : InFlight} (sound : Sound needs outside held workshop)
    (entry : InFlight) (failure : CompileFailure)
    (found : workshop.manager.jobs.get? job = some recorded)
    (same : entry.identity = recorded.identity) :
    Sound needs outside held (workshop.conclude job entry (.error failure)) :=
  sound.conclude found same fun _ failed => (nomatch failed)

/-- The map that a compile in flight makes. -/
def ownMap (workshop : Workshop) (entry : InFlight) (profile : Profile) : SharedMap :=
  ⟨workshop.registry.next, {
    identity := entry.identity, name := entry.name,
    content := some ⟨entry.binaries, profile⟩ }⟩

/-- The registry after a map has been given a number. -/
def numbering (workshop : Workshop) : Registry :=
  { workshop.registry with next := workshop.registry.next.next }

/-- The next number is that of no map that is entered. -/
theorem Sound.unnumbered (sound : Sound needs outside held workshop) (identity : MapIdentity)
    (incumbent : SharedMap) (found : workshop.registry.entries.get? identity = some incumbent) :
    incumbent.id ≠ workshop.registry.next := fun same =>
  absurd (sound.genuine.numbered incumbent (Registry.mem_known_of_get? found _))
    (by rw [same]; exact Nat.lt_irrefl _)

/-- The map is filled, and then it is offered to the registry. -/
theorem makeMap_eq (workshop : Workshop) (held : List MapId) (entry : InFlight)
    (profile : Profile) : workshop.makeMap held entry profile =
      let offered := workshop.numbering.register (workshop.heldMaps held)
        (workshop.ownMap entry profile)
      (offered.1, { workshop with
        registry := offered.2
        manager := { workshop.manager with
          unwritten := if workshop.usesStore && offered.1.id = workshop.registry.next then
              workshop.manager.unwritten ++ [workshop.ownMap entry profile]
            else workshop.manager.unwritten } }) := by
  unfold Workshop.makeMap
  rw [entry.filled_eq]
  rfl

/-- The map that is made gives way to one that is held, or else it is entered. -/
theorem makeMap_cases (held : List MapId) (profile : Profile)
    (unnumbered : ∀ incumbent, workshop.registry.entries.get? entry.identity = some incumbent →
      incumbent.id ≠ workshop.registry.next) :
    (∃ incumbent, workshop.registry.entries.get? entry.identity = some incumbent ∧
        incumbent.id ∈ workshop.heldMaps held ∧
        workshop.makeMap held entry profile =
          (incumbent, { workshop with registry := workshop.numbering })) ∨
      ((∀ incumbent, workshop.registry.entries.get? entry.identity = some incumbent →
          incumbent.id ∉ workshop.heldMaps held) ∧
        workshop.makeMap held entry profile = (workshop.ownMap entry profile, { workshop with
          registry := { workshop.numbering with
            entries := workshop.registry.entries.insert entry.identity
              (workshop.ownMap entry profile) }
          manager := { workshop.manager with
            unwritten := if workshop.usesStore then
                workshop.manager.unwritten ++ [workshop.ownMap entry profile]
              else workshop.manager.unwritten } })) := by
  have offered := Registry.register_cases workshop.numbering (workshop.heldMaps held)
    (show (workshop.ownMap entry profile).map.isCompiled from rfl)
  rcases offered with ⟨incumbent, found, live, back⟩ | ⟨dead, back⟩
  · refine .inl ⟨incumbent, found, live, ?_⟩
    rw [makeMap_eq, back]
    dsimp only
    rw [decide_eq_false (unnumbered incumbent found), Bool.and_false, if_neg Bool.false_ne_true]
  · refine .inr ⟨dead, ?_⟩
    rw [makeMap_eq, back]
    dsimp only
    have numbered : (workshop.ownMap entry profile).id = workshop.registry.next := rfl
    rw [decide_eq_true numbered, Bool.and_true]
    rfl

/-- A map that is made, or the one it gives way to, is known and has the right identity. -/
theorem Sound.makeMap (sound : Sound needs outside held workshop) (entry : InFlight)
    (profile : Profile) {made : SharedMap} {next : Workshop}
    (ran : workshop.makeMap held entry profile = (made, next)) :
    Sound needs outside held next ∧ next.manager.jobs = workshop.manager.jobs ∧
      made ∈ next.registry.known (outside ++ next.manager.maps) ∧
      made.map.identity = entry.identity ∧ made.map.isCompiled := by
  have adopted := sound.genuine.adopt (workshop.ownMap entry profile).map
  rcases makeMap_cases held profile (sound.unnumbered entry.identity) with
    ⟨incumbent, found, _, same⟩ | ⟨_, same⟩
  · rw [same] at ran
    cases ran
    refine ⟨⟨sound.orderly, ?_, sound.tidy⟩, rfl, Registry.mem_known_of_get? found _,
      sound.genuine.keyed_of_get? found⟩
    exact adopted.fewer fun shared member => List.mem_append_left _ (List.mem_cons_of_mem _ member)
  · rw [same] at ran
    cases ran
    have entered := adopted.enter (List.mem_cons_self ..) rfl
    refine ⟨⟨⟨sound.orderly.tracked, sound.orderly.begun, sound.orderly.finished⟩, ?_, ?_⟩, rfl,
      Registry.mem_known_of_get? ((Table.get?_insert ..).trans (if_pos rfl)) _, rfl, rfl⟩
    · refine entered.fewer fun shared member => List.mem_append_left _ ?_
      rcases List.mem_append.mp member with known | known
      · exact List.mem_cons_of_mem _ (List.mem_append_left _ known)
      · rcases List.mem_append.mp known with ended | unwritten
        · exact List.mem_cons_of_mem _ (List.mem_append_right _ (List.mem_append_left _ ended))
        · dsimp only at unwritten
          split at unwritten
          · rcases List.mem_append.mp unwritten with before | own
            · exact List.mem_cons_of_mem _
                (List.mem_append_right _ (List.mem_append_right _ before))
            · exact List.mem_cons.mpr (.inl (List.mem_singleton.mp own))
          · exact List.mem_cons_of_mem _
              (List.mem_append_right _ (List.mem_append_right _ unwritten))
    · intro storeless
      exact (if_neg (storeless ▸ Bool.false_ne_true)).trans (sound.tidy storeless)

/-- A compile ends with a failure, or with the map that is made. -/
theorem finalize_cases (workshop : Workshop) (held : List MapId) (job : JobId)
    (entry : InFlight) :
    (∃ failure, workshop.finalize held job entry = workshop.conclude job entry (.error failure)) ∨
      ∃ profile made next, entry.errors = [] ∧
        workshop.makeMap held entry profile = (made, next) ∧
        workshop.finalize held job entry = next.conclude job entry (.ok made) := by
  unfold finalize
  cases profiled : entry.profile with
  | none => exact .inl ⟨_, rfl⟩
  | some profile =>
    by_cases clean : entry.errors = []
    · refine .inr ⟨profile, _, _, clean, rfl, ?_⟩
      dsimp only
      rw [if_pos clean]
      rfl
    · refine .inl ⟨.compile entry.errors, ?_⟩
      dsimp only
      rw [if_neg clean]
      rfl

theorem Sound.finalize {recorded : InFlight} (sound : Sound needs outside held workshop)
    (found : workshop.manager.jobs.get? job = some recorded)
    (same : entry.identity = recorded.identity) :
    Sound needs outside held (workshop.finalize held job entry) := by
  rcases finalize_cases workshop held job entry with ⟨failure, ended⟩ |
    ⟨profile, made, next, _, ran, ended⟩
  · rw [ended]
    exact sound.conclude_error entry failure found same
  · obtain ⟨soundNext, jobs, known, identity, compiled⟩ := sound.makeMap entry profile ran
    rw [ended]
    refine soundNext.conclude (jobs ▸ found) same fun shared is => ?_
    cases is
    exact ⟨known, identity, compiled⟩

/-! ### What a compile of an identity will yield -/

/-- Whatever a compile of an identity makes, it ends with a map that is favoured: one that is
held and gets in its way is, or there is none and any map that can be made is. -/
def Yields (needs : MapIdentity → Permutation → Prop) (favours : SharedMap → Prop)
    (identity : MapIdentity) (held : List MapId) (workshop : Workshop) : Prop :=
  (∃ incumbent, workshop.registry.entries.get? identity = some incumbent ∧
      incumbent.id ∈ workshop.heldMaps held ∧ favours incumbent) ∨
    ((∀ shared, workshop.registry.entries.get? identity = some shared →
        shared.id ∉ workshop.heldMaps held) ∧
      ∀ own : SharedMap, own.map.identity = identity → own.map.Meets (needs identity) →
        favours own)

variable {favours : SharedMap → Prop} {identity : MapIdentity}

theorem mem_heldMaps {id : MapId} :
    id ∈ workshop.heldMaps held ↔
      id ∈ held ∨ (∃ compile ∈ workshop.manager.finished, ∃ shared, compile.map? = some shared ∧
        shared.id = id) ∨ ∃ shared ∈ workshop.manager.unwritten, shared.id = id := by
  have parts : workshop.heldMaps held = held ++
      (workshop.manager.finished.filterMap FinishedCompile.map? ++
        workshop.manager.unwritten).map SharedMap.id := rfl
  rw [parts, List.mem_append, List.map_append, List.mem_append, List.mem_map, List.mem_map]
  refine or_congr_right (or_congr_left ?_)
  simp only [List.mem_filterMap]
  constructor
  · rintro ⟨shared, ⟨compile, member, made⟩, same⟩
    exact ⟨compile, member, shared, made, same⟩
  · rintro ⟨compile, member, shared, made, same⟩
    exact ⟨shared, ⟨compile, member, made⟩, same⟩

/-- The map a compile ends with is held afterwards, and no other is that was not held before. -/
theorem mem_heldMaps_conclude {result : Except CompileFailure SharedMap} {id : MapId} :
    id ∈ (workshop.conclude job entry result).heldMaps held ↔
      id ∈ workshop.heldMaps held ∨ ∃ shared, result = .ok shared ∧ shared.id = id := by
  have ended : (workshop.conclude job entry result).manager.finished =
    workshop.manager.finished ++ [⟨job, entry.identity, result, entry.resources⟩] := rfl
  have unwritten : (workshop.conclude job entry result).manager.unwritten =
    workshop.manager.unwritten := rfl
  rw [mem_heldMaps, mem_heldMaps, ended, unwritten]
  constructor
  · rintro (outer | ⟨compile, member, shared, made, same⟩ | due)
    · exact .inl (.inl outer)
    · rcases List.mem_append.mp member with before | new
      · exact .inl (.inr (.inl ⟨compile, before, shared, made, same⟩))
      · rw [List.mem_singleton.mp new] at made
        exact .inr ⟨shared, toOption_eq_some.mp made, same⟩
    · exact .inl (.inr (.inr due))
  · rintro ((outer | ⟨compile, member, rest⟩ | due) | ⟨shared, made, same⟩)
    · exact .inl outer
    · exact .inr (.inl ⟨compile, List.mem_append_left _ member, rest⟩)
    · exact .inr (.inr due)
    · exact .inr (.inl ⟨_, List.mem_append_right _ List.mem_cons_self, shared,
        toOption_eq_some.mpr made, same⟩)

/-- The end of a compile that made a map, in the two cases there are. -/
theorem mem_heldMaps_makeMap {profile : Profile} {made : SharedMap} {next : Workshop} {id : MapId}
    (sound : Sound needs outside held workshop)
    (ran : workshop.makeMap held entry profile = (made, next)) :
    id ∈ (next.conclude job entry (.ok made)).heldMaps held ↔
      id ∈ workshop.heldMaps held ∨ made.id = id := by
  have same : (∃ shared, (.ok made : Except CompileFailure SharedMap) = .ok shared ∧
      shared.id = id) ↔ made.id = id :=
    ⟨fun ⟨_, is, same⟩ => Except.ok.inj is ▸ same, fun same => ⟨made, rfl, same⟩⟩
  rw [mem_heldMaps_conclude, same]
  rcases makeMap_cases held profile (sound.unnumbered entry.identity) with
    ⟨incumbent, _, _, result⟩ | ⟨_, result⟩
  · rw [result] at ran
    cases ran
    exact Iff.rfl
  · rw [result] at ran
    cases ran
    rw [mem_heldMaps, mem_heldMaps]
    dsimp only
    split
    · simp only [List.mem_append, List.mem_singleton, or_and_right, exists_or, exists_eq_left]
      simp only [or_assoc, or_self]
    · exact Iff.rfl

/-- The end of one compile, of whatever identity, leaves it to the others what they yield. If the
compile was one of the identity itself, it ends with a map that is favoured. -/
theorem finalize_yields (sound : Sound needs outside held workshop)
    (covers : entry.Covers (needs entry.identity)) (arrived : entry.remaining = [])
    (yields : workshop.Yields needs favours identity held) :
    (workshop.finalize held job entry).Yields needs favours identity held ∧
      ∀ compile ∈ (workshop.finalize held job entry).manager.finished,
        compile ∈ workshop.manager.finished ∨ compile.job = job ∧
          compile.identity = entry.identity ∧
          (entry.identity = identity → ∀ shared, compile.map? = some shared → favours shared) := by
  have ends {result : Except CompileFailure SharedMap}
      (favoured : entry.identity = identity → ∀ shared, result = .ok shared → favours shared)
      {compile : FinishedCompile} (member : compile ∈
        workshop.manager.finished ++ [⟨job, entry.identity, result, entry.resources⟩]) :
      compile ∈ workshop.manager.finished ∨ compile.job = job ∧
        compile.identity = entry.identity ∧
        (entry.identity = identity → ∀ shared, compile.map? = some shared → favours shared) := by
    refine (List.mem_append.mp member).imp_right fun new => ?_
    rw [List.mem_singleton.mp new]
    exact ⟨rfl, rfl, fun same shared is => favoured same shared (toOption_eq_some.mp is)⟩
  rcases finalize_cases workshop held job entry with ⟨failure, ended⟩ |
    ⟨profile, made, next, clean, ran, ended⟩
  · rw [ended]
    refine ⟨?_, fun _ => ends fun _ _ failed => ?_⟩
    · rcases yields with ⟨incumbent, found, live, favoured⟩ | ⟨dead, favoured⟩
      · exact .inl ⟨incumbent, found, mem_heldMaps_conclude.mpr (.inl live), favoured⟩
      · refine .inr ⟨fun shared found live => dead shared found ?_, favoured⟩
        exact (mem_heldMaps_conclude.mp live).resolve_right fun ⟨_, failed, _⟩ => (nomatch failed)
    · cases failed
  · rw [ended]
    have alive (id : MapId) : id ∈ (next.conclude job entry (.ok made)).heldMaps held ↔
        id ∈ workshop.heldMaps held ∨ made.id = id := mem_heldMaps_makeMap sound ran
    rcases makeMap_cases held profile (sound.unnumbered entry.identity) with
      ⟨incumbent, there, liveThere, result⟩ | ⟨absent, result⟩
    · rw [result] at ran
      cases ran
      rcases yields with ⟨favourite, found, live, favoured⟩ | ⟨dead, favoured⟩
      · refine ⟨.inl ⟨favourite, found, (alive _).mpr (.inl live), favoured⟩,
          fun _ => ends fun same shared is => ?_⟩
        cases is
        rw [same, found] at there
        cases there
        exact favoured
      · refine ⟨.inr ⟨fun shared found live => ?_, favoured⟩, fun _ => ends fun same => ?_⟩
        · rcases (alive _).mp live with before | same
          · exact dead shared found before
          · exact dead shared found (same ▸ liveThere)
        · exact absurd liveThere (dead _ (same ▸ there))
    · rw [result] at ran
      cases ran
      have entries (other : MapIdentity) := Table.get?_insert workshop.registry.entries
        entry.identity other (workshop.ownMap entry profile)
      by_cases same : entry.identity = identity
      · have favoured : favours (workshop.ownMap entry profile) := by
          rcases yields with ⟨favourite, found, live, _⟩ | ⟨_, favoured⟩
          · exact absurd live (absent favourite (same ▸ found))
          · exact favoured _ same (same ▸ covers.meets arrived clean entry.name profile)
        refine ⟨.inl ⟨_, (entries identity).trans (if_pos same.symm), (alive _).mpr (.inr rfl),
          favoured⟩, fun _ => ends fun _ shared is => ?_⟩
        cases is
        exact favoured
      · have elsewhere := (entries identity).trans (if_neg (Ne.symm same))
        refine ⟨?_, fun _ => ends fun equal => absurd equal same⟩
        rcases yields with ⟨favourite, found, live, favoured⟩ | ⟨dead, favoured⟩
        · exact .inl ⟨favourite, elsewhere.trans found, (alive _).mpr (.inl live), favoured⟩
        · refine .inr ⟨fun shared found live => ?_, favoured⟩
          have before := elsewhere.symm.trans found
          rcases (alive _).mp live with held | new
          · exact dead shared before held
          · have older := sound.genuine.numbered shared (Registry.mem_known_of_get? before _)
            exact absurd older (new ▸ Nat.lt_irrefl _)

/-- Where anything is favoured, it is yielded. -/
theorem yields_any (workshop : Workshop) (needs : MapIdentity → Permutation → Prop)
    (identity : MapIdentity) (held : List MapId) :
    workshop.Yields needs (fun _ => True) identity held := by
  by_cases live : ∃ shared, workshop.registry.entries.get? identity = some shared ∧
    shared.id ∈ workshop.heldMaps held
  · obtain ⟨shared, found, live⟩ := live
    exact .inl ⟨shared, found, live, trivial⟩
  · exact .inr ⟨fun shared found alive => live ⟨shared, found, alive⟩, fun _ _ _ => trivial⟩

theorem finalize_jobs (workshop : Workshop) (held : List MapId) (job : JobId) (entry : InFlight) :
    (workshop.finalize held job entry).manager.jobs = workshop.manager.jobs.erase job := by
  rcases finalize_cases workshop held job entry with ⟨failure, ended⟩ |
    ⟨profile, made, next, clean, ran, ended⟩
  · rw [ended]
    rfl
  · rw [ended]
    cases ran
    rfl

end Shading.Workshop
