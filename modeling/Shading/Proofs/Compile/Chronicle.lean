/-
The chronicle of a workshop: all that is told, and at every moment when nothing
is being done, all the maps that are held. Every compile that has begun can be
accounted for. It is in flight still, or it is told how it ended. So a compile
of an identity begins a second time only if the first one failed or was left,
or if nobody held its map at some moment in between.
-/

import Shading.Proofs.Compile.Telling

namespace Shading

/-- Where something occurs in a sequence of two parts. -/
theorem split_append {α : Type} {first second past later : List α} {item : α}
    (same : first ++ second = past ++ item :: later) :
    (∃ rest, first = past ++ item :: rest ∧ later = rest ++ second) ∨
      ∃ rest, past = first ++ rest ∧ second = rest ++ item :: later := by
  rcases List.append_eq_append_iff.mp same with ⟨rest, pastIs, secondIs⟩ | ⟨rest, firstIs, laterIs⟩
  · exact .inr ⟨rest, pastIs, secondIs⟩
  · cases rest with
    | nil =>
      refine .inr ⟨[], ?_, laterIs.symm⟩
      rw [firstIs, List.append_nil, List.append_nil]
    | cons head rest =>
      obtain ⟨rfl, rfl⟩ := List.cons.inj laterIs
      exact .inl ⟨rest, firstIs, rfl⟩

namespace Occurrence

def isStart : Occurrence → Bool
  | .started _ _ => true
  | _ => false

/-- Of what is told without compiles beginning one is the only one to begin. -/
theorem only_start {before after past later : List Occurrence} {job other : JobId}
    {identity another : MapIdentity}
    (first : ∀ occurrence ∈ before, occurrence.isStart = false)
    (rest : ∀ occurrence ∈ after, occurrence.isStart = false)
    (same : before ++ .started job identity :: after =
      past ++ .started other another :: later) :
    past = before ∧ other = job ∧ another = identity ∧ later = after := by
  rcases split_append same with ⟨more, is, _⟩ | ⟨more, is, left⟩
  · have never := first (.started other another) (is ▸ List.mem_append_right _ List.mem_cons_self)
    exact Bool.noConfusion never
  · cases more with
    | nil =>
      obtain ⟨here, equal⟩ := List.cons.inj left
      cases here
      exact ⟨is.trans (List.append_nil before), rfl, rfl, equal.symm⟩
    | cons head more =>
      obtain ⟨_, same⟩ := List.cons.inj left
      have never := rest (.started other another)
        (same ▸ List.mem_append_right _ List.mem_cons_self)
      exact Bool.noConfusion never

/-- Why it takes a second compile, by what is told after the first has begun. -/
def Excuses (job : JobId) (between : List Occurrence) : Prop :=
  .failed job ∈ between ∨ .left job ∈ between ∨
    ∃ before shared after held, between = before ++ .made job shared :: after ∧
      .moment held ∈ after ∧ shared ∉ held

end Occurrence

namespace Workshop

/-- A workshop that nothing has been done with, and then one thing after the other. Whenever a
compile begins, nobody has held a map of its identity at the moment before. -/
inductive Chronicle (needs : MapIdentity → Permutation → Prop) : List Occurrence → Stage → Prop
  where
  | start (compiler : Compiler) (store : MemoryStore) (usesStore : Bool) :
    Chronicle needs [.moment []] ([], { compiler, store, usesStore })
  | act {log stage told last} : Chronicle needs log stage →
    Proceeds needs (fun identity => ∀ shared ∈ stage.held, shared.map.identity ≠ identity)
      stage told last →
    Chronicle needs (log ++ (told ++ [.moment last.held])) last

variable {needs : MapIdentity → Permutation → Prop} {fresh : MapIdentity → Prop}
  {stage last : Stage} {told log : List Occurrence} {job : JobId} {identity : MapIdentity}

/-- A compile of an identity is in flight. -/
def Flies (job : JobId) (identity : MapIdentity) (workshop : Workshop) : Prop :=
  ∃ entry, workshop.manager.jobs.get? job = some entry ∧ entry.identity = identity

/-- How a compile of an identity ended, if that is told. -/
def Ended (job : JobId) (identity : MapIdentity) (told : List Occurrence) : Prop :=
  .failed job ∈ told ∨ .left job ∈ told ∨
    ∃ shared, .made job shared ∈ told ∧ shared.map.identity = identity

theorem Ended.mono {more : List Occurrence} (ended : Ended job identity told)
    (subset : told ⊆ more) : Ended job identity more := by
  rcases ended with failed | left | ⟨shared, made, same⟩
  · exact .inl (subset failed)
  · exact .inr (.inl (subset left))
  · exact .inr (.inr ⟨shared, subset made, same⟩)

/-! ### The fate of a compile -/

/-- Of the compiles in flight one is taken out, and it is told how that one ends. -/
theorem Flies.without {taken : JobId} {workshop next : Workshop}
    (flies : Flies job identity workshop)
    (jobs : next.manager.jobs = workshop.manager.jobs.erase taken)
    (ends : job = taken → Ended job identity told) :
    Flies job identity next ∨ Ended job identity told := by
  obtain ⟨entry, found, same⟩ := flies
  by_cases here : job = taken
  · exact .inr (ends here)
  · refine .inl ⟨entry, ?_, same⟩
    rw [jobs, Table.get?_erase, if_neg here]
    exact found

/-- A compile in flight stays there, or it is told how it ends. -/
theorem Step.fate (kept : Kept needs stage) (step : Step needs stage told last)
    (flies : Flies job identity stage.2) :
    Flies job identity last.2 ∨ Ended job identity told := by
  cases step with
  | calm calm =>
    obtain ⟨entry, found, same⟩ := flies
    exact .inl ⟨entry, calm.jobs ▸ found, same⟩
  | pass | find | purge | offer => exact .inl flies
  | @revise outside workshop other recorded revised there identical =>
    obtain ⟨entry, found, same⟩ := flies
    refine .inl ?_
    by_cases here : job = other
    · refine ⟨_, (Table.get?_insert ..).trans (if_pos here), ?_⟩
      rw [here] at found
      cases there.symm.trans found
      exact identical.trans same
    · exact ⟨entry, (Table.get?_insert ..).trans ((if_neg here).trans found), same⟩
  | fail | abort => exact flies.without rfl fun here => .inl (here ▸ List.mem_cons_self)
  | abandon => exact flies.without rfl fun here => .inr (.inl (here ▸ List.mem_cons_self))
  | @make outside workshop ended entry profile made next held found _ _ _ _ ran =>
    obtain ⟨belongs, jobs, _⟩ := kept.of_makeMap ran
    obtain ⟨recorded, there, same⟩ := id flies
    refine flies.without (congrArg (Table.erase · ended) jobs) fun here => ?_
    rw [here] at there ⊢
    cases found.symm.trans there
    exact .inr (.inr ⟨made, List.mem_cons_self, belongs.trans same⟩)

theorem Evolves.fate (kept : Kept needs stage) (evolves : Evolves needs stage told last)
    (flies : Flies job identity stage.2) :
    Flies job identity last.2 ∨ Ended job identity told := by
  induction evolves with
  | refl => exact .inl flies
  | next step _ inductionHypothesis =>
    rcases step.fate kept flies with flies | ended
    · refine (inductionHypothesis (kept.step step) flies).imp_right fun ended => ?_
      exact ended.mono (List.subset_append_right _ _)
    · exact .inr (ended.mono (List.subset_append_left _ _))

theorem Step.unstarted (step : Step needs stage told last) :
    ∀ occurrence ∈ told, occurrence.isStart = false := by
  cases step with
  | fail | abort | abandon | make => exact fun _ member => List.mem_singleton.mp member ▸ rfl
  | _ => exact fun _ none => (nomatch none)

/-- No steps of a workshop begin a compile. -/
theorem Evolves.unstarted (evolves : Evolves needs stage told last) :
    ∀ occurrence ∈ told, occurrence.isStart = false := by
  induction evolves with
  | refl => exact fun _ none => (nomatch none)
  | next step _ inductionHypothesis =>
    exact fun occurrence member => (List.mem_append.mp member).elim (step.unstarted occurrence)
      (inductionHypothesis occurrence)

theorem Evolves.lowerings (kept : Kept needs stage) (evolves : Evolves needs stage told last) :
    last.2.manager.lowerings = stage.2.manager.lowerings := by
  induction evolves with
  | refl => rfl
  | next step _ inductionHypothesis =>
    refine (inductionHypothesis (kept.step step)).trans ?_
    cases step with
    | calm calm => exact calm.lowerings
    | make held found lowered arrived clean holds ran => exact (kept.of_makeMap ran).2.2
    | _ => rfl

/-! ### The fate of a compile that has begun -/

theorem begun_flies (workshop : Workshop) (request : CompileRequest) :
    Flies workshop.manager.nextJob request.identity (workshop.begun request) :=
  ⟨request.entry, (congrArg (Table.get? · _) (Calm.begun workshop request).jobs).trans
      ((Table.get?_insert ..).trans (if_pos rfl)), rfl⟩

/-- When a compile begins, the others are in flight still. -/
theorem Flies.begun {outside : List SharedMap} {workshop : Workshop}
    (flies : Flies job identity workshop)
    (kept : Kept needs (outside, workshop)) (request : CompileRequest) :
    Flies job identity (workshop.begun request) := by
  obtain ⟨entry, found, same⟩ := flies
  have older := (kept.orderly.begun job entry found).1
  refine ⟨entry, (congrArg (Table.get? · _) (Calm.begun workshop request).jobs).trans
    ((Table.get?_insert ..).trans ((if_neg fun here => ?_).trans found)), same⟩
  exact absurd older (here ▸ Nat.lt_irrefl _)

theorem Proceeds.fate (kept : Kept needs stage) (proceeds : Proceeds needs fresh stage told last)
    (flies : Flies job identity stage.2) :
    Flies job identity last.2 ∨ Ended job identity told := by
  cases proceeds with
  | quietly evolves => exact evolves.fate kept flies
  | starting request first _ absent _ rest =>
    have keptMiddle := kept.evolves first
    rcases first.fate kept flies with flies | ended
    · refine (rest.fate (keptMiddle.begun absent) (flies.begun keptMiddle request)).imp_right
        fun ended => ?_
      exact ended.mono fun _ member => List.mem_append_right _ (List.mem_cons_of_mem _ member)
    · exact .inr (ended.mono (List.subset_append_left _ _))

/-! ### The whole chronicle -/

theorem Chronicle.kept (chronicle : Chronicle needs log stage) : Kept needs stage := by
  induction chronicle with
  | start compiler store usesStore => exact kept_start compiler store usesStore
  | act _ proceeds kept => exact kept.proceeds proceeds

/-- The last thing that is told is what is held now. -/
theorem Chronicle.ends (chronicle : Chronicle needs log stage) :
    ∃ earlier, log = earlier ++ [.moment stage.held] := by
  cases chronicle with
  | start => exact ⟨[], rfl⟩
  | @act log _ told _ _ _ => exact ⟨log ++ told, (List.append_assoc ..).symm⟩

/-- Where it is told that a compile begins, it has begun, and no other has. -/
theorem Proceeds.of_start (proceeds : Proceeds needs fresh stage told last) {moment : Occurrence}
    (pause : moment.isStart = false) {before later : List Occurrence}
    (split : told ++ [moment] = before ++ .started job identity :: later) :
    ∃ outside workshop request after, Evolves needs stage before (outside, workshop) ∧
      (∀ job shared, .made job shared ∉ before) ∧
      workshop.manager.inFlight? identity = none ∧ fresh identity ∧
      Evolves needs (outside, workshop.begun request) after last ∧
      later = after ++ [moment] ∧ workshop.manager.nextJob = job ∧ request.identity = identity := by
  have paused : ∀ occurrence ∈ [moment], occurrence.isStart = false :=
    fun _ member => List.mem_singleton.mp member ▸ pause
  cases proceeds with
  | quietly evolves =>
    have member : Occurrence.started job identity ∈ told ++ [moment] :=
      split ▸ List.mem_append_right _ List.mem_cons_self
    have never := (List.mem_append.mp member).elim (evolves.unstarted _) (paused _)
    exact Bool.noConfusion never
  | starting request first unmade absent isFresh rest =>
    rw [List.append_assoc, List.cons_append] at split
    have later_unstarted (occurrence : Occurrence) (member : occurrence ∈ _ ++ [moment]) :=
      (List.mem_append.mp member).elim (rest.unstarted occurrence) (paused occurrence)
    obtain ⟨rfl, rfl, rfl, rfl⟩ := Occurrence.only_start first.unstarted later_unstarted split
    exact ⟨_, _, request, _, first, unmade, absent, isFresh, rest, rfl, rfl, rfl⟩

/-- Every compile that has begun is in flight still, or it is told how it ended. -/
theorem Chronicle.accounted (chronicle : Chronicle needs log stage) {past later : List Occurrence}
    (split : log = past ++ .started job identity :: later) :
    Flies job identity stage.2 ∨ Ended job identity later := by
  induction chronicle generalizing past later with
  | start =>
    have member : Occurrence.started job identity ∈ [.moment []] :=
      split ▸ List.mem_append_right _ List.mem_cons_self
    cases List.mem_singleton.mp member
  | @act log stage told last before proceeds inductionHypothesis =>
    rcases split_append split with ⟨rest, former, rfl⟩ | ⟨rest, _, latter⟩
    · rcases inductionHypothesis former with flies | ended
      · refine (proceeds.fate before.kept flies).imp_right fun ended => ?_
        exact ended.mono fun _ member =>
          List.mem_append_right _ (List.mem_append_left _ member)
      · exact .inr (ended.mono (List.subset_append_left _ _))
    · obtain ⟨_, _, request, _, first, _, absent, _, rest, rfl, rfl, rfl⟩ :=
        proceeds.of_start rfl latter
      have keptBegun := (before.kept.evolves first).begun absent
      refine (rest.fate keptBegun (begun_flies _ request)).imp_right fun ended => ?_
      exact ended.mono (List.subset_append_left _ _)

/-- What was told of a map that was made was told before the last moment. -/
theorem Chronicle.moment_after (chronicle : Chronicle needs log stage)
    {before after : List Occurrence} {shared : SharedMap}
    (split : log = before ++ .made job shared :: after) :
    .moment stage.held ∈ after := by
  obtain ⟨earlier, ends⟩ := chronicle.ends
  rcases split_append (ends.symm.trans split) with ⟨rest, _, rfl⟩ | ⟨rest, _, last⟩
  · exact List.mem_append_right _ List.mem_cons_self
  · have member : Occurrence.made job shared ∈ [.moment stage.held] :=
      last ▸ List.mem_append_right _ List.mem_cons_self
    cases List.mem_singleton.mp member

/-- When none of an identity is in flight and nobody has held a map of it at the last moment, there
is an excuse for compiling it again. -/
theorem Chronicle.excuses (chronicle : Chronicle needs log stage)
    {past later told : List Occurrence} {outside : List SharedMap} {workshop : Workshop}
    (split : log = past ++ .started job identity :: later)
    (steps : Evolves needs stage told (outside, workshop))
    (unmade : ∀ job shared, .made job shared ∉ told)
    (absent : workshop.manager.inFlight? identity = none)
    (unheld : ∀ shared ∈ stage.held, shared.map.identity ≠ identity) :
    Occurrence.Excuses job (later ++ told) := by
  have grounded (flies : Flies job identity workshop) : False := by
    obtain ⟨entry, found, rfl⟩ := flies
    have tracked := (chronicle.kept.evolves steps).indexed job entry found
    rw [absent] at tracked
    cases tracked
  rcases chronicle.accounted split with flies | failed | left | ⟨shared, made, same⟩
  · rcases steps.fate chronicle.kept flies with flies | failed | left | ⟨shared, made, _⟩
    · exact (grounded flies).elim
    · exact .inl (List.mem_append_right _ failed)
    · exact .inr (.inl (List.mem_append_right _ left))
    · exact absurd made (unmade job shared)
  · exact .inl (List.mem_append_left _ failed)
  · exact .inr (.inl (List.mem_append_left _ left))
  · obtain ⟨before, after, rfl⟩ := List.append_of_mem made
    rw [← List.cons_append, ← List.append_assoc] at split
    refine .inr (.inr ⟨before, shared, after ++ told, stage.held, List.append_assoc .., ?_, ?_⟩)
    · exact List.mem_append_left _ (chronicle.moment_after split)
    · exact fun held => unheld shared held same

/-- Between two compiles of one identity the first one failed, or it was left, or nobody held its
map at some moment. -/
theorem Chronicle.excused (chronicle : Chronicle needs log stage)
    {past between rest : List Occurrence} {other : JobId}
    (split : log = (past ++ .started job identity :: between) ++
      .started other identity :: rest) : Occurrence.Excuses job between := by
  induction chronicle generalizing past between rest with
  | start =>
    have member : Occurrence.started other identity ∈ [.moment []] :=
      split ▸ List.mem_append_right _ List.mem_cons_self
    cases List.mem_singleton.mp member
  | act before proceeds inductionHypothesis =>
    rcases split_append split with ⟨_, former, _⟩ | ⟨more, joint, latter⟩
    · exact inductionHypothesis former
    · obtain ⟨_, _, _, _, steps, unmade, absent, unheld, _, _, _, _⟩ :=
        proceeds.of_start rfl latter
      rcases split_append joint.symm with ⟨later, former, rfl⟩ | ⟨_, _, within⟩
      · exact before.excuses former steps unmade absent unheld
      · have never := steps.unstarted (.started job identity)
          (within ▸ List.mem_append_right _ List.mem_cons_self)
        exact Bool.noConfusion never

/-- As many compiles have begun as are told of. -/
theorem Chronicle.lowerings (chronicle : Chronicle needs log stage) :
    stage.2.manager.lowerings = log.countP Occurrence.isStart := by
  induction chronicle with
  | start => rfl
  | @act log stage told last before proceeds inductionHypothesis =>
    have none_of {told : List Occurrence}
        (unstarted : ∀ occurrence ∈ told, occurrence.isStart = false) :
        told.countP Occurrence.isStart = 0 :=
      List.countP_eq_zero.mpr fun occurrence member =>
        Bool.not_eq_true _ |>.mpr (unstarted occurrence member)
    rw [List.countP_append, List.countP_append, ← inductionHypothesis]
    show _ = _ + (_ + 0)
    cases proceeds with
    | quietly evolves =>
      rw [none_of evolves.unstarted]
      exact evolves.lowerings before.kept
    | starting request first _ absent _ rest =>
      have keptMiddle := before.kept.evolves first
      rw [List.countP_append, List.countP_cons_of_pos rfl, none_of first.unstarted,
        none_of rest.unstarted, rest.lowerings (keptMiddle.begun absent),
        ← first.lowerings before.kept]
      exact (Calm.begun _ request).lowerings

end Workshop

end Shading
