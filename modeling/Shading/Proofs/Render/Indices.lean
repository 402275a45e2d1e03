/-
The indices of a render world are exact: each names, once, whoever is there to be
named, and nobody else. Nothing that belongs in an index is missing from it, and
nothing is left in it or in it twice; the first is what a change relies on to
find everyone it concerns, the second is tidiness. Two exceptions are by design.
A proxy that was removed is not told of children that name it nevertheless, and
of a resource that is not registered any more it is not known what was built
from it.

Which proxies there are, and which one steps in for the others, is a matter of
the commands alone.
-/

import Shading.Proofs.Render.Emptying
import Shading.Proofs.Render.Outcome

namespace Shading

/-! ### Who is there -/

namespace RenderCommand

variable {commands : List RenderCommand} {cast : Cast} {proxy : ProxyId}

/-- A proxy stays unless it is removed. -/
theorem isSome_recast {command : RenderCommand} (kept : command ≠ .removeProxy proxy)
    (live : (cast.proxies proxy).isSome) : ((command.recast cast).proxies proxy).isSome := by
  have changed (other : ProxyId) (change : RenderProxy → RenderProxy) :
      ((cast.change other change).proxies proxy).isSome := by
    unfold Cast.change
    rw [Cast.proxies_write]
    split
    · rename_i same
      rw [Option.isSome_map, ← same]
      exact live
    · exact live
  cases command with
  | createProxy other kind =>
    rw [recast, Cast.proxies_write]
    split
    · rfl
    · exact live
  | setMaterials | setParameter | clearParameter => exact changed ..
  | removeProxy other =>
    have different : proxy ≠ other := fun same => kept (same ▸ rfl)
    have left : ((cast.write other none).proxies proxy).isSome := by
      rw [Cast.proxies_write_other different]
      exact live
    exact left
  | _ => exact live

/-- A proxy that was created and never removed is there. -/
theorem isSome_of_created (cast : Cast) {kind : ProxyKind}
    (created : .createProxy proxy kind ∈ commands) (kept : .removeProxy proxy ∉ commands) :
    ((commands.foldl recast cast).proxies proxy).isSome := by
  induction commands using List.reverseRecOn with
  | nil => cases created
  | append_singleton before last inductionHypothesis =>
    rw [List.foldl_append]
    rw [List.mem_append, List.mem_singleton, not_or] at kept
    rcases List.mem_append.mp created with earlier | here
    · exact isSome_recast (Ne.symm kept.2) (inductionHypothesis earlier kept.1)
    · cases List.mem_singleton.mp here
      show (((before.foldl recast cast).write proxy _).proxies proxy).isSome
      rw [Cast.proxies_write_self]
      rfl

/-- The proxy that steps in for others was chosen, and not removed since then. -/
theorem chosen_of_default (nobody : cast.default = none)
    (chosen : (commands.foldl recast cast).default = some proxy) :
    ∃ before after, commands = before ++ .setDefault proxy :: after ∧
      .removeProxy proxy ∉ after := by
  induction commands using List.reverseRecOn with
  | nil => cases nobody.symm.trans chosen
  | append_singleton earlier last inductionHypothesis =>
    rw [List.foldl_append] at chosen
    have longer (kept : last ≠ .removeProxy proxy)
        (before : (earlier.foldl recast cast).default = some proxy) :
        ∃ before after, earlier ++ [last] = before ++ .setDefault proxy :: after ∧
          .removeProxy proxy ∉ after := by
      obtain ⟨front, after, rfl, apart⟩ := inductionHypothesis before
      refine ⟨front, after ++ [last], by rw [List.append_assoc, List.cons_append], ?_⟩
      rw [List.mem_append, List.mem_singleton, not_or]
      exact ⟨apart, Ne.symm kept⟩
    cases last with
    | setDefault other =>
      cases chosen
      exact ⟨earlier, [], rfl, List.not_mem_nil⟩
    | removeProxy other =>
      have left : (if (earlier.foldl recast cast).default = some other then none
        else (earlier.foldl recast cast).default) = some proxy := chosen
      split at left
      · cases left
      · rename_i different
        refine longer (fun same => ?_) left
        cases same
        exact different left
    | _ => exact longer nofun chosen

end RenderCommand

namespace Run

variable {deferring : Bool} {activeTiers : List Tier} {past : List Operation} {world : World}
  {child parent proxy : ProxyId}

theorem mem_createdBy_iff : proxy ∈ Operation.createdBy past ↔
    ∃ kind, .createProxy proxy kind ∈ Operation.commandsOf past := by
  unfold Operation.createdBy Operation.commandsOf
  rw [List.mem_flatMap]
  simp only [List.mem_filterMap]
  constructor
  · rintro ⟨operation, member, creates⟩
    cases operation with
    | perform command =>
      cases command with
      | createProxy other kind =>
        cases List.mem_singleton.mp creates
        exact ⟨kind, _, member, rfl⟩
      | _ => cases creates
    | _ => cases creates
  · rintro ⟨kind, operation, member, same⟩
    cases operation with
    | perform command =>
      cases same
      exact ⟨_, member, List.mem_singleton_self proxy⟩
    | _ => cases same

theorem isSome_of_created (run : Run deferring activeTiers past world)
    (created : proxy ∈ Operation.createdBy past)
    (kept : .removeProxy proxy ∉ Operation.commandsOf past) :
    (world.proxies.kinds proxy).isSome := by
  obtain ⟨kind, member⟩ := mem_createdBy_iff.mp created
  have live := RenderCommand.isSome_of_created (World.cast {}) member kept
  rw [← run.cast_eq] at live
  rw [Proxies.kinds, Option.isSome_map]
  exact (Option.isSome_map (f := RenderProxy.bare)).symm.trans live

/-- What hangs on a proxy was created after it. -/
theorem parent_created (run : Run deferring activeTiers past world)
    (hangs : world.proxies.kinds.Hangs child parent) : parent ∈ Operation.createdBy past := by
  have arranged := run.sound.arranged
  rw [arranged.kinds_eq] at hangs
  have earlier := arranged.ranked child parent hangs
  obtain ⟨kind, live, _⟩ := hangs
  have known := List.idxOf_lt_length_iff.mpr (arranged.known child kind live)
  exact List.idxOf_lt_length_iff.mp (earlier.trans known)

/-- After every operation of a run: under a resource are listed the live proxies that name it, and
under a proxy that was never removed the live proxies that have it as their parent; under a
resource that is registered, the live proxies and tiers whose cache was built from it. Each is
listed once, and no others are. Whoever waits is live and waits once, and the proxy that steps in
for others was not removed after it was chosen. -/
theorem indices_exact (run : Run deferring activeTiers past world) :
    (∀ resource, (Index.entriesOf world.users resource).Nodup ∧
      ∀ proxy, proxy ∈ Index.entriesOf world.users resource ↔
        ∃ kind, world.proxies.kinds proxy = some kind ∧
          ∃ tier, kind.own? tier = some resource) ∧
    (∀ parent, .removeProxy parent ∉ Operation.commandsOf past →
      (Index.entriesOf world.children parent).Nodup ∧
      ∀ child, child ∈ Index.entriesOf world.children parent ↔
        world.proxies.kinds.Hangs child parent) ∧
    (∀ resource, (world.materials.get? resource).isSome →
      (Index.entriesOf world.builtFrom resource).Nodup ∧
      ∀ proxy tier, (proxy, tier) ∈ Index.entriesOf world.builtFrom resource ↔
        ∃ cache, world.cacheOf proxy tier = some cache ∧ cache.resource = some resource) ∧
    (world.deferred.Nodup ∧ ∀ proxy ∈ world.deferred, (world.proxies.get? proxy).isSome) ∧
    ∀ proxy, world.defaultProxy = some proxy →
      ∃ before after, Operation.commandsOf past = before ++ .setDefault proxy :: after ∧
        .removeProxy proxy ∉ after := by
  have tidy := run.tidy
  have arranged := run.sound.arranged
  refine ⟨fun resource => ⟨tidy.once.users resource, fun proxy => ⟨tidy.users resource proxy, ?_⟩⟩,
    fun parent kept => ⟨tidy.once.children parent, fun child => ⟨tidy.children parent child, ?_⟩⟩,
    fun resource registered => ⟨tidy.once.builtFrom resource, fun proxy tier =>
      ⟨tidy.builtFrom resource (proxy, tier), ?_⟩⟩,
    ⟨tidy.once.deferred, fun proxy member => ?_⟩, fun proxy chosen => ?_⟩
  · rintro ⟨kind, live, tier, named⟩
    exact run.listed.enlists proxy kind tier resource live named
  · intro hangs
    have live := run.isSome_of_created (run.parent_created hangs) kept
    rw [arranged.kinds_eq] at hangs live
    exact arranged.children child parent hangs live
  · rintro ⟨cache, found, built⟩
    exact run.sound.noted.noted proxy tier cache resource found built registered
  · have live := tidy.deferred proxy member
    rwa [Proxies.kinds, Option.isSome_map] at live
  · have default : world.cast.default = some proxy := chosen
    rw [run.cast_eq] at default
    exact RenderCommand.chosen_of_default rfl default

/-- After the first frame another proxy is hung on the first one, steps in for it, and is removed
again. -/
def pruned : List Operation :=
  firstFrame ++
    [.perform (.createProxy (.next .first) (.derived .first (.fill none))),
      .perform (.setDefault (.next .first)), .updateDeferred,
      .perform (.removeProxy (.next .first))]

/-- Nothing hangs on the first proxy then, it alone names the resource, and only its cache was
built from it. -/
theorem pruned_exact : ∃ world, Run true [.desktop] pruned world ∧
    (∀ child, ¬world.proxies.kinds.Hangs child .first) ∧
    (∀ proxy kind tier, world.proxies.kinds proxy = some kind → kind.own? tier = some .first →
      proxy = .first) ∧
    (∀ proxy tier cache, world.cacheOf proxy tier = some cache → cache.resource = some .first →
      (proxy, tier) = (.first, .desktop)) ∧
    ∃ cache, world.cacheOf .first .desktop = some cache ∧ cache.resource = some .first := by
  have built : (Operation.carryOutAll {} pruned).map (fun world =>
      (Index.entriesOf world.children .first, Index.entriesOf world.users .first,
        Index.entriesOf world.builtFrom .first, (world.materials.get? .first).isSome)) =
      .ok ([], [.first], [(.first, .desktop)], true) := by
    cbv
  obtain ⟨world, ran, built⟩ := map_eq_ok.mp built
  simp only [Prod.mk.injEq] at built
  obtain ⟨children, users, notes, registered⟩ := built
  have run : Run true [.desktop] pruned world := Run.start.continued (by decide) ran
  have kept : .removeProxy .first ∉ Operation.commandsOf pruned := by
    simp only [pruned, firstFrame, Operation.commandsOf, Operation.command?, List.cons_append,
      List.nil_append, List.filterMap_cons, List.filterMap_nil, List.mem_cons, reduceCtorEq,
      RenderCommand.removeProxy.injEq, List.not_mem_nil, or_false, false_or]
    decide
  obtain ⟨named, hung, noted, _⟩ := run.indices_exact
  refine ⟨world, run, fun child hangs => ?_, fun proxy kind tier live own => ?_,
    fun proxy tier cache found source => ?_, ?_⟩
  · have member := ((hung .first kept).2 child).mpr hangs
    rw [children] at member
    cases member
  · have member := ((named .first).2 proxy).mpr ⟨kind, live, tier, own⟩
    rw [users] at member
    exact List.mem_singleton.mp member
  · have member := ((noted .first registered).2 proxy tier).mpr ⟨cache, found, source⟩
    rw [notes] at member
    exact List.mem_singleton.mp member
  · exact ((noted .first registered).2 .first .desktop).mp (notes ▸ List.mem_singleton_self _)

end Run

end Shading
