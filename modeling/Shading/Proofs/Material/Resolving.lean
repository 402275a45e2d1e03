/-
What is drawn. The library looks for the resource of a target along the chain of
its parents, and the renderer along the chain of proxies. Both chains break where
a parent is gone, and both searches have steps enough for any chain, so that they
find the same resource. With that the renderer is, whenever no command is queued,
a mirror of the library.
-/

import Shading.Proofs.Material.Drawing
import Shading.Proofs.Material.Reflecting

namespace Shading

/-! ### The search of the renderer -/

namespace World

variable {world : World} {rank : ProxyId → Nat} {proxy : ProxyId} {kind : ProxyKind} {tier : Tier}

theorem kinds_eq (world : World) (proxy : ProxyId) :
    world.proxies.kinds proxy = (world.cast.proxies proxy).map RenderProxy.kind := by
  show _ = ((world.proxies.get? proxy).map RenderProxy.bare).map RenderProxy.kind
  rw [Option.map_map]
  rfl

theorem resolve_of_missing (missing : world.proxies.kinds proxy = none) :
    world.resolve proxy tier = none := by
  by_contra there
  obtain ⟨resource, found⟩ := Option.ne_none_iff_exists'.mp there
  cases Proxies.draws_of_resolve found with
  | own live | inherited live =>
    rw [missing] at live
    cases live

/-- A proxy is drawn with a resource of its own or with that of the proxy above. -/
theorem resolve_eq (ranked : world.proxies.kinds.Ranked rank)
    (live : world.proxies.kinds proxy = some kind) (tier : Tier) :
    world.resolve proxy tier =
      (kind.own? tier).or (kind.parent?.bind fun above => world.resolve above tier) := by
  refine Option.ext fun resource => ?_
  rw [resolve_iff ranked]
  constructor
  · intro draws
    cases draws with
    | own found own =>
      cases live.symm.trans found
      rw [own]
      rfl
    | inherited found nothing above draws =>
      cases live.symm.trans found
      rw [nothing, above]
      exact (resolve_iff ranked _ tier resource).mpr draws
  · intro found
    cases own : kind.own? tier with
    | some other =>
      rw [own] at found
      cases found
      exact .own live own
    | none =>
      rw [own] at found
      obtain ⟨above, is, found⟩ := Option.bind_eq_some_iff.mp found
      exact .inherited live own is ((resolve_iff ranked above tier resource).mp found)

end World

namespace Library

variable {library next : Library} {target : Target} {role : Role} {key : SlotKey}
  {found : MaterialInstance} {rank : Target → Nat} {world : World}

/-! ### The search of the library -/

/-- Instances come after what they are derived from. -/
def Ranked (library : Library) (rank : Target → Nat) : Prop :=
  ∀ key found, library.derived.get? key = some found → rank found.parent < rank (.derived key)

theorem ancestry_missing (missing : library.derived.get? key = none) (links : Nat) :
    library.ancestry links (.derived key) = ([], .derived key) := by
  cases links with
  | zero => rfl
  | succ links => rw [ancestry, missing]

/-- One more step finds nothing new if there are as many as instances that have not been met: all
that have been met are younger than the target that is looked at. -/
theorem ancestry_succ (ranked : library.Ranked rank) {links : Nat} (met : List SlotKey)
    (distinct : met.Nodup) (live : met ⊆ library.derived.entries.keys)
    (younger : ∀ other ∈ met, rank target < rank (.derived other))
    (enough : library.derived.size ≤ links + met.length) :
    library.ancestry (links + 1) target = library.ancestry links target := by
  induction links generalizing target met with
  | zero =>
    cases target with
    | material key => exact library.ancestry_material 1 key
    | derived key =>
      cases there : library.derived.get? key with
      | none => rw [ancestry_missing there, ancestry_missing there]
      | some found =>
        have unmet : key ∉ met := fun member => Nat.lt_irrefl _ (younger key member)
        have room := (List.nodup_cons.mpr ⟨unmet, distinct⟩).length_le_of_subset
          (List.cons_subset.mpr ⟨Table.mem_keys_of_get? there, live⟩)
        have size : library.derived.entries.keys.length = library.derived.size :=
          List.length_map _
        rw [List.length_cons, size] at room
        omega
  | succ links inductionHypothesis =>
    cases target with
    | material key => rw [library.ancestry_material, library.ancestry_material]
    | derived key =>
      cases there : library.derived.get? key with
      | none => rw [ancestry_missing there, ancestry_missing there]
      | some found =>
        have unmet : key ∉ met := fun member => Nat.lt_irrefl _ (younger key member)
        have older := ranked key found there
        have up : library.ancestry (links + 1) found.parent =
            library.ancestry links found.parent := by
          refine inductionHypothesis (key :: met) (List.nodup_cons.mpr ⟨unmet, distinct⟩)
            (List.cons_subset.mpr ⟨Table.mem_keys_of_get? there, live⟩) (fun other member => ?_) ?_
          · rcases List.mem_cons.mp member with rfl | member
            · exact older
            · exact Nat.lt_trans older (younger other member)
          · rw [List.length_cons]
            omega
        rw [ancestry_derived _ there, ancestry_derived _ there, up]

/-- An instance is drawn with a resource of its own or with that of its parent, wherever its chain
may end. -/
theorem resource_of_parent (ranked : library.Ranked rank)
    (there : library.derived.get? key = some found) (tier : Tier) :
    library.resource (.derived key) tier =
      (found.resources.get tier).or (library.resource found.parent tier) := by
  have same : library.ancestry (library.derived.size + 1) found.parent =
      library.ancestry library.derived.size found.parent :=
    ancestry_succ ranked [] .nil (List.nil_subset _) (fun _ member => nomatch member)
      (Nat.le_refl _)
  unfold resource chain
  rw [ancestry_derived _ there, same]
  dsimp only
  rw [List.findSome?_cons]
  cases found.resources.get tier <;> rfl

theorem resource_of_missing (missing : library.role? target = none) (tier : Tier) :
    library.resource target tier = none := by
  cases target with
  | material key =>
    rw [resource_material, ownResources_eq, missing]
    exact PerTier.get_fill ..
  | derived key =>
    have gone : library.derived.get? key = none := Option.map_eq_none_iff.mp missing
    unfold resource chain
    rw [ancestry_missing gone]
    rfl

/-! ### Both searches -/

namespace Staged

theorem ranked (staged : library.Staged) : library.Ranked fun target =>
    match library.role? target with
    | some role => role.proxy.number + 1
    | none => 0 := by
  intro key found there
  have role : library.role? (.derived key) = some found.role :=
    congrArg (Option.map MaterialInstance.role) there
  dsimp only
  rw [role]
  obtain ⟨kind, ⟨above, _, older, alone⟩, _⟩ := staged.shown _ _ role
  split
  · rename_i parent live
    rw [(alone found.parent parent live).mpr rfl]
    exact Nat.succ_lt_succ older
  · exact Nat.succ_pos _

/-- Proxies are younger than those above them. -/
theorem kinds_ranked (staged : library.Staged)
    (same : world.cast = library.system.renderer.cast) :
    world.proxies.kinds.Ranked Identifier.number := by
  rintro child parent ⟨kind, live, hangs⟩
  rw [World.kinds_eq, same] at live
  obtain ⟨shown, there, rfl⟩ := Option.map_eq_some_iff.mp live
  obtain ⟨target, role, found, rfl⟩ := staged.known child (by rw [there]; rfl)
  obtain ⟨kind, depicts, shows⟩ := staged.shown target role found
  cases there.symm.trans shows
  unfold Depicts at depicts
  split at depicts
  · rw [depicts] at hangs
    cases hangs
  · obtain ⟨above, rfl, older, _⟩ := depicts
    cases hangs
    exact older

/-- The proxy of a target is drawn with the same resource as the target. -/
theorem resolve_eq_resource (staged : library.Staged)
    (same : world.cast = library.system.renderer.cast) (tier : Tier)
    (there : library.role? target = some role) :
    world.resolve role.proxy tier = library.resource target tier := by
  have ranked := staged.kinds_ranked same
  induction number : role.proxy.number using Nat.strong_induction_on generalizing target role with
  | _ number inductionHypothesis =>
    obtain ⟨kind, depicts, shows⟩ := staged.shown target role there
    have live : world.proxies.kinds role.proxy = some kind := by
      rw [World.kinds_eq, same, shows]
      rfl
    rw [World.resolve_eq ranked live]
    cases target with
    | material key =>
      obtain ⟨material, found, rfl⟩ := Option.map_eq_some_iff.mp there
      obtain rfl : kind = .material material.resources := depicts
      rw [resource_material, ownResources_eq, there]
      exact Option.or_none
    | derived key =>
      obtain ⟨entry, found, rfl⟩ := Option.map_eq_some_iff.mp there
      obtain ⟨above, rfl, older, alone⟩ := depicts
      rw [resource_of_parent staged.ranked found]
      have up : world.resolve above tier = library.resource entry.parent tier := by
        cases parent : library.role? entry.parent with
        | some role =>
          obtain rfl := (alone entry.parent role parent).mpr rfl
          exact inductionHypothesis _ (number ▸ older) parent rfl
        | none =>
          rw [resource_of_missing parent]
          refine World.resolve_of_missing ?_
          rw [World.kinds_eq, same, Option.map_eq_none_iff]
          by_contra known
          obtain ⟨other, role, live, is⟩ :=
            staged.known above (Option.isSome_iff_ne_none.mpr known)
          rw [(alone other role live).mp is, parent] at live
          cases live
      show (entry.resources.get tier).or (world.resolve above tier) = _
      rw [up]

end Staged

/-! ### The renderer as a mirror -/

/-- A world has what a library has: the resources that targets own, with the maps they offer, and
a proxy for each target, which is drawn with what the target is drawn with and has the parameters
that have been set on it. -/
structure IsMirroredBy (library : Library) (world : World) : Prop where
  resources : ∀ id, (world.materials.get? id).isSome ↔ ∃ target, library.Owns target id
  maps : ∀ target id, library.Owns target id → ∃ resource material,
    library.system.resources.get? id = some resource ∧ world.materials.get? id = some material ∧
      material.map.map SharedMap.id = resource.map.map SharedMap.id
  proxies : ∀ proxy, (world.proxies.get? proxy).isSome ↔
    ∃ target, library.proxy? target = some proxy
  distinct : ∀ target other proxy, library.proxy? target = some proxy →
    library.proxy? other = some proxy → target = other
  drawn : ∀ target proxy, library.proxy? target = some proxy → ∀ tier,
    world.resolve proxy tier = library.resource target tier
  parameters : ∀ target proxy, library.proxy? target = some proxy →
    (world.proxies.get? proxy).map RenderProxy.overrides = library.parameters? target
  default : world.defaultProxy =
    library.defaultMaterial.bind fun key => library.proxy? (.material key)
  standing : ∀ key, library.defaultMaterial = some key →
    (library.proxy? (.material key)).isSome

theorem Mirrored.settles (mirrored : library.Mirrored)
    (empty : library.system.renderer.queue = []) :
    library.IsMirroredBy library.system.renderer.world := by
  obtain ⟨faithful, staged, stocked⟩ := mirrored
  have cast : library.system.renderer.world.cast = library.system.renderer.cast := by
    unfold Renderer.cast
    rw [empty]
    rfl
  have standing (id : ResourceId) :
      library.system.renderer.world.standing id = library.system.offered id := by
    rw [← faithful.settled]
    unfold Renderer.settled
    rw [empty]
    rfl
  have shown (proxy : ProxyId) :
      (library.system.renderer.world.proxies.get? proxy).map RenderProxy.bare =
        library.system.renderer.cast.proxies proxy := by
    rw [← cast]
    rfl
  refine ⟨fun id => ?_, fun target id owns => ?_, fun proxy => ?_,
    fun target other proxy one two => ?_, fun target proxy live tier => ?_,
    fun target proxy live => ?_, ?_, staged.standing⟩
  · rw [← stocked.owned]
    have known := congrArg Option.isSome (standing id)
    unfold World.standing System.offered at known
    rw [Option.isSome_map, Option.isSome_map] at known
    unfold System.variantOf
    rw [known, Option.isSome_map]
  · have there := (stocked.owned id).mpr ⟨target, owns⟩
    unfold System.variantOf at there
    rw [Option.isSome_map] at there
    obtain ⟨resource, found⟩ := Option.isSome_iff_exists.mp there
    have standing := standing id
    rw [System.offered_eq_some found] at standing
    obtain ⟨material, live, same⟩ := Option.map_eq_some_iff.mp standing
    exact ⟨resource, material, found, live, same⟩
  · rw [← Option.isSome_map (f := RenderProxy.bare), shown]
    constructor
    · intro there
      obtain ⟨target, role, found, rfl⟩ := staged.known proxy there
      exact ⟨target, proxy?_of_role? found⟩
    · rintro ⟨target, live⟩
      obtain ⟨role, found, rfl⟩ := role?_of_proxy? live
      obtain ⟨kind, _, shows⟩ := staged.shown target role found
      rw [shows]
      rfl
  · obtain ⟨_, left, rfl⟩ := role?_of_proxy? one
    obtain ⟨_, right, same⟩ := role?_of_proxy? two
    exact staged.distinct _ _ _ _ left right same.symm
  · obtain ⟨role, found, rfl⟩ := role?_of_proxy? live
    exact staged.resolve_eq_resource cast tier found
  · obtain ⟨role, found, rfl⟩ := role?_of_proxy? live
    obtain ⟨kind, _, shows⟩ := staged.shown target role found
    rw [← shown] at shows
    have overrides := congrArg (Option.map RenderProxy.overrides) shows
    rw [Option.map_map] at overrides
    rw [parameters?_eq, found]
    exact overrides
  · exact (congrArg Cast.default cast).trans staged.default

/-- What can have happened to a library and its renderer. Meanwhile the renderer carries out its
commands one by one and keeps its caches fresh, others have it do what is about no resource and
does not change what the proxies are, and the workshop becomes whatever it may. -/
inductive Runs : Library → Prop where
  | start (system : System) : system.resources = .empty → system.renderer.queue = [] →
    system.renderer.isGone = false → system.renderer.world.materials = .empty →
    system.renderer.world.proxies = .empty → system.renderer.world.defaultProxy = none →
    Runs { system }
  | does {library next : Library} : Runs library → Does library next → Runs next
  | carryOut {library : Library} {command rest world} : Runs library →
    library.system.renderer.queue = command :: rest →
    library.system.renderer.world.apply command = .ok world →
    Runs { library with system := { library.system with
      renderer := { library.system.renderer with world, queue := rest } } }
  | updateDeferred {library : Library} {count world} : Runs library →
    library.system.renderer.world.updateDeferred = .ok (count, world) →
    Runs { library with system := { library.system with
      renderer := { library.system.renderer with world } } }
  | prepareDraw {library : Library} {proxy tier drawn world} : Runs library →
    library.system.renderer.world.prepareDraw proxy tier = .ok (drawn, world) →
    Runs { library with system := { library.system with
      renderer := { library.system.renderer with world } } }
  | tell {library : Library} (command : RenderCommand) : Runs library → command.resource? = none →
    (∀ cast, command.recast cast = cast) → Runs (library.enqueue command)
  | workshop {library : Library} (workshop : Workshop) : Runs library →
    Runs { library with system := { library.system with workshop } }

theorem mirrored_start (system : System) (resources : system.resources = .empty)
    (queue : system.renderer.queue = []) (here : system.renderer.isGone = false)
    (materials : system.renderer.world.materials = .empty)
    (proxies : system.renderer.world.proxies = .empty)
    (default : system.renderer.world.defaultProxy = none) : Mirrored { system } := by
  have cast : system.renderer.cast = ⟨fun _ => none, none⟩ := by
    unfold Renderer.cast World.cast
    rw [queue, proxies, default]
    rfl
  have nobody (target : Target) (role : Role) : role? { system } target ≠ some role := by
    cases target <;> exact fun found => nomatch found
  have nothing (id : ResourceId) : system.variantOf id = none := by
    unfold System.variantOf
    rw [resources]
    rfl
  have bare (target : Target) (id : ResourceId) : ¬ Owns { system } target id := by
    rintro ⟨tier, has⟩
    have fill : ownResources { system } target = .fill none := by cases target <;> rfl
    rw [fill, PerTier.get_fill] at has
    cases has
  refine ⟨⟨here, fun id => ?_⟩, ⟨Slots.orderly_empty, Slots.orderly_empty, ?_, ?_, ?_, ?_, ?_, ?_,
    ?_⟩, ⟨?_, ?_, ?_⟩⟩
  · unfold Renderer.settled World.standing System.offered
    rw [queue, materials, resources]
    rfl
  · exact fun target role _ found => absurd found (nobody target role)
  · exact fun target role found => absurd found (nobody target role)
  · exact fun target _ role _ found => absurd found (nobody target role)
  · exact fun target role found => absurd found (nobody target role)
  · intro proxy there
    rw [cast] at there
    cases there
  · rw [cast]
    rfl
  · exact fun key is => nomatch is
  · intro id there
    rw [nothing] at there
    cases there
  · intro id
    rw [nothing]
    exact iff_of_false Bool.false_ne_true fun ⟨target, owns⟩ => bare target id owns
  · exact fun target other id owns => absurd owns (bare target id)

theorem Runs.mirrored (runs : Runs library) : library.Mirrored := by
  induction runs with
  | start system resources queue here materials proxies default =>
    exact mirrored_start system resources queue here materials proxies default
  | does _ does mirrored => exact mirrored.does does
  | carryOut _ queued ran mirrored => exact mirrored.carryOut queued ran
  | updateDeferred _ ran mirrored =>
    exact mirrored.upkeep (World.Rests.lasting.updateDeferred ⟨rfl, rfl⟩ ran)
      ((World.lasting_cast _).updateDeferred rfl ran)
  | prepareDraw _ ran mirrored =>
    exact mirrored.upkeep (World.Rests.lasting.prepareDraw ⟨rfl, rfl⟩ ran)
      ((World.lasting_cast _).prepareDraw rfl ran)
  | tell command _ elsewhere idle mirrored => exact mirrored.enqueue elsewhere idle
  | workshop workshop _ mirrored => exact mirrored.onWorkshop workshop

/-- Whatever has been done with a library, once all commands have been carried out the renderer
has just what the library has. -/
theorem Runs.isMirroredBy (runs : Runs library) (empty : library.system.renderer.queue = []) :
    library.IsMirroredBy library.system.renderer.world :=
  runs.mirrored.settles empty

/-- An empty library whose materials all have the one shader of the catalog, compiled at once. -/
def easel : Library where
  system := {
    settings := { allowsAsyncCompilation := false }
    catalog := System.pixelCatalog
    workshop := { compiler := { compile := fun _ => .ok ⟨[], 0⟩ } } }

/-- An instance of the default material, with a resource and a parameter of its own. -/
theorem tinted_isMirrored : ∃ library key proxy id, Runs library ∧
    library.system.renderer.queue = [] ∧ library.proxy? (.derived key) = some proxy ∧
    library.system.renderer.world.resolve proxy .desktop = some id ∧
    (library.system.renderer.world.proxies.get? proxy).map RenderProxy.overrides =
      some (Table.empty.insert "Tint" (.scalar .one)) ∧
    library.IsMirroredBy library.system.renderer.world := by
  have run : (easel.setDefaultMaterial (switched false)).toOption.bind (fun added =>
      (added.2.addInstance (.material added.1) (.ofSwitches [("Detail", true)])).toOption.bind
        fun made => made.1.toOption.bind fun key =>
          (made.2.setParameter (.derived key) "Tint" (.scalar .one)).toOption.bind fun tinted =>
            tinted.flush.toOption.map fun library => (library.system.renderer.queue,
              library.proxy? (.derived key), library.resource (.derived key) .desktop,
              library.parameters? (.derived key))) =
      some ([], some ⟨2⟩, some ⟨2⟩, some (Table.empty.insert "Tint" (.scalar .one))) := by
    cbv
  obtain ⟨added, adding, run⟩ := Option.bind_eq_some_iff.mp run
  obtain ⟨⟨result, made⟩, making, run⟩ := Option.bind_eq_some_iff.mp run
  obtain ⟨key, _, run⟩ := Option.bind_eq_some_iff.mp run
  obtain ⟨tinted, tinting, run⟩ := Option.bind_eq_some_iff.mp run
  obtain ⟨library, flushed, same⟩ := Option.map_eq_some_iff.mp run
  obtain ⟨empty, shown, drawn, parameters⟩ := by simpa only [Prod.mk.injEq] using same
  have runs : Runs library :=
    (Runs.start easel.system rfl rfl rfl rfl rfl rfl)
      |>.does (.setDefaultMaterial (toOption_eq_some.mp adding))
      |>.does (.addInstance (toOption_eq_some.mp making))
      |>.does (.setParameter (toOption_eq_some.mp tinting))
      |>.does (.flush (toOption_eq_some.mp flushed))
  have mirrored := runs.isMirroredBy empty
  exact ⟨library, key, ⟨2⟩, ⟨2⟩, runs, empty, shown,
    (mirrored.drawn _ _ shown .desktop).trans drawn,
    (mirrored.parameters _ _ shown).trans parameters, mirrored⟩

end Library

end Shading
