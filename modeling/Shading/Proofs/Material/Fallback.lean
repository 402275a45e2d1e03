/-
The fallback is always available. From the time when the renderer has been told
who stands in for the rest until it is told the first thing that comes of removing
that material, whatever is to be drawn is drawn with something: after every
single command, and whatever else is edited, compiled, released or removed. The
material has its maps before it is chosen, and it is spared from then on.
-/

import Shading.Proofs.Material.Handover
import Shading.Proofs.Material.Resolving
import Shading.Proofs.Material.Upholding

namespace Shading

namespace Library

variable {library next : Library} {proxy : ProxyId} {materials : Materials}
  {removing : Option ProxyId} {target : Target} {applied pending : List Message}
  {said : List RenderCommand} {tiers : List Tier}

/-! ### Choosing -/

/-- Caching the shaders of a target gives a map to each of its resources for a default material. -/
theorem offering_cacheShaders {ready : Bool} (live : (library.proxy? target).isSome)
    (default : ∀ resource ∈ (library.ownResources target).toList.filterMap id, ∃ variant,
      library.system.variantOf resource = some variant ∧ variant.description.isDefault)
    (ran : library.cacheShaders target = .ok (ready, next)) :
    ∀ resource ∈ (library.ownResources target).toList.filterMap id,
      (∃ map, next.system.offered resource = some (some map)) ∧
        next.system.variantOf resource = library.system.variantOf resource := by
  unfold Library.cacheShaders at ran
  rw [if_neg (by rw [Option.isNone_iff_eq_none]; exact Option.isSome_iff_ne_none.mp live)] at ran
  obtain ⟨⟨done, system⟩, folded, same⟩ := bind_eq_ok.mp ran
  cases same
  generalize (library.ownResources target).toList.filterMap id = own at default folded
  have all := foldlM_invariant (motive := fun (left : List ResourceId) (state : Bool × System) =>
      state.2.variantOf = library.system.variantOf ∧ left ⊆ own ∧
      ∀ resource ∈ own, resource ∈ left ∨ ∃ map, state.2.offered resource = some (some map))
    (fun first rest state after ⟨steady, among, offering⟩ stepped => by
      obtain ⟨⟨ready, system⟩, cached, same⟩ := bind_eq_ok.mp stepped
      cases same
      have member := among List.mem_cons_self
      obtain ⟨variant, is, stands⟩ := default first member
      rw [← steady] at is
      obtain ⟨resource, found, rfl⟩ := Option.map_eq_some_iff.mp is
      cases System.cacheShaders_default found stands cached
      obtain ⟨_, shared, ⟨middle, quiet, rfl⟩, offers⟩ := System.ready_exchanges cached
      refine ⟨(System.Steady.cacheShaders cached).variantOf.trans steady,
        fun _ later => among (List.mem_cons_of_mem _ later), fun other owned => ?_⟩
      by_cases here : other = first
      · exact .inr ⟨shared.id, here ▸ offers⟩
      · refine (offering other owned).imp (fun left => ?_) fun ⟨map, before⟩ => ⟨map, ?_⟩
        · exact (List.mem_cons.mp left).resolve_left here
        · rw [System.offered_setMap, if_neg here, quiet.offered]
          exact before)
    _ _ _ ⟨rfl, List.Subset.refl _, fun _ owned => .inl owned⟩ folded
  exact fun resource owned =>
    ⟨(all.2.2 resource owned).resolve_left List.not_mem_nil, congrFun all.1 resource⟩

/-- The default material has maps for all active tiers. -/
structure Ready (library : Library) (tiers : List Tier) (proxy : ProxyId)
    (materials : Materials) : Prop where
  presents : library.Presents proxy materials
  supports : library.system.Supports proxy materials
  supplied : ∀ tier ∈ tiers, (materials.get tier).isSome

/-- What is ready can stand in for the rest as soon as the renderer has caught up. -/
theorem Ready.backs (ready : library.Ready tiers proxy materials) (mirrored : library.Mirrored) :
    library.system.renderer.Backs tiers proxy materials := by
  obtain ⟨⟨key, material, is, found, rfl, rfl, _⟩, supports, supplied⟩ := ready
  have role : library.role? (.material key) = some material.role :=
    congrArg (Option.map Material.role) found
  obtain ⟨kind, depicts, shows⟩ := mirrored.staged.shown _ _ role
  refine ⟨?_, ?_, fun tier active => ?_⟩
  · rw [mirrored.staged.default, is]
    exact proxy?_of_role? role
  · refine (congrArg (Option.map RenderProxy.kind) shows).trans (congrArg some ?_)
    exact depicts
  · obtain ⟨id, has⟩ := Option.isSome_iff_exists.mp (supplied tier active)
    obtain ⟨map, offering⟩ := supports.offering has
    exact ⟨id, has, map, (mirrored.faithful.settled id).trans offering⟩

/-- Whoever is chosen is ready. -/
theorem ready_setDefaultMaterial {description : Description} {key : SlotKey}
    (mirrored : library.Mirrored)
    (ran : library.setDefaultMaterial description = .ok (key, next)) :
    ∃ middle proxy materials, library.Orders none middle ∧
      next.system = middle.system.enqueue (.setDefault proxy) ∧
      next.Ready library.system.settings.activeTiers proxy materials := by
  have after := mirrored.setDefaultMaterial ran
  obtain ⟨⟨added, middle⟩, adding, same⟩ := bind_eq_ok.mp ran
  obtain ⟨made, placed, ready, rfl, places, caching⟩ := placed_addMaterial adding
  have entry := (places.entries library.materials.nextKey).trans (if_pos rfl)
  have live : placed.proxy? (.material library.materials.nextKey) =
    some library.system.nextProxy := congrArg (Option.map Material.proxy) entry
  have own : placed.ownResources (.material library.materials.nextKey) = made :=
    ownResources_material entry
  have offers := offering_cacheShaders (by rw [live]; rfl) (fun resource owned => by
    rw [own, mem_resources] at owned
    obtain ⟨tier, has⟩ := owned
    obtain ⟨variant, is, described⟩ := places.described has
    exact ⟨variant, is, by rw [described]⟩) caching
  rw [own] at offers
  obtain ⟨system, _, rfl⟩ := cacheShaders_kept (motive := fun _ => True)
    (fun _ _ => trivial) trivial caching
  have live : Library.proxy? { placed with system } (.material library.materials.nextKey) =
    some library.system.nextProxy := live
  dsimp only at same
  rw [live] at same
  cases same
  refine ⟨_, library.system.nextProxy, made, .addMaterial adding, rfl,
    ⟨library.materials.nextKey, _, rfl, entry, rfl, rfl, rfl⟩, ?_, places.supplied⟩
  have role : Library.role? { placed with
      system := system.enqueue (.setDefault library.system.nextProxy)
      defaultMaterial := some library.materials.nextKey }
      (.material library.materials.nextKey) = some _ := congrArg (Option.map Material.role) entry
  refine ⟨after.faithful.here, after.staged.numbered _ _ role, fun {tier id} has => ?_,
    fun {tier id} has variant is => ?_, fun {tier id} has => ?_⟩
  · obtain ⟨⟨map, offering⟩, _⟩ := offers id (mem_resources.mpr ⟨tier, has⟩)
    refine after.stocked.numbered id ?_
    obtain ⟨resource, found, _⟩ := Option.map_eq_some_iff.mp offering
    exact Option.isSome_of_mem (congrArg (Option.map Resource.variant) found)
  · obtain ⟨_, steady⟩ := offers id (mem_resources.mpr ⟨tier, has⟩)
    obtain ⟨before, was, described⟩ := places.described has
    cases (is.symm.trans steady).trans was
    rw [described]
  · exact (offers id (mem_resources.mpr ⟨tier, has⟩)).1

/-! ### Removing -/

/-- Whoever removes something tells the renderer so. -/
theorem Orders.said_ne_nil (orders : library.Orders removing next) (somebody : removing.isSome)
    (here : library.system.renderer.isGone = false)
    (queue : next.system.renderer.queue = library.system.renderer.queue ++ said) : said ≠ [] := by
  have told {left : Library} {resources : Materials} {command : RenderCommand}
      (system : left.system = library.system)
      (queue : ((left.releaseResources resources).enqueue command).system.renderer.queue =
        library.system.renderer.queue ++ said) : said ≠ [] := by
    have released : System.Impartial left.system (left.releaseResources resources).system :=
      (System.Tended.releaseResources (.rest _ _ _) fun _ _ => ⟨rfl, rfl⟩).impartial
    obtain ⟨present, before, earlier, _⟩ := released.said (system ▸ here)
    have last : ((left.releaseResources resources).enqueue command).system.renderer.queue =
        (left.releaseResources resources).system.renderer.queue ++ [command] :=
      congrArg Renderer.queue (Renderer.enqueue_eq _ command present)
    rintro rfl
    rw [last, earlier, system, List.append_assoc] at queue
    exact List.append_ne_nil_of_right_ne_nil before (List.cons_ne_nil command [])
      (List.append_cancel_left queue)
  cases orders with
  | removeMaterial key =>
    obtain ⟨proxy, live⟩ := Option.isSome_iff_exists.mp somebody
    obtain ⟨material, found, _⟩ := Option.map_eq_some_iff.mp live
    rw [Library.removeMaterial_of_found found] at queue
    let without : Library := { library.relieved key with
      materials := library.materials.erase key }
    have same : without.system = library.system := rfl
    exact told same queue
  | removeInstance key =>
    obtain ⟨proxy, live⟩ := Option.isSome_iff_exists.mp somebody
    obtain ⟨entry, found, _⟩ := Option.map_eq_some_iff.mp live
    unfold Library.removeInstance at queue
    rw [found] at queue
    let without : Library := { library with derived := library.derived.erase key }
    have same : without.system = library.system := rfl
    exact told same queue
  | _ => cases somebody

theorem Orders.impartial (orders : library.Orders removing next) :
    System.Impartial library.system next.system :=
  (System.Tended.orders (.rest _ _ _)
    ⟨fun _ common => by
      cases common with
      | @tell command plain => cases command <;> first | rfl | cases plain
      | _ => rfl,
    fun _ concerns => by cases concerns <;> rfl,
    show System.Piece.isImpartial .settle from rfl⟩ orders).impartial

/-- With the default material goes the choice. -/
theorem Orders.vacated {key : SlotKey} (staged : library.Staged)
    (orders : library.Orders removing next) (chosen : library.defaultMaterial = some key)
    (leaving : removing = library.proxy? (.material key)) : next.defaultMaterial = none := by
  obtain ⟨proxy, live⟩ := Option.isSome_iff_exists.mp (staged.standing key chosen)
  have own (target : Target) (same : library.proxy? target = library.proxy? (.material key)) :
      target = .material key := by
    have there := same.trans live
    rw [proxy?_eq, Option.map_eq_some_iff] at there live
    obtain ⟨role, plays, is⟩ := there
    obtain ⟨role', plays', is'⟩ := live
    exact staged.distinct _ _ role role' plays plays' (is.trans is'.symm)
  cases orders with
  | removeMaterial other =>
    cases own _ leaving
    obtain ⟨material, found, _⟩ := Option.map_eq_some_iff.mp live
    rw [Library.removeMaterial_of_found found]
    let without : Library := { library.relieved key with
      materials := library.materials.erase key }
    refine (serves_releaseResources without material.resources).2.trans ?_
    exact if_pos chosen
  | removeInstance other => cases own _ leaving
  | _ => cases leaving.trans live

/-! ### Runs -/

/-- A library and its renderer at work: the messages that have been carried out, oldest first,
and those that are still queued. The renderer may also work on what it has put off, others may
tell it what is about no resource and no proxy, and the workshop becomes whatever it may. -/
inductive Broadcasts : Library → List Message → List Message → Prop where
  | start (system : System) : system.resources = .empty → system.renderer.queue = [] →
    system.renderer.isGone = false → system.renderer.world.materials = .empty →
    system.renderer.world.proxies = .empty → system.renderer.world.defaultProxy = none →
    Broadcasts { system } [] []
  | order {library : Library} {removing next applied pending said} :
    Broadcasts library applied pending → library.Orders removing next →
    next.system.renderer.queue = library.system.renderer.queue ++ said →
    Broadcasts next applied (pending ++ Message.sent removing said)
  | choose {library : Library} {description key next applied pending said} :
    Broadcasts library applied pending →
    library.setDefaultMaterial description = .ok (key, next) →
    next.system.renderer.queue = library.system.renderer.queue ++ said →
    Broadcasts next applied (pending ++ Message.sent none said)
  | tell {library : Library} {applied pending} (command : RenderCommand) :
    Broadcasts library applied pending → command.resource? = none →
    (∀ cast, command.recast cast = cast) →
    Broadcasts (library.enqueue command) applied (pending ++ Message.sent none [command])
  | carryOut {library : Library} {applied message pending world} :
    Broadcasts library applied (message :: pending) →
    library.system.renderer.world.apply message.command = .ok world →
    Broadcasts { library with system := { library.system with
      renderer := { library.system.renderer with
        world, queue := pending.map Message.command } } } (applied ++ [message]) pending
  | updateDeferred {library : Library} {applied pending count world} :
    Broadcasts library applied pending →
    library.system.renderer.world.updateDeferred = .ok (count, world) →
    Broadcasts { library with system := { library.system with
      renderer := { library.system.renderer with world } } } applied pending
  | prepareDraw {library : Library} {applied pending proxy tier drawn world} :
    Broadcasts library applied pending →
    library.system.renderer.world.prepareDraw proxy tier = .ok (drawn, world) →
    Broadcasts { library with system := { library.system with
      renderer := { library.system.renderer with world } } } applied pending
  | workshop {library : Library} {applied pending} (workshop : Workshop) :
    Broadcasts library applied pending →
    Broadcasts { library with system := { library.system with workshop } } applied pending

/-- The world is what the messages that have been carried out lead to, and the others are queued. -/
structure Tracks (library : Library) (applied pending : List Message) : Prop where
  queue : library.system.renderer.queue = pending.map Message.command
  cast : library.system.renderer.world.cast = (Message.heard applied).cast
  standing : library.system.renderer.world.standing = (Message.heard applied).settled

namespace Tracks

/-- What the renderer will have is what the whole stream leads to. -/
theorem heard (tracks : Tracks library applied pending) :
    (Message.heard (applied ++ pending)).cast = library.system.renderer.cast ∧
      (Message.heard (applied ++ pending)).settled = library.system.renderer.settled := by
  unfold Message.heard
  rw [List.map_append]
  constructor
  · show List.foldl RenderCommand.recast _ (_ ++ _) = List.foldl _ _ _
    rw [List.foldl_append, tracks.queue, tracks.cast]
    rfl
  · funext resource
    show List.foldl _ _ (_ ++ _) = List.foldl _ _ _
    rw [List.foldl_append, tracks.queue, tracks.standing]
    rfl

/-- More messages, while the renderer does nothing. -/
theorem extend (tracks : Tracks library applied pending)
    (world : ∃ bindings, next.system.renderer.world =
      { library.system.renderer.world with bindings })
    (queue : next.system.renderer.queue = library.system.renderer.queue ++ said) :
    Tracks next applied (pending ++ Message.sent removing said) := by
  obtain ⟨bindings, same⟩ := world
  refine ⟨?_, ?_, ?_⟩
  · rw [queue, tracks.queue, List.map_append, Message.sent, List.map_map]
    exact congrArg (_ ++ ·) (List.map_id said).symm
  · rw [same]
    exact tracks.cast
  · rw [same]
    exact tracks.standing

/-- The renderer carries out the first message. -/
theorem carryOut {message : Message} {world : World}
    (tracks : Tracks library applied (message :: pending))
    (ran : library.system.renderer.world.apply message.command = .ok world) :
    Tracks { library with system := { library.system with
      renderer := { library.system.renderer with
        world, queue := pending.map Message.command } } } (applied ++ [message]) pending := by
  refine ⟨rfl, ?_, ?_⟩
  · show world.cast = List.foldl _ _ (List.map _ (applied ++ [message]))
    rw [World.cast_of_apply ran, tracks.cast, List.map_append, List.foldl_append]
    rfl
  · funext resource
    show world.standing resource = List.foldl _ _ (List.map _ (applied ++ [message]))
    rw [(World.settles_of_apply ran).standing, tracks.standing, List.map_append,
      List.foldl_append]
    rfl

theorem upkeep {world : World} (tracks : Tracks library applied pending)
    (rests : World.Rests library.system.renderer.world world)
    (cast : world.cast = library.system.renderer.world.cast) :
    Tracks { library with system := { library.system with
      renderer := { library.system.renderer with world } } } applied pending :=
  ⟨tracks.queue, cast.trans tracks.cast, rests.standing.trans tracks.standing⟩

end Tracks

/-- What holds in every run: whoever stands in for the rest, at any time, can do so. -/
structure Upholds (tiers : List Tier) (library : Library) (applied pending : List Message) : Prop
    extends Tracks library applied pending where
  mirrored : library.Mirrored
  settings : library.system.settings.activeTiers = tiers
  backed : Message.Backed tiers (applied ++ pending)
  ready : ∀ proxy, Message.standIn (applied ++ pending) = some proxy →
    ∃ materials, library.Ready tiers proxy materials
  vacant : Message.standIn (applied ++ pending) = none → library.defaultMaterial = none

namespace Upholds

theorem start (system : System) (resources : system.resources = .empty)
    (queue : system.renderer.queue = []) (here : system.renderer.isGone = false)
    (materials : system.renderer.world.materials = .empty)
    (proxies : system.renderer.world.proxies = .empty)
    (default : system.renderer.world.defaultProxy = none) :
    Upholds system.settings.activeTiers { system } [] [] := by
  refine ⟨⟨queue, ?_, ?_⟩, mirrored_start system resources queue here materials proxies default,
    rfl, Message.backed_nil _, (fun _ standing => nomatch standing), fun _ => rfl⟩
  · show system.renderer.world.cast = _
    unfold World.cast
    rw [proxies, default]
    rfl
  · show system.renderer.world.standing = _
    unfold World.standing
    rw [materials]
    rfl

/-- Orders leave the one who stands in for the rest ready, or remove him. -/
theorem order (upholds : Upholds tiers library applied pending)
    (orders : library.Orders removing next)
    (queue : next.system.renderer.queue = library.system.renderer.queue ++ said) :
    Upholds tiers next applied (pending ++ Message.sent removing said) := by
  have here := upholds.mirrored.faithful.here
  have mirrored := upholds.mirrored.does orders.does
  have impartial := orders.impartial
  have tracks : Tracks next applied (pending ++ Message.sent removing said) :=
    upholds.toTracks.extend impartial.world queue
  have settings : next.system.settings.activeTiers = tiers := by
    rw [impartial.settings]
    exact upholds.settings
  obtain ⟨_, told, same, unchosen⟩ := impartial.said here
  obtain rfl : said = told := List.append_cancel_left (queue.symm.trans same)
  have nobody (gone : Message.Backed tiers (applied ++ pending ++ Message.sent removing said) ∧
      Message.standIn (applied ++ pending ++ Message.sent removing said) = none)
      (vacant : next.defaultMaterial = none) :
      Upholds tiers next applied (pending ++ Message.sent removing said) := by
    rw [List.append_assoc] at gone
    refine ⟨tracks, mirrored, settings, gone.1, fun proxy standing => ?_, fun _ => vacant⟩
    rw [gone.2] at standing
    cases standing
  cases standing : Message.standIn (applied ++ pending) with
  | none =>
    refine nobody (upholds.backed.idle standing unchosen) (mirrored.staged.vacant ?_)
    have before : library.system.renderer.cast.default = none := by
      rw [upholds.mirrored.staged.default, upholds.vacant standing]
      rfl
    obtain ⟨bindings, world⟩ := impartial.world
    have heard : next.system.renderer.cast = said.foldl RenderCommand.recast
        library.system.renderer.cast := by
      unfold Renderer.cast
      rw [queue, world, List.foldl_append]
      rfl
    rw [heard]
    exact RenderCommand.default_foldl_recast before unchosen
  | some proxy =>
    obtain ⟨materials, ready⟩ := upholds.ready proxy standing
    by_cases leaving : removing = some proxy
    · obtain ⟨key, material, chosen, found, rfl, _⟩ := ready.presents
      have live : library.proxy? (.material key) = some material.proxy :=
        congrArg (Option.map Material.proxy) found
      exact nobody (upholds.backed.remove (standing.trans leaving.symm)
          (orders.said_ne_nil (leaving ▸ rfl) here queue) unchosen)
        (orders.vacated upholds.mirrored.staged chosen (leaving.trans live.symm))
    · have upheld : Upheld library library proxy materials :=
        ⟨upholds.mirrored, ready.presents, .refl ready.supports⟩
      have after := upheld.orders orders leaving
      obtain ⟨supports, spared, same, spares⟩ := after.spared
      obtain rfl : said = spared := List.append_cancel_left (queue.symm.trans same)
      have backs := (ready.backs upholds.mirrored).congr upholds.heard.1 upholds.heard.2
      have kept := upholds.backed.spare standing backs leaving spares
      rw [List.append_assoc] at kept
      refine ⟨tracks, mirrored, settings, kept.1, fun other chosen => ?_,
        fun nobody => absurd (kept.2.symm.trans nobody) (Option.some_ne_none proxy)⟩
      cases kept.2.symm.trans chosen
      exact ⟨materials, after.presents, supports, ready.supplied⟩

/-- From then on somebody else stands in for the rest, who is ready. -/
theorem choose {description : Description} {key : SlotKey}
    (upholds : Upholds tiers library applied pending)
    (ran : library.setDefaultMaterial description = .ok (key, next))
    (queue : next.system.renderer.queue = library.system.renderer.queue ++ said) :
    Upholds tiers next applied (pending ++ Message.sent none said) := by
  have mirrored := upholds.mirrored.setDefaultMaterial ran
  obtain ⟨middle, proxy, materials, orders, told, ready⟩ :=
    ready_setDefaultMaterial upholds.mirrored ran
  rw [upholds.settings] at ready
  obtain ⟨here, before, same, _⟩ := orders.impartial.said upholds.mirrored.faithful.here
  have added := upholds.order orders same
  have renderer : next.system.renderer = { middle.system.renderer with
      queue := middle.system.renderer.queue ++ [.setDefault proxy] } :=
    (congrArg System.renderer told).trans (Renderer.enqueue_eq _ _ here)
  have last : next.system.renderer.queue = middle.system.renderer.queue ++ [.setDefault proxy] :=
    congrArg Renderer.queue renderer
  have split : pending ++ Message.sent none said =
      pending ++ Message.sent none before ++ Message.sent none [.setDefault proxy] := by
    have parts : said = before ++ [.setDefault proxy] := by
      refine List.append_cancel_left (queue.symm.trans ?_)
      rw [last, same, List.append_assoc]
    rw [parts, Message.sent, List.map_append, ← List.append_assoc]
    rfl
  rw [split]
  have tracks : Tracks next applied
      (pending ++ Message.sent none before ++ Message.sent none [.setDefault proxy]) :=
    added.toTracks.extend ⟨middle.system.renderer.world.bindings, by rw [renderer]⟩ last
  have backs := (ready.backs mirrored).congr tracks.heard.1 tracks.heard.2
  have stream : applied ++
      (pending ++ Message.sent none before ++ Message.sent none [.setDefault proxy]) =
      applied ++ (pending ++ Message.sent none before) ++ [⟨.setDefault proxy, none⟩] :=
    (List.append_assoc ..).symm
  have chosen : Message.standIn (applied ++
      (pending ++ Message.sent none before ++ Message.sent none [.setDefault proxy])) =
      some proxy := by
    rw [stream, Message.standIn_concat]
    rfl
  have settings : next.system.settings.activeTiers = tiers := by
    rw [told]
    exact added.settings
  refine ⟨tracks, mirrored, settings, ?_, fun other standing => ?_,
    fun nobody => absurd (chosen.symm.trans nobody) (Option.some_ne_none proxy)⟩
  · rw [stream] at backs chosen ⊢
    refine added.backed.concat fun other standing => ?_
    cases chosen.symm.trans standing
    exact ⟨materials, backs⟩
  · cases chosen.symm.trans standing
    exact ⟨materials, ready⟩

/-- Others tell the renderer something that is about neither resources nor proxies. -/
theorem tell {command : RenderCommand} (upholds : Upholds tiers library applied pending)
    (elsewhere : command.resource? = none) (idle : ∀ cast, command.recast cast = cast) :
    Upholds tiers (library.enqueue command) applied (pending ++ Message.sent none [command]) := by
  have mirrored := upholds.mirrored.enqueue elsewhere idle
  have renderer : (library.enqueue command).system.renderer = { library.system.renderer with
      queue := library.system.renderer.queue ++ [command] } :=
    Renderer.enqueue_eq library.system.renderer command upholds.mirrored.faithful.here
  have tracks : Tracks (library.enqueue command) applied
      (pending ++ Message.sent none [command]) :=
    upholds.toTracks.extend ⟨library.system.renderer.world.bindings, by rw [renderer]⟩
      (congrArg Renderer.queue renderer)
  have unchosen : ∀ other ∈ [command], other.chooses? = none := fun other member =>
    List.mem_singleton.mp member ▸ (RenderCommand.Spares.of_idle elsewhere idle ⟨0⟩
      (.fill none)).chooses?
  cases standing : Message.standIn (applied ++ pending) with
  | none =>
    have idles : _ ∧ Message.standIn (applied ++ pending ++ Message.sent none [command]) = none :=
      upholds.backed.idle standing unchosen
    rw [List.append_assoc] at idles
    refine ⟨tracks, mirrored, upholds.settings, idles.1, fun proxy chosen => ?_,
      fun _ => upholds.vacant standing⟩
    cases idles.2.symm.trans chosen
  | some proxy =>
    obtain ⟨materials, ready⟩ := upholds.ready proxy standing
    have backs := (ready.backs upholds.mirrored).congr upholds.heard.1 upholds.heard.2
    have spares := RenderCommand.Spares.of_idle elsewhere idle proxy materials
    have kept : _ ∧
        Message.standIn (applied ++ pending ++ Message.sent none [command]) = some proxy :=
      upholds.backed.spare standing backs (fun same => nomatch same)
        fun other member => List.mem_singleton.mp member ▸ spares
    rw [List.append_assoc] at kept
    refine ⟨tracks, mirrored, upholds.settings, kept.1, fun other chosen => ?_,
      fun nobody => absurd (kept.2.symm.trans nobody) (Option.some_ne_none proxy)⟩
    cases kept.2.symm.trans chosen
    exact ⟨materials, ready.presents, (System.Spared.tell ready.supports spares).supports,
      ready.supplied⟩

/-- The renderer works, which changes nothing about where the stream leads. -/
theorem onRenderer {renderer : Renderer} {applied' pending' : List Message}
    (upholds : Upholds tiers library applied pending)
    (mirrored : Mirrored { library with system := { library.system with renderer } })
    (tracks : Tracks { library with system := { library.system with renderer } } applied' pending')
    (stream : applied' ++ pending' = applied ++ pending) :
    Upholds tiers { library with system := { library.system with renderer } } applied' pending' := by
  refine ⟨tracks, mirrored, upholds.settings, stream ▸ upholds.backed, fun proxy standing => ?_,
    stream ▸ upholds.vacant⟩
  rw [stream] at standing
  obtain ⟨materials, presents, supports, supplied⟩ := upholds.ready proxy standing
  exact ⟨materials, presents, ⟨mirrored.faithful.here, supports.numbered, supports.known,
    supports.default, supports.offering⟩, supplied⟩

/-- While somebody stands in for the rest, whatever is asked for is drawn with something. -/
theorem drawable {fallback : ProxyId} (upholds : Upholds tiers library applied pending)
    (standing : Message.standIn applied = some fallback) (requested : ProxyId) {tier : Tier}
    (active : tier ∈ tiers) :
    ∃ drawable, library.system.renderer.world.drawable requested tier = .ok (some drawable) := by
  obtain ⟨materials, backs⟩ := upholds.backed _ (List.prefix_append _ _) fallback standing
  have now : Renderer.Backs { library.system.renderer with queue := [] } tiers fallback materials :=
    backs.congr upholds.cast upholds.standing
  exact now.drawable requested active

end Upholds

theorem Broadcasts.upholds (broadcasts : Broadcasts library applied pending) :
    Upholds library.system.settings.activeTiers library applied pending := by
  suffices upheld : ∃ tiers, Upholds tiers library applied pending by
    obtain ⟨tiers, upheld⟩ := upheld
    exact upheld.settings ▸ upheld
  induction broadcasts with
  | start system resources queue here materials proxies default =>
    exact ⟨_, .start system resources queue here materials proxies default⟩
  | order _ orders queue before =>
    obtain ⟨tiers, before⟩ := before
    exact ⟨tiers, before.order orders queue⟩
  | choose _ ran queue before =>
    obtain ⟨tiers, before⟩ := before
    exact ⟨tiers, before.choose ran queue⟩
  | tell command _ elsewhere idle before =>
    obtain ⟨tiers, before⟩ := before
    exact ⟨tiers, before.tell elsewhere idle⟩
  | carryOut _ ran before =>
    obtain ⟨tiers, before⟩ := before
    exact ⟨tiers, before.onRenderer (before.mirrored.carryOut before.queue ran)
      (before.toTracks.carryOut ran) (List.append_assoc ..)⟩
  | updateDeferred _ ran before =>
    obtain ⟨tiers, before⟩ := before
    have rests := World.Rests.lasting.updateDeferred ⟨rfl, rfl⟩ ran
    have cast := (World.lasting_cast _).updateDeferred rfl ran
    exact ⟨tiers, before.onRenderer (before.mirrored.upkeep rests cast)
      (before.toTracks.upkeep rests cast) rfl⟩
  | prepareDraw _ ran before =>
    obtain ⟨tiers, before⟩ := before
    have rests := World.Rests.lasting.prepareDraw ⟨rfl, rfl⟩ ran
    have cast := (World.lasting_cast _).prepareDraw rfl ran
    exact ⟨tiers, before.onRenderer (before.mirrored.upkeep rests cast)
      (before.toTracks.upkeep rests cast) rfl⟩
  | workshop workshop _ before =>
    obtain ⟨tiers, before⟩ := before
    refine ⟨tiers, ⟨before.queue, before.cast, before.standing⟩, before.mirrored.onWorkshop workshop,
      before.settings, before.backed, fun proxy standing => ?_, before.vacant⟩
    obtain ⟨materials, presents, supports, supplied⟩ := before.ready proxy standing
    exact ⟨materials, presents, ⟨supports.here, supports.numbered, supports.known,
      supports.default, supports.offering⟩, supplied⟩

namespace Broadcasts

/-- Every order can follow. -/
theorem ordered (broadcasts : Broadcasts library applied pending)
    (orders : library.Orders removing next) :
    ∃ said, next.system.renderer.queue = library.system.renderer.queue ++ said ∧
      (∀ command ∈ said, command.chooses? = none) ∧
      Broadcasts next applied (pending ++ Message.sent removing said) := by
  obtain ⟨_, said, queue, unchosen⟩ :=
    orders.impartial.said broadcasts.upholds.mirrored.faithful.here
  exact ⟨said, queue, unchosen, broadcasts.order orders queue⟩

/-- So can every choice. -/
theorem chosen {description : Description} {key : SlotKey}
    (broadcasts : Broadcasts library applied pending)
    (ran : library.setDefaultMaterial description = .ok (key, next)) :
    ∃ said proxy, (next.defaultMaterial.bind fun key => next.proxy? (.material key)) = some proxy ∧
      (∀ command ∈ said, command.chooses? = none) ∧
      Broadcasts next applied (pending ++ Message.sent none (said ++ [.setDefault proxy])) := by
  obtain ⟨middle, proxy, materials, orders, told, ready⟩ :=
    ready_setDefaultMaterial broadcasts.upholds.mirrored ran
  obtain ⟨here, said, same, unchosen⟩ :=
    orders.impartial.said broadcasts.upholds.mirrored.faithful.here
  have queue : next.system.renderer.queue =
      library.system.renderer.queue ++ (said ++ [.setDefault proxy]) := by
    have renderer := (congrArg System.renderer told).trans (Renderer.enqueue_eq _ _ here)
    rw [renderer, ← List.append_assoc, ← same]
  refine ⟨said, proxy, ?_, unchosen, broadcasts.choose ran queue⟩
  obtain ⟨key, material, is, found, rfl, _⟩ := ready.presents
  rw [is, Option.bind_some, proxy?, found]
  rfl

/-- All that is queued is carried out. -/
theorem drained {world : World} (broadcasts : Broadcasts library applied pending)
    (ran : library.system.renderer.queue.foldlM World.apply library.system.renderer.world =
      .ok world) :
    Broadcasts { library with system := { library.system with
      renderer := { library.system.renderer with world, queue := [] } } } (applied ++ pending)
      [] := by
  rw [broadcasts.upholds.queue] at ran
  induction pending generalizing library applied with
  | nil =>
    cases ran
    have queue : library.system.renderer.queue = [] := broadcasts.upholds.queue
    have same : { library.system.renderer with queue := [] } = library.system.renderer := by
      rw [← queue]
    rw [List.append_nil, same]
    exact broadcasts
  | cons message rest inductionHypothesis =>
    rw [List.map_cons, List.foldlM_cons] at ran
    obtain ⟨next, applies, ran⟩ := bind_eq_ok.mp ran
    rw [List.append_cons]
    have rest := inductionHypothesis (broadcasts.carryOut applies) ran
    exact rest

/-- The renderer carries out whatever is first in its queue. -/
theorem applies {command : RenderCommand} {rest : List RenderCommand} {world : World}
    (broadcasts : Broadcasts library applied pending)
    (queued : library.system.renderer.queue = command :: rest)
    (ran : library.system.renderer.world.apply command = .ok world) :
    ∃ applied pending, Broadcasts { library with system := { library.system with
      renderer := { library.system.renderer with world, queue := rest } } } applied pending := by
  rw [broadcasts.upholds.queue] at queued
  obtain ⟨message, later, rfl, rfl, rfl⟩ := List.map_eq_cons_iff.mp queued
  exact ⟨_, _, broadcasts.carryOut ran⟩

theorem runFrame {renderer : Renderer} (broadcasts : Broadcasts library applied pending)
    (ran : library.system.renderer.runFrame = .ok renderer) :
    ∃ applied pending, Broadcasts
      { library with system := { library.system with renderer } } applied pending :=
  Renderer.runFrame_kept
    (motive := fun renderer => ∃ applied pending, Broadcasts
      { library with system := { library.system with renderer } } applied pending)
    (fun _ _ _ _ before queued applies => by
      obtain ⟨_, _, before⟩ := before
      exact before.applies queued applies)
    (fun _ _ _ before deferred => by
      obtain ⟨_, _, before⟩ := before
      exact ⟨_, _, before.updateDeferred deferred⟩)
    ⟨_, _, broadcasts⟩ ran

/-- And so can whatever a library does. -/
theorem does (broadcasts : Broadcasts library applied pending) (does : library.Does next) :
    ∃ applied pending, Broadcasts next applied pending := by
  refine Does.kept (motive := fun library => ∃ applied pending, Broadcasts library applied pending)
    (fun before orders => ?_) (fun before ran => ?_) (fun before ran => ?_) ⟨_, _, broadcasts⟩ does
  · obtain ⟨_, _, before⟩ := before
    obtain ⟨_, _, _, after⟩ := before.ordered orders
    exact ⟨_, _, after⟩
  · obtain ⟨_, _, before⟩ := before
    obtain ⟨_, _, _, _, after⟩ := before.chosen ran
    exact ⟨_, _, after⟩
  · obtain ⟨_, _, before⟩ := before
    unfold flush at ran
    rw [before.upholds.mirrored.faithful.here, if_neg Bool.false_ne_true] at ran
    obtain ⟨renderer, flushed, same⟩ := bind_eq_ok.mp ran
    cases same
    exact (before.tell .fence rfl fun _ => rfl).runFrame flushed

end Broadcasts

/-- So every run of a library is one in which its messages are told apart. -/
theorem Runs.broadcasts (runs : Runs library) :
    ∃ applied pending, Broadcasts library applied pending := by
  induction runs with
  | start system resources queue here materials proxies default =>
    exact ⟨_, _, .start system resources queue here materials proxies default⟩
  | does _ does before =>
    obtain ⟨_, _, before⟩ := before
    exact before.does does
  | carryOut _ queued ran before =>
    obtain ⟨_, _, before⟩ := before
    exact before.applies queued ran
  | updateDeferred _ ran before =>
    obtain ⟨_, _, before⟩ := before
    exact ⟨_, _, before.updateDeferred ran⟩
  | prepareDraw _ ran before =>
    obtain ⟨_, _, before⟩ := before
    exact ⟨_, _, before.prepareDraw ran⟩
  | tell command _ elsewhere idle before =>
    obtain ⟨_, _, before⟩ := before
    exact ⟨_, _, before.tell command elsewhere idle⟩
  | workshop workshop _ before =>
    obtain ⟨_, _, before⟩ := before
    exact ⟨_, _, before.workshop workshop⟩

/-! ### The fallback -/

/-- From the moment when a default material has been chosen until the first message that is sent
while that material is removed has been carried out, or another one has been chosen, whatever
is asked for is drawn with something on every active tier, whether it exists or not. -/
theorem Broadcasts.fallback_available {before after : List Message} {fallback : ProxyId}
    (broadcasts : Broadcasts library (before ++ ⟨.setDefault fallback, removing⟩ :: after) pending)
    (last : ∀ message ∈ after, message.command.chooses? = none)
    (kept : ∀ message ∈ after, message.removing ≠ some fallback) (requested : ProxyId) {tier : Tier}
    (active : tier ∈ library.system.settings.activeTiers) :
    ∃ drawable, library.system.renderer.world.drawable requested tier = .ok (some drawable) :=
  broadcasts.upholds.drawable (Message.standIn_chosen last kept) requested active

/-- So in every run, when all commands have been carried out and there is a default material,
whatever is asked for is drawn with something. -/
theorem Runs.drawn_by_default (runs : Runs library) {key : SlotKey}
    (chosen : library.defaultMaterial = some key)
    (caughtUp : library.system.renderer.queue = []) (requested : ProxyId) {tier : Tier}
    (active : tier ∈ library.system.settings.activeTiers) :
    ∃ drawable, library.system.renderer.world.drawable requested tier = .ok (some drawable) := by
  obtain ⟨applied, pending, broadcasts⟩ := runs.broadcasts
  have upholds := broadcasts.upholds
  have nothing : pending = [] := List.map_eq_nil_iff.mp (upholds.queue.symm.trans caughtUp)
  subst nothing
  cases standing : Message.standIn (applied ++ []) with
  | none => exact absurd (chosen.symm.trans (upholds.vacant standing)) (Option.some_ne_none key)
  | some fallback =>
    rw [List.append_nil] at standing
    exact upholds.drawable standing requested active

/-- A material is added after the default material. With all commands carried out even a proxy that
does not exist is drawn. -/
theorem easel_falls_back : ∃ library before fallback after,
    Broadcasts library (before ++ ⟨.setDefault fallback, none⟩ :: after) [] ∧ after ≠ [] ∧
      ∃ drawable, library.system.renderer.world.drawable ⟨99⟩ .desktop = .ok (some drawable) := by
  have run : (easel.setDefaultMaterial (switched false)).toOption.bind (fun chosen =>
      (chosen.2.addMaterial (switched true)).toOption.bind fun added =>
        (added.2.system.renderer.queue.foldlM World.apply
          added.2.system.renderer.world).toOption.map fun _ =>
            (chosen.2.system.renderer.queue.length, added.2.system.renderer.queue.length,
              added.2.system.settings.activeTiers)) =
      some (4, 7, [.desktop]) := by
    cbv
  obtain ⟨chosen, choosing, run⟩ := Option.bind_eq_some_iff.mp run
  obtain ⟨added, adding, run⟩ := Option.bind_eq_some_iff.mp run
  obtain ⟨world, carried, same⟩ := Option.map_eq_some_iff.mp run
  obtain ⟨before, longer, active⟩ := by simpa only [Prod.mk.injEq] using same
  obtain ⟨said, fallback, _, _, chose⟩ :=
    (Broadcasts.start easel.system rfl rfl rfl rfl rfl rfl).chosen (toOption_eq_some.mp choosing)
  obtain ⟨more, queue, unchosen, ordered⟩ := chose.ordered (.addMaterial (toOption_eq_some.mp adding))
  have drained := ordered.drained (toOption_eq_some.mp carried)
  rw [List.nil_append, List.nil_append, Message.sent, List.map_append, List.append_assoc]
    at drained
  refine ⟨_, _, fallback, Message.sent none more, drained, fun nothing => ?_, ?_⟩
  · rw [queue, List.map_eq_nil_iff.mp nothing, List.append_nil, before] at longer
    cases longer
  · refine drained.fallback_available (fun message member => ?_) (fun message member => ?_) ⟨99⟩ ?_
    · obtain ⟨command, told, rfl⟩ := List.mem_map.mp member
      exact unchosen command told
    · obtain ⟨command, _, rfl⟩ := List.mem_map.mp member
      exact (Option.some_ne_none _).symm
    · show Tier.desktop ∈ added.2.system.settings.activeTiers
      rw [active]
      exact List.mem_singleton.mpr rfl

/-- Choosing another default material ends the time of the first: when the second one is removed,
the first does not come back, although it is still there. -/
theorem replaced_default_stays_replaced : ∃ library before fallback after,
    Broadcasts library (before ++ ⟨.setDefault fallback, none⟩ :: after) [] ∧
      (∀ message ∈ after, message.removing ≠ some fallback) ∧
      .desktop ∈ library.system.settings.activeTiers ∧
      library.system.renderer.world.drawable ⟨99⟩ .desktop = .ok none := by
  have run : (easel.setDefaultMaterial (switched false)).toOption.bind (fun first =>
      (first.2.setDefaultMaterial (switched true)).toOption.bind fun second =>
        ((second.2.removeMaterial second.1).system.renderer.queue.foldlM World.apply
          (second.2.removeMaterial second.1).system.renderer.world).toOption.map fun world =>
            (first.2.defaultMaterial.bind (fun key => first.2.proxy? (.material key)),
              second.2.proxy? (.material second.1),
              (second.2.removeMaterial second.1).system.settings.activeTiers,
              (world.drawable ⟨99⟩ .desktop).toOption)) =
      some (some ⟨1⟩, some ⟨2⟩, [.desktop], some none) := by
    cbv
  obtain ⟨first, choosing, run⟩ := Option.bind_eq_some_iff.mp run
  obtain ⟨second, replacing, run⟩ := Option.bind_eq_some_iff.mp run
  obtain ⟨world, carried, same⟩ := Option.map_eq_some_iff.mp run
  obtain ⟨own, other, active, nothing⟩ := by simpa only [Prod.mk.injEq] using same
  obtain ⟨said, fallback, is, _, chose⟩ :=
    (Broadcasts.start easel.system rfl rfl rfl rfl rfl rfl).chosen (toOption_eq_some.mp choosing)
  cases own.symm.trans is
  obtain ⟨more, successor, _, _, replaced⟩ := chose.chosen (toOption_eq_some.mp replacing)
  obtain ⟨last, _, _, removed⟩ := replaced.ordered (.removeMaterial second.1)
  have drained := removed.drained (toOption_eq_some.mp carried)
  rw [List.nil_append, List.nil_append, Message.sent, List.map_append, List.append_assoc,
    List.append_assoc] at drained
  refine ⟨_, _, ⟨1⟩, Message.sent none (more ++ [.setDefault successor]) ++
    Message.sent (second.2.proxy? (.material second.1)) last, drained, fun message member => ?_, ?_,
    toOption_eq_some.mp nothing⟩
  · rcases List.mem_append.mp member with member | member
    · obtain ⟨command, _, rfl⟩ := List.mem_map.mp member
      exact (Option.some_ne_none _).symm
    · obtain ⟨command, _, rfl⟩ := List.mem_map.mp member
      have apart : (some ⟨2⟩ : Option ProxyId) ≠ some ⟨1⟩ := by decide
      rw [other]
      exact apart
  · rw [active]
    exact List.mem_singleton.mpr rfl

end Library

end Shading
