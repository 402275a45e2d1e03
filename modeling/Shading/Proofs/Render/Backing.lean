/-
The proxy that steps in for the others. It can do so as long as it is there, is
the one that was chosen, and has a resource with a map for each tier; then
whatever is to be drawn is drawn with something. Most commands leave it so, and
those that do not are about the proxy itself or about one of its resources.

Commands come as a stream of messages, each with the proxy of whom the sender was
removing, if anybody. A proxy stands in for the others from the message that
chooses it up to the first one sent while it is being removed.
-/

import Shading.Proofs.Map.Genuine
import Shading.Proofs.Render.Casting
import Shading.Proofs.Render.Chain

namespace Shading

namespace RenderCommand

/-- The proxy that a command chooses to step in for the others. -/
def chooses? : RenderCommand → Option ProxyId
  | .setDefault proxy => some proxy
  | _ => none

/-- Where nobody steps in for the others and nobody is chosen, nobody does so afterwards. -/
theorem default_foldl_recast {cast : Cast} {said : List RenderCommand}
    (nobody : cast.default = none) (unchosen : ∀ command ∈ said, command.chooses? = none) :
    (said.foldl recast cast).default = none := by
  refine List.foldlRecOn (motive := fun cast => cast.default = none) said recast nobody
    fun cast nobody command member => ?_
  have unchosen := unchosen command member
  cases command with
  | setDefault proxy => cases unchosen
  | removeProxy proxy =>
    show (if cast.default = some proxy then none else cast.default) = none
    rw [nobody, ite_self]
  | _ => exact nobody

/-- A command does not take from a proxy what it needs to step in for others. -/
def Spares (proxy : ProxyId) (materials : Materials) : RenderCommand → Prop
  | .registerMaterial resource _ | .setMap resource none | .releaseMaterial resource =>
    ∀ tier, materials.get tier ≠ some resource
  | .createProxy other _ | .setMaterials other _ | .removeProxy other => other ≠ proxy
  | .setDefault _ => False
  | _ => True

variable {proxy : ProxyId} {materials : Materials} {command : RenderCommand}

theorem Spares.chooses? (spares : command.Spares proxy materials) : command.chooses? = none := by
  cases command with
  | setDefault => exact spares.elim
  | _ => rfl

/-- Whatever is about no resource and leaves every cast as it is spares everybody. -/
theorem Spares.of_idle (elsewhere : command.resource? = none)
    (idle : ∀ cast, command.recast cast = cast) (proxy : ProxyId) (materials : Materials) :
    command.Spares proxy materials := by
  let empty : Cast := ⟨fun _ => none, none⟩
  cases command with
  | registerMaterial | setMap | releaseMaterial => cases elsewhere
  | createProxy other kind =>
    have written := congrArg (Cast.proxies · other) (idle empty)
    rw [recast, Cast.proxies_write_self] at written
    cases written
  | setMaterials other materials' =>
    obtain ⟨before, different⟩ : ∃ before : Materials, materials' ≠ before := by
      by_cases same : materials' = .fill none
      · exact ⟨.fill (some .first), fun is => nomatch same.symm.trans is⟩
      · exact ⟨.fill none, same⟩
    have written := congrArg (Cast.proxies · other)
      (idle (empty.write other (some { kind := .material before })))
    rw [recast, Cast.change, Cast.proxies_write_self, Cast.proxies_write_self] at written
    refine absurd ?_ different
    exact ProxyKind.material.inj (congrArg RenderProxy.kind (Option.some.inj written))
  | removeProxy other =>
    have written := congrArg (Cast.proxies · other)
      (idle (empty.write other (some { kind := .material materials })))
    exact absurd written.symm (by
      show ((empty.write other _).proxies other) ≠ (Cast.write _ other none).proxies other
      rw [Cast.proxies_write_self, Cast.proxies_write_self]
      exact Option.some_ne_none _)
  | setDefault other =>
    cases congrArg Cast.default (idle empty)
  | setParameter | clearParameter | recache | createProducer | destroyProducer
  | materialsUpdated | fence => trivial

/-- A map that was there gives way to another one at most. -/
theorem Spares.settle (spares : command.Spares proxy materials) {tier : Tier}
    {resource : ResourceId} (has : materials.get tier = some resource) {standing : Standing}
    (backed : ∃ map, standing = some (some map)) :
    ∃ map, command.settle resource standing = some (some map) := by
  obtain ⟨map, rfl⟩ := backed
  have unlike {other : ResourceId} (apart : ∀ tier, materials.get tier ≠ some other) :
      other ≠ resource := fun same => apart tier (same ▸ has)
  cases command with
  | registerMaterial other info | releaseMaterial other => exact ⟨map, if_neg (unlike spares)⟩
  | setMap other sent =>
    cases sent with
    | none => exact ⟨map, if_neg (unlike spares)⟩
    | some shared =>
      by_cases same : other = resource
      · exact ⟨shared.id, if_pos same⟩
      · exact ⟨map, if_neg same⟩
  | _ => exact ⟨map, rfl⟩

/-- The proxy stays what it is, but for parameters, and the one that was chosen. -/
theorem Spares.recast (spares : command.Spares proxy materials) {cast : Cast}
    (chosen : cast.default = some proxy) {kind : ProxyKind}
    (shown : (cast.proxies proxy).map RenderProxy.kind = some kind) :
    (command.recast cast).default = some proxy ∧
      ((command.recast cast).proxies proxy).map RenderProxy.kind = some kind := by
  have written {other : ProxyId} {owner : Option RenderProxy} (different : other ≠ proxy) :
      ((cast.write other owner).proxies proxy).map RenderProxy.kind = some kind := by
    rw [Cast.proxies_write_other (Ne.symm different)]
    exact shown
  have changed {other : ProxyId} {change : RenderProxy → RenderProxy}
      (same : ∀ owner, (change owner).kind = owner.kind) :
      ((cast.change other change).proxies proxy).map RenderProxy.kind = some kind := by
    unfold Cast.change
    rw [Cast.proxies_write]
    split
    · rename_i here
      rw [Option.map_map, ← here]
      exact (congrArg (Option.map · _) (funext same)).trans shown
    · exact shown
  cases command with
  | createProxy other _ => exact ⟨chosen, written spares⟩
  | setMaterials other _ => exact ⟨chosen, written spares⟩
  | setParameter | clearParameter => exact ⟨chosen, changed fun _ => rfl⟩
  | removeProxy other =>
    refine ⟨?_, written spares⟩
    show (if cast.default = some other then none else cast.default) = some proxy
    rw [chosen, if_neg fun same => spares (Option.some.inj same).symm]
  | setDefault => exact spares.elim
  | registerMaterial | setMap | releaseMaterial | recache | createProducer | destroyProducer
  | materialsUpdated | fence => exact ⟨chosen, shown⟩

end RenderCommand

namespace Renderer

variable {renderer : Renderer} {tiers : List Tier} {proxy : ProxyId} {materials : Materials}

/-- Once all that is queued has been carried out, a proxy steps in for the others, and its
materials have maps for all tiers. -/
structure Backs (renderer : Renderer) (tiers : List Tier) (proxy : ProxyId)
    (materials : Materials) : Prop where
  chosen : renderer.cast.default = some proxy
  shown : (renderer.cast.proxies proxy).map RenderProxy.kind = some (.material materials)
  backed : ∀ tier ∈ tiers, ∃ resource, materials.get tier = some resource ∧
    ∃ map, renderer.settled resource = some (some map)

namespace Backs

theorem congr {other : Renderer} (backs : renderer.Backs tiers proxy materials)
    (cast : other.cast = renderer.cast) (settled : other.settled = renderer.settled) :
    other.Backs tiers proxy materials := by
  refine ⟨?_, ?_, ?_⟩
  · rw [cast]
    exact backs.chosen
  · rw [cast]
    exact backs.shown
  · rw [settled]
    exact backs.backed

/-- One more command that spares it. -/
theorem append {queue : List RenderCommand} {command : RenderCommand}
    (backs : Backs { renderer with queue } tiers proxy materials)
    (spares : command.Spares proxy materials) :
    Backs { renderer with queue := queue ++ [command] } tiers proxy materials := by
  have cast : Renderer.cast { renderer with queue := queue ++ [command] } =
      command.recast (Renderer.cast { renderer with queue }) := by
    unfold Renderer.cast
    rw [List.foldl_append]
    rfl
  have settled (resource : ResourceId) :
      Renderer.settled { renderer with queue := queue ++ [command] } resource =
        command.settle resource (Renderer.settled { renderer with queue } resource) := by
    unfold Renderer.settled
    rw [List.foldl_append]
    rfl
  obtain ⟨chosen, shown⟩ := spares.recast backs.chosen backs.shown
  refine ⟨cast ▸ chosen, cast ▸ shown, fun tier active => ?_⟩
  obtain ⟨resource, has, backed⟩ := backs.backed tier active
  refine ⟨resource, has, ?_⟩
  rw [settled]
  exact spares.settle has backed

/-- When nothing is queued any more, whatever is asked for is drawn with something. -/
theorem drawable {world : World} (backs : Backs { renderer with world, queue := [] } tiers proxy
    materials) (requested : ProxyId) {tier : Tier} (active : tier ∈ tiers) :
    ∃ drawable, world.drawable requested tier = .ok (some drawable) := by
  have chosen : world.defaultProxy = some proxy := backs.chosen
  have shown : ((world.proxies.get? proxy).map RenderProxy.bare).map RenderProxy.kind =
    some (.material materials) := backs.shown
  obtain ⟨resource, has, map, standing⟩ := backs.backed tier active
  have standing : world.standing resource = some (some map) := standing
  have mapped := World.map_id_mapOf world resource
  rw [standing] at mapped
  obtain ⟨shared, mapped_to, _⟩ := Option.map_eq_some_iff.mp mapped
  rw [Option.map_map] at shown
  obtain ⟨owner, found, kind⟩ := Option.map_eq_some_iff.mp shown
  obtain ⟨links, size⟩ : ∃ links, world.proxies.size = links + 1 :=
    Nat.exists_eq_succ_of_ne_zero fun empty => by
      have member := Table.mem_entries_of_get? found
      rw [List.eq_nil_of_length_eq_zero empty] at member
      cases member
  have resolved : world.resolve proxy tier = some resource := by
    unfold World.resolve
    rw [size, Proxies.resolve, found]
    have kind : owner.kind = .material materials := kind
    dsimp only
    rw [kind]
    exact has
  have own : world.ownDrawable proxy tier = some ⟨resource, shared, proxy⟩ := by
    unfold World.ownDrawable
    rw [resolved]
    show (world.mapOf resource).bind _ = _
    rw [mapped_to]
    rfl
  unfold World.drawable
  rw [chosen]
  cases world.ownDrawable requested tier with
  | some drawable => exact ⟨drawable, rfl⟩
  | none =>
    dsimp only
    rw [own]
    exact ⟨_, rfl⟩

end Backs

end Renderer

/-! ### Streams of messages -/

/-- A command, and the proxy of whom was being removed when it was sent. -/
structure Message where
  command : RenderCommand
  removing : Option ProxyId

namespace Message

/-- Who stands in for the others after one more message. -/
def follow (standing : Option ProxyId) (message : Message) : Option ProxyId :=
  match message.command.chooses? with
  | some proxy => some proxy
  | none => if standing = message.removing then none else standing

/-- Who stands in for the others after a stream of messages. -/
def standIn (stream : List Message) : Option ProxyId := stream.foldl follow none

/-- The messages of one sender. -/
def sent (removing : Option ProxyId) (said : List RenderCommand) : List Message :=
  said.map fun command => ⟨command, removing⟩

/-- A renderer that starts from nothing and has a stream of messages before it. -/
def heard (stream : List Message) : Renderer := { queue := stream.map Message.command }

/-- Whoever stands in for the others, at any time, can do so. -/
def Backed (tiers : List Tier) (stream : List Message) : Prop :=
  ∀ before, before <+: stream → ∀ proxy, standIn before = some proxy →
    ∃ materials, (heard before).Backs tiers proxy materials

variable {tiers : List Tier} {stream : List Message} {message : Message}
  {removing : Option ProxyId} {said : List RenderCommand} {proxy : ProxyId} {materials : Materials}

theorem standIn_concat (stream : List Message) (message : Message) :
    standIn (stream ++ [message]) = follow (standIn stream) message := by
  unfold standIn
  rw [List.foldl_append]
  rfl

theorem follow_unchosen {standing : Option ProxyId} (unchosen : message.command.chooses? = none) :
    follow standing message = if standing = message.removing then none else standing := by
  unfold follow
  rw [unchosen]

/-- The proxy that was chosen last stands in for the others as long as it is not removed. -/
theorem standIn_chosen {before after : List Message}
    (last : ∀ message ∈ after, message.command.chooses? = none)
    (kept : ∀ message ∈ after, message.removing ≠ some proxy) :
    standIn (before ++ ⟨.setDefault proxy, removing⟩ :: after) = some proxy := by
  unfold standIn
  rw [List.foldl_append, List.foldl_cons]
  refine List.foldlRecOn (motive := (· = some proxy)) after follow rfl
    fun standing same message member => ?_
  rw [follow_unchosen (last message member), same, if_neg (Ne.symm (kept message member))]

theorem backed_nil (tiers : List Tier) : Backed tiers [] := by
  intro before prefix_ proxy standing
  rw [List.prefix_nil.mp prefix_] at standing
  cases standing

namespace Backed

theorem concat (backed : Backed tiers stream)
    (now : ∀ proxy, standIn (stream ++ [message]) = some proxy →
      ∃ materials, (heard (stream ++ [message])).Backs tiers proxy materials) :
    Backed tiers (stream ++ [message]) := by
  intro before prefix_
  rcases List.prefix_concat_iff.mp prefix_ with rfl | earlier
  · exact now
  · exact backed before earlier

/-- Nobody stands in for the others, and nobody is chosen. -/
theorem idle (backed : Backed tiers stream) (nobody : standIn stream = none)
    (unchosen : ∀ command ∈ said, command.chooses? = none) :
    Backed tiers (stream ++ sent removing said) ∧
      standIn (stream ++ sent removing said) = none := by
  induction said generalizing stream with
  | nil =>
    rw [sent, List.map_nil, List.append_nil]
    exact ⟨backed, nobody⟩
  | cons command rest inductionHypothesis =>
    have still : standIn (stream ++ [⟨command, removing⟩]) = none := by
      rw [standIn_concat, follow_unchosen (unchosen command List.mem_cons_self), nobody, ite_self]
    rw [sent, List.map_cons, List.append_cons]
    refine inductionHypothesis (backed.concat fun proxy standing => ?_) still
      fun other member => unchosen other (List.mem_cons_of_mem _ member)
    rw [still] at standing
    cases standing

/-- Who stands in for the others is removed. -/
theorem remove (backed : Backed tiers stream) (leaving : standIn stream = removing)
    (something : said ≠ []) (unchosen : ∀ command ∈ said, command.chooses? = none) :
    Backed tiers (stream ++ sent removing said) ∧
      standIn (stream ++ sent removing said) = none := by
  obtain ⟨first, rest, rfl⟩ := List.exists_cons_of_ne_nil something
  have nobody : standIn (stream ++ [⟨first, removing⟩]) = none := by
    rw [standIn_concat, follow_unchosen (unchosen first List.mem_cons_self), if_pos leaving]
  rw [sent, List.map_cons, List.append_cons]
  refine idle (backed.concat fun proxy standing => ?_) nobody
    fun other member => unchosen other (List.mem_cons_of_mem _ member)
  rw [nobody] at standing
  cases standing

/-- Who stands in for the others is spared. -/
theorem spare (backed : Backed tiers stream) (standing : standIn stream = some proxy)
    (backs : (heard stream).Backs tiers proxy materials) (kept : removing ≠ some proxy)
    (spares : ∀ command ∈ said, command.Spares proxy materials) :
    Backed tiers (stream ++ sent removing said) ∧
      standIn (stream ++ sent removing said) = some proxy := by
  induction said generalizing stream with
  | nil =>
    rw [sent, List.map_nil, List.append_nil]
    exact ⟨backed, standing⟩
  | cons command rest inductionHypothesis =>
    have spared := spares command List.mem_cons_self
    have still : standIn (stream ++ [⟨command, removing⟩]) = some proxy := by
      rw [standIn_concat, follow_unchosen spared.chooses?, standing, if_neg (Ne.symm kept)]
    have after : (heard (stream ++ [⟨command, removing⟩])).Backs tiers proxy materials := by
      have before : Renderer.Backs { ({} : Renderer) with queue := stream.map Message.command }
        tiers proxy materials := backs
      have appended := before.append spared
      rwa [← List.map_singleton (f := Message.command) (a := ⟨command, removing⟩),
        ← List.map_append] at appended
    rw [sent, List.map_cons, List.append_cons]
    refine inductionHypothesis (backed.concat fun other chosen => ?_) still after
      fun other member => spares other (List.mem_cons_of_mem _ member)
    cases still.symm.trans chosen
    exact ⟨materials, after⟩

end Backed

end Message

end Shading
