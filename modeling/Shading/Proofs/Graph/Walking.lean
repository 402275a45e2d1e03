/-
Walks along reroutes. In graphs that look alike they lead to the same: a reroute
that leads nowhere and one that leads to the node with the last number are told
apart by nothing that a digest covers, but neither ends at a node, unless a graph
has as many nodes as there are numbers.

A walk can be told without counting steps. It is bounded by the number of nodes,
because it stops where it has been before; nothing depends on that bound. A walk
finds a node just if passing on from reroute to reroute leads to it, since from a
node that is found there is no way back; in the same way it finds a reroute that is
not connected, or that the graph has no such node. If passing on leads to none of
these then it never ends, and the walk stops at the first node it visits again.
-/

import Mathlib
import Shading.Graph.Description
import Shading.Proofs.Graph.Content

namespace Shading

theorem NodeId.toNat_injective : Function.Injective fun id : NodeId => id.number.toNat := by
  intro left right same
  cases left
  cases right
  exact congrArg NodeId.mk (UInt32.toNat_inj.mp same)

namespace Node

/-- Whatever looks like a reroute is one. -/
theorem reroute_of_blurred {node : Node} {input : Option NodeId}
    (same : (reroute input).blurred = node.blurred) :
    ∃ other, node = .reroute other ∧ input.getD absent = other.getD absent := by
  cases node with
  | reroute other => exact ⟨other, rfl, Option.some.inj (reroute.inj same)⟩
  | _ => cases same

end Node

namespace Graph

variable {left right graph : Graph} {id current : NodeId} {passed : List NodeId} {fuel : Nat}

/-- Two graphs whose streams tell the same, with a number to spare. -/
structure Alike (left right : Graph) : Prop where
  nodes : left.nodes.map Node.blurred = right.nodes.map Node.blurred
  small : left.size < 2 ^ 32

namespace Alike

theorem size_eq (alike : Alike left right) : left.size = right.size := by
  have sizes := congrArg List.length alike.nodes
  rwa [List.length_map, List.length_map] at sizes

theorem symm (alike : Alike left right) : Alike right left :=
  ⟨alike.nodes.symm, alike.size_eq ▸ alike.small⟩

/-- A node of one graph looks like that of the other in its place. -/
theorem node?_eq (alike : Alike left right) {node : Node} (found : left.node? id = some node) :
    ∃ other, right.node? id = some other ∧ node.blurred = other.blurred := by
  have same := congrArg (fun nodes => nodes[id.number.toNat]?) alike.nodes
  rw [List.getElem?_map, List.getElem?_map] at same
  unfold node? at found ⊢
  rw [found] at same
  obtain ⟨other, there, equal⟩ := Option.map_eq_some_iff.mp same.symm
  exact ⟨other, there, equal.symm⟩

theorem node?_absent (alike : Alike left right) : left.node? Node.absent = none :=
  List.getElem?_eq_none (Nat.le_of_lt_succ alike.small)

end Alike

/-! ### Where a walk ends -/

theorem follow_eq_found : graph.follow (fuel + 1) passed current = .found id ↔
    current ∉ passed ∧ ∃ node, graph.node? current = some node ∧
      ((∀ input, node ≠ .reroute input) ∧ current = id ∨
        ∃ next, node = .reroute (some next) ∧
          graph.follow fuel (current :: passed) next = .found id) := by
  rw [follow]
  by_cases member : current ∈ passed
  · rw [if_pos member]
    exact ⟨fun other => (nomatch other), fun ⟨fresh, _⟩ => absurd member fresh⟩
  · rw [if_neg member]
    cases graph.node? current with
    | none => simp
    | some node =>
      cases node with
      | reroute input => cases input <;> simp [member]
      | _ => simp [member]

/-- No walk comes to an end from where there is no node. -/
theorem follow_ne_found (nothing : graph.node? current = none) :
    graph.follow fuel passed current ≠ .found id := by
  intro found
  cases fuel with
  | zero => cases found
  | succ fuel =>
    obtain ⟨_, node, there, _⟩ := follow_eq_found.mp found
    rw [nothing] at there
    cases there

theorem Alike.follow (alike : Alike left right)
    (found : left.follow fuel passed current = .found id) :
    right.follow fuel passed current = .found id := by
  induction fuel generalizing passed current with
  | zero => cases found
  | succ fuel inductionHypothesis =>
    obtain ⟨fresh, node, there, ends⟩ := follow_eq_found.mp found
    obtain ⟨other, there', same⟩ := alike.node?_eq there
    refine follow_eq_found.mpr ⟨fresh, other, there', ?_⟩
    rcases ends with ⟨plain, rfl⟩ | ⟨next, rfl, onwards⟩
    · refine .inl ⟨fun input reroute => ?_, rfl⟩
      obtain ⟨original, rfl, _⟩ := Node.reroute_of_blurred (reroute ▸ same.symm)
      exact plain original rfl
    · obtain ⟨input, rfl, target⟩ := Node.reroute_of_blurred same
      cases input with
      | some other =>
        obtain rfl : next = other := target
        exact .inr ⟨next, rfl, inductionHypothesis onwards⟩
      | none =>
        obtain rfl : next = Node.absent := target
        exact absurd onwards (follow_ne_found alike.node?_absent)

theorem Alike.trace (alike : Alike left right) {start : NodeId}
    (found : left.trace start = .found id) : right.trace start = .found id := by
  unfold Graph.trace at found ⊢
  rw [← alike.size_eq]
  exact alike.follow found

theorem source_eq_ok {material : String} {start : NodeId} :
    graph.source material start = .ok id ↔ graph.trace start = .found id := by
  unfold source
  cases graph.trace start <;> simp

end Graph

/-! ### Reaching a node -/

/-- What can be reached from where only finitely many steps are possible does not lead back. -/
theorem not_transGen_self_of_acc {α : Type} {step : α → α → Prop} {start : α}
    (bounded : Acc (Function.swap step) start) : ¬Relation.TransGen step start start := by
  induction bounded with
  | intro start _ inductionHypothesis =>
    intro cycle
    obtain ⟨next, first, back⟩ := Relation.TransGen.head'_iff.mp cycle
    exact inductionHypothesis next first (Relation.TransGen.tail' back first)

namespace Graph

variable {graph : Graph} {id current next : NodeId} {passed : List NodeId} {fuel : Nat}

/-! ### The bound -/

theorem lt_size_of_node? {node : Node} (there : graph.node? id = some node) :
    id.number.toNat < graph.size :=
  (List.getElem?_eq_some_iff.mp there).1

/-- A graph has no more nodes than its size says. -/
theorem length_le_size {ids : List NodeId} (distinct : ids.Nodup)
    (there : ∀ id ∈ ids, ∃ node, graph.node? id = some node) : ids.length ≤ graph.size := by
  have numbers : (ids.map fun id => id.number.toNat).Nodup := distinct.map NodeId.toNat_injective
  have inside : (ids.map fun id => id.number.toNat) ⊆ List.range graph.size := by
    intro number member
    obtain ⟨id, listed, rfl⟩ := List.mem_map.mp member
    obtain ⟨node, found⟩ := there id listed
    exact List.mem_range.mpr (lt_size_of_node? found)
  simpa using (List.subperm_of_subset numbers inside).length_le

/-- Nodes of a graph that have been passed, each once. -/
structure Passed (graph : Graph) (passed : List NodeId) : Prop where
  distinct : passed.Nodup
  there : ∀ id ∈ passed, ∃ node, graph.node? id = some node

theorem passed_nil (graph : Graph) : graph.Passed [] :=
  ⟨.nil, fun _ member => absurd member List.not_mem_nil⟩

theorem Passed.cons {node : Node} (before : graph.Passed passed) (new : current ∉ passed)
    (there : graph.node? current = some node) : graph.Passed (current :: passed) :=
  ⟨List.nodup_cons.mpr ⟨new, before.distinct⟩,
    List.forall_mem_cons.mpr ⟨⟨node, there⟩, before.there⟩⟩

/-- So much fuel cannot run out before all nodes have been passed. -/
theorem Passed.fuel_ne_zero (before : graph.Passed passed)
    (enough : graph.size < fuel + passed.length) : fuel ≠ 0 := by
  have := length_le_size before.distinct before.there
  omega

/-- More fuel changes nothing. -/
theorem follow_succ (before : graph.Passed passed)
    (enough : graph.size < fuel + passed.length) :
    graph.follow (fuel + 1) passed current = graph.follow fuel passed current := by
  induction fuel generalizing passed current with
  | zero => exact absurd rfl (before.fuel_ne_zero enough)
  | succ fuel inductionHypothesis =>
    unfold follow
    by_cases member : current ∈ passed
    · rw [if_pos member, if_pos member]
    · rw [if_neg member, if_neg member]
      split
      · rename_i next there
        refine inductionHypothesis (before.cons member there) ?_
        rw [List.length_cons]
        omega
      all_goals rfl

/-- A walk ends by itself. -/
theorem follow_add (more : Nat) (start : NodeId) :
    graph.follow (graph.size + 1 + more) [] start = graph.trace start := by
  induction more with
  | zero => rfl
  | succ more inductionHypothesis =>
    have bound : graph.size < graph.size + 1 + more := by omega
    exact (follow_succ graph.passed_nil bound).trans inductionHypothesis

/-! ### Passing on -/

/-- A reroute passes on to the node that it is connected to. -/
def PassesOn (graph : Graph) (id next : NodeId) : Prop :=
  graph.node? id = some (.reroute (some next))

theorem PassesOn.unique {other : NodeId} (passes : graph.PassesOn id next)
    (also : graph.PassesOn id other) : next = other := by
  cases passes.symm.trans also
  rfl

/-- A node that is not a reroute. -/
def Plain (graph : Graph) (id : NodeId) : Prop :=
  ∃ node, graph.node? id = some node ∧ ∀ input, node ≠ .reroute input

/-- How a walk ends at a node from which it does not go on. -/
def ending (graph : Graph) (id : NodeId) : Option Trace :=
  match graph.node? id with
  | some (.reroute (some _)) => none
  | some (.reroute none) => some (.dangling id)
  | some _ => some (.found id)
  | none => some (.absent id)

theorem ending_eq_none : graph.ending id = none ↔ ∃ next, graph.PassesOn id next := by
  unfold ending PassesOn
  split <;> simp_all

theorem ending_eq_found {other : NodeId} :
    graph.ending id = some (.found other) ↔ id = other ∧ graph.Plain id := by
  unfold ending Plain
  split <;> simp_all [Option.forall]

theorem ending_eq_dangling {other : NodeId} :
    graph.ending id = some (.dangling other) ↔
      id = other ∧ graph.node? id = some (.reroute none) := by
  unfold ending
  split <;> simp_all

theorem ending_eq_absent {other : NodeId} :
    graph.ending id = some (.absent other) ↔ id = other ∧ graph.node? id = none := by
  unfold ending
  split <;> simp_all

theorem ending_ne_cycle {other : NodeId} : graph.ending id ≠ some (.cycle other) := by
  unfold ending
  split <;> simp

theorem PassesOn.ending (passes : graph.PassesOn id next) : graph.ending id = none :=
  ending_eq_none.mpr ⟨next, passes⟩

/-- From where a walk comes to its end it does not come back. -/
theorem acc_of_ending {ended : Trace} (leads : Relation.ReflTransGen graph.PassesOn current id)
    (ends : graph.ending id = some ended) : Acc (Function.swap graph.PassesOn) current := by
  induction leads using Relation.ReflTransGen.head_induction_on with
  | refl => exact ⟨_, fun next passes => nomatch ends.symm.trans (PassesOn.ending passes)⟩
  | head passes _ inductionHypothesis =>
    refine ⟨_, fun other also => ?_⟩
    cases passes.symm.trans also
    exact inductionHypothesis

/-! ### The walk itself -/

/-- A walk that ends, with nothing that bounds it: it goes on until it is where it
has been before, or from where nothing leads on. -/
inductive Walks (graph : Graph) : List NodeId → NodeId → Trace → Prop
  | again {passed : List NodeId} {current : NodeId} (member : current ∈ passed) :
    graph.Walks passed current (.cycle current)
  | ends {passed : List NodeId} {current : NodeId} {ended : Trace} (new : current ∉ passed)
    (there : graph.ending current = some ended) : graph.Walks passed current ended
  | onwards {passed : List NodeId} {current next : NodeId} {ended : Trace}
    (new : current ∉ passed) (passes : graph.PassesOn current next)
    (walks : graph.Walks (current :: passed) next ended) : graph.Walks passed current ended

variable {start : NodeId} {ended other : Trace}

theorem Walks.unique (walks : graph.Walks passed current ended)
    (also : graph.Walks passed current other) : ended = other := by
  induction walks with
  | again member =>
    cases also with
    | again _ => rfl
    | ends new _ => exact absurd member new
    | onwards new _ _ => exact absurd member new
  | ends new there =>
    cases also with
    | again member => exact absurd member new
    | ends _ there' => exact Option.some.inj (there.symm.trans there')
    | onwards _ passes _ => exact nomatch there.symm.trans passes.ending
  | onwards new passes _ inductionHypothesis =>
    cases also with
    | again member => exact absurd member new
    | ends _ there => exact nomatch there.symm.trans passes.ending
    | onwards _ passes' walks' =>
      cases passes.symm.trans passes'
      exact inductionHypothesis walks'

/-- Every walk ends, and as it is followed. -/
theorem walks_follow (before : graph.Passed passed)
    (enough : graph.size < fuel + passed.length) :
    graph.Walks passed current (graph.follow fuel passed current) := by
  induction fuel generalizing passed current with
  | zero => exact absurd rfl (before.fuel_ne_zero enough)
  | succ fuel inductionHypothesis =>
    unfold follow
    by_cases member : current ∈ passed
    · rw [if_pos member]
      exact .again member
    · rw [if_neg member]
      split
      · rename_i next there
        refine .onwards member there (inductionHypothesis (before.cons member there) ?_)
        rw [List.length_cons]
        omega
      · rename_i there
        exact .ends member (ending_eq_dangling.mpr ⟨rfl, there⟩)
      · rename_i node input unconnected there
        refine .ends member (ending_eq_found.mpr ⟨rfl, node, there, fun target same => ?_⟩)
        cases target with
        | none => exact unconnected same
        | some next => exact input next same
      · rename_i there
        exact .ends member (ending_eq_absent.mpr ⟨rfl, there⟩)

theorem walks_iff : graph.Walks [] start ended ↔ graph.trace start = ended := by
  have walks : graph.Walks [] start (graph.trace start) :=
    walks_follow graph.passed_nil (Nat.lt_succ_self _)
  exact ⟨walks.unique, fun same => same ▸ walks⟩

theorem Walks.of_leads (leads : Relation.ReflTransGen graph.PassesOn current id)
    (ends : graph.ending id = some ended)
    (onwards : ∀ other ∈ passed, ¬Relation.ReflTransGen graph.PassesOn current other) :
    graph.Walks passed current ended := by
  induction leads using Relation.ReflTransGen.head_induction_on generalizing passed with
  | refl => exact .ends (fun member => onwards id member .refl) ends
  | @head current next passes leads inductionHypothesis =>
    refine .onwards (fun member => onwards current member .refl) passes ?_
    refine inductionHypothesis fun other member back => ?_
    rcases List.mem_cons.mp member with rfl | member
    · exact not_transGen_self_of_acc (acc_of_ending (.head passes leads) ends)
        (Relation.TransGen.head' passes back)
    · exact onwards other member (.head passes back)

/-- A walk is back where it was before, or it has come to an end. -/
theorem Walks.leads (walks : graph.Walks passed current ended) :
    (∃ id, ended = .cycle id) ∨
      ∃ id, Relation.ReflTransGen graph.PassesOn current id ∧ graph.ending id = some ended := by
  induction walks with
  | @again _ current _ => exact .inl ⟨current, rfl⟩
  | @ends _ current _ _ there => exact .inr ⟨current, .refl, there⟩
  | onwards _ passes _ inductionHypothesis =>
    obtain cycle | ⟨id, leads, there⟩ := inductionHypothesis
    · exact .inl cycle
    · exact .inr ⟨id, .head passes leads, there⟩

/-- A walk ends where passing on leads to, unless it never gets there. -/
theorem trace_eq_iff (ends : ∀ id, ended ≠ .cycle id) : graph.trace start = ended ↔
    ∃ id, Relation.ReflTransGen graph.PassesOn start id ∧ graph.ending id = some ended := by
  refine ⟨fun traced => ?_, fun ⟨id, leads, there⟩ => ?_⟩
  · obtain ⟨id, cycle⟩ | reached := (walks_iff.mpr traced).leads
    · exact absurd cycle (ends id)
    · exact reached
  · exact walks_iff.mp (.of_leads leads there fun _ member => absurd member List.not_mem_nil)

/-- What a walk finds is where passing on leads to. -/
theorem trace_eq_found : graph.trace current = .found id ↔
    Relation.ReflTransGen graph.PassesOn current id ∧ graph.Plain id := by
  refine (trace_eq_iff fun _ => by simp).trans ?_
  simp [ending_eq_found]

theorem trace_eq_dangling : graph.trace current = .dangling id ↔
    Relation.ReflTransGen graph.PassesOn current id ∧
      graph.node? id = some (.reroute none) := by
  refine (trace_eq_iff fun _ => by simp).trans ?_
  simp [ending_eq_dangling]

theorem trace_eq_absent : graph.trace current = .absent id ↔
    Relation.ReflTransGen graph.PassesOn current id ∧ graph.node? id = none := by
  refine (trace_eq_iff fun _ => by simp).trans ?_
  simp [ending_eq_absent]

/-! ### Walking for ever -/

/-- The nodes that passing on visits turn after turn, without end. -/
structure Endless (graph : Graph) (start : NodeId) (visit : ℕ → NodeId) : Prop where
  first : visit 0 = start
  passes : ∀ turn, graph.PassesOn (visit turn) (visit (turn + 1))

/-- The node is the first to be visited a second time. -/
def FirstAgain (visit : ℕ → NodeId) (id : NodeId) : Prop :=
  ∃ turn, visit turn = id ∧ (∃ earlier < turn, visit earlier = id) ∧
    ∀ later < turn, ∀ earlier < later, visit earlier ≠ visit later

namespace Endless

variable {visit : ℕ → NodeId}

/-- A check of the specification: it leaves no choice of the nodes that are visited. -/
theorem unique (endless : graph.Endless start visit) {also : ℕ → NodeId}
    (other : graph.Endless start also) : visit = also := by
  funext turn
  induction turn with
  | zero => rw [endless.first, other.first]
  | succ turn inductionHypothesis =>
    have passes := endless.passes turn
    rw [inductionHypothesis] at passes
    exact passes.unique (other.passes turn)

/-- Someone who keeps the visited nodes in mind stops at the first that comes again. -/
theorem firstAgain (endless : graph.Endless start visit)
    (walks : graph.Walks passed current ended) {turn : ℕ} (here : visit turn = current)
    (visited : ∀ id, id ∈ passed ↔ ∃ earlier < turn, visit earlier = id)
    (distinct : ∀ later < turn, ∀ earlier < later, visit earlier ≠ visit later) :
    ∃ id, ended = .cycle id ∧ FirstAgain visit id := by
  induction walks generalizing turn with
  | @again _ current member =>
    exact ⟨current, rfl, turn, here, (visited current).mp member, distinct⟩
  | ends _ there =>
    subst here
    exact nomatch there.symm.trans (endless.passes turn).ending
  | @onwards passed current next _ new passes _ inductionHypothesis =>
    subst here
    cases passes.symm.trans (endless.passes turn)
    refine inductionHypothesis rfl (fun id => ?_) fun later bound earlier before same => ?_
    · rw [List.mem_cons, visited]
      constructor
      · rintro (rfl | ⟨earlier, before, same⟩)
        · exact ⟨turn, Nat.lt_succ_self turn, rfl⟩
        · exact ⟨earlier, Nat.lt_succ_of_lt before, same⟩
      · rintro ⟨earlier, before, same⟩
        rcases Nat.lt_succ_iff_lt_or_eq.mp before with before | rfl
        · exact .inr ⟨earlier, before, same⟩
        · exact .inl same.symm
    · rcases Nat.lt_succ_iff_lt_or_eq.mp bound with bound | rfl
      · exact distinct later bound earlier before same
      · exact new ((visited _).mpr ⟨earlier, before, same⟩)

theorem trace (endless : graph.Endless start visit) :
    ∃ id, graph.trace start = .cycle id ∧ FirstAgain visit id :=
  endless.firstAgain (walks_iff.mpr rfl) endless.first (by simp) (by simp)

end Endless

theorem FirstAgain.unique {visit : ℕ → NodeId} {other : NodeId} (first : FirstAgain visit id)
    (also : FirstAgain visit other) : id = other := by
  obtain ⟨turn, here, ⟨earlier, before, same⟩, distinct⟩ := first
  obtain ⟨turn', here', ⟨earlier', before', same'⟩, distinct'⟩ := also
  rcases lt_trichotomy turn turn' with less | rfl | more
  · exact absurd (same.trans here.symm) (distinct' turn less earlier before)
  · exact here.symm.trans here'
  · exact absurd (same'.trans here'.symm) (distinct turn' more earlier' before')

/-- Where nothing that passing on leads to ends a walk, it goes on for ever. -/
theorem exists_endless
    (onwards : ∀ id, Relation.ReflTransGen graph.PassesOn start id →
      ∃ next, graph.PassesOn id next) : ∃ visit, graph.Endless start visit := by
  choose next passes using onwards
  let step (here : { id // Relation.ReflTransGen graph.PassesOn start id }) :
      { id // Relation.ReflTransGen graph.PassesOn start id } :=
    ⟨next here.1 here.2, here.2.tail (passes here.1 here.2)⟩
  refine ⟨fun turn => (step^[turn] ⟨start, .refl⟩).1, rfl, fun turn => ?_⟩
  rw [Function.iterate_succ_apply']
  exact passes _ _

/-- A walk that comes back to where it was is one that never ends, and it is told by the
node that it first visits again. -/
theorem trace_eq_cycle : graph.trace start = .cycle id ↔
    ∃ visit, graph.Endless start visit ∧ FirstAgain visit id := by
  constructor
  · intro traced
    have onwards : ∀ id, Relation.ReflTransGen graph.PassesOn start id →
        ∃ next, graph.PassesOn id next := by
      intro other leads
      refine ending_eq_none.mp (Option.eq_none_iff_forall_ne_some.mpr fun ended there => ?_)
      have reached := (trace_eq_iff fun id same => ending_ne_cycle (same ▸ there)).mpr
        ⟨other, leads, there⟩
      exact ending_ne_cycle ((traced.symm.trans reached) ▸ there)
    obtain ⟨visit, endless⟩ := exists_endless onwards
    obtain ⟨first, traced', again⟩ := endless.trace
    cases traced.symm.trans traced'
    exact ⟨visit, endless, again⟩
  · rintro ⟨visit, endless, again⟩
    obtain ⟨first, traced, again'⟩ := endless.trace
    rw [traced, again.unique again']

/-! ### What a walk is told as -/

/-- Following reroutes comes to an end, whatever the graph. The node that an input means is
the one that is no reroute and that passing on leads to; a reroute without an input, or a
node that the graph does not have, is named just where passing on leads there; and a cycle
just where passing on never ends, by the node that is visited again first. -/
theorem source_classified (graph : Graph) (material : String) (start : NodeId) :
    (∀ ended, graph.Walks [] start ended ↔ graph.trace start = ended) ∧
    (∀ id, graph.source material start = .ok id ↔
      Relation.ReflTransGen graph.PassesOn start id ∧ graph.Plain id) ∧
    (∀ id, graph.source material start = .error (.unconnectedReroute material id) ↔
      Relation.ReflTransGen graph.PassesOn start id ∧
        graph.node? id = some (.reroute none)) ∧
    (∀ id, graph.source material start =
        .error (.missingInput material start id.number.toNat) ↔
      Relation.ReflTransGen graph.PassesOn start id ∧ graph.node? id = none) ∧
    (∀ id, graph.source material start = .error (.rerouteCycle material id) ↔
      ∃ visit, graph.Endless start visit ∧ FirstAgain visit id) ∧
    ((∃ id, graph.source material start = .error (.rerouteCycle material id)) ↔
      ∃ visit, graph.Endless start visit) := by
  have cycles : ∀ id, graph.source material start = .error (.rerouteCycle material id) ↔
      ∃ visit, graph.Endless start visit ∧ FirstAgain visit id := by
    intro id
    rw [← trace_eq_cycle]
    unfold source
    cases graph.trace start <;> simp
  refine ⟨fun _ => walks_iff, fun id => ?_, fun id => ?_, fun id => ?_, cycles, ?_, ?_⟩
  · rw [source_eq_ok, trace_eq_found]
  · rw [← trace_eq_dangling]
    unfold source
    cases graph.trace start <;> simp
  · rw [← trace_eq_absent]
    unfold source
    have named : ∀ other : NodeId, other.number.toNat = id.number.toNat ↔ other = id :=
      fun _ => NodeId.toNat_injective.eq_iff
    cases graph.trace start <;> simp [named]
  · rintro ⟨id, failed⟩
    obtain ⟨visit, endless, _⟩ := (cycles id).mp failed
    exact ⟨visit, endless⟩
  · rintro ⟨visit, endless⟩
    obtain ⟨id, _, again⟩ := endless.trace
    exact ⟨id, (cycles id).mpr ⟨visit, endless, again⟩⟩

/-- The cycle is named by the node where it is entered, not by the start. -/
example : ({ nodes := [.reroute (some ⟨1⟩), .reroute (some ⟨2⟩), .reroute (some ⟨1⟩)] } :
    Graph).source "m" ⟨0⟩ = .error (.rerouteCycle "m" ⟨1⟩) := by
  decide

end Graph

end Shading
