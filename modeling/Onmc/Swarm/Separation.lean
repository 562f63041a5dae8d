import Onmc.Overlap
import Onmc.Runtime.RoundTrip
import Onmc.Swarm.RuntimeContract

/-! Units that no chain of dependencies orders may run at once. What the contract of a swarm separates
are the patterns that such units claim, as texts. -/
namespace Onmc.Swarm

open Onmc.Runtime (Checked NodeSpec RunSpec byId check check_ok)

/-- A node names a dependency. -/
def Depends (nodes : List NodeSpec) (nodeId dependencyId : String) : Prop :=
  ∃ node ∈ nodes, node.nodeId = nodeId ∧ dependencyId ∈ node.dependencies

/-- What the contract checks of a graph. -/
structure Graph (nodes : List NodeSpec) : Prop where
  unique : (nodes.map NodeSpec.nodeId).Nodup
  known : ∀ node ∈ nodes, ∀ dependency ∈ node.dependencies, dependency ∈ nodes.map NodeSpec.nodeId

theorem graph_of_spec (spec : RunSpec) : Graph spec.nodes := by
  obtain ⟨_, _, h⟩ := Except.bind_ok.mp spec.wellFormed
  obtain ⟨_, _, h⟩ := Except.bind_ok.mp h
  obtain ⟨_, _, h⟩ := Except.bind_ok.mp h
  obtain ⟨_, _, h⟩ := Except.bind_ok.mp h
  obtain ⟨_, unique, h⟩ := Except.bind_ok.mp h
  obtain ⟨_, checked, _⟩ := Except.bind_ok.mp h
  refine ⟨check_ok.mp unique, ?_⟩
  intro node member dependency named
  obtain ⟨_, missing, _⟩ := Except.bind_ok.mp (Except.forM_ok.mp checked node member)
  have none_missing := check_ok.mp missing
  by_contra unknown
  have listed : dependency ∈ node.dependencies.filter
      (fun dependency => !(spec.nodes.map NodeSpec.nodeId).contains dependency) :=
    List.mem_filter.mpr ⟨named, by simpa using unknown⟩
  rw [none_missing] at listed
  cases listed

namespace Graph

variable {nodes : List NodeSpec}

theorem byId_iff (graph : Graph nodes) {nodeId : String} {node : NodeSpec} :
    byId nodes nodeId = some node ↔ node ∈ nodes ∧ node.nodeId = nodeId := by
  constructor
  · intro found
    exact ⟨List.mem_of_find?_eq_some found, by simpa using List.find?_some found⟩
  · rintro ⟨member, rfl⟩
    cases found : byId nodes node.nodeId with
    | none => simpa using List.find?_eq_none.mp found node member
    | some other =>
      have same : other.nodeId = node.nodeId := by simpa using List.find?_some found
      rw [List.inj_on_of_nodup_map graph.unique (List.mem_of_find?_eq_some found) member same]

theorem stacked_iff (graph : Graph nodes) {nodeId : String} {pending : List String} :
    stacked nodes nodeId = some pending ↔
      ∃ node ∈ nodes, node.nodeId = nodeId ∧ pending = node.dependencies.reverse := by
  rw [stacked, Option.map_eq_some_iff]
  constructor
  · rintro ⟨node, found, rfl⟩
    obtain ⟨member, same⟩ := graph.byId_iff.mp found
    exact ⟨node, member, same, rfl⟩
  · rintro ⟨node, member, same, rfl⟩
    exact ⟨node, graph.byId_iff.mpr ⟨member, same⟩, rfl⟩

theorem edge_iff (graph : Graph nodes) {nodeId dependencyId : String} :
    Search.Edge (stacked nodes) nodeId dependencyId ↔ Depends nodes nodeId dependencyId := by
  constructor
  · rintro ⟨pending, found, member⟩
    obtain ⟨node, listed, same, rfl⟩ := graph.stacked_iff.mp found
    exact ⟨node, listed, same, List.mem_reverse.mp member⟩
  · rintro ⟨node, listed, same, member⟩
    exact ⟨_, graph.stacked_iff.mpr ⟨node, listed, same, rfl⟩, List.mem_reverse.mpr member⟩

theorem closed (graph : Graph nodes) : Search.Closed (stacked nodes) (nodes.map NodeSpec.nodeId) := by
  intro nodeId member
  obtain ⟨node, listed, same⟩ := List.mem_map.mp member
  refine ⟨_, graph.stacked_iff.mpr ⟨node, listed, same, rfl⟩, ?_⟩
  intro dependency named
  exact graph.known node listed dependency (List.mem_reverse.mp named)

theorem unseen_length (graph : Graph nodes) {some_nodes : List NodeSpec} (inside : ∀ node ∈ some_nodes, node ∈ nodes) :
    Search.unseen (stacked nodes) [] (some_nodes.map NodeSpec.nodeId) =
      (some_nodes.flatMap NodeSpec.dependencies).length := by
  induction some_nodes with
  | nil => rfl
  | cons node some_nodes ih =>
    have found := graph.stacked_iff.mpr ⟨node, inside node List.mem_cons_self, rfl, rfl⟩
    have rest := ih fun n hn => inside n (List.mem_cons_of_mem _ hn)
    rw [List.map_cons, Search.unseen, rest, if_neg List.not_mem_nil, found, List.flatMap_cons, List.length_append,
      Option.getD_some, List.length_reverse]

theorem dependencies_length {node : NodeSpec} (member : node ∈ nodes) :
    node.dependencies.length ≤ (nodes.flatMap NodeSpec.dependencies).length := by
  obtain ⟨before, after, rfl⟩ := List.append_of_mem member
  simp only [List.flatMap_append, List.flatMap_cons, List.length_append]
  omega

/-- `_depends_on` decides the transitive dependencies of every node. -/
theorem dependsOn_iff (graph : Graph nodes) {node : NodeSpec} (member : node ∈ nodes) (dependencyId : String) :
    ∃ found, dependsOn nodes node.nodeId dependencyId = some found ∧
      (found = true ↔ Relation.TransGen (Depends nodes) node.nodeId dependencyId) := by
  have pending := graph.stacked_iff.mpr ⟨node, member, rfl, rfl⟩
  have inside : ∀ a ∈ node.dependencies.reverse, a ∈ nodes.map NodeSpec.nodeId := by
    intro a ha
    exact graph.known node member a (List.mem_reverse.mp ha)
  have enough : node.dependencies.reverse.length +
      Search.unseen (stacked nodes) [] (nodes.map NodeSpec.nodeId) < rounds nodes := by
    have small := dependencies_length member
    rw [graph.unseen_length fun _ h => h, List.length_reverse, rounds]
    omega
  obtain ⟨found, result, exact⟩ := Search.search_iff (· = dependencyId) graph.closed inside enough
  refine ⟨found, by rw [dependsOn, pending]; exact result, ?_⟩
  have same : Search.Edge (stacked nodes) = Depends nodes := by
    funext a b
    exact propext graph.edge_iff
  rw [exact, same, Relation.TransGen.head'_iff]
  constructor
  · rintro ⟨first, named, last, reach, ends⟩
    have ends : last = dependencyId := by simpa using ends
    exact ⟨first, ⟨node, member, rfl, List.mem_reverse.mp named⟩, ends ▸ reach⟩
  · rintro ⟨first, ⟨other, listed, same, named⟩, reach⟩
    have node_same : other = node := List.inj_on_of_nodup_map graph.unique listed member same
    exact ⟨first, List.mem_reverse.mpr (node_same ▸ named), dependencyId, reach, by simp⟩

end Graph

/-! What the contract accepts. -/

theorem build_ok {parts : Runtime.NodeParts} {node : {n : NodeSpec // n.Constructed}} (h : parts.build = .ok node) :
    node.val = parts.node := by
  unfold Runtime.NodeParts.build Runtime.NodeSpec.construct at h
  split at h
  · cases h
    rfl
  · cases h

theorem unitNode_ok {config : SwarmConfig} {unit : SwarmContractUnit} {node : {n : NodeSpec // n.Constructed}}
    (h : unitNode config unit = .ok node) : node.val.nodeId = unit.unitId ∧ node.val.dependencies = unit.dependencies := by
  obtain ⟨_, _, h⟩ := Except.bind_ok.mp h
  obtain ⟨_, _, h⟩ := Except.bind_ok.mp h
  obtain ⟨_, _, h⟩ := Except.bind_ok.mp h
  obtain ⟨_, _, h⟩ := Except.bind_ok.mp h
  rw [build_ok h]
  exact ⟨rfl, rfl⟩

theorem forall₂_member {α β : Type} {related : α → β → Prop} {items : List α} {others : List β}
    (h : List.Forall₂ related items others) {a : α} (member : a ∈ items) : ∃ b ∈ others, related a b := by
  induction h with
  | nil => cases member
  | cons first _ ih =>
    cases member with
    | head => exact ⟨_, List.mem_cons_self, first⟩
    | tail _ later =>
      obtain ⟨b, listed, here⟩ := ih later
      exact ⟨b, List.mem_cons_of_mem _ listed, here⟩

/-- A unit of an accepted swarm, as a node of its graph. -/
theorem unit_node {config : SwarmConfig} {units : List SwarmContractUnit} {spec : RunSpec}
    (h : buildSwarmRunSpec config units = .ok spec) :
    validateFileClaimOrder spec.nodes units = .ok () ∧ ∀ unit ∈ units, ∃ node ∈ spec.nodes,
      node.nodeId = unit.unitId ∧ node.dependencies = unit.dependencies := by
  obtain ⟨unitNodes, mapped, h⟩ := Except.bind_ok.mp h
  obtain ⟨fanIn, _, h⟩ := Except.bind_ok.mp h
  obtain ⟨made, constructed, h⟩ := Except.bind_ok.mp h
  obtain ⟨_, validated, h⟩ := Except.bind_ok.mp h
  cases h
  refine ⟨validated, ?_⟩
  intro unit member
  have nodes := (Runtime.RunSpec.construct_fields constructed).2.2.1
  obtain ⟨node, listed, built⟩ := forall₂_member (Except.mapM_ok mapped) member
  refine ⟨node.val, ?_, unitNode_ok built⟩
  rw [nodes]
  exact List.mem_map.mpr ⟨node, List.mem_append_left _ listed, rfl⟩

/-- Two units with a chain of dependencies between them. -/
def Ordered (nodes : List NodeSpec) (left right : SwarmContractUnit) : Prop :=
  Relation.TransGen (Depends nodes) left.unitId right.unitId ∨ Relation.TransGen (Depends nodes) right.unitId left.unitId

theorem mem_claimOverlap {left right : SwarmContractUnit} {pattern : String} :
    pattern ∈ claimOverlap left right ↔ pattern ∈ left.allowedPaths ∧ pattern ∈ right.allowedPaths := by
  simp [claimOverlap, List.mem_insertionSort]

theorem claimOrder_ok {nodes : List NodeSpec} (graph : Graph nodes) {left right : SwarmContractUnit}
    (hleft : ∃ node ∈ nodes, node.nodeId = left.unitId) (hright : ∃ node ∈ nodes, node.nodeId = right.unitId)
    (h : claimOrder nodes left right = .ok ()) {pattern : String} (claimed : pattern ∈ left.allowedPaths)
    (also : pattern ∈ right.allowedPaths) : Ordered nodes left right := by
  have shared : claimOverlap left right ≠ [] := List.ne_nil_of_mem (mem_claimOverlap.mpr ⟨claimed, also⟩)
  obtain ⟨node, member, named⟩ := hleft
  obtain ⟨node', member', named'⟩ := hright
  obtain ⟨found, result, exact⟩ := graph.dependsOn_iff member right.unitId
  obtain ⟨found', result', exact'⟩ := graph.dependsOn_iff member' left.unitId
  rw [named] at result exact
  rw [named'] at result' exact'
  rw [claimOrder, if_neg shared, result, result'] at h
  cases found with
  | true => exact .inl (exact.mp rfl)
  | false =>
    cases found' with
    | true => exact .inr (exact'.mp rfl)
    | false => cases h

/-- Units that share a pattern are in order. -/
theorem validate_ok {nodes : List NodeSpec} (graph : Graph nodes) {units : List SwarmContractUnit}
    (inside : ∀ unit ∈ units, ∃ node ∈ nodes, node.nodeId = unit.unitId) (h : validateFileClaimOrder nodes units = .ok ()) :
    units.Pairwise fun left right => ∀ pattern ∈ left.allowedPaths, pattern ∈ right.allowedPaths →
      Ordered nodes left right := by
  induction units with
  | nil => exact .nil
  | cons left units ih =>
    have others : ∀ unit ∈ units, ∃ node ∈ nodes, node.nodeId = unit.unitId :=
      fun unit member => inside unit (List.mem_cons_of_mem _ member)
    rw [validateFileClaimOrder] at h
    split at h
    · rename_i unclaimed
      refine .cons ?_ (ih others h)
      intro right _ pattern claimed
      rw [unclaimed] at claimed
      cases claimed
    · obtain ⟨_, first, rest⟩ := Except.bind_ok.mp h
      refine .cons ?_ (ih others rest)
      intro right member pattern claimed also
      exact claimOrder_ok graph (inside left List.mem_cons_self) (others right member)
        (Except.forM_ok.mp first right member) claimed also

/-! The laws. -/

/-- What the contract promises of an accepted swarm. -/
structure Separated (units : List SwarmContractUnit) (nodes : List NodeSpec) : Prop where
  decides : ∀ node ∈ nodes, ∀ dependencyId, ∃ found, dependsOn nodes node.nodeId dependencyId = some found ∧
    (found = true ↔ Relation.TransGen (Depends nodes) node.nodeId dependencyId)
  disjoint : units.Pairwise fun left right => ¬ Ordered nodes left right → ∀ pattern ∈ left.allowedPaths,
    ∀ other ∈ right.allowedPaths, ∀ path, Fnmatch.isPath path = true →
      ¬ (Fnmatch.fnmatch path pattern = true ∧ Fnmatch.fnmatch path other = true)

/-- An accepted swarm keeps its unordered units apart exactly when no two of their patterns, spelled
differently, overlap. -/
theorem separated_iff {config : SwarmConfig} {units : List SwarmContractUnit} {spec : RunSpec}
    (h : buildSwarmRunSpec config units = .ok spec) :
    Separated units spec.nodes ↔ units.Pairwise fun left right => ¬ Ordered spec.nodes left right →
      ∀ pattern ∈ left.allowedPaths, ∀ other ∈ right.allowedPaths, pattern ≠ other →
        Fnmatch.overlaps pattern other = false := by
  obtain ⟨validated, inside⟩ := unit_node h
  have graph := graph_of_spec spec
  have named : ∀ unit ∈ units, ∃ node ∈ spec.nodes, node.nodeId = unit.unitId := by
    intro unit member
    obtain ⟨node, listed, same, _⟩ := inside unit member
    exact ⟨node, listed, same⟩
  have shared := validate_ok graph named validated
  constructor
  · intro separated
    refine separated.disjoint.imp ?_
    intro left right apart free pattern claimed other claimed' _
    by_contra overlap
    obtain ⟨path, fine, matched, matched'⟩ := Fnmatch.overlaps_iff.mp (Bool.eq_true_of_not_eq_false overlap)
    exact apart free pattern claimed other claimed' path fine ⟨matched, matched'⟩
  · intro apart
    refine ⟨fun node member => graph.dependsOn_iff member, ?_⟩
    refine (apart.and shared).imp ?_
    rintro left right ⟨apart, shared⟩ free pattern claimed other claimed' path fine ⟨matched, matched'⟩
    by_cases same : pattern = other
    · subst same
      exact free (shared pattern claimed claimed')
    · have overlap := Fnmatch.overlaps_iff.mpr ⟨path, fine, matched, matched'⟩
      rw [apart free pattern claimed other claimed' same] at overlap
      cases overlap

/-! Two units without dependencies. -/

def pairConfig : SwarmConfig := ⟨"s1", "claude", "process", 2, none, none, .float (.ofInt 1200)⟩

def pairUnit (unitId pattern : String) : SwarmContractUnit := ⟨unitId, "Tidy up", none, [pattern], [], []⟩

def apartUnits : List SwarmContractUnit := [pairUnit "unit-0000" "docs", pairUnit "unit-0001" "src/a.py"]

def sharingUnits : List SwarmContractUnit := [pairUnit "unit-0000" "src/*", pairUnit "unit-0001" "src/a.py"]

theorem accepted_of_some {units : List SwarmContractUnit}
    (h : (buildSwarmRunSpec pairConfig units).toOption.isSome = true) : ∃ spec, buildSwarmRunSpec pairConfig units = .ok spec := by
  cases built : buildSwarmRunSpec pairConfig units with
  | ok spec => exact ⟨spec, rfl⟩
  | error e =>
    rw [built] at h
    cases h

theorem apartUnits_accepted : ∃ spec, buildSwarmRunSpec pairConfig apartUnits = .ok spec :=
  accepted_of_some (by decide +kernel)

theorem sharingUnits_accepted : ∃ spec, buildSwarmRunSpec pairConfig sharingUnits = .ok spec :=
  accepted_of_some (by decide +kernel)

theorem pair_unordered {units : List SwarmContractUnit} {spec : RunSpec}
    (h : buildSwarmRunSpec pairConfig units = .ok spec) {left right : SwarmContractUnit} (hleft : left ∈ units)
    (hright : right ∈ units) (free : left.dependencies = [] ∧ right.dependencies = []) :
    ¬ Ordered spec.nodes left right := by
  have graph := graph_of_spec spec
  have alone {unit : SwarmContractUnit} (member : unit ∈ units) (none_named : unit.dependencies = []) (id : String) :
      ¬ Relation.TransGen (Depends spec.nodes) unit.unitId id := by
    intro chain
    obtain ⟨first, ⟨other, listed, same, named⟩, _⟩ := Relation.TransGen.head'_iff.mp chain
    obtain ⟨node, found, same', dependencies⟩ := (unit_node h).2 unit member
    rw [List.inj_on_of_nodup_map graph.unique listed found (same.trans same'.symm), dependencies, none_named] at named
    cases named
  rintro (chain | chain)
  · exact alone hleft free.1 _ chain
  · exact alone hright free.2 _ chain

theorem docs_apart : Fnmatch.overlaps "docs" "src/a.py" = false := by
  have head {c : Char} {tokens : List Fnmatch.Token} {cs : List Char}
      (matched : Fnmatch.matchTokens (.one c :: tokens) cs = true) : cs.head? = some c := by
    cases cs with
    | nil => cases matched
    | cons d cs =>
      simp only [Fnmatch.matchTokens, Fnmatch.Token.accepts, Bool.and_eq_true, beq_iff_eq] at matched
      rw [matched.1, List.head?_cons]
  by_contra overlap
  obtain ⟨path, _, docs, source⟩ := Fnmatch.overlaps_iff.mp (Bool.eq_true_of_not_eq_false overlap)
  have first : path.toList.head? = some 'd' := head docs
  have second : path.toList.head? = some 's' := head source
  rw [first] at second
  exact absurd second (by decide)

theorem separated_apart : ∃ spec, buildSwarmRunSpec pairConfig apartUnits = .ok spec ∧ Separated apartUnits spec.nodes := by
  obtain ⟨spec, built⟩ := apartUnits_accepted
  refine ⟨spec, built, (separated_iff built).mpr ?_⟩
  refine .cons ?_ (List.pairwise_singleton _ _)
  intro right member _ pattern claimed other claimed' _
  rw [List.mem_singleton.mp member] at claimed'
  rw [List.mem_singleton.mp claimed, List.mem_singleton.mp claimed']
  exact docs_apart

/-- The contract accepts two units that may run at once and both write `src/a.py`. -/
theorem spelled_apart_accepted : ∃ spec, buildSwarmRunSpec pairConfig sharingUnits = .ok spec ∧
    Fnmatch.fnmatch "src/a.py" "src/*" = true ∧ Fnmatch.fnmatch "src/a.py" "src/a.py" = true ∧
      ¬ Separated sharingUnits spec.nodes := by
  obtain ⟨spec, built⟩ := sharingUnits_accepted
  have globbed : Fnmatch.fnmatch "src/a.py" "src/*" = true := by decide +kernel
  have itself : Fnmatch.fnmatch "src/a.py" "src/a.py" = true := by decide +kernel
  refine ⟨spec, built, globbed, itself, ?_⟩
  intro separated
  have unordered : ¬ Ordered spec.nodes (pairUnit "unit-0000" "src/*") (pairUnit "unit-0001" "src/a.py") :=
    pair_unordered built List.mem_cons_self (List.mem_cons_of_mem _ List.mem_cons_self) ⟨rfl, rfl⟩
  have apart := (List.pairwise_cons.mp separated.disjoint).1 _ List.mem_cons_self unordered
  exact apart _ List.mem_cons_self _ List.mem_cons_self "src/a.py" (by decide +kernel) ⟨globbed, itself⟩

end Onmc.Swarm
