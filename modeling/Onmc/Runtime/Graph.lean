import Onmc.Runtime.Contracts
import Onmc.Toposort

/-! Which graphs a run accepts, and the orders and the layers it runs them in. -/
namespace Onmc.Runtime

open Toposort

def ids (nodes : List NodeSpec) : List String := nodes.map NodeSpec.nodeId

/-- The dependencies of the node with an id. -/
def needs (nodes : List NodeSpec) (id : String) : List String :=
  ((byId nodes id).map NodeSpec.dependencies).getD []

theorem needs_cons (node : NodeSpec) (nodes : List NodeSpec) (id : String) :
    needs (node :: nodes) id = if node.nodeId = id then node.dependencies else needs nodes id := by
  unfold needs byId
  by_cases same : node.nodeId = id
  · rw [List.find?_cons_of_pos (by simpa using same), if_pos same]
    rfl
  · rw [List.find?_cons_of_neg (by simpa using same), if_neg same]

theorem byId_of_mem {nodes : List NodeSpec} (unique : (ids nodes).Nodup) {node : NodeSpec} (member : node ∈ nodes) :
    byId nodes node.nodeId = some node := by
  induction nodes with
  | nil => cases member
  | cons first nodes ih =>
    rw [ids, List.map_cons, List.nodup_cons] at unique
    rcases List.mem_cons.mp member with rfl | later
    · exact List.find?_cons_of_pos (by simp)
    · have other : first.nodeId ≠ node.nodeId := fun same => unique.1 (same ▸ List.mem_map_of_mem later)
      rw [byId, List.find?_cons_of_neg (by simpa using other)]
      exact ih unique.2 later

theorem needs_of_mem {nodes : List NodeSpec} (unique : (ids nodes).Nodup) {node : NodeSpec} (member : node ∈ nodes) :
    needs nodes node.nodeId = node.dependencies := by
  rw [needs, byId_of_mem unique member]
  rfl

theorem needs_of_notMem {nodes : List NodeSpec} {id : String} (unknown : id ∉ ids nodes) : needs nodes id = [] := by
  induction nodes with
  | nil => rfl
  | cons node nodes ih =>
    rw [ids, List.map_cons, List.mem_cons, not_or] at unknown
    rw [needs_cons, if_neg (fun same => unknown.1 same.symm)]
    exact ih unknown.2

/-- A node with the one id names the other as a dependency. -/
def DependsOn (nodes : List NodeSpec) (id dependency : String) : Prop :=
  ∃ node ∈ nodes, node.nodeId = id ∧ dependency ∈ node.dependencies

theorem mem_needs {nodes : List NodeSpec} (unique : (ids nodes).Nodup) {id dependency : String} :
    dependency ∈ needs nodes id ↔ DependsOn nodes id dependency := by
  constructor
  · intro needed
    by_cases known : id ∈ ids nodes
    · obtain ⟨node, member, rfl⟩ := List.mem_map.mp known
      rw [needs_of_mem unique member] at needed
      exact ⟨node, member, rfl, needed⟩
    · rw [needs_of_notMem known] at needed
      cases needed
  · rintro ⟨node, member, rfl, listed⟩
    rw [needs_of_mem unique member]
    exact listed

/-- A node is listed among the dependents of a dependency once for each time it names it. -/
theorem count_dependentsOf {nodes : List NodeSpec} (unique : (ids nodes).Nodup) (dependency id : String) :
    (dependentsOf nodes dependency).count id = (needs nodes id).count dependency := by
  induction nodes with
  | nil => rfl
  | cons node nodes ih =>
    rw [ids, List.map_cons, List.nodup_cons] at unique
    have rest := ih unique.2
    have here : ((node.dependencies.filter (· = dependency)).map (fun _ => node.nodeId)).count id =
        if node.nodeId = id then node.dependencies.count dependency else 0 := by
      rw [List.map_const', List.count_replicate, ← List.countP_eq_length_filter]
      simp only [beq_iff_eq]
      rfl
    rw [dependentsOf, List.flatMap_cons, ← dependentsOf, List.count_append, here, rest, needs_cons]
    split
    · rename_i same
      subst same
      rw [needs_of_notMem unique.1]
      rfl
    · rw [Nat.zero_add]

/-! One turn of the loop. -/

/-- Releasing dependents lowers their counts by the times they are listed, and makes those ready whose
count is spent. -/
theorem release_all (dependents : List String) {remaining : List (String × Int)} {left : String → Nat}
    (counted : ∀ id ∈ dependents, remaining.lookup id = some (left id : Int))
    (enough : ∀ id, dependents.count id ≤ left id) (ready : List String) :
    ∃ new, (dependents.foldl release (remaining, ready)).2 = ready ++ new ∧ new.Nodup ∧
      (∀ id, id ∈ new ↔ id ∈ dependents ∧ dependents.count id = left id) ∧
      ∀ id, (dependents.foldl release (remaining, ready)).1.lookup id =
        (remaining.lookup id).map (fun (n : Int) => n - dependents.count id) := by
  induction dependents generalizing remaining left ready with
  | nil =>
    refine ⟨[], by simp, List.nodup_nil, fun id => by simp, fun id => ?_⟩
    cases h : remaining.lookup id with
    | none => simp [h]
    | some n => simp [h]
  | cons first dependents ih =>
    have here := counted first List.mem_cons_self
    have positive := enough first
    rw [List.count_cons_self] at positive
    have lowered : ((left first : Int) - 1) = ((left first - 1 : Nat) : Int) := by omega
    have step : release (remaining, ready) first = (Dict.setItem first ((left first - 1 : Nat) : Int) remaining,
        if left first = 1 then ready ++ [first] else ready) := by
      have spent : ((left first - 1 : Nat) : Int) = 0 ↔ left first = 1 := by omega
      simp only [release, here, Option.getD_some, lowered, spent]
    have counted' : ∀ id ∈ dependents, (Dict.setItem first ((left first - 1 : Nat) : Int) remaining).lookup id =
        some ((if id = first then left first - 1 else left id : Nat) : Int) := by
      intro id member
      rw [Dict.lookup_setItem]
      split
      · rfl
      · exact counted id (List.mem_cons_of_mem _ member)
    have enough' : ∀ id, dependents.count id ≤ if id = first then left first - 1 else left id := by
      intro id
      have all := enough id
      split
      · rename_i same
        subst same
        rw [List.count_cons_self] at all
        omega
      · rename_i other
        rw [List.count_cons_of_ne (fun same => other same.symm)] at all
        exact all
    obtain ⟨new, readied, once, members, counts⟩ :=
      ih counted' enough' (if left first = 1 then ready ++ [first] else ready)
    have after : ∀ id, ((first :: dependents).foldl release (remaining, ready)).1.lookup id =
        (remaining.lookup id).map (fun (n : Int) => n - (first :: dependents).count id) := by
      intro id
      rw [List.foldl_cons, step, counts, Dict.lookup_setItem]
      split
      · rename_i same
        subst same
        rw [here, List.count_cons_self, Option.map_some, Option.map_some, Option.some_inj]
        omega
      · rename_i other
        rw [List.count_cons_of_ne (fun same => other same.symm)]
    have readied' : ((first :: dependents).foldl release (remaining, ready)).2 =
        (if left first = 1 then ready ++ [first] else ready) ++ new := by
      rw [List.foldl_cons, step, readied]
    have others : ∀ id, id ≠ first → (id ∈ new ↔ id ∈ first :: dependents ∧ (first :: dependents).count id = left id) := by
      intro id other
      rw [members, if_neg other, List.mem_cons, List.count_cons_of_ne (fun same => other same.symm)]
      exact and_congr_left fun _ => (or_iff_right other).symm
    by_cases spent : left first = 1
    · have gone : first ∉ dependents := List.count_eq_zero.mp (by omega)
      refine ⟨first :: new, ?_, ?_, fun id => ?_, after⟩
      · rw [readied', if_pos spent, List.append_assoc, List.singleton_append]
      · exact List.nodup_cons.mpr ⟨fun member => gone ((members first).mp member).1, once⟩
      · by_cases same : id = first
        · subst same
          have count : dependents.count id = 0 := List.count_eq_zero.mpr gone
          simp [spent, count]
        · rw [List.mem_cons, or_iff_right same, others id same]
    · refine ⟨new, ?_, once, fun id => ?_, after⟩
      · rw [readied', if_neg spent]
      · by_cases same : id = first
        · subst same
          rw [members, if_pos rfl, List.count_cons_self]
          constructor
          · rintro ⟨_, count⟩
            exact ⟨List.mem_cons_self, by omega⟩
          · rintro ⟨_, count⟩
            exact ⟨List.count_pos_iff.mp (by omega), by omega⟩
        · exact others id same

/-! The loop, with every lookup it makes and the rounds it takes. -/

/-- `dependents[dependency].append(node_id)`; a missing key raises. -/
def addDependent (id : String) (dependents : List (String × List String)) (dependency : String) :
    Option (List (String × List String)) :=
  (dependents.lookup dependency).map fun waiting => Dict.setItem dependency (waiting ++ [id]) dependents

def addDependents (dependents : List (String × List String)) (node : NodeSpec) : Option (List (String × List String)) :=
  node.dependencies.foldlM (addDependent node.nodeId) dependents

def dependentsDict (nodes : List NodeSpec) : Option (List (String × List String)) :=
  nodes.foldlM addDependents (nodes.map fun node => (node.nodeId, []))

/-- `remaining[dependent] -= 1`; a missing key raises. -/
def releaseKnown (state : List (String × Int) × List String) (dependent : String) :
    Option (List (String × Int) × List String) :=
  (state.1.lookup dependent).map fun _ => release state dependent

/-- `while ready`, for so many rounds; a missing key raises. -/
def topologicalLoop (nodes : List NodeSpec) (dependents : List (String × List String)) :
    Nat → List (String × Int) → List String → List NodeSpec → Option (List NodeSpec)
  | _, _, [], ordered => some ordered
  | 0, _, _ :: _, _ => none
  | rounds + 1, remaining, current :: ready, ordered => do
    let node ← byId nodes current
    let freed ← dependents.lookup current
    let (remaining, ready) ← freed.foldlM releaseKnown (remaining, ready)
    topologicalLoop nodes dependents rounds remaining ready (ordered ++ [node])

/-- `_topological`, where it returns within so many rounds. -/
def topologicalWithin (rounds : Nat) (nodes : List NodeSpec) : Option (List NodeSpec) := do
  let dependents ← dependentsDict nodes
  topologicalLoop nodes dependents rounds (nodes.map fun node => (node.nodeId, (node.dependencies.length : Int)))
    ((nodes.filter fun node => node.dependencies.isEmpty).map NodeSpec.nodeId) []

/-- Node ids are unique, and dependencies are nodes. -/
structure WellKnown (nodes : List NodeSpec) : Prop where
  unique : (ids nodes).Nodup
  known : ∀ node ∈ nodes, node.dependencies ⊆ ids nodes

section Loop

variable {nodes : List NodeSpec}

theorem WellKnown.needs_subset (h : WellKnown nodes) (id : String) : needs nodes id ⊆ ids nodes := by
  by_cases known : id ∈ ids nodes
  · obtain ⟨node, member, rfl⟩ := List.mem_map.mp known
    rw [needs_of_mem h.unique member]
    exact h.known node member
  · rw [needs_of_notMem known]
    exact List.nil_subset _

theorem addDependents_known {known : List String} {waiting : String → List String} (id : String)
    {dependencies : List String} {dependents : List (String × List String)} (inside : dependencies ⊆ known)
    (held : ∀ key ∈ known, dependents.lookup key = some (waiting key)) :
    ∃ after, dependencies.foldlM (addDependent id) dependents = some after ∧
      ∀ key ∈ known, after.lookup key = some (waiting key ++ (dependencies.filter (· = key)).map fun _ => id) := by
  induction dependencies generalizing waiting dependents with
  | nil => exact ⟨dependents, rfl, fun key member => by simpa using held key member⟩
  | cons first dependencies ih =>
    rw [List.cons_subset] at inside
    have here := held first inside.1
    have held' : ∀ key ∈ known, (Dict.setItem first (waiting first ++ [id]) dependents).lookup key =
        some (if key = first then waiting first ++ [id] else waiting key) := by
      intro key member
      rw [Dict.lookup_setItem]
      split
      · rfl
      · exact held key member
    obtain ⟨after, added, final⟩ := ih inside.2 held'
    refine ⟨after, ?_, fun key member => ?_⟩
    · rw [List.foldlM_cons, addDependent, here, Option.map_some, Option.bind_eq_bind, Option.bind_some, added]
    · rw [final key member]
      by_cases same : key = first
      · subst same
        rw [if_pos rfl, List.filter_cons_of_pos (by simp), List.map_cons, List.append_assoc, List.singleton_append]
      · rw [if_neg same, List.filter_cons_of_neg (by simpa using fun same' => same (Eq.symm same'))]

theorem dependentsDict_known {known : List String} {waiting : String → List String} {rest : List NodeSpec}
    {dependents : List (String × List String)} (inside : ∀ node ∈ rest, node.dependencies ⊆ known)
    (held : ∀ key ∈ known, dependents.lookup key = some (waiting key)) :
    ∃ after, rest.foldlM addDependents dependents = some after ∧
      ∀ key ∈ known, after.lookup key = some (waiting key ++ dependentsOf rest key) := by
  induction rest generalizing waiting dependents with
  | nil => exact ⟨dependents, rfl, fun key member => by simpa [dependentsOf] using held key member⟩
  | cons node rest ih =>
    obtain ⟨middle, added, held'⟩ := addDependents_known node.nodeId (inside node List.mem_cons_self) held
    obtain ⟨after, all, final⟩ := ih (fun other member => inside other (List.mem_cons_of_mem _ member)) held'
    refine ⟨after, ?_, fun key member => ?_⟩
    · rw [List.foldlM_cons, addDependents, added, Option.bind_eq_bind, Option.bind_some, all]
    · rw [final key member, dependentsOf, dependentsOf, List.flatMap_cons, List.append_assoc]

/-- Every dependency finds its entry. -/
theorem WellKnown.dependents (h : WellKnown nodes) : ∃ dependents, dependentsDict nodes = some dependents ∧
    ∀ id ∈ ids nodes, dependents.lookup id = some (dependentsOf nodes id) := by
  have start : ∀ key ∈ ids nodes, (nodes.map fun node => (node.nodeId, ([] : List String))).lookup key = some [] := by
    intro key member
    obtain ⟨node, known, rfl⟩ := List.mem_map.mp member
    have once : (Dict.keys (nodes.map fun node => (node.nodeId, ([] : List String)))).Nodup := by
      rw [Dict.keys, List.map_map]
      exact h.unique
    exact Dict.lookup_of_mem once (List.mem_map_of_mem known)
  obtain ⟨after, all, final⟩ := dependentsDict_known h.known start
  exact ⟨after, all, fun id member => by rw [final id member, List.nil_append]⟩

theorem releaseAll_known {dependents : List String} {state : List (String × Int) × List String}
    (known : ∀ id ∈ dependents, (state.1.lookup id).isSome) :
    dependents.foldlM releaseKnown state = some (dependents.foldl release state) := by
  induction dependents generalizing state with
  | nil => rfl
  | cons first dependents ih =>
    obtain ⟨count, here⟩ := Option.isSome_iff_exists.mp (known first List.mem_cons_self)
    rw [List.foldlM_cons, releaseKnown, here, Option.map_some, Option.bind_eq_bind, Option.bind_some, List.foldl_cons]
    apply ih
    intro id member
    simp only [release, Dict.lookup_setItem]
    split
    · rfl
    · exact known id (List.mem_cons_of_mem _ member)

end Loop

/-! What a turn keeps. -/

/-- The dependencies of a node that are not done. -/
def pending (nodes : List NodeSpec) (done : List String) (id : String) : List String :=
  (needs nodes id).filter (· ∉ done)

/-- The counts are those of the dependencies that are not done, and what is done or ready is what has
none. -/
structure Counted (nodes : List NodeSpec) (remaining : List (String × Int)) (ready done : List String) : Prop where
  once : (done ++ ready).Nodup
  known : done ++ ready ⊆ ids nodes
  counts : ∀ id ∈ ids nodes, remaining.lookup id = some ((pending nodes done id).length : Int)
  freed : ∀ id ∈ ids nodes, id ∈ done ++ ready ↔ needs nodes id ⊆ done
  earlier : Earlier (needs nodes) done

theorem pending_eq_nil {nodes : List NodeSpec} {done : List String} {id : String} :
    pending nodes done id = [] ↔ needs nodes id ⊆ done := by
  rw [pending, List.filter_eq_nil_iff]
  constructor
  · intro none b needed
    simpa using none b needed
  · intro met b needed
    simpa using met needed

theorem length_pending {nodes : List NodeSpec} {done : List String} {current : String} (new : current ∉ done)
    (id : String) : (pending nodes done id).length =
      (pending nodes (done ++ [current]) id).length + (needs nodes id).count current := by
  unfold pending
  induction needs nodes id with
  | nil => rfl
  | cons first rest ih =>
    by_cases same : first = current
    · subst same
      rw [List.filter_cons_of_pos (by simpa using new), List.filter_cons_of_neg (by simp), List.count_cons_self,
        List.length_cons, ih]
      omega
    · rw [List.count_cons_of_ne same]
      by_cases old : first ∈ done
      · rw [List.filter_cons_of_neg (by simpa using old), List.filter_cons_of_neg (by simp [old]), ih]
      · rw [List.filter_cons_of_pos (by simpa using old), List.filter_cons_of_pos (by simp [old, same]),
          List.length_cons, List.length_cons, ih]
        omega

section Counted

variable {nodes : List NodeSpec}

theorem counted_start (h : WellKnown nodes) :
    Counted nodes (nodes.map fun node => (node.nodeId, (node.dependencies.length : Int)))
      ((nodes.filter fun node => node.dependencies.isEmpty).map NodeSpec.nodeId) [] where
  once := by
    rw [List.nil_append]
    exact h.unique.sublist (List.filter_sublist.map NodeSpec.nodeId)
  known := by
    rw [List.nil_append]
    exact (List.filter_sublist.map NodeSpec.nodeId).subset
  counts := by
    intro id member
    obtain ⟨node, known, rfl⟩ := List.mem_map.mp member
    have once : (Dict.keys (nodes.map fun node => (node.nodeId, (node.dependencies.length : Int)))).Nodup := by
      rw [Dict.keys, List.map_map]
      exact h.unique
    have all : pending nodes [] node.nodeId = node.dependencies := by
      rw [pending, needs_of_mem h.unique known, List.filter_eq_self]
      simp
    rw [all]
    exact Dict.lookup_of_mem once (List.mem_map_of_mem known)
  freed := by
    intro id member
    obtain ⟨node, known, rfl⟩ := List.mem_map.mp member
    rw [List.nil_append, needs_of_mem h.unique known, List.subset_nil]
    constructor
    · intro listed
      obtain ⟨other, free, same⟩ := List.mem_map.mp listed
      obtain ⟨known', free⟩ := List.mem_filter.mp free
      have found := byId_of_mem h.unique known
      rw [← same, byId_of_mem h.unique known'] at found
      rw [← Option.some.inj found]
      exact List.isEmpty_iff.mp free
    · intro free
      exact List.mem_map_of_mem (List.mem_filter.mpr ⟨known, List.isEmpty_iff.mpr free⟩)
  earlier := earlier_nil

theorem Counted.turn (h : WellKnown nodes) {remaining : List (String × Int)} {current : String}
    {ready done : List String} (counted : Counted nodes remaining (current :: ready) done) :
    let state := (dependentsOf nodes current).foldl release (remaining, ready)
    (∀ id ∈ dependentsOf nodes current, (remaining.lookup id).isSome) ∧
      Counted nodes state.1 state.2 (done ++ [current]) := by
  intro state
  have fresh : current ∉ done := fun old =>
    (List.nodup_append.mp counted.once).2.2 current old current List.mem_cons_self rfl
  have waits : ∀ {id}, id ∈ dependentsOf nodes current → id ∈ ids nodes := by
    intro id member
    obtain ⟨node, known, listed⟩ := List.mem_flatMap.mp member
    obtain ⟨_, _, rfl⟩ := List.mem_map.mp listed
    exact List.mem_map_of_mem known
  have counts : ∀ id ∈ dependentsOf nodes current, remaining.lookup id = some ((pending nodes done id).length : Int) :=
    fun id member => counted.counts id (waits member)
  have length : ∀ id, (pending nodes done id).length =
      (pending nodes (done ++ [current]) id).length + (needs nodes id).count current := length_pending fresh
  have times := count_dependentsOf h.unique current
  obtain ⟨new, readied, once, members, after⟩ := release_all (dependentsOf nodes current) counts
    (fun id => by rw [times, length id]; omega) ready
  have released : ∀ {id}, id ∈ new ↔ id ∈ dependentsOf nodes current ∧ needs nodes id ⊆ done ++ [current] := by
    intro id
    rw [members, times, length id, ← pending_eq_nil, ← List.length_eq_zero_iff]
    exact and_congr_right fun _ => by omega
  have apart : ∀ {id}, id ∈ new → id ∉ done ++ current :: ready := by
    intro id member old
    have listed := (members id).mp member |>.1
    have needed : current ∈ needs nodes id := by
      rw [← List.count_pos_iff, ← times, List.count_pos_iff]
      exact listed
    exact fresh ((counted.freed id (waits listed)).mp old needed)
  have same : done ++ [current] ++ state.2 = (done ++ current :: ready) ++ new := by
    simp only [state, readied, List.append_assoc, List.cons_append, List.nil_append]
  refine ⟨fun id member => by rw [counts id member]; rfl, ?_, ?_, ?_, ?_, ?_⟩
  · rw [same]
    exact counted.once.append once fun id old member => apart member old
  · rw [same]
    exact List.append_subset.mpr ⟨counted.known, fun id member => waits ((members id).mp member).1⟩
  · intro id member
    rw [after id, counted.counts id member, Option.map_some, Option.some_inj, times, length id]
    omega
  · intro id member
    rw [same, List.mem_append]
    constructor
    · rintro (old | fresh)
      · exact List.Subset.trans ((counted.freed id member).mp old) (List.subset_append_left _ _)
      · exact (released.mp fresh).2
    · intro met
      by_cases already : needs nodes id ⊆ done
      · exact .inl ((counted.freed id member).mpr already)
      · right
        refine released.mpr ⟨?_, met⟩
        rw [← List.count_pos_iff, times]
        have some : (pending nodes done id).length ≠ 0 := fun none =>
          already (pending_eq_nil.mp (List.length_eq_zero_iff.mp none))
        have none := List.length_eq_zero_iff.mpr (pending_eq_nil.mpr met)
        have total := length id
        omega
  · exact counted.earlier.concat ((counted.freed current (counted.known (by simp))).mp (by simp))

/-- The loop ends, within as many rounds as nodes are left, with nothing ready, and it finds every key. -/
theorem Counted.run (h : WellKnown nodes) {dependents : List (String × List String)}
    (found : ∀ id ∈ ids nodes, dependents.lookup id = some (dependentsOf nodes id)) {rounds : Nat}
    {remaining : List (String × Int)} {ready done : List String} (counted : Counted nodes remaining ready done)
    (enough : nodes.length ≤ done.length + rounds) (ordered : List NodeSpec) :
    topologicalLoop nodes dependents rounds remaining ready ordered =
        some (ordered ++ topologicalFrom nodes rounds remaining ready) ∧
      ∃ left, Counted nodes left [] (done ++ ids (topologicalFrom nodes rounds remaining ready)) ∧
        topologicalFrom nodes rounds remaining ready ⊆ nodes := by
  induction rounds generalizing remaining ready done ordered with
  | zero =>
    have few := (counted.once.subperm counted.known).length_le
    rw [List.length_append, ids, List.length_map] at few
    have nothing : ready = [] := List.length_eq_zero_iff.mp (by omega)
    subst nothing
    refine ⟨by simp [topologicalLoop, topologicalFrom], remaining, ?_, List.nil_subset _⟩
    simpa [topologicalFrom, ids] using counted
  | succ rounds ih =>
    cases ready with
    | nil =>
      refine ⟨by simp [topologicalLoop, topologicalFrom], remaining, ?_, List.nil_subset _⟩
      simpa [topologicalFrom, ids] using counted
    | cons current ready =>
      obtain ⟨known, turned⟩ := counted.turn h
      have member : current ∈ ids nodes := counted.known (by simp)
      obtain ⟨node, listed, rfl⟩ := List.mem_map.mp member
      have here := byId_of_mem h.unique listed
      have enough' : nodes.length ≤ (done ++ [node.nodeId]).length + rounds := by
        rw [List.length_append, List.length_singleton]
        omega
      have released : (dependentsOf nodes node.nodeId).foldlM releaseKnown (remaining, ready) =
          some ((dependentsOf nodes node.nodeId).foldl release (remaining, ready)) := releaseAll_known known
      obtain ⟨loop, left, closed, inside⟩ := ih turned enough' (ordered ++ [node])
      refine ⟨?_, left, ?_, ?_⟩
      · simp only [topologicalLoop, topologicalFrom, here, found _ member, released,
          Option.bind_eq_bind, Option.bind_some, loop, Option.toList_some, List.append_assoc]
      · simpa only [topologicalFrom, here, Option.toList_some, ids, List.map_append, List.map_cons, List.map_nil,
          List.append_assoc] using closed
      · simp only [topologicalFrom, here, Option.toList_some]
        exact List.append_subset.mpr ⟨List.cons_subset.mpr ⟨listed, List.nil_subset _⟩, inside⟩

/-- More rounds change nothing once the loop has returned. -/
theorem topologicalLoop_more {dependents : List (String × List String)} {rounds : Nat}
    {remaining : List (String × Int)} {ready : List String} {ordered result : List NodeSpec}
    (returned : topologicalLoop nodes dependents rounds remaining ready ordered = some result) {more : Nat}
    (enough : rounds ≤ more) : topologicalLoop nodes dependents more remaining ready ordered = some result := by
  induction rounds generalizing remaining ready ordered more with
  | zero =>
    cases ready with
    | nil => cases more <;> exact returned
    | cons current ready => cases returned
  | succ rounds ih =>
    cases ready with
    | nil => cases more <;> exact returned
    | cons current ready =>
      cases more with
      | zero => omega
      | succ more =>
        simp only [topologicalLoop, Option.bind_eq_bind, Option.bind_eq_some_iff] at returned ⊢
        obtain ⟨node, here, freed, waiting, state, released, rest⟩ := returned
        exact ⟨node, here, freed, waiting, state, released, ih rest (by omega)⟩

/-- What `_topological` returns, in as many rounds as there are nodes: nodes in an order in which every
dependency comes earlier, and all whose dependencies are there. -/
theorem topological_ordered (h : WellKnown nodes) :
    (∀ rounds, nodes.length ≤ rounds → topologicalWithin rounds nodes = some (topological nodes)) ∧
      (ids (topological nodes)).Nodup ∧ topological nodes ⊆ nodes ∧ Earlier (needs nodes) (ids (topological nodes)) ∧
      ∀ id ∈ ids nodes, needs nodes id ⊆ ids (topological nodes) → id ∈ ids (topological nodes) := by
  obtain ⟨dependents, built, found⟩ := h.dependents
  obtain ⟨loop, left, closed, inside⟩ := (counted_start h).run h found (Nat.le_add_left _ _) []
  rw [List.nil_append] at closed
  have whole : ∀ id, id ∈ ids (topological nodes) ++ [] ↔ id ∈ ids (topological nodes) := fun id => by simp
  refine ⟨fun rounds enough => ?_, ?_, inside, closed.earlier, fun id member met => ?_⟩
  · rw [topologicalWithin, built, Option.bind_eq_bind, Option.bind_some]
    exact topologicalLoop_more loop enough
  · have once := closed.once
    rwa [List.append_nil] at once
  · exact (whole id).mp ((closed.freed id member).mpr met)

end Counted

/-! Acceptance. -/

/-- No node depends on itself, however far down. -/
def AcyclicGraph (nodes : List NodeSpec) : Prop := ∀ id, ¬ Relation.TransGen (DependsOn nodes) id id

theorem acyclic_needs {nodes : List NodeSpec} (unique : (ids nodes).Nodup) :
    Acyclic (needs nodes) ↔ AcyclicGraph nodes := by
  have same : (fun a b => b ∈ needs nodes a) = DependsOn nodes := by
    funext a b
    exact propext (mem_needs unique)
  rw [Acyclic, AcyclicGraph, same]

/-- All nodes are ordered just when there is no cycle. -/
theorem length_topological {nodes : List NodeSpec} (h : WellKnown nodes) :
    (topological nodes).length = nodes.length ↔ AcyclicGraph nodes := by
  obtain ⟨_, once, inside, earlier, closed⟩ := topological_ordered h
  have known : ids (topological nodes) ⊆ ids nodes := List.map_subset _ inside
  have lengths : ∀ nodes : List NodeSpec, (ids nodes).length = nodes.length := fun nodes => List.length_map _
  rw [← acyclic_needs h.unique]
  constructor
  · intro full
    have perm := (once.subperm known).perm_of_length_le (by rw [lengths, lengths, full])
    refine earlier.acyclic fun id outside => needs_of_notMem ?_
    exact fun member => outside (perm.mem_iff.mpr member)
  · intro acyclic
    have all : ids nodes ⊆ ids (topological nodes) := by
      intro id member
      by_contra missing
      have some : (ids nodes).filter (· ∉ ids (topological nodes)) ≠ [] :=
        List.ne_nil_of_mem (List.mem_filter.mpr ⟨member, by simpa using missing⟩)
      obtain ⟨source, left, free⟩ := acyclic.exists_source some
      obtain ⟨known', undone⟩ := List.mem_filter.mp left
      have done : source ∈ ids (topological nodes) := by
        refine closed source known' fun dependency needed => ?_
        by_contra other
        exact free dependency needed (List.mem_filter.mpr ⟨h.needs_subset source needed, by simpa using other⟩)
      exact absurd done (by simpa using undone)
    have few := (once.subperm known).length_le
    have many := (h.unique.subperm all).length_le
    rw [lengths, lengths] at few many
    omega

/-- A graph that a run may be made of. -/
structure Runnable (nodes : List NodeSpec) : Prop where
  unique : (nodes.map NodeSpec.nodeId).Nodup
  known : ∀ node ∈ nodes, ∀ dependency ∈ node.dependencies, ∃ other ∈ nodes, other.nodeId = dependency
  apart : ∀ node ∈ nodes, node.nodeId ∉ node.dependencies
  acyclic : AcyclicGraph nodes

theorem Runnable.wellKnown {nodes : List NodeSpec} (h : Runnable nodes) : WellKnown nodes where
  unique := h.unique
  known := by
    intro node member dependency listed
    obtain ⟨other, known, rfl⟩ := h.known node member dependency listed
    exact List.mem_map_of_mem known

theorem then_ok {α : Type} {first : Checked Unit} {rest : Checked α} {a : α} :
    (first >>= fun _ => rest) = .ok a ↔ first = .ok () ∧ rest = .ok a := by
  rw [Except.bind_ok]
  constructor
  · rintro ⟨_, passed, rest⟩
    exact ⟨passed, rest⟩
  · rintro ⟨passed, rest⟩
    exact ⟨(), passed, rest⟩

theorem checkDependencies_ok {known : List String} {node : NodeSpec} : checkDependencies known node = .ok () ↔
    node.dependencies ⊆ known ∧ node.nodeId ∉ node.dependencies := by
  unfold checkDependencies
  rw [then_ok, check_ok, check_ok, List.filter_eq_nil_iff]
  refine and_congr_left fun _ => forall₂_congr fun dependency _ => ?_
  simp

/-- `_validate_graph` passes just the runnable graphs. -/
theorem validateGraph_ok {nodes : List NodeSpec} : validateGraph nodes = .ok () ↔ Runnable nodes := by
  unfold validateGraph
  rw [then_ok, then_ok, check_ok, check_ok, Except.forM_ok]
  constructor
  · rintro ⟨unique, checked, full⟩
    have known : ∀ node ∈ nodes, node.dependencies ⊆ ids nodes :=
      fun node member => (checkDependencies_ok.mp (checked node member)).1
    refine ⟨unique, ?_, ?_, (length_topological ⟨unique, known⟩).mp full⟩
    · intro node member dependency listed
      obtain ⟨other, found, same⟩ := List.mem_map.mp (known node member listed)
      exact ⟨other, found, same⟩
    · exact fun node member => (checkDependencies_ok.mp (checked node member)).2
  · intro h
    refine ⟨h.unique, fun node member => ?_, (length_topological h.wellKnown).mpr h.acyclic⟩
    exact checkDependencies_ok.mpr ⟨h.wellKnown.known node member, h.apart node member⟩

theorem nonempty_ok {value path : String} : nonempty value path = .ok () ↔ blank value = false := check_ok

theorem RunSpec.runnable (spec : RunSpec) : Runnable spec.nodes := by
  have formed := spec.wellFormed
  unfold runPostInit at formed
  rw [then_ok, then_ok, then_ok, then_ok, validateGraph_ok] at formed
  exact formed.2.2.2.2

/-! Layers. -/

/-- The layers by the ids in them. -/
def layerIds (layers : List (List NodeSpec)) : List (List String) := layers.map ids

/-- The nodes that a round takes, and those that it leaves. -/
def readyAfter (completed : List String) (remaining : List NodeSpec) : List NodeSpec :=
  remaining.filter (fun node => node.dependencies.all completed.contains)

def blockedAfter (completed : List String) (remaining : List NodeSpec) : List NodeSpec :=
  remaining.filter (fun node => !node.dependencies.all completed.contains)

theorem mem_readyAfter {completed : List String} {remaining : List NodeSpec} {node : NodeSpec} :
    node ∈ readyAfter completed remaining ↔ node ∈ remaining ∧ node.dependencies ⊆ completed := by
  rw [readyAfter, List.mem_filter, List.all_eq_true]
  exact and_congr_right fun _ => forall₂_congr fun _ _ => List.contains_iff_mem

theorem mem_blockedAfter {completed : List String} {remaining : List NodeSpec} {node : NodeSpec} :
    node ∈ blockedAfter completed remaining ↔ node ∈ remaining ∧ ¬ node.dependencies ⊆ completed := by
  rw [blockedAfter, List.mem_filter, Bool.not_eq_true', ← Bool.not_eq_true, List.all_eq_true]
  exact and_congr_right fun _ => not_congr (forall₂_congr fun _ _ => List.contains_iff_mem)

/-- Layers that are done, and the nodes that remain: none of them could have been in the last layer. -/
structure Peeled (nodes : List NodeSpec) (done : List (List String)) (remaining : List NodeSpec) : Prop where
  inside : remaining.Sublist nodes
  split : ∀ id ∈ ids nodes, id ∈ done.flatten ↔ id ∉ ids remaining
  layered : Layered (needs nodes) done
  pending : ∀ before last, done = before ++ [last] → ∀ node ∈ remaining, ¬ node.dependencies ⊆ before.flatten

section Peeled

variable {nodes remaining : List NodeSpec} {done : List (List String)}

theorem eq_of_nodeId (unique : (ids nodes).Nodup) {node other : NodeSpec} (member : node ∈ nodes)
    (member' : other ∈ nodes) (same : node.nodeId = other.nodeId) : node = other := by
  have found := byId_of_mem unique member
  rw [same, byId_of_mem unique member'] at found
  exact (Option.some.inj found).symm

/-- Without a cycle, a round takes a node. -/
theorem Peeled.progress (h : WellKnown nodes) (acyclic : AcyclicGraph nodes) (peeled : Peeled nodes done remaining)
    (left : remaining ≠ []) : readyAfter done.flatten remaining ≠ [] := by
  have some : ids remaining ≠ [] := by simpa [ids] using left
  obtain ⟨source, listed, free⟩ := ((acyclic_needs h.unique).mpr acyclic).exists_source some
  obtain ⟨node, member, rfl⟩ := List.mem_map.mp listed
  refine List.ne_nil_of_mem (mem_readyAfter.mpr ⟨member, fun dependency needed => ?_⟩)
  have known := peeled.inside.subset member
  rw [← needs_of_mem h.unique known] at needed
  exact (peeled.split dependency (h.needs_subset _ needed)).mpr (free dependency needed)

/-- A round leaves one layer more. -/
theorem Peeled.round (h : WellKnown nodes) (peeled : Peeled nodes done remaining) :
    Peeled nodes (done ++ [ids (readyAfter done.flatten remaining)]) (blockedAfter done.flatten remaining) where
  inside := List.filter_sublist.trans peeled.inside
  split := by
    intro id known
    rw [List.flatten_append, List.flatten_singleton, List.mem_append, peeled.split id known]
    constructor
    · rintro (absent | taken) blocked
      · exact absent ((List.filter_sublist.map NodeSpec.nodeId).subset blocked)
      · obtain ⟨node, ready, rfl⟩ := List.mem_map.mp taken
        obtain ⟨other, blocked, same⟩ := List.mem_map.mp blocked
        obtain ⟨listed, fits⟩ := mem_readyAfter.mp ready
        obtain ⟨listed', unfit⟩ := mem_blockedAfter.mp blocked
        obtain rfl := eq_of_nodeId h.unique (peeled.inside.subset listed') (peeled.inside.subset listed) same
        exact unfit fits
    · intro unblocked
      by_cases absent : id ∈ ids remaining
      · right
        obtain ⟨node, listed, rfl⟩ := List.mem_map.mp absent
        refine List.mem_map_of_mem (mem_readyAfter.mpr ⟨listed, ?_⟩)
        by_contra unfit
        exact unblocked (List.mem_map_of_mem (mem_blockedAfter.mpr ⟨listed, unfit⟩))
      · exact .inl absent
  layered := by
    have known : ∀ {node}, node ∈ readyAfter done.flatten remaining → node ∈ nodes :=
      fun ready => peeled.inside.subset (mem_readyAfter.mp ready).1
    refine peeled.layered.concat ?_ ?_ ?_ ?_
    · exact h.unique.sublist ((List.filter_sublist.trans peeled.inside).map NodeSpec.nodeId)
    · intro id taken finished
      obtain ⟨node, ready, rfl⟩ := List.mem_map.mp taken
      refine (peeled.split node.nodeId (List.mem_map_of_mem (known ready))).mp finished ?_
      exact List.mem_map_of_mem (mem_readyAfter.mp ready).1
    · intro id taken
      obtain ⟨node, ready, rfl⟩ := List.mem_map.mp taken
      rw [needs_of_mem h.unique (known ready)]
      exact (mem_readyAfter.mp ready).2
    · intro before last last_eq id taken
      obtain ⟨node, ready, rfl⟩ := List.mem_map.mp taken
      rw [needs_of_mem h.unique (known ready)]
      exact peeled.pending before last last_eq node (mem_readyAfter.mp ready).1
  pending := by
    intro before last last_eq node blocked
    obtain ⟨rfl, _⟩ := List.append_inj' last_eq rfl
    exact (mem_blockedAfter.mp blocked).2

/-- The rounds end within as many as nodes remain, and raise nothing. -/
theorem Peeled.run (h : WellKnown nodes) (acyclic : AcyclicGraph nodes) {rounds : Nat}
    (peeled : Peeled nodes done remaining) (enough : remaining.length ≤ rounds) :
    ∃ layers, layersFrom rounds done.flatten remaining = .ok layers ∧ Layered (needs nodes) (done ++ layerIds layers) ∧
      layers.flatten.Perm remaining ∧ ∀ layer ∈ layers, layer.Sublist remaining := by
  induction rounds generalizing done remaining with
  | zero =>
    obtain rfl := List.length_eq_zero_iff.mp (Nat.le_zero.mp enough)
    exact ⟨[], rfl, by simpa [layerIds] using peeled.layered, .refl _, fun layer member => by cases member⟩
  | succ rounds ih =>
    cases remaining with
    | nil => exact ⟨[], rfl, by simpa [layerIds] using peeled.layered, .refl _, fun layer member => by cases member⟩
    | cons first rest =>
      have some := peeled.progress h acyclic (List.cons_ne_nil first rest)
      have perm : (readyAfter done.flatten (first :: rest) ++ blockedAfter done.flatten (first :: rest)).Perm
          (first :: rest) := List.filter_append_perm _ _
      have fewer : (blockedAfter done.flatten (first :: rest)).length ≤ rounds := by
        have total := perm.length_eq
        have taken := List.length_pos_iff.mpr some
        rw [List.length_append] at total
        omega
      obtain ⟨layers, returned, layered, all, ordered⟩ := ih (peeled.round h) fewer
      rw [List.flatten_append, List.flatten_singleton] at returned
      refine ⟨readyAfter done.flatten (first :: rest) :: layers, ?_, ?_, ?_, ?_⟩
      · have nonempty : ¬ (first :: rest).filter (fun node => node.dependencies.all done.flatten.contains) = [] := some
        simp only [layersFrom, if_neg nonempty]
        exact Except.bind_ok.mpr ⟨layers, returned, rfl⟩
      · simpa only [layerIds, List.map_cons, List.append_assoc, List.singleton_append] using layered
      · rw [List.flatten_cons]
        exact (all.append_left _).trans perm
      · intro layer member
        rcases List.mem_cons.mp member with rfl | later
        · exact List.filter_sublist
        · exact (ordered layer later).trans List.filter_sublist

end Peeled

theorem peeled_start {nodes : List NodeSpec} : Peeled nodes [] nodes where
  inside := .refl _
  split := by
    intro id known
    simpa using known
  layered := layered_nil
  pending := fun before last split => by simp at split

/-! The two orders of a run spec. -/

/-- Every node once, with its dependencies earlier. -/
structure Ordering (nodes order : List NodeSpec) : Prop where
  once : order.Perm nodes
  earlier : ∀ before node after, order = before ++ node :: after → ∀ dependency ∈ node.dependencies,
    ∃ other ∈ before, other.nodeId = dependency

/-- Every node once, in the order of the source, one layer after the last of its dependencies. -/
structure Layering (nodes : List NodeSpec) (layers : List (List NodeSpec)) : Prop where
  once : layers.flatten.Perm nodes
  source : ∀ layer ∈ layers, layer.Sublist nodes
  earlier : ∀ node ∈ nodes, ∀ dependency ∈ node.dependencies,
    depth (layerIds layers) dependency < depth (layerIds layers) node.nodeId
  depth : ∀ node ∈ nodes, depth (layerIds layers) node.nodeId =
    (node.dependencies.map (fun dependency => depth (layerIds layers) dependency + 1)).foldr max 0

theorem Runnable.ordering {nodes : List NodeSpec} (h : Runnable nodes) : Ordering nodes (topological nodes) := by
  obtain ⟨_, once, inside, earlier, _⟩ := topological_ordered h.wellKnown
  have full := (length_topological h.wellKnown).mpr h.acyclic
  refine ⟨((List.Nodup.of_map _ once).subperm inside).perm_of_length_le full.ge, ?_⟩
  intro before node after split dependency needed
  have member : node ∈ nodes := inside (split ▸ List.mem_append_right _ List.mem_cons_self)
  have split' : ids (topological nodes) = ids before ++ node.nodeId :: ids after := by
    rw [split, ids, List.map_append, List.map_cons]
    rfl
  rw [← needs_of_mem h.unique member] at needed
  exact List.mem_map.mp (earlier _ _ _ split' needed)

theorem Runnable.layering {nodes : List NodeSpec} (h : Runnable nodes) :
    ∃ layers, layersFrom nodes.length [] nodes = .ok layers ∧ Layering nodes layers := by
  obtain ⟨layers, returned, layered, once, source⟩ := peeled_start.run h.wellKnown h.acyclic (Nat.le_refl _)
  rw [List.nil_append] at layered
  have placed : ∀ node ∈ nodes, node.nodeId ∈ (layerIds layers).flatten := by
    intro node member
    obtain ⟨layer, known, listed⟩ := List.mem_flatten.mp (once.mem_iff.mpr member)
    exact List.mem_flatten.mpr ⟨ids layer, List.mem_map_of_mem known, List.mem_map_of_mem listed⟩
  refine ⟨layers, returned, once, source, ?_, ?_⟩
  · intro node member dependency needed
    rw [← needs_of_mem h.unique member] at needed
    exact layered.depth_lt (placed node member) needed
  · intro node member
    rw [layered.depth_eq (placed node member), needs_of_mem h.unique member]

/-- A run is made of any nodes, at least one, that have unique ids, depend on nodes other than themselves
and make no cycle, once its id and its task are not blank. Its topological order and its layers are then
always found, and each has every node once and after what it depends on. -/
theorem run_graphs :
    (∀ schema runId task nodes, runPostInit schema runId task nodes = .ok () ↔
      schema = schemaVersion ∧ blank runId = false ∧ blank task = false ∧ nodes ≠ [] ∧ Runnable nodes) ∧
    ∀ spec : RunSpec,
      (∀ rounds, spec.nodes.length ≤ rounds → topologicalWithin rounds spec.nodes = some spec.topologicalOrder) ∧
      Ordering spec.nodes spec.topologicalOrder ∧
      ∃ layers, dependencyLayers spec = .ok layers ∧ Layering spec.nodes layers := by
  constructor
  · intro schema runId task nodes
    unfold runPostInit
    rw [then_ok, then_ok, then_ok, then_ok, check_ok, nonempty_ok, nonempty_ok, check_ok, validateGraph_ok]
  · intro spec
    exact ⟨(topological_ordered spec.runnable.wellKnown).1, spec.runnable.ordering, spec.runnable.layering⟩

/-- No nodes make a graph without any fault, and no run. -/
theorem no_nodes_refused : Runnable [] ∧ runPostInit schemaVersion "run" "task" [] ≠ .ok () := by
  refine ⟨⟨List.nodup_nil, ?_, ?_, ?_⟩, by decide⟩
  · intro node member
    cases member
  · intro node member
    cases member
  · intro id cycle
    obtain ⟨_, ⟨node, member, _⟩, _⟩ := Relation.TransGen.head'_iff.mp cycle
    cases member

end Onmc.Runtime
