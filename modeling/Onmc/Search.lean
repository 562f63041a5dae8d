import Mathlib.Data.List.Basic
import Mathlib.Logic.Relation

/-! Depth-first search with a stack and a set of what was seen, over any graph that is given by the
successors of its nodes. -/
namespace Onmc.Search

variable {α : Type} [DecidableEq α] (next : α → Option (List α)) (goal : α → Bool)

/-- `pending` has its top first. A node without an entry, and a search that takes more rounds than
there is fuel for, answer nothing. -/
def search : Nat → List α → List α → Option Bool
  | 0, _, _ => none
  | _ + 1, [], _ => some false
  | fuel + 1, current :: pending, seen =>
    if goal current then some true
    else if current ∈ seen then search fuel pending seen
    else
      match next current with
      | none => none
      | some more => search fuel (more ++ pending) (current :: seen)

def Edge (a b : α) : Prop := ∃ more, next a = some more ∧ b ∈ more

/-- A finite graph: its nodes have their successors among themselves. -/
def Closed (nodes : List α) : Prop := ∀ a ∈ nodes, ∃ more, next a = some more ∧ ∀ b ∈ more, b ∈ nodes

/-- How many nodes the nodes not seen can still push. -/
def unseen (seen : List α) : List α → Nat
  | [] => 0
  | a :: nodes => (if a ∈ seen then 0 else ((next a).getD []).length) + unseen seen nodes

variable {next goal}

theorem unseen_cons_le (next : α → Option (List α)) (current : α) (seen nodes : List α) :
    unseen next (current :: seen) nodes ≤ unseen next seen nodes := by
  induction nodes with
  | nil => exact Nat.le_refl 0
  | cons a nodes ih =>
    simp only [unseen]
    by_cases known : a ∈ seen
    · rw [if_pos (List.mem_cons_of_mem _ known), if_pos known]
      omega
    · rw [if_neg known]
      split
      · omega
      · omega

theorem unseen_cons {current : α} {seen nodes more : List α} (member : current ∈ nodes) (fresh : current ∉ seen)
    (successors : next current = some more) :
    unseen next (current :: seen) nodes + more.length ≤ unseen next seen nodes := by
  induction nodes with
  | nil => cases member
  | cons a nodes ih =>
    have rest := unseen_cons_le next current seen nodes
    simp only [unseen]
    by_cases here : a = current
    · subst here
      rw [if_pos List.mem_cons_self, if_neg fresh, successors, Option.getD_some]
      omega
    · have later := ih ((List.mem_cons.mp member).resolve_left (Ne.symm here))
      simp only [List.mem_cons, here, false_or]
      omega

/-- What holds of the stack and the seen nodes of a search from `start`. -/
structure Invariant (next : α → Option (List α)) (goal : α → Bool) (nodes start pending seen : List α) : Prop where
  inside : ∀ a ∈ pending, a ∈ nodes
  pendingReached : ∀ a ∈ pending, ∃ s ∈ start, Relation.ReflTransGen (Edge next) s a
  seenReached : ∀ a ∈ seen, ∃ s ∈ start, Relation.ReflTransGen (Edge next) s a
  plain : ∀ a ∈ seen, goal a = false
  starts : ∀ s ∈ start, s ∈ seen ∨ s ∈ pending
  edges : ∀ a ∈ seen, ∀ b, Edge next a b → b ∈ seen ∨ b ∈ pending

namespace Invariant

variable {nodes start pending seen : List α} {current : α}

omit [DecidableEq α] in
theorem skip (inv : Invariant next goal nodes start (current :: pending) seen) (known : current ∈ seen) :
    Invariant next goal nodes start pending seen := by
  have keep {a : α} (h : a ∈ seen ∨ a ∈ current :: pending) : a ∈ seen ∨ a ∈ pending := by
    rcases h with h | h
    · exact .inl h
    · rcases List.mem_cons.mp h with rfl | h
      · exact .inl known
      · exact .inr h
  exact {
    inside := fun a ha => inv.inside a (List.mem_cons_of_mem _ ha)
    pendingReached := fun a ha => inv.pendingReached a (List.mem_cons_of_mem _ ha)
    seenReached := inv.seenReached
    plain := inv.plain
    starts := fun s hs => keep (inv.starts s hs)
    edges := fun a ha b hb => keep (inv.edges a ha b hb) }

omit [DecidableEq α] in
theorem visit (inv : Invariant next goal nodes start (current :: pending) seen) (other : goal current = false)
    {more : List α} (successors : next current = some more) (closed : ∀ b ∈ more, b ∈ nodes) :
    Invariant next goal nodes start (more ++ pending) (current :: seen) := by
  obtain ⟨root, hroot, reach⟩ := inv.pendingReached current List.mem_cons_self
  have keep {a : α} (h : a ∈ seen ∨ a ∈ current :: pending) : a ∈ current :: seen ∨ a ∈ more ++ pending := by
    rcases h with h | h
    · exact .inl (List.mem_cons_of_mem _ h)
    · rcases List.mem_cons.mp h with rfl | h
      · exact .inl List.mem_cons_self
      · exact .inr (List.mem_append_right _ h)
  constructor
  · intro a ha
    rcases List.mem_append.mp ha with ha | ha
    · exact closed a ha
    · exact inv.inside a (List.mem_cons_of_mem _ ha)
  · intro a ha
    rcases List.mem_append.mp ha with ha | ha
    · exact ⟨root, hroot, reach.tail ⟨more, successors, ha⟩⟩
    · exact inv.pendingReached a (List.mem_cons_of_mem _ ha)
  · intro a ha
    rcases List.mem_cons.mp ha with rfl | ha
    · exact ⟨root, hroot, reach⟩
    · exact inv.seenReached a ha
  · intro a ha
    rcases List.mem_cons.mp ha with rfl | ha
    · exact other
    · exact inv.plain a ha
  · exact fun s hs => keep (inv.starts s hs)
  · intro a ha b hb
    rcases List.mem_cons.mp ha with rfl | ha
    · obtain ⟨more', same, member⟩ := hb
      cases successors.symm.trans same
      exact .inr (List.mem_append_left _ member)
    · exact keep (inv.edges a ha b hb)

omit [DecidableEq α] in
/-- With an empty stack the seen nodes are all there is to reach. -/
theorem finish (inv : Invariant next goal nodes start [] seen) {s b : α} (hs : s ∈ start)
    (reach : Relation.ReflTransGen (Edge next) s b) : b ∈ seen := by
  induction reach with
  | refl => simpa using inv.starts s hs
  | tail _ edge ih => simpa using inv.edges _ ih _ edge

end Invariant

theorem search_from {nodes start pending seen : List α} {fuel : Nat} (closed : Closed next nodes)
    (inv : Invariant next goal nodes start pending seen) (enough : pending.length + unseen next seen nodes < fuel) :
    ∃ found, search next goal fuel pending seen = some found ∧
      (found = true ↔ ∃ s ∈ start, ∃ b, Relation.ReflTransGen (Edge next) s b ∧ goal b = true) := by
  induction fuel generalizing pending seen with
  | zero => omega
  | succ fuel ih =>
    cases pending with
    | nil =>
      refine ⟨false, rfl, ?_⟩
      simp only [Bool.false_eq_true, false_iff]
      rintro ⟨s, hs, b, reach, found⟩
      rw [inv.plain b (inv.finish hs reach)] at found
      cases found
    | cons current pending =>
      rw [List.length_cons] at enough
      rw [search]
      by_cases found : goal current = true
      · obtain ⟨s, hs, reach⟩ := inv.pendingReached current List.mem_cons_self
        exact ⟨true, if_pos found, by simpa using ⟨s, hs, current, reach, found⟩⟩
      · rw [if_neg found]
        by_cases known : current ∈ seen
        · rw [if_pos known]
          exact ih (inv.skip known) (by omega)
        · obtain ⟨more, successors, inside⟩ := closed current (inv.inside current List.mem_cons_self)
          have shrinks := unseen_cons (inv.inside current List.mem_cons_self) known successors
          rw [if_neg known, successors]
          apply ih (inv.visit (Bool.eq_false_iff.mpr found) successors inside)
          rw [List.length_append]
          omega

/-- With the fuel for every edge, a search finds a goal exactly where one can be reached. -/
theorem search_iff (goal : α → Bool) {nodes start : List α} {fuel : Nat} (closed : Closed next nodes)
    (inside : ∀ a ∈ start, a ∈ nodes)
    (enough : start.length + unseen next [] nodes < fuel) :
    ∃ found, search next goal fuel start [] = some found ∧
      (found = true ↔ ∃ s ∈ start, ∃ b, Relation.ReflTransGen (Edge next) s b ∧ goal b = true) := by
  apply search_from closed _ enough
  exact {
    inside
    pendingReached := fun a ha => ⟨a, ha, .refl⟩
    seenReached := by simp
    plain := by simp
    starts := fun s hs => .inr hs
    edges := by simp }

end Onmc.Search
