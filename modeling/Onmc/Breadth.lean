import Mathlib.Data.List.Basic
import Mathlib.Data.List.Nodup
import Mathlib.Data.List.Perm.Subperm

/-! Breadth-first search from a list of seeds, among given nodes, with a bound on the depth and one on
the number of nodes visited. -/
namespace Onmc.Breadth

variable {α : Type} [DecidableEq α] (nodes : List α) (neighbors : α → List α) (maxDepth maxNodes : Nat)

/-- The nodes of a list that have not been queued, in order, each once. -/
def fresh (queued : List α) : List α → List α
  | [] => []
  | b :: rest => if b ∈ nodes ∧ b ∉ queued then b :: fresh (b :: queued) rest else fresh queued rest

variable {nodes} in
theorem mem_fresh {queued list : List α} {b : α} (h : b ∈ fresh nodes queued list) :
    b ∈ nodes ∧ b ∉ queued ∧ b ∈ list := by
  induction list generalizing queued with
  | nil => cases h
  | cons c rest ih =>
    simp only [fresh] at h
    split at h
    · rename_i new
      rcases List.mem_cons.mp h with rfl | later
      · exact ⟨new.1, new.2, List.mem_cons_self⟩
      · obtain ⟨inside, apart, member⟩ := ih later
        exact ⟨inside, fun old => apart (List.mem_cons_of_mem _ old), List.mem_cons_of_mem _ member⟩
    · obtain ⟨inside, apart, member⟩ := ih h
      exact ⟨inside, apart, List.mem_cons_of_mem _ member⟩

theorem fresh_nodup (queued list : List α) : (fresh nodes queued list).Nodup := by
  induction list generalizing queued with
  | nil => exact List.nodup_nil
  | cons c rest ih =>
    simp only [fresh]
    split
    · apply List.nodup_cons.mpr
      exact ⟨fun later => (mem_fresh later).2.1 List.mem_cons_self, ih (c :: queued)⟩
    · exact ih queued

variable {nodes} in
theorem mem_fresh_of_not_queued {queued list : List α} {b : α} (inside : b ∈ nodes) (member : b ∈ list)
    (apart : b ∉ queued) : b ∈ fresh nodes queued list := by
  induction list generalizing queued with
  | nil => cases member
  | cons c rest ih =>
    simp only [fresh]
    by_cases same : b = c
    · subst same
      rw [if_pos ⟨inside, apart⟩]
      exact List.mem_cons_self
    · have later := (List.mem_cons.mp member).resolve_left same
      split
      · apply List.mem_cons_of_mem
        exact ih later (fun old => apart ((List.mem_cons.mp old).resolve_left same))
      · exact ih later apart

/-- How many nodes have not been queued. -/
def unqueued (queued : List α) : Nat := (nodes.filter (· ∉ queued)).length

theorem unqueued_fresh (queued list : List α) :
    unqueued nodes (queued ++ fresh nodes queued list) + (fresh nodes queued list).length ≤
      unqueued nodes queued := by
  have split := List.length_eq_length_filter_add (l := nodes.filter (· ∉ queued))
    (fun a => a ∈ fresh nodes queued list)
  have found : (fresh nodes queued list).length ≤
      ((nodes.filter (· ∉ queued)).filter (fun a => a ∈ fresh nodes queued list)).length := by
    apply List.Subperm.length_le
    apply List.subperm_of_subset (fresh_nodup nodes queued list)
    intro b member
    obtain ⟨inside, apart, -⟩ := mem_fresh member
    simp [inside, apart, member]
  have left : nodes.filter (· ∉ queued ++ fresh nodes queued list) =
      (nodes.filter (· ∉ queued)).filter (fun a => !decide (a ∈ fresh nodes queued list)) := by
    rw [List.filter_filter]
    apply List.filter_congr
    intro b _
    simp [Bool.and_comm]
  rw [unqueued, left, unqueued]
  omega

/-- The loop: `queue` holds nodes with their depths, `queued` every node that was ever put there. -/
def search (queue : List (α × Nat)) (queued : List α) (depths : List (α × Nat)) : List (α × Nat) :=
  match queue with
  | [] => depths
  | (a, d) :: rest =>
    if depths.length < maxNodes then
      if a ∈ nodes then
        if maxDepth ≤ d then search rest queued (depths ++ [(a, d)])
        else
          let new := fresh nodes queued (neighbors a)
          search (rest ++ new.map (fun b => (b, d + 1))) (queued ++ new) (depths ++ [(a, d)])
      else search rest queued depths
    else depths
termination_by unqueued nodes queued + queue.length
decreasing_by
  · simp
  · have fewer := unqueued_fresh nodes queued (neighbors a)
    simp only [List.length_append, List.length_map, List.length_cons]
    omega
  · simp

def expand (seeds : List α) : List (α × Nat) :=
  search nodes neighbors maxDepth maxNodes (seeds.map (fun a => (a, 0))) seeds []

def Edge (a b : α) : Prop := b ∈ nodes ∧ b ∈ neighbors a

/-- A node can be reached from a seed in so many steps. -/
inductive Walk (seeds : List α) : Nat → α → Prop
  | seed {a : α} (start : a ∈ seeds) : Walk seeds 0 a
  | step {n : Nat} {a b : α} (walk : Walk seeds n a) (edge : Edge nodes neighbors a b) : Walk seeds (n + 1) b

/-- The breadth-first distance of a node. -/
def Distance (seeds : List α) (n : Nat) (a : α) : Prop :=
  Walk nodes neighbors seeds n a ∧ ∀ m, Walk nodes neighbors seeds m a → n ≤ m

/-- What holds of the loop's variables in every round. -/
structure Explored (seeds : List α) (queue : List (α × Nat)) (queued : List α) (depths : List (α × Nat)) : Prop where
  once : queued.Nodup
  entered : (depths ++ queue).map Prod.fst = queued
  inside : ∀ a ∈ queued, a ∈ nodes
  walks : ∀ e ∈ depths ++ queue, Walk nodes neighbors seeds e.2 e.1 ∧ e.2 ≤ maxDepth
  ordered : (depths ++ queue).Pairwise (fun e e' => e.2 ≤ e'.2)
  narrow : ∀ e ∈ queue, ∀ e' ∈ queue, e'.2 ≤ e.2 + 1
  closed : ∀ e ∈ depths, e.2 < maxDepth → ∀ b, Edge nodes neighbors e.1 b →
    ∃ e' ∈ depths ++ queue, e'.1 = b ∧ e'.2 ≤ e.2 + 1
  seeded : ∀ s ∈ seeds, (s, 0) ∈ depths ++ queue
  bounded : depths.length ≤ maxNodes

section

variable {nodes neighbors maxDepth maxNodes} {seeds queued : List α} {queue depths : List (α × Nat)}

omit [DecidableEq α] in
theorem Explored.start (once : seeds.Nodup) (inside : ∀ a ∈ seeds, a ∈ nodes) :
    Explored nodes neighbors maxDepth maxNodes seeds (seeds.map (fun a => (a, 0))) seeds [] := by
  constructor
  case once => exact once
  case entered => simp [Function.comp_def]
  case inside => exact inside
  case walks =>
    intro e member
    obtain ⟨a, start, rfl⟩ := List.mem_map.mp member
    exact ⟨.seed start, Nat.zero_le _⟩
  case ordered =>
    apply List.pairwise_map.mpr
    exact List.pairwise_of_forall (fun _ _ => Nat.le_refl 0)
  case narrow =>
    intro e _ e' member
    obtain ⟨a, -, rfl⟩ := List.mem_map.mp member
    exact Nat.zero_le _
  case closed => simp
  case seeded =>
    intro s start
    exact List.mem_map_of_mem start
  case bounded => exact Nat.zero_le _

omit [DecidableEq α] in
/-- The head of the queue is as deep as what was visited, and the rest of it hardly deeper. -/
theorem Explored.head {a : α} {d : Nat}
    (h : Explored nodes neighbors maxDepth maxNodes seeds ((a, d) :: queue) queued depths) :
    (∀ e ∈ depths, e.2 ≤ d) ∧ (∀ e ∈ queue, d ≤ e.2 ∧ e.2 ≤ d + 1) ∧ d ≤ maxDepth := by
  have ordered := List.pairwise_append.mp h.ordered
  refine ⟨fun e member => ordered.2.2 e member (a, d) List.mem_cons_self, fun e member => ⟨?_, ?_⟩, ?_⟩
  · exact (List.pairwise_cons.mp ordered.2.1).1 e member
  · exact h.narrow (a, d) List.mem_cons_self e (List.mem_cons_of_mem _ member)
  · exact (h.walks (a, d) (List.mem_append_right _ List.mem_cons_self)).2

omit [DecidableEq α] in
/-- One round at a node within the bounds. -/
theorem Explored.visit {a : α} {d : Nat} {new : List α}
    (h : Explored nodes neighbors maxDepth maxNodes seeds ((a, d) :: queue) queued depths)
    (room : depths.length < maxNodes)
    (found : ∀ b ∈ new, Edge nodes neighbors a b ∧ b ∉ queued ∧ d < maxDepth) (once : new.Nodup)
    (all : d < maxDepth → ∀ b, Edge nodes neighbors a b → b ∈ queued ∨ b ∈ new) :
    Explored nodes neighbors maxDepth maxNodes seeds (queue ++ new.map (fun b => (b, d + 1))) (queued ++ new)
      (depths ++ [(a, d)]) := by
  obtain ⟨below, near, deep⟩ := h.head
  have entries : depths ++ [(a, d)] ++ (queue ++ new.map (fun b => (b, d + 1))) =
      (depths ++ (a, d) :: queue) ++ new.map (fun b => (b, d + 1)) := by simp
  constructor
  case once =>
    apply List.nodup_append.mpr
    refine ⟨h.once, once, ?_⟩
    rintro b old c fresh rfl
    exact (found b fresh).2.1 old
  case entered =>
    rw [entries, List.map_append, h.entered]
    simp [Function.comp_def]
  case inside =>
    intro b member
    rcases List.mem_append.mp member with old | fresh
    · exact h.inside b old
    · exact (found b fresh).1.1
  case walks =>
    rw [entries]
    intro e member
    rcases List.mem_append.mp member with old | fresh
    · exact h.walks e old
    · obtain ⟨b, new_b, rfl⟩ := List.mem_map.mp fresh
      obtain ⟨edge, -, shallow⟩ := found b new_b
      exact ⟨(h.walks (a, d) (List.mem_append_right _ List.mem_cons_self)).1.step edge, shallow⟩
  case ordered =>
    rw [entries]
    apply List.pairwise_append.mpr
    refine ⟨h.ordered, ?_, ?_⟩
    · apply List.pairwise_map.mpr
      exact List.pairwise_of_forall (fun _ _ => Nat.le_refl _)
    · intro e old e' fresh
      obtain ⟨b, -, rfl⟩ := List.mem_map.mp fresh
      rcases List.mem_append.mp old with visited | waiting
      · have := below e visited
        omega
      · rcases List.mem_cons.mp waiting with rfl | waiting
        · exact Nat.le_succ d
        · exact (near e waiting).2
  case narrow =>
    have within : ∀ e ∈ queue ++ new.map (fun b => (b, d + 1)), d ≤ e.2 ∧ e.2 ≤ d + 1 := by
      intro e member
      rcases List.mem_append.mp member with waiting | fresh
      · exact near e waiting
      · obtain ⟨b, -, rfl⟩ := List.mem_map.mp fresh
        exact ⟨Nat.le_succ d, Nat.le_refl _⟩
    intro e member e' member'
    have := within e member
    have := within e' member'
    omega
  case closed =>
    rw [entries]
    intro e visited shallow b edge
    rcases List.mem_append.mp visited with old | last
    · obtain ⟨e', member, same, le⟩ := h.closed e old shallow b edge
      exact ⟨e', List.mem_append_left _ member, same, le⟩
    · obtain rfl := List.mem_singleton.mp last
      rcases all shallow b edge with known | fresh
      · rw [← h.entered] at known
        obtain ⟨e', member, same⟩ := List.mem_map.mp known
        refine ⟨e', List.mem_append_left _ member, same, ?_⟩
        rcases List.mem_append.mp member with old | waiting
        · exact Nat.le_succ_of_le (below e' old)
        · rcases List.mem_cons.mp waiting with rfl | waiting
          · exact Nat.le_succ d
          · exact (near e' waiting).2
      · exact ⟨(b, d + 1), List.mem_append_right _ (List.mem_map_of_mem fresh), rfl, Nat.le_refl _⟩
  case seeded =>
    rw [entries]
    exact fun s start => List.mem_append_left _ (h.seeded s start)
  case bounded =>
    rw [List.length_append]
    exact room

/-- The loop ends with what holds in every round, and with an empty queue where nodes were left. -/
theorem search_explored
    (h : Explored nodes neighbors maxDepth maxNodes seeds queue queued depths) :
    ∃ queue' queued', let found := search nodes neighbors maxDepth maxNodes queue queued depths
      Explored nodes neighbors maxDepth maxNodes seeds queue' queued' found ∧
      (found.length < maxNodes → queue' = []) := by
  fun_induction search nodes neighbors maxDepth maxNodes queue queued depths with
  | case1 queued depths => exact ⟨[], queued, h, fun _ => rfl⟩
  | case2 queued depths a d rest room inside deep ih =>
    apply ih
    have visit := h.visit room (fun b (found : b ∈ []) => absurd found List.not_mem_nil) List.nodup_nil
      (fun shallow => absurd deep (by omega))
    simpa using visit
  | case3 queued depths a d rest room inside shallow new ih =>
    apply ih
    apply h.visit room
    · intro b member
      obtain ⟨inside, apart, neighbor⟩ := mem_fresh member
      exact ⟨⟨inside, neighbor⟩, apart, by omega⟩
    · exact fresh_nodup nodes queued (neighbors a)
    · intro _ b edge
      by_cases known : b ∈ queued
      · exact .inl known
      · exact .inr (mem_fresh_of_not_queued edge.1 edge.2 known)
  | case4 queued depths a d rest room outside ih =>
    have member : a ∈ queued := by
      rw [← h.entered]
      exact List.mem_map_of_mem (List.mem_append_right _ List.mem_cons_self)
    exact absurd (h.inside a member) outside
  | case5 queued depths a d rest full => exact ⟨(a, d) :: rest, queued, h, fun room => absurd room full⟩

omit [DecidableEq α] in
/-- Where a walk leads, the search has been, unless something nearer still waits or the walk is long. -/
theorem Explored.frontier (h : Explored nodes neighbors maxDepth maxNodes seeds queue queued depths) {n : Nat} {a : α}
    (walk : Walk nodes neighbors seeds n a) :
    (∃ e ∈ depths ++ queue, e.1 = a ∧ e.2 ≤ n) ∨ (∃ e ∈ queue, e.2 < n) ∨ maxDepth < n := by
  induction walk with
  | seed start => exact .inl ⟨_, h.seeded _ start, rfl, Nat.le_refl 0⟩
  | step walk edge ih =>
    rename_i n a b
    rcases ih with ⟨e, member, rfl, le⟩ | ⟨e, member, less⟩ | long
    · rcases List.mem_append.mp member with visited | waiting
      · by_cases shallow : e.2 < maxDepth
        · obtain ⟨e', member', same, le'⟩ := h.closed e visited shallow b edge
          exact .inl ⟨e', member', same, by omega⟩
        · exact .inr (.inr (by omega))
      · exact .inr (.inl ⟨e, waiting, by omega⟩)
    · exact .inr (.inl ⟨e, member, by omega⟩)
    · exact .inr (.inr (by omega))

omit [DecidableEq α] in
theorem Explored.distance (h : Explored nodes neighbors maxDepth maxNodes seeds queue queued depths) {e : α × Nat}
    (visited : e ∈ depths) : Distance nodes neighbors seeds e.2 e.1 := by
  have member : e ∈ depths ++ queue := List.mem_append_left _ visited
  obtain ⟨walk, deep⟩ := h.walks e member
  refine ⟨walk, fun m other => ?_⟩
  rcases h.frontier other with ⟨e', member', same, le⟩ | ⟨e', waiting, less⟩ | long
  · have nodup : ((depths ++ queue).map Prod.fst).Nodup := h.entered ▸ h.once
    rw [← List.inj_on_of_nodup_map nodup member' member same]
    exact le
  · have before := (List.pairwise_append.mp h.ordered).2.2 e visited e' waiting
    omega
  · omega

end

variable {nodes} {seeds : List α} (once : seeds.Nodup) (inside : ∀ a ∈ seeds, a ∈ nodes)

include once inside

theorem expand_explored : ∃ queue queued,
    let found := expand nodes neighbors maxDepth maxNodes seeds
    Explored nodes neighbors maxDepth maxNodes seeds queue queued found ∧
    (found.length < maxNodes → queue = []) :=
  search_explored (Explored.start once inside)

/-- No node is visited twice, and no more of them than the bound. -/
theorem expand_once :
    ((expand nodes neighbors maxDepth maxNodes seeds).map Prod.fst).Nodup ∧
      (expand nodes neighbors maxDepth maxNodes seeds).length ≤ maxNodes := by
  obtain ⟨queue, queued, h, -⟩ := expand_explored neighbors maxDepth maxNodes once inside
  have nodup := h.once
  rw [← h.entered, List.map_append] at nodup
  exact ⟨(List.nodup_append.mp nodup).1, h.bounded⟩

/-- Each node is visited at its distance, within the bound. -/
theorem expand_distance {e : α × Nat} (visited : e ∈ expand nodes neighbors maxDepth maxNodes seeds) :
    e.1 ∈ nodes ∧ e.2 ≤ maxDepth ∧ Distance nodes neighbors seeds e.2 e.1 := by
  obtain ⟨queue, queued, h, -⟩ := expand_explored neighbors maxDepth maxNodes once inside
  refine ⟨h.inside _ ?_, (h.walks e (List.mem_append_left _ visited)).2, h.distance visited⟩
  rw [← h.entered]
  exact List.mem_map_of_mem (List.mem_append_left _ visited)

/-- Where the bound on the nodes is not met, nothing within the depth is left out. -/
theorem expand_complete (room : (expand nodes neighbors maxDepth maxNodes seeds).length < maxNodes) {n : Nat} {a : α}
    (walk : Walk nodes neighbors seeds n a) (near : n ≤ maxDepth) :
    a ∈ (expand nodes neighbors maxDepth maxNodes seeds).map Prod.fst := by
  obtain ⟨queue, queued, h, emptied⟩ := expand_explored neighbors maxDepth maxNodes once inside
  obtain rfl := emptied room
  rcases h.frontier walk with ⟨e, member, rfl, -⟩ | ⟨e, waiting, -⟩ | long
  · rw [List.append_nil] at member
    exact List.mem_map_of_mem member
  · cases waiting
  · omega

end Onmc.Breadth
