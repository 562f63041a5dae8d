import Mathlib.Data.Fintype.Card
import Mathlib.Data.Set.Finite.List
import Mathlib.Order.WellFounded

/-! Orders and layers in which everything comes after what it needs. -/
namespace Onmc.Toposort

variable {α : Type} {needs : α → List α}

/-- Nothing needs itself, however far down. -/
def Acyclic (needs : α → List α) : Prop := ∀ a, ¬ Relation.TransGen (fun a b => b ∈ needs a) a a

/-- Among finitely many without a cycle, one needs none of the others. -/
theorem Acyclic.exists_source (acyclic : Acyclic needs) {left : List α} (some : left ≠ []) :
    ∃ a ∈ left, ∀ b ∈ needs a, b ∉ left := by
  let below (b a : {a // a ∈ left}) : Prop := Relation.TransGen (fun a b => b ∈ needs a) a.1 b.1
  have : IsTrans {a // a ∈ left} below := ⟨fun _ _ _ first second => second.trans first⟩
  have : Std.Irrefl below := ⟨fun a => acyclic a.1⟩
  have : Finite {a // a ∈ left} := (List.finite_toSet left).to_subtype
  have founded : WellFounded below := Finite.wellFounded_of_trans_of_irrefl below
  obtain ⟨first, member⟩ := List.exists_mem_of_ne_nil left some
  obtain ⟨source, _, least⟩ := founded.has_min Set.univ ⟨⟨first, member⟩, Set.mem_univ _⟩
  refine ⟨source.1, source.2, fun b needed inside => ?_⟩
  exact least ⟨b, inside⟩ (Set.mem_univ _) (.single needed)

/-! Orders. -/

/-- Everything comes after what it needs. -/
def Earlier (needs : α → List α) (order : List α) : Prop :=
  ∀ before a after, order = before ++ a :: after → needs a ⊆ before

theorem earlier_nil : Earlier needs [] := by
  intro before a after split
  simp at split

theorem Earlier.concat {order : List α} (h : Earlier needs order) {a : α} (met : needs a ⊆ order) :
    Earlier needs (order ++ [a]) := by
  intro before b after split
  induction after using List.reverseRecOn with
  | nil =>
    obtain ⟨rfl, same⟩ := List.append_inj' split rfl
    obtain rfl := List.head_eq_of_cons_eq same
    exact met
  | append_singleton after last _ =>
    rw [← List.cons_append, ← List.append_assoc] at split
    obtain ⟨same, _⟩ := List.append_inj' split rfl
    exact h before b after same

/-- What can be put in order has no cycle. -/
theorem Earlier.acyclic [DecidableEq α] {order : List α} (h : Earlier needs order)
    (all : ∀ a, a ∉ order → needs a = []) : Acyclic needs := by
  have sooner : ∀ {a b}, b ∈ needs a → order.idxOf b < order.idxOf a := by
    intro a b needed
    have inside : a ∈ order := by
      by_contra outside
      rw [all a outside] at needed
      cases needed
    obtain ⟨before, after, split, new⟩ := List.eq_append_cons_of_mem inside
    have member := h before a after split needed
    rw [split, List.idxOf_append_of_mem member, List.idxOf_append_of_notMem new]
    exact (List.idxOf_lt_length_of_mem member).trans_le (Nat.le_add_right _ _)
  have decreases : ∀ {a b}, Relation.TransGen (fun a b => b ∈ needs a) a b → order.idxOf b < order.idxOf a := by
    intro a b path
    induction path with
    | single needed => exact sooner needed
    | tail _ needed ih => exact (sooner needed).trans ih
  exact fun a cycle => absurd (decreases cycle) (Nat.lt_irrefl _)

/-! Layers. -/

/-- Layers that share nothing, each as early as what it needs permits. -/
structure Layered (needs : α → List α) (layers : List (List α)) : Prop where
  apart : layers.flatten.Nodup
  earlier : ∀ before layer after, layers = before ++ layer :: after → ∀ a ∈ layer, needs a ⊆ before.flatten
  tight : ∀ before last layer after, layers = before ++ last :: layer :: after → ∀ a ∈ layer, ∃ b ∈ needs a, b ∈ last

theorem layered_nil : Layered needs [] where
  apart := List.nodup_nil
  earlier := fun before layer after split => by simp at split
  tight := fun before last layer after split => by simp at split

/-- A layer of what is met now and was not before. -/
theorem Layered.concat {layers : List (List α)} (h : Layered needs layers) {layer : List α} (once : layer.Nodup)
    (new : ∀ a ∈ layer, a ∉ layers.flatten) (met : ∀ a ∈ layer, needs a ⊆ layers.flatten)
    (pending : ∀ before last, layers = before ++ [last] → ∀ a ∈ layer, ¬ needs a ⊆ before.flatten) :
    Layered needs (layers ++ [layer]) where
  apart := by
    rw [List.flatten_append, List.flatten_singleton]
    refine h.apart.append once ?_
    intro a old fresh
    exact new a fresh old
  earlier := by
    intro before other after split a member
    induction after using List.reverseRecOn with
    | nil =>
      obtain ⟨rfl, same⟩ := List.append_inj' split rfl
      obtain rfl := List.head_eq_of_cons_eq same
      exact met a member
    | append_singleton after last _ =>
      rw [← List.cons_append, ← List.append_assoc] at split
      obtain ⟨same, _⟩ := List.append_inj' split rfl
      exact h.earlier before other after same a member
  tight := by
    intro before last other after split a member
    induction after using List.reverseRecOn with
    | nil =>
      rw [List.append_cons before last [other]] at split
      obtain ⟨same, rest⟩ := List.append_inj' split rfl
      obtain rfl := List.head_eq_of_cons_eq rest
      have unmet := pending before last same a member
      have needed := met a member
      rw [same, List.flatten_append, List.flatten_singleton] at needed
      by_contra none
      refine unmet fun b inside => ?_
      rcases List.mem_append.mp (needed inside) with earlier | late
      · exact earlier
      · exact absurd ⟨b, inside, late⟩ none
    | append_singleton after final _ =>
      rw [← List.cons_append, ← List.cons_append, ← List.append_assoc] at split
      obtain ⟨same, _⟩ := List.append_inj' split rfl
      exact h.tight before last other after same a member

/-- The layer that something is in. -/
def depth [DecidableEq α] (layers : List (List α)) (a : α) : Nat := layers.findIdx (fun layer => a ∈ layer)

theorem depth_of_mem [DecidableEq α] {before after : List (List α)} {layer : List α} {a : α} (member : a ∈ layer)
    (first : a ∉ before.flatten) : depth (before ++ layer :: after) a = before.length := by
  induction before with
  | nil => simp [depth, List.findIdx_cons, member]
  | cons top before ih =>
    rw [List.flatten_cons, List.mem_append, not_or] at first
    have rest := ih first.2
    simp only [depth] at rest
    simp [depth, List.findIdx_cons, first.1, rest]

theorem exists_layer {layers : List (List α)} {a : α} (member : a ∈ layers.flatten) :
    ∃ before layer after, layers = before ++ layer :: after ∧ a ∈ layer := by
  obtain ⟨layer, known, inside⟩ := List.mem_flatten.mp member
  obtain ⟨before, after, split⟩ := List.append_of_mem known
  exact ⟨before, layer, after, split, inside⟩

theorem Layered.first {layers before after : List (List α)} {layer : List α} (h : Layered needs layers)
    (split : layers = before ++ layer :: after) {a : α} (member : a ∈ layer) : a ∉ before.flatten := by
  have apart := h.apart
  rw [split, List.flatten_append, List.flatten_cons, List.nodup_append] at apart
  intro earlier
  exact apart.2.2 a earlier a (List.mem_append_left _ member) rfl

theorem foldr_max_le {values : List Nat} {bound : Nat} (bounded : ∀ n ∈ values, n ≤ bound) :
    values.foldr max 0 ≤ bound := by
  induction values with
  | nil => exact Nat.zero_le _
  | cons n values ih =>
    rw [List.foldr_cons]
    exact max_le (bounded n List.mem_cons_self) (ih fun m member => bounded m (List.mem_cons_of_mem _ member))

theorem le_foldr_max {values : List Nat} {n : Nat} (member : n ∈ values) : n ≤ values.foldr max 0 := by
  induction values with
  | nil => cases member
  | cons m values ih =>
    rw [List.foldr_cons]
    rcases List.mem_cons.mp member with rfl | later
    · exact le_max_left _ _
    · exact (ih later).trans (le_max_right _ _)

variable [DecidableEq α]

/-- What something needs is in an earlier layer. -/
theorem Layered.depth_lt {layers : List (List α)} (h : Layered needs layers) {a b : α} (member : a ∈ layers.flatten)
    (needed : b ∈ needs a) : depth layers b < depth layers a := by
  obtain ⟨before, layer, after, split, inside⟩ := exists_layer member
  obtain ⟨front, other, rest, split', inside'⟩ := exists_layer (h.earlier before layer after split a inside needed)
  have whole : layers = front ++ other :: (rest ++ layer :: after) := by
    rw [split, split', List.append_assoc, List.cons_append]
  have here : depth layers a = before.length := by
    rw [split]
    exact depth_of_mem inside (h.first split inside)
  have there : depth layers b = front.length := by
    rw [whole]
    exact depth_of_mem inside' (h.first whole inside')
  rw [here, there, split', List.length_append, List.length_cons]
  omega

/-- The layer of something is one more than the last layer of what it needs. -/
theorem Layered.depth_eq {layers : List (List α)} (h : Layered needs layers) {a : α} (member : a ∈ layers.flatten) :
    depth layers a = ((needs a).map (fun b => depth layers b + 1)).foldr max 0 := by
  apply Nat.le_antisymm
  · obtain ⟨before, layer, after, split, inside⟩ := exists_layer member
    have here : depth layers a = before.length := by
      rw [split]
      exact depth_of_mem inside (h.first split inside)
    rw [here]
    induction before using List.reverseRecOn with
    | nil => exact Nat.zero_le _
    | append_singleton before last _ =>
      have split' : layers = before ++ last :: layer :: after := by
        rw [split, List.append_assoc, List.singleton_append]
      obtain ⟨b, needed, known⟩ := h.tight before last layer after split' a inside
      have there : depth layers b = before.length := by
        rw [split']
        exact depth_of_mem known (h.first split' known)
      rw [List.length_append, List.length_singleton, ← there]
      exact le_foldr_max (List.mem_map_of_mem needed)
  · apply foldr_max_le
    intro n listed
    obtain ⟨b, needed, rfl⟩ := List.mem_map.mp listed
    exact h.depth_lt member needed

end Onmc.Toposort
