import Mathlib.Data.List.Induction

/-! Deliveries of items that may later be withdrawn: each delivery selects some of the items eligible at
its time and lists others as withdrawn. -/
namespace Onmc

structure Delivery (α : Type) where
  selected : List α
  eligible : List α
  withdrawn : List α
deriving DecidableEq

namespace Delivery

variable {α : Type} {past : List (Delivery α)} {d : Delivery α} {a : α}

/-- Selected at some time and eligible ever since: whoever received the deliveries still relies on it. -/
def Outstanding (past : List (Delivery α)) (a : α) : Prop :=
  ∃ before d between, past = before ++ d :: between ∧ a ∈ d.selected ∧ ∀ later ∈ between, a ∈ later.eligible

/-- The first delivery that finds an outstanding item ineligible withdraws it, and only eligible items are
selected. -/
structure Complete (deliveries : List (Delivery α)) : Prop where
  withdraws : ∀ past d future, deliveries = past ++ d :: future → ∀ a, Outstanding past a → a ∉ d.eligible →
    a ∈ d.withdrawn
  selects : ∀ d ∈ deliveries, ∀ a ∈ d.selected, a ∈ d.eligible

theorem not_outstanding_nil (a : α) : ¬ Outstanding [] a := by
  rintro ⟨before, d, between, split, _⟩
  simp at split

theorem Outstanding.snoc (h : Outstanding (past ++ [d]) a) : a ∈ d.selected ∨ Outstanding past a ∧ a ∈ d.eligible := by
  obtain ⟨before, earlier, between, split, selected, since⟩ := h
  induction between using List.reverseRecOn with
  | nil =>
    obtain ⟨_, same⟩ := List.append_inj' split rfl
    obtain rfl : d = earlier := List.head_eq_of_cons_eq same
    exact .inl selected
  | append_singleton between last _ =>
    have ends : past ++ [d] = (before ++ earlier :: between) ++ [last] := by
      rw [split, List.append_assoc, List.cons_append]
    obtain ⟨rfl, same⟩ := List.append_inj' ends rfl
    obtain rfl : d = last := List.head_eq_of_cons_eq same
    refine .inr ⟨⟨before, earlier, between, rfl, selected, ?_⟩, since d (by simp)⟩
    intro later member
    exact since later (List.mem_append_left _ member)

theorem complete_nil : Complete ([] : List (Delivery α)) := by
  constructor
  · intro past d future split
    simp at split
  · intro d member
    cases member

theorem Complete.snoc (h : Complete past) (withdraws : ∀ a, Outstanding past a → a ∉ d.eligible → a ∈ d.withdrawn)
    (selects : ∀ a ∈ d.selected, a ∈ d.eligible) : Complete (past ++ [d]) := by
  constructor
  · intro before d' future split
    induction future using List.reverseRecOn with
    | nil =>
      obtain ⟨rfl, same⟩ := List.append_inj' split rfl
      obtain rfl : d = d' := List.head_eq_of_cons_eq same
      exact withdraws
    | append_singleton future last _ =>
      have ends : past ++ [d] = (before ++ d' :: future) ++ [last] := by
        rw [split, List.append_assoc, List.cons_append]
      obtain ⟨rfl, _⟩ := List.append_inj' ends rfl
      exact h.withdraws before d' future rfl
  · intro other member
    rcases List.mem_append.mp member with member | member
    · exact h.selects other member
    · rw [List.mem_singleton.mp member]
      exact selects

end Delivery
end Onmc
