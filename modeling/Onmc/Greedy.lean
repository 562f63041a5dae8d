import Mathlib.Algebra.Ring.Int.Defs
import Mathlib.Data.List.Sort

/-! A greedy pass: an item is kept unless it conflicts with one that has been kept. -/
namespace Onmc.Greedy

variable {α : Type} (conflicts : α → α → Bool)

/-- The pass over the items that are left, with what has been kept and the number dropped. -/
def pass (kept : List α) (dropped : Nat) : List α → List α × Nat
  | [] => (kept, dropped)
  | a :: items =>
    if kept.any (conflicts a) then pass kept (dropped + 1) items else pass (kept ++ [a]) dropped items

variable {conflicts}

theorem pass_length (kept : List α) (dropped : Nat) (items : List α) :
    (pass conflicts kept dropped items).1.length + (pass conflicts kept dropped items).2 =
      kept.length + dropped + items.length := by
  induction items generalizing kept dropped with
  | nil => simp [pass]
  | cons a items ih =>
    simp only [pass]
    split
    · rw [ih, List.length_cons]
      omega
    · rw [ih, List.length_append, List.length_cons, List.length_cons, List.length_nil]
      omega

theorem pass_begins (kept : List α) (dropped : Nat) (items : List α) :
    kept <+: (pass conflicts kept dropped items).1 := by
  induction items generalizing kept dropped with
  | nil => exact List.prefix_rfl
  | cons a items ih =>
    simp only [pass]
    split
    · exact ih kept (dropped + 1)
    · exact (List.prefix_append kept [a]).trans (ih (kept ++ [a]) dropped)

theorem pass_sublist (kept : List α) (dropped : Nat) (items : List α) :
    List.Sublist (pass conflicts kept dropped items).1 (kept ++ items) := by
  induction items generalizing kept dropped with
  | nil => simp [pass]
  | cons a items ih =>
    simp only [pass]
    split
    · exact (ih kept (dropped + 1)).trans ((List.Sublist.refl kept).append (List.sublist_cons_self a items))
    · simpa using ih (kept ++ [a]) dropped

/-- No item that is kept conflicts with one kept before it. -/
theorem pass_apart (kept : List α) (dropped : Nat) (items : List α)
    (apart : kept.Pairwise (fun earlier later => conflicts later earlier = false)) :
    (pass conflicts kept dropped items).1.Pairwise (fun earlier later => conflicts later earlier = false) := by
  induction items generalizing kept dropped with
  | nil => exact apart
  | cons a items ih =>
    simp only [pass]
    split
    · exact ih kept (dropped + 1) apart
    · rename_i free
      apply ih
      refine List.pairwise_append.mpr ⟨apart, List.pairwise_singleton _ _, ?_⟩
      intro earlier member later last
      rw [List.mem_singleton.mp last]
      simp only [List.any_eq_true, not_exists, not_and, Bool.not_eq_true] at free
      exact free earlier member

/-- Every item is kept, or conflicts with a kept one that comes no later. -/
theorem pass_covers {r : α → α → Prop} (kept : List α) (dropped : Nat) (items : List α)
    (ordered : (kept ++ items).Pairwise r) :
    ∀ a ∈ items, a ∈ (pass conflicts kept dropped items).1 ∨
      ∃ b ∈ (pass conflicts kept dropped items).1, conflicts a b = true ∧ r b a := by
  induction items generalizing kept dropped with
  | nil => simp
  | cons a items ih =>
    intro c member
    simp only [pass]
    split
    · rename_i taken
      have rest : (kept ++ items).Pairwise r :=
        ordered.sublist ((List.Sublist.refl kept).append (List.sublist_cons_self a items))
      rcases List.mem_cons.mp member with rfl | later
      · obtain ⟨b, early, conflict⟩ := List.any_eq_true.mp taken
        have before := (List.pairwise_append.mp ordered).2.2 b early c List.mem_cons_self
        exact .inr ⟨b, (pass_begins kept (dropped + 1) items).subset early, conflict, before⟩
      · exact ih kept (dropped + 1) rest c later
    · have rest : ((kept ++ [a]) ++ items).Pairwise r := by simpa using ordered
      rcases List.mem_cons.mp member with rfl | later
      · exact .inl ((pass_begins (kept ++ [c]) dropped items).subset (by simp))
      · exact ih (kept ++ [a]) dropped rest c later

/-! A pass that takes items until a sum is reached; items that are forced are taken beyond it. -/

section

variable {α : Type} (need : ℤ) (forced : α → Bool) (weight : α → ℤ)

/-- What is taken, and the sum in the end. -/
def fill (sum : ℤ) : List α → List α × ℤ
  | [] => ([], sum)
  | a :: items =>
    if need ≤ sum ∧ forced a = false then ([], sum)
    else
      let (taken, total) := fill (sum + weight a) items
      (a :: taken, total)

variable {need forced weight}

theorem fill_total (sum : ℤ) (items : List α) :
    (fill need forced weight sum items).2 = sum + ((fill need forced weight sum items).1.map weight).sum := by
  induction items generalizing sum with
  | nil => simp [fill]
  | cons a items ih =>
    simp only [fill]
    split
    · simp
    · simp only [List.map_cons, List.sum_cons]
      rw [ih, Int.add_assoc]

theorem fill_prefix (sum : ℤ) (items : List α) : (fill need forced weight sum items).1 <+: items := by
  induction items generalizing sum with
  | nil => exact List.prefix_rfl
  | cons a items ih =>
    simp only [fill]
    split
    · exact List.nil_prefix
    · exact (List.prefix_cons_inj a).mpr (ih _)

/-- Forced items that come first are all taken. -/
theorem fill_forced {items : List α} (first : items.Pairwise (fun a b => forced a = false → forced b = false))
    (sum : ℤ) : ∀ a ∈ items, forced a = true → a ∈ (fill need forced weight sum items).1 := by
  induction items generalizing sum with
  | nil => exact fun _ none => nomatch none
  | cons b items ih =>
    obtain ⟨later, rest⟩ := List.pairwise_cons.mp first
    intro a member force
    have head : forced b = true := by
      rcases List.mem_cons.mp member with rfl | member
      · exact force
      · by_contra free
        have none := later a member (Bool.eq_false_iff.mpr free)
        rw [none] at force
        cases force
    simp only [fill, head, Bool.true_eq_false, and_false, if_false]
    rcases List.mem_cons.mp member with rfl | member
    · exact List.mem_cons_self
    · exact List.mem_cons_of_mem b (ih rest _ a member force)

/-- A sum that is not reached has taken everything. -/
theorem fill_short (sum : ℤ) (items : List α) (short : (fill need forced weight sum items).2 < need) :
    (fill need forced weight sum items).1 = items := by
  induction items generalizing sum with
  | nil => rfl
  | cons a items ih =>
    by_cases stop : need ≤ sum ∧ forced a = false
    · simp only [fill, stop, and_self, if_true] at short
      omega
    · simp only [fill, stop, if_false] at short ⊢
      rw [ih _ short]

/-- Without the last item, if it was not forced, the sum is not reached. -/
theorem fill_last (sum : ℤ) (items : List α) {before : List α} {last : α}
    (ends : (fill need forced weight sum items).1 = before ++ [last]) (free : forced last = false) :
    (fill need forced weight sum items).2 - weight last < need := by
  induction items generalizing sum before with
  | nil =>
    simp only [fill] at ends
    exact absurd ends.symm (by simp)
  | cons a items ih =>
    by_cases stop : need ≤ sum ∧ forced a = false
    · simp only [fill, stop, and_self, if_true] at ends
      exact absurd ends.symm (by simp)
    · simp only [fill, stop, if_false] at ends ⊢
      cases before with
      | nil =>
        obtain ⟨rfl, nothing⟩ := List.cons.inj ends
        have total := @fill_total _ need forced weight (sum + weight a) items
        rw [nothing] at total
        simp only [List.map_nil, List.sum_nil, Int.add_zero] at total
        rw [total]
        have unmet : ¬ need ≤ sum := fun met => stop ⟨met, free⟩
        omega
      | cons b before =>
        exact ih _ (List.cons.inj ends).2

end

end Onmc.Greedy
