import Mathlib.Data.List.Sort

/-! Limited searches: the first few of a stable ranking, and what a filter makes of them. -/
namespace Onmc.Ranking

variable {α : Type} (r : α → α → Prop) [DecidableRel r]

theorem filter_orderedInsert [IsTrans α r] (keep : α → Bool) (a : α) {ranked : List α}
    (sorted : ranked.Pairwise r) :
    (ranked.orderedInsert r a).filter keep =
      if keep a then (ranked.filter keep).orderedInsert r a else ranked.filter keep := by
  induction ranked with
  | nil => cases kept : keep a <;> simp [kept]
  | cons b ranked ih =>
    have rest := ih (List.Pairwise.of_cons sorted)
    by_cases before : r a b
    · have first : ∀ c ∈ (b :: ranked).filter keep, r a c := by
        intro c member
        rcases List.mem_cons.mp (List.mem_filter.mp member).1 with rfl | member
        · exact before
        · exact IsTrans.trans _ _ _ before (List.rel_of_pairwise_cons sorted member)
      rw [List.orderedInsert_cons_of_le r ranked before, List.filter_cons]
      cases kept : keep a with
      | false => simp
      | true =>
        cases remaining : (b :: ranked).filter keep with
        | nil => simp
        | cons c others =>
          have ahead : r a c := first c (remaining ▸ List.mem_cons_self)
          simp [ahead]
    · rw [List.orderedInsert_of_not_le r ranked before]
      cases kept : keep b with
      | false => simp [kept, rest]
      | true =>
        simp only [List.filter_cons, kept, if_true, rest]
        split
        · rw [List.orderedInsert_of_not_le r _ before]
        · rfl

/-- A stable ranking of the entries that are kept is what the filter leaves of the ranking. -/
theorem filter_insertionSort [IsTrans α r] [Std.Total r] (keep : α → Bool) (entries : List α) :
    (entries.insertionSort r).filter keep = (entries.filter keep).insertionSort r := by
  induction entries with
  | nil => rfl
  | cons a entries ih =>
    rw [List.insertionSort_cons, filter_orderedInsert r keep a (List.pairwise_insertionSort r entries), ih,
      List.filter_cons]
    split <;> rfl

/-- What is filtered out first makes no difference to a search that has no use for it. -/
theorem filterMap_filter_of_none {β : Type} {f : α → Option β} {keep : α → Bool} {entries : List α}
    (useless : ∀ a ∈ entries, keep a = false → f a = none) :
    (entries.filter keep).filterMap f = entries.filterMap f := by
  rw [List.filterMap_filter]
  apply List.filterMap_congr
  intro a member
  cases kept : keep a with
  | true => rfl
  | false => simp [useless a member kept]

/-- Within the first `n` nothing is kept out: all of them are kept, or all that is kept is among them. -/
def Uncrowded (n : Nat) (keep : α → Bool) (ranked : List α) : Prop :=
  (∀ a ∈ ranked.take n, keep a = true) ∨ ∀ a ∈ ranked.drop n, keep a = false

/-- To limit and then to filter is to filter and then to limit exactly where nothing is crowded out. -/
theorem filter_take_iff (n : Nat) (keep : α → Bool) (ranked : List α) :
    (ranked.take n).filter keep = (ranked.filter keep).take n ↔ Uncrowded n keep ranked := by
  have parts : ranked.filter keep = (ranked.take n).filter keep ++ (ranked.drop n).filter keep := by
    rw [← List.filter_append, List.take_append_drop]
  have short : ((ranked.take n).filter keep).length ≤ n :=
    (List.length_filter_le _ _).trans (List.length_take_le _ _)
  rw [parts, List.take_append, List.take_of_length_le short]
  constructor
  · intro same
    have nothing : ((ranked.drop n).filter keep).take (n - ((ranked.take n).filter keep).length) = [] :=
      List.append_right_eq_self.mp same.symm
    rcases List.take_eq_nil_iff.mp nothing with full | none
    · refine .inl (fun a member => ?_)
      have length : (ranked.take n).length ≤ ((ranked.take n).filter keep).length := by
        have := List.length_take_le n ranked
        omega
      exact List.length_filter_eq_length_iff.mp (Nat.le_antisymm (List.length_filter_le _ _) length) a member
    · exact .inr (fun a member => by simpa using List.filter_eq_nil_iff.mp none a member)
  · rintro (all | none)
    · by_cases long : n ≤ ranked.length
      · have full : ((ranked.take n).filter keep).length = n := by
          rw [List.filter_eq_self.mpr all, List.length_take, Nat.min_eq_left long]
        rw [full, Nat.sub_self, List.take_zero, List.append_nil]
      · rw [List.drop_eq_nil_of_le (Nat.le_of_not_le long)]
        simp
    · have empty : (ranked.drop n).filter keep = [] := by
        rw [List.filter_eq_nil_iff]
        intro a member
        simp [none a member]
      rw [empty, List.take_nil, List.append_nil]

/-- In a sorted list, the first element that passes is the least one that does. -/
theorem find?_sorted {β : Type} [PartialOrder β] {items : List β} (sorted : items.Pairwise (· ≤ ·)) {p : β → Bool}
    {a : β} : items.find? p = some a ↔ a ∈ items ∧ p a ∧ ∀ b ∈ items, p b → a ≤ b := by
  induction items with
  | nil => simp
  | cons b items ih =>
    obtain ⟨below, rest⟩ := List.pairwise_cons.mp sorted
    cases passes : p b with
    | true =>
      rw [List.find?_cons_of_pos passes, Option.some.injEq]
      constructor
      · rintro rfl
        refine ⟨List.mem_cons_self, passes, ?_⟩
        intro c member _
        rcases List.mem_cons.mp member with rfl | member
        · exact le_refl c
        · exact below c member
      · rintro ⟨member, _, least⟩
        rcases List.mem_cons.mp member with rfl | member
        · rfl
        · exact le_antisymm (below a member) (least b List.mem_cons_self passes)
    | false =>
      rw [List.find?_cons_of_neg (by simp [passes]), ih rest]
      constructor
      · rintro ⟨member, held, least⟩
        refine ⟨List.mem_cons_of_mem b member, held, ?_⟩
        intro c found ok
        rcases List.mem_cons.mp found with rfl | found
        · simp [passes] at ok
        · exact least c found ok
      · rintro ⟨member, held, least⟩
        rcases List.mem_cons.mp member with rfl | member
        · simp [passes] at held
        · exact ⟨member, held, fun c found => least c (List.mem_cons_of_mem b found)⟩

/-! Sorting by a key. -/

section

variable {β γ : Type} [LinearOrder γ] {key : β → γ}

/-- `sorted(items, key=key)` -/
def sortBy (key : β → γ) (items : List β) : List β := items.insertionSort (fun a b => key a ≤ key b)

theorem sortBy_perm (key : β → γ) (items : List β) : (sortBy key items).Perm items := List.perm_insertionSort _ _

theorem sortBy_sorted (key : β → γ) (items : List β) : (sortBy key items).Pairwise (fun a b => key a ≤ key b) := by
  have : Std.Total (fun a b : β => key a ≤ key b) := ⟨fun a b => le_total _ _⟩
  have : IsTrans β (fun a b => key a ≤ key b) := ⟨fun _ _ _ => le_trans⟩
  exact List.pairwise_insertionSort _ _

/-- A key that tells the items apart leaves one order for them. -/
theorem sortBy_unique {items others : List β} (perm : items.Perm others)
    (apart : ∀ a ∈ items, ∀ b ∈ items, key a = key b → a = b) : sortBy key items = sortBy key others := by
  have equal : ∀ a b, a ∈ sortBy key items → b ∈ sortBy key others → key a ≤ key b → key b ≤ key a → a = b := by
    intro a b first second before after
    exact apart a ((sortBy_perm key items).subset first) b
      (perm.symm.subset ((sortBy_perm key others).subset second)) (le_antisymm before after)
  have same := (sortBy_perm key items).trans (perm.trans (sortBy_perm key others).symm)
  exact same.eq_of_pairwise equal (sortBy_sorted key items) (sortBy_sorted key others)

end

end Onmc.Ranking
