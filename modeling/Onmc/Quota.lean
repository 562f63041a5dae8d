import Mathlib.Algebra.BigOperators.Group.List.Basic
import Mathlib.Algebra.Order.BigOperators.Group.List
import Mathlib.Algebra.Order.Group.Nat
import Mathlib.Algebra.Ring.Nat
import Mathlib.Data.Finset.Card
import Mathlib.Data.Finset.Dedup
import Mathlib.Data.Nat.Cast.Basic

/-! Labels with a minimum each: what is short of them, how few labels can make it up, and how many
different labels there can then be. -/
namespace Onmc.Quota

variable {α : Type} [DecidableEq α]

/-- What each label is short of its minimum, where it is. -/
def deficits (minimums : List (α × ℕ)) (labels : List α) : List (α × ℕ) :=
  (minimums.map (fun item => (item.1, item.2 - labels.count item.1))).filter (fun item => item.2 ≠ 0)

def short (minimums : List (α × ℕ)) (labels : List α) : List α := (deficits minimums labels).map Prod.fst

def need (minimums : List (α × ℕ)) (labels : List α) : ℕ := ((deficits minimums labels).map Prod.snd).sum

/-- Every label has its minimum. -/
def Met (minimums : List (α × ℕ)) (labels : List α) : Prop := ∀ item ∈ minimums, item.2 ≤ labels.count item.1

variable {minimums : List (α × ℕ)} {labels added : List α}

theorem mem_deficits {item : α × ℕ} : item ∈ deficits minimums labels ↔
    ∃ minimum, (item.1, minimum) ∈ minimums ∧ item.2 = minimum - labels.count item.1 ∧ item.2 ≠ 0 := by
  simp only [deficits, List.mem_filter, List.mem_map, decide_eq_true_eq]
  constructor
  · rintro ⟨⟨known, member, rfl⟩, left⟩
    exact ⟨known.2, member, rfl, left⟩
  · rintro ⟨minimum, member, amount, left⟩
    exact ⟨⟨_, member, Prod.ext rfl amount.symm⟩, left⟩

theorem nodup_short (once : (minimums.map Prod.fst).Nodup) : (short minimums labels).Nodup := by
  have whole : ((minimums.map (fun item => (item.1, item.2 - labels.count item.1))).map Prod.fst).Nodup := by
    rw [List.map_map]
    exact once
  exact whole.sublist (List.filter_sublist.map Prod.fst)

/-- Different labels share the places among them. -/
theorem sum_count_le {keys : List α} (once : keys.Nodup) (labels : List α) :
    (keys.map (fun key => labels.count key)).sum ≤ labels.length := by
  induction labels with
  | nil => simp
  | cons label labels ih =>
    have one : (keys.map (fun key => if label = key then 1 else 0)).sum ≤ 1 := by
      have counted : (keys.map (fun key => if label = key then 1 else 0)).sum = keys.count label := by
        clear ih once
        induction keys with
        | nil => rfl
        | cons key keys ih =>
          rw [List.map_cons, List.sum_cons, ih, List.count_cons]
          by_cases same : label = key
          · simp [same, add_comm]
          · simp [same, Ne.symm same]
      rw [counted]
      exact List.nodup_iff_count_le_one.mp once label
    have split : (keys.map (fun key => (label :: labels).count key)).sum =
        (keys.map (fun key => labels.count key)).sum + (keys.map (fun key => if label = key then 1 else 0)).sum := by
      rw [← List.sum_map_add]
      simp only [List.count_cons, beq_iff_eq]
    rw [split, List.length_cons]
    omega

/-- Labels that make up every deficit leave room for few new ones. -/
theorem need_add_new_le (once : (minimums.map Prod.fst).Nodup) (met : Met minimums (labels ++ added)) {others : List α}
    (distinct : others.Nodup) (apart : ∀ key ∈ others, key ∉ short minimums labels) (used : others ⊆ added) :
    need minimums labels + others.length ≤ added.length := by
  have keys : (short minimums labels ++ others).Nodup :=
    List.nodup_append.mpr ⟨nodup_short once, distinct, fun a first b second same => apart b second (same ▸ first)⟩
  have places := sum_count_le keys added
  rw [List.map_append, List.sum_append] at places
  have first : need minimums labels ≤ ((short minimums labels).map (fun key => added.count key)).sum := by
    rw [need, short, List.map_map]
    apply List.sum_le_sum
    intro item member
    obtain ⟨minimum, known, amount, -⟩ := mem_deficits.mp member
    have enough : minimum ≤ (labels ++ added).count item.1 := met _ known
    rw [List.count_append] at enough
    simp only [Function.comp_apply]
    omega
  have second : others.length ≤ (others.map (fun key => added.count key)).sum := by
    have ones : (others.map (fun _ => 1)).sum = others.length := by simp
    rw [← ones]
    apply List.sum_le_sum
    intro key member
    exact List.count_pos_iff.mpr (used member)
  omega

theorem need_le (once : (minimums.map Prod.fst).Nodup) (met : Met minimums (labels ++ added)) :
    need minimums labels ≤ added.length := by
  have room := need_add_new_le once met (List.nodup_nil : ([] : List _).Nodup) (fun _ none => nomatch none)
    (List.nil_subset _)
  omega

/-- The different labels there are in the end. -/
theorem card_le (once : (minimums.map Prod.fst).Nodup) (met : Met minimums (labels ++ added)) :
    (labels ++ added).toFinset.card + need minimums labels ≤
      (labels ++ short minimums labels).toFinset.card + added.length := by
  have room := need_add_new_le once met (Finset.nodup_toList (added.toFinset \ (labels ++ short minimums labels).toFinset))
    (fun key member => by
      have fresh := (Finset.mem_sdiff.mp (Finset.mem_toList.mp member)).2
      exact fun known => fresh (List.mem_toFinset.mpr (List.mem_append_right _ known)))
    (fun key member => List.mem_toFinset.mp (Finset.mem_sdiff.mp (Finset.mem_toList.mp member)).1)
  rw [Finset.length_toList] at room
  have covered : (labels ++ added).toFinset ⊆
      (labels ++ short minimums labels).toFinset ∪ (added.toFinset \ (labels ++ short minimums labels).toFinset) := by
    intro key member
    rw [Finset.union_sdiff_self_eq_union, Finset.mem_union, List.mem_toFinset, List.mem_toFinset]
    rcases List.mem_append.mp (List.mem_toFinset.mp member) with held | held
    · exact .inl (List.mem_append_left _ held)
    · exact .inr held
  have bound := (Finset.card_le_card covered).trans (Finset.card_union_le _ _)
  omega

/-! Making up the deficits, and filling up with labels used once. -/

def fill (minimums : List (α × ℕ)) (labels fresh : List α) : List α :=
  (deficits minimums labels).flatMap (fun item => List.replicate item.2 item.1) ++ fresh

theorem length_fill (fresh : List α) : (fill minimums labels fresh).length = need minimums labels + fresh.length := by
  simp [fill, need, List.length_flatMap]

theorem lookup_of_fresh {items : List (α × ℕ)} {key : α} (fresh : key ∉ items.map Prod.fst) :
    items.lookup key = none := by
  apply List.lookup_eq_none_iff.mpr
  intro item member
  exact bne_iff_ne.mpr fun same => fresh (same ▸ List.mem_map_of_mem member)

/-- Labels repeated under different keys. -/
theorem count_flatMap_replicate {items : List (α × ℕ)} (once : (items.map Prod.fst).Nodup) (key : α) :
    (items.flatMap (fun item => List.replicate item.2 item.1)).count key = (items.lookup key).getD 0 := by
  induction items with
  | nil => rfl
  | cons item items ih =>
    obtain ⟨label, amount⟩ := item
    obtain ⟨fresh, rest⟩ := List.nodup_cons.mp once
    rw [List.flatMap_cons, List.count_append, ih rest, List.count_replicate, List.lookup_cons]
    by_cases same : key = label
    · subst same
      simp [lookup_of_fresh fresh]
    · simp [beq_eq_false_iff_ne.mpr same, Ne.symm same]

theorem lookup_deficits (once : (minimums.map Prod.fst).Nodup) (key : α) :
    ((deficits minimums labels).lookup key).getD 0 = (minimums.lookup key).getD 0 - labels.count key := by
  induction minimums with
  | nil => simp [deficits]
  | cons item minimums ih =>
    obtain ⟨label, minimum⟩ := item
    obtain ⟨fresh, rest⟩ := List.nodup_cons.mp once
    have tail := ih rest
    by_cases left : minimum - labels.count label = 0
    · have dropped : deficits ((label, minimum) :: minimums) labels = deficits minimums labels := by
        simp [deficits, left]
      rw [dropped, tail, List.lookup_cons]
      by_cases same : key = label
      · subst same
        simp [lookup_of_fresh fresh, left]
      · simp only [beq_eq_false_iff_ne.mpr same]
    · have kept : deficits ((label, minimum) :: minimums) labels =
          (label, minimum - labels.count label) :: deficits minimums labels := by
        simp [deficits, left]
      rw [kept, List.lookup_cons, List.lookup_cons]
      by_cases same : key = label
      · simp [same]
      · simpa only [beq_eq_false_iff_ne.mpr same] using tail

/-- How often a label stands in the end. -/
theorem count_fill (once : (minimums.map Prod.fst).Nodup) (fresh : List α) (key : α) :
    (labels ++ fill minimums labels fresh).count key =
      max (labels.count key) ((minimums.lookup key).getD 0) + fresh.count key := by
  rw [List.count_append, fill, List.count_append, count_flatMap_replicate (nodup_short once), lookup_deficits once]
  omega

theorem met_fill (once : (minimums.map Prod.fst).Nodup) (fresh : List α) :
    Met minimums (labels ++ fill minimums labels fresh) := by
  intro item member
  have held : minimums.lookup item.1 = some item.2 := by
    obtain ⟨before, after, split⟩ := List.append_of_mem member
    refine List.lookup_eq_some_iff.mpr ⟨before, after, split, ?_⟩
    intro other found
    rw [split, List.map_append, List.nodup_append] at once
    have apart := once.2.2 other.1 (List.mem_map_of_mem found) item.1 List.mem_cons_self
    simpa using Ne.symm apart
  rw [count_fill once, held, Option.getD_some]
  omega

theorem toFinset_fill (minimums : List (α × ℕ)) (labels fresh : List α) :
    (labels ++ fill minimums labels fresh).toFinset = (labels ++ short minimums labels).toFinset ∪ fresh.toFinset := by
  ext key
  simp only [fill, short, List.mem_toFinset, List.mem_append, Finset.mem_union, List.mem_flatMap, List.mem_map,
    List.mem_replicate]
  constructor
  · rintro (held | ⟨item, member, -, rfl⟩ | held)
    · exact .inl (.inl held)
    · exact .inl (.inr ⟨item, member, rfl⟩)
    · exact .inr held
  · rintro ((held | ⟨item, member, rfl⟩) | held)
    · exact .inl held
    · obtain ⟨-, -, -, left⟩ := mem_deficits.mp member
      exact .inr (.inl ⟨item, member, left, rfl⟩)
    · exact .inr (.inr held)

/-- Filling up with new labels reaches the bound on the different labels. -/
theorem card_fill {fresh : List α} (distinct : fresh.Nodup)
    (apart : ∀ key ∈ fresh, key ∉ labels ++ short minimums labels) :
    (labels ++ fill minimums labels fresh).toFinset.card =
      (labels ++ short minimums labels).toFinset.card + fresh.length := by
  rw [toFinset_fill, Finset.card_union_of_disjoint, List.toFinset_card_of_nodup distinct]
  rw [Finset.disjoint_left]
  intro key known new
  exact apart key (List.mem_toFinset.mp new) (List.mem_toFinset.mp known)

end Onmc.Quota
