import Mathlib.Algebra.BigOperators.Group.List.Basic
import Mathlib.Data.List.Nodup
import Onmc.Dict

/-! Amounts added up under their keys, `d[key] = d.get(key, 0) + amount` for one pair after the other. -/
namespace Onmc.Tally

variable {M : Type} [AddCommMonoid M]

def add (items : List (String × M)) (pair : String × M) : List (String × M) :=
  Dict.setItem pair.1 ((items.lookup pair.1).getD 0 + pair.2) items

def tally (pairs : List (String × M)) : List (String × M) := pairs.foldl add []

/-- What comes in under a key. -/
def total (key : String) (pairs : List (String × M)) : M :=
  ((pairs.filter (fun pair => pair.1 = key)).map Prod.snd).sum

theorem total_cons (key : String) (pair : String × M) (pairs : List (String × M)) :
    total key (pair :: pairs) = (if pair.1 = key then pair.2 else 0) + total key pairs := by
  by_cases same : pair.1 = key
  · simp [total, same]
  · simp [total, same]

theorem total_append (key : String) (first second : List (String × M)) :
    total key (first ++ second) = total key first + total key second := by
  simp only [total, List.filter_append, List.map_append, List.sum_append]

theorem total_flatMap {α : Type} (key : String) (pairs : α → List (String × M)) (sources : List α) :
    total key (sources.flatMap pairs) = (sources.map (fun source => total key (pairs source))).sum := by
  induction sources with
  | nil => rfl
  | cons source sources ih => rw [List.flatMap_cons, total_append, ih, List.map_cons, List.sum_cons]

theorem mem_keys_foldl {key : String} (pairs : List (String × M)) : ∀ items : List (String × M),
    key ∈ Dict.keys (pairs.foldl add items) ↔ key ∈ Dict.keys items ∨ key ∈ pairs.map Prod.fst := by
  induction pairs with
  | nil => simp
  | cons pair pairs ih =>
    intro items
    rw [List.foldl_cons, ih, add, Dict.mem_keys_setItem, List.map_cons, List.mem_cons, or_comm (a := key = pair.1), or_assoc]

theorem nodup_keys_foldl (pairs : List (String × M)) : ∀ {items : List (String × M)},
    (Dict.keys items).Nodup → (Dict.keys (pairs.foldl add items)).Nodup := by
  induction pairs with
  | nil =>
    intro items distinct
    exact distinct
  | cons pair pairs ih =>
    intro items distinct
    exact ih (Dict.nodup_keys_setItem distinct)

theorem lookup_foldl {key : String} (pairs : List (String × M)) : ∀ items : List (String × M),
    ((pairs.foldl add items).lookup key).getD 0 = (items.lookup key).getD 0 + total key pairs := by
  induction pairs with
  | nil => simp [total]
  | cons pair pairs ih =>
    intro items
    rw [List.foldl_cons, ih, total_cons, add, Dict.lookup_setItem]
    by_cases same : key = pair.1
    · subst same
      simp [add_assoc]
    · simp [same, Ne.symm same]

theorem mem_keys {key : String} {pairs : List (String × M)} : key ∈ Dict.keys (tally pairs) ↔ key ∈ pairs.map Prod.fst := by
  rw [tally, mem_keys_foldl]
  simp [Dict.keys]

theorem nodup_keys (pairs : List (String × M)) : (Dict.keys (tally pairs)).Nodup :=
  nodup_keys_foldl pairs List.nodup_nil

/-- Each key comes with the sum of its amounts. -/
theorem mem_tally {pairs : List (String × M)} {item : String × M} :
    item ∈ tally pairs ↔ item.1 ∈ pairs.map Prod.fst ∧ item.2 = total item.1 pairs := by
  have sum : ((tally pairs).lookup item.1).getD 0 = total item.1 pairs := by
    rw [tally, lookup_foldl]
    simp
  constructor
  · intro member
    have found : (tally pairs).lookup item.1 = some item.2 := Dict.lookup_of_mem (nodup_keys pairs) member
    refine ⟨mem_keys.mp (Dict.mem_keys_of_lookup found), ?_⟩
    rw [found] at sum
    exact sum
  · rintro ⟨known, amount⟩
    obtain ⟨value, found⟩ := Option.isSome_iff_exists.mp (Dict.lookup_isSome_iff.mpr (mem_keys.mpr known))
    rw [found, Option.getD_some, ← amount] at sum
    have member := Dict.mem_of_lookup found
    rw [sum] at member
    exact member

/-- The order in which the pairs come in makes no difference but for the order of the items. -/
theorem tally_perm {pairs others : List (String × M)} (perm : pairs.Perm others) :
    (tally pairs).Perm (tally others) := by
  have distinct : ∀ pairs : List (String × M), (tally pairs).Nodup :=
    fun pairs => List.Nodup.of_map Prod.fst (nodup_keys pairs)
  rw [List.perm_ext_iff_of_nodup (distinct pairs) (distinct others)]
  intro item
  have same : total item.1 pairs = total item.1 others := ((perm.filter _).map _).sum_eq
  rw [mem_tally, mem_tally, same, (perm.map Prod.fst).mem_iff]

end Onmc.Tally
